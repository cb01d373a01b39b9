import EdgeGateway.Foundation.Rounding
import Mathlib.Algebra.BigOperators.Fin
import Mathlib.Algebra.Order.BigOperators.Group.Finset

/-! # The arithmetic of the controller

Clamping, ramp limits, derating and the division of a total among units, over any ordered field. The
square root is a parameter with its laws.
-/

namespace EdgeGateway.AgcAvc

universe u

variable {K : Type u} [Field K] [LinearOrder K]

structure CMath (K : Type u) [Field K] [LinearOrder K] where
  sqrt : K → K
  tanAcos : K → K
  sqrt_nonneg : ∀ x, 0 ≤ sqrt x
  sqrt_mul_self : ∀ x, 0 ≤ x → sqrt x * sqrt x = x

def copysign (magnitude sign : K) : K := if 0 ≤ sign then |magnitude| else -|magnitude|

def clampValue (value low high : K) : K :=
  if low > high then max high (min value low) else max low (min value high)

def positiveLimit (primary fallback : K) : K := if primary > 0 then primary else max 0 fallback

def rateLimit (previous requested risePerSec fallPerSec dtSec : K) : K :=
  if dtSec ≤ 0 then requested
  else if requested > previous then min requested (previous + max 0 risePerSec * dtSec)
  else max requested (previous - max 0 fallPerSec * dtSec)

def risingDerateFactor (value stop full : K) : K :=
  if full ≤ stop then 1 else clampValue ((value - stop) / (full - stop)) 0 1

def fallingDerateFactor (value full stop : K) : K :=
  if stop ≤ full then 1 else clampValue ((stop - value) / (stop - full)) 0 1

inductive PqPriority where
  | activePowerFirst
  | reactivePowerFirst
  | proportional
deriving DecidableEq, Repr

def applyPqEnvelope (math : CMath K) (p q s : K) (priority : PqPriority) : K × K :=
  if s ≤ 0 ∨ p * p + q * q ≤ s * s + 1 / 10 ^ 9 then (p, q)
  else
    match priority with
    | .reactivePowerFirst =>
      let q := clampValue q (-s) s
      (copysign (math.sqrt (max 0 (s * s - q * q))) p, q)
    | .proportional =>
      let magnitude := math.sqrt (p * p + q * q)
      if magnitude > 1 / 10 ^ 9 then (p * (s / magnitude), q * (s / magnitude)) else (p, q)
    | .activePowerFirst =>
      let p := clampValue p (-s) s
      (p, copysign (math.sqrt (max 0 (s * s - p * p))) q)

section Allocation

variable {n : Nat}

structure Share (K : Type u) (n : Nat) where
  result : Fin n → K
  active : Fin n → Bool
  remaining : K

variable (capacities weights : Fin n → K)

def Share.room (s : Share K n) (i : Fin n) : K := max 0 (capacities i - s.result i)

def Share.weightSum (s : Share K n) : K := ∑ i, if s.active i then weights i else 0

def Share.applied (s : Share K n) (i : Fin n) : K :=
  if s.active i then min (s.room capacities i) (s.remaining * weights i / s.weightSum weights) else 0

/-- The rounds of `allocateByCapacity`; a round that gives out nothing is the last. -/
def allocateLoop : Nat → Share K n → Share K n
  | 0, s => s
  | pass + 1, s =>
    if s.remaining ≤ 1 / 10 ^ 9 then s
    else if s.weightSum weights ≤ 1 / 10 ^ 12 then s
    else
      let given : Share K n :=
        { result := fun i => s.result i + s.applied capacities weights i
          active := fun i => s.active i && !decide (s.room capacities i - s.applied capacities weights i ≤ 1 / 10 ^ 9)
          remaining := s.remaining }
      let distributed := ∑ i, s.applied capacities weights i
      if distributed ≤ 1 / 10 ^ 9 then given
      else allocateLoop pass { given with remaining := s.remaining - distributed }

def allocateByCapacity (total : K) : Fin n → K :=
  if |total| ≤ 1 / 10 ^ 9 then fun _ => 0
  else
    let shared := allocateLoop capacities weights (n + 1)
      { result := fun _ => 0
        active := fun i => decide (capacities i > 1 / 10 ^ 9) && decide (weights i > 0)
        remaining := |total| }
    if total < 0 then fun i => -shared.result i else shared.result

/-- The first unit with the smallest allocation that is below its minimum. -/
def belowMinimum (result minimums : Fin n → K) : Option (Fin n) :=
  (List.finRange n).foldl (fun best i =>
    if |result i| > 1 / 10 ^ 9 ∧ |result i| + 1 / 10 ^ 9 < max 0 (minimums i) ∧
        best.all fun j => |result i| < |result j| then some i else best) none

def minimumLoop (total : K) (minimums : Fin n → K) : Nat → (Fin n → K) → Fin n → K
  | 0, _ => fun _ => 0
  | pass + 1, capacities =>
    let result := allocateByCapacity capacities weights total
    match belowMinimum result minimums with
    | none => result
    | some i => minimumLoop total minimums pass (Function.update capacities i 0)

def allocateWithMinimum (total : K) (minimums : Fin n → K) : Fin n → K :=
  minimumLoop weights total minimums (n + 1) capacities

end Allocation

end EdgeGateway.AgcAvc
