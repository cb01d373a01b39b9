import EdgeGateway.Foundation.SignedSums
import EdgeGateway.GraphEms.PowerNodes
import Mathlib.Analysis.Real.Sqrt

/-! # The limits of a power constraint, all together

Scaling a total down and clearing a direction only bring powers nearer to zero, so the limits of a
phase stay met; those of the totals do not, once the state clears one direction.
-/

namespace EdgeGateway.GraphEms

open SignedSums

section Phases

variable {K : Type} [Field K] [LinearOrder K] [IsStrictOrderedRing K]

/-- An exact square root. -/
structure IsRoot (sqrt : K → K) : Prop where
  nonneg : ∀ x, 0 ≤ x → 0 ≤ sqrt x
  mul_self : ∀ x, 0 ≤ x → sqrt x * sqrt x = x

theorem abs_clampAbs {limit : K} (hLimit : 0 < limit) (value : K) : |clampAbs value limit| = min |value| limit := by
  rw [clampAbs]
  split
  · rename_i hInside
    obtain hLimit' | hInside := hInside
    · exact absurd hLimit hLimit'
    · rw [min_eq_left hInside]
  · rename_i hOutside
    have hOver : limit ≤ |value| := (not_le.mp (not_or.mp hOutside).2).le
    rw [min_eq_right hOver]
    split
    · exact abs_of_pos hLimit
    · rw [abs_neg, abs_of_pos hLimit]

def limitedActive (sqrt : K → K) (phaseLimit p q : K) : K :=
  if apparentPower sqrt p q ≤ phaseLimit then p else remainingActive sqrt phaseLimit p q

variable {sqrt : K → K} {phaseLimit p q : K}

theorem apparentPower_le_iff (hRoot : IsRoot sqrt) (hLimit : 0 ≤ phaseLimit) :
    apparentPower sqrt p q ≤ phaseLimit ↔ p * p + q * q ≤ phaseLimit * phaseLimit := by
  have hSum : 0 ≤ p * p + q * q := add_nonneg (mul_self_nonneg p) (mul_self_nonneg q)
  rw [apparentPower, mul_self_le_mul_self_iff (hRoot.nonneg _ hSum) hLimit, hRoot.mul_self _ hSum]

theorem abs_remainingActive_le (hRoot : IsRoot sqrt) (limit p q : K) :
    |remainingActive sqrt limit p q| ≤ sqrt (max 0 (limit * limit - q * q)) := by
  have hRemaining := hRoot.nonneg _ (le_max_left 0 (limit * limit - q * q))
  rw [remainingActive]
  split
  · rw [abs_of_nonneg hRemaining]
  · split
    · rw [abs_neg, abs_of_nonneg hRemaining]
    · rw [abs_zero]
      exact hRemaining

theorem remaining_le (hRoot : IsRoot sqrt) (hOver : phaseLimit * phaseLimit < p * p + q * q) :
    sqrt (max 0 (phaseLimit * phaseLimit - q * q)) ≤ |p| := by
  have hRemaining := le_max_left 0 (phaseLimit * phaseLimit - q * q)
  rw [mul_self_le_mul_self_iff (hRoot.nonneg _ hRemaining) (abs_nonneg p), hRoot.mul_self _ hRemaining, abs_mul_abs_self]
  exact max_le (mul_self_nonneg p) (by linarith)

theorem abs_limitedActive_le (hRoot : IsRoot sqrt) (hLimit : 0 ≤ phaseLimit) (p q : K) :
    |limitedActive sqrt phaseLimit p q| ≤ |p| := by
  rw [limitedActive]
  split
  · exact le_rfl
  · rename_i hOver
    rw [apparentPower_le_iff hRoot hLimit, not_le] at hOver
    exact (abs_remainingActive_le hRoot phaseLimit p q).trans (remaining_le hRoot hOver)

theorem limitedActive_within (hRoot : IsRoot sqrt) (hLimit : 0 ≤ phaseLimit) (hReactive : |q| ≤ phaseLimit) (p : K) :
    limitedActive sqrt phaseLimit p q * limitedActive sqrt phaseLimit p q + q * q ≤ phaseLimit * phaseLimit := by
  rw [limitedActive]
  split
  · rename_i hInside
    exact (apparentPower_le_iff hRoot hLimit).mp hInside
  · have hSquare : q * q ≤ phaseLimit * phaseLimit := by
      rw [← abs_mul_abs_self q]
      exact mul_self_le_mul_self (abs_nonneg q) hReactive
    have hRemaining : 0 ≤ phaseLimit * phaseLimit - q * q := sub_nonneg.mpr hSquare
    have hBound := abs_remainingActive_le hRoot phaseLimit p q
    rw [max_eq_right hRemaining] at hBound
    have hActive := mul_self_le_mul_self (abs_nonneg _) hBound
    rw [abs_mul_abs_self, hRoot.mul_self _ hRemaining] at hActive
    linarith

theorem limitedActive_eq_zero (hRoot : IsRoot sqrt) (hLimit : 0 ≤ phaseLimit) (hReactive : phaseLimit < |q|) (p : K) :
    limitedActive sqrt phaseLimit p q = 0 := by
  have hSquare : phaseLimit * phaseLimit < q * q := by
    rw [← abs_mul_abs_self q]
    exact mul_self_lt_mul_self hLimit hReactive
  have hOver : ¬apparentPower sqrt p q ≤ phaseLimit := by
    rw [apparentPower_le_iff hRoot hLimit, not_le]
    have hActive := mul_self_nonneg p
    linarith
  have hBound := abs_remainingActive_le hRoot phaseLimit p q
  rw [max_eq_left (sub_nonpos.mpr hSquare.le), mul_self_eq_zero.mp (hRoot.mul_self 0 le_rfl)] at hBound
  rw [limitedActive, if_neg hOver]
  exact abs_nonpos_iff.mp hBound

theorem limitedActive_mul_self_le (hRoot : IsRoot sqrt) (hLimit : 0 ≤ phaseLimit) (p q : K) :
    limitedActive sqrt phaseLimit p q * limitedActive sqrt phaseLimit p q ≤ phaseLimit * phaseLimit := by
  obtain hInside | hOutside := le_or_gt |q| phaseLimit
  · have hWithin := limitedActive_within hRoot hLimit hInside p
    have hSquare := mul_self_nonneg q
    linarith
  · rw [limitedActive_eq_zero hRoot hLimit hOutside, mul_zero]
    exact mul_self_nonneg phaseLimit

end Phases

section Totals

variable {K : Type} [Field K] [LinearOrder K] [IsStrictOrderedRing K] {node : PowerConstraint}
  {latestValue : UInt32 → Option K} {limit positiveLimit negativeLimit : K} {active : List K}

omit [LinearOrder K] [IsStrictOrderedRing K] in
theorem foldl_add (f : K → K) (values : List K) (start : K) :
    values.foldl (fun total value => total + f value) start = start + (values.map f).sum := by
  induction values generalizing start with
  | nil => simp
  | cons value rest ih => rw [List.foldl_cons, ih, List.map_cons, List.sum_cons, add_assoc]

omit [LinearOrder K] [IsStrictOrderedRing K] in
theorem total_eq_sum (values : List K) : PowerConstraint.total values = values.sum := by
  rw [PowerConstraint.total, foldl_add (fun value => value), zero_add, List.map_id']

omit [IsStrictOrderedRing K] in
theorem positiveTotal_eq (values : List K) : PowerConstraint.positiveTotal values = positive values := by
  rw [PowerConstraint.positiveTotal, foldl_add fun value => if 0 < value then value else 0, zero_add, positive]
  congr 1
  apply List.map_congr_left
  intro value _
  split
  · rename_i hValue
    exact (max_eq_right hValue.le).symm
  · rename_i hValue
    exact (max_eq_left (not_lt.mp hValue)).symm

theorem limitPositiveTotal_eq (hLimit : 0 < limit) (hOver : limit < active.sum) :
    PowerConstraint.limitPositiveTotal limit active =
      active.map (scalePositive ((limit - negative active) / positive active)) := by
  have hSum := sum_eq active
  rw [hSum] at hOver
  obtain ⟨hPositive, -⟩ := shrinking_ratio hLimit.le (negative_nonpos active) hOver
  have hRest : active.sum - positive active = negative active := by rw [hSum, add_sub_cancel_left]
  rw [PowerConstraint.limitPositiveTotal, total_eq_sum, positiveTotal_eq]
  dsimp only
  rw [hRest, if_pos (hSum ▸ hOver), if_pos hPositive]
  rfl

theorem discharge_ratio (hLimit : 0 < limit) (hOver : active.sum < -limit) :
    negative active < 0 ∧ 0 ≤ (-limit - positive active) / negative active ∧
      (-limit - positive active) / negative active ≤ 1 ∧
      negative active * ((-limit - positive active) / negative active) = -limit - positive active := by
  rw [sum_eq] at hOver
  have hFlipped : limit < -negative active + -positive active := by linarith
  obtain ⟨hPart, hNonneg, hSmall, hMeets⟩ :=
    shrinking_ratio hLimit.le (neg_nonpos.mpr (positive_nonneg active)) hFlipped
  have hRatio : (limit - -positive active) / -negative active = (-limit - positive active) / negative active := by
    rw [← neg_div_neg_eq, neg_neg, neg_sub, neg_sub_left, sub_eq_add_neg, add_comm]
    ring_nf
  rw [hRatio] at hNonneg hSmall hMeets
  refine ⟨neg_pos.mp hPart, hNonneg, hSmall, ?_⟩
  linarith

theorem limitNegativeTotal_eq (hLimit : 0 < limit) (hOver : active.sum < -limit) :
    PowerConstraint.limitNegativeTotal limit active =
      active.map (scaleNegative ((-limit - positive active) / negative active)) := by
  obtain ⟨hNegative, -⟩ := discharge_ratio hLimit hOver
  have hRest : active.sum - positive active = negative active := by rw [sum_eq, add_sub_cancel_left]
  rw [PowerConstraint.limitNegativeTotal, total_eq_sum, positiveTotal_eq]
  dsimp only
  rw [hRest, if_pos hOver, if_pos hNegative]
  rfl

/-- Powers only come nearer to zero, and a total that passes its bound meets it. -/
structure Balances (positiveLimit negativeLimit : K) (active : List K) (f : K → K) : Prop where
  nearer : ∀ value, |f value| ≤ |value|
  positive_eq : positive (active.map f) =
    if positiveLimit < active.sum then positiveLimit - negative active else positive active
  negative_eq : negative (active.map f) =
    if active.sum < -negativeLimit then -negativeLimit - positive active else negative active

theorem limitTotal_balances (hPositive : latestValue node.positiveTotalLimitIndex = some positiveLimit)
    (hNegative : latestValue node.negativeTotalLimitIndex = some negativeLimit) (hPositivePos : 0 < positiveLimit)
    (hNegativePos : 0 < negativeLimit) (active : List K) :
    ∃ f, node.limitTotal latestValue active = active.map f ∧ Balances positiveLimit negativeLimit active f := by
  rw [PowerConstraint.limitTotal, total_eq_sum, hPositive, hNegative]
  dsimp only
  obtain hOver | hInside := lt_or_ge positiveLimit active.sum
  · have hRatio := shrinking_ratio hPositivePos.le (negative_nonpos active) (sum_eq active ▸ hOver)
    obtain ⟨-, hNonneg, hSmall, hMeets⟩ := hRatio
    refine ⟨_, (if_pos (hPositivePos.trans hOver)).trans (limitPositiveTotal_eq hPositivePos hOver),
      abs_scalePositive_le hNonneg hSmall, ?_, ?_⟩
    · rw [if_pos hOver, positive_scalePositive hNonneg, hMeets]
    · rw [if_neg (by linarith), negative_scalePositive hNonneg]
  · obtain hOver | hInsideBelow := lt_or_ge active.sum (-negativeLimit)
    · obtain ⟨-, hNonneg, hSmall, hMeets⟩ := discharge_ratio hNegativePos hOver
      have hBelow : active.sum < 0 := by linarith
      refine ⟨_, ((if_neg hBelow.le.not_gt).trans (if_pos hBelow)).trans (limitNegativeTotal_eq hNegativePos hOver),
        abs_scaleNegative_le hNonneg hSmall, ?_, ?_⟩
      · rw [if_neg hInside.not_gt, positive_scaleNegative hNonneg]
      · rw [if_pos hOver, negative_scaleNegative hNonneg, hMeets]
    · refine ⟨fun value => value, ?_, fun value => le_rfl, ?_, ?_⟩
      · rw [PowerConstraint.limitPositiveTotal, PowerConstraint.limitNegativeTotal, total_eq_sum,
          if_neg hInside.not_gt, if_neg hInsideBelow.not_gt, ite_self, ite_self, List.map_id']
      · rw [if_neg hInside.not_gt, List.map_id']
      · rw [if_neg hInsideBelow.not_gt, List.map_id']

end Totals

section State

variable {K : Type} [Field K] [LinearOrder K]

def clearedActive (lowState highState : Bool) (value : K) : K :=
  let value := if lowState ∧ value < 0 then 0 else value
  if highState ∧ 0 < value then 0 else value

theorem clearedActive_eq (lowState highState : Bool) (value : K) : clearedActive lowState highState value =
    (if highState then 0 else max 0 value) + (if lowState then 0 else min 0 value) := by
  rw [clearedActive]
  obtain hNegative | rfl | hPositive := lt_trichotomy value 0
  · rw [max_eq_left hNegative.le, min_eq_right hNegative.le]
    cases lowState <;> cases highState <;> simp [hNegative, hNegative.not_gt]
  · simp
  · rw [max_eq_right hPositive.le, min_eq_left hPositive.le]
    cases lowState <;> cases highState <;> simp [hPositive, hPositive.not_gt]

theorem abs_clearedActive_le [IsStrictOrderedRing K] (lowState highState : Bool) (value : K) : |clearedActive lowState highState value| ≤ |value| := by
  rw [clearedActive_eq]
  obtain hNegative | hPositive := le_total value 0
  · rw [max_eq_left hNegative, min_eq_right hNegative]
    cases lowState <;> cases highState <;> simp
  · rw [max_eq_right hPositive, min_eq_left hPositive]
    cases lowState <;> cases highState <;> simp

theorem sum_clearedActive (lowState highState : Bool) (values : List K) :
    (values.map (clearedActive lowState highState)).sum =
      (if highState then 0 else positive values) + (if lowState then 0 else negative values) := by
  induction values with
  | nil => simp [positive, negative]
  | cons value rest ih =>
    rw [List.map_cons, List.sum_cons, ih, clearedActive_eq, positive_cons, negative_cons]
    cases lowState <;> cases highState <;> simp only [Bool.false_eq_true, if_true, if_false] <;> ring

theorem clearedActive_nonneg (highState : Bool) (value : K) : 0 ≤ clearedActive true highState value := by
  rw [clearedActive_eq, if_pos rfl, add_zero]
  split
  · exact le_rfl
  · exact le_max_left 0 value

theorem clearedActive_nonpos (lowState : Bool) (value : K) : clearedActive lowState true value ≤ 0 := by
  rw [clearedActive_eq, if_pos rfl, zero_add]
  split
  · exact le_rfl
  · exact min_le_left 0 value

end State

section Limits

variable {K : Type}

structure PowerLimits (K : Type) where
  activeAbs : K
  reactiveAbs : K
  apparentTotal : K
  positiveTotal : K
  negativeTotal : K
  state : K
  upper : K
  lower : K

variable [Field K] [LinearOrder K]

/-- The phases match and every limit has a good value; what limits powers is positive. -/
structure PowerLimits.Present (limits : PowerLimits K) (node : PowerConstraint) (latestValue : UInt32 → Option K) : Prop where
  phases : node.reactiveInputIndexes.length = node.activeInputIndexes.length
  activeAbs : latestValue node.activeAbsLimitIndex = some limits.activeAbs
  reactiveAbs : latestValue node.reactiveAbsLimitIndex = some limits.reactiveAbs
  apparentTotal : latestValue node.apparentTotalLimitIndex = some limits.apparentTotal
  positiveTotal : latestValue node.positiveTotalLimitIndex = some limits.positiveTotal
  negativeTotal : latestValue node.negativeTotalLimitIndex = some limits.negativeTotal
  state : latestValue node.stateIndex = some limits.state
  upper : latestValue node.stateUpperIndex = some limits.upper
  lower : latestValue node.stateLowerIndex = some limits.lower
  activeAbs_pos : 0 < limits.activeAbs
  reactiveAbs_pos : 0 < limits.reactiveAbs
  apparentTotal_pos : 0 < limits.apparentTotal
  positiveTotal_pos : 0 < limits.positiveTotal
  negativeTotal_pos : 0 < limits.negativeTotal

/-- The powers of the phases once each phase is limited by itself. -/
def PowerConstraint.phasePowers (node : PowerConstraint) (sqrt : K → K) (latestValue : UInt32 → Option K) :
    Option (PhasePowers K) := do
  let active ← node.activeInputIndexes.mapM latestValue
  let reactive ← node.reactiveInputIndexes.mapM latestValue
  return node.limitConverter sqrt latestValue ⟨(node.limitDemand latestValue active).1, reactive⟩

namespace PowerLimits

variable (limits : PowerLimits K) (node : PowerConstraint) (sqrt : K → K) (latestValue : UInt32 → Option K)

def phaseLimit : K := limits.apparentTotal / (node.activeInputIndexes.length : K)

structure Hold (solution : ConstrainedPowers K) : Prop where
  active : ∀ p ∈ solution.active, |p| ≤ limits.activeAbs
  reactive : ∀ q ∈ solution.reactive, |q| ≤ limits.reactiveAbs
  apparent : ∀ power ∈ solution.active.zip solution.reactive,
    power.1 * power.1 + power.2 * power.2 ≤ limits.phaseLimit node * limits.phaseLimit node
  positiveTotal : solution.active.sum ≤ limits.positiveTotal
  negativeTotal : -limits.negativeTotal ≤ solution.active.sum
  low : limits.state < limits.lower → ∀ p ∈ solution.active, 0 ≤ p
  high : limits.upper < limits.state → ∀ p ∈ solution.active, p ≤ 0

/-- The share of the apparent power carries each phase's reactive power, and what the state leaves carries no total. -/
structure Compatible : Prop where
  reactive : limits.state < limits.lower ∧ node.lowStateClearReactive = true ∨
    ∀ index ∈ node.reactiveInputIndexes, ∀ q ∈ latestValue index, min |q| limits.reactiveAbs ≤ limits.phaseLimit node
  low : limits.state < limits.lower → limits.state ≤ limits.upper → ∀ powers ∈ node.phasePowers sqrt latestValue,
    (∀ p ∈ powers.active, 0 ≤ p) ∨ positive powers.active ≤ limits.positiveTotal
  high : limits.upper < limits.state → limits.lower ≤ limits.state → ∀ powers ∈ node.phasePowers sqrt latestValue,
    (∀ p ∈ powers.active, p ≤ 0) ∨ -limits.negativeTotal ≤ negative powers.active

end PowerLimits

end Limits

section Solution

variable {K : Type} [Field K] [LinearOrder K] {node : PowerConstraint} {sqrt : K → K} {latestValue : UInt32 → Option K}
  {limits : PowerLimits K}

theorem map_of_mapM {α β : Type} {f : α → Option β} {values : List α} {found : List β} (h : values.mapM f = some found) :
    values.map f = found.map some := by
  induction values generalizing found with
  | nil =>
    obtain rfl := Option.some.inj h
    rfl
  | cons value rest ih =>
    rw [List.mapM_cons] at h
    obtain ⟨first, hFirst, h⟩ := Option.bind_eq_some_iff.mp h
    obtain ⟨others, hOthers, h⟩ := Option.bind_eq_some_iff.mp h
    obtain rfl := Option.some.inj h
    rw [List.map_cons, List.map_cons, hFirst, ih hOthers]

theorem length_of_mapM {α β : Type} {f : α → Option β} {values : List α} {found : List β} (h : values.mapM f = some found) :
    found.length = values.length := by
  simpa using (congrArg List.length (map_of_mapM h)).symm

theorem mem_of_mapM {α β : Type} {f : α → Option β} {values : List α} {found : List β} (h : values.mapM f = some found)
    (y : β) : y ∈ found ↔ ∃ x ∈ values, f x = some y := by
  rw [← List.mem_map, map_of_mapM h, List.mem_map_of_injective (Option.some_injective β)]

theorem length_limitDemand {active : List K} (h : active.length = node.activeInputIndexes.length) :
    (node.limitDemand latestValue active).1.length = node.activeInputIndexes.length := by
  rw [PowerConstraint.limitDemand]
  cases hLoads : (List.range node.activeInputIndexes.length).mapM fun phase => node.loadIndexes[phase]?.bind latestValue with
  | none =>
    cases latestValue node.positiveLimitIndex <;> cases latestValue node.negativeLimitIndex <;>
      cases latestValue node.reserveMarginIndex <;> exact h
  | some loads =>
    have hLength := length_of_mapM hLoads
    rw [List.length_range] at hLength
    cases latestValue node.positiveLimitIndex <;> cases latestValue node.negativeLimitIndex <;>
      cases latestValue node.reserveMarginIndex <;>
      simp [PowerConstraint.limitPositive, PowerConstraint.limitNegative, PowerConstraint.reserveCapacity,
        apply_ite List.length, apply_ite Prod.fst, h, hLength]

/-- The demand of a phase and its reactive power, each limited by itself and then the active one by the share. -/
theorem phasePowers_eq (hPresent : limits.Present node latestValue) {powers : PhasePowers K}
    (h : node.phasePowers sqrt latestValue = some powers) :
    ∃ demands : List (K × K),
      powers.active = demands.map (fun demand => limitedActive sqrt (limits.phaseLimit node)
        (clampAbs demand.1 limits.activeAbs) (clampAbs demand.2 limits.reactiveAbs)) ∧
      powers.reactive = demands.map (fun demand => clampAbs demand.2 limits.reactiveAbs) ∧
      ∀ q, (∃ demand ∈ demands, demand.2 = q) ↔ ∃ index ∈ node.reactiveInputIndexes, latestValue index = some q := by
  obtain ⟨active, hActive, h⟩ := Option.bind_eq_some_iff.mp h
  obtain ⟨reactive, hReactive, h⟩ := Option.bind_eq_some_iff.mp h
  obtain rfl := Option.some.inj h
  have hLength : reactive.length ≤ (node.limitDemand latestValue active).1.length := by
    rw [length_limitDemand (length_of_mapM hActive), length_of_mapM hReactive, hPresent.phases]
  have hSecond := List.map_snd_zip hLength
  refine ⟨(node.limitDemand latestValue active).1.zip reactive, ?_, ?_, ?_⟩
  · rw [PowerConstraint.limitConverter, hPresent.activeAbs, hPresent.reactiveAbs, hPresent.apparentTotal]
    dsimp only
    rw [if_pos hPresent.apparentTotal_pos, PowerConstraint.limitApparent, List.zipWith_map, ← List.map_uncurry_zip_eq_zipWith]
    rfl
  · rw [PowerConstraint.limitConverter, hPresent.reactiveAbs]
    dsimp only
    nth_rewrite 1 [← hSecond]
    rw [List.map_map]
    rfl
  · intro q
    rw [← mem_of_mapM hReactive]
    have hMem : q ∈ ((node.limitDemand latestValue active).1.zip reactive).map Prod.snd ↔ _ := List.mem_map
    rw [hSecond] at hMem
    exact hMem.symm

theorem solve_eq (hPresent : limits.Present node latestValue) {solution : ConstrainedPowers K}
    (h : node.solve sqrt latestValue = some solution) :
    ∃ powers, node.phasePowers sqrt latestValue = some powers ∧
      solution.active = (node.limitTotal latestValue powers.active).map
        (clearedActive (decide (limits.state < limits.lower)) (decide (limits.upper < limits.state))) ∧
      solution.reactive = powers.reactive.map fun q =>
        if decide (limits.state < limits.lower) = true ∧ node.lowStateClearReactive = true then 0 else q := by
  obtain ⟨active, hActive, h⟩ := Option.bind_eq_some_iff.mp h
  obtain ⟨reactive, hReactive, h⟩ := Option.bind_eq_some_iff.mp h
  obtain rfl := Option.some.inj h
  refine ⟨node.limitConverter sqrt latestValue ⟨(node.limitDemand latestValue active).1, reactive⟩, ?_, ?_, ?_⟩
  · rw [PowerConstraint.phasePowers, hActive, hReactive]
    rfl
  · rw [PowerConstraint.limitState, hPresent.state, hPresent.upper, hPresent.lower]
    dsimp only
    rw [List.map_map]
    rfl
  · rw [PowerConstraint.limitState, hPresent.state, hPresent.upper, hPresent.lower]
    rfl

end Solution

section Meeting

variable {K : Type} [Field K] [LinearOrder K] [IsStrictOrderedRing K] {positiveLimit negativeLimit : K} {active : List K}
  {f : K → K}

theorem positive_le_iff (h : Balances positiveLimit negativeLimit active f) :
    positive (active.map f) ≤ positiveLimit ↔ (∀ p ∈ active, 0 ≤ p) ∨ positive active ≤ positiveLimit := by
  have hNegative := negative_nonpos active
  have hSum := sum_eq active
  rw [h.positive_eq, ← negative_eq_zero_iff]
  split
  · rename_i hOver
    constructor
    · intro hMeets
      exact .inl (le_antisymm hNegative (by linarith))
    · rintro (hNone | hSmall)
      · rw [hNone, sub_zero]
      · linarith
  · rename_i hInside
    constructor
    · exact .inr
    · rintro (hNone | hSmall)
      · rw [hNone, add_zero] at hSum
        exact hSum.symm.trans_le (not_lt.mp hInside)
      · exact hSmall

theorem le_negative_iff (h : Balances positiveLimit negativeLimit active f) :
    -negativeLimit ≤ negative (active.map f) ↔ (∀ p ∈ active, p ≤ 0) ∨ -negativeLimit ≤ negative active := by
  have hPositive := positive_nonneg active
  have hSum := sum_eq active
  rw [h.negative_eq, ← positive_eq_zero_iff]
  split
  · rename_i hOver
    constructor
    · intro hMeets
      exact .inl (le_antisymm (by linarith) hPositive)
    · rintro (hNone | hSmall)
      · rw [hNone, sub_zero]
      · linarith
  · rename_i hInside
    constructor
    · exact .inr
    · rintro (hNone | hSmall)
      · rw [hNone, zero_add] at hSum
        exact (not_lt.mp hInside).trans_eq hSum
      · exact hSmall

theorem balanced_total (h : Balances positiveLimit negativeLimit active f) (hPositive : 0 < positiveLimit)
    (hNegative : 0 < negativeLimit) :
    positive (active.map f) + negative (active.map f) ≤ positiveLimit ∧
      -negativeLimit ≤ positive (active.map f) + negative (active.map f) := by
  have hSum := sum_eq active
  rw [h.positive_eq, h.negative_eq]
  split
  · rename_i hOver
    rw [if_neg (by linarith)]
    constructor <;> linarith
  · rename_i hInside
    rw [not_lt] at hInside
    split
    · constructor <;> linarith
    · rename_i hBelow
      rw [not_lt] at hBelow
      constructor <;> linarith

/-- What the state leaves meets the totals exactly when it does so where one direction is cleared. -/
theorem totals_hold_iff (h : Balances positiveLimit negativeLimit active f) (hPositive : 0 < positiveLimit)
    (hNegative : 0 < negativeLimit) (lowState highState : Bool) :
    (((active.map f).map (clearedActive lowState highState)).sum ≤ positiveLimit ∧
        -negativeLimit ≤ ((active.map f).map (clearedActive lowState highState)).sum) ↔
      (lowState = true → highState = false → (∀ p ∈ active, 0 ≤ p) ∨ positive active ≤ positiveLimit) ∧
        (highState = true → lowState = false → (∀ p ∈ active, p ≤ 0) ∨ -negativeLimit ≤ negative active) := by
  rw [sum_clearedActive]
  cases lowState with
  | false =>
    cases highState with
    | false =>
      refine iff_of_true ?_ ⟨by simp, by simp⟩
      simp only [Bool.false_eq_true, if_false]
      exact balanced_total h hPositive hNegative
    | true =>
      simp only [Bool.false_eq_true, if_false, if_true, zero_add, false_implies, true_and, true_implies]
      rw [le_negative_iff h]
      exact and_iff_right ((negative_nonpos _).trans hPositive.le)
  | true =>
    cases highState with
    | false =>
      simp only [Bool.false_eq_true, if_false, if_true, add_zero, false_implies, and_true, true_implies]
      rw [positive_le_iff h]
      exact and_iff_left ((neg_nonpos.mpr hNegative.le).trans (positive_nonneg _))
    | true =>
      refine iff_of_true ?_ ⟨by simp, by simp⟩
      simp only [if_true, add_zero]
      exact ⟨hPositive.le, neg_nonpos.mpr hNegative.le⟩

end Meeting

section Together

variable {K : Type} [Field K] [LinearOrder K] [IsStrictOrderedRing K] {node : PowerConstraint} {sqrt : K → K}
  {latestValue : UInt32 → Option K} {limits : PowerLimits K}

theorem phaseLimit_nonneg (hPresent : limits.Present node latestValue) : 0 ≤ limits.phaseLimit node :=
  div_nonneg hPresent.apparentTotal_pos.le (Nat.cast_nonneg _)

def finalPhase (node : PowerConstraint) (sqrt : K → K) (limits : PowerLimits K) (f : K → K) (demand : K × K) : K × K :=
  (clearedActive (decide (limits.state < limits.lower)) (decide (limits.upper < limits.state))
    (f (limitedActive sqrt (limits.phaseLimit node) (clampAbs demand.1 limits.activeAbs)
      (clampAbs demand.2 limits.reactiveAbs))),
    if decide (limits.state < limits.lower) = true ∧ node.lowStateClearReactive = true then 0
    else clampAbs demand.2 limits.reactiveAbs)

theorem abs_finalPhase_le {f : K → K} (hNearer : ∀ value, |f value| ≤ |value|) (demand : K × K) :
    |(finalPhase node sqrt limits f demand).1| ≤ |limitedActive sqrt (limits.phaseLimit node)
      (clampAbs demand.1 limits.activeAbs) (clampAbs demand.2 limits.reactiveAbs)| :=
  (abs_clearedActive_le _ _ _).trans (hNearer _)

theorem finalPhase_within_iff (hRoot : IsRoot sqrt) (hPresent : limits.Present node latestValue) {f : K → K}
    (hNearer : ∀ value, |f value| ≤ |value|) (demand : K × K) :
    (finalPhase node sqrt limits f demand).1 * (finalPhase node sqrt limits f demand).1 +
        (finalPhase node sqrt limits f demand).2 * (finalPhase node sqrt limits f demand).2 ≤
      limits.phaseLimit node * limits.phaseLimit node ↔
    limits.state < limits.lower ∧ node.lowStateClearReactive = true ∨
      min |demand.2| limits.reactiveAbs ≤ limits.phaseLimit node := by
  have hLimit := phaseLimit_nonneg hPresent
  have hNear : |(finalPhase node sqrt limits f demand).1| ≤ _ := abs_finalPhase_le hNearer demand
  have hActive := mul_self_le_mul_self (abs_nonneg _) hNear
  rw [abs_mul_abs_self, abs_mul_abs_self] at hActive
  by_cases hCleared : decide (limits.state < limits.lower) = true ∧ node.lowStateClearReactive = true
  · refine iff_of_true ?_ (.inl ⟨of_decide_eq_true hCleared.1, hCleared.2⟩)
    have hReactive : (finalPhase node sqrt limits f demand).2 = 0 := if_pos hCleared
    rw [hReactive, mul_zero, add_zero]
    exact hActive.trans (limitedActive_mul_self_le hRoot hLimit _ _)
  · have hReactive : (finalPhase node sqrt limits f demand).2 = clampAbs demand.2 limits.reactiveAbs := if_neg hCleared
    have hKept : ¬(limits.state < limits.lower ∧ node.lowStateClearReactive = true) :=
      fun h => hCleared ⟨decide_eq_true h.1, h.2⟩
    rw [hReactive, or_iff_right hKept, ← abs_clampAbs hPresent.reactiveAbs_pos]
    constructor
    · intro hWithin
      have hSquare := mul_self_nonneg (finalPhase node sqrt limits f demand).1
      rw [mul_self_le_mul_self_iff (abs_nonneg _) hLimit, abs_mul_abs_self]
      linarith
    · intro hSmall
      have hWithin := limitedActive_within hRoot hLimit hSmall (clampAbs demand.1 limits.activeAbs)
      linarith

theorem power_limits_hold_iff (hRoot : IsRoot sqrt) (hPresent : limits.Present node latestValue)
    {solution : ConstrainedPowers K} (hSolve : node.solve sqrt latestValue = some solution) :
    limits.Hold node solution ↔ limits.Compatible node sqrt latestValue := by
  obtain ⟨powers, hPowers, hSolvedActive, hSolvedReactive⟩ := solve_eq hPresent hSolve
  obtain ⟨f, hTotal, hBalances⟩ := limitTotal_balances hPresent.positiveTotal hPresent.negativeTotal
    hPresent.positiveTotal_pos hPresent.negativeTotal_pos powers.active
  obtain ⟨demands, hPhaseActive, hPhaseReactive, hInputs⟩ := phasePowers_eq hPresent hPowers
  have hTotals := totals_hold_iff hBalances hPresent.positiveTotal_pos hPresent.negativeTotal_pos
    (decide (limits.state < limits.lower)) (decide (limits.upper < limits.state))
  rw [hTotal] at hSolvedActive
  rw [← hSolvedActive] at hTotals
  have hActive : solution.active = demands.map fun demand => (finalPhase node sqrt limits f demand).1 := by
    rw [hSolvedActive, hPhaseActive, List.map_map, List.map_map]
    rfl
  have hReactive : solution.reactive = demands.map fun demand => (finalPhase node sqrt limits f demand).2 := by
    rw [hSolvedReactive, hPhaseReactive, List.map_map]
    rfl
  have hPowersOf : solution.active.zip solution.reactive = demands.map (finalPhase node sqrt limits f) := by
    rw [hActive, hReactive, List.zip_map']
  constructor
  · intro h
    have hBoth := hTotals.mp ⟨h.positiveTotal, h.negativeTotal⟩
    refine ⟨?_, ?_, ?_⟩
    · rw [or_iff_not_imp_left]
      intro hKept index hIndex q hValue
      obtain ⟨demand, hDemand, rfl⟩ := (hInputs q).mpr ⟨index, hIndex, hValue⟩
      have hWithin := h.apparent (finalPhase node sqrt limits f demand) (hPowersOf ▸ List.mem_map_of_mem hDemand)
      exact ((finalPhase_within_iff hRoot hPresent hBalances.nearer demand).mp hWithin).resolve_left hKept
    · intro hLow hNotHigh found hFound
      obtain rfl := Option.some.inj (hPowers.symm.trans hFound)
      exact hBoth.1 (decide_eq_true hLow) (decide_eq_false (not_lt.mpr hNotHigh))
    · intro hHigh hNotLow found hFound
      obtain rfl := Option.some.inj (hPowers.symm.trans hFound)
      exact hBoth.2 (decide_eq_true hHigh) (decide_eq_false (not_lt.mpr hNotLow))
  · intro h
    have hBoth := hTotals.mpr ⟨fun hLow hNotHigh => h.low (of_decide_eq_true hLow) (not_lt.mp (of_decide_eq_false hNotHigh))
      powers hPowers, fun hHigh hNotLow => h.high (of_decide_eq_true hHigh) (not_lt.mp (of_decide_eq_false hNotLow))
      powers hPowers⟩
    refine ⟨?_, ?_, ?_, hBoth.1, hBoth.2, ?_, ?_⟩
    · intro p hp
      rw [hActive] at hp
      obtain ⟨demand, -, rfl⟩ := List.mem_map.mp hp
      have hClamped := abs_clampAbs hPresent.activeAbs_pos demand.1
      calc |(finalPhase node sqrt limits f demand).1|
          ≤ |limitedActive sqrt (limits.phaseLimit node) (clampAbs demand.1 limits.activeAbs)
              (clampAbs demand.2 limits.reactiveAbs)| := abs_finalPhase_le hBalances.nearer demand
        _ ≤ |clampAbs demand.1 limits.activeAbs| := abs_limitedActive_le hRoot (phaseLimit_nonneg hPresent) _ _
        _ ≤ limits.activeAbs := hClamped.trans_le (min_le_right _ _)
    · intro q hq
      rw [hReactive] at hq
      obtain ⟨demand, -, rfl⟩ := List.mem_map.mp hq
      rw [finalPhase]
      dsimp only
      split
      · rw [abs_zero]
        exact hPresent.reactiveAbs_pos.le
      · rw [abs_clampAbs hPresent.reactiveAbs_pos]
        exact min_le_right _ _
    · intro power hPower
      rw [hPowersOf] at hPower
      obtain ⟨demand, hDemand, rfl⟩ := List.mem_map.mp hPower
      rw [finalPhase_within_iff hRoot hPresent hBalances.nearer demand]
      refine h.reactive.imp_right ?_
      intro hSmall
      obtain ⟨index, hIndex, hValue⟩ := (hInputs demand.2).mp ⟨demand, hDemand, rfl⟩
      exact hSmall index hIndex demand.2 hValue
    · intro hLow p hp
      rw [hSolvedActive, decide_eq_true hLow] at hp
      obtain ⟨value, -, rfl⟩ := List.mem_map.mp hp
      exact clearedActive_nonneg _ value
    · intro hHigh p hp
      rw [hSolvedActive, decide_eq_true hHigh] at hp
      obtain ⟨value, -, rfl⟩ := List.mem_map.mp hp
      exact clearedActive_nonpos _ value

end Together

section Writes

variable {K : Type}

theorem isSome_mapM {α β : Type} {f : α → Option β} {values : List α} (h : ∀ value ∈ values, (f value).isSome = true) :
    ∃ found, values.mapM f = some found := by
  induction values with
  | nil => exact ⟨[], rfl⟩
  | cons value rest ih =>
    obtain ⟨hFirst, hRest⟩ := List.forall_mem_cons.mp h
    obtain ⟨first, hFirst⟩ := Option.isSome_iff_exists.mp hFirst
    obtain ⟨others, hOthers⟩ := ih hRest
    exact ⟨first :: others, by rw [List.mapM_cons, hFirst, hOthers]; rfl⟩

theorem setAll_written (rejection : UInt32 → K → Option String) (complaint : String) (outputs : List (UInt32 × K))
    (cycle : PowerCycle K) :
    ∃ done, done <+: outputs ∧ (cycle.setAll rejection complaint outputs).2.written = cycle.written ++ done := by
  induction outputs generalizing cycle with
  | nil => exact ⟨[], List.prefix_rfl, (List.append_nil _).symm⟩
  | cons output rest ih =>
    rw [PowerCycle.setAll, PowerCycle.set]
    cases rejection output.1 output.2 with
    | some message => exact ⟨[], List.nil_prefix, (List.append_nil _).symm⟩
    | none =>
      obtain ⟨done, hDone, hWritten⟩ := ih ⟨Function.update cycle.latestValue output.1 (some output.2),
        cycle.written ++ [output]⟩
      refine ⟨output :: done, List.cons_prefix_cons.mpr ⟨rfl, hDone⟩, ?_⟩
      dsimp only
      rw [hWritten, List.append_assoc]
      rfl

variable [Field K] [LinearOrder K] {node : PowerConstraint} {sqrt : K → K}

theorem solve_isSome {latestValue : UInt32 → Option K}
    (hInputs : ∀ index ∈ node.activeInputIndexes ++ node.reactiveInputIndexes, (latestValue index).isSome = true) :
    ∃ solution, node.solve sqrt latestValue = some solution := by
  obtain ⟨hActive, hReactive⟩ := List.forall_mem_append.mp hInputs
  obtain ⟨active, hActive⟩ := isSome_mapM hActive
  obtain ⟨reactive, hReactive⟩ := isSome_mapM hReactive
  rw [PowerConstraint.solve, hActive, hReactive]
  exact ⟨_, rfl⟩

theorem runPowerConstraint_written {rejection : UInt32 → K → Option String} {cycle : PowerCycle K}
    {solution : ConstrainedPowers K} (hSolve : node.solve sqrt cycle.latestValue = some solution) :
    ∃ done, done <+: node.outputs solution ∧
      (runPowerConstraint node sqrt rejection cycle).2.written = cycle.written ++ done := by
  obtain ⟨done, hDone, hWritten⟩ :=
    setAll_written rejection "powerConstraint output rejected: " (node.outputs solution) cycle
  refine ⟨done, hDone, ?_⟩
  rw [runPowerConstraint, hSolve]
  dsimp only
  rw [← hWritten]
  obtain ⟨result, after⟩ := cycle.setAll rejection "powerConstraint output rejected: " (node.outputs solution)
  cases result <;> rfl

end Writes

theorem isRoot_sqrt : IsRoot Real.sqrt := ⟨fun x _ => Real.sqrt_nonneg x, fun _ hx => Real.mul_self_sqrt hx⟩

/-- The powers that a run writes, over the real numbers. -/
theorem runPowerConstraint_limits_iff {node : PowerConstraint} {cycle : PowerCycle ℝ} {limits : PowerLimits ℝ}
    (hPresent : limits.Present node cycle.latestValue)
    (hInputs : ∀ index ∈ node.activeInputIndexes ++ node.reactiveInputIndexes, (cycle.latestValue index).isSome = true)
    (rejection : UInt32 → ℝ → Option String) :
    ∃ solution, node.solve Real.sqrt cycle.latestValue = some solution ∧
      (∃ done, done <+: node.outputs solution ∧
        (runPowerConstraint node Real.sqrt rejection cycle).2.written = cycle.written ++ done) ∧
      (limits.Hold node solution ↔ limits.Compatible node Real.sqrt cycle.latestValue) := by
  obtain ⟨solution, hSolve⟩ : ∃ solution, node.solve Real.sqrt cycle.latestValue = some solution := solve_isSome hInputs
  exact ⟨solution, hSolve, runPowerConstraint_written hSolve, power_limits_hold_iff isRoot_sqrt hPresent hSolve⟩

def onePhase : PowerConstraint where
  activeInputIndexes := [1]
  reactiveInputIndexes := [2]
  activeOutputIndexes := [11]
  reactiveOutputIndexes := [12]
  loadIndexes := []
  activeAbsLimitIndex := 3
  reactiveAbsLimitIndex := 4
  apparentTotalLimitIndex := 5
  positiveTotalLimitIndex := 6
  negativeTotalLimitIndex := 7
  stateIndex := 8
  stateUpperIndex := 9
  stateLowerIndex := 10

local instance twenty : Nat.AtLeastTwo 20 := ⟨by decide⟩

local instance ninety : Nat.AtLeastTwo 90 := ⟨by decide⟩

def reactiveDemand : PowerCycle ℝ where
  latestValue := fun index => if index = 1 then some 0 else if index = 2 then some 10 else if index = 3 then some 10
    else if index = 4 then some 20 else if index = 5 then some 5 else if index = 6 then some 10
    else if index = 7 then some 10 else if index = 8 then some 50 else if index = 9 then some 90
    else if index = 10 then some 10 else none
  written := []

def onePhaseLimits : PowerLimits ℝ := ⟨10, 20, 5, 10, 10, 50, 90, 10⟩

theorem onePhaseLimits_present : onePhaseLimits.Present onePhase reactiveDemand.latestValue where
  phases := rfl
  activeAbs := rfl
  reactiveAbs := rfl
  apparentTotal := rfl
  positiveTotal := rfl
  negativeTotal := rfl
  state := rfl
  upper := rfl
  lower := rfl
  activeAbs_pos := by norm_num [onePhaseLimits]
  reactiveAbs_pos := by norm_num [onePhaseLimits]
  apparentTotal_pos := by norm_num [onePhaseLimits]
  positiveTotal_pos := by norm_num [onePhaseLimits]
  negativeTotal_pos := by norm_num [onePhaseLimits]

theorem onePhase_inputs : ∀ index ∈ onePhase.activeInputIndexes ++ onePhase.reactiveInputIndexes,
    (reactiveDemand.latestValue index).isSome = true := by
  intro index hIndex
  obtain rfl | rfl := List.mem_pair.mp hIndex <;> rfl

theorem onePhase_limits_iff : ∃ solution, onePhase.solve Real.sqrt reactiveDemand.latestValue = some solution ∧
    (∃ done, done <+: onePhase.outputs solution ∧
      (runPowerConstraint onePhase Real.sqrt (fun _ _ => none) reactiveDemand).2.written = reactiveDemand.written ++ done) ∧
    (onePhaseLimits.Hold onePhase solution ↔ onePhaseLimits.Compatible onePhase Real.sqrt reactiveDemand.latestValue) :=
  runPowerConstraint_limits_iff onePhaseLimits_present onePhase_inputs _

/-- The reactive power 10 passes its own limit of 20 and stays, above the apparent power of 5. -/
theorem reactive_exceeds_apparent : onePhaseLimits.Present onePhase reactiveDemand.latestValue ∧
    ∃ solution, onePhase.solve Real.sqrt reactiveDemand.latestValue = some solution ∧
      ¬onePhaseLimits.Hold onePhase solution := by
  refine ⟨onePhaseLimits_present, ?_⟩
  obtain ⟨solution, hSolve⟩ : ∃ solution, onePhase.solve Real.sqrt reactiveDemand.latestValue = some solution :=
    solve_isSome onePhase_inputs
  refine ⟨solution, hSolve, ?_⟩
  rw [power_limits_hold_iff isRoot_sqrt onePhaseLimits_present hSolve]
  intro hCompatible
  obtain ⟨hLow, -⟩ | hSmall := hCompatible.reactive
  · norm_num [onePhaseLimits] at hLow
  · have hTen := hSmall 2 (List.mem_singleton.mpr rfl) 10 rfl
    norm_num [onePhaseLimits, PowerLimits.phaseLimit, onePhase] at hTen

end EdgeGateway.GraphEms
