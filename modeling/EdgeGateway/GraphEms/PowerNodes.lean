import EdgeGateway.Foundation.Rounding
import EdgeGateway.Models

/-! # The power nodes

The set-points of the phases come from one node with three fixed phases, or from an
arbiter between any number of candidates with the limits in a node of their own.
-/

namespace EdgeGateway.GraphEms

section Cycle

variable {K : Type}

structure PowerCycle (K : Type) where
  latestValue : UInt32 → Option K
  written : List (UInt32 × K)

def PowerCycle.set (cycle : PowerCycle K) (rejection : UInt32 → K → Option String) (output : UInt32 × K) :
    Option String × PowerCycle K :=
  match rejection output.1 output.2 with
  | some message => (some message, cycle)
  | none => (none, {
      latestValue := Function.update cycle.latestValue output.1 (some output.2)
      written := cycle.written ++ [output] })

/-- The first rejected output is thrown, and those before it stay. -/
def PowerCycle.setAll (cycle : PowerCycle K) (rejection : UInt32 → K → Option String) (complaint : String) :
    List (UInt32 × K) → Except String Unit × PowerCycle K
  | [] => (.ok (), cycle)
  | output :: rest =>
    match cycle.set rejection output with
    | (some message, cycle) => (.error (complaint ++ message), cycle)
    | (none, cycle) => cycle.setAll rejection complaint rest

end Cycle

section Arithmetic

variable {K : Type} [Field K] [LinearOrder K]

def clampAbs (value limit : K) : K := if ¬ 0 < limit ∨ |value| ≤ limit then value else if 0 < value then limit else -limit

def apparentPower (sqrt : K → K) (p q : K) : K := sqrt (p * p + q * q)

/-- The active power that the apparent power leaves beside the reactive power. -/
def remainingActive (sqrt : K → K) (limit p q : K) : K :=
  let remaining := max 0 (limit * limit - q * q)
  if 0 < p then sqrt remaining else if p < 0 then -sqrt remaining else 0

def isExpected (value : Option K) (expected : K) : Bool :=
  match value with
  | none => false
  | some value => decide (|value - expected| ≤ 1 / 10 ^ 9)

end Arithmetic

section Arbiter

variable {K : Type} [Field K] [LinearOrder K]

inductive PhaseTarget where
  | active
  | reactive
deriving DecidableEq, Repr

inductive PhaseMerge where
  | max
  | min
  | add
  | override
  | stronger
deriving DecidableEq, Repr

inductive PhaseDirection where
  | any
  | positive
  | negative
deriving DecidableEq, Repr

/-- A candidate has a total, or an index for each phase; the index 0 stands for none. -/
structure ArbiterCandidate (K : Type) where
  target : PhaseTarget
  merge : PhaseMerge
  direction : PhaseDirection
  enableIndex : UInt32
  enableValue : K
  defaultValue : K
  totalIndex : UInt32
  indexes : List UInt32
  runOutputIndex : UInt32

structure ArbiterOverride (K : Type) where
  enableIndex : UInt32
  enableValue : K
  activeTotalIndex : UInt32
  reactiveTotalIndex : UInt32

structure PhaseArbiter (K : Type) where
  activeOutputIndexes : List UInt32
  reactiveOutputIndexes : List UInt32
  activeBaseIndexes : List UInt32
  reactiveBaseIndexes : List UInt32
  candidates : List (ArbiterCandidate K)
  override : ArbiterOverride K

structure PhasePowers (K : Type) where
  active : List K
  reactive : List K

def mergePhase (merge : PhaseMerge) (direction : PhaseDirection) (previous value : K) : K :=
  if direction = .positive ∧ value ≤ 0 ∨ direction = .negative ∧ 0 ≤ value then previous
  else match merge with
    | .max => max previous value
    | .min => min previous value
    | .add => previous + value
    | .override => value
    | .stronger => if 0 < value then max previous value else if value < 0 then min previous value else previous

def phaseValues (latestValue : UInt32 → Option K) (phaseCount : Nat) (defaultValue : K) (indexes : List UInt32) : List K :=
  (List.range phaseCount).map fun phase => (indexes[phase]?.bind latestValue).getD defaultValue

def ArbiterCandidate.values (candidate : ArbiterCandidate K) (latestValue : UInt32 → Option K) (phaseCount : Nat) :
    Option (List K) :=
  if candidate.enableIndex ≠ 0 ∧ isExpected (latestValue candidate.enableIndex) candidate.enableValue = false then none
  else if candidate.totalIndex ≠ 0 then
    (latestValue candidate.totalIndex).map fun total => List.replicate phaseCount (total / (phaseCount : K))
  else some (phaseValues latestValue phaseCount candidate.defaultValue candidate.indexes)

def ArbiterCandidate.mergeInto (candidate : ArbiterCandidate K) (values target : List K) : List K × Bool :=
  let merged := List.zipWith (mergePhase candidate.merge candidate.direction) target values
  (merged, (List.zipWith (fun new previous => decide (1 / 10 ^ 9 < |new - previous|)) merged target).any id)

def ArbiterCandidate.apply (candidate : ArbiterCandidate K) (latestValue : UInt32 → Option K) (phaseCount : Nat)
    (powers : PhasePowers K) : PhasePowers K × Bool :=
  match candidate.values latestValue phaseCount with
  | none => (powers, false)
  | some values => match candidate.target with
    | .reactive =>
      let (reactive, intervened) := candidate.mergeInto values powers.reactive
      ({ powers with reactive }, intervened)
    | .active =>
      let (active, intervened) := candidate.mergeInto values powers.active
      ({ powers with active }, intervened)

def arbitrate (latestValue : UInt32 → Option K) (phaseCount : Nat) :
    List (ArbiterCandidate K) → PhasePowers K → PhasePowers K × List (UInt32 × K)
  | [], powers => (powers, [])
  | candidate :: rest, powers =>
    let (merged, intervened) := candidate.apply latestValue phaseCount powers
    let (final, runOutputs) := arbitrate latestValue phaseCount rest merged
    (final, (candidate.runOutputIndex, if intervened then 1 else 0) :: runOutputs)

def ArbiterOverride.apply (override : ArbiterOverride K) (latestValue : UInt32 → Option K) (phaseCount : Nat)
    (powers : PhasePowers K) : PhasePowers K :=
  if override.enableIndex ≠ 0 ∧ isExpected (latestValue override.enableIndex) override.enableValue then
    match latestValue override.activeTotalIndex, latestValue override.reactiveTotalIndex with
    | some activeTotal, some reactiveTotal => {
        active := List.replicate phaseCount (activeTotal / (phaseCount : K))
        reactive := List.replicate phaseCount (reactiveTotal / (phaseCount : K)) }
    | _, _ => powers
  else powers

namespace PhaseArbiter

variable (node : PhaseArbiter K)

def phaseCount : Nat := node.activeOutputIndexes.length

def solve (latestValue : UInt32 → Option K) : PhasePowers K × List (UInt32 × K) :=
  let base : PhasePowers K := {
    active := phaseValues latestValue node.phaseCount 0 node.activeBaseIndexes
    reactive := phaseValues latestValue node.phaseCount 0 node.reactiveBaseIndexes }
  let (merged, runOutputs) := arbitrate latestValue node.phaseCount node.candidates base
  (node.override.apply latestValue node.phaseCount merged, runOutputs)

def phaseOutputs (activeIndexes reactiveIndexes : List UInt32) (powers : PhasePowers K) : List (UInt32 × K) :=
  (List.zipWith (fun active reactive => [active, reactive]) (activeIndexes.zip powers.active)
    (reactiveIndexes.zip powers.reactive)).flatten

end PhaseArbiter

def runPhaseArbiter (node : PhaseArbiter K) (rejection : UInt32 → K → Option String) (cycle : PowerCycle K) :
    Except String Bool × PowerCycle K :=
  let (powers, candidateRunOutputs) := node.solve cycle.latestValue
  let runOutputs := candidateRunOutputs.filter fun output => output.1 ≠ 0
  let outputs := PhaseArbiter.phaseOutputs node.activeOutputIndexes node.reactiveOutputIndexes powers
  match cycle.setAll rejection "phaseArbiter candidate run output rejected: " runOutputs with
  | (.error message, cycle) => (.error message, cycle)
  | (.ok _, cycle) => match cycle.setAll rejection "phaseArbiter output rejected: " outputs with
    | (.error message, cycle) => (.error message, cycle)
    | (.ok _, cycle) => (.ok (!(runOutputs ++ outputs).isEmpty), cycle)

end Arbiter

section Constraint

variable {K : Type} [Field K] [LinearOrder K]

structure PowerConstraint where
  activeInputIndexes : List UInt32
  reactiveInputIndexes : List UInt32
  activeOutputIndexes : List UInt32
  reactiveOutputIndexes : List UInt32
  loadIndexes : List UInt32
  positiveLimitEnableIndex : UInt32 := 0
  positiveLimitIndex : UInt32 := 0
  negativeLimitEnableIndex : UInt32 := 0
  negativeLimitIndex : UInt32 := 0
  reserveEnableIndex : UInt32 := 0
  reserveMarginIndex : UInt32 := 0
  activeAbsLimitIndex : UInt32 := 0
  reactiveAbsLimitIndex : UInt32 := 0
  apparentTotalLimitIndex : UInt32 := 0
  positiveTotalLimitIndex : UInt32 := 0
  negativeTotalLimitIndex : UInt32 := 0
  stateIndex : UInt32 := 0
  stateUpperIndex : UInt32 := 0
  stateLowerIndex : UInt32 := 0
  lowStateClearReactive : Bool := true
  reserveRunOutputIndex : UInt32 := 0
  lowStateClearIndexes : List UInt32 := []
  highStateClearIndexes : List UInt32 := []

structure ConstrainedPowers (K : Type) where
  active : List K
  reactive : List K
  reserveRun : K
  lowState : Bool
  highState : Bool
deriving DecidableEq

namespace PowerConstraint

def limitPositive (limit : K) (active loads : List K) : List K :=
  List.zipWith (fun active load => if 0 < active then max 0 (min active (limit - load)) else active) active loads

def limitNegative (limit : K) (active loads : List K) : List K :=
  List.zipWith (fun active load => if active < 0 then min 0 (max active (limit - load)) else active) active loads

def reserveCapacity (limit margin : K) (active loads : List K) : List K × K :=
  (List.zipWith (fun active load => if limit - load - margin < 0 then min active (limit - load - margin) else active)
    active loads, if loads.any fun load => decide (limit - load - margin < 0) then 1 else 0)

def limitApparent (sqrt : K → K) (phaseLimit : K) (active reactive : List K) : List K :=
  List.zipWith (fun p q => if apparentPower sqrt p q ≤ phaseLimit then p else remainingActive sqrt phaseLimit p q)
    active reactive

def total (active : List K) : K := active.foldl (fun total value => total + value) 0

def positiveTotal (active : List K) : K := active.foldl (fun total value => total + if 0 < value then value else 0) 0

def limitPositiveTotal (limit : K) (active : List K) : List K :=
  if limit < total active then
    let positive := positiveTotal active
    let negative := total active - positive
    if 0 < positive then
      let ratio := (limit - negative) / positive
      active.map fun value => if 0 < value then value * ratio else value
    else active
  else active

def limitNegativeTotal (limit : K) (active : List K) : List K :=
  if total active < -limit then
    let positive := positiveTotal active
    let negative := total active - positive
    if negative < 0 then
      let ratio := (-limit - positive) / negative
      active.map fun value => if value < 0 then value * ratio else value
    else active
  else active

/-- A limit that has no value, or no switch at 1, or lacks a load, is not applied. -/
def enabled (latestValue : UInt32 → Option K) (enableIndex : UInt32) : Bool := decide (latestValue enableIndex = some 1)

variable (node : PowerConstraint) (sqrt : K → K) (latestValue : UInt32 → Option K)

def limitDemand (active : List K) : List K × K :=
  let loads := (List.range node.activeInputIndexes.length).mapM fun phase => node.loadIndexes[phase]?.bind latestValue
  let negativeLimit := latestValue node.negativeLimitIndex
  let active := match latestValue node.positiveLimitIndex, loads with
    | some limit, some loads =>
      if enabled latestValue node.positiveLimitEnableIndex then limitPositive limit active loads else active
    | _, _ => active
  let active := match negativeLimit, loads with
    | some limit, some loads =>
      if enabled latestValue node.negativeLimitEnableIndex then limitNegative limit active loads else active
    | _, _ => active
  match negativeLimit, latestValue node.reserveMarginIndex, loads with
  | some limit, some margin, some loads =>
    if enabled latestValue node.reserveEnableIndex then reserveCapacity limit margin active loads else (active, 0)
  | _, _, _ => (active, 0)

def limitConverter (powers : PhasePowers K) : PhasePowers K :=
  let active := match latestValue node.activeAbsLimitIndex with
    | some limit => powers.active.map fun value => clampAbs value limit
    | none => powers.active
  let reactive := match latestValue node.reactiveAbsLimitIndex with
    | some limit => powers.reactive.map fun value => clampAbs value limit
    | none => powers.reactive
  let active := match latestValue node.apparentTotalLimitIndex with
    | some limit =>
      if 0 < limit then limitApparent sqrt (limit / (node.activeInputIndexes.length : K)) active reactive else active
    | none => active
  ⟨active, reactive⟩

def limitTotal (active : List K) : List K :=
  if 0 < total active then match latestValue node.positiveTotalLimitIndex with
    | some limit => limitPositiveTotal limit active
    | none => active
  else if total active < 0 then match latestValue node.negativeTotalLimitIndex with
    | some limit => limitNegativeTotal limit active
    | none => active
  else active

def limitState (powers : PhasePowers K) (reserveRun : K) : ConstrainedPowers K :=
  match latestValue node.stateIndex, latestValue node.stateUpperIndex, latestValue node.stateLowerIndex with
  | some state, some upper, some lower =>
    let lowState := decide (state < lower)
    let highState := decide (upper < state)
    let active := powers.active.map fun value => if lowState ∧ value < 0 then 0 else value
    let active := active.map fun value => if highState ∧ 0 < value then 0 else value
    let reactive := powers.reactive.map fun value => if lowState ∧ node.lowStateClearReactive then 0 else value
    ⟨active, reactive, reserveRun, lowState, highState⟩
  | _, _, _ => ⟨powers.active, powers.reactive, reserveRun, false, false⟩

def solve : Option (ConstrainedPowers K) := do
  let active ← node.activeInputIndexes.mapM latestValue
  let reactive ← node.reactiveInputIndexes.mapM latestValue
  let (active, reserveRun) := node.limitDemand latestValue active
  let powers := node.limitConverter sqrt latestValue ⟨active, reactive⟩
  return node.limitState latestValue { powers with active := node.limitTotal latestValue powers.active } reserveRun

def outputs (solution : ConstrainedPowers K) : List (UInt32 × K) :=
  (PhaseArbiter.phaseOutputs node.activeOutputIndexes node.reactiveOutputIndexes ⟨solution.active, solution.reactive⟩ ++
    [(node.reserveRunOutputIndex, solution.reserveRun)] ++
    (if solution.lowState then node.lowStateClearIndexes.map fun index => (index, 0) else []) ++
    (if solution.highState then node.highStateClearIndexes.map fun index => (index, 0) else [])).filter
      fun output => output.1 ≠ 0

end PowerConstraint

/-- Without a value for every phase nothing is written. -/
def runPowerConstraint (node : PowerConstraint) (sqrt : K → K) (rejection : UInt32 → K → Option String)
    (cycle : PowerCycle K) : Except String Bool × PowerCycle K :=
  match node.solve sqrt cycle.latestValue with
  | none => (.ok false, cycle)
  | some solution => match cycle.setAll rejection "powerConstraint output rejected: " (node.outputs solution) with
    | (.error message, cycle) => (.error message, cycle)
    | (.ok _, cycle) => (.ok (!(node.outputs solution).isEmpty), cycle)

end Constraint

end EdgeGateway.GraphEms
