import EdgeGateway.Models
import Mathlib.Algebra.Order.Field.Basic
import Mathlib.Data.List.AList

/-! # The compute engine

One scan of the rules. What the router hands out and answers, what a graph rule does and what an
expression comes to are given from outside, at each turn.
-/

namespace EdgeGateway.Compute

universe u

structure ComputeInputConfig where
  name : StdString
  index : UInt32
  required : Bool := true

structure ComputeOutputConfig (K : Type u) where
  index : UInt32
  mode : StdString
  ttlMs : Int := 600000
  qualityPolicy : StdString
  minIntervalMs : Int := 0
  deadband : K

structure ComputeTriggerConfig (K : Type u) where
  type : StdString
  intervalMs : Int := 1000
  minIntervalMs : Int := 0
  deadband : K

structure ComputeScriptConfig where
  type : StdString
  expression : StdString

structure ComputeRuleConfig (K : Type u) where
  ruleCode : StdString
  name : StdString
  enabled : Bool := true
  trigger : ComputeTriggerConfig K
  inputs : List ComputeInputConfig
  outputs : List (ComputeOutputConfig K)
  script : ComputeScriptConfig

structure StoredPointValue (K : Type u) where
  index : UInt32
  value : K
  quality : Int
  ts : Int
  stale : Bool

abbrev InputMap (K : Type u) := AList fun _ : UInt32 => StoredPointValue K

structure ComputeInputState (K : Type u) where
  valid : Bool
  stale : Bool
  value : K
  quality : Int
  ts : Int

abbrev NamedInputs (K : Type u) := StdString → Option (ComputeInputState K)

structure ComputeEngineConfig (K : Type u) where
  maxRuleEvalPerScan : Nat := 1000
  badQuality : Int := 0
  defaultOutputTtlMs : Int := 600000
  maxWritesPerScan : Nat := 100
  rules : List (ComputeRuleConfig K)
  /-- The finite number that an expression comes to; none where it is malformed, null or not finite. -/
  parse : StdString → NamedInputs K → Option K

structure RuleState (K : Type u) where
  lastEvalMs : Int := 0
  lastInputs : InputMap K := ∅

structure OutputState (K : Type u) where
  lastWriteMs : Int
  lastValue : K
  lastQuality : Int
  hasLastValue : Bool

structure PublishedPoint (K : Type u) where
  index : UInt32
  value : K
  quality : Int
  ts : Int
  expireAt : Int

structure Submission (K : Type u) where
  key : StdString
  index : UInt32
  value : K
  ts : Int
  accepted : Bool
deriving DecidableEq

structure ComputeEngineService (K : Type u) where
  ruleStates : StdString → RuleState K
  outputStates : StdString → OutputState K
  published : List (PublishedPoint K)
  commands : List (Submission K)

structure ScanInput (K : Type u) where
  nowMs : Int
  latest : Nat → List (StoredPointValue K)
  /-- The writes of a graph rule, within the number left to it. -/
  graphWrites : Nat → Nat → Nat
  /-- Whether the router takes the device write of an output. -/
  accepts : Nat → Nat → Bool

def safeRuleCode {K : Type u} (rule : ComputeRuleConfig K) : StdString :=
  if rule.ruleCode ≠ [] then rule.ruleCode else if rule.name ≠ [] then rule.name else "compute_rule".toList

def outputStateKey {K : Type u} (rule : ComputeRuleConfig K) (output : ComputeOutputConfig K) : StdString :=
  safeRuleCode rule ++ ":".toList ++ (toString output.index.toNat).toList ++ ":".toList ++ output.mode

def isLatestMode (mode : StdString) : Bool := mode = [] ∨ mode = "latestOnly".toList ∨ mode = "both".toList

def isDeviceWriteMode (mode : StdString) : Bool := mode = "deviceWrite".toList ∨ mode = "both".toList

variable {K : Type u} [Field K] [LinearOrder K]

def currentInputs (values : List (StoredPointValue K)) : InputMap K :=
  values.foldl (fun inputs value => inputs.insert value.index value) ∅

def changedSince (lastInputs : InputMap K) (deadband : K) (index : UInt32) (value : StoredPointValue K) : Bool :=
  match lastInputs.lookup index with
  | none => true
  | some previous =>
    previous.quality != value.quality || previous.stale != value.stale || previous.ts != value.ts ||
      decide (deadband < |previous.value - value.value|)

def shouldEvaluate (rule : ComputeRuleConfig K) (inputs : InputMap K) (state : RuleState K) (nowMs : Int) : Bool :=
  let triggerType := if rule.trigger.type = [] then "interval".toList else rule.trigger.type
  if triggerType = "interval".toList then
    decide (state.lastEvalMs = 0 ∨ max 1 rule.trigger.intervalMs ≤ nowMs - state.lastEvalMs)
  else if triggerType = "onInputChanged".toList then
    let minInterval := max 0 rule.trigger.minIntervalMs
    if 0 < minInterval ∧ 0 < state.lastEvalMs ∧ nowMs - state.lastEvalMs < minInterval then false
    else if state.lastInputs.entries = [] then true
    else inputs.entries.any fun entry => changedSince state.lastInputs rule.trigger.deadband entry.1 entry.2
  else true

def namedInputs (rule : ComputeRuleConfig K) (inputs : InputMap K) : NamedInputs K :=
  rule.inputs.foldl (fun named input => Function.update named input.name
    ((inputs.lookup input.index).map fun value =>
      ⟨decide (value.quality = 1) && !value.stale, value.stale, value.value, value.quality, value.ts⟩)) fun _ => none

def outputQuality (config : ComputeEngineConfig K) (rule : ComputeRuleConfig K) (output : ComputeOutputConfig K)
    (inputs : NamedInputs K) (expressionOk : Bool) : Int :=
  if expressionOk = false then config.badQuality
  else
    let requiredMissing := rule.inputs.any fun input => (inputs input.name).isNone && input.required
    let anyBad := rule.inputs.any fun input => !(inputs input.name).any (·.valid)
    let policy := if output.qualityPolicy = [] then "bad_if_any_input_bad".toList else output.qualityPolicy
    if policy = "always_good".toList then 1
    else if policy = "bad_if_required_missing".toList ∧ requiredMissing then config.badQuality
    else if policy = "bad_if_any_input_bad".toList ∧ anyBad then config.badQuality
    else 1

def shouldSubmitOutput (state : OutputState K) (output : ComputeOutputConfig K) (value : K) (quality nowMs : Int) : Bool :=
  if output.index = 0 then false
  else if 0 < output.minIntervalMs ∧ 0 < state.lastWriteMs ∧ nowMs - state.lastWriteMs < output.minIntervalMs then false
  else if state.hasLastValue ∧ state.lastQuality ≠ quality then true
  else if 0 < output.deadband ∧ state.hasLastValue ∧ |value - state.lastValue| ≤ output.deadband then false
  else true

structure Scan (K : Type u) where
  service : ComputeEngineService K
  evaluated : List Nat
  deviceWritesThisScan : Nat

namespace Scan

def publish (st : Scan K) (point : PublishedPoint K) : Scan K :=
  { st with service := { st.service with published := st.service.published ++ [point] } }

def remember (st : Scan K) (key : StdString) (state : OutputState K) : Scan K :=
  { st with service := { st.service with outputStates := Function.update st.service.outputStates key state } }

def submit (st : Scan K) (command : Submission K) : Scan K :=
  { st with
    service := { st.service with commands := st.service.commands ++ [command] }
    deviceWritesThisScan := if command.accepted then st.deviceWritesThisScan + 1 else st.deviceWritesThisScan }

end Scan

section Outputs

variable (config : ComputeEngineConfig K) (input : ScanInput K) (place : Nat) (rule : ComputeRuleConfig K)
  (inputs : NamedInputs K) (result : Option K)

def publishLatest (output : ComputeOutputConfig K) (value : K) (quality : Int) (st : Scan K) : Scan K :=
  if isLatestMode output.mode then
    st.publish ⟨output.index, value, quality, input.nowMs,
      input.nowMs + if 0 < output.ttlMs then output.ttlMs else config.defaultOutputTtlMs⟩
  else st

/-- The loop over the outputs of a rule. A device write over the limit leaves the loop. -/
def outputLoop : Nat → List (ComputeOutputConfig K) → Scan K → Scan K
  | _, [], st => st
  | position, output :: rest, st =>
    let key := outputStateKey rule output
    let value := result.getD 0
    let quality := outputQuality config rule output inputs result.isSome
    let state : OutputState K := ⟨input.nowMs, value, quality, true⟩
    if shouldSubmitOutput (st.service.outputStates key) output value quality input.nowMs then
      let shown := publishLatest config input output value quality st
      if isDeviceWriteMode output.mode then
        if quality ≠ 1 then outputLoop (position + 1) rest shown
        else if config.maxWritesPerScan ≤ shown.deviceWritesThisScan then shown
        else
          let command : Submission K := ⟨key, output.index, value, input.nowMs, input.accepts place position⟩
          outputLoop (position + 1) rest ((shown.submit command).remember key state)
      else outputLoop (position + 1) rest (shown.remember key state)
    else outputLoop (position + 1) rest st

end Outputs

section RunOnce

variable (config : ComputeEngineConfig K) (input : ScanInput K)

def evaluateRule (place : Nat) (rule : ComputeRuleConfig K) (inputs : InputMap K) (st : Scan K) : Scan K :=
  if rule.script.type = "graphEms".toList then
    { st with
      deviceWritesThisScan := st.deviceWritesThisScan +
        input.graphWrites place (config.maxWritesPerScan - st.deviceWritesThisScan) }
  else
    let named := namedInputs rule inputs
    let result := if rule.script.type = "expression".toList then config.parse rule.script.expression named else none
    outputLoop config input place rule named result 0 rule.outputs st

def Scan.noteEvaluated (st : Scan K) (place : Nat) (rule : ComputeRuleConfig K) (inputs : InputMap K) : Scan K :=
  { st with
    service := { st.service with
      ruleStates := Function.update st.service.ruleStates (safeRuleCode rule) ⟨input.nowMs, inputs⟩ }
    evaluated := st.evaluated ++ [place] }

def dueAt (place : Nat) (rule : ComputeRuleConfig K) (st : Scan K) : Bool :=
  shouldEvaluate rule (currentInputs (input.latest place)) (st.service.ruleStates (safeRuleCode rule)) input.nowMs

def scanRules : Nat → List (ComputeRuleConfig K) → Scan K → Scan K
  | _, [], st => st
  | place, rule :: rest, st =>
    if rule.enabled = false then scanRules (place + 1) rest st
    else if config.maxRuleEvalPerScan ≤ st.evaluated.length then st
    else if dueAt input place rule st then
      let inputs := currentInputs (input.latest place)
      scanRules (place + 1) rest ((evaluateRule config input place rule inputs st).noteEvaluated input place rule inputs)
    else scanRules (place + 1) rest st

def runOnce (service : ComputeEngineService K) : Scan K := scanRules config input 0 config.rules ⟨service, [], 0⟩

end RunOnce

namespace ComputeEngineService

def created : ComputeEngineService K := ⟨fun _ => {}, fun _ => ⟨0, 0, 0, false⟩, [], []⟩

def step (config : ComputeEngineConfig K) (service : ComputeEngineService K) (input : ScanInput K) :
    ComputeEngineService K := (runOnce config input service).service

end ComputeEngineService

end EdgeGateway.Compute
