import EdgeGateway.GraphEms.Document

/-! # Nodes and the checks of their parameters -/

namespace EdgeGateway.GraphEms

open Numerals QuotedText

inductive NodeType where
  | pointInput
  | meterAverage
  | derivedLoad
  | bmsDerived
  | cosCompensation
  | voltageCompensation
  | chargeDischarge
  | chargeDischargeCycleTest
  | timedChargeDischarge
  | photovoltaicCharge
  | phaseBalance
  | skOverride
  | reserveCapacity
  | pcsPowerSolve
  | pcsWriteback
  | formula
  | timeSource
  | windowAggregate
  | voltageQualification
  | scheduleSelect
  | phaseArbiter
  | powerConstraint
  | switch
  | controlGate
  | feedbackVerify
  | controlWrite
  | rateLimit
  | hysteresis
  | debounce
  | sequence
deriving DecidableEq

def NodeType.name : NodeType → String
  | .pointInput => "pointInput"
  | .meterAverage => "meterAverage"
  | .derivedLoad => "derivedLoad"
  | .bmsDerived => "bmsDerived"
  | .cosCompensation => "cosCompensation"
  | .voltageCompensation => "voltageCompensation"
  | .chargeDischarge => "chargeDischarge"
  | .chargeDischargeCycleTest => "chargeDischargeCycleTest"
  | .timedChargeDischarge => "timedChargeDischarge"
  | .photovoltaicCharge => "photovoltaicCharge"
  | .phaseBalance => "phaseBalance"
  | .skOverride => "skOverride"
  | .reserveCapacity => "reserveCapacity"
  | .pcsPowerSolve => "pcsPowerSolve"
  | .pcsWriteback => "pcsWriteback"
  | .formula => "formula"
  | .timeSource => "timeSource"
  | .windowAggregate => "windowAggregate"
  | .voltageQualification => "voltageQualification"
  | .scheduleSelect => "scheduleSelect"
  | .phaseArbiter => "phaseArbiter"
  | .powerConstraint => "powerConstraint"
  | .switch => "switch"
  | .controlGate => "controlGate"
  | .feedbackVerify => "feedbackVerify"
  | .controlWrite => "controlWrite"
  | .rateLimit => "rateLimit"
  | .hysteresis => "hysteresis"
  | .debounce => "debounce"
  | .sequence => "sequence"

def NodeType.known : List NodeType :=
  [.pointInput, .meterAverage, .derivedLoad, .bmsDerived, .cosCompensation, .voltageCompensation, .chargeDischarge,
    .chargeDischargeCycleTest, .timedChargeDischarge, .photovoltaicCharge, .phaseBalance, .skOverride,
    .reserveCapacity, .pcsPowerSolve, .pcsWriteback, .formula, .timeSource, .windowAggregate, .voltageQualification,
    .scheduleSelect, .phaseArbiter, .powerConstraint, .switch, .controlGate, .feedbackVerify, .controlWrite,
    .rateLimit, .hysteresis, .debounce, .sequence]

def nodeType? (type : StdString) : Option NodeType := NodeType.known.find? fun known => known.name.toList == type

structure GraphEmsNodeConfig where
  id : StdString
  type : StdString
  enabled : Bool := true
  params : Params

section Readers

variable (params : Params)

def hasParam (key : StdString) : Bool := (params.find key).any (· ≠ [])

def paramText (key : StdString) (defaultValue : StdString) : StdString := (params.find key).getD defaultValue

def paramIndex (key : StdString) (defaultValue : UInt32) : Fallible UInt32 :=
  match params.find key with
  | none | some [] => .ok defaultValue
  | some text => (stoul text).map UInt32.ofNat

def paramBool (key : StdString) (defaultValue : Bool) : Bool :=
  match params.find key with
  | none | some [] => defaultValue
  | some text => text == "1".toList || text == "true".toList || text == "TRUE".toList

def paramDouble (key : StdString) : Fallible (Option RawDouble) :=
  match params.find key with
  | none | some [] => .ok none
  | some text => match stod text with
    | none => .error "stod".toList
    | some value => .ok (some value)

def paramCount (key : StdString) : Fallible Nat :=
  match params.find (key ++ ".count".toList) with
  | none | some [] => .ok 0
  | some text => stoul text

def element (key : StdString) (i : Nat) : StdString := key ++ '.' :: decimal i

def paramIndexes (key : StdString) : Fallible (List UInt32) := do
  let count ← paramCount params key
  (List.range count).mapM fun i => paramIndex params (element key i) 0

end Readers

section Checks

def double (text : String) : RawDouble := (stod text.toList).getD 0

variable (params : Params)

def validatePositiveIndex (key : StdString) : Fallible Unit :=
  match params.find key with
  | none | some [] => .ok ()
  | some text =>
    match stoll text with
    | some (n, []) => require (decide (0 < n ∧ n < 2 ^ 32)) ("generic node ".toList ++ key ++ " must be a positive uint32 index".toList)
    | _ => .error ("generic node ".toList ++ key ++ " must be a positive uint32 index".toList)

def validateIndexArray (key : StdString) (minCount maxCount : Nat) : Fallible Unit := do
  let count ← paramCount params key
  require (decide (minCount ≤ count ∧ count ≤ maxCount))
    (key ++ " requires ".toList ++ decimal minCount ++ " to ".toList ++ decimal maxCount ++ " indexes".toList)
  (List.range count).forM fun i => validatePositiveIndex params (element key i)

def requireIndex (type key : String) : Fallible Unit := do
  require (hasParam params key.toList) (type.toList ++ ' ' :: key.toList ++ " is required".toList)
  validatePositiveIndex params key.toList

def numberOr (key : String) (defaultValue : RawDouble) : Fallible RawDouble := do
  return (← paramDouble params key.toList).getD defaultValue

def isNonNegative (value : RawDouble) : Bool := isFinite value && lessEq 0 value

/-- `value_or(0.0)` where the text is known to be there. -/
def number (key : String) : Fallible RawDouble := numberOr params key 0

def requireOptional (key : StdString) (test : RawDouble → Bool) (message : String) : Fallible Unit := do
  match ← paramDouble params key with
  | none => return
  | some value => require (test value) message.toList

def isKnownFormulaOperation (operation : StdString) : Bool :=
  normalizedToken operation ∈ ["add", "sum", "subtract", "multiply", "divide", "safedivide", "min", "max", "average",
    "abs", "negate", "square", "sqrt", "acos", "tan", "sin", "cos", "clamp"].map String.toList

def isKnownSwitchOperator (operation : StdString) : Bool :=
  normalizedToken operation ∈ ["gt", ">", "gte", ">=", "lt", "<", "lte", "<=", "eq", "==", "ne", "!="].map String.toList

def validateTimeSource : Fallible Unit := do
  let component := normalizedToken (paramText params "component".toList "hour".toList)
  require (component ∈ ["dayofmonth", "day", "hour", "minute", "second", "minuteofday", "weekday"].map String.toList)
    "timeSource component must be dayOfMonth, hour, minute, second, minuteOfDay, or weekday".toList
  requireIndex params "timeSource" "outputIndex"

def validateFormulaInput (i : Nat) : Fallible Unit := do
  let start := element "inputs".toList i
  require (hasParam params (start ++ ".index".toList) != hasParam params (start ++ ".value".toList))
    "formula input requires exactly one index or value".toList
  validatePositiveIndex params (start ++ ".index".toList)

def validateFormula : Fallible Unit := do
  let text := params.find "operation".toList
  require (text.any isKnownFormulaOperation) "formula node has unsupported operation".toList
  let operation := normalizedToken (text.getD [])
  let count ← paramCount params "inputs".toList
  require (decide (count ≠ 0)) "formula node requires inputs".toList
  require (!(operation ∈ ["abs", "negate", "square", "sqrt", "acos", "tan", "sin", "cos", "clamp"].map String.toList ∧
      count ≠ 1)) "formula unary operation requires exactly one input".toList
  require (!(operation ∈ ["subtract", "divide", "safedivide"].map String.toList ∧ count < 2))
    "formula operation requires at least two inputs".toList
  (List.range count).forM (validateFormulaInput params)
  if operation = "clamp".toList then
    require (hasParam params "lower".toList != hasParam params "lowerIndex".toList &&
        hasParam params "upper".toList != hasParam params "upperIndex".toList)
      "formula clamp requires lower and upper bounds".toList
    validatePositiveIndex params "lowerIndex".toList
    validatePositiveIndex params "upperIndex".toList
  require (hasParam params "outputIndex".toList) "formula node outputIndex is required".toList
  validatePositiveIndex params "outputIndex".toList

def isNominalVoltage (value : RawDouble) : Bool :=
  (less (double "219.5") value && less value (double "220.5")) ||
    (less (double "379.5") value && less value (double "380.5"))

def voltageScalarOutputs : List String :=
  ["minuteStatusOutputIndex", "minuteSampleCoverageOutputIndex", "dayKeyOutputIndex", "dayMonitoredMinutesOutputIndex",
    "dayOverlimitMinutesOutputIndex", "dayInvalidMinutesOutputIndex", "dayQualifiedRateOutputIndex",
    "dayAvailabilityRateOutputIndex", "dayPassOutputIndex", "completedDayKeyOutputIndex",
    "completedDayMonitoredMinutesOutputIndex", "completedDayOverlimitMinutesOutputIndex",
    "completedDayInvalidMinutesOutputIndex", "completedDayQualifiedRateOutputIndex",
    "completedDayAvailabilityRateOutputIndex", "completedDayPassOutputIndex"]

def validateNominalVoltage (i : Nat) : Fallible Unit := do
  let nominal ← paramDouble params (element "nominalVoltages".toList i)
  require (nominal.any isFinite) "voltageQualification nominalVoltages must be finite numbers".toList
  require (nominal.any isNominalVoltage) "voltageQualification nominal voltage must be 220V or 380V".toList

def addVoltageOutput (outputs : List UInt32) (key : String) : Fallible (List UInt32) := do
  requireIndex params "voltageQualification" key
  let index ← paramIndex params key.toList 0
  require (index ∉ outputs) "voltageQualification output indexes must be unique".toList
  return outputs ++ [index]

def validateVoltageQualification : Fallible Unit := do
  validateIndexArray params "inputIndexes".toList 1 16
  validateIndexArray params "minuteAverageOutputIndexes".toList 1 16
  let inputCount ← paramCount params "inputIndexes".toList
  require (decide ((← paramCount params "nominalVoltages".toList) = inputCount ∧
      (← paramCount params "minuteAverageOutputIndexes".toList) = inputCount))
    "voltageQualification inputIndexes, nominalVoltages, and minuteAverageOutputIndexes must have equal counts".toList
  (List.range inputCount).forM (validateNominalVoltage params)
  let sampleIntervalMs ← numberOr params "sampleIntervalMs" (double "200")
  require (wholeNumber sampleIntervalMs == some 200)
    "voltageQualification sampleIntervalMs must be 200 for GB/T 12325 statistics".toList
  let minimumCoverage ← numberOr params "minimumCoveragePercent" (double "90")
  require (less 0 minimumCoverage && lessEq minimumCoverage (double "100"))
    "voltageQualification minimumCoveragePercent must be in (0, 100]".toList
  let passThreshold ← numberOr params "passThresholdPercent" (double "95")
  require (lessEq 0 passThreshold && lessEq passThreshold (double "100"))
    "voltageQualification passThresholdPercent must be in [0, 100]".toList
  let averages ← paramIndexes params "minuteAverageOutputIndexes".toList
  require (decide averages.Nodup) "voltageQualification output indexes must be unique".toList
  let outputs ← voltageScalarOutputs.foldlM (addVoltageOutput params) averages
  let inputs ← paramIndexes params "inputIndexes".toList
  require (inputs.all (· ∉ outputs)) "voltageQualification input and output indexes must differ".toList

def validateWindowAggregate : Fallible Unit := do
  require (hasParam params "inputIndex".toList && hasParam params "outputIndex".toList)
    "windowAggregate inputIndex and outputIndex are required".toList
  validatePositiveIndex params "inputIndex".toList
  validatePositiveIndex params "outputIndex".toList
  require ((← paramIndex params "inputIndex".toList 0) != (← paramIndex params "outputIndex".toList 0))
    "windowAggregate inputIndex and outputIndex must differ".toList
  require (normalizedToken (paramText params "operation".toList "average".toList) ∈
      ["average", "sum", "min", "max"].map String.toList) "windowAggregate has unsupported operation".toList
  require (!(hasParam params "windowSize".toList && hasParam params "windowSizeIndex".toList))
    "windowAggregate requires only one window size source".toList
  validatePositiveIndex params "windowSizeIndex".toList
  require (integerWithin 1 4096 (← numberOr params "windowSize" (double "10"))).isSome
    "windowAggregate windowSize must be an integer from 1 to 4096".toList

def validateScheduleEntry (hours : List Nat) (i : Nat) : Fallible (List Nat) := do
  let start := element "scheduleCurve".toList i
  let hour := (← paramDouble params (start ++ ".hour".toList)).bind (integerWithin 0 23)
  match hour with
  | none => throw "scheduleSelect hour must be an integer from 0 to 23".toList
  | some hour =>
    require (hour ∉ hours) "scheduleSelect hours must be unique".toList
    ["power", "targetSoc", "soc", "mode"].forM fun field =>
      requireOptional params (start ++ '.' :: field.toList) isFinite ("scheduleSelect " ++ field ++ " must be finite")
    ["powerIndex", "targetSocIndex", "modeIndex"].forM fun field =>
      validatePositiveIndex params (start ++ '.' :: field.toList)
    return hours ++ [hour]

def validateScheduleSelect : Fallible Unit := do
  let count ← paramCount params "scheduleCurve".toList
  require (decide (count ≠ 0 ∧ count ≤ 24)) "scheduleSelect requires 1 to 24 schedule entries".toList
  let _ ← (List.range count).foldlM (validateScheduleEntry params) []
  let outputs := ["powerOutputIndex", "socOutputIndex", "modeOutputIndex", "enableOutputIndex"]
  require (outputs.any fun key => hasParam params key.toList) "scheduleSelect requires at least one output index".toList
  outputs.forM fun key => validatePositiveIndex params key.toList
  let enableMaskCount ← paramCount params "enableMaskIndexes".toList
  require (decide (enableMaskCount ≤ 2)) "scheduleSelect supports at most two 16-bit enable masks".toList
  if 0 < enableMaskCount then
    validateIndexArray params "enableMaskIndexes".toList 1 16
    require (hasParam params "enableOutputIndex".toList) "scheduleSelect enable masks require enableOutputIndex".toList

def validateOptionalPhases (key : String) (phaseCount : Nat) : Fallible Unit := do
  let count ← paramCount params key.toList
  if count ≠ 0 then
    validateIndexArray params key.toList 1 16
    require (count == phaseCount) ("phaseArbiter " ++ key ++ " count must match outputs").toList

def validateCandidate (phaseCount i : Nat) : Fallible Unit := do
  let start := element "candidates".toList i
  let token (field fallback : String) := normalizedToken (paramText params (start ++ field.toList) fallback.toList)
  require (token ".target" "active" ∈ ["active", "reactive"].map String.toList &&
      token ".merge" "stronger" ∈ ["max", "min", "add", "override", "stronger"].map String.toList &&
      token ".direction" "any" ∈ ["any", "positive", "negative"].map String.toList)
    "phaseArbiter candidate has unsupported target, merge or direction".toList
  validatePositiveIndex params (start ++ ".enableIndex".toList)
  validatePositiveIndex params (start ++ ".totalIndex".toList)
  validatePositiveIndex params (start ++ ".runOutputIndex".toList)
  let indexesCount ← paramCount params (start ++ ".indexes".toList)
  require (hasParam params (start ++ ".totalIndex".toList) != decide (0 < indexesCount))
    "phaseArbiter candidate requires one totalIndex or indexes array".toList
  if 0 < indexesCount then
    validateIndexArray params (start ++ ".indexes".toList) 1 16
    require (indexesCount == phaseCount) "phaseArbiter candidate index count must match outputs".toList

def validatePhaseArbiter : Fallible Unit := do
  validateIndexArray params "activeOutputIndexes".toList 1 16
  validateIndexArray params "reactiveOutputIndexes".toList 1 16
  let phaseCount ← paramCount params "activeOutputIndexes".toList
  require ((← paramCount params "reactiveOutputIndexes".toList) == phaseCount)
    "phaseArbiter active/reactive output counts must match".toList
  validateOptionalPhases params "activeBaseIndexes" phaseCount
  validateOptionalPhases params "reactiveBaseIndexes" phaseCount
  let candidateCount ← paramCount params "candidates".toList
  require (decide (candidateCount ≤ 64)) "phaseArbiter supports at most 64 candidates".toList
  (List.range candidateCount).forM (validateCandidate params phaseCount)
  ["override.enableIndex", "override.activeTotalIndex", "override.reactiveTotalIndex"].forM fun key =>
    validatePositiveIndex params key.toList

def validateClearIndexes (key : String) : Fallible Unit := do
  let count ← paramCount params key.toList
  require (decide (count ≤ 32)) ("powerConstraint " ++ key ++ " supports at most 32 indexes").toList
  (List.range count).forM fun i => validatePositiveIndex params (element key.toList i)

def validatePowerConstraint : Fallible Unit := do
  ["activeInputIndexes", "reactiveInputIndexes", "activeOutputIndexes", "reactiveOutputIndexes"].forM fun key =>
    validateIndexArray params key.toList 1 16
  let phaseCount ← paramCount params "activeInputIndexes".toList
  require (decide ((← paramCount params "reactiveInputIndexes".toList) = phaseCount ∧
      (← paramCount params "activeOutputIndexes".toList) = phaseCount ∧
      (← paramCount params "reactiveOutputIndexes".toList) = phaseCount))
    "powerConstraint input/output phase counts must match".toList
  let loadCount ← paramCount params "loadIndexes".toList
  if 0 < loadCount then
    validateIndexArray params "loadIndexes".toList 1 16
    require (loadCount == phaseCount) "powerConstraint loadIndexes count must match phases".toList
  ["positiveLimitEnableIndex", "positiveLimitIndex", "negativeLimitEnableIndex", "negativeLimitIndex",
    "reserveEnableIndex", "reserveMarginIndex", "reserveRunOutputIndex", "activeAbsLimitIndex",
    "reactiveAbsLimitIndex", "apparentTotalLimitIndex", "positiveTotalLimitIndex", "negativeTotalLimitIndex",
    "stateIndex", "stateUpperIndex", "stateLowerIndex"].forM fun key => validatePositiveIndex params key.toList
  validateClearIndexes params "lowStateClearIndexes"
  validateClearIndexes params "highStateClearIndexes"

def hasOneOf (first second : StdString) : Bool := hasParam params first != hasParam params second

def validateSwitch : Fallible Unit := do
  validatePositiveIndex params "conditionIndex".toList
  if !hasParam params "conditionIndex".toList then
    require ((params.find "operator".toList).any isKnownSwitchOperator) "switch node has unsupported operator".toList
    require (hasOneOf params "leftIndex".toList "leftValue".toList &&
        hasOneOf params "rightIndex".toList "rightValue".toList)
      "switch comparison requires left and right operands".toList
    validatePositiveIndex params "leftIndex".toList
    validatePositiveIndex params "rightIndex".toList
  require (hasOneOf params "trueIndex".toList "trueValue".toList &&
      hasOneOf params "falseIndex".toList "falseValue".toList) "switch node requires true and false values".toList
  validatePositiveIndex params "trueIndex".toList
  validatePositiveIndex params "falseIndex".toList
  require (hasParam params "outputIndex".toList) "switch node outputIndex is required".toList
  validatePositiveIndex params "outputIndex".toList

/-- The shared part of a condition of a gate or a transition. -/
def validateConditionOperands (owner : String) (start : StdString) : Fallible Unit := do
  require (hasParam params (start ++ ".index".toList)) (owner ++ " condition index is required").toList
  validatePositiveIndex params (start ++ ".index".toList)
  require ((params.find (start ++ ".operator".toList)).any isKnownSwitchOperator)
    (owner ++ " condition has unsupported operator").toList
  require (hasOneOf params (start ++ ".value".toList) (start ++ ".valueIndex".toList))
    (owner ++ " condition requires one value or valueIndex").toList
  validatePositiveIndex params (start ++ ".valueIndex".toList)

def validateControlGate : Fallible Unit := do
  require (normalizedToken (paramText params "combine".toList "all".toList) ∈ ["all", "any"].map String.toList)
    "controlGate combine must be all or any".toList
  let count ← paramCount params "conditions".toList
  require (decide (count ≠ 0 ∧ count ≤ 64)) "controlGate requires 1 to 64 conditions".toList
  (List.range count).forM fun i => do
    let start := element "conditions".toList i
    validateConditionOperands params "controlGate" start
    requireOptional params (start ++ ".tolerance".toList) isNonNegative
      "controlGate tolerance must be a non-negative number"
  requireIndex params "controlGate" "outputIndex"

def validateFeedbackVerify : Fallible Unit := do
  ["targetIndex", "feedbackIndex", "outputIndex"].forM (requireIndex params "feedbackVerify")
  let tolerance ← numberOr params "tolerance" 0
  let targetChangeTolerance ← numberOr params "targetChangeTolerance" (double "1e-9")
  let timeoutMs ← numberOr params "timeoutMs" (double "5000")
  require (isNonNegative tolerance) "feedbackVerify tolerance must be a non-negative number".toList
  require (isNonNegative targetChangeTolerance)
    "feedbackVerify targetChangeTolerance must be a non-negative number".toList
  require (integerWithin 1 86400000 timeoutMs).isSome
    "feedbackVerify timeoutMs must be an integer from 1 to 86400000".toList

def areBounds (least greatest : RawDouble) : Bool := isFinite least && isFinite greatest && lessEq least greatest

def validatePermit (owner : String) : Fallible Unit := do
  validatePositiveIndex params "permitIndex".toList
  requireOptional params "permitValue".toList isFinite (owner ++ " permitValue must be finite")
  requireOptional params "permitTolerance".toList isNonNegative
    (owner ++ " permitTolerance must be a non-negative number")

def validateControlWrite : Fallible Unit := do
  ["inputIndex", "targetIndex"].forM (requireIndex params "controlWrite")
  require (hasParam params "minValue".toList && hasParam params "maxValue".toList)
    "controlWrite minValue and maxValue are required".toList
  require (areBounds (← number params "minValue") (← number params "maxValue"))
    "controlWrite bounds must be finite and minValue <= maxValue".toList
  require (isNonNegative (← numberOr params "deadband" 0)) "controlWrite deadband must be a non-negative number".toList
  validatePermit params "controlWrite"
  match params.find "valueMode".toList with
  | none => return
  | some valueMode =>
    require (normalizedToken valueMode ∈ ["none", "truncate", "round"].map String.toList)
      "controlWrite valueMode must be none, truncate or round".toList

def validateRateLimit : Fallible Unit := do
  ["inputIndex", "outputIndex"].forM (requireIndex params "rateLimit")
  require ((← paramIndex params "inputIndex".toList 0) != (← paramIndex params "outputIndex".toList 0))
    "rateLimit inputIndex and outputIndex must differ".toList
  ["risePerSecond", "fallPerSecond", "minValue", "maxValue"].forM fun key =>
    require (hasParam params key.toList) ("rateLimit " ++ key ++ " is required").toList
  let rise ← number params "risePerSecond"
  let fall ← number params "fallPerSecond"
  let minValue ← number params "minValue"
  let maxValue ← number params "maxValue"
  let initialValue ← numberOr params "initialValue" 0
  require (isFinite rise && less 0 rise && isFinite fall && less 0 fall)
    "rateLimit risePerSecond and fallPerSecond must be positive numbers".toList
  require (areBounds minValue maxValue) "rateLimit bounds must be finite and minValue <= maxValue".toList
  require (isFinite initialValue && lessEq minValue initialValue && lessEq initialValue maxValue)
    "rateLimit initialValue must be within configured bounds".toList

def validateHysteresis : Fallible Unit := do
  ["inputIndex", "outputIndex"].forM (requireIndex params "hysteresis")
  require (hasParam params "lowThreshold".toList && hasParam params "highThreshold".toList)
    "hysteresis lowThreshold and highThreshold are required".toList
  let low ← number params "lowThreshold"
  let high ← number params "highThreshold"
  require (isFinite low && isFinite high && less low high)
    "hysteresis thresholds must be finite and lowThreshold < highThreshold".toList

def validateDebounce : Fallible Unit := do
  ["inputIndex", "outputIndex"].forM (requireIndex params "debounce")
  ["onDelayMs", "offDelayMs"].forM fun key => do
    require (integerWithin 0 86400000 (← numberOr params key 0)).isSome
      ("debounce " ++ key ++ " must be an integer from 0 to 86400000").toList

def validateState (stateIds : List Nat) (i : Nat) : Fallible (List Nat) := do
  let key := element "states".toList i ++ ".id".toList
  require (hasParam params key) "sequence state id is required".toList
  match (← paramDouble params key).bind (integerWithin 0 65535) with
  | none => throw "sequence state ids must be unique integers from 0 to 65535".toList
  | some id =>
    require (id ∉ stateIds) "sequence state ids must be unique integers from 0 to 65535".toList
    return stateIds ++ [id]

def isStateOf (stateIds : List Nat) (value : RawDouble) : Bool :=
  (wholeNumber value).any fun n => decide (0 ≤ n ∧ n.toNat ∈ stateIds)

def validateTransition (stateIds : List Nat) (i : Nat) : Fallible Unit := do
  let start := element "transitions".toList i
  let source ← paramDouble params (start ++ ".from".toList)
  let target ← paramDouble params (start ++ ".to".toList)
  require (source.any (isStateOf stateIds) && target.any (isStateOf stateIds))
    "sequence transition from/to must reference configured states".toList
  require (normalizedToken (paramText params (start ++ ".combine".toList) "all".toList) ∈
    ["all", "any"].map String.toList) "sequence transition combine must be all or any".toList
  let duration := (← paramDouble params (start ++ ".minDurationMs".toList)).getD 0
  require (integerWithin 0 86400000 duration).isSome
    "sequence minDurationMs must be an integer from 0 to 86400000".toList
  let conditionCount ← paramCount params (start ++ ".conditions".toList)
  require (decide (conditionCount ≠ 0 ∧ conditionCount ≤ 64))
    "sequence transition requires 1 to 64 conditions".toList
  (List.range conditionCount).forM fun j => do
    let condition := element (start ++ ".conditions".toList) j
    validateConditionOperands params "sequence transition" condition
    requireOptional params (condition ++ ".tolerance".toList) isNonNegative
      "sequence transition tolerance must be non-negative"

def validateSequence : Fallible Unit := do
  requireIndex params "sequence" "stateOutputIndex"
  let stateCount ← paramCount params "states".toList
  require (decide (stateCount ≠ 0 ∧ stateCount ≤ 32)) "sequence requires 1 to 32 states".toList
  let stateIds ← (List.range stateCount).foldlM (validateState params) []
  requireOptional params "initialState".toList (isStateOf stateIds)
    "sequence initialState must reference a configured state"
  let transitionCount ← paramCount params "transitions".toList
  require (decide (transitionCount ≤ 128)) "sequence supports at most 128 transitions".toList
  (List.range transitionCount).forM (validateTransition params stateIds)

end Checks

def validateGenericNode (type : NodeType) (params : Params) : Fallible Unit :=
  match type with
  | .timeSource => validateTimeSource params
  | .formula => validateFormula params
  | .voltageQualification => validateVoltageQualification params
  | .windowAggregate => validateWindowAggregate params
  | .scheduleSelect => validateScheduleSelect params
  | .phaseArbiter => validatePhaseArbiter params
  | .powerConstraint => validatePowerConstraint params
  | .switch => validateSwitch params
  | .controlGate => validateControlGate params
  | .feedbackVerify => validateFeedbackVerify params
  | .controlWrite => validateControlWrite params
  | .rateLimit => validateRateLimit params
  | .hysteresis => validateHysteresis params
  | .debounce => validateDebounce params
  | .sequence => validateSequence params
  | .pcsWriteback | .pcsPowerSolve => validatePermit params "PCS"
  | _ => .ok ()

end EdgeGateway.GraphEms
