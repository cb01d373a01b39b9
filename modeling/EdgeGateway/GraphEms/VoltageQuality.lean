import EdgeGateway.Foundation.Rounding
import EdgeGateway.Models

/-! # The voltage qualification node -/

namespace EdgeGateway.GraphEms

structure LocalDate where
  year : Int
  mon : Int
  mday : Int
deriving DecidableEq, Repr

/-- The infinities and NaN have no value here. -/
structure VoltagePoint (K : Type) where
  value : Option K
  quality : Int
  ts : Int
  stale : Bool
deriving DecidableEq

structure PeriodOutputs where
  key : UInt32
  monitoredMinutes : UInt32
  overlimitMinutes : UInt32
  invalidMinutes : UInt32
  qualifiedRate : UInt32
  availabilityRate : UInt32
  pass : UInt32
deriving DecidableEq, Repr

structure VoltageQualityPeriodState where
  key : Int := 0
  monitoredMinutes : Nat := 0
  overlimitMinutes : Nat := 0
  invalidMinutes : Nat := 0
deriving DecidableEq, Repr

inductive MinuteStatus where
  | pending
  | qualified
  | overlimit
  | invalid
deriving DecidableEq, Repr

def MinuteStatus.code : MinuteStatus → Nat
  | pending => 0
  | qualified => 1
  | overlimit => 2
  | invalid => 3

structure VoltageQualityState (K : Type) [Zero K] where
  currentMinuteKey : Int := -1
  lastSampleAt : Int := 0
  sums : List K := []
  counts : List Nat := []
  lastInputTimestamps : List Int := []
  lastAverages : List K := []
  lastMinuteStatus : MinuteStatus := .pending
  lastMinuteCoverage : K := 0
  day : VoltageQualityPeriodState := {}
  completedDay : VoltageQualityPeriodState := {}

def minuteKeyOf (nowMs : Int) : Int := nowMs.tdiv 60000

def voltageQualityDayKey (localTimeFromEpochMs : Int → LocalDate) (minuteKey : Int) : Int :=
  let localTime := localTimeFromEpochMs (minuteKey * 60000)
  (localTime.year + 1900) * 10000 + (localTime.mon + 1) * 100 + localTime.mday

section Node

variable {K : Type} [Field K] [LinearOrder K]

def voltageQualityLimits (nominalVoltage : K) : Option (K × K) :=
  if |nominalVoltage - 220| < 1 / 2 then some (198, 2354 / 10)
  else if |nominalVoltage - 380| < 1 / 2 then some (3534 / 10, 4066 / 10)
  else none

variable (K) in
/-- The check of a node accepts no other nominal voltages, and as many of them as inputs. -/
structure VoltageInput where
  inputIndex : UInt32
  minuteAverageOutputIndex : UInt32
  nominalVoltage : K
  limits : K × K
  limits_eq : voltageQualityLimits nominalVoltage = some limits

variable (K) in
structure VoltageNode where
  inputs : List (VoltageInput K)
  minimumCoveragePercent : K
  minimumCoveragePercent_pos : 0 < minimumCoveragePercent
  minimumCoveragePercent_le : minimumCoveragePercent ≤ 100
  passThresholdPercent : K
  minuteStatusOutputIndex : UInt32
  minuteSampleCoverageOutputIndex : UInt32
  dayOutputs : PeriodOutputs
  completedDayOutputs : PeriodOutputs

variable (K) in
/-- One run of the node, with what it finds and the messages of the outputs that are rejected. -/
structure VoltageRun where
  nowMs : Int
  latestPoint : UInt32 → Option (VoltagePoint K)
  rejection : UInt32 → Option String

def sampleIntervalMs : Int := 200

def expectedSamples : Nat := 300

def VoltageQualityPeriodState.count (period : VoltageQualityPeriodState) : MinuteStatus → VoltageQualityPeriodState
  | .qualified => { period with monitoredMinutes := period.monitoredMinutes + 1 }
  | .overlimit => { period with
      monitoredMinutes := period.monitoredMinutes + 1, overlimitMinutes := period.overlimitMinutes + 1 }
  | _ => { period with invalidMinutes := period.invalidMinutes + 1 }

variable [FloorRing K]

def VoltageNode.requiredSamples (node : VoltageNode K) : Nat :=
  ⌈(expectedSamples : K) * node.minimumCoveragePercent / 100⌉.toNat

structure VoltageBucket (K : Type) where
  sum : K
  count : Nat
  lastInputTimestamp : Int
deriving DecidableEq

def VoltageBucket.sample (bucket : VoltageBucket K) (minuteKey : Int) : Option (VoltagePoint K) → VoltageBucket K
  | none => bucket
  | some point => match point.value with
    | none => bucket
    | some value =>
      if point.quality = 1 ∧ point.stale = false ∧ minuteKeyOf point.ts = minuteKey ∧
          point.ts ≠ bucket.lastInputTimestamp then
        { sum := bucket.sum + value, count := bucket.count + 1, lastInputTimestamp := point.ts }
      else bucket

namespace VoltageQualityState

variable (state : VoltageQualityState K) (node : VoltageNode K)

def resetMinute : VoltageQualityState K :=
  { state with sums := List.replicate node.inputs.length 0, counts := List.replicate node.inputs.length 0 }

def resized : VoltageQualityState K :=
  let n := node.inputs.length
  let state := if state.sums.length ≠ n ∨ state.counts.length ≠ n then state.resetMinute node else state
  { state with
    lastAverages := if state.lastAverages.length ≠ n then List.replicate n 0 else state.lastAverages
    lastInputTimestamps :=
      if state.lastInputTimestamps.length ≠ n then List.replicate n 0 else state.lastInputTimestamps }

/-- A clock that was set back drops the minute. A very long gap drops everything, and leaves no
timestamps for the inputs. -/
def atMinute (minuteKey : Int) : VoltageQualityState K :=
  let state := state.resized node
  if state.currentMinuteKey < 0 then { state with currentMinuteKey := minuteKey }
  else if minuteKey < state.currentMinuteKey then
    let state := { state with currentMinuteKey := minuteKey, lastSampleAt := 0 }
    state.resetMinute node
  else if 600000 < minuteKey - state.currentMinuteKey then
    let state : VoltageQualityState K :=
      { currentMinuteKey := minuteKey, lastAverages := List.replicate node.inputs.length 0 }
    state.resetMinute node
  else state

def finalizeDay : VoltageQualityState K :=
  if state.day.key ≠ 0 then { state with completedDay := state.day } else state

def updateDay (key : Int) (status : MinuteStatus) : VoltageQualityState K :=
  if state.day.key ≠ key then
    { state.finalizeDay with day := VoltageQualityPeriodState.count { key } status }
  else { state with day := state.day.count status }

def averages : List K := List.zipWith (fun sum (count : Nat) => sum / (count : K)) state.sums state.counts

def coverage : K :=
  state.counts.foldl (fun coverage (count : Nat) => min coverage (min 100 ((count : K) * 100 / (expectedSamples : K)))) 100

def isQualified (averages : List K) : Bool :=
  (List.zipWith (fun (input : VoltageInput K) average =>
    !(decide (average < input.limits.1) || decide (input.limits.2 < average))) node.inputs averages).all id

def minuteStatus : MinuteStatus :=
  if state.counts.all (fun count => decide (node.requiredSamples ≤ count)) then
    if isQualified node state.averages then .qualified else .overlimit
  else .invalid

def accountCompletedMinute (dayKey : Int → Int) (completedMinuteKey : Int) : VoltageQualityState K :=
  let status := state.minuteStatus node
  let counted : VoltageQualityState K := { state with
    lastAverages := if status = .invalid then state.lastAverages else state.averages
    lastMinuteStatus := status
    lastMinuteCoverage := state.coverage }
  counted.updateDay (dayKey completedMinuteKey) status

/-- The loop over the minutes in which the node did not run. -/
def accountMissing (dayKey : Int → Int) : Nat → Int → VoltageQualityState K → VoltageQualityState K
  | 0, _, state => state
  | n + 1, missing, state =>
    accountMissing dayKey n (missing + 1) ((state.resetMinute node).accountCompletedMinute node dayKey missing)

def closeMinutes (dayKey : Int → Int) (minuteKey : Int) : VoltageQualityState K :=
  if state.currentMinuteKey < minuteKey then
    let closed := state.accountCompletedMinute node dayKey state.currentMinuteKey
    let caughtUp := accountMissing node dayKey (minuteKey - state.currentMinuteKey - 1).toNat
      (state.currentMinuteKey + 1) closed
    ({ caughtUp with currentMinuteKey := minuteKey }).resetMinute node
  else state

def beginDay (currentDayKey : Int) : VoltageQualityState K :=
  if state.day.key ≠ 0 ∧ state.day.key ≠ currentDayKey then
    { state.finalizeDay with day := { key := currentDayKey } }
  else state

def buckets : List (VoltageBucket K) :=
  List.zipWith (fun sum (rest : Nat × Int) => ⟨sum, rest.1, rest.2⟩) state.sums
    (state.counts.zip state.lastInputTimestamps)

def setBuckets (buckets : List (VoltageBucket K)) : VoltageQualityState K :=
  { state with
    sums := buckets.map VoltageBucket.sum
    counts := buckets.map VoltageBucket.count
    lastInputTimestamps := buckets.map VoltageBucket.lastInputTimestamp }

def sampleInputs (run : VoltageRun K) : VoltageQualityState K :=
  if state.lastSampleAt = 0 ∨ run.nowMs < state.lastSampleAt ∨ sampleIntervalMs ≤ run.nowMs - state.lastSampleAt then
    let sampled := List.zipWith (fun (input : VoltageInput K) (bucket : VoltageBucket K) =>
      bucket.sample state.currentMinuteKey (run.latestPoint input.inputIndex)) node.inputs state.buckets
    { state.setBuckets sampled with lastSampleAt := run.nowMs }
  else state

end VoltageQualityState

structure VoltageOutput (K : Type) where
  index : UInt32
  value : K
  field : String

def periodOutputs (node : VoltageNode K) (outputs : PeriodOutputs) (period : VoltageQualityPeriodState) :
    List (VoltageOutput K) :=
  let monitored : K := period.monitoredMinutes
  let invalid : K := period.invalidMinutes
  let overlimit : K := period.overlimitMinutes
  let qualifiedRate := if 0 < monitored then (monitored - overlimit) * 100 / monitored else 0
  let total := monitored + invalid
  let availabilityRate := if 0 < total then monitored * 100 / total else 0
  [⟨outputs.key, period.key, "period key"⟩,
    ⟨outputs.monitoredMinutes, monitored, "monitored minutes"⟩,
    ⟨outputs.overlimitMinutes, overlimit, "overlimit minutes"⟩,
    ⟨outputs.invalidMinutes, invalid, "invalid minutes"⟩,
    ⟨outputs.qualifiedRate, qualifiedRate, "qualified rate"⟩,
    ⟨outputs.availabilityRate, availabilityRate, "availability rate"⟩,
    ⟨outputs.pass, if 0 < monitored ∧ node.passThresholdPercent ≤ qualifiedRate + 1 / 10 ^ 9 then 1 else 0,
      "pass status"⟩]

/-- What is written once a minute is closed. -/
def voltageOutputs (node : VoltageNode K) (state : VoltageQualityState K) : List (VoltageOutput K) :=
  (if state.lastMinuteStatus = .qualified ∨ state.lastMinuteStatus = .overlimit then
    List.zipWith (fun (input : VoltageInput K) average => ⟨input.minuteAverageOutputIndex, average, "minute average"⟩)
      node.inputs state.lastAverages
  else []) ++
  [⟨node.minuteStatusOutputIndex, (state.lastMinuteStatus.code : K), "minute status"⟩,
    ⟨node.minuteSampleCoverageOutputIndex, state.lastMinuteCoverage, "minute sample coverage"⟩] ++
  periodOutputs node node.dayOutputs state.day ++
  (if state.completedDay.key ≠ 0 then periodOutputs node node.completedDayOutputs state.completedDay else [])

/-- The values written, or the message of the exception; what was counted by then stays counted. -/
def runVoltageQualification (node : VoltageNode K) (localTimeFromEpochMs : Int → LocalDate)
    (state : VoltageQualityState K) (run : VoltageRun K) :
    Except String (List (VoltageOutput K)) × VoltageQualityState K :=
  let minuteKey := minuteKeyOf run.nowMs
  let dayKey := voltageQualityDayKey localTimeFromEpochMs
  let current := state.atMinute node minuteKey
  let counted := (current.closeMinutes node dayKey minuteKey).beginDay (dayKey minuteKey)
  let outputs := if current.currentMinuteKey < minuteKey then voltageOutputs node counted else []
  match outputs.findSome? fun output => (run.rejection output.index).map fun message => (output.field, message) with
  | some (field, message) =>
    (.error ("voltageQualification " ++ field ++ " output rejected: " ++ message), counted)
  | none => (.ok outputs, counted.sampleInputs node run)

end Node

end EdgeGateway.GraphEms
