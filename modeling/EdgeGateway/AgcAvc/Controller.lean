import EdgeGateway.AgcAvc.Arithmetic
import EdgeGateway.Models

/-! # The AGC/AVC controller

One step reads the measurements of a cycle and divides an active and a reactive target among the PCS
units. The integrators and the last targets are remembered.
-/

namespace EdgeGateway.AgcAvc

universe u

variable {K : Type u} [Field K] [LinearOrder K] {n : Nat}

inductive AgcAvcRuntimeState where
  | disabled
  | standby
  | active
  | degraded
  | pausedByPriority
  | rampToZero
  | failsafe
deriving DecidableEq, Repr

inductive AvcMode where
  | reactivePower
  | voltage
  | powerFactor
deriving DecidableEq, Repr

inductive CombinePolicy where
  | min
  | source
deriving DecidableEq, Repr

structure AgcAvcCapabilityValueConfig (K : Type u) where
  commissionedLimit : K
  hasSourcePoint : Bool
  combinePolicy : CombinePolicy

structure AgcAvcStationLimitsConfig (K : Type u) where
  ratedActivePowerKw : K
  ratedApparentPowerKva : K
  maxImportPowerKw : K
  maxExportPowerKw : K
  maxReactivePowerKvar : K
  transformerRatedKva : K

structure AgcLoopConfig (K : Type u) where
  enabled : Bool
  deadbandKw : K
  kp : K
  ki : K
  integralMinKw : K
  integralMaxKw : K
  minKw : K
  maxKw : K
  riseKwPerSec : K
  fallKwPerSec : K
  frequencyDroopEnabled : Bool
  nominalHz : K
  kwPerHz : K
  droopLimitKw : K

structure AvcLoopConfig (K : Type u) where
  enabled : Bool
  defaultMode : AvcMode
  deadbandKvar : K
  voltageDeadbandV : K
  kpQ : K
  kiQ : K
  integralMinKvar : K
  integralMaxKvar : K
  kpV : K
  kiV : K
  minKvar : K
  maxKvar : K
  riseKvarPerSec : K
  fallKvarPerSec : K

structure AgcAvcPcsConfig (K : Type u) where
  meterCode : StdString
  enabled : Bool
  gridTieInverter : Bool
  weight : K
  ratedActivePowerKw : AgcAvcCapabilityValueConfig K
  ratedApparentPowerKva : AgcAvcCapabilityValueConfig K
  ratedReactivePowerKvar : K
  maxChargePowerKw : K
  maxDischargePowerKw : K
  minStableChargePowerKw : K
  minStableDischargePowerKw : K
  socDischargeStopPercent : K
  socDischargeDeratePercent : K
  socChargeDeratePercent : K
  socChargeStopPercent : K
  temperatureDerateStartC : K
  temperatureStopC : K
  currentDerateStartPercent : K
  currentStopPercent : K
  ratedAcCurrentA : K
  riseKwPerSec : K
  fallKwPerSec : K
  riseKvarPerSec : K
  fallKvarPerSec : K
  fallbackToStaticLimit : Bool

structure AgcAvcConfig (K : Type u) (n : Nat) where
  enabled : Bool
  cycleMs : Int
  avcCycleMs : Int
  commandTimeoutMs : Int
  pqPriority : PqPriority
  stationLimits : AgcAvcStationLimitsConfig K
  agc : AgcLoopConfig K
  avc : AvcLoopConfig K
  pcs : Fin n → AgcAvcPcsConfig K

/-- The mode is absent when the mode point is not valid. -/
structure AgcAvcCommandInput (K : Type u) where
  sequence : Int
  issuedAtMs : Int
  targetPkw : K
  targetQkvar : K
  targetVoltageV : K
  targetPowerFactor : K
  avcMode : Option AvcMode
deriving DecidableEq

structure AgcAvcPcsRuntimeInput (K : Type u) where
  online : Bool
  ready : Bool
  chargeAllowed : Bool
  dischargeAllowed : Bool
  inputHealthy : Bool
  soc : K
  actualPkw : K
  actualQkvar : K
  availableChargeKw : Option K
  availableDischargeKw : Option K
  availableReactiveKvar : Option K
  collectedRatedActiveKw : Option K
  collectedRatedApparentKva : Option K
  temperatureC : Option K
  maxAcCurrentA : Option K

structure AgcAvcCycleInput (K : Type u) where
  nowMs : Int
  inputHealthy : Bool
  inputFailureReason : String
  remoteEnable : Bool
  emergencyStop : Bool
  fireAlarm : Bool
  priorityBlocked : Bool
  pccActivePowerKw : K
  pccReactivePowerKvar : K
  pccVoltageV : K
  pccPowerFactor : K
  frequencyHz : Option K
  command : AgcAvcCommandInput K
  pcs : List (AgcAvcPcsRuntimeInput K)

structure AgcAvcPcsAssignment (K : Type u) where
  meterCode : StdString
  available : Bool
  targetPkw : K
  targetQkvar : K
  availableChargeKw : K
  availableDischargeKw : K
  availableReactiveKvar : K
  reason : String

/-- A cycle without assignments leaves the vector of units empty. -/
structure AgcAvcCycleOutput (K : Type u) (n : Nat) where
  state : AgcAvcRuntimeState
  reason : String
  commandSequence : Int
  commandAgeMs : Option Int
  rawTargetPkw : K
  effectiveTargetPkw : K
  agcErrorKw : K
  rawTargetQkvar : K
  effectiveTargetQkvar : K
  avcError : K
  availableActivePowerKw : K
  availableReactivePowerKvar : K
  unservedActivePowerKw : K
  unservedReactivePowerKvar : K
  pcs : Option (Fin n → AgcAvcPcsAssignment K)

structure AgcAvcController (K : Type u) (n : Nat) where
  lastCycleMs : Int
  lastAvcCalculationMs : Int
  integralP : K
  integralQ : K
  integralV : K
  previousPkw : K
  previousQkvar : K
  heldRawQkvar : K
  lastAvcError : K
  previousPcsPkw : Fin n → K
  previousPcsQkvar : Fin n → K

def effectiveCapability (config : AgcAvcCapabilityValueConfig K) (collected : Option K) : K :=
  let commissioned := max 0 config.commissionedLimit
  match collected with
  | none => commissioned
  | some collected =>
    if !config.hasSourcePoint || decide (collected ≤ 0) then commissioned
    else if config.combinePolicy = .source then collected
    else if commissioned ≤ 0 then collected
    else min commissioned collected

def apparentLimit (limits : AgcAvcStationLimitsConfig K) : K :=
  let value := positiveLimit limits.ratedApparentPowerKva limits.ratedActivePowerKw
  if limits.transformerRatedKva > 0 then
    if value > 0 then min value limits.transformerRatedKva else limits.transformerRatedKva
  else value

structure PcsCapability (K : Type u) where
  available : Bool
  charge : K
  discharge : K
  reactive : K
  ratedApparent : K

def AgcAvcPcsConfig.environmentalFactor (config : AgcAvcPcsConfig K) (runtime : AgcAvcPcsRuntimeInput K) : K :=
  let warm := match runtime.temperatureC with
    | some temperature => min 1 (fallingDerateFactor temperature config.temperatureDerateStartC config.temperatureStopC)
    | none => 1
  match runtime.maxAcCurrentA with
  | some current =>
    if config.ratedAcCurrentA > 0 ∧ config.currentDerateStartPercent > 0 ∧ config.currentStopPercent > 0 then
      min warm (fallingDerateFactor (current * 100 / config.ratedAcCurrentA) config.currentDerateStartPercent
        config.currentStopPercent)
    else warm
  | none => warm

def AgcAvcPcsConfig.directionLimit (config : AgcAvcPcsConfig K) (ratedP configured : K) (reported : Option K)
    (allowed : Bool) : K :=
  let limit := min ratedP (positiveLimit configured ratedP)
  let dynamic := match reported with
    | some value => min limit (max 0 value)
    | none => if !config.fallbackToStaticLimit && !config.gridTieInverter then 0 else limit
  if allowed then dynamic else 0

def AgcAvcPcsConfig.capability (config : AgcAvcPcsConfig K) (runtime : Option (AgcAvcPcsRuntimeInput K)) :
    PcsCapability K :=
  match runtime with
  | none => ⟨false, 0, 0, 0, 0⟩
  | some runtime =>
    if config.enabled && runtime.inputHealthy && runtime.online && runtime.ready then
      let ratedP := effectiveCapability config.ratedActivePowerKw runtime.collectedRatedActiveKw
      let ratedS := effectiveCapability config.ratedApparentPowerKva runtime.collectedRatedApparentKva
      let discharge := config.directionLimit ratedP config.maxDischargePowerKw runtime.availableDischargeKw
        runtime.dischargeAllowed
      let charge := config.directionLimit ratedP config.maxChargePowerKw runtime.availableChargeKw
        runtime.chargeAllowed
      let socDischarge := if config.gridTieInverter then discharge
        else discharge * risingDerateFactor runtime.soc config.socDischargeStopPercent config.socDischargeDeratePercent
      let socCharge := if config.gridTieInverter then charge
        else charge * fallingDerateFactor runtime.soc config.socChargeDeratePercent config.socChargeStopPercent
      let factor := config.environmentalFactor runtime
      let reactive := positiveLimit config.ratedReactivePowerKvar ratedS
      let dynamicReactive := match runtime.availableReactiveKvar with
        | some value => min reactive (max 0 value)
        | none => reactive
      ⟨true, socCharge * factor, socDischarge * factor, dynamicReactive * factor, ratedS⟩
    else ⟨false, 0, 0, 0, 0⟩

namespace AgcAvcController

def reset : AgcAvcController K n where
  lastCycleMs := 0
  lastAvcCalculationMs := 0
  integralP := 0
  integralQ := 0
  integralV := 0
  previousPkw := 0
  previousQkvar := 0
  heldRawQkvar := 0
  lastAvcError := 0
  previousPcsPkw := fun _ => 0
  previousPcsQkvar := fun _ => 0

variable (math : CMath K) (config : AgcAvcConfig K n) (c : AgcAvcController K n) (input : AgcAvcCycleInput K)

def dtSec : K :=
  if c.lastCycleMs > 0 ∧ input.nowMs > c.lastCycleMs then ((input.nowMs - c.lastCycleMs : Int) : K) / 1000
  else ((max 1 config.cycleMs : Int) : K) / 1000

def commandAgeMs : Option Int :=
  if input.command.issuedAtMs > 0 then some (input.nowMs - input.command.issuedAtMs) else none

def commandFresh : Bool :=
  decide (input.command.sequence > 0) &&
    match commandAgeMs input with
    | some age => decide (age ≥ -1000) && decide (age ≤ config.commandTimeoutMs)
    | none => false

def blank : AgcAvcCycleOutput K n where
  state := .disabled
  reason := ""
  commandSequence := input.command.sequence
  commandAgeMs := commandAgeMs input
  rawTargetPkw := 0
  effectiveTargetPkw := 0
  agcErrorKw := 0
  rawTargetQkvar := 0
  effectiveTargetQkvar := 0
  avcError := 0
  availableActivePowerKw := 0
  availableReactivePowerKvar := 0
  unservedActivePowerKw := 0
  unservedReactivePowerKvar := 0
  pcs := none

def integralsReset : AgcAvcController K n := { c with integralP := 0, integralQ := 0, integralV := 0 }

def zeroTargetP (immediate : Bool) (i : Fin n) : K :=
  if immediate then 0
  else rateLimit (c.previousPcsPkw i) 0 (config.pcs i).riseKwPerSec (config.pcs i).fallKwPerSec (c.dtSec config input)

def zeroTargetQ (immediate : Bool) (i : Fin n) : K :=
  if immediate then 0
  else rateLimit (c.previousPcsQkvar i) 0 (config.pcs i).riseKvarPerSec (config.pcs i).fallKvarPerSec
    (c.dtSec config input)

def setZeroAssignments (immediate : Bool) : AgcAvcController K n × AgcAvcCycleOutput K n :=
  let p := c.zeroTargetP config input immediate
  let q := c.zeroTargetQ config input immediate
  ({ c with
      previousPcsPkw := p
      previousPcsQkvar := q
      previousPkw := ∑ i, p i
      previousQkvar := ∑ i, q i
      integralP := 0
      integralQ := 0
      integralV := 0
      lastCycleMs := input.nowMs },
    { (blank input : AgcAvcCycleOutput K n) with
      effectiveTargetPkw := ∑ i, p i
      effectiveTargetQkvar := ∑ i, q i
      pcs := some fun i =>
        { meterCode := (config.pcs i).meterCode
          available := (config.pcs i).enabled
          targetPkw := p i
          targetQkvar := q i
          availableChargeKw := 0
          availableDischargeKw := 0
          availableReactiveKvar := 0
          reason := "" } })

def pausedController : AgcAvcController K n :=
  let actual := fun i : Fin n => (input.pcs[i.val]?).bind fun runtime =>
    if runtime.inputHealthy then some runtime else none
  { c.integralsReset with
    lastCycleMs := input.nowMs
    previousPcsPkw := fun i => ((actual i).map (·.actualPkw)).getD (c.previousPcsPkw i)
    previousPcsQkvar := fun i => ((actual i).map (·.actualQkvar)).getD (c.previousPcsQkvar i)
    previousPkw := ∑ i, ((actual i).map (·.actualPkw)).getD 0
    previousQkvar := ∑ i, ((actual i).map (·.actualQkvar)).getD 0 }

def deadband (error band : K) : K := if |error| ≤ max 0 band then 0 else error

structure ActiveRequest (K : Type u) where
  requested : K
  integral : K
  error : K

def requestP : ActiveRequest K :=
  if config.agc.enabled then
    let error := deadband (input.command.targetPkw - input.pccActivePowerKw) config.agc.deadbandKw
    let integral := clampValue (c.integralP + error * c.dtSec config input) config.agc.integralMinKw
      config.agc.integralMaxKw
    let requested := input.command.targetPkw + config.agc.kp * error + config.agc.ki * integral
    let droop := match input.frequencyHz with
      | some frequency =>
        if config.agc.frequencyDroopEnabled then
          clampValue (config.agc.kwPerHz * (config.agc.nominalHz - frequency)) (-|config.agc.droopLimitKw|)
            |config.agc.droopLimitKw|
        else 0
      | none => 0
    ⟨requested + droop, integral, error⟩
  else ⟨0, c.integralP, 0⟩

structure ReactiveRequest (K : Type u) where
  requested : K
  integralQ : K
  integralV : K
  held : K
  error : K
  calculatedMs : Int

def requestQ : ReactiveRequest K :=
  let avcDue := c.lastAvcCalculationMs ≤ 0 ∨
    input.nowMs - c.lastAvcCalculationMs ≥ max config.cycleMs config.avcCycleMs
  if config.avc.enabled then
    if avcDue then
      let avcDtSec : K :=
        if c.lastAvcCalculationMs > 0 ∧ input.nowMs > c.lastAvcCalculationMs then
          ((input.nowMs - c.lastAvcCalculationMs : Int) : K) / 1000
        else ((max config.cycleMs config.avcCycleMs : Int) : K) / 1000
      match input.command.avcMode.getD config.avc.defaultMode with
      | .voltage =>
        let error := deadband (input.command.targetVoltageV - input.pccVoltageV) config.avc.voltageDeadbandV
        let integral := clampValue (c.integralV + error * avcDtSec) config.avc.integralMinKvar
          config.avc.integralMaxKvar
        let requested := c.previousQkvar + config.avc.kpV * error + config.avc.kiV * integral
        ⟨requested, c.integralQ, integral, requested, error, input.nowMs⟩
      | .powerFactor =>
        let pf := clampValue |input.command.targetPowerFactor| (1 / 100) 1
        let requested := copysign (|input.pccActivePowerKw| * math.tanAcos pf) input.command.targetPowerFactor
        ⟨requested, c.integralQ, c.integralV, requested, input.command.targetPowerFactor - input.pccPowerFactor,
          input.nowMs⟩
      | .reactivePower =>
        let error := deadband (input.command.targetQkvar - input.pccReactivePowerKvar) config.avc.deadbandKvar
        let integral := clampValue (c.integralQ + error * avcDtSec) config.avc.integralMinKvar
          config.avc.integralMaxKvar
        let requested := input.command.targetQkvar + config.avc.kpQ * error + config.avc.kiQ * integral
        ⟨requested, integral, c.integralV, requested, error, input.nowMs⟩
    else ⟨c.heldRawQkvar, c.integralQ, c.integralV, c.heldRawQkvar, c.lastAvcError, c.lastAvcCalculationMs⟩
  else ⟨0, c.integralQ, c.integralV, 0, 0, c.lastAvcCalculationMs⟩

def maxExport : K :=
  positiveLimit config.stationLimits.maxExportPowerKw
    (positiveLimit config.agc.maxKw config.stationLimits.ratedActivePowerKw)

def maxImport : K :=
  positiveLimit config.stationLimits.maxImportPowerKw
    (positiveLimit (-config.agc.minKw) config.stationLimits.ratedActivePowerKw)

def stationQ : K :=
  positiveLimit config.stationLimits.maxReactivePowerKvar (max |config.avc.minKvar| |config.avc.maxKvar|)

def stationRequest : K × K :=
  let p := clampValue (clampValue (c.requestP config input).requested (-maxImport config) (maxExport config))
    config.agc.minKw config.agc.maxKw
  let q := clampValue (clampValue (c.requestQ math config input).requested (-stationQ config) (stationQ config))
    config.avc.minKvar config.avc.maxKvar
  applyPqEnvelope math p q (apparentLimit config.stationLimits) config.pqPriority

def rampedP : K :=
  rateLimit c.previousPkw (c.stationRequest math config input).1 config.agc.riseKwPerSec config.agc.fallKwPerSec
    (c.dtSec config input)

def rampedQ : K :=
  rateLimit c.previousQkvar (c.stationRequest math config input).2 config.avc.riseKvarPerSec
    config.avc.fallKvarPerSec (c.dtSec config input)

def capability (i : Fin n) : PcsCapability K := (config.pcs i).capability input.pcs[i.val]?

def selectedP (i : Fin n) : K :=
  if 0 ≤ c.rampedP math config input then (capability config input i).discharge else (capability config input i).charge

def pMinimum (i : Fin n) : K :=
  if !(capability config input i).available then 0
  else if 0 ≤ c.rampedP math config input then (config.pcs i).minStableDischargePowerKw
  else (config.pcs i).minStableChargePowerKw

def qCapacity (i : Fin n) : K := min (capability config input i).reactive (capability config input i).ratedApparent

def weights (i : Fin n) : K :=
  if !(capability config input i).available then 0
  else max 0 (config.pcs i).weight * max (c.selectedP math config input i) 1

def pAllocated : Fin n → K :=
  allocateWithMinimum (c.selectedP math config input) (c.weights math config input) (c.rampedP math config input)
    (c.pMinimum math config input)

def qAfterP (i : Fin n) : K :=
  min (qCapacity config input i) (math.sqrt (max 0 ((capability config input i).ratedApparent *
    (capability config input i).ratedApparent - c.pAllocated math config input i * c.pAllocated math config input i)))

def qAllocated : Fin n → K :=
  allocateByCapacity (c.qAfterP math config input) (c.weights math config input) (c.rampedQ math config input)

def unitTarget (i : Fin n) : K × K :=
  let p := rateLimit (c.previousPcsPkw i) (c.pAllocated math config input i) (config.pcs i).riseKwPerSec
    (config.pcs i).fallKwPerSec (c.dtSec config input)
  let q := rateLimit (c.previousPcsQkvar i) (c.qAllocated math config input i) (config.pcs i).riseKvarPerSec
    (config.pcs i).fallKvarPerSec (c.dtSec config input)
  applyPqEnvelope math p q (capability config input i).ratedApparent config.pqPriority

def target (i : Fin n) : K × K :=
  if (capability config input i).available then c.unitTarget math config input i else (0, 0)

def deliveredP : K := ∑ i, (c.target math config input i).1

def deliveredQ : K := ∑ i, (c.target math config input i).2

def assignment (i : Fin n) : AgcAvcPcsAssignment K where
  meterCode := (config.pcs i).meterCode
  available := (capability config input i).available
  targetPkw := (c.target math config input i).1
  targetQkvar := (c.target math config input i).2
  availableChargeKw := (capability config input i).charge
  availableDischargeKw := (capability config input i).discharge
  availableReactiveKvar := (capability config input i).reactive
  reason :=
    if (capability config input i).available then ""
    else if !(config.pcs i).enabled then "disabled" else "offline, not ready, or invalid input"

def isDegraded : Bool :=
  decide (|c.rampedP math config input - c.deliveredP math config input| > max (1 / 10) config.agc.deadbandKw) ||
    decide (|c.rampedQ math config input - c.deliveredQ math config input| > max (1 / 10) config.avc.deadbandKvar)

def controlStep : AgcAvcController K n × AgcAvcCycleOutput K n :=
  let p := c.requestP config input
  let q := c.requestQ math config input
  ({ lastCycleMs := input.nowMs
     lastAvcCalculationMs := q.calculatedMs
     integralP := p.integral
     integralQ := q.integralQ
     integralV := q.integralV
     previousPkw := c.deliveredP math config input
     previousQkvar := c.deliveredQ math config input
     heldRawQkvar := q.held
     lastAvcError := q.error
     previousPcsPkw := fun i => (c.target math config input i).1
     previousPcsQkvar := fun i => (c.target math config input i).2 },
    { (blank input : AgcAvcCycleOutput K n) with
      state := if c.isDegraded math config input then .degraded else .active
      reason := if c.isDegraded math config input then "available PCS capability cannot fully satisfy target"
        else "dispatch target active"
      rawTargetPkw := p.requested
      effectiveTargetPkw := c.deliveredP math config input
      agcErrorKw := p.error
      rawTargetQkvar := q.requested
      effectiveTargetQkvar := c.deliveredQ math config input
      avcError := q.error
      availableActivePowerKw := ∑ i, c.selectedP math config input i
      availableReactivePowerKvar := ∑ i, qCapacity config input i
      unservedActivePowerKw := c.rampedP math config input - c.deliveredP math config input
      unservedReactivePowerKvar := c.rampedQ math config input - c.deliveredQ math config input
      pcs := some (c.assignment math config input) })

def step : AgcAvcController K n × AgcAvcCycleOutput K n :=
  if !config.enabled then
    ({ (reset : AgcAvcController K n) with lastCycleMs := input.nowMs },
      { (blank input : AgcAvcCycleOutput K n) with state := .disabled, reason := "module disabled" })
  else if !input.inputHealthy then
    let zero := c.setZeroAssignments config input true
    (zero.1, { zero.2 with
      state := .failsafe
      reason := if input.inputFailureReason = "" then "required input invalid" else input.inputFailureReason })
  else if input.emergencyStop || input.fireAlarm || !input.remoteEnable then
    let zero := c.setZeroAssignments config input true
    (zero.1, { zero.2 with
      state := .failsafe
      reason := if input.emergencyStop then "emergency stop active"
        else if input.fireAlarm then "fire alarm active" else "remote control disabled" })
  else if input.priorityBlocked then
    (c.pausedController input,
      { (blank input : AgcAvcCycleOutput K n) with
        state := .pausedByPriority
        reason := "paused by high priority control" })
  else if !commandFresh config input then
    let zero := c.setZeroAssignments config input false
    (zero.1, { zero.2 with
      state := if |zero.2.effectiveTargetPkw| > 1 / 10 ^ 6 ∨ |zero.2.effectiveTargetQkvar| > 1 / 10 ^ 6 then .rampToZero
        else .standby
      reason := if input.command.sequence ≤ 0 then "waiting for dispatch command" else "dispatch command expired" })
  else c.controlStep math config input

end AgcAvcController

end EdgeGateway.AgcAvc
