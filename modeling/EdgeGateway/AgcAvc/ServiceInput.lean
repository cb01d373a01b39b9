import EdgeGateway.AgcAvc.Controller

/-! # What a tick of the AGC/AVC service reads

A tick takes one snapshot of its points, reads the sequence point a second time and latches the
dispatch command if both agree.
-/

namespace EdgeGateway.AgcAvc

universe u

structure SharedPoint (K : Type u) where
  value : Option K
  quality : Int
  ts : Int
  stale : Bool

abbrev Snapshot (K : Type u) := UInt32 → Option (SharedPoint K)

structure AgcAvcPointRefConfig where
  index : UInt32
  required : Bool
  semanticRole : String
deriving DecidableEq, Repr

structure AgcAvcPcsPointsConfig where
  online : AgcAvcPointRefConfig
  ready : AgcAvcPointRefConfig
  soc : AgcAvcPointRefConfig
  actualP : AgcAvcPointRefConfig
  actualQ : AgcAvcPointRefConfig
  chargeAllowed : AgcAvcPointRefConfig
  dischargeAllowed : AgcAvcPointRefConfig
  availableChargeKw : AgcAvcPointRefConfig
  availableDischargeKw : AgcAvcPointRefConfig
  dynamicReactiveLimitKvar : AgcAvcPointRefConfig
  temperature : AgcAvcPointRefConfig
  acCurrent : List AgcAvcPointRefConfig
  ratedActiveSource : AgcAvcPointRefConfig
  ratedApparentSource : AgcAvcPointRefConfig
  activeTargets : List AgcAvcPointRefConfig
  reactiveTargets : List AgcAvcPointRefConfig

structure AgcAvcPcsServiceConfig (K : Type u) where
  points : AgcAvcPcsPointsConfig
  ratedPercent : Bool
  writeDeadbandKw : K
  writeDeadbandKvar : K
  minWriteIntervalMs : Int
  feedbackTimeoutMs : Int
  feedbackToleranceKw : K
  feedbackToleranceKvar : K

structure AgcAvcServiceConfig (K : Type u) (n : Nat) where
  controller : AgcAvcConfig K n
  units : Fin n → AgcAvcPcsServiceConfig K
  shadowMode : Bool
  submitWrites : Bool
  inputMaxAgeMs : Int
  writeResultTimeoutMs : Int
  maxConsecutiveWriteFailures : Int
  remoteEnable : AgcAvcPointRefConfig
  emergencyStop : AgcAvcPointRefConfig
  fireAlarm : AgcAvcPointRefConfig
  target : AgcAvcPointRefConfig
  commandSequence : AgcAvcPointRefConfig
  commandTimestamp : AgcAvcPointRefConfig
  pccActivePower : AgcAvcPointRefConfig
  frequency : AgcAvcPointRefConfig
  mode : AgcAvcPointRefConfig
  targetQ : AgcAvcPointRefConfig
  targetVoltage : AgcAvcPointRefConfig
  targetPowerFactor : AgcAvcPointRefConfig
  pccReactivePower : AgcAvcPointRefConfig
  pccVoltage : AgcAvcPointRefConfig
  pccPowerFactor : AgcAvcPointRefConfig

variable {K : Type u}

def pointUsable (point : SharedPoint K) (nowMs maxAgeMs : Int) : Bool :=
  decide (point.quality > 0) && !point.stale && point.value.isSome && decide (point.ts > 0) &&
    (decide (maxAgeMs ≤ 0) || decide (nowMs - point.ts ≤ maxAgeMs))

section Reading

variable (values : Snapshot K) (nowMs maxAgeMs : Int)

def pointValue (ref : AgcAvcPointRefConfig) : Option K :=
  if ref.index = 0 then none
  else (values ref.index).bind fun point => if pointUsable point nowMs maxAgeMs then point.value else none

def readValue (ref : AgcAvcPointRefConfig) (fallback : K) : K := (pointValue values nowMs maxAgeMs ref).getD fallback

structure Health where
  healthy : Bool
  failureReason : String
deriving DecidableEq, Repr

/-- A required point that cannot be used makes the input unhealthy; the last one names the reason. -/
def Health.check (health : Health) (ref : AgcAvcPointRefConfig) : Health :=
  if (pointValue values nowMs maxAgeMs ref).isSome || !ref.required then health
  else if ref.index = 0 then ⟨false, "required point is not configured: " ++ ref.semanticRole⟩
  else ⟨false, "required point is missing, stale, or bad quality: " ++ ref.semanticRole⟩

def Health.checkAll (health : Health) (refs : List AgcAvcPointRefConfig) : Health :=
  refs.foldl (Health.check values nowMs maxAgeMs) health

end Reading

variable [Field K] [LinearOrder K] [FloorRing K] {n : Nat}

def llround (value : K) : Int := if 0 ≤ value then ⌊value + 1 / 2⌋ else -⌊-value + 1 / 2⌋

def readMaxAbsValue (values : Snapshot K) (nowMs maxAgeMs : Int) (refs : List AgcAvcPointRefConfig) : Option K :=
  (refs.filterMap (pointValue values nowMs maxAgeMs)).foldl (fun best value => some (max (best.getD 0) |value|)) none

def avcModeOf (value : Int) : AvcMode :=
  if value = 1 then .voltage else if value = 2 then .powerFactor else .reactivePower

namespace AgcAvcServiceConfig

variable (config : AgcAvcServiceConfig K n) (values : Snapshot K) (nowMs : Int)

def observedCommand : AgcAvcCommandInput K :=
  let timeout := config.controller.commandTimeoutMs
  { sequence := llround (readValue values nowMs timeout config.commandSequence 0)
    issuedAtMs := llround (readValue values nowMs timeout config.commandTimestamp 0)
    targetPkw := readValue values nowMs timeout config.target 0
    targetQkvar := readValue values nowMs timeout config.targetQ 0
    targetVoltageV := readValue values nowMs timeout config.targetVoltage 0
    targetPowerFactor := readValue values nowMs timeout config.targetPowerFactor 1
    avcMode := (pointValue values nowMs timeout config.mode).map fun value => avcModeOf (llround value) }

def sequenceStable (sequencePoint : Option (SharedPoint K)) (observed : AgcAvcCommandInput K) : Bool :=
  sequencePoint.any fun point => pointUsable point nowMs config.controller.commandTimeoutMs &&
    point.value.any fun value => llround value == observed.sequence

def healthBefore : Health :=
  let age := config.inputMaxAgeMs
  let timeout := config.controller.commandTimeoutMs
  let interlocks := Health.checkAll values nowMs age ⟨true, ""⟩
    [config.remoteEnable, config.emergencyStop, config.fireAlarm]
  let command := Health.checkAll values nowMs timeout interlocks
    [config.target, config.commandSequence, config.commandTimestamp]
  let measured := Health.checkAll values nowMs age command [config.pccActivePower, config.frequency]
  Health.checkAll values nowMs timeout measured
    [config.mode, config.targetQ, config.targetVoltage, config.targetPowerFactor]

def stationHealth (stable : Bool) : Health :=
  let checked := if stable then config.healthBefore values nowMs
    else ⟨false, "dispatch command changed while the shared-memory snapshot was being read"⟩
  Health.checkAll values nowMs config.inputMaxAgeMs checked
    [config.pccReactivePower, config.pccVoltage, config.pccPowerFactor]

def unitInput (i : Fin n) : AgcAvcPcsRuntimeInput K :=
  let points := (config.units i).points
  let age := config.inputMaxAgeMs
  let read := readValue values nowMs age
  let pcs := config.controller.pcs i
  let ratedActive := pcs.ratedActivePowerKw.hasSourcePoint
  let ratedApparent := pcs.ratedApparentPowerKva.hasSourcePoint
  { online := decide (read points.online 0 > 1 / 2)
    ready := decide (read points.ready 0 > 1 / 2)
    chargeAllowed := decide (read points.chargeAllowed 1 > 1 / 2)
    dischargeAllowed := decide (read points.dischargeAllowed 1 > 1 / 2)
    inputHealthy := (Health.checkAll values nowMs age ⟨true, ""⟩
      ([points.online, points.ready, points.soc, points.actualP, points.actualQ, points.chargeAllowed,
        points.dischargeAllowed, points.availableChargeKw, points.availableDischargeKw,
        points.dynamicReactiveLimitKvar, points.temperature] ++ points.acCurrent ++
        (if ratedActive then [points.ratedActiveSource] else []) ++
        (if ratedApparent then [points.ratedApparentSource] else []))).healthy
    soc := read points.soc 0
    actualPkw := read points.actualP 0
    actualQkvar := read points.actualQ 0
    availableChargeKw := pointValue values nowMs age points.availableChargeKw
    availableDischargeKw := pointValue values nowMs age points.availableDischargeKw
    availableReactiveKvar := pointValue values nowMs age points.dynamicReactiveLimitKvar
    collectedRatedActiveKw := if ratedActive then pointValue values nowMs age points.ratedActiveSource else none
    collectedRatedApparentKva := if ratedApparent then pointValue values nowMs age points.ratedApparentSource else none
    temperatureC := pointValue values nowMs age points.temperature
    maxAcCurrentA := readMaxAbsValue values nowMs age points.acCurrent }

def cycleInput (stable priorityBlocked : Bool) (command : AgcAvcCommandInput K) : AgcAvcCycleInput K :=
  let age := config.inputMaxAgeMs
  let health := config.stationHealth values nowMs stable
  { nowMs := nowMs
    inputHealthy := health.healthy
    inputFailureReason := health.failureReason
    remoteEnable := decide (readValue values nowMs age config.remoteEnable 1 > 1 / 2)
    emergencyStop := decide (readValue values nowMs age config.emergencyStop 0 > 1 / 2)
    fireAlarm := decide (readValue values nowMs age config.fireAlarm 0 > 1 / 2)
    priorityBlocked := priorityBlocked
    pccActivePowerKw := readValue values nowMs age config.pccActivePower 0
    pccReactivePowerKvar := readValue values nowMs age config.pccReactivePower 0
    pccVoltageV := readValue values nowMs age config.pccVoltage 0
    pccPowerFactor := readValue values nowMs age config.pccPowerFactor 1
    frequencyHz := pointValue values nowMs age config.frequency
    command := command
    pcs := (List.finRange n).map (config.unitInput values nowMs) }

end AgcAvcServiceConfig

/-- A stable command with a newer sequence replaces the latched one. -/
def latchCommand (latched : Option (AgcAvcCommandInput K)) (stable : Bool) (observed : AgcAvcCommandInput K) :
    Option (AgcAvcCommandInput K) :=
  if stable && decide (observed.sequence > 0) && latched.all fun latched => observed.sequence > latched.sequence then
    some observed
  else latched

end EdgeGateway.AgcAvc
