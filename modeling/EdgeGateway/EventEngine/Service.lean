import EdgeGateway.Models

/-! # The event engine

One call of `runOnce` at a time. What the stores hand out and which publishing calls throw is given;
the JSON texts of the payloads are kept as the records they are written from.
-/

namespace EdgeGateway.EventEngine

universe u

variable {K : Type u}

structure StoredPointValue (K : Type u) where
  index : UInt32
  machineCode : StdString
  meterCode : StdString
  pointCode : StdString
  value : K
  quality : Int
  ts : Int
  expireAt : Int
  stale : Bool
deriving DecidableEq

structure PointUpdateRecord (K : Type u) where
  index : UInt32
  value : K
  quality : Int
  ts : Int
  expireAt : Int

structure PointStoreRoute where
  machineCode : StdString
  meterCode : StdString
  pointCode : StdString
  reportOnChange : Bool

inductive AlarmType where
  | high
  | low
deriving DecidableEq

structure AlarmRuleConfig (K : Type u) where
  type : AlarmType
  threshold : K
  reportRecovery : Bool := true
  persistValue : StdString := []
deriving DecidableEq

structure AlarmBinding (K : Type u) where
  rule : AlarmRuleConfig K
  machineCode : StdString
  meterCode : StdString
  pointCode : StdString
deriving DecidableEq

structure AlarmEvent (K : Type u) where
  index : UInt32
  machineCode : StdString
  meterCode : StdString
  pointCode : StdString
  alarmType : AlarmType
  active : Bool
  threshold : K
  value : K
  quality : Int
  ts : Int
  stale : Bool
  persistValue : StdString
deriving DecidableEq

inductive Payload (K : Type u) where
  | alarm (event : AlarmEvent K)
  | change (value : StoredPointValue K)
deriving DecidableEq

structure EventMessage (K : Type u) where
  eventType : StdString
  topic : StdString
  payload : Payload K
  eventTs : Int
deriving DecidableEq

structure EventEngineConfig (K : Type u) where
  scanFallbackIntervalMs : Int := 5000
  publishMode : StdString := "direct_mqtt".toList
  changeEventTopic : StdString := "edge/event/change".toList
  alarmTopic : StdString := "edge/alarm".toList
  statusTopic : StdString := "edge/status".toList
  hasOutbox : Bool := false
  hasAlarmWriter : Bool := false
  routeByIndex : UInt32 → Option PointStoreRoute
  bindingsByIndex : UInt32 → List (AlarmBinding K)

structure ChangeState (K : Type u) where
  value : K
  quality : Int
  ts : Int
  initialized : Bool
deriving DecidableEq

structure EventEngineService (K : Type u) where
  changeStates : UInt32 → ChangeState K
  activeStates : UInt32 × AlarmType → Bool
  lastFallbackScanMs : Int

def EventEngineService.initial [Zero K] : EventEngineService K :=
  ⟨fun _ => ⟨0, 1, 0, false⟩, fun _ => false, 0⟩

/-- What each store hands out, the latest values for the fallback scan, and the calls that may throw, in their
    order. -/
structure ScanCall (K : Type u) where
  nowMs : Int
  updates : List (List (PointUpdateRecord K))
  latest : List (StoredPointValue K) := []
  changePublishes : List Bool := []
  changeStatusSent : Bool := true
  alarmPublishes : List Bool := []
  alarmsWritten : Bool := true
  alarmStatusSent : Bool := true

structure HandOver (K : Type u) where
  returned : Bool
  handed : List (EventMessage K)

def publishEach : List (EventMessage K) → List Bool → HandOver K
  | [], _ => ⟨true, []⟩
  | event :: events, outcomes =>
    if event.topic = [] then publishEach events outcomes
    else if outcomes.head? = some false then ⟨false, []⟩
    else
      let rest := publishEach events outcomes.tail
      ⟨rest.returned, event :: rest.handed⟩

/-- `enqueueBatch` is one transaction; an exception in it rolls all of it back. -/
def enqueueBatch (events : List (EventMessage K)) (outcomes : List Bool) : HandOver K :=
  if outcomes.head? = some false then ⟨false, []⟩
  else ⟨true, events.filter fun event => event.topic ≠ []⟩

def publishOrEnqueueEvents (config : EventEngineConfig K) (events : List (EventMessage K)) (outcomes : List Bool) :
    HandOver K :=
  if events.isEmpty then ⟨true, []⟩
  else if config.publishMode = "mqtt_driver_outbox".toList then
    if config.hasOutbox then enqueueBatch events outcomes else ⟨true, []⟩
  else publishEach events outcomes

def publishStatusEvent (config : EventEngineConfig K) (sent : Bool) : Bool := config.statusTopic.isEmpty || sent

section Changes

variable [BEq K]

/-- The changes are a record beside the local state of `processChanges`: every value put in place of a
    different one. -/
structure ChangeScan (K : Type u) where
  changeStates : UInt32 → ChangeState K
  pendingByIndex : UInt32 → Option (StoredPointValue K) := fun _ => none
  publishOrder : List UInt32 := []
  changes : List (StoredPointValue K) := []

def reportsOnChange (config : EventEngineConfig K) (index : UInt32) : Bool :=
  match config.routeByIndex index with
  | none => false
  | some route => route.reportOnChange

def ChangeScan.assign (scan : ChangeScan K) (index : UInt32) (state : ChangeState K) : ChangeScan K :=
  { scan with changeStates := Function.update scan.changeStates index state }

/-- The latest value of an index stands for all its changes of one call. -/
def ChangeScan.queue (scan : ChangeScan K) (value : StoredPointValue K) : ChangeScan K :=
  { scan with
    publishOrder := if (scan.pendingByIndex value.index).isNone then scan.publishOrder ++ [value.index]
      else scan.publishOrder
    pendingByIndex := Function.update scan.pendingByIndex value.index (some value)
    changes := scan.changes ++ [value] }

def scanChange (config : EventEngineConfig K) (scan : ChangeScan K) (value : StoredPointValue K) : ChangeScan K :=
  if !reportsOnChange config value.index then scan
  else
    let state := scan.changeStates value.index
    if !state.initialized then scan.assign value.index ⟨value.value, value.quality, value.ts, true⟩
    else if state.value == value.value then
      scan.assign value.index { state with quality := value.quality, ts := value.ts }
    else
      (scan.assign value.index { state with value := value.value, quality := value.quality, ts := value.ts }).queue value

def changeScan (config : EventEngineConfig K) (changeStates : UInt32 → ChangeState K)
    (values : List (StoredPointValue K)) : ChangeScan K :=
  values.foldl (scanChange config) ⟨changeStates, fun _ => none, [], []⟩

def changeMessage (config : EventEngineConfig K) (value : StoredPointValue K) : EventMessage K :=
  ⟨"change".toList, config.changeEventTopic, .change value, value.ts⟩

def changeMessages (config : EventEngineConfig K) (scan : ChangeScan K) : List (EventMessage K) :=
  if config.changeEventTopic = [] then []
  else (scan.publishOrder.filterMap scan.pendingByIndex).map (changeMessage config)

end Changes

section Alarms

variable [LE K] [DecidableLE K]

structure Toggle (K : Type u) where
  binding : AlarmBinding K
  value : StoredPointValue K
  active : Bool
deriving DecidableEq

def Toggle.event (toggle : Toggle K) : AlarmEvent K where
  index := toggle.value.index
  machineCode := toggle.binding.machineCode
  meterCode := toggle.binding.meterCode
  pointCode := toggle.binding.pointCode
  alarmType := toggle.binding.rule.type
  active := toggle.active
  threshold := toggle.binding.rule.threshold
  value := toggle.value.value
  quality := toggle.value.quality
  ts := toggle.value.ts
  stale := toggle.value.stale
  persistValue := toggle.binding.rule.persistValue

def isRuleActive (rule : AlarmRuleConfig K) (value : K) : Bool :=
  match rule.type with
  | .high => rule.threshold ≤ value
  | .low => value ≤ rule.threshold

/-- The local state of `AlarmService::evaluate`, with the record of every flip beside it. -/
structure AlarmScan (K : Type u) where
  activeStates : UInt32 × AlarmType → Bool
  recoveries : List (AlarmEvent K) := []
  activations : List (AlarmEvent K) := []
  toggles : List (Toggle K) := []

def evaluateBinding (value : StoredPointValue K) (scan : AlarmScan K) (binding : AlarmBinding K) : AlarmScan K :=
  let key := (value.index, binding.rule.type)
  let activeNow := isRuleActive binding.rule value.value
  let wasActive := scan.activeStates key
  if wasActive && !activeNow then
    let toggle : Toggle K := ⟨binding, value, false⟩
    { scan with
      recoveries := if binding.rule.reportRecovery then scan.recoveries ++ [toggle.event] else scan.recoveries
      activeStates := Function.update scan.activeStates key false
      toggles := scan.toggles ++ [toggle] }
  else if !wasActive && activeNow then
    let toggle : Toggle K := ⟨binding, value, true⟩
    { scan with
      activations := scan.activations ++ [toggle.event]
      activeStates := Function.update scan.activeStates key true
      toggles := scan.toggles ++ [toggle] }
  else scan

def evaluateValue (config : EventEngineConfig K) (scan : AlarmScan K) (value : StoredPointValue K) : AlarmScan K :=
  (config.bindingsByIndex value.index).foldl (evaluateBinding value) scan

def evaluate (config : EventEngineConfig K) (activeStates : UInt32 × AlarmType → Bool)
    (values : List (StoredPointValue K)) : AlarmScan K :=
  values.foldl (evaluateValue config) ⟨activeStates, [], [], []⟩

def AlarmScan.events (scan : AlarmScan K) : List (AlarmEvent K) := scan.recoveries ++ scan.activations

def alarmMessage (config : EventEngineConfig K) (event : AlarmEvent K) : EventMessage K :=
  ⟨"alarm".toList, config.alarmTopic, .alarm event, event.ts⟩

def alarmMessages (config : EventEngineConfig K) (events : List (AlarmEvent K)) : List (EventMessage K) :=
  if config.alarmTopic = [] then [] else events.map (alarmMessage config)

end Alarms

section Scan

/-- Whether the call returned, the messages handed over, and what its states were changed by. -/
structure ScanResult (K : Type u) where
  service : EventEngineService K
  returned : Bool
  handed : List (EventMessage K) := []
  changes : List (StoredPointValue K) := []
  toggles : List (Toggle K) := []

variable [BEq K] [LE K] [DecidableLE K]

def processChanges (config : EventEngineConfig K) (service : EventEngineService K) (values : List (StoredPointValue K))
    (call : ScanCall K) : ScanResult K :=
  let scan := changeScan config service.changeStates values
  let service := { service with changeStates := scan.changeStates }
  let handOver := publishOrEnqueueEvents config (changeMessages config scan) call.changePublishes
  let published := (scan.publishOrder.filterMap scan.pendingByIndex).length
  ⟨service, handOver.returned && (published == 0 || publishStatusEvent config call.changeStatusSent),
    handOver.handed, scan.changes, []⟩

def processAlarms (config : EventEngineConfig K) (service : EventEngineService K) (values : List (StoredPointValue K))
    (call : ScanCall K) : ScanResult K :=
  let scan := evaluate config service.activeStates values
  let service := { service with activeStates := scan.activeStates }
  let handOver := publishOrEnqueueEvents config (alarmMessages config scan.events) call.alarmPublishes
  let persistent := scan.events.filter fun event => event.persistValue ≠ []
  let persisted := !config.hasAlarmWriter || persistent.isEmpty ||
    (call.alarmsWritten && publishStatusEvent config call.alarmStatusSent)
  ⟨service, handOver.returned && persisted, handOver.handed, [], scan.toggles⟩

def evaluateValues (config : EventEngineConfig K) (service : EventEngineService K) (values : List (StoredPointValue K))
    (call : ScanCall K) : ScanResult K :=
  if values.isEmpty then ⟨service, true, [], [], []⟩
  else
    let changed := processChanges config service values call
    if !changed.returned then changed
    else
      let alarmed := processAlarms config changed.service values call
      ⟨alarmed.service, alarmed.returned, changed.handed ++ alarmed.handed, changed.changes, alarmed.toggles⟩

def buildValueFromUpdate (config : EventEngineConfig K) (update : PointUpdateRecord K) :
    Option (StoredPointValue K) :=
  (config.routeByIndex update.index).map fun route =>
    ⟨update.index, route.machineCode, route.meterCode, route.pointCode, update.value, update.quality, update.ts,
      update.expireAt, false⟩

def runOnce (config : EventEngineConfig K) (service : EventEngineService K) (call : ScanCall K) : ScanResult K :=
  let values := call.updates.flatten.filterMap (buildValueFromUpdate config)
  if !values.isEmpty then evaluateValues config service values call
  else if service.lastFallbackScanMs = 0 ∨
      max 1000 config.scanFallbackIntervalMs ≤ call.nowMs - service.lastFallbackScanMs then
    let result := evaluateValues config service call.latest call
    if result.returned then { result with service := { result.service with lastFallbackScanMs := call.nowMs } }
    else result
  else ⟨service, true, [], [], []⟩

end Scan

end EdgeGateway.EventEngine
