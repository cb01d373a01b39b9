import EdgeGateway.PriorityControl.Lease
import EdgeGateway.Router.PointStoreRouter

/-! # The offline safety monitor

The upper computer leaves heartbeats in a lease file. When they stay out for longer
than the project allows, the edge submits the project's safety actions, one in a call.
-/

namespace EdgeGateway.Scada

open QuotedText PriorityControl Router

inductive ScadaDeploymentMode where
  | integrated
  | upperComputer
deriving DecidableEq, Repr

inductive ScadaTagAccess where
  | read
  | write
  | readWrite
deriving DecidableEq, Repr

structure ScadaOfflineSafetyAction where
  actionId : StdString
  nodeId : StdString
  tagId : StdString
  value : RawDouble
  highPriority : Bool := true
deriving DecidableEq, Repr

structure ScadaTopology where
  mode : ScadaDeploymentMode
  offlineTimeoutMs : Int := 10000
  safetyActions : List ScadaOfflineSafetyAction
deriving DecidableEq, Repr

structure ScadaNode where
  nodeId : StdString
  machineCode : StdString
deriving DecidableEq, Repr

structure ScadaTag where
  tagId : StdString
  nodeId : StdString
  meterCode : StdString
  access : ScadaTagAccess
  indexFallback : UInt32 := 0
deriving DecidableEq, Repr

structure ScadaRuntimeMapping where
  nodeId : StdString
  tagId : StdString
  sharedMemoryName : StdString := []
  index : UInt32
  writable : Bool
deriving DecidableEq, Repr

structure ScadaProject where
  projectId : StdString
  packageVersion : StdString
  topology : ScadaTopology
  nodes : List ScadaNode
  tags : List ScadaTag
  runtimeMappings : List ScadaRuntimeMapping
deriving DecidableEq, Repr

def jsonEscapeChar (ch : Char) : StdString :=
  match ch with
  | '"' => ['\\', '"']
  | '\\' => ['\\', '\\']
  | '\n' => ['\\', 'n']
  | '\r' => []
  | _ => [ch]

def jsonEscape (value : StdString) : StdString := value.flatMap jsonEscapeChar

def jsonString (text key : StdString) : StdString :=
  match ((after (quoted key) text).bind (after [':'])).bind (after ['"']) with
  | none => []
  | some rest => if rest.contains '"' then rest.takeWhile (· != '"') else []

def strtoll (text : StdString) : Int :=
  match signAndDigits (skipWhitespace text) with
  | (negative, digits) =>
    if digits = [] then 0 else max (-2 ^ 63) (min (2 ^ 63 - 1) (signedValue negative digits))

def jsonInt64 (text key : StdString) : Int :=
  match (after (quoted key) text).bind (after [':']) with
  | none => 0
  | some rest => strtoll rest

def heartbeatText (machineCode : StdString) (nowMs : Int) : StdString :=
  "\x7b\"machineCode\":\"".toList ++ jsonEscape machineCode ++ "\",\"updatedAtMs\":".toList ++
    intText nowMs ++ "\x7d".toList

/-- The lease file after `writeHeartbeat`; `installed` is whether the file could be replaced. -/
def writeHeartbeat (file : Option StdString) (machineCode : StdString) (nowMs : Int) (installed : Bool) :
    Option StdString :=
  if machineCode = [] ∨ nowMs ≤ 0 ∨ !installed then file else some (heartbeatText machineCode nowMs)

def readHeartbeat (machineCode : StdString) (file : Option StdString) : Int :=
  let text := file.getD []
  if text = [] ∨ jsonString text "machineCode".toList ≠ machineCode then 0
  else jsonInt64 text "updatedAtMs".toList

structure ScadaResolvedTag where
  tag : ScadaTag
  mapping : ScadaRuntimeMapping
deriving DecidableEq, Repr

/-- The last tag of the node with this id, with the last mapping given for it. -/
def resolveTag (project : ScadaProject) (nodeId tagId : StdString) : Option ScadaResolvedTag :=
  (project.tags.reverse.find? fun tag => tag.nodeId = nodeId ∧ tag.tagId = tagId).map fun tag =>
    match project.runtimeMappings.reverse.find? fun m => m.nodeId = nodeId ∧ m.tagId = tagId with
    | some mapping => { tag, mapping }
    | none =>
      { tag
        mapping :=
          { nodeId := tag.nodeId, tagId := tag.tagId, index := tag.indexFallback
            writable := decide (tag.access ≠ .read) } }

/-- What the router answers; a command that throws has been handed over. -/
structure RouterAnswers where
  routeByIndex : UInt32 → Option PointStoreRoute
  submitWriteCommand : PendingWriteCommand → Option CommandSubmitResult

def submitWrite (router : RouterAnswers) (resolved : ScadaResolvedTag) (command : PendingWriteCommand) :
    Option CommandSubmitResult :=
  if resolved.tag.access = .read ∨ !resolved.mapping.writable then
    some ⟨false, "SCADA tag is read-only".toList, none⟩
  else
    match router.routeByIndex resolved.mapping.index with
    | none => some ⟨false, "SCADA runtime route was not found on this edge".toList, none⟩
    | some route =>
      if !route.writable then some ⟨false, "edge point route is read-only".toList, some route⟩
      else if resolved.mapping.sharedMemoryName ≠ [] ∧ route.sharedMemoryName ≠ resolved.mapping.sharedMemoryName then
        some ⟨false, "SCADA runtime mapping does not match edge shared memory route".toList, some route⟩
      else router.submitWriteCommand { command with index := resolved.mapping.index }

structure ScadaUpperComputerSafetyConfig where
  enabled : Bool := false
  reloadIntervalMs : Int := 5000
  priorityControlLeaseFile : StdString := []
  priorityControlLeaseTtlMs : Int := 30000
deriving DecidableEq, Repr

structure Call where
  nowMs : Int
  loaded : Except String ScadaProject
  router : RouterAnswers
  leaseOutcome : Outcome

structure ScadaUpperComputerSafetyMonitor where
  project : Option ScadaProject := none
  lastReloadAtMs : Int := 0
  activatedAtMs : Int := 0
  signature : StdString := []
  completed : Bool := false
  acceptedActions : List StdString := []

structure ScadaSafetyActionResult where
  actionId : StdString
  tagId : StdString
  accepted : Bool
  message : StdString
deriving DecidableEq, Repr

structure ScadaSafetyEvaluation where
  active : Bool := false
  heartbeatFresh : Bool := false
  triggered : Bool := false
  completed : Bool := false
  message : String := ""
  actions : List ScadaSafetyActionResult := []
deriving DecidableEq, Repr

/-- How a call ended: without an evaluation it threw. `submitted` is the action handed to the runtime map. -/
structure Turn where
  monitor : ScadaUpperComputerSafetyMonitor
  priorityLease : Option StdString
  evaluation : Option ScadaSafetyEvaluation := none
  submitted : Option (StdString × Bool) := none

section Monitor

variable (config : ScadaUpperComputerSafetyConfig) (machineCode : StdString) (printDouble : RawDouble → StdString)

def projectSignature (project : ScadaProject) : StdString :=
  let separator := Char.ofNat 0x1f
  project.projectId ++ separator :: project.packageVersion ++ separator :: intText project.topology.offlineTimeoutMs ++
    project.topology.safetyActions.flatMap fun action =>
      separator :: action.actionId ++ ':' :: action.nodeId ++ ':' :: action.tagId ++
        ':' :: printDouble action.value ++ [':', if action.highPriority then '1' else '0']

namespace ScadaUpperComputerSafetyMonitor

variable (self : ScadaUpperComputerSafetyMonitor)

/-- The monitor takes up the project and forgets what it has done for the one before. -/
def activate (project : ScadaProject) (nowMs : Int) : ScadaUpperComputerSafetyMonitor where
  project := some project
  lastReloadAtMs := nowMs
  activatedAtMs := nowMs
  signature := projectSignature printDouble project
  completed := false
  acceptedActions := []

/-- The monitor after `reloadProject`, and whether it took up a project. -/
def reloadProject (call : Call) : Except String Bool × ScadaUpperComputerSafetyMonitor :=
  if self.lastReloadAtMs ≠ 0 ∧ call.nowMs - self.lastReloadAtMs < config.reloadIntervalMs then (.ok false, self)
  else
    match call.loaded with
    | .error message => (.error message, { self with lastReloadAtMs := call.nowMs })
    | .ok loaded =>
      if projectSignature printDouble loaded ≠ self.signature then
        (.ok true, activate printDouble loaded call.nowMs)
      else (.ok false, { self with lastReloadAtMs := call.nowMs, project := some (self.project.getD loaded) })

def actionsOf : Except String (ScadaProject × ScadaNode × List ScadaOfflineSafetyAction) :=
  match self.project with
  | none => .error "active SCADA project is not upper-computer mode"
  | some project =>
    if project.topology.mode ≠ .upperComputer then .error "active SCADA project is not upper-computer mode"
    else
      match project.nodes.find? fun node => node.machineCode = machineCode with
      | none => .error "active SCADA project does not contain this machineCode"
      | some node =>
        match project.topology.safetyActions.filter fun action => action.nodeId = node.nodeId with
        | [] => .error "active edge node has no SCADA offline safety action"
        | actions => .ok (project, node, actions)

def heartbeatFresh (project : ScadaProject) (nowMs heartbeat : Int) : Bool :=
  let effectiveHeartbeat := max heartbeat self.activatedAtMs
  decide (effectiveHeartbeat > 0 ∧ nowMs ≥ effectiveHeartbeat ∧
    nowMs - effectiveHeartbeat ≤ project.topology.offlineTimeoutMs)

def heartbeatRenews (heartbeat : Int) : Bool := decide (heartbeat ≥ self.activatedAtMs)

def commandFor (action : ScadaOfflineSafetyAction) (nowMs : Int) : PendingWriteCommand where
  cmdId := "SCADA_OFFLINE_".toList ++ action.actionId ++ '_' :: intText nowMs
  index := 0
  value := action.value
  source := "scada-offline-safety".toList
  ts := nowMs
  acceptedAt := nowMs
  highPriority := action.highPriority

def conclude (actions : List ScadaOfflineSafetyAction) (results : List ScadaSafetyActionResult)
    (acceptedActions : List StdString) : ScadaUpperComputerSafetyMonitor × ScadaSafetyEvaluation :=
  let completed := acceptedActions.length == actions.length
  ({ self with acceptedActions, completed },
    { active := true, triggered := !results.isEmpty, completed
      message := if completed then "offline safety actions submitted"
        else "one or more offline safety actions were rejected"
      actions := results })

def priorityControlLease : PriorityControlLease where
  path := config.priorityControlLeaseFile
  owner := "scada-offline-safety".toList

/-- The loop over the actions: the first that was not accepted before is submitted, then it ends. -/
def submitNext (call : Call) (project : ScadaProject) (nodeId : StdString) (actions : List ScadaOfflineSafetyAction)
    (priorityLease : Option StdString) : Turn :=
  match actions.find? fun action => action.actionId ∉ self.acceptedActions with
  | none =>
    let (monitor, evaluation) := self.conclude actions [] self.acceptedActions
    { monitor, priorityLease, evaluation := some evaluation }
  | some action =>
    match resolveTag project nodeId action.tagId with
    | none =>
      let (monitor, evaluation) := self.conclude actions
        [⟨action.actionId, action.tagId, false, "SCADA tag not found".toList⟩] self.acceptedActions
      { monitor, priorityLease, evaluation := some evaluation }
    | some resolved =>
      let command := commandFor action call.nowMs
      let lease := priorityControlLease config
      let busy := (lease.activeLease priorityLease call.nowMs).any fun active =>
        active.owner == "scada-offline-safety".toList
      if action.highPriority && busy then
        { monitor := self, priorityLease
          evaluation := some { active := true, message := "previous offline safety action is still in progress" } }
      else
        let acquired := if action.highPriority then
            lease.acquire call.leaseOutcome priorityLease command.cmdId resolved.tag.meterCode resolved.mapping.index
              call.nowMs config.priorityControlLeaseTtlMs
          else (.ok (), priorityLease)
        match acquired with
        | (.error _, priorityLease) => { monitor := self, priorityLease }
        | (.ok (), priorityLease) =>
          match submitWrite call.router resolved command with
          | none => { monitor := self, priorityLease, submitted := some (action.actionId, false) }
          | some submitted =>
            let (monitor, evaluation) := self.conclude actions
              [⟨action.actionId, action.tagId, submitted.accepted, submitted.message⟩]
              (if submitted.accepted then action.actionId :: self.acceptedActions else self.acceptedActions)
            { monitor
              priorityLease := if !submitted.accepted ∧ action.highPriority then
                  lease.release call.leaseOutcome priorityLease command.cmdId
                else priorityLease
              evaluation := some evaluation
              submitted := some (action.actionId, submitted.accepted) }

/-- A call behind the reload: the heartbeat is read, then the actions are due or not. -/
def evaluate (call : Call) (file priorityLease : Option StdString) : Turn :=
  match self.actionsOf machineCode with
  | .error message => { monitor := self, priorityLease, evaluation := some { message } }
  | .ok (project, node, actions) =>
    let heartbeat := readHeartbeat machineCode file
    if self.heartbeatFresh project call.nowMs heartbeat then
      { monitor := if self.heartbeatRenews heartbeat then { self with completed := false, acceptedActions := [] } else self
        priorityLease
        evaluation := some { active := true, heartbeatFresh := true, message := "upper-computer heartbeat is fresh" } }
    else if self.completed then
      { monitor := self, priorityLease
        evaluation := some
          { active := true, completed := true, message := "offline safety actions already submitted" } }
    else self.submitNext config call project node.nodeId actions priorityLease

def runOnce (call : Call) (file priorityLease : Option StdString) : Turn :=
  if !config.enabled || machineCode.isEmpty then
    { monitor := self, priorityLease
      evaluation := some { message := "SCADA upper-computer safety monitor is disabled" } }
  else
    match self.reloadProject config printDouble call with
    | (.error message, monitor) => { monitor, priorityLease, evaluation := some { message } }
    | (.ok _, monitor) => monitor.evaluate config machineCode call file priorityLease

end ScadaUpperComputerSafetyMonitor

end Monitor

end EdgeGateway.Scada
