import EdgeGateway.MqttDriver.CommandAdmission
import EdgeGateway.MqttDriver.CommandRequest
import EdgeGateway.PriorityControl.Lease
import EdgeGateway.Router.OwnershipGate
import EdgeGateway.Scada.ControlLease

/-! # The handling of a command

A command is checked against its route, then against the priority lease, then admitted; only then
the lease is taken and the write handed over.
-/

namespace EdgeGateway.MqttDriver

open PointStore PriorityControl QuotedText Router Scada

structure AgcAvcCommandMailboxRuntime where
  configured : Bool := false
  enabled : Bool := false
  shadowMode : Bool := true
  submitWrites : Bool := false
  commandIndexes : List UInt32 := []
deriving DecidableEq, Repr

namespace AgcAvcCommandMailboxRuntime

variable (self : AgcAvcCommandMailboxRuntime)

def contains (index : UInt32) : Bool := self.configured && self.commandIndexes.contains index

def allowsSource (source : StdString) : Bool :=
  let shadowTest := (after "agc-avc-shadow-test".toList source).isSome
  let dispatchSource := (after "agc-avc-dispatch".toList source).isSome
  self.enabled && (dispatchSource || (shadowTest && self.shadowMode && !self.submitWrites))

end AgcAvcCommandMailboxRuntime

structure MqttDriverService where
  driverConfig : MqttDriverConfig
  casts : Casts
  scadaSafetyEnabled : Bool
  pointRoutes : UInt32 → Option PointRoute
  router : PointStoreRouter
  routed : ∀ index, router.routes index = (pointRoutes index).map fun route => route.toPointStoreRoute
  agcAvcCommandMailbox : AgcAvcCommandMailboxRuntime
  priorityControlLease : PriorityControlLease

/-- What a call finds outside of the service: files, how their operations turn out, and the segments. -/
structure Surroundings where
  topology : Option StdString
  nodes : Option StdString
  controlLease : Option StdString
  priorityLease : Option StdString
  leaseIo : PriorityControl.Outcome
  ownership : Option StdString
  ownershipIo : PowerControl.Outcome
  segments : Segments

inductive Refusal where
  | payload (error : CommandError)
  | machineCodeRequired
  | controlLease (message : StdString)
  | indexNotFound
  | machineCodeMismatch
  | meterCodeMismatch
  | pointCodeMismatch
  | writeDisabled
  | mailboxNotConfigured
  | mailboxSource
  | mailboxPriority
  | priorityControl
  | notAdmitted
  | lease (error : AcquireError)
  | ownershipFile (error : PowerControl.ParseError)
  | router (message : StdString)

def Refusal.what (libraryText : PowerControl.ParseError → StdString) : Refusal → StdString
  | .payload error => error.what
  | .machineCodeRequired => "machineCode is required".toList
  | .controlLease message => message
  | .indexNotFound => "command index not found".toList
  | .machineCodeMismatch => "machineCode mismatch".toList
  | .meterCodeMismatch => "meterCode mismatch".toList
  | .pointCodeMismatch => "pointCode mismatch".toList
  | .writeDisabled => "point write is disabled".toList
  | .mailboxNotConfigured => "AGC/AVC command mailbox is not configured for this index".toList
  | .mailboxSource => "AGC/AVC command mailbox rejected the source or current runtime mode".toList
  | .mailboxPriority => "AGC/AVC command mailbox does not accept high-priority device writes".toList
  | .priorityControl => "priority control in progress".toList
  | .notAdmitted => "command rate limit exceeded or duplicate cmdId".toList
  | .lease error => error.message.toList
  | .ownershipFile error => libraryText error
  | .router message => message

inductive CommandOutcome where
  | rejected (refusal : Refusal)
  | mailboxCommitted (message : StdString)
  | queued (command : PendingWriteCommand)

structure Handled where
  outcome : CommandOutcome
  admission : CommandAdmission
  stores : StdString → Option MemoryPointStore
  segments : Segments
  priorityLease : Option StdString

namespace MqttDriverService

variable (self : MqttDriverService) (around : Surroundings) (admission : CommandAdmission) (nowMs : Int)
  (request : MqttCommandRequest) (route : PointRoute)

def refuse (refusal : Refusal) : Handled where
  outcome := .rejected refusal
  admission := admission
  stores := self.router.stores
  segments := around.segments
  priorityLease := around.priorityLease

/-- The gate of the upper computer, asked for its own commands only. -/
def controlLeaseRefusal : Option StdString :=
  if self.scadaSafetyEnabled && "scada-windows:".toList.isPrefixOf request.source then
    let (fresh, message) := ScadaControlLease.isFresh around.topology around.nodes around.controlLease
      request.machineCode nowMs
    if fresh then none else some message
  else none

def routeRefusal : Option Refusal :=
  if request.machineCode ≠ route.machineCode then some .machineCodeMismatch
  else if request.meterCode ≠ [] ∧ request.meterCode ≠ route.meterCode then some .meterCodeMismatch
  else if request.pointCode ≠ [] ∧ request.pointCode ≠ route.pointCode then some .pointCodeMismatch
  else if !route.writable && !route.commandMailbox then some .writeDisabled
  else none

/-- The checks of a request before the kinds of routes part. -/
def checkRequest : Except Refusal PointRoute :=
  if request.machineCode = [] then .error .machineCodeRequired
  else
    match self.controlLeaseRefusal around nowMs request with
    | some message => .error (.controlLease message)
    | none =>
      match self.pointRoutes request.index with
      | none => .error .indexNotFound
      | some route =>
        match routeRefusal request route with
        | some refusal => .error refusal
        | none => .ok route

def commandFor (highPriority : Bool) : PendingWriteCommand where
  cmdId := request.cmdId
  index := request.index
  value := request.value
  source := request.source
  ts := if request.ts > 0 then request.ts else nowMs
  acceptedAt := nowMs
  highPriority := highPriority

def mailboxValue (command : PendingWriteCommand) : PointValue where
  index := route.index
  machineCode := route.machineCode
  meterCode := route.meterCode
  pointCode := route.pointCode
  value := command.value
  quality := 1
  ts := PointStoreRouter.commandTime command
  expireAt := PointStoreRouter.commandTime command + 600000
  isStore := false
  persistIntervalSec := 60

def submitCommandMailbox (command : PendingWriteCommand) : Handled :=
  match self.router.stores route.sharedMemoryName with
  | none => self.refuse around admission (.router ("target shared memory not found: ".toList ++ route.sharedMemoryName))
  | some store =>
    let written := store.putLatest (around.segments route.sharedMemoryName) (mailboxValue route command)
    { outcome :=
        match written.2.2 with
        | some error => .rejected (.router error.what.toList)
        | none => .mailboxCommitted "command mailbox value committed".toList
      admission := admission
      stores := Function.update self.router.stores route.sharedMemoryName (some written.1)
      segments := Function.update around.segments route.sharedMemoryName written.2.1
      priorityLease := around.priorityLease }

def handleMailbox : Handled :=
  if !self.agcAvcCommandMailbox.contains request.index then self.refuse around admission .mailboxNotConfigured
  else if !self.agcAvcCommandMailbox.allowsSource request.source then self.refuse around admission .mailboxSource
  else if request.highPriority then self.refuse around admission .mailboxPriority
  else self.submitCommandMailbox around admission route (commandFor nowMs request false)

def priorityBusy : Bool :=
  (self.priorityControlLease.activeLease around.priorityLease nowMs).any fun lease => lease.cmdId ≠ request.cmdId

def takeLease : Except AcquireError Unit × Option StdString :=
  if request.highPriority then
    self.priorityControlLease.acquire around.leaseIo around.priorityLease request.cmdId route.meterCode request.index nowMs
      self.driverConfig.priorityControlLeaseTtlMs
  else (.ok (), around.priorityLease)

def submitAdmitted : Handled :=
  match self.takeLease around nowMs request route with
  | (.error error, lease) => { self.refuse around admission (.lease error) with priorityLease := lease }
  | (.ok _, lease) =>
    let command := commandFor nowMs request request.highPriority
    match self.router.submitWriteCommand around.ownershipIo around.ownership around.segments command with
    | .error error => { self.refuse around admission (.ownershipFile error) with priorityLease := lease }
    | .ok (result, segments) =>
      if !result.accepted then
        { self.refuse around admission (.router result.message) with
          segments := segments
          priorityLease :=
            if request.highPriority then self.priorityControlLease.release around.leaseIo lease request.cmdId else lease }
      else
        { outcome := .queued command
          admission := admission
          stores := self.router.stores
          segments := segments
          priorityLease := lease }

def handleCommandRequest (payload : StdString) : Handled :=
  match parseCommandRequest self.casts payload with
  | .error error => self.refuse around admission (.payload error)
  | .ok request =>
    match self.checkRequest around nowMs request with
    | .error refusal => self.refuse around admission refusal
    | .ok route =>
      if route.commandMailbox then self.handleMailbox around admission nowMs request route
      else if self.priorityBusy around nowMs request then self.refuse around admission .priorityControl
      else
        match admission.admitCommand self.driverConfig route.meterCode request.cmdId nowMs with
        | (false, admission) => self.refuse around admission .notAdmitted
        | (true, admission) => self.submitAdmitted around admission nowMs request route

end MqttDriverService

end EdgeGateway.MqttDriver
