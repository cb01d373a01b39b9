import EdgeGateway.PointStore.CommandLookup
import EdgeGateway.PriorityControl.Lease

/-! # The gateway daemon

The daemon reports its loops as status messages and writes the queued commands back to the devices,
one after the other.
-/

namespace EdgeGateway.Daemon

open QuotedText

def escapeJson (value : StdString) : StdString := PriorityControl.escapeJson value

structure RuntimeDevice where
  meterCode : StdString
  slave : Int
deriving DecidableEq, Repr

structure StatusMessage where
  machineCode : StdString
  payload : StdString
deriving DecidableEq, Repr

structure GatewayDaemon where
  machineCode : StdString
  protocolType : StdString
  writebackBatchSize : Nat
  mqttPublisher : Bool
  indexToRuntimeDevice : UInt32 → Option RuntimeDevice
  priorityControlLease : PriorityControl.PriorityControlLease

namespace GatewayDaemon

variable (self : GatewayDaemon)

def serviceName : StdString :=
  if self.protocolType = "dlt645_2007".toList then "dlt645-daemon".toList
  else if self.protocolType = "local_dio".toList then "dio-daemon".toList
  else "modbus-daemon".toList

def statusPayload (event : StdString) (ts : Int) (detailsJson : StdString) : StdString :=
  "\x7b\"service\":\"".toList ++ self.serviceName ++ "\",\"event\":\"".toList ++ event ++
    "\",\"ts\":".toList ++ intText ts ++
    (if detailsJson = [] then [] else ",".toList ++ detailsJson) ++ "\x7d".toList

/-- The messages handed to the publisher so far, and what the call throws. -/
def publishStatusEvent (throws : Option StdString) (published : List StatusMessage) (event : StdString)
    (ts : Int) (detailsJson : StdString) : List StatusMessage × Option StdString :=
  if self.mqttPublisher then (published ++ [⟨self.machineCode, self.statusPayload event ts detailsJson⟩], throws)
  else (published, none)

end GatewayDaemon

section Writeback

open PointStore

structure CommandResult where
  success : Bool
  message : StdString
  verifyAttempted : Bool
  verifyPassed : Bool
deriving DecidableEq, Repr

structure CommandWorld where
  startedAt : Int
  completedAt : Int
  caughtAt : Int
  execution : Except StdString CommandResult
  publication : Option StdString
  handlerPublication : Option StdString
  leaseIo : PriorityControl.Outcome

structure Handling where
  command : PendingWriteCommand
  world : CommandWorld

def nonNegativeDuration (endMs startMs : Int) : Int :=
  if endMs ≤ 0 ∨ startMs ≤ 0 ∨ endMs < startMs then 0 else endMs - startMs

def startedResult (command : PendingWriteCommand) (startedAt : Int) : WritebackResultRecord :=
  let acceptedAt := if command.acceptedAt > 0 then command.acceptedAt else command.ts
  { cmdId := command.cmdId
    index := command.index
    value := command.value
    success := false
    message := []
    stage := []
    highPriority := command.highPriority
    requestedAt := command.ts
    acceptedAt := acceptedAt
    startedAt := startedAt
    completedAt := 0
    queueDelayMs := nonNegativeDuration startedAt acceptedAt
    deviceWriteMs := 0
    edgeElapsedMs := 0
    totalElapsedMs := 0
    verifyAttempted := false
    verifyPassed := false }

def edgeTotalElapsed (result : WritebackResultRecord) : Int :=
  max result.edgeElapsedMs (result.queueDelayMs + result.deviceWriteMs)

def completed (result : WritebackResultRecord) (completedAt : Int) (success : Bool) (message stage : StdString) :
    WritebackResultRecord :=
  let timed :=
    { result with
      completedAt := completedAt
      success := success
      message := message
      stage := stage
      deviceWriteMs := nonNegativeDuration completedAt result.startedAt
      edgeElapsedMs := nonNegativeDuration completedAt result.acceptedAt }
  { timed with totalElapsedMs := edgeTotalElapsed timed }

def verified (result : WritebackResultRecord) (execution : CommandResult) : WritebackResultRecord :=
  { result with verifyAttempted := execution.verifyAttempted, verifyPassed := execution.verifyPassed }

structure Writebacks where
  results : WritebackResults
  leaseFile : Option StdString
  executed : List (StdString × UInt32 × RawDouble)
  recorded : List WritebackResultRecord
  published : List StatusMessage
  processed : Nat

namespace Writebacks

variable (run : Writebacks)

def record (result : WritebackResultRecord) : Writebacks :=
  { run with
    results := recordWritebackResult run.results result
    recorded := if result.cmdId = [] then run.recorded else run.recorded ++ [result] }

def execute (command : PendingWriteCommand) : Writebacks :=
  { run with executed := run.executed ++ [(command.cmdId, command.index, command.value)] }

end Writebacks

namespace GatewayDaemon

variable (self : GatewayDaemon) (nowMsValue : Int)

def publish (run : Writebacks) (throws : Option StdString) (event detailsJson : StdString) :
    Writebacks × Option StdString :=
  let report := self.publishStatusEvent throws run.published event nowMsValue detailsJson
  ({ run with published := report.1 }, report.2)

def release (run : Writebacks) (handling : Handling) : Writebacks :=
  { run with
    leaseFile := self.priorityControlLease.release handling.world.leaseIo run.leaseFile handling.command.cmdId }

def publishAndRelease (run : Writebacks) (handling : Handling) (throws : Option StdString)
    (event detailsJson : StdString) : Writebacks × Option StdString :=
  let report := self.publish nowMsValue run throws event detailsJson
  match report.2 with
  | some what => (report.1, some what)
  | none => (self.release report.1 handling, none)

def failedDetails (device : RuntimeDevice) (index : UInt32) (message : StdString) : StdString :=
  "\"meterCode\":\"".toList ++ device.meterCode ++ "\",\"index\":".toList ++ intText index.toNat ++
    ",\"message\":\"".toList ++ escapeJson message ++ "\"".toList

def succeededDetails (device : RuntimeDevice) (result : WritebackResultRecord) : StdString :=
  "\"meterCode\":\"".toList ++ device.meterCode ++ "\",\"index\":".toList ++ intText result.index.toNat ++
    ",\"cmdId\":\"".toList ++ escapeJson result.cmdId ++ "\",\"queueDelayMs\":".toList ++ intText result.queueDelayMs ++
    ",\"deviceWriteMs\":".toList ++ intText result.deviceWriteMs ++
    ",\"totalElapsedMs\":".toList ++ intText result.totalElapsedMs

def skipUnknown (run : Writebacks) (handling : Handling) : Writebacks × Option StdString :=
  let command := handling.command
  let result := completed (startedResult command handling.world.startedAt) handling.world.completedAt false
    "unknown-index".toList "writeback-skipped".toList
  self.publishAndRelease nowMsValue (run.record result) handling handling.world.publication
    "writeback-skipped".toList ("\"index\":".toList ++ intText command.index.toNat ++ ",\"reason\":\"unknown-index\"".toList)

structure Attempt where
  result : WritebackResultRecord
  run : Writebacks
  thrown : Option StdString

def failedBranch (run : Writebacks) (handling : Handling) (device : RuntimeDevice) (execution : CommandResult) :
    Attempt :=
  let result := verified (completed (startedResult handling.command handling.world.startedAt)
    handling.world.completedAt false execution.message "writeback-failed".toList) execution
  let report := self.publishAndRelease nowMsValue (run.record result) handling handling.world.publication
    "writeback-failed".toList (failedDetails device handling.command.index execution.message)
  ⟨result, report.1, report.2⟩

def succeededBranch (run : Writebacks) (handling : Handling) (device : RuntimeDevice) (execution : CommandResult) :
    Attempt :=
  let released := self.release { run with processed := run.processed + 1 } handling
  let result := verified (completed (startedResult handling.command handling.world.startedAt)
    handling.world.completedAt true (if execution.message = [] then "ok".toList else execution.message)
    "writeback-succeeded".toList) execution
  let report := self.publish nowMsValue (released.record result) handling.world.publication
    "writeback-succeeded".toList (succeededDetails device result)
  ⟨result, report.1, report.2⟩

def attempt (run : Writebacks) (handling : Handling) (device : RuntimeDevice) : Attempt :=
  let run := run.execute handling.command
  match handling.world.execution with
  | .error what => ⟨startedResult handling.command handling.world.startedAt, run, some what⟩
  | .ok execution =>
    if execution.success then self.succeededBranch nowMsValue run handling device execution
    else self.failedBranch nowMsValue run handling device execution

def handleException (attempt : Attempt) (handling : Handling) (device : RuntimeDevice) (what : StdString) :
    Writebacks × Option StdString :=
  let result := completed attempt.result handling.world.caughtAt false what "writeback-failed".toList
  self.publishAndRelease nowMsValue (attempt.run.record result) handling handling.world.handlerPublication
    "writeback-failed".toList (failedDetails device handling.command.index what)

def handle (run : Writebacks) (handling : Handling) : Writebacks × Option StdString :=
  match self.indexToRuntimeDevice handling.command.index with
  | none => self.skipUnknown nowMsValue run handling
  | some device =>
    let attempt := self.attempt nowMsValue run handling device
    match attempt.thrown with
    | none => (attempt.run, none)
    | some what => self.handleException nowMsValue attempt handling device what

def handleAll : Writebacks → List Handling → Writebacks × Option StdString
  | run, [] => (run, none)
  | run, handling :: rest =>
    let handled := self.handle nowMsValue run handling
    match handled.2 with
    | some what => (handled.1, some what)
    | none => handleAll handled.1 rest

def drainCommands (store : MemoryPointStore) (layout : SharedStoreLayout) (leaseFile : Option StdString) :
    SharedStoreLayout × List PendingWriteCommand :=
  match self.priorityControlLease.activeLease leaseFile nowMsValue with
  | some activeLease => store.drainPendingWriteCommandsByCmdId layout activeLease.cmdId self.writebackBatchSize
  | none => store.drainPendingWriteCommands layout self.writebackBatchSize

def batch (worlds : Nat → CommandWorld) (commands : List PendingWriteCommand) : List Handling :=
  commands.zipIdx.map fun indexed => ⟨indexed.1, worlds indexed.2⟩

structure WritebackOnce where
  layout : SharedStoreLayout
  run : Writebacks
  result : Except StdString Nat

def processWritebackOnce (store : MemoryPointStore) (layout : SharedStoreLayout) (results : WritebackResults)
    (leaseFile : Option StdString) (worlds : Nat → CommandWorld) : WritebackOnce :=
  let drained := self.drainCommands nowMsValue store layout leaseFile
  let handled := self.handleAll nowMsValue ⟨results, leaseFile, [], [], [], 0⟩ (batch worlds drained.2)
  { layout := drained.1
    run := handled.1
    result :=
      match handled.2 with
      | some what => .error what
      | none => .ok handled.1.processed }

end GatewayDaemon

end Writeback

end EdgeGateway.Daemon
