import EdgeGateway.Foundation.Numerals
import EdgeGateway.Foundation.Script
import EdgeGateway.Recording.TransferQueue

/-! # What the recording threads call

The transfer service runs in one process and a command server for each device in
another. Between two calls a thread works on its own copies only.
-/

namespace EdgeGateway.Recording

open Numerals

abbrev Content := List UInt8

/-- A `TransferFailure` says itself whether it is worth a retry. -/
inductive Failure where
  | transfer (message : StdString) (retryable : Bool)
  | exception (message : StdString)
deriving DecidableEq, Repr

def Failure.what : Failure → StdString
  | transfer message _ => message
  | exception message => message

/-- What the two handlers of `runPendingOnce` pass on. -/
def Failure.retryable : Failure → Bool
  | transfer _ retryable => retryable
  | exception _ => true

inductive FileKind where
  | cfg
  | dat
deriving DecidableEq, Repr

def FileKind.text : FileKind → StdString
  | cfg => "cfg".toList
  | dat => "dat".toList

def Task.path (task : Task) : FileKind → StdString
  | .cfg => task.cfgPath
  | .dat => task.datPath

def Task.bytes (task : Task) : FileKind → Nat
  | .cfg => task.cfgBytes
  | .dat => task.datBytes

def TaskStage.text : TaskStage → StdString
  | accepted => "accepted".toList
  | localWait => "local_wait".toList
  | localReady => "local_ready".toList
  | uploading => "uploading".toList
  | awaitingAck => "awaiting_ack".toList
  | completed => "completed".toList
  | failed => "failed".toList

def JobStage.text : JobStage → StdString
  | accepted => "accepted".toList
  | deviceConnecting => "device_connecting".toList
  | pullingDirectory => "pulling_directory".toList
  | pullingCfg => "pulling_cfg".toList
  | pullingDat => "pulling_dat".toList
  | localReady => "local_ready".toList
  | completed => "completed".toList
  | failed => "failed".toList

inductive Notice where
  | reply (task : Task) (stage message : StdString)
  | status (task : Task) (stage message : StdString) (retryable : Bool) (errorCode : StdString)
  | directory (task : Task) (records : List Iec103DisturbanceRecord) (nowMs : Int)
deriving DecidableEq, Repr

/-- The requests of one upload; the answer to `parts` is what the platform already has. -/
inductive UploadRequest where
  | manifest
  | parts
  | put (kind : FileKind) (partNo : Nat) (content : Content)
  | complete
deriving DecidableEq, Repr

structure RecordingHttpResponse where
  statusCode : Int
  body : StdString := []
  cfgParts : List Nat := []
  datParts : List Nat := []
deriving DecidableEq, Repr

def RecordingHttpResponse.parts (response : RecordingHttpResponse) : FileKind → List Nat
  | .cfg => response.cfgParts
  | .dat => response.datParts

inductive Call where
  | findTask (requestId : StdString)
  | insertTask (task : Task)
  | completeTask (requestId : StdString) (nowMs : Int)
  | dueTask (nowMs : Int)
  | applyTask (task : Task)
  | eraseTask (requestId : StdString)
  | publish (notice : Notice)
  | socketOf (deviceCode : StdString)
  | connect (socketPath : StdString)
  | command (socketPath : StdString) (command : Command)
  | fileSize (path : StdString)
  | sha256File (path : StdString)
  | readFile (path : StdString)
  | upload (task : Task) (request : UploadRequest)
  | removeFile (path : StdString)
  | takeJob (socketPath : StdString)
  | updateActiveStage (socketPath : StdString) (stage : JobStage)
  | deviceRecords (socketPath : StdString)
  | deviceFile (socketPath : StdString) (fan : Int) (kind : FileKind)
  | prepareFiles (socketPath : StdString)
  | writeFile (socketPath path : StdString) (content : Content)
  | dropFile (socketPath path : StdString)
  | renameFile (socketPath source target : StdString)
  | reportRecords (socketPath requestId : StdString) (records : List Iec103DisturbanceRecord)
  | reportFiles (socketPath requestId : StdString) (files : Iec103ComtradeFiles)
  | reportFailure (socketPath requestId message : StdString)
  | clearActive (socketPath : StdString)

/-- `prepareFiles` stands for `ensureDirectory` and the clock that names the temporary files. -/
def Answer : Call → Type
  | .findTask _ => Option Task
  | .insertTask _ => Option Task
  | .completeTask _ _ => Option Task
  | .dueTask _ => Option Task
  | .applyTask _ => Bool
  | .socketOf _ => StdString
  | .command _ _ => Iec103RecordingJobStatus
  | .fileSize _ => Nat
  | .sha256File _ => StdString
  | .readFile _ => Content
  | .upload _ _ => RecordingHttpResponse
  | .takeJob _ => Option Job
  | .deviceRecords _ => List Iec103DisturbanceRecord
  | .deviceFile _ _ _ => Content
  | .prepareFiles _ => Nat
  | .eraseTask _ | .publish _ | .connect _ | .removeFile _ | .updateActiveStage _ _ | .writeFile _ _ _
  | .dropFile _ _ | .renameFile _ _ _ | .reportRecords _ _ _ | .reportFiles _ _ _ | .reportFailure _ _ _
  | .clearActive _ => Unit

abbrev Thread := Script Call Answer Failure

abbrev make (op : Call) : Thread (Answer op) := Script.perform op

abbrev findTask (requestId : StdString) : Thread (Option Task) := make (.findTask requestId)

abbrev insertTask (task : Task) : Thread (Option Task) := make (.insertTask task)

abbrev completeTask (requestId : StdString) (nowMs : Int) : Thread (Option Task) :=
  make (.completeTask requestId nowMs)

abbrev dueTask (nowMs : Int) : Thread (Option Task) := make (.dueTask nowMs)

abbrev applyTask (task : Task) : Thread Bool := make (.applyTask task)

abbrev eraseTask (requestId : StdString) : Thread Unit := make (.eraseTask requestId)

abbrev publish (notice : Notice) : Thread Unit := make (.publish notice)

abbrev socketOf (deviceCode : StdString) : Thread StdString := make (.socketOf deviceCode)

/-- A connection of its own for each command; the answer to one that was taken may still be lost. -/
def sendCommand (socketPath : StdString) (command : Command) : Thread Iec103RecordingJobStatus := do
  make (.connect socketPath)
  make (.command socketPath command)

abbrev fileSize (path : StdString) : Thread Nat := make (.fileSize path)

abbrev sha256File (path : StdString) : Thread StdString := make (.sha256File path)

abbrev readFile (path : StdString) : Thread Content := make (.readFile path)

abbrev httpRequest (task : Task) (request : UploadRequest) : Thread RecordingHttpResponse :=
  make (.upload task request)

abbrev removeFile (path : StdString) : Thread Unit := make (.removeFile path)

abbrev takeJob (socketPath : StdString) : Thread (Option Job) := make (.takeJob socketPath)

abbrev updateActiveStage (socketPath : StdString) (stage : JobStage) : Thread Unit :=
  make (.updateActiveStage socketPath stage)

abbrev deviceRecords (socketPath : StdString) : Thread (List Iec103DisturbanceRecord) :=
  make (.deviceRecords socketPath)

abbrev deviceFile (socketPath : StdString) (fan : Int) (kind : FileKind) : Thread Content :=
  make (.deviceFile socketPath fan kind)

abbrev prepareFiles (socketPath : StdString) : Thread Nat := make (.prepareFiles socketPath)

abbrev writeFile (socketPath path : StdString) (content : Content) : Thread Unit :=
  make (.writeFile socketPath path content)

abbrev dropFile (socketPath path : StdString) : Thread Unit := make (.dropFile socketPath path)

abbrev renameFile (socketPath source target : StdString) : Thread Unit := make (.renameFile socketPath source target)

abbrev reportRecords (socketPath requestId : StdString) (records : List Iec103DisturbanceRecord) : Thread Unit :=
  make (.reportRecords socketPath requestId records)

abbrev reportFiles (socketPath requestId : StdString) (files : Iec103ComtradeFiles) : Thread Unit :=
  make (.reportFiles socketPath requestId files)

abbrev reportFailure (socketPath requestId message : StdString) : Thread Unit :=
  make (.reportFailure socketPath requestId message)

abbrev clearActive (socketPath : StdString) : Thread Unit := make (.clearActive socketPath)

end EdgeGateway.Recording
