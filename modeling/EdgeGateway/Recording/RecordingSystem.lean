import EdgeGateway.Recording.TransferService

/-! # The recording system

The transfer service and the command servers of all devices, with the local files that
pass between them. The device, the platform and the disk are left open.
-/

namespace EdgeGateway.Recording

open Script

section CommandServerWorker

def joinPath (directory fileName : StdString) : StdString :=
  match directory.getLast? with
  | none => fileName
  | some last => if last = '/' ∨ last = '\\' then directory ++ fileName else directory ++ '/' :: fileName

def FileKind.extension : FileKind → StdString
  | cfg => ".CFG".toList
  | dat => ".DAT".toList

/-- The name has the FAN in it, and nothing of the request. -/
def recordingPath (directory : StdString) (fan : Int) (kind : FileKind) : StdString :=
  joinPath directory ("FAN".toList ++ Numerals.padLeft 5 (QuotedText.intText fan) ++ kind.extension)

def temporaryPath (directory : StdString) (fan : Int) (kind : FileKind) (token : Nat) : StdString :=
  recordingPath directory fan kind ++ '.' :: Numerals.decimal token ++ ".tmp".toList

variable (socketPath directory : StdString)

def installFiles (fan : Int) (cfg dat : Content) (token : Nat) : Thread Unit := do
  let cfgPath := recordingPath directory fan .cfg
  let datPath := recordingPath directory fan .dat
  let cfgTemp := temporaryPath directory fan .cfg token
  let datTemp := temporaryPath directory fan .dat token
  tryCatch (do
    writeFile socketPath cfgTemp cfg
    writeFile socketPath datTemp dat
    dropFile socketPath cfgPath
    dropFile socketPath datPath
    renameFile socketPath cfgTemp cfgPath
    renameFile socketPath datTemp datPath) fun failure => do
      dropFile socketPath cfgTemp
      dropFile socketPath datTemp
      throw failure

/-- A lost connection to the device is a failure of the first file that is asked for. -/
def pullComtradeRecording (fan : Int) : Thread Iec103ComtradeFiles := do
  updateActiveStage socketPath .pullingCfg
  let cfg ← deviceFile socketPath fan .cfg
  updateActiveStage socketPath .pullingDat
  let dat ← deviceFile socketPath fan .dat
  let token ← prepareFiles socketPath
  installFiles socketPath directory fan cfg dat token
  pure { cfgPath := recordingPath directory fan .cfg, cfgBytes := cfg.length,
         datPath := recordingPath directory fan .dat, datBytes := dat.length }

def performJob (job : Job) : Thread Unit := do
  if job.action = .list then
    updateActiveStage socketPath .pullingDirectory
    let records ← deviceRecords socketPath
    reportRecords socketPath job.requestId records
  else
    let files ← pullComtradeRecording socketPath directory job.fan
    reportFiles socketPath job.requestId files

/-- One turn of `workerLoop`. -/
def serveOnce : Thread Unit := do
  match ← takeJob socketPath with
  | none => pure ()
  | some job =>
    tryCatch (performJob socketPath directory job) fun failure =>
      reportFailure socketPath job.requestId failure.what
    clearActive socketPath

end CommandServerWorker

def program (config : TransferConfig) (directories : StdString → StdString) : ThreadId → Work → Thread Unit
  | .commandServer socketPath, .serve => serveOnce socketPath (directories socketPath)
  | i, work => transferProgram config i work

structure PulledRecording where
  cfgPath : StdString
  cfg : Content
  datPath : StdString
  dat : Content
deriving DecidableEq, Repr

def PulledRecording.path (recording : PulledRecording) : FileKind → StdString
  | .cfg => recording.cfgPath
  | .dat => recording.datPath

def PulledRecording.content (recording : PulledRecording) : FileKind → Content
  | .cfg => recording.cfg
  | .dat => recording.dat

/-- Beside both processes stand what the device sent last, the pull of a server, what was pulled and the
    requests queued. -/
structure SystemState where
  transfer : TransferState := {}
  servers : StdString → CommandServer := fun _ => {}
  files : StdString → Option Content := fun _ => none
  delivered : StdString → FileKind → Content := fun _ _ => []
  pulling : StdString → Option Job := fun _ => none
  pulled : StdString → StdString → Option PulledRecording := fun _ _ => none
  requested : List StdString := []

namespace SystemState

variable (s : SystemState)

def setServer (socketPath : StdString) (server : CommandServer) : SystemState :=
  { s with servers := Function.update s.servers socketPath server }

def setFile (path : StdString) (content : Option Content) : SystemState :=
  { s with files := Function.update s.files path content }

def setPulled (socketPath requestId : StdString) (recording : Option PulledRecording) : SystemState :=
  let pulled := Function.update (s.pulled socketPath) requestId recording
  { s with pulled := Function.update s.pulled socketPath pulled }

/-- What was pulled for a request is forgotten when the server queues it anew. -/
def command (socketPath : StdString) (command : Command) (answer : Except Failure Iec103RecordingJobStatus) :
    Except Failure Iec103RecordingJobStatus × SystemState :=
  let (status, server) := (s.servers socketPath).handleCommand command
  let t := s.setServer socketPath server
  (answer.map fun _ => status,
    if server.jobs = (s.servers socketPath).jobs then t else t.setPulled socketPath command.requestId none)

def insertTask (task : Task) (answer : Except Failure (Option Task)) : Except Failure (Option Task) × SystemState :=
  let (result, transfer) := s.transfer.insertTask task answer
  (result, { s with transfer, requested := task.requestId :: s.requested })

def takeJob (socketPath : StdString) : Option Job × SystemState :=
  let (job, server) := (s.servers socketPath).takeJob
  (job, { s.setServer socketPath server with pulling := Function.update s.pulling socketPath job })

def deviceFile (socketPath : StdString) (kind : FileKind) (answer : Except Failure Content) : SystemState :=
  match answer with
  | .error _ => s
  | .ok content =>
    let delivered := Function.update (s.delivered socketPath) kind content
    { s with delivered := Function.update s.delivered socketPath delivered }

def renameFile (source target : StdString) (answer : Except Failure Unit) : Except Failure Unit × SystemState :=
  match answer, s.files source with
  | .ok _, some content => (.ok (), (s.setFile source none).setFile target (some content))
  | .ok _, none => (.error (invalid "cannot finalize IEC103 recording"), s)
  | .error e, _ => (.error e, s)

def reportFiles (socketPath requestId : StdString) (files : Iec103ComtradeFiles) : SystemState :=
  let server := (s.servers socketPath).setStatus requestId fun status =>
    { status with files, stage := .localReady, message := "COMTRADE recording is ready locally".toList }
  (s.setServer socketPath server).setPulled socketPath requestId (some
    ⟨files.cfgPath, s.delivered socketPath .cfg, files.datPath, s.delivered socketPath .dat⟩)

end SystemState

/-- A file that is not there cannot be opened; `remove` is not asked whether it did anything. -/
def systemAct (i : ThreadId) : (op : Call) → Except Failure (Answer op) → SystemState →
    Except Failure (Answer op) × SystemState
  | .insertTask task, answer, s => s.insertTask task answer
  | .command socketPath sent, answer, s => s.command socketPath sent answer
  | .fileSize path, answer, s => match s.files path with
    | none => (.error (invalid "cannot open recording file"), s)
    | some content => (answer.map fun _ => content.length, s)
  | .sha256File path, answer, s => match s.files path with
    | none => (.error (invalid "sha256sum failed for recording file"), s)
    | some _ => (answer, s)
  | .readFile path, answer, s => match s.files path with
    | none => (.error (invalid "cannot open recording file for upload"), s)
    | some content => (answer.map fun _ => content, s)
  | .removeFile path, answer, s =>
    let t := { s with transfer := s.transfer.removeFile i path }
    (.ok (), if answer.isOk then t.setFile path none else t)
  | .takeJob socketPath, _, s => ((.ok (s.takeJob socketPath).1), (s.takeJob socketPath).2)
  | .updateActiveStage socketPath stage, _, s =>
    (.ok (), s.setServer socketPath ((s.servers socketPath).updateActiveStage stage))
  | .deviceFile socketPath _ kind, answer, s => (answer, s.deviceFile socketPath kind answer)
  | .writeFile _ path content, answer, s => (answer, if answer.isOk then s.setFile path (some content) else s)
  | .dropFile _ path, answer, s => (.ok (), if answer.isOk then s.setFile path none else s)
  | .renameFile _ source target, answer, s => s.renameFile source target answer
  | .reportRecords socketPath requestId records, _, s =>
    (.ok (), s.setServer socketPath ((s.servers socketPath).setStatus requestId fun status =>
      { status with records, stage := .completed, message := "recording directory ready".toList }))
  | .reportFiles socketPath requestId files, _, s => (.ok (), s.reportFiles socketPath requestId files)
  | .reportFailure socketPath requestId message, _, s =>
    (.ok (), s.setServer socketPath ((s.servers socketPath).setStatus requestId fun status =>
      { status with stage := .failed, retryable := true, errorCode := "DEVICE_IO_FAILED".toList, message }))
  | .clearActive socketPath, _, s =>
    (.ok (), { s.setServer socketPath (s.servers socketPath).clearActive with
      pulling := Function.update s.pulling socketPath none })
  | op, answer, s =>
    let (result, transfer) := transferAct i op answer s.transfer
    (result, { s with transfer })

abbrev RecordingPool := Pool ThreadId Call Answer Failure SystemState

abbrev systemStep (config : TransferConfig) (directories : StdString → StdString) :
    RecordingPool → TransferEvent → RecordingPool :=
  Pool.step systemAct (program config directories)

def idleSystem : RecordingPool := ⟨fun _ => .done (.ok ()), {}⟩

end EdgeGateway.Recording
