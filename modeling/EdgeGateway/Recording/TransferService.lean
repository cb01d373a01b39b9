import EdgeGateway.Recording.Calls

/-! # The recording transfer service

Requests and acknowledgements come in on their own threads, while one worker takes a copy of a due
task, works on it and writes whole copies back.
-/

namespace EdgeGateway.Recording

open Script

structure TransferConfig where
  machineCode : StdString
  allowInsecureHttp : Bool := false
  retryBaseSec : Int := 5
  retryMaxSec : Int := 300
deriving DecidableEq, Repr

structure RecordingRequest where
  requestId : Option StdString := none
  machineCode : Option StdString := none
  deviceCode : Option StdString := none
  action : Option StdString := none
  fan : Option Int := none
  sessionId : Option StdString := none
  baseUrl : Option StdString := none
  token : Option StdString := none
  expireAtMs : Option Int := none
  partSize : Option Int := none
deriving DecidableEq, Repr

structure RecordingAck where
  requestId : Option StdString := none
  recordingId : Option StdString := none
  machineCode : Option StdString := none
  status : Option StdString := none
deriving DecidableEq, Repr

def isSafeId (value : StdString) : Bool :=
  value ≠ [] && value.length ≤ 128 && value.all fun ch =>
    ch.isAlphanum || ch == '_' || ch == '-' || ch == '.' || ch == ':'

def hasControlCharacter (value : StdString) : Bool := value.any fun ch => ch.toNat < 0x20 || ch.toNat == 0x7F

def invalid (message : String) : Failure := .exception message.toList

def check (condition : Bool) (message : String) : Except Failure Unit :=
  if condition then .ok () else .error (invalid message)

section Requests

variable (config : TransferConfig)

def readRequest (request : RecordingRequest) : Except Failure Task := do
  let requestId := request.requestId.getD []
  check (isSafeId requestId) "invalid recording requestId"
  check (request.machineCode == some config.machineCode) "recording request machineCode mismatch"
  let deviceCode := request.deviceCode.getD []
  check (isSafeId deviceCode) "invalid recording deviceCode"
  if request.action = some "list".toList then pure { requestId, action := .list, deviceCode }
  else do
    check (request.action == some "pull".toList) "recording action must be list or pull"
    let fan := request.fan.getD (-1)
    check (0 ≤ fan && fan ≤ 65535) "recording FAN is invalid"
    pure { requestId, action := .pull, deviceCode, fan }

def readUploadSession (request : RecordingRequest) (task : Task) (nowMs : Int) : Except Failure Task := do
  if task.action ≠ .pull then pure task
  else do
    let sessionId := request.sessionId.getD []
    check (isSafeId sessionId) "invalid recording upload sessionId"
    let baseUrl := request.baseUrl.getD []
    check (request.baseUrl.isSome && baseUrl.length ≤ 2048 && !hasControlCharacter baseUrl)
      "invalid recording upload baseUrl"
    check ("https://".toList.isPrefixOf baseUrl || (config.allowInsecureHttp && "http://".toList.isPrefixOf baseUrl))
      "recording upload baseUrl must use HTTPS"
    let token := request.token.getD []
    check (token ≠ [] && token.length ≤ 512 && !hasControlCharacter token) "invalid recording upload token"
    let expireAtMs := request.expireAtMs.getD 0
    check (request.expireAtMs.isSome && nowMs < expireAtMs) "recording upload token is already expired"
    let partSize := request.partSize.getD 0
    check (64 * 1024 ≤ partSize && partSize ≤ 8 * 1024 * 1024) "recording upload partSize is invalid"
    pure { task with sessionId, baseUrl, token, expireAtMs, partSize := partSize.toNat }

def publishReply (task : Task) (stage : StdString) (message : String) : Thread Unit :=
  publish (.reply task stage message.toList)

def publishStatus (task : Task) (stage message : StdString) : Thread Unit :=
  publish (.status task stage message false [])

def answerRequest (task : Task) (stage : StdString) (message : String) : Thread Unit := do
  publishReply task stage message
  publishStatus task task.stage.text message.toList

/-- The task that is queued under the id of the request, which has to ask for the same. -/
def sameRequest (existing : Option Task) (task : Task) : Thread Task :=
  match existing with
  | none => pure task
  | some stored =>
    if stored.conflictsWith task then throw (invalid "recording requestId conflicts with an existing task")
    else pure stored

def queueRequest (request : RecordingRequest) (task : Task) (nowMs : Int) : Thread Unit := do
  let socketPath ← socketOf task.deviceCode
  let session ← lift (readUploadSession config request { task with socketPath } nowMs)
  let queued := { session with nextRetryAtMs := nowMs }
  let existing ← insertTask queued
  let stored ← sameRequest existing queued
  match existing with
  | none => answerRequest stored "accepted".toList "recording task accepted"
  | some _ => answerRequest stored stored.stage.text "recording task already exists"

def handleRequest (request : RecordingRequest) (nowMs : Int) : Thread Unit := do
  let asked ← lift (readRequest config request)
  let existing ← findTask asked.requestId
  let task ← sameRequest existing asked
  if task.socketPath ≠ [] ∨ task.stage = .completed then
    answerRequest task task.stage.text
      (if task.stage = .completed then "recording task already completed" else "recording task already exists")
  else queueRequest config request task nowMs

def readAck (ack : RecordingAck) : Except Failure StdString := do
  check (isSafeId (ack.requestId.getD [])) "invalid recording ACK requestId"
  check (isSafeId (ack.recordingId.getD [])) "invalid recording ACK recordingId"
  check (ack.machineCode == some config.machineCode) "recording ACK machineCode mismatch"
  check (ack.status == some "completed".toList) "recording ACK status must be completed"
  pure (ack.requestId.getD [])

def handleAck (ack : RecordingAck) (nowMs : Int) : Thread Unit := do
  let requestId ← lift (readAck config ack)
  match ← completeTask requestId nowMs with
  | none => pure ()
  | some task => do
    removeFile task.cfgPath
    removeFile task.datPath
    publishStatus task "completed".toList "platform acknowledged recording upload".toList

end Requests

def submitCommand (task : Task) : Command :=
  if task.action = .list then .list task.requestId else .pull task.requestId task.fan

/-- `applyTask` in a statement of its own, with its answer left unread. -/
def writeBack (task : Task) : Thread Unit := do
  let _ ← applyTask task
  pure ()

def completeListTask (task : Task) (records : List Iec103DisturbanceRecord) (nowMs : Int) : Thread Unit := do
  publish (.directory task records nowMs)
  publishStatus task "completed".toList "recording directory returned".toList
  eraseTask task.requestId

/-- The rest of `processLocalCommand`, behind the answer of the command server. -/
def processAnswer (task : Task) (status : Iec103RecordingJobStatus) (nowMs : Int) : Thread Unit :=
  if status.stage = .failed then
    if status.errorCode = "REQUEST_NOT_FOUND".toList then
      writeBack { task with stage := .accepted, nextRetryAtMs := nowMs }
    else
      throw (.transfer (if status.message = [] then "IEC103 recording command failed".toList else status.message)
        status.retryable)
  else if !status.terminal then do
    let task := { task with nextRetryAtMs := nowMs + 250 }
    writeBack task
    publishStatus task status.stage.text status.message
  else if task.action = .list then completeListTask task status.records nowMs
  else do
    let task := { task with
      cfgPath := status.files.cfgPath, cfgBytes := status.files.cfgBytes, datPath := status.files.datPath,
      datBytes := status.files.datBytes, stage := .localReady, nextRetryAtMs := nowMs }
    writeBack task
    publishStatus task "local_ready".toList "COMTRADE CFG/DAT files are ready locally".toList

def processLocalCommand (task : Task) (nowMs : Int) : Thread Unit := do
  if task.stage = .accepted then
    let status ← sendCommand task.socketPath (submitCommand task)
    let task := { task with stage := .localWait, nextRetryAtMs := nowMs + 250, lastError := [] }
    writeBack task
    publishStatus task status.stage.text
      (if status.message = [] then "device recording command accepted".toList else status.message)
    if status.terminal then processAnswer task status nowMs else pure ()
  else
    let status ← sendCommand task.socketPath (.status task.requestId)
    processAnswer task status nowMs

def requireHttpSuccess (response : RecordingHttpResponse) (operation : StdString) : Except Failure Unit :=
  let code := response.statusCode
  if 200 ≤ code ∧ code < 300 then .ok ()
  else .error (.transfer (operation ++ " failed with HTTP ".toList ++ QuotedText.intText code ++
      (if response.body = [] then [] else ": ".toList ++ response.body.take 512))
    (code = 0 || code = 408 || code = 409 || code = 425 || code = 429 || 500 ≤ code))

/-- One turn of the loop over the parts of a file that was opened before it. -/
def uploadPart (task : Task) (kind : FileKind) (partCount : Nat) (input : Content) (received : List Nat)
    (partNo : Nat) : Thread Unit :=
  if received.contains partNo then pure ()
  else
    let start := partNo * task.partSize
    let bytes := min task.partSize (task.bytes kind - start)
    let content := (input.drop start).take bytes
    if content.length ≠ bytes then throw (invalid "cannot read recording upload part")
    else do
      let response ← httpRequest task (.put kind partNo content)
      lift (requireHttpSuccess response
        ("recording ".toList ++ kind.text ++ " part ".toList ++ Numerals.decimal partNo))
      publishStatus task "uploading".toList
        ("uploaded ".toList ++ kind.text ++ " part ".toList ++ Numerals.decimal (partNo + 1) ++ '/' ::
          Numerals.decimal partCount)

def uploadParts (task : Task) (kind : FileKind) (partCount : Nat) (input : Content) (received : List Nat) :
    List Nat → Thread Unit
  | [] => pure ()
  | partNo :: rest => do
    uploadPart task kind partCount input received partNo
    uploadParts task kind partCount input received rest

def uploadFileParts (task : Task) (kind : FileKind) (received : List Nat) : Thread Unit := do
  let partCount := (task.bytes kind + task.partSize - 1) / task.partSize
  let input ← readFile (task.path kind)
  uploadParts task kind partCount input received (List.range partCount)

def digestOf (known path : StdString) : Thread StdString :=
  if known = [] then sha256File path else pure known

def submitUpload (task : Task) : Thread Unit := do
  let manifest ← httpRequest task .manifest
  lift (requireHttpSuccess manifest "recording manifest".toList)
  let parts ← httpRequest task .parts
  lift (requireHttpSuccess parts "recording parts query".toList)
  uploadFileParts task .cfg (parts.parts .cfg)
  uploadFileParts task .dat (parts.parts .dat)
  publishStatus task "verifying".toList "platform is verifying recording files".toList
  let response ← httpRequest task .complete
  lift (requireHttpSuccess response "recording completion".toList)
  writeBack { task with stage := .awaitingAck, nextRetryAtMs := 0, lastError := [] }

def processUpload (task : Task) (nowMs : Int) : Thread Unit :=
  if task.expireAtMs ≤ nowMs then
    throw (.transfer "recording upload token expired before completion".toList false)
  else if task.cfgPath = [] ∨ task.datPath = [] then
    throw (.transfer "local recording files are missing from upload task".toList false)
  else do
    let cfgBytes ← fileSize task.cfgPath
    let datBytes ← fileSize task.datPath
    let cfgSha256 ← digestOf task.cfgSha256 task.cfgPath
    let datSha256 ← digestOf task.datSha256 task.datPath
    let task := { task with cfgBytes, datBytes, cfgSha256, datSha256, stage := .uploading, nextRetryAtMs := nowMs }
    writeBack task
    publishStatus task "uploading".toList "submitting recording manifest".toList
    submitUpload task

def processTask (task : Task) (nowMs : Int) : Thread Unit :=
  if task.stage = .accepted ∨ task.stage = .localWait then processLocalCommand task nowMs
  else if task.action = .pull ∧ (task.stage = .localReady ∨ task.stage = .uploading) then processUpload task nowMs
  else pure ()

def publishFailure (task : Task) (error : StdString) (retryable : Bool) (errorCode : String) : Thread Unit :=
  publish (.status task "failed".toList error retryable errorCode.toList)

def scheduleRetry (config : TransferConfig) (original : Task) (error : StdString) (nowMs : Int) (retryable : Bool) :
    Thread Unit :=
  let task := { original with retryCount := original.retryCount + 1, lastError := error }
  if !retryable || (decide (0 < task.expireAtMs) && decide (task.expireAtMs ≤ nowMs)) then do
    let task := { task with stage := .failed, nextRetryAtMs := 0 }
    if ← applyTask task then publishFailure task error false "RECORDING_TRANSFER_FAILED" else pure ()
  else do
    let delaySec := min config.retryMaxSec (config.retryBaseSec * 2 ^ min (task.retryCount - 1) 10)
    let task := { task with nextRetryAtMs := nowMs + delaySec * 1000 }
    if ← applyTask task then publishFailure task error true "RECORDING_TRANSFER_RETRY" else pure ()

/-- The retry is scheduled for the copy that was taken, not for what the processing made of it. -/
def processPending (config : TransferConfig) (task : Task) (nowMs : Int) : Thread Unit :=
  tryCatch (processTask task nowMs) fun failure => scheduleRetry config task failure.what nowMs failure.retryable

def runPendingOnce (config : TransferConfig) (nowMs : Int) : Thread Unit := do
  match ← dueTask nowMs with
  | none => pure ()
  | some task => processPending config task nowMs

/-! ## Threads

Any number of handler calls run beside the one worker. What the command server, the
platform and the file system answer is left open here.
-/

inductive ThreadId where
  | transferWorker
  | handler (n : Nat)
  | commandServer (socketPath : StdString)
deriving DecidableEq, Repr

/-- The queue, with the files that each `handleAck` has still to remove and the copy the worker took last. -/
structure TransferState where
  tasks : Tasks := ∅
  pendingRemovals : ThreadId → List (StdString × StdString) := fun _ => []
  processing : Option Task := none

def TransferState.setRemovals (s : TransferState) (i : ThreadId) (removals : List (StdString × StdString)) :
    TransferState :=
  { s with pendingRemovals := Function.update s.pendingRemovals i removals }

theorem TransferState.setRemovals_self (s : TransferState) (i : ThreadId) (removals : List (StdString × StdString)) :
    (s.setRemovals i removals).pendingRemovals i = removals := by
  simp [setRemovals]

theorem TransferState.setRemovals_of_ne (s : TransferState) {i j : ThreadId} (h : j ≠ i)
    (removals : List (StdString × StdString)) :
    (s.setRemovals i removals).pendingRemovals j = s.pendingRemovals j := by
  simp [setRemovals, h]

section Sections

variable (s : TransferState)

/-- The second lock section of `handleRequest`; what is inserted stays when the queue file cannot be written. -/
def TransferState.insertTask (task : Task) (saved : Except Failure (Option Task)) :
    Except Failure (Option Task) × TransferState :=
  match s.tasks[task.requestId]? with
  | some stored => (.ok (some stored), s)
  | none => (saved.map fun _ => none, { s with tasks := s.tasks.insert task.requestId task })

def TransferState.completeTask (i : ThreadId) (requestId : StdString) (nowMs : Int)
    (saved : Except Failure (Option Task)) : Except Failure (Option Task) × TransferState :=
  match s.tasks.complete requestId nowMs with
  | none => (.ok none, s)
  | some (task, tasks) =>
    match saved with
    | .error e => (.error e, { s with tasks })
    | .ok _ =>
      let removals := (requestId, task.cfgPath) :: (requestId, task.datPath) :: s.pendingRemovals i
      (.ok (some task), { s with tasks }.setRemovals i removals)

def TransferState.applyTask (task : Task) (saved : Except Failure Bool) : Except Failure Bool × TransferState :=
  match s.tasks.applyTask task with
  | none => (.ok false, s)
  | some tasks => (saved.map fun _ => true, { s with tasks })

def TransferState.dueTask (nowMs : Int) : TransferState := { s with processing := s.tasks.due nowMs }

def TransferState.eraseTask (requestId : StdString) : TransferState := { s with tasks := s.tasks.erase requestId }

def TransferState.removeFile (i : ThreadId) (path : StdString) : TransferState :=
  s.setRemovals i ((s.pendingRemovals i).eraseP fun removal => removal.2 == path)

end Sections

def transferAct (i : ThreadId) : (op : Call) → Except Failure (Answer op) → TransferState →
    Except Failure (Answer op) × TransferState
  | .findTask requestId, _, s => (.ok s.tasks[requestId]?, s)
  | .insertTask task, saved, s => s.insertTask task saved
  | .completeTask requestId nowMs, saved, s => s.completeTask i requestId nowMs saved
  | .dueTask nowMs, _, s => (.ok (s.tasks.due nowMs), s.dueTask nowMs)
  | .applyTask task, saved, s => s.applyTask task saved
  | .eraseTask requestId, saved, s => (saved, s.eraseTask requestId)
  | .removeFile path, _, s => (.ok (), s.removeFile i path)
  | _, answer, s => (answer, s)

inductive Work where
  | request (request : RecordingRequest) (nowMs : Int)
  | ack (ack : RecordingAck) (nowMs : Int)
  | pending (nowMs : Int)
  | serve

/-- The service without the command servers. -/
def transferProgram (config : TransferConfig) : ThreadId → Work → Thread Unit
  | .handler _, .request request nowMs => handleRequest config request nowMs
  | .handler _, .ack ack nowMs => handleAck config ack nowMs
  | .transferWorker, .pending nowMs => runPendingOnce config nowMs
  | _, _ => pure ()

abbrev TransferPool := Pool ThreadId Call Answer Failure TransferState

abbrev TransferEvent := Pool.Event ThreadId Call Answer Failure Work

end EdgeGateway.Recording
