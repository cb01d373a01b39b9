import EdgeGateway.Models

/-! # The recording command server -/

namespace EdgeGateway.Recording

/-- `unknown` stands for every other text that an answer may carry. -/
inductive RecordingAction where
  | list
  | pull
  | status
  | unknown
deriving DecidableEq, Repr

inductive JobStage where
  | accepted
  | deviceConnecting
  | pullingDirectory
  | pullingCfg
  | pullingDat
  | localReady
  | completed
  | failed
deriving DecidableEq, Repr

structure Iec103DisturbanceRecord where
  fan : Int
  state : Int
  timestampMs : Int
  rawTimeHex : StdString
deriving DecidableEq, Repr

structure Iec103ComtradeFiles where
  cfgPath : StdString := []
  cfgBytes : Nat := 0
  datPath : StdString := []
  datBytes : Nat := 0
deriving DecidableEq, Repr

structure Iec103RecordingJobStatus where
  requestId : StdString
  action : RecordingAction
  stage : JobStage
  retryable : Bool := false
  fan : Int := -1
  files : Iec103ComtradeFiles := {}
  records : List Iec103DisturbanceRecord := []
  errorCode : StdString := []
  message : StdString := []
deriving DecidableEq, Repr

def Iec103RecordingJobStatus.terminal (status : Iec103RecordingJobStatus) : Bool :=
  status.stage == .completed || status.stage == .localReady || status.stage == .failed

def failedStatus (requestId : StdString) (action : RecordingAction) (errorCode message : String)
    (retryable : Bool) : Iec103RecordingJobStatus :=
  { requestId, action, stage := .failed, retryable, errorCode := errorCode.toList, message := message.toList }

structure Job where
  requestId : StdString
  action : RecordingAction
  fan : Int
deriving DecidableEq, Repr

inductive Command where
  | list (requestId : StdString)
  | pull (requestId : StdString) (fan : Int)
  | status (requestId : StdString)
deriving DecidableEq, Repr

def Command.requestId : Command → StdString
  | list requestId => requestId
  | pull requestId _ => requestId
  | status requestId => requestId

def isSafeRequestId (value : StdString) : Bool :=
  value ≠ [] && value.length ≤ 128 && value.all fun ch =>
    ('a' ≤ ch && ch ≤ 'z') || ('A' ≤ ch && ch ≤ 'Z') || ('0' ≤ ch && ch ≤ '9') || ch == '-' || ch == '_' || ch == '.'

def maxQueuedJobs : Nat := 32

def maxRememberedJobs : Nat := 128

structure CommandServer where
  jobs : List Job := []
  statuses : StringMap Iec103RecordingJobStatus := ∅
  statusOrder : List StdString := []
  activeRequestId : StdString := []

namespace CommandServer

/-- The loop in which the oldest requests are forgotten. -/
def forgetOldest : List StdString → StringMap Iec103RecordingJobStatus →
    List StdString × StringMap Iec103RecordingJobStatus
  | [], statuses => ([], statuses)
  | oldest :: rest, statuses =>
    if maxRememberedJobs ≤ rest.length + 1 then forgetOldest rest (statuses.erase oldest)
    else (oldest :: rest, statuses)

def rememberLocked (server : CommandServer) (status : Iec103RecordingJobStatus) : CommandServer :=
  let (statusOrder, statuses) := forgetOldest server.statusOrder server.statuses
  { server with
    statuses := statuses.insert status.requestId status
    statusOrder := statusOrder ++ [status.requestId] }

def submit (server : CommandServer) (job : Job) : Iec103RecordingJobStatus × CommandServer :=
  match server.statuses[job.requestId]? with
  | some existing =>
    if existing.action ≠ job.action ∨ existing.fan ≠ job.fan then
      (failedStatus job.requestId job.action "REQUEST_ID_CONFLICT"
        "requestId is already used by a different recording command" false, server)
    else (existing, server)
  | none =>
    if maxQueuedJobs ≤ server.jobs.length then
      (failedStatus job.requestId job.action "QUEUE_FULL" "IEC103 recording command queue is full" true, server)
    else
      let status := { requestId := job.requestId, action := job.action, stage := .accepted, fan := job.fan }
      let remembered := server.rememberLocked status
      (status, { remembered with jobs := server.jobs ++ [job] })

def find (server : CommandServer) (requestId : StdString) : Iec103RecordingJobStatus :=
  match server.statuses[requestId]? with
  | some status => status
  | none => failedStatus requestId .status "REQUEST_NOT_FOUND" "IEC103 recording request was not found" false

/-- One connection to the socket: what the server throws is answered as a failure. -/
def handleCommand (server : CommandServer) (command : Command) : Iec103RecordingJobStatus × CommandServer :=
  let refused := fun (message : String) => (failedStatus [] .unknown "INVALID_COMMAND" message false, server)
  if isSafeRequestId command.requestId = false then refused "invalid IEC103 recording requestId"
  else match command with
    | .status requestId => (server.find requestId, server)
    | .list requestId => server.submit ⟨requestId, .list, -1⟩
    | .pull requestId fan =>
      if fan < 0 ∨ 65535 < fan then refused "IEC103 recording FAN is out of range"
      else server.submit ⟨requestId, .pull, fan⟩

/-- `statuses[requestId]`, which makes an entry where there is none, and an assignment to its fields. -/
def setStatus (server : CommandServer) (requestId : StdString)
    (assign : Iec103RecordingJobStatus → Iec103RecordingJobStatus) : CommandServer :=
  let status := server.statuses[requestId]?.getD { requestId := [], action := .unknown, stage := .accepted }
  { server with statuses := server.statuses.insert requestId (assign status) }

def takeJob (server : CommandServer) : Option Job × CommandServer :=
  match server.jobs with
  | [] => (none, server)
  | job :: jobs =>
    (some job, { server with jobs, activeRequestId := job.requestId }.setStatus job.requestId
      fun status => { status with stage := .deviceConnecting })

def updateActiveStage (server : CommandServer) (stage : JobStage) : CommandServer :=
  if server.activeRequestId = [] then server
  else match server.statuses[server.activeRequestId]? with
    | none => server
    | some status =>
      { server with statuses := server.statuses.insert server.activeRequestId { status with stage } }

def clearActive (server : CommandServer) : CommandServer := { server with activeRequestId := [] }

end CommandServer

end EdgeGateway.Recording
