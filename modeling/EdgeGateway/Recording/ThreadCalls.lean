import EdgeGateway.Recording.RecordingSystem

/-! # The calls of each thread -/

namespace EdgeGateway.Recording

open Script

section Requests

variable {config : TransferConfig}

def RequestCall : Call → Prop
  | .findTask _ | .insertTask _ | .publish _ | .socketOf _ => True
  | _ => False

theorem answerRequest_only (task : Task) (stage : StdString) (message : String) :
    (answerRequest task stage message).Only RequestCall :=
  Only.bind (Only.perform trivial) fun _ => Only.perform trivial

theorem sameRequest_only (existing : Option Task) (task : Task) : (sameRequest existing task).Only RequestCall := by
  cases existing with
  | none => exact Only.pure task
  | some stored =>
    rw [sameRequest]
    split <;> trivial

theorem handleRequest_only (request : RecordingRequest) (nowMs : Int) :
    (handleRequest config request nowMs).Only RequestCall := by
  rw [handleRequest]
  refine Only.bind (Only.lift _) fun asked => Only.bind (Only.perform trivial) fun existing =>
    Only.bind (sameRequest_only existing asked) fun task => ?_
  split
  · exact answerRequest_only task _ _
  · rw [queueRequest]
    refine Only.bind (Only.perform trivial) fun socketPath => Only.bind (Only.lift _) fun session =>
      Only.bind (Only.perform trivial) fun found => Only.bind (sameRequest_only found _) fun stored => ?_
    cases found with
    | none => exact answerRequest_only stored _ _
    | some other => exact answerRequest_only stored _ _

/-- The calls that leave the command servers to themselves. -/
def NoCommand : Call → Prop
  | .command _ _ => False
  | _ => True

theorem RequestCall.noCommand {op : Call} (h : RequestCall op) : NoCommand op := by
  cases op with
  | command socketPath sent => exact h
  | _ => trivial

theorem handleAck_noCommand (ack : RecordingAck) (nowMs : Int) : (handleAck config ack nowMs).Only NoCommand := by
  refine Only.bind (Only.lift _) fun requestId => Only.bind (Only.perform trivial) fun taken => ?_
  cases taken with
  | none => exact Only.pure ()
  | some task =>
    exact Only.bind (Only.perform trivial) fun _ => Only.bind (Only.perform trivial) fun _ => Only.perform trivial

end Requests

section CommandServers

variable (socketPath directory : StdString)

theorem installFiles_noCommand (fan : Int) (cfg dat : Content) (token : Nat) :
    (installFiles socketPath directory fan cfg dat token).Only NoCommand := by
  refine Only.tryCatch ?_ fun failure => Only.bind (Only.perform trivial) fun _ =>
    Only.bind (Only.perform trivial) fun _ => Only.throw failure
  exact Only.bind (Only.perform trivial) fun _ => Only.bind (Only.perform trivial) fun _ =>
    Only.bind (Only.perform trivial) fun _ => Only.bind (Only.perform trivial) fun _ =>
    Only.bind (Only.perform trivial) fun _ => Only.perform trivial

theorem pullComtradeRecording_noCommand (fan : Int) :
    (pullComtradeRecording socketPath directory fan).Only NoCommand :=
  Only.bind (Only.perform trivial) fun _ => Only.bind (Only.perform trivial) fun _ =>
    Only.bind (Only.perform trivial) fun _ => Only.bind (Only.perform trivial) fun _ =>
    Only.bind (Only.perform trivial) fun _ =>
    Only.bind (installFiles_noCommand socketPath directory fan _ _ _) fun _ => Only.pure _

theorem serveOnce_noCommand : (serveOnce socketPath directory).Only NoCommand := by
  refine Only.bind (Only.perform trivial) fun taken => ?_
  cases taken with
  | none => exact Only.pure ()
  | some job =>
    refine Only.bind (Only.tryCatch ?_ fun _ => Only.perform trivial) fun _ => Only.perform trivial
    rw [performJob]
    split
    · exact Only.bind (Only.perform trivial) fun _ => Only.bind (Only.perform trivial) fun _ => Only.perform trivial
    · exact Only.bind (pullComtradeRecording_noCommand socketPath directory job.fan) fun _ => Only.perform trivial

end CommandServers

section Worker

variable {config : TransferConfig}

/-- What the worker may call on a task, and send; `ends` is whether it may take a list task off the queue. -/
def WorkerCall (id : StdString) (action : RecordingAction) (sends : StdString → Command → Prop) (ends : Prop) :
    Call → Prop
  | .applyTask copy => copy.requestId = id ∧ copy.action = action ∧ copy.stage ≠ .completed
  | .eraseTask erased => ends ∧ erased = id
  | .command socketPath sent => sends socketPath sent
  | .upload copy _ => copy.requestId = id
  | .publish _ | .connect _ | .fileSize _ | .sha256File _ | .readFile _ => True
  | _ => False

variable {sends : StdString → Command → Prop} {ends : Prop}

theorem sendCommand_only {socketPath : StdString} {sent : Command} (h : sends socketPath sent) (id : StdString)
    (action : RecordingAction) : (sendCommand socketPath sent).Only (WorkerCall id action sends ends) :=
  Only.bind (Only.perform trivial) fun _ => Only.perform h

theorem writeBack_only (task : Task) (h : task.stage ≠ .completed) :
    (writeBack task).Only (WorkerCall task.requestId task.action sends ends) :=
  Only.bind (Only.perform ⟨rfl, rfl, h⟩) fun _ => Only.pure ()

theorem publishStatus_only (task : Task) (stage message : StdString) (id : StdString) (action : RecordingAction) :
    (publishStatus task stage message).Only (WorkerCall id action sends ends) := Only.perform trivial

theorem uploadPart_only (task : Task) (kind : FileKind) (partCount : Nat) (input : Content) (received : List Nat)
    (partNo : Nat) : (uploadPart task kind partCount input received partNo).Only
      (WorkerCall task.requestId task.action sends ends) := by
  rw [uploadPart]
  split
  · exact Only.pure ()
  · dsimp only
    split
    · exact Only.throw _
    · exact Only.bind (Only.perform rfl) fun response => Only.bind (Only.lift _) fun _ =>
        publishStatus_only task _ _ _ _

theorem uploadParts_only (task : Task) (kind : FileKind) (partCount : Nat) (input : Content) (received : List Nat)
    (partNos : List Nat) : (uploadParts task kind partCount input received partNos).Only
      (WorkerCall task.requestId task.action sends ends) := by
  induction partNos with
  | nil => exact Only.pure ()
  | cons partNo rest ih => exact Only.bind (uploadPart_only task kind partCount input received partNo) fun _ => ih

theorem uploadFileParts_only (task : Task) (kind : FileKind) (received : List Nat) :
    (uploadFileParts task kind received).Only (WorkerCall task.requestId task.action sends ends) :=
  Only.bind (Only.perform trivial) fun input => uploadParts_only task kind _ input received _

theorem submitUpload_only (task : Task) : (submitUpload task).Only (WorkerCall task.requestId task.action sends ends) := by
  refine Only.bind (Only.perform rfl) fun manifest => Only.bind (Only.lift _) fun _ => ?_
  refine Only.bind (Only.perform rfl) fun parts => Only.bind (Only.lift _) fun _ => ?_
  refine Only.bind (uploadFileParts_only task .cfg _) fun _ => Only.bind (uploadFileParts_only task .dat _) fun _ => ?_
  refine Only.bind (publishStatus_only task _ _ _ _) fun _ => Only.bind (Only.perform rfl) fun response =>
    Only.bind (Only.lift _) fun _ => ?_
  exact writeBack_only { task with stage := .awaitingAck, nextRetryAtMs := 0, lastError := [] } (fun h => nomatch h)

theorem digestOf_only (known path id : StdString) (action : RecordingAction) :
    (digestOf known path).Only (WorkerCall id action sends ends) := by
  rw [digestOf]
  split
  · exact Only.perform trivial
  · exact Only.pure known

theorem processUpload_only (task : Task) (nowMs : Int) :
    (processUpload task nowMs).Only (WorkerCall task.requestId task.action sends ends) := by
  rw [processUpload]
  split
  · exact Only.throw _
  · split
    · exact Only.throw _
    · refine Only.bind (Only.perform trivial) fun cfgBytes => Only.bind (Only.perform trivial) fun datBytes => ?_
      refine Only.bind (digestOf_only _ _ _ _) fun cfgSha256 => Only.bind (digestOf_only _ _ _ _) fun datSha256 => ?_
      let copy := { task with
        cfgBytes, datBytes, cfgSha256, datSha256, stage := .uploading, nextRetryAtMs := nowMs }
      exact Only.bind (writeBack_only copy fun h => nomatch h) fun _ =>
        Only.bind (publishStatus_only copy _ _ _ _) fun _ => submitUpload_only copy

theorem scheduleRetry_only (original : Task) (h : original.stage ≠ .completed) (error : StdString) (nowMs : Int)
    (retryable : Bool) : (scheduleRetry config original error nowMs retryable).Only
      (WorkerCall original.requestId original.action sends ends) := by
  rw [scheduleRetry]
  split
  · refine Only.bind (Only.perform ⟨rfl, rfl, fun h => nomatch h⟩) fun applied => ?_
    split
    · exact Only.perform trivial
    · exact Only.pure ()
  · refine Only.bind (Only.perform ⟨rfl, rfl, h⟩) fun applied => ?_
    split
    · exact Only.perform trivial
    · exact Only.pure ()

theorem completeListTask_only (task : Task) (h : ends) (records : List Iec103DisturbanceRecord) (nowMs : Int) :
    (completeListTask task records nowMs).Only (WorkerCall task.requestId task.action sends ends) :=
  Only.bind (Only.perform trivial) fun _ => Only.bind (publishStatus_only task _ _ _ _) fun _ => Only.perform ⟨h, rfl⟩

theorem processAnswer_only (task : Task) (hStage : task.stage ≠ .completed) (h : ends)
    (status : Iec103RecordingJobStatus) (nowMs : Int) :
    (processAnswer task status nowMs).Only (WorkerCall task.requestId task.action sends ends) := by
  rw [processAnswer]
  split
  · split
    · exact writeBack_only { task with stage := .accepted, nextRetryAtMs := nowMs } fun h => nomatch h
    · exact Only.throw _
  · split
    · let copy := { task with nextRetryAtMs := nowMs + 250 }
      exact Only.bind (writeBack_only copy hStage) fun _ => publishStatus_only copy _ _ _ _
    · split
      · exact completeListTask_only task h _ _
      · let copy := { task with
          cfgPath := status.files.cfgPath, cfgBytes := status.files.cfgBytes, datPath := status.files.datPath,
          datBytes := status.files.datBytes, stage := .localReady, nextRetryAtMs := nowMs }
        exact Only.bind (writeBack_only copy fun h => nomatch h) fun _ => publishStatus_only copy _ _ _ _

theorem processLocalCommand_only (task : Task) (hStage : task.stage ≠ .completed) (h : ends)
    (hSubmit : task.stage = .accepted → sends task.socketPath (submitCommand task))
    (hStatus : sends task.socketPath (.status task.requestId)) (nowMs : Int) :
    (processLocalCommand task nowMs).Only (WorkerCall task.requestId task.action sends ends) := by
  rw [processLocalCommand]
  split
  · rename_i hAccepted
    let copy := { task with stage := .localWait, nextRetryAtMs := nowMs + 250, lastError := [] }
    refine Only.bind (sendCommand_only (hSubmit hAccepted) _ _) fun status => ?_
    refine Only.bind (writeBack_only copy fun h => nomatch h) fun _ =>
      Only.bind (publishStatus_only copy _ _ _ _) fun _ => ?_
    split
    · exact processAnswer_only copy (fun h => nomatch h) h status nowMs
    · exact Only.pure ()
  · exact Only.bind (sendCommand_only hStatus _ _) fun status => processAnswer_only task hStage h status nowMs

theorem processPending_only (task : Task) (hStage : task.stage ≠ .completed) (h : ends)
    (hSubmit : task.stage = .accepted → sends task.socketPath (submitCommand task))
    (hStatus : sends task.socketPath (.status task.requestId)) (nowMs : Int) :
    (processPending config task nowMs).Only (WorkerCall task.requestId task.action sends ends) := by
  refine Only.tryCatch ?_ fun failure => scheduleRetry_only task hStage _ _ _
  rw [processTask]
  split
  · exact processLocalCommand_only task hStage h hSubmit hStatus nowMs
  · split
    · exact processUpload_only task nowMs
    · exact Only.pure ()

end Worker

end EdgeGateway.Recording
