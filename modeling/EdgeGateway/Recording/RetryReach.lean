import EdgeGateway.Recording.AcknowledgedTasks

/-! # What a retry does at the device -/

namespace EdgeGateway.Recording

open Script Run

def Command.job : Command → Option Job
  | .list requestId => some ⟨requestId, .list, -1⟩
  | .pull requestId fan => if fan < 0 ∨ 65535 < fan then none else some ⟨requestId, .pull, fan⟩
  | .status _ => none

namespace CommandServer

variable {server : CommandServer} {sent : Command} {job : Job}

structure Queues (server : CommandServer) (sent : Command) : Prop where
  safe : isSafeRequestId sent.requestId = true
  submits : sent.job.isSome
  forgotten : server.statuses[sent.requestId]? = none
  room : server.jobs.length < maxQueuedJobs

theorem submit_jobs (job : Job) : (server.submit job).2.jobs =
    if server.statuses[job.requestId]? = none ∧ server.jobs.length < maxQueuedJobs then server.jobs ++ [job]
    else server.jobs := by
  rw [submit]
  cases hStatus : server.statuses[job.requestId]? with
  | some existing =>
    simp only [reduceCtorEq, false_and, if_false]
    split <;> rfl
  | none =>
    by_cases hFull : maxQueuedJobs ≤ server.jobs.length
    · simp [hFull, Nat.not_lt.mpr hFull]
    · simp [hFull, Nat.not_le.mp hFull]

theorem handleCommand_jobs : (server.handleCommand sent).2.jobs = server.jobs ∨
    ∃ job, sent.job = some job ∧ server.Queues sent ∧ (server.handleCommand sent).2.jobs = server.jobs ++ [job] := by
  have hSubmit : isSafeRequestId sent.requestId = true → ∀ job, sent.job = some job →
      job.requestId = sent.requestId → (server.handleCommand sent).2 = (server.submit job).2 →
      (server.handleCommand sent).2.jobs = server.jobs ∨ ∃ job, sent.job = some job ∧ server.Queues sent ∧
        (server.handleCommand sent).2.jobs = server.jobs ++ [job] := by
    intro hSafe job hJob hId hHandled
    rw [hHandled, submit_jobs]
    split
    · rename_i hTaken
      rw [hId] at hTaken
      exact .inr ⟨job, hJob, ⟨hSafe, Option.isSome_of_eq_some hJob, hTaken.1, hTaken.2⟩, rfl⟩
    · exact .inl rfl
  by_cases hSafe : isSafeRequestId sent.requestId = false
  · left
    rw [handleCommand.eq_def, if_pos hSafe]
  · have hTrue := Bool.eq_true_of_not_eq_false hSafe
    cases sent with
    | status requestId =>
      left
      rw [handleCommand.eq_def, if_neg hSafe]
    | list requestId => exact hSubmit hTrue _ rfl rfl (by rw [handleCommand.eq_def, if_neg hSafe])
    | pull requestId fan =>
      by_cases hFan : fan < 0 ∨ 65535 < fan
      · left
        rw [handleCommand.eq_def, if_neg hSafe]
        dsimp only
        rw [if_pos hFan]
      · refine hSubmit hTrue ⟨requestId, .pull, fan⟩ (by rw [Command.job, if_neg hFan]) rfl ?_
        rw [handleCommand.eq_def, if_neg hSafe]
        dsimp only
        rw [if_neg hFan]

theorem handleCommand_queues (h : server.Queues sent) (hJob : sent.job = some job) :
    (server.handleCommand sent).2.jobs = server.jobs ++ [job] := by
  have hSafe : ¬ isSafeRequestId sent.requestId = false := by
    rw [h.safe]
    decide
  rw [handleCommand.eq_def, if_neg hSafe]
  cases sent with
  | status requestId => cases hJob
  | list requestId =>
    obtain rfl := Option.some.inj hJob
    exact (submit_jobs _).trans (if_pos ⟨h.forgotten, h.room⟩)
  | pull requestId fan =>
    rw [Command.job] at hJob
    split at hJob
    · cases hJob
    · rename_i hFan
      obtain rfl := Option.some.inj hJob
      dsimp only
      rw [if_neg hFan]
      exact (submit_jobs _).trans (if_pos ⟨h.forgotten, h.room⟩)

theorem takeJob_jobs : (server.takeJob).2.jobs = server.jobs.tail := by
  unfold takeJob
  split
  · rename_i h
    rw [h]
    rfl
  · rename_i h
    rw [h]
    rfl

theorem updateActiveStage_jobs (stage : JobStage) : (server.updateActiveStage stage).jobs = server.jobs := by
  unfold updateActiveStage
  split
  · rfl
  · split <;> rfl

end CommandServer

section System

variable {config : TransferConfig} {directories : StdString → StdString} {p : RecordingPool} {event : TransferEvent}

theorem setServer_self (s : SystemState) (socketPath : StdString) (server : CommandServer) :
    (s.setServer socketPath server).servers socketPath = server := by
  simp [SystemState.setServer]

theorem setServer_of_ne (s : SystemState) {socketPath other : StdString} (server : CommandServer)
    (h : other ≠ socketPath) : (s.setServer socketPath server).servers other = s.servers other := by
  simp [SystemState.setServer, h]

theorem setServer_jobs (s : SystemState) (socketPath other : StdString) (server : CommandServer)
    (h : server.jobs.length ≤ (s.servers socketPath).jobs.length) :
    ((s.setServer socketPath server).servers other).jobs.length ≤ (s.servers other).jobs.length := by
  by_cases hOther : other = socketPath
  · subst hOther
    rw [setServer_self]
    exact h
  · rw [setServer_of_ne s server hOther]

theorem noCommand_jobs {i : ThreadId} {op : Call} (h : NoCommand op) (answer : Except Failure (Answer op))
    (s : SystemState) (socketPath : StdString) :
    ((systemAct i op answer s).2.servers socketPath).jobs.length ≤ (s.servers socketPath).jobs.length := by
  cases op with
  | command other sent => exact h.elim
  | fileSize path =>
    unfold systemAct
    dsimp only
    split <;> exact Nat.le_refl _
  | sha256File path =>
    unfold systemAct
    dsimp only
    split <;> exact Nat.le_refl _
  | readFile path =>
    unfold systemAct
    dsimp only
    split <;> exact Nat.le_refl _
  | removeFile path =>
    unfold systemAct
    dsimp only
    split <;> exact Nat.le_refl _
  | takeJob other =>
    refine setServer_jobs s other socketPath ((s.servers other).takeJob).2 ?_
    rw [CommandServer.takeJob_jobs, List.length_tail]
    omega
  | updateActiveStage other stage =>
    refine setServer_jobs s other socketPath ((s.servers other).updateActiveStage stage) ?_
    rw [CommandServer.updateActiveStage_jobs]
  | deviceFile other fan kind =>
    change ((s.deviceFile other kind answer).servers socketPath).jobs.length ≤ _
    unfold SystemState.deviceFile
    split <;> exact Nat.le_refl _
  | writeFile other path content =>
    unfold systemAct
    dsimp only
    split <;> exact Nat.le_refl _
  | dropFile other path =>
    unfold systemAct
    dsimp only
    split <;> exact Nat.le_refl _
  | renameFile other source target =>
    change ((s.renameFile source target answer).2.servers socketPath).jobs.length ≤ _
    unfold SystemState.renameFile
    split <;> exact Nat.le_refl _
  | reportRecords other requestId records => exact setServer_jobs s other socketPath _ (Nat.le_refl _)
  | reportFiles other requestId files => exact setServer_jobs s other socketPath _ (Nat.le_refl _)
  | reportFailure other requestId message => exact setServer_jobs s other socketPath _ (Nat.le_refl _)
  | clearActive other => exact setServer_jobs s other socketPath _ (Nat.le_refl _)
  | _ => exact Nat.le_refl _

theorem command_servers (s : SystemState) (socketPath : StdString) (sent : Command)
    (answer : Except Failure Iec103RecordingJobStatus) :
    (s.command socketPath sent answer).2.servers =
      Function.update s.servers socketPath ((s.servers socketPath).handleCommand sent).2 := by
  unfold SystemState.command
  dsimp only
  split <;> rfl

theorem command_server (s : SystemState) (socketPath : StdString) (sent : Command)
    (answer : Except Failure Iec103RecordingJobStatus) :
    (s.command socketPath sent answer).2.servers socketPath = ((s.servers socketPath).handleCommand sent).2 := by
  rw [command_servers, Function.update_self]

theorem program_noCommand {i : ThreadId} (hi : i ≠ .transferWorker) (work : Work) :
    (program config directories i work).Only NoCommand := by
  rw [program.eq_def]
  split
  · exact serveOnce_noCommand _ _
  · rw [transferProgram.eq_def]
    split
    · exact (handleRequest_only _ _).weaken fun _ => RequestCall.noCommand
    · exact handleAck_noCommand _ _
    · exact absurd rfl hi
    · exact Only.pure ()

end System

section Retries

variable (config : TransferConfig) (directories : StdString → StdString)

abbrev systemAfter (events : List TransferEvent) : RecordingPool :=
  after (systemStep config directories) idleSystem events

/-- A step of `during` has the command server queue a device operation for the request. -/
def QueuesAgain (before during : List TransferEvent) (task : Task) : Prop :=
  ∃ done event, done ++ [event] <+: during ∧ ∃ job : Job, job.requestId = task.requestId ∧
    ((systemAfter config directories (before ++ done ++ [event])).shared.servers task.socketPath).jobs =
      ((systemAfter config directories (before ++ done)).shared.servers task.socketPath).jobs ++ [job]

structure StartsOver (p : RecordingPool) (event : TransferEvent) (task : Task) : Prop where
  accepted : task.stage = .accepted
  delivered : ∃ answer, p.Makes event .transferWorker (.command task.socketPath (submitCommand task)) answer
  queues : (p.shared.servers task.socketPath).Queues (submitCommand task)

def Sends (task : Task) (socketPath : StdString) (sent : Command) : Prop :=
  socketPath = task.socketPath ∧
    (sent = .status task.requestId ∨ (task.stage = .accepted ∧ sent = submitCommand task))

/-- What the threads may come to while the worker is at a task. -/
def AtTask (task : Task) (i : ThreadId) (op : Call) : Prop :=
  (i = .transferWorker → WorkerCall task.requestId task.action (Sends task) True op) ∧
    (i ≠ .transferWorker → NoCommand op)

variable {config directories}

theorem systemAfter_snoc (events : List TransferEvent) (event : TransferEvent) :
    systemAfter config directories (events ++ [event]) =
      systemStep config directories (systemAfter config directories events) event := after_snoc _ _ _ _

theorem noCommand_confined (events : List TransferEvent) :
    Pool.Confined (fun i op => i ≠ .transferWorker → NoCommand op) (systemAfter config directories events) := by
  induction events using List.reverseRecOn with
  | nil => exact fun _ => trivial
  | append_singleton events event ih =>
    rw [systemAfter, after_snoc]
    refine ih.step fun i work _ => ?_
    by_cases hi : i = .transferWorker
    · exact Only.of_forall _ fun _ h => absurd hi h
    · exact (program_noCommand hi work).weaken fun _ h _ => h

theorem processPending_atTask (task : Task) (nowMs : Int) :
    (processPending config task nowMs).Only (AtTask task .transferWorker) := by
  by_cases hStage : task.stage = .completed
  · have hNothing : processTask task nowMs = pure () := by
      rw [processTask, if_neg (by rw [hStage]; decide), if_neg]
      rintro ⟨-, hLocal | hUploading⟩
      · rw [hStage] at hLocal
        cases hLocal
      · rw [hStage] at hUploading
        cases hUploading
    rw [processPending, hNothing]
    trivial
  · have hOnly : (processPending config task nowMs).Only
        (WorkerCall task.requestId task.action (Sends task) True) :=
      processPending_only task hStage trivial (fun h => ⟨rfl, .inr ⟨h, rfl⟩⟩) ⟨rfl, .inl rfl⟩ nowMs
    exact hOnly.weaken fun _ h => ⟨fun _ => h, fun h => absurd rfl h⟩

theorem atTask_confined {before during : List TransferEvent} {task : Task} {nowMs : Int}
    (hTaken : (systemAfter config directories before).threads .transferWorker = processPending config task nowMs)
    (hDuring : ∀ work, Pool.Event.start .transferWorker work ∉ during) (done : List TransferEvent)
    (hDone : done <+: during) : Pool.Confined (AtTask task) (systemAfter config directories (before ++ done)) := by
  induction done using List.reverseRecOn with
  | nil =>
    intro i
    rw [List.append_nil]
    by_cases hi : i = .transferWorker
    · subst hi
      rw [hTaken]
      exact processPending_atTask task nowMs
    · exact (noCommand_confined before i).weaken fun op h => ⟨fun h' => absurd h' hi, h⟩
  | append_singleton done event ih =>
    rw [← List.append_assoc, systemAfter, after_snoc]
    refine (ih ((List.prefix_append done [event]).trans hDone)).step fun i work hEvent => ?_
    have hi : i ≠ .transferWorker := by
      rintro rfl
      exact hDuring work (hDone.subset (hEvent ▸ List.mem_append_right done List.mem_cons_self))
    exact (program_noCommand hi work).weaken fun _ h => ⟨fun h' => absurd h' hi, fun _ => h⟩

theorem submitCommand_job (task : Task) (h : (submitCommand task).job.isSome) :
    ∃ job, (submitCommand task).job = some job ∧ job.requestId = task.requestId := by
  obtain ⟨job, hJob⟩ := Option.isSome_iff_exists.mp h
  refine ⟨job, hJob, ?_⟩
  rw [submitCommand] at hJob
  split at hJob
  · rw [← Option.some.inj hJob]
  · rw [Command.job] at hJob
    split at hJob
    · cases hJob
    · rw [← Option.some.inj hJob]

/-- A processing queues a device operation just when it starts over with a server that has forgotten the
    request. -/
theorem retry_reaches_device_iff {before during : List TransferEvent} {task : Task} {nowMs : Int}
    (hTaken : (systemAfter config directories before).threads .transferWorker = processPending config task nowMs)
    (hDuring : ∀ work, Pool.Event.start .transferWorker work ∉ during) :
    QueuesAgain config directories before during task ↔
      ∃ done event, done ++ [event] <+: during ∧
        StartsOver (systemAfter config directories (before ++ done)) event task := by
  constructor
  · rintro ⟨done, event, hDone, job, hJob, hJobs⟩
    refine ⟨done, event, hDone, ?_⟩
    have hConfined := atTask_confined hTaken hDuring done ((List.prefix_append done [event]).trans hDone)
    rw [systemAfter_snoc] at hJobs
    have hStep : (systemStep config directories (systemAfter config directories (before ++ done)) event).shared =
        (systemAfter config directories (before ++ done)).shared ∨ ∃ i op answer,
        (systemAfter config directories (before ++ done)).Makes event i op answer ∧
        (systemStep config directories (systemAfter config directories (before ++ done)) event).shared =
          (systemAct i op answer (systemAfter config directories (before ++ done)).shared).2 :=
      Pool.step_shared _ event
    generalize systemAfter config directories (before ++ done) = p at hConfined hStep hJobs ⊢
    have hLonger := congrArg List.length hJobs
    rw [List.length_append, List.length_singleton] at hLonger
    rcases hStep with hSame | ⟨i, op, answer, hMakes, hShared⟩
    · rw [hSame] at hLonger
      omega
    · have hOp := hConfined.makes hMakes
      rw [hShared] at hLonger hJobs
      by_cases hNone : NoCommand op
      · have hShorter := noCommand_jobs (i := i) hNone answer p.shared task.socketPath
        omega
      · have hi : i = .transferWorker := by
          by_contra hi
          exact hNone (hOp.2 hi)
        subst hi
        cases op with
        | command socketPath sent =>
          obtain ⟨rfl, hSent⟩ := hOp.1 rfl
          have hLonger' := (congrArg List.length
            (congrArg CommandServer.jobs (command_server p.shared task.socketPath sent answer))).symm.trans hLonger
          rcases @CommandServer.handleCommand_jobs (p.shared.servers task.socketPath) sent with
            hSame | ⟨queued, hQueued, hQueues, -⟩
          · rw [hSame] at hLonger'
            omega
          · rcases hSent with rfl | ⟨hStage, rfl⟩
            · cases hQueued
            · exact ⟨hStage, ⟨answer, hMakes⟩, hQueues⟩
        | _ => exact absurd trivial hNone
  · rintro ⟨done, event, hDone, hStage, ⟨answer, hMakes⟩, hQueues⟩
    obtain ⟨job, hJob, hId⟩ := submitCommand_job task hQueues.submits
    refine ⟨done, event, hDone, job, hId, ?_⟩
    rw [systemAfter_snoc, systemStep, Pool.step_makes hMakes]
    exact (congrArg CommandServer.jobs (command_server _ _ _ answer)).trans
      (CommandServer.handleCommand_queues hQueues hJob)

theorem taken_of_due {p : RecordingPool} {task : Task} {nowMs : Int} {answers : (op : Call) → Except Failure (Answer op)}
    {result : Except Failure Unit} (hDone : p.threads .transferWorker = .done result)
    (hDue : p.shared.transfer.tasks.due nowMs = some task) :
    (systemStep config directories (systemStep config directories p (.start .transferWorker (.pending nowMs)))
      (.run .transferWorker answers)).threads .transferWorker = processPending config task nowMs := by
  have hThread : (systemStep config directories p (.start .transferWorker (.pending nowMs))).threads .transferWorker =
      runPendingOnce config nowMs := Pool.threads_start_self hDone
  have hShared : (systemStep config directories p (.start .transferWorker (.pending nowMs))).shared = p.shared :=
    Pool.shared_start
  refine (Pool.threads_run_self hThread).trans ?_
  rw [hShared]
  have hAnswer : (systemAct .transferWorker (.dueTask nowMs) (answers (.dueTask nowMs)) p.shared).1 =
      .ok (some task) := by
    rw [← hDue]
    rfl
  rw [hAnswer]
  rfl

def isDone : Thread Unit → Bool
  | .done _ => true
  | .call _ _ => false

theorem exists_of_isDone {x : Thread Unit} (h : isDone x = true) : ∃ result, x = .done result := by
  cases x with
  | done result => exact ⟨result, rfl⟩
  | call op next => cases h

def nextCommand : Thread Unit → Option (StdString × Command)
  | .call (.command socketPath sent) _ => some (socketPath, sent)
  | _ => none

theorem exists_of_nextCommand {x : Thread Unit} {socketPath : StdString} {sent : Command}
    (h : nextCommand x = some (socketPath, sent)) : ∃ next, x = .call (.command socketPath sent) next := by
  rw [nextCommand.eq_def] at h
  split at h
  · obtain ⟨rfl, rfl⟩ := Prod.mk.inj (Option.some.inj h)
    exact ⟨_, rfl⟩
  · cases h

def plantSocket : StdString := "/run/am5se_1.sock".toList

def plantDirectory (_ : StdString) : StdString := "/data".toList

def brokenAnswers : (op : Call) → Except Failure (Answer op)
  | .connect _ => .error (invalid "cannot connect IEC103 recording command socket")
  | .deviceFile _ _ _ => .error (invalid "IEC103 response timeout")
  | op => plantAnswers op

def requestedEvents : List TransferEvent :=
  .start (.handler 0) (.request (pullRequest "A") 1000) :: calls (.handler 0) 5

def unreachedEvents : List TransferEvent :=
  requestedEvents ++ [.start .transferWorker (.pending 1000), .run .transferWorker plantAnswers] ++
    List.replicate 3 (.run .transferWorker brokenAnswers)

def unreachedTask : Task where
  requestId := ['A']
  action := .pull
  deviceCode := "AM5SE_1".toList
  fan := 7
  sessionId := "S1".toList
  baseUrl := "https://platform/uploads/S1".toList
  token := "token".toList
  expireAtMs := 60000
  partSize := 65536
  socketPath := plantSocket
  retryCount := 1
  nextRetryAtMs := 6000
  lastError := "cannot connect IEC103 recording command socket".toList

theorem retry_reaches_device_of_unreached :
    QueuesAgain plantConfig plantDirectory
      (unreachedEvents ++ [.start .transferWorker (.pending 6000)] ++ calls .transferWorker 1)
      (calls .transferWorker 2) unreachedTask := by
  obtain ⟨result, hDone⟩ : ∃ result,
      (systemAfter plantConfig plantDirectory unreachedEvents).threads .transferWorker = .done result :=
    exists_of_isDone (by decide +kernel)
  have hTaken : (systemAfter plantConfig plantDirectory (unreachedEvents ++ [.start .transferWorker (.pending 6000)] ++
      calls .transferWorker 1)).threads .transferWorker = processPending plantConfig unreachedTask 6000 := by
    rw [calls, List.replicate_one, systemAfter_snoc, systemAfter_snoc]
    exact taken_of_due hDone (by decide +kernel)
  have hDuring : ∀ work, Pool.Event.start .transferWorker work ∉ calls .transferWorker 2 := by
    intro work hMem
    cases List.eq_of_mem_replicate hMem
  refine (retry_reaches_device_iff hTaken hDuring).mpr
    ⟨calls .transferWorker 1, .run .transferWorker plantAnswers, List.prefix_refl _, rfl, ?_, ?_⟩
  · obtain ⟨next, hNext⟩ : ∃ next, (systemAfter plantConfig plantDirectory
        (unreachedEvents ++ [.start .transferWorker (.pending 6000)] ++ calls .transferWorker 1 ++
          calls .transferWorker 1)).threads .transferWorker = .call (.command plantSocket (.pull ['A'] 7)) next :=
      exists_of_nextCommand (by decide +kernel)
    exact ⟨_, plantAnswers, next, rfl, hNext, rfl⟩
  · exact ⟨by decide +kernel, by decide +kernel, by decide +kernel, by decide +kernel⟩

def failedEvents : List TransferEvent :=
  requestedEvents ++
  .start .transferWorker (.pending 1000) :: calls .transferWorker 5 ++
  .start (.commandServer plantSocket) .serve :: List.replicate 5 (.run (.commandServer plantSocket) brokenAnswers) ++
  .start .transferWorker (.pending 1250) :: calls .transferWorker 5 ++
  .start .transferWorker (.pending 6250) :: calls .transferWorker 1

theorem retry_reads_remembered_failure :
    (((systemAfter plantConfig plantDirectory failedEvents).shared.servers plantSocket).statuses[['A']]?.map fun status =>
      (status.stage, status.retryable)) = some (.failed, true) ∧
    ((systemAfter plantConfig plantDirectory failedEvents).shared.transfer.tasks.due 6250).map
      (fun task => (task.requestId, task.nextRetryAtMs)) = some (['A'], 6250) ∧
    isDone ((systemAfter plantConfig plantDirectory (failedEvents ++ calls .transferWorker 4)).threads
      .transferWorker) = true ∧
    (systemAfter plantConfig plantDirectory (failedEvents ++ calls .transferWorker 4)).shared.transfer.tasks[['A']]?.map
      (fun task => (task.stage, task.retryCount)) = some (.localWait, 2) ∧
    ¬ QueuesAgain plantConfig plantDirectory failedEvents (calls .transferWorker 4)
      { unreachedTask with stage := .localWait } := by
  refine ⟨by decide +kernel, by decide +kernel, by decide +kernel, by decide +kernel, ?_⟩
  rintro ⟨done, event, hDone, job, -, hJobs⟩
  have hNone : ∀ done ∈ (calls .transferWorker 4).inits,
      ((systemAfter plantConfig plantDirectory (failedEvents ++ done)).shared.servers plantSocket).jobs = [] := by
    decide +kernel
  have hQueued := hNone (done ++ [event]) ((List.mem_inits _ _).mpr hDone)
  rw [← List.append_assoc] at hQueued
  exact List.append_ne_nil_of_right_ne_nil _ (List.cons_ne_nil job []) (hJobs.symm.trans hQueued)

end Retries

end EdgeGateway.Recording
