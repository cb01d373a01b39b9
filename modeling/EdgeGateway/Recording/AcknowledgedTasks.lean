import EdgeGateway.Recording.QueueContract

/-! # Acknowledged recordings -/

namespace EdgeGateway.Recording

open Script Run

section Runs

open TransferState

variable {config : TransferConfig}

theorem transferProgram_safe (i : ThreadId) (work : Work) (s : TransferState) :
    (transferProgram config i work).Safe transferAct transferContract i (fun _ _ => True) s := by
  rw [transferProgram.eq_def]
  split
  · exact handleRequest_safe _ _
  · exact handleAck_safe _ _
  · exact runPendingOnce_safe _
  · exact Safe.pure fun _ _ _ => trivial

abbrev transferStep (config : TransferConfig) : TransferPool → TransferEvent → TransferPool :=
  Pool.step transferAct (transferProgram config)

def idlePool (s : TransferState) : TransferPool := ⟨fun _ => .done (.ok ()), s⟩

def WritesUnshared (p : TransferPool) (event : TransferEvent) : Prop :=
  ∀ i op answer, p.Makes event i op answer → Allowed p.shared op

theorem admits_of_writes {p : TransferPool} {event : TransferEvent} (h : WritesUnshared p event) :
    Pool.Admits transferContract (fun _ _ => True) p event := ⟨fun _ _ _ => trivial, h⟩

theorem healthy_after {s : TransferState} (hSound : s.Sound) {events : List TransferEvent}
    (hRun : Guarded (transferStep config) WritesUnshared (idlePool s) events) :
    Pool.Healthy transferContract transferAct (after (transferStep config) (idlePool s) events) := by
  have hAdmits : Guarded (transferStep config) (Pool.Admits transferContract fun _ _ => True) (idlePool s) events :=
    fun done event hDone => admits_of_writes (hRun done event hDone)
  exact Pool.healthy_of_run hSound (fun i work t _ _ => transferProgram_safe i work t) hAdmits

def BetweenTasks (config : TransferConfig) (p : TransferPool) : Prop :=
  (∃ result, p.threads .transferWorker = .done result) ∨
    ∃ nowMs, p.threads .transferWorker = runPendingOnce config nowMs

abbrev reached (config : TransferConfig) (s : TransferState) (done : List TransferEvent) : TransferPool :=
  after (transferStep config) (idlePool s) done

/-- What holds of the recordings that the platform has acknowledged. -/
structure StayCompleted (config : TransferConfig) (s : TransferState) (events : List TransferEvent) : Prop where
  kept : ∀ done event, done ++ [event] <+: events → ∀ (id : StdString) task,
    (reached config s done).shared.tasks[id]? = some task → task.stage = .completed →
    (reached config s (done ++ [event])).shared.tasks[id]? = some task ∨
    ((reached config s (done ++ [event])).shared.tasks[id]? = none ∧
      (∃ i requestId nowMs answer, (reached config s done).Makes event i (.completeTask requestId nowMs) answer) ∧
      Tasks.maxCompletedTasks ≤ Tasks.completedCount (reached config s done).shared.tasks)
  removed : ∀ done event, done ++ [event] <+: events → ∀ i path answer,
    (reached config s done).Makes event i (.removeFile path) answer →
    ∃ id, (id, path) ∈ (reached config s done).shared.pendingRemovals i ∧ (path ≠ [] →
      (∀ j id', (id', path) ∈ (reached config s done).shared.pendingRemovals j → j = i ∧ id' = id) ∧
      ∀ (id' : StdString) task, (reached config s done).shared.tasks[id']? = some task → ¬ task.Names path)
  repeated : ∀ done more, done ++ more <+: events → ∀ (id : StdString) task, task.stage = .completed →
    (∀ part, part <+: more → (reached config s (done ++ part)).shared.tasks[id]? = some task) →
    (¬ (reached config s done).shared.Serves id ∨ BetweenTasks config (reached config s done)) →
    ∀ part event, part ++ [event] <+: more → ∀ i op answer,
      (reached config s (done ++ part)).Makes event i op answer → op.served ≠ some id

section Steps

variable {p : TransferPool} {event : TransferEvent} {id : StdString} {task : Task}

theorem processing_act (i : ThreadId) (op : Call) (answer : Except Failure (Answer op)) (s : TransferState)
    (h : ∀ nowMs, op ≠ .dueTask nowMs) : (transferAct i op answer s).2.processing = s.processing := by
  cases op with
  | dueTask nowMs => exact absurd rfl (h nowMs)
  | insertTask copy =>
    change (s.insertTask copy answer).2.processing = s.processing
    unfold TransferState.insertTask
    split <;> rfl
  | completeTask requestId nowMs =>
    change (s.completeTask i requestId nowMs answer).2.processing = s.processing
    unfold TransferState.completeTask
    split
    · rfl
    · split <;> rfl
  | applyTask copy =>
    change (s.applyTask copy answer).2.processing = s.processing
    unfold TransferState.applyTask
    split <;> rfl
  | _ => rfl

theorem between_step (hKeyed : p.shared.Sound) (hTask : p.shared.tasks[id]? = some task)
    (hCompleted : task.stage = .completed) (h : p.shared.Serves id → BetweenTasks config p)
    (hServes : (transferStep config p event).shared.Serves id) : BetweenTasks config (transferStep config p event) := by
  cases event with
  | start i work =>
    rw [transferStep, Pool.shared_start] at hServes
    by_cases hi : ThreadId.transferWorker = i
    · subst hi
      cases hThread : p.threads .transferWorker with
      | call op next =>
        rcases h hServes with ⟨r, hr⟩ | ⟨nowMs, hr⟩
        · rw [hThread] at hr
          cases hr
        · refine .inr ⟨nowMs, ?_⟩
          rw [transferStep, Pool.step, hThread, ← hr, hThread]
      | done result =>
        have hStarted : (transferStep config p (.start .transferWorker work)).threads .transferWorker =
            transferProgram config .transferWorker work := Pool.threads_start_self hThread
        cases work with
        | pending nowMs => exact .inr ⟨nowMs, hStarted⟩
        | _ => exact .inl ⟨.ok (), hStarted⟩
    · rcases h hServes with ⟨r, hr⟩ | ⟨nowMs, hr⟩
      · exact .inl ⟨r, (Pool.threads_start_of_ne hi).trans hr⟩
      · exact .inr ⟨nowMs, (Pool.threads_start_of_ne hi).trans hr⟩
  | run i answers =>
    cases hThread : p.threads i with
    | done result =>
      rw [transferStep, Pool.step_run_done hThread] at hServes ⊢
      exact h hServes
    | call op next =>
      have hShared : (transferStep config p (.run i answers)).shared = (transferAct i op (answers op) p.shared).2 :=
        Pool.step_makes ⟨answers, next, rfl, hThread, rfl⟩
      rw [hShared] at hServes
      by_cases hDue : ∃ nowMs, op = .dueTask nowMs
      · obtain ⟨nowMs, rfl⟩ := hDue
        obtain ⟨taken, hTaken, rfl⟩ := hServes
        obtain ⟨key, hStored, -, -, hStage, -⟩ := Tasks.due_stored hTaken
        obtain rfl := hKeyed.keyed key taken hStored
        rw [hTask] at hStored
        obtain rfl := Option.some.inj hStored
        exact absurd hCompleted hStage
      · have hSame := processing_act i op (answers op) p.shared fun nowMs hOp => hDue ⟨nowMs, hOp⟩
        have hBefore : p.shared.Serves id := by
          obtain ⟨taken, hTaken, hId⟩ := hServes
          exact ⟨taken, hSame.symm.trans hTaken, hId⟩
        by_cases hi : ThreadId.transferWorker = i
        · subst hi
          rcases h hBefore with ⟨r, hr⟩ | ⟨nowMs, hr⟩
          · rw [hThread] at hr
            cases hr
          · rw [hThread] at hr
            obtain ⟨rfl, -⟩ := Script.call.inj hr
            exact absurd ⟨nowMs, rfl⟩ hDue
        · rcases h hBefore with ⟨r, hr⟩ | ⟨nowMs, hr⟩
          · exact .inl ⟨r, (Pool.threads_run_of_ne hi).trans hr⟩
          · exact .inr ⟨nowMs, (Pool.threads_run_of_ne hi).trans hr⟩

theorem served_ne (hHealthy : Pool.Healthy transferContract transferAct p) (hWrites : WritesUnshared p event)
    (h : p.shared.Serves id → BetweenTasks config p) {i : ThreadId} {op : Call} {answer : Except Failure (Answer op)}
    (hMakes : p.Makes event i op answer) : op.served ≠ some id := by
  intro hServed
  have hKeeps : Keeps i op p.shared (transferStep config p event).shared :=
    hHealthy.guarantee (admits_of_writes hWrites) hMakes
  obtain ⟨rfl, hServes⟩ := hKeeps.served id hServed
  obtain ⟨answers, next, -, hThread, -⟩ := hMakes
  rcases h hServes with ⟨r, hr⟩ | ⟨nowMs, hr⟩
  · rw [hThread] at hr
    cases hr
  · rw [hThread] at hr
    obtain ⟨rfl, -⟩ := Script.call.inj hr
    cases hServed

end Steps

/-- The part about shared files is all that the condition on the writes is for. -/
theorem acknowledged_stay_completed (config : TransferConfig) {s : TransferState} (hSound : s.Sound)
    {events : List TransferEvent} (hRun : Guarded (transferStep config) WritesUnshared (idlePool s) events) :
    StayCompleted config s events := by
  have hHealthy : ∀ done, done <+: events → Pool.Healthy transferContract transferAct (reached config s done) :=
    fun done hDone => healthy_after hSound (hRun.before _ hDone)
  have hKeeps : ∀ done event, done ++ [event] <+: events → ∀ i op answer,
      (reached config s done).Makes event i op answer →
      Keeps i op (reached config s done).shared (reached config s (done ++ [event])).shared := by
    intro done event hDone i op answer hMakes
    rw [reached, reached, after_snoc]
    exact (hHealthy done ((List.prefix_append done [event]).trans hDone)).guarantee
      (admits_of_writes (hRun done event hDone)) hMakes
  refine ⟨fun done event hDone id task hTask hCompleted => ?_, fun done event hDone i path answer hMakes => ?_,
    fun done more hMore id task hCompleted hStored hStart part event hPart i op answer hMakes => ?_⟩
  · have hStep : (transferStep config (reached config s done) event).shared = (reached config s done).shared ∨
        ∃ i op answer, (reached config s done).Makes event i op answer ∧
          (transferStep config (reached config s done) event).shared =
            (transferAct i op answer (reached config s done).shared).2 := Pool.step_shared _ event
    rcases hStep with hSame | ⟨i, op, answer, hMakes, -⟩
    · left
      rw [reached, after_snoc, hSame]
      exact hTask
    · rcases (hKeeps done event hDone i op answer hMakes).completed id task hTask hCompleted with
        hKept | ⟨hGone, ⟨requestId, nowMs, rfl⟩, hCount⟩
      · exact .inl hKept
      · exact .inr ⟨hGone, ⟨i, requestId, nowMs, answer, hMakes⟩, hCount⟩
  · obtain ⟨id, hPending⟩ := (hKeeps done event hDone i _ answer hMakes).removal path rfl
    have hInv := (hHealthy done ((List.prefix_append done [event]).trans hDone)).1
    refine ⟨id, hPending, fun hPath => ⟨fun j id' hj => ?_, fun id' task hTask => ?_⟩⟩
    · obtain ⟨rfl, rfl⟩ := hInv.removed_once j i id' id path hPath hj hPending
      exact ⟨rfl, rfl⟩
    · exact hInv.removed_free i id path hPending id' task hTask
  · have hWithin : ∀ part, part <+: more → done ++ part <+: events := fun part hPart =>
      ((List.prefix_append_right_inj done).mpr hPart).trans hMore
    have hBetween : ∀ part, part <+: more → (reached config s (done ++ part)).shared.Serves id →
        BetweenTasks config (reached config s (done ++ part)) := by
      intro part
      induction part using List.reverseRecOn with
      | nil =>
        intro _ hServes
        rw [List.append_nil] at hServes ⊢
        exact hStart.resolve_left fun h => h hServes
      | append_singleton part last ih =>
        intro hPart hServes
        have hBefore : part <+: more := (List.prefix_append part [last]).trans hPart
        rw [← List.append_assoc, reached, after_snoc] at hServes ⊢
        exact between_step (hHealthy _ (hWithin part hBefore)).1 (hStored part hBefore) hCompleted (ih hBefore) hServes
    have hBefore : part <+: more := (List.prefix_append part [event]).trans hPart
    have hEvent : done ++ part ++ [event] <+: events := by
      rw [List.append_assoc]
      exact hWithin _ hPart
    exact served_ne (hHealthy _ (hWithin part hBefore)) (hRun _ event hEvent) (hBetween part hBefore) hMakes

def plantConfig : TransferConfig := { machineCode := "GW0001".toList }

def pullRequest (requestId : String) : RecordingRequest where
  requestId := requestId.toList
  machineCode := "GW0001".toList
  deviceCode := "AM5SE_1".toList
  action := "pull".toList
  fan := some 7
  sessionId := "S1".toList
  baseUrl := "https://platform/uploads/S1".toList
  token := "token".toList
  expireAtMs := some 60000
  partSize := some 65536

def platformAck (requestId : String) : RecordingAck where
  requestId := requestId.toList
  recordingId := "REC1".toList
  machineCode := "GW0001".toList
  status := "completed".toList

def fanFiles : Iec103ComtradeFiles where
  cfgPath := "/data/FAN00007.CFG".toList
  cfgBytes := 3
  datPath := "/data/FAN00007.DAT".toList
  datBytes := 3

def plantAnswers : (op : Call) → Except Failure (Answer op)
  | .findTask _ | .insertTask _ | .completeTask _ _ | .dueTask _ | .takeJob _ => .ok none
  | .applyTask _ => .ok true
  | .socketOf _ => .ok "/run/am5se_1.sock".toList
  | .command _ sent =>
    .ok { requestId := sent.requestId, action := .pull, stage := .localReady, fan := 7, files := fanFiles }
  | .fileSize _ => .ok (3 : Nat)
  | .sha256File _ => .ok "ab".toList
  | .readFile _ => .ok [1, 2, 3]
  | .upload _ _ => .ok { statusCode := 200 }
  | .deviceRecords _ => .ok []
  | .deviceFile _ _ _ => .ok [1, 2, 3]
  | .prepareFiles _ => .ok (0 : Nat)
  | .eraseTask _ | .publish _ | .connect _ | .removeFile _ | .updateActiveStage _ _ | .writeFile _ _ _
  | .dropFile _ _ | .renameFile _ _ _ | .reportRecords _ _ _ | .reportFiles _ _ _ | .reportFailure _ _ _
  | .clearActive _ => .ok ()

def calls (i : ThreadId) (n : Nat) : List TransferEvent := List.replicate n (.run i plantAnswers)

def writesQueue : Thread Unit → Bool
  | .call (.insertTask _) _ | .call (.applyTask _) _ => true
  | _ => false

def quietRun (config : TransferConfig) (p : TransferPool) : List TransferEvent → Bool
  | [] => true
  | .start i work :: rest => quietRun config (transferStep config p (.start i work)) rest
  | .run i answers :: rest =>
    !writesQueue (p.threads i) && quietRun config (transferStep config p (.run i answers)) rest

theorem guarded_of_quietRun {p : TransferPool} {events : List TransferEvent} (h : quietRun config p events = true) :
    Guarded (transferStep config) WritesUnshared p events := by
  induction events generalizing p with
  | nil => exact guarded_nil _ _ _
  | cons event rest ih =>
    rw [guarded_cons]
    cases event with
    | start i work =>
      refine ⟨?_, ih h⟩
      rintro j op answer ⟨answers, next, hEvent, -, -⟩
      cases hEvent
    | run i answers =>
      rw [quietRun, Bool.and_eq_true, Bool.not_eq_true'] at h
      refine ⟨?_, ih h.2⟩
      rintro j op answer ⟨answers', next, hEvent, hThread, -⟩
      cases hEvent
      rw [hThread] at h
      cases op with
      | insertTask task => cases h.1
      | applyTask task => cases h.1
      | _ => trivial

def acknowledgedA : Task :=
  { requestId := ['A'], action := .pull, deviceCode := "AM5SE_1".toList, fan := 7, stage := .completed }

def repeatedEvents : List TransferEvent :=
  .start (.handler 0) (.request (pullRequest "A") 2000) :: calls (.handler 0) 3

theorem acknowledged_stay_completed_of_repeat :
    StayCompleted plantConfig { tasks := (∅ : Tasks).insert ['A'] acknowledgedA } repeatedEvents :=
  acknowledged_stay_completed plantConfig
    (@TransferState.Sound.insert {} acknowledgedA TransferState.sound_empty fun _ hNames => absurd rfl hNames.2.1)
    (guarded_of_quietRun (by decide +kernel))

def sharedFanEvents : List TransferEvent :=
  .start (.handler 0) (.request (pullRequest "A") 1000) :: calls (.handler 0) 5 ++
  .start (.handler 1) (.request (pullRequest "B") 1000) :: calls (.handler 1) 5 ++
  .start .transferWorker (.pending 1000) :: calls .transferWorker 7 ++
  .start .transferWorker (.pending 1000) :: calls .transferWorker 18 ++
  .start .transferWorker (.pending 1000) :: calls .transferWorker 7 ++
  .start (.handler 2) (.ack (platformAck "A") 2000) :: calls (.handler 2) 1

def nextRemoval : Thread Unit → Option StdString
  | .call (.removeFile path) _ => some path
  | _ => none

theorem exists_of_nextRemoval {x : Thread Unit} {path : StdString} (h : nextRemoval x = some path) :
    ∃ next, x = .call (.removeFile path) next := by
  rw [nextRemoval.eq_def] at h
  split at h
  · obtain rfl := Option.some.inj h
    exact ⟨_, rfl⟩
  · cases h

/-- The acknowledgement of A removes the files that B is about to upload. -/
theorem acknowledgement_removes_files_of_other_task :
    ¬ StayCompleted plantConfig {} (sharedFanEvents ++ calls (.handler 2) 1) := by
  intro h
  have hNext : nextRemoval ((reached plantConfig {} sharedFanEvents).threads (.handler 2)) = some fanFiles.cfgPath := by
    decide +kernel
  have hOther : (reached plantConfig {} sharedFanEvents).shared.tasks[['B']]?.map (fun task => (task.stage, task.cfgPath)) =
      some (.localReady, fanFiles.cfgPath) := by
    decide +kernel
  obtain ⟨next, hThread⟩ := exists_of_nextRemoval hNext
  obtain ⟨task, hTask, hFields⟩ := Option.map_eq_some_iff.mp hOther
  obtain ⟨hStage, hPath⟩ := Prod.mk.inj hFields
  obtain ⟨id, -, hOnly⟩ := h.removed sharedFanEvents (.run (.handler 2) plantAnswers) (List.prefix_refl _)
    (.handler 2) fanFiles.cfgPath (plantAnswers _) ⟨plantAnswers, next, rfl, hThread, rfl⟩
  refine (hOnly (by decide)).2 ['B'] task hTask ⟨by decide, ?_, .inl hPath⟩
  rw [hStage]
  decide

end Runs

end EdgeGateway.Recording
