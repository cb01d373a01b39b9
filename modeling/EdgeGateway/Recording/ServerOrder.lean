import EdgeGateway.Foundation.Run
import EdgeGateway.Recording.CommandServer

/-! # The order of a command server -/

namespace EdgeGateway.Recording

namespace CommandServer

section Forgetting

variable {order : List StdString} {statuses : StringMap Iec103RecordingJobStatus} {id : StdString}

theorem forgetOldest_suffix (order : List StdString) (statuses : StringMap Iec103RecordingJobStatus) :
    (forgetOldest order statuses).1 <:+ order := by
  induction order generalizing statuses with
  | nil => exact List.suffix_refl _
  | cons oldest rest ih =>
    rw [forgetOldest]
    split
    · exact (ih _).trans (List.suffix_cons oldest rest)
    · exact List.suffix_refl _

theorem forgetOldest_length (order : List StdString) (statuses : StringMap Iec103RecordingJobStatus) :
    (forgetOldest order statuses).1.length = min order.length (maxRememberedJobs - 1) := by
  induction order generalizing statuses with
  | nil => rfl
  | cons oldest rest ih =>
    rw [forgetOldest]
    split
    · rename_i hFull
      rw [ih, List.length_cons]
      omega
    · rename_i hRoom
      rw [List.length_cons]
      rw [maxRememberedJobs] at hRoom ⊢
      omega

theorem forgetOldest_status (h : (forgetOldest order statuses).2[id]? = some status) : statuses[id]? = some status := by
  induction order generalizing statuses with
  | nil => exact h
  | cons oldest rest ih =>
    rw [forgetOldest] at h
    split at h
    · have hErased := ih h
      rw [Std.TreeMap.getElem?_erase] at hErased
      split at hErased
      · cases hErased
      · exact hErased
    · exact h

theorem forgetOldest_remembered (hNodup : order.Nodup) (h : ∀ id, id ∈ order ↔ (statuses[id]?).isSome = true) (id : StdString) :
    id ∈ (forgetOldest order statuses).1 ↔ ((forgetOldest order statuses).2[id]?).isSome = true := by
  induction order generalizing statuses with
  | nil => exact h id
  | cons oldest rest ih =>
    rw [forgetOldest]
    split
    · rw [List.nodup_cons] at hNodup
      refine ih hNodup.2 fun other => ?_
      by_cases hOther : other = oldest
      · subst hOther
        rw [getElem?_erase_self]
        exact iff_of_false hNodup.1 (by decide)
      · rw [getElem?_erase_of_ne _ hOther, ← h other, List.mem_cons]
        exact ⟨.inr, fun hMem => hMem.resolve_left hOther⟩
    · exact h id

end Forgetting

/-- The jobs of the server, the active one first, are among the requests that it remembers. -/
structure Ordered (server : CommandServer) (active : Option Job) : Prop where
  queued : (active.toList ++ server.jobs).map Job.requestId <:+ server.statusOrder
  nodup : server.statusOrder.Nodup
  remembered : ∀ id, id ∈ server.statusOrder ↔ (server.statuses[id]?).isSome = true
  room : server.jobs.length ≤ maxQueuedJobs

variable {server : CommandServer} {active : Option Job} {job : Job} {id : StdString}

theorem ordered_empty : Ordered {} none where
  queued := List.suffix_refl _
  nodup := List.nodup_nil
  remembered id := by
    rw [Std.TreeMap.getElem?_emptyc]
    exact iff_of_false List.not_mem_nil (by decide)
  room := Nat.zero_le _

theorem Ordered.mem (h : server.Ordered active) (hJob : job ∈ active.toList ++ server.jobs) :
    job.requestId ∈ server.statusOrder := h.queued.subset (List.mem_map_of_mem hJob)

theorem Ordered.clear (h : server.Ordered active) : server.clearActive.Ordered none where
  queued := by
    have hQueued := h.queued
    rw [List.map_append] at hQueued
    exact (List.suffix_append _ _).trans hQueued
  nodup := h.nodup
  remembered := h.remembered
  room := h.room

theorem Ordered.setStatus (h : server.Ordered active) (hId : id ∈ server.statusOrder)
    (assign : Iec103RecordingJobStatus → Iec103RecordingJobStatus) : (server.setStatus id assign).Ordered active where
  queued := h.queued
  nodup := h.nodup
  remembered other := by
    rw [CommandServer.setStatus]
    by_cases hOther : other = id
    · subst hOther
      rw [getElem?_insert_self]
      exact iff_of_true hId rfl
    · rw [getElem?_insert_of_ne _ _ hOther]
      exact h.remembered other
  room := h.room

theorem Ordered.updateActiveStage (h : server.Ordered active) (stage : JobStage) :
    (server.updateActiveStage stage).Ordered active := by
  rw [CommandServer.updateActiveStage.eq_def]
  split
  · exact h
  · cases hStatus : server.statuses[server.activeRequestId]? with
    | none => exact h
    | some status =>
      refine ⟨h.queued, h.nodup, fun other => ?_, h.room⟩
      by_cases hOther : other = server.activeRequestId
      · subst hOther
        rw [getElem?_insert_self, h.remembered, hStatus]
        rfl
      · rw [getElem?_insert_of_ne _ _ hOther]
        exact h.remembered other

theorem Ordered.takeJob (h : server.Ordered active) : (server.takeJob).2.Ordered (server.takeJob).1 := by
  rw [CommandServer.takeJob]
  cases hJobs : server.jobs with
  | nil =>
    refine ⟨?_, h.nodup, h.remembered, h.room⟩
    rw [hJobs]
    exact List.nil_suffix
  | cons job jobs =>
    have hQueued := h.queued
    rw [hJobs, List.map_append] at hQueued
    have hSuffix : (job :: jobs).map Job.requestId <:+ server.statusOrder := (List.suffix_append _ _).trans hQueued
    have hRoom := h.room
    rw [hJobs, List.length_cons] at hRoom
    have hTaken : { server with jobs, activeRequestId := job.requestId }.Ordered (some job) :=
      ⟨hSuffix, h.nodup, h.remembered, (Nat.le_succ _).trans hRoom⟩
    exact hTaken.setStatus (hSuffix.subset List.mem_cons_self)
      fun status => { status with stage := .deviceConnecting }

def queue (server : CommandServer) (job : Job) : CommandServer :=
  { server.rememberLocked { requestId := job.requestId, action := job.action, stage := .accepted, fan := job.fan } with
    jobs := server.jobs ++ [job] }

theorem Ordered.queue (h : server.Ordered active) (hForgotten : server.statuses[job.requestId]? = none)
    (hRoom : server.jobs.length < maxQueuedJobs) : (server.queue job).Ordered active := by
  have hNew : job.requestId ∉ server.statusOrder := by
    rw [h.remembered, hForgotten]
    decide
  have hSuffix := forgetOldest_suffix server.statusOrder server.statuses
  have hRemembered := forgetOldest_remembered h.nodup h.remembered
  have hLength := forgetOldest_length server.statusOrder server.statuses
  rw [CommandServer.queue, rememberLocked]
  generalize forgetOldest server.statusOrder server.statuses = kept at hSuffix hRemembered hLength
  obtain ⟨order, statuses⟩ := kept
  refine ⟨?_, ?_, fun other => ?_, ?_⟩
  · have hIds : (active.toList ++ server.jobs).map Job.requestId <:+ order := by
      refine List.suffix_of_suffix_length_le h.queued hSuffix ?_
      have hLe := h.queued.length_le
      have hActive : active.toList.length ≤ 1 := by
        cases active with
        | none => exact Nat.zero_le _
        | some active => exact Nat.le_refl _
      rw [List.length_map, List.length_append] at hLe ⊢
      dsimp only at hLength
      rw [maxRememberedJobs] at hLength
      rw [maxQueuedJobs] at hRoom
      omega
    rw [← List.append_assoc, List.map_append]
    obtain ⟨before, hBefore⟩ := hIds
    exact ⟨before, by rw [← List.append_assoc, hBefore]; rfl⟩
  · refine List.nodup_append.mpr ⟨hSuffix.sublist.nodup h.nodup, List.nodup_singleton _, ?_⟩
    rintro other hOther last hLast rfl
    have hSame : other = job.requestId := List.mem_singleton.mp hLast
    exact hNew (hSuffix.subset (hSame ▸ hOther))
  · rw [List.mem_append, List.mem_singleton]
    by_cases hOther : other = job.requestId
    · subst hOther
      rw [getElem?_insert_self]
      exact iff_of_true (.inr rfl) rfl
    · rw [getElem?_insert_of_ne _ _ hOther, ← hRemembered other]
      exact ⟨fun hMem => hMem.resolve_right hOther, .inl⟩
  · rw [List.length_append, List.length_singleton]
    exact hRoom

def Tells (server : CommandServer) (id : StdString) : Prop :=
  ∀ status, server.statuses[id]? = some status → status.errorCode ≠ "REQUEST_NOT_FOUND".toList ∧
    (status.stage = .accepted →
      ∃ job ∈ server.jobs, job.requestId = id ∧ job.action = status.action ∧ job.fan = status.fan)

/-- An assignment of the worker to a status: the request is not only accepted any more. -/
def Advances (assign : Iec103RecordingJobStatus → Iec103RecordingJobStatus) : Prop :=
  ∀ status, (assign status).stage ≠ .accepted ∧
    (status.errorCode ≠ "REQUEST_NOT_FOUND".toList → (assign status).errorCode ≠ "REQUEST_NOT_FOUND".toList)

theorem tells_setStatus {assign : Iec103RecordingJobStatus → Iec103RecordingJobStatus}
    (h : ∀ other, other ≠ id → server.Tells other) (hAssign : Advances assign)
    (hError : ∀ status, server.statuses[id]? = some status → status.errorCode ≠ "REQUEST_NOT_FOUND".toList)
    (other : StdString) : (server.setStatus id assign).Tells other := by
  intro status hStatus
  rw [CommandServer.setStatus] at hStatus
  by_cases hOther : other = id
  · subst hOther
    rw [getElem?_insert_self] at hStatus
    obtain rfl := Option.some.inj hStatus
    refine ⟨(hAssign _).2 ?_, fun hAccepted => absurd hAccepted (hAssign _).1⟩
    cases hBefore : server.statuses[other]? with
    | none => exact fun hSame => nomatch hSame
    | some before => exact hError before hBefore
  · rw [getElem?_insert_of_ne _ _ hOther] at hStatus
    exact h other hOther status hStatus

theorem tells_updateActiveStage (h : ∀ other, server.Tells other) {stage : JobStage} (hStage : stage ≠ .accepted)
    (other : StdString) : (server.updateActiveStage stage).Tells other := by
  rw [CommandServer.updateActiveStage.eq_def]
  split
  · exact h other
  · cases hActive : server.statuses[server.activeRequestId]? with
    | none => exact h other
    | some active =>
      intro status hStatus
      by_cases hOther : other = server.activeRequestId
      · subst hOther
        rw [getElem?_insert_self] at hStatus
        obtain rfl := Option.some.inj hStatus
        exact ⟨(h _ active hActive).1, fun hAccepted => absurd hAccepted hStage⟩
      · rw [getElem?_insert_of_ne _ _ hOther] at hStatus
        exact h other status hStatus

theorem tells_takeJob {jobs : List Job} (h : ∀ other, server.Tells other) (hJobs : server.jobs = job :: jobs)
    (other : StdString) : (server.takeJob).2.Tells other := by
  have hAssign : Advances fun status => { status with stage := .deviceConnecting } :=
    fun status => ⟨(nomatch ·), fun hError => hError⟩
  have hError : ∀ status, server.statuses[job.requestId]? = some status →
      status.errorCode ≠ "REQUEST_NOT_FOUND".toList := fun status hStatus => (h _ status hStatus).1
  have hRest : ∀ other, other ≠ job.requestId → { server with jobs, activeRequestId := job.requestId }.Tells other := by
    intro other hOther status hStatus
    refine ⟨(h other status hStatus).1, fun hAccepted => ?_⟩
    obtain ⟨waiting, hWaiting, hId, hSame⟩ := (h other status hStatus).2 hAccepted
    rw [hJobs] at hWaiting
    obtain rfl | hLater := List.mem_cons.mp hWaiting
    · exact absurd hId.symm hOther
    · exact ⟨waiting, hLater, hId, hSame⟩
  rw [CommandServer.takeJob, hJobs]
  exact tells_setStatus hRest hAssign hError other

theorem tells_queue (h : ∀ other, server.Tells other) (job : Job) (other : StdString) :
    (server.queue job).Tells other := by
  intro status hStatus
  rw [CommandServer.queue, rememberLocked] at hStatus
  by_cases hOther : other = job.requestId
  · subst hOther
    rw [getElem?_insert_self] at hStatus
    obtain rfl := Option.some.inj hStatus
    exact ⟨(nomatch ·), fun _ => ⟨job, by simp [CommandServer.queue], rfl, rfl, rfl⟩⟩
  · rw [getElem?_insert_of_ne _ _ hOther] at hStatus
    obtain ⟨hError, hAccepted⟩ := h other status (forgetOldest_status hStatus)
    refine ⟨hError, fun hStage => ?_⟩
    obtain ⟨waiting, hWaiting, hSame⟩ := hAccepted hStage
    exact ⟨waiting, List.mem_append_left _ hWaiting, hSame⟩

theorem submit_cases (h : ∀ other, server.Tells other) (job : Job) :
    ((server.submit job).2 = server ∧ ((server.submit job).1.stage = .accepted → job ∈ server.jobs)) ∨
      (server.statuses[job.requestId]? = none ∧ server.jobs.length < maxQueuedJobs ∧
        (server.submit job).1.stage = .accepted ∧ (server.submit job).2 = server.queue job) := by
  rw [submit]
  cases hStatus : server.statuses[job.requestId]? with
  | some existing =>
    dsimp only
    split
    · exact .inl ⟨rfl, fun hStage => nomatch hStage⟩
    · rename_i hSame
      simp only [not_or, not_not] at hSame
      refine .inl ⟨rfl, fun hStage => ?_⟩
      obtain ⟨waiting, hWaiting, hId, hAction, hFan⟩ := (h _ existing hStatus).2 hStage
      have hJob : waiting = job := by
        rw [hSame.1] at hAction
        rw [hSame.2] at hFan
        obtain ⟨_, _, _⟩ := waiting
        obtain ⟨_, _, _⟩ := job
        dsimp only at hId hAction hFan
        subst hId hAction hFan
        rfl
      exact hJob ▸ hWaiting
  | none =>
    dsimp only
    split
    · exact .inl ⟨rfl, fun hStage => nomatch hStage⟩
    · rename_i hRoom
      exact .inr ⟨rfl, Nat.lt_of_not_le hRoom, rfl, rfl⟩

end CommandServer

/-- Where the worker is in its loop. -/
inductive WorkerPhase where
  | waiting
  | working (job : Job)
  | reported (job : Job)

def WorkerPhase.job? : WorkerPhase → Option Job
  | waiting => none
  | working job => some job
  | reported job => some job

inductive PullStage where
  | directory
  | cfg
  | dat

def PullStage.stage : PullStage → JobStage
  | directory => .pullingDirectory
  | cfg => .pullingCfg
  | dat => .pullingDat

inductive JobOutcome where
  | records (records : List Iec103DisturbanceRecord)
  | files (files : Iec103ComtradeFiles)
  | failure (what : StdString)

def JobOutcome.assign : JobOutcome → Iec103RecordingJobStatus → Iec103RecordingJobStatus
  | .records found, status =>
    { status with records := found, stage := .completed, message := "recording directory ready".toList }
  | .files pulled, status =>
    { status with files := pulled, stage := .localReady, message := "COMTRADE recording is ready locally".toList }
  | .failure what, status =>
    { status with stage := .failed, retryable := true, errorCode := "DEVICE_IO_FAILED".toList, message := what }

/-- What is done under the lock of the server; the last four are of its worker. -/
inductive QueueEvent where
  | submit (job : Job)
  | find (requestId : StdString)
  | takeJob
  | updateActiveStage (stage : PullStage)
  | report (outcome : JobOutcome)
  | clearActive

/-- Beside the server stand the jobs that were accepted, started and finished so far. -/
structure QueueRun where
  server : CommandServer := {}
  phase : WorkerPhase := .waiting
  accepted : List Job := []
  started : List Job := []
  finished : List Job := []

namespace QueueRun

/-- A job that is submitted again while it waits is the same job. -/
def step (run : QueueRun) : QueueEvent → QueueRun
  | .submit job =>
    let (answer, server) := run.server.submit job
    { run with
      server
      accepted := if answer.stage = .accepted ∧ job ∉ run.server.jobs then run.accepted ++ [job] else run.accepted }
  | .find _ => run
  | .takeJob =>
    match run.phase, run.server.takeJob with
    | .waiting, (some job, server) =>
      { run with server, phase := .working job, started := run.started ++ [job] }
    | _, _ => run
  | .updateActiveStage stage => { run with server := run.server.updateActiveStage stage.stage }
  | .report outcome =>
    match run.phase with
    | .working job => { run with server := run.server.setStatus job.requestId outcome.assign, phase := .reported job }
    | _ => run
  | .clearActive =>
    match run.phase with
    | .reported job =>
      { run with server := run.server.clearActive, phase := .waiting, finished := run.finished ++ [job] }
    | _ => run

structure Invariant (run : QueueRun) : Prop where
  ordered : run.server.Ordered run.phase.job?
  tells : ∀ id, run.server.Tells id
  served : run.accepted = run.started ++ run.server.jobs
  single : run.started = run.finished ++ run.phase.job?.toList
  bounded : run.server.statusOrder.length ≤ maxRememberedJobs

variable {run : QueueRun}

theorem Invariant.submit (h : run.Invariant) (job : Job) : (run.step (.submit job)).Invariant := by
  obtain ⟨hServer, hWaits⟩ | ⟨hForgotten, hRoom, hStage, hServer⟩ := CommandServer.submit_cases h.tells job
  · have hSame : run.step (.submit job) = run := by
      rw [step]
      dsimp only
      rw [hServer, if_neg fun hNew => hNew.2 (hWaits hNew.1)]
    rw [hSame]
    exact h
  · have hNew : job ∉ run.server.jobs := by
      intro hMem
      have hKnown := (h.ordered.remembered _).mp (h.ordered.mem (List.mem_append_right _ hMem))
      rw [hForgotten] at hKnown
      cases hKnown
    have hStep : run.step (.submit job) =
        { run with server := run.server.queue job, accepted := run.accepted ++ [job] } := by
      rw [step]
      dsimp only
      rw [hServer, if_pos ⟨hStage, hNew⟩]
    rw [hStep]
    refine ⟨h.ordered.queue hForgotten hRoom, CommandServer.tells_queue h.tells job, ?_, h.single, ?_⟩
    · change run.accepted ++ [job] = run.started ++ (run.server.jobs ++ [job])
      rw [h.served, List.append_assoc]
    · have hLength := CommandServer.forgetOldest_length run.server.statusOrder run.server.statuses
      change ((CommandServer.forgetOldest _ _).1 ++ [job.requestId]).length ≤ _
      rw [List.length_append, hLength, List.length_singleton, maxRememberedJobs]
      omega

theorem Invariant.takeJob (h : run.Invariant) : (run.step .takeJob).Invariant := by
  rw [step]
  split
  · rename_i job server hPhase hTake
    cases hJobs : run.server.jobs with
    | nil =>
      rw [CommandServer.takeJob, hJobs] at hTake
      cases hTake
    | cons first jobs =>
      have hOrdered := h.ordered.takeJob
      have hTells := CommandServer.tells_takeJob h.tells hJobs
      rw [hTake] at hOrdered hTells
      rw [CommandServer.takeJob, hJobs] at hTake
      obtain ⟨hFirst, rfl⟩ := Prod.mk.inj hTake
      obtain rfl := Option.some.inj hFirst
      refine ⟨hOrdered, hTells, ?_, ?_, h.bounded⟩
      · rw [h.served, hJobs, List.append_assoc]
        rfl
      · have hSingle := h.single
        rw [hPhase] at hSingle
        dsimp only
        rw [hSingle, List.append_assoc]
        rfl
  · exact h

theorem advances_outcome (outcome : JobOutcome) : CommandServer.Advances outcome.assign := by
  cases outcome with
  | records found => exact fun status => ⟨(nomatch ·), fun h => h⟩
  | files pulled => exact fun status => ⟨(nomatch ·), fun h => h⟩
  | failure what => exact fun status => ⟨(nomatch ·), fun _ => (nomatch ·)⟩

theorem Invariant.report (h : run.Invariant) (outcome : JobOutcome) : (run.step (.report outcome)).Invariant := by
  rw [step]
  split
  · rename_i job hPhase
    have hOrdered := h.ordered
    have hSingle := h.single
    rw [hPhase] at hOrdered hSingle
    have hKnown : job.requestId ∈ run.server.statusOrder := hOrdered.mem List.mem_cons_self
    exact ⟨hOrdered.setStatus hKnown _, CommandServer.tells_setStatus (fun other _ => h.tells other)
      (advances_outcome outcome) fun status hStatus => (h.tells _ status hStatus).1, h.served, hSingle, h.bounded⟩
  · exact h

theorem Invariant.clearActive (h : run.Invariant) : (run.step .clearActive).Invariant := by
  rw [step]
  split
  · rename_i job hPhase
    have hSingle := h.single
    rw [hPhase] at hSingle
    exact ⟨h.ordered.clear, h.tells, h.served, hSingle.trans (List.append_nil _).symm, h.bounded⟩
  · exact h

theorem Invariant.step (h : run.Invariant) (event : QueueEvent) : (run.step event).Invariant := by
  cases event with
  | submit job => exact h.submit job
  | find requestId => exact h
  | takeJob => exact h.takeJob
  | updateActiveStage stage =>
    have hStage : stage.stage ≠ .accepted := by cases stage <;> decide
    have hFields : ∀ stage, (run.server.updateActiveStage stage).jobs = run.server.jobs ∧
        (run.server.updateActiveStage stage).statusOrder = run.server.statusOrder := by
      intro stage
      rw [CommandServer.updateActiveStage.eq_def]
      split
      · exact ⟨rfl, rfl⟩
      · split <;> exact ⟨rfl, rfl⟩
    refine ⟨h.ordered.updateActiveStage _, CommandServer.tells_updateActiveStage h.tells hStage, ?_, h.single, ?_⟩
    · exact h.served.trans (by rw [QueueRun.step, (hFields _).1])
    · rw [QueueRun.step, (hFields _).2]
      exact h.bounded
  | report outcome => exact h.report outcome
  | clearActive => exact h.clearActive

def after (events : List QueueEvent) : QueueRun := Run.after step {} events

theorem after_invariant (events : List QueueEvent) : (after events).Invariant := by
  refine Run.invariant_along step Invariant ?_ (fun _ event _ h => h.step event) events (List.prefix_refl events)
  refine ⟨CommandServer.ordered_empty, ?_, rfl, rfl, Nat.zero_le _⟩
  intro id status hStatus
  rw [Std.TreeMap.getElem?_emptyc] at hStatus
  cases hStatus

/-- One turn of the worker, from wherever it is, that ends with the next job taken. -/
def turn : List QueueEvent := [.report (.failure []), .clearActive, .takeJob]

theorem after_turn (run : QueueRun) : (Run.after step run turn).server.jobs = run.server.jobs.tail ∧
    (Run.after step run turn).accepted = run.accepted := by
  have hTake : ∀ run : QueueRun, run.phase = .waiting →
      (run.step .takeJob).server.jobs = run.server.jobs.tail ∧ (run.step .takeJob).accepted = run.accepted := by
    intro run hPhase
    rw [step, hPhase, CommandServer.takeJob]
    cases hJobs : run.server.jobs with
    | nil => exact ⟨hJobs, rfl⟩
    | cons job jobs => exact ⟨rfl, rfl⟩
  obtain ⟨server, _ | job | job, accepted, started, finished⟩ := run
  · exact hTake ⟨server, .waiting, accepted, started, finished⟩ rfl
  · exact hTake ⟨(server.setStatus job.requestId (JobOutcome.failure []).assign).clearActive, .waiting, accepted, started,
      finished ++ [job]⟩ rfl
  · exact hTake ⟨server.clearActive, .waiting, accepted, started, finished ++ [job]⟩ rfl

theorem after_turns (n : Nat) (run : QueueRun) :
    (Run.after step run (List.replicate n turn).flatten).server.jobs = run.server.jobs.drop n ∧
      (Run.after step run (List.replicate n turn).flatten).accepted = run.accepted := by
  induction n generalizing run with
  | zero => exact ⟨rfl, rfl⟩
  | succ n ih =>
    obtain ⟨hJobs, hAccepted⟩ := after_turn run
    obtain ⟨hRest, hSame⟩ := ih (Run.after step run turn)
    rw [List.replicate_succ, List.flatten_cons, Run.after_append, hRest, hSame, hJobs, List.drop_tail]
    exact ⟨rfl, hAccepted⟩

/-- Accepted jobs are started in their order, one at a time, and none that waits or runs is forgotten. -/
structure Kept (run : QueueRun) : Prop where
  inOrder : run.accepted = run.started ++ run.server.jobs
  oneAtATime : run.started = run.finished ++ run.phase.job?.toList
  found : ∀ job ∈ run.phase.job?.toList ++ run.server.jobs,
    run.server.statuses[job.requestId]? = some (run.server.find job.requestId) ∧
      (run.server.find job.requestId).errorCode ≠ "REQUEST_NOT_FOUND".toList
  sameIds : ∀ id, id ∈ run.server.statusOrder ↔ (run.server.statuses[id]?).isSome = true
  nodup : run.server.statusOrder.Nodup
  orderBounded : run.server.statusOrder.length ≤ 128
  statusesBounded : run.server.statuses.size ≤ 128

theorem Invariant.kept (h : run.Invariant) : run.Kept where
  inOrder := h.served
  oneAtATime := h.single
  found job hJob := by
    have hKnown := (h.ordered.remembered _).mp (h.ordered.mem hJob)
    obtain ⟨status, hStatus⟩ := Option.isSome_iff_exists.mp hKnown
    have hFind : run.server.find job.requestId = status := by rw [CommandServer.find, hStatus]
    rw [hFind]
    exact ⟨hStatus, (h.tells _ status hStatus).1⟩
  sameIds := h.ordered.remembered
  nodup := h.ordered.nodup
  orderBounded := h.bounded
  statusesBounded := by
    have hPerm : run.server.statuses.keys.Perm run.server.statusOrder := by
      rw [List.perm_ext_iff_of_nodup Std.TreeMap.nodup_keys h.ordered.nodup]
      intro id
      rw [Std.TreeMap.mem_keys, ← Std.TreeMap.isSome_getElem?_iff_mem, h.ordered.remembered]
    rw [← Std.TreeMap.length_keys, hPerm.length_eq]
    exact h.bounded

/-- In every run, and the worker can start every job that was accepted. -/
theorem queue_kept (events : List QueueEvent) : (after events).Kept ∧
    ∃ n, (after (events ++ (List.replicate n turn).flatten)).started = (after events).accepted := by
  refine ⟨(after_invariant events).kept, (after events).server.jobs.length, ?_⟩
  have hServed := (after_invariant (events ++ (List.replicate (after events).server.jobs.length turn).flatten)).served
  obtain ⟨hJobs, hAccepted⟩ := after_turns (after events).server.jobs.length (after events)
  have hSame : after (events ++ (List.replicate (after events).server.jobs.length turn).flatten) =
      Run.after step (after events) (List.replicate (after events).server.jobs.length turn).flatten :=
    Run.after_append step {} events _
  rw [hSame, hJobs, hAccepted, List.drop_length, List.append_nil] at hServed
  rw [hSame]
  exact hServed.symm

end QueueRun

end EdgeGateway.Recording
