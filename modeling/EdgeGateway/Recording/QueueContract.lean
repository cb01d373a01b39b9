import EdgeGateway.Recording.ThreadCalls

/-! # What the threads of the transfer service keep -/

namespace EdgeGateway.Recording

open Script

def Task.Names (task : Task) (path : StdString) : Prop :=
  path ≠ [] ∧ task.stage ≠ .completed ∧ (task.cfgPath = path ∨ task.datPath = path)

namespace TransferState

variable {s : TransferState}

/-- No task needs the file, and no acknowledgement has still to remove it. -/
def Free (s : TransferState) (path : StdString) : Prop :=
  (∀ (id : StdString) task, s.tasks[id]? = some task → ¬ task.Names path) ∧
    ∀ i id, (id, path) ∉ s.pendingRemovals i

def Adopts (s : TransferState) (task : Task) : Prop :=
  ∀ path, task.Names path →
    (∃ stored, s.tasks[task.requestId]? = some stored ∧ stored.Names path) ∨ s.Free path

structure Sound (s : TransferState) : Prop where
  keyed : ∀ (id : StdString) task, s.tasks[id]? = some task → task.requestId = id
  unshared : ∀ (id id' : StdString) task task' path, s.tasks[id]? = some task → s.tasks[id']? = some task' →
    task.Names path → task'.Names path → id = id'
  removed_once : ∀ i i' id id' path, path ≠ [] → (id, path) ∈ s.pendingRemovals i →
    (id', path) ∈ s.pendingRemovals i' → i = i' ∧ id = id'
  removed_free : ∀ i id path, (id, path) ∈ s.pendingRemovals i →
    ∀ (id' : StdString) task, s.tasks[id']? = some task → ¬ task.Names path

theorem sound_empty : Sound {} where
  keyed id task h := by
    rw [Std.TreeMap.getElem?_emptyc] at h
    cases h
  unshared id id' task task' path h := by
    rw [Std.TreeMap.getElem?_emptyc] at h
    cases h
  removed_once i i' id id' path _ h := nomatch h
  removed_free i id path h := nomatch h

/-- A queue whose tasks were there before, or need no more files than before. -/
theorem Sound.of_tasks {tasks : Tasks} (h : s.Sound)
    (hTasks : ∀ (id : StdString) task, tasks[id]? = some task → task.requestId = id ∧
      ∀ path, task.Names path → ∃ stored, s.tasks[id]? = some stored ∧ stored.Names path) :
    Sound { s with tasks } where
  keyed id task hTask := (hTasks id task hTask).1
  unshared id id' task task' path hTask hTask' hNames hNames' := by
    obtain ⟨stored, hStored, hNamed⟩ := (hTasks id task hTask).2 path hNames
    obtain ⟨stored', hStored', hNamed'⟩ := (hTasks id' task' hTask').2 path hNames'
    exact h.unshared id id' stored stored' path hStored hStored' hNamed hNamed'
  removed_once := h.removed_once
  removed_free i id path hRemoval id' task hTask hNames := by
    obtain ⟨stored, hStored, hNamed⟩ := (hTasks id' task hTask).2 path hNames
    exact h.removed_free i id path hRemoval id' stored hStored hNamed

theorem Sound.insert {task : Task} (h : s.Sound) (hAdopts : s.Adopts task) :
    Sound { s with tasks := s.tasks.insert task.requestId task } where
  keyed id stored hStored := by
    by_cases hId : id = task.requestId
    · subst hId
      rw [getElem?_insert_self] at hStored
      rw [Option.some.inj hStored]
    · rw [getElem?_insert_of_ne _ _ hId] at hStored
      exact h.keyed id stored hStored
  unshared id id' first second path hFirst hSecond hNames hNames' := by
    have hOther : ∀ (other : StdString) t, s.tasks[other]? = some t → t.Names path → task.Names path →
        other = task.requestId := by
      intro other t hT hTNames hTask
      rcases hAdopts path hTask with ⟨stored, hStored, hNamed⟩ | hFree
      · exact h.unshared other task.requestId t stored path hT hStored hTNames hNamed
      · exact absurd hTNames (hFree.1 other t hT)
    by_cases hId : id = task.requestId
    · subst hId
      by_cases hId' : id' = task.requestId
      · exact hId'.symm
      · rw [getElem?_insert_self] at hFirst
        rw [getElem?_insert_of_ne _ _ hId'] at hSecond
        obtain rfl := Option.some.inj hFirst
        exact (hOther id' second hSecond hNames' hNames).symm
    · rw [getElem?_insert_of_ne _ _ hId] at hFirst
      by_cases hId' : id' = task.requestId
      · subst hId'
        rw [getElem?_insert_self] at hSecond
        obtain rfl := Option.some.inj hSecond
        exact hOther id first hFirst hNames hNames'
      · rw [getElem?_insert_of_ne _ _ hId'] at hSecond
        exact h.unshared id id' first second path hFirst hSecond hNames hNames'
  removed_once := h.removed_once
  removed_free i id path hRemoval id' stored hStored hNames := by
    by_cases hId : id' = task.requestId
    · subst hId
      rw [getElem?_insert_self] at hStored
      obtain rfl := Option.some.inj hStored
      rcases hAdopts path hNames with ⟨other, hOther, hNamed⟩ | hFree
      · exact h.removed_free i id path hRemoval _ other hOther hNamed
      · exact hFree.2 i id hRemoval
    · rw [getElem?_insert_of_ne _ _ hId] at hStored
      exact h.removed_free i id path hRemoval id' stored hStored hNames

theorem Sound.processing (h : s.Sound) (processing : Option Task) : Sound { s with processing } where
  keyed := h.keyed
  unshared := h.unshared
  removed_once := h.removed_once
  removed_free := h.removed_free

theorem Sound.erase (h : s.Sound) (requestId : StdString) : Sound { s with tasks := s.tasks.erase requestId } := by
  refine h.of_tasks fun id task hTask => ?_
  rw [Std.TreeMap.getElem?_erase] at hTask
  split at hTask
  · cases hTask
  · exact ⟨h.keyed id task hTask, fun path hNames => ⟨task, hTask, hNames⟩⟩

theorem mem_setRemovals {i j : ThreadId} {removals : List (StdString × StdString)} {removal : StdString × StdString}
    (h : removal ∈ (s.setRemovals i removals).pendingRemovals j) :
    (j = i ∧ removal ∈ removals) ∨ (j ≠ i ∧ removal ∈ s.pendingRemovals j) := by
  by_cases hj : j = i
  · subst hj
    rw [setRemovals_self] at h
    exact .inl ⟨rfl, h⟩
  · rw [setRemovals_of_ne _ hj] at h
    exact .inr ⟨hj, h⟩

theorem Sound.removed (h : s.Sound) (i : ThreadId) (path : StdString) :
    (s.setRemovals i ((s.pendingRemovals i).eraseP fun removal => removal.2 == path)).Sound := by
  have hMem : ∀ j removal, removal ∈ (s.setRemovals i
      ((s.pendingRemovals i).eraseP fun removal => removal.2 == path)).pendingRemovals j →
      removal ∈ s.pendingRemovals j := by
    intro j removal hRemoval
    rcases mem_setRemovals hRemoval with ⟨rfl, hErased⟩ | ⟨-, hOther⟩
    · exact List.mem_of_mem_eraseP hErased
    · exact hOther
  exact {
    keyed := h.keyed
    unshared := h.unshared
    removed_once := fun j j' id id' other hOther hj hj' =>
      h.removed_once j j' id id' other hOther (hMem j _ hj) (hMem j' _ hj')
    removed_free := fun j id other hj => h.removed_free j id other (hMem j _ hj) }

theorem acknowledged_names (task : Task) (nowMs : Int) (path : StdString) :
    ¬ (task.acknowledged nowMs).Names path := fun hNames => hNames.2.1 rfl

theorem completed_stored {tasks : Tasks} {requestId id : StdString} {task stored : Task} {nowMs : Int}
    (hComplete : s.tasks.complete requestId nowMs = some (task, tasks)) (hStored : tasks[id]? = some stored) :
    (id = requestId ∧ stored = task.acknowledged nowMs) ∨ (id ≠ requestId ∧ s.tasks[id]? = some stored) := by
  obtain ⟨rfl, -, -, -⟩ := Tasks.complete_eq_some hComplete
  have hInserted := Tasks.getElem?_of_pruneRounds _ hStored
  by_cases hId : id = requestId
  · subst hId
    rw [getElem?_insert_self] at hInserted
    exact .inl ⟨rfl, (Option.some.inj hInserted).symm⟩
  · rw [getElem?_insert_of_ne _ _ hId] at hInserted
    exact .inr ⟨hId, hInserted⟩

theorem Sound.completed {tasks : Tasks} {requestId : StdString} {task : Task} {nowMs : Int} (h : s.Sound)
    (hComplete : s.tasks.complete requestId nowMs = some (task, tasks)) : Sound { s with tasks } := by
  refine h.of_tasks fun id stored hStored => ?_
  rcases completed_stored hComplete hStored with ⟨rfl, rfl⟩ | ⟨-, hKept⟩
  · obtain ⟨-, hTask, -, -⟩ := Tasks.complete_eq_some hComplete
    exact ⟨h.keyed id task hTask, fun path hNames => absurd hNames (acknowledged_names task nowMs path)⟩
  · exact ⟨h.keyed id stored hKept, fun path hNames => ⟨stored, hKept, hNames⟩⟩

theorem Sound.acknowledge {tasks : Tasks} {requestId : StdString} {task : Task} {nowMs : Int} (h : s.Sound)
    (hComplete : s.tasks.complete requestId nowMs = some (task, tasks)) (i : ThreadId) :
    ({ s with tasks }.setRemovals i
      ((requestId, task.cfgPath) :: (requestId, task.datPath) :: s.pendingRemovals i)).Sound := by
  obtain ⟨-, hTask, -, hStage⟩ := Tasks.complete_eq_some hComplete
  have hUnfinished : task.stage ≠ .completed := by
    rcases hStage with hStage | hStage <;> rw [hStage] <;> decide
  have hMem : ∀ j id path, (id, path) ∈ ({ s with tasks }.setRemovals i
      ((requestId, task.cfgPath) :: (requestId, task.datPath) :: s.pendingRemovals i)).pendingRemovals j →
      (j = i ∧ id = requestId ∧ (task.cfgPath = path ∨ task.datPath = path)) ∨ (id, path) ∈ s.pendingRemovals j := by
    intro j id path hRemoval
    rcases mem_setRemovals hRemoval with ⟨rfl, hNew⟩ | ⟨-, hOld⟩
    · rcases List.mem_cons.mp hNew with hCfg | hRest
      · obtain ⟨rfl, rfl⟩ := Prod.mk.inj hCfg
        exact .inl ⟨rfl, rfl, .inl rfl⟩
      · rcases List.mem_cons.mp hRest with hDat | hOld
        · obtain ⟨rfl, rfl⟩ := Prod.mk.inj hDat
          exact .inl ⟨rfl, rfl, .inr rfl⟩
        · exact .inr hOld
    · exact .inr hOld
  refine ⟨(h.completed hComplete).keyed, (h.completed hComplete).unshared, ?_, ?_⟩
  · intro j j' id id' path hPath hj hj'
    rcases hMem j id path hj with ⟨rfl, rfl, hNamed⟩ | hOld
    · rcases hMem j' id' path hj' with ⟨rfl, rfl, -⟩ | hOld'
      · exact ⟨rfl, rfl⟩
      · exact absurd ⟨hPath, hUnfinished, hNamed⟩ (h.removed_free j' id' path hOld' _ task hTask)
    · rcases hMem j' id' path hj' with ⟨rfl, rfl, hNamed⟩ | hOld'
      · exact absurd ⟨hPath, hUnfinished, hNamed⟩ (h.removed_free j id path hOld _ task hTask)
      · exact h.removed_once j j' id id' path hPath hOld hOld'
  · intro j id path hj id' stored hStored hNames
    rcases completed_stored hComplete hStored with ⟨rfl, rfl⟩ | ⟨hId, hKept⟩
    · exact acknowledged_names task nowMs path hNames
    · rcases hMem j id path hj with ⟨-, rfl, hNamed⟩ | hOld
      · exact hId (h.unshared id' id stored task path hKept hTask hNames ⟨hNames.1, hUnfinished, hNamed⟩)
      · exact h.removed_free j id path hOld id' stored hKept hNames

def Serves (s : TransferState) (id : StdString) : Prop := ∃ task, s.processing = some task ∧ task.requestId = id

def Lists (s : TransferState) (id : StdString) : Prop :=
  ∃ task, s.tasks[id]? = some task ∧ task.action = .list ∧ task.stage ≠ .completed

end TransferState

def Call.served : Call → Option StdString
  | .command _ sent => some sent.requestId
  | .upload task _ => some task.requestId
  | _ => none

/-- What a call of thread `i` leaves alone. -/
structure Keeps (i : ThreadId) (op : Call) (s t : TransferState) : Prop where
  completed : ∀ (id : StdString) task, s.tasks[id]? = some task → task.stage = .completed →
    t.tasks[id]? = some task ∨ (t.tasks[id]? = none ∧ (∃ requestId nowMs, op = .completeTask requestId nowMs) ∧
      Tasks.maxCompletedTasks ≤ Tasks.completedCount s.tasks)
  listed : i ≠ .transferWorker → ∀ (id : StdString) task, s.tasks[id]? = some task → task.action = .list →
    task.stage ≠ .completed → t.tasks[id]? = some task
  processing : i ≠ .transferWorker → t.processing = s.processing
  removals : ∀ j, j ≠ i → t.pendingRemovals j = s.pendingRemovals j
  removal : ∀ path, op = .removeFile path → ∃ id, (id, path) ∈ s.pendingRemovals i
  served : ∀ id, op.served = some id → i = .transferWorker ∧ s.Serves id

/-- The files that a task is written with are its own already, or free. -/
def Allowed (s : TransferState) : Call → Prop
  | .insertTask task => s.tasks[task.requestId]? = none → s.Adopts task
  | .applyTask task => (s.tasks.applyTask task).isSome → s.Adopts task
  | _ => True

def transferContract : Contract ThreadId Call Answer Failure TransferState where
  inv := TransferState.Sound
  allowed _ op _ s := Allowed s op
  rely i s t := (i = .transferWorker → (∀ (id : StdString) task, s.tasks[id]? = some task → task.action = .list →
      task.stage ≠ .completed → t.tasks[id]? = some task) ∧ t.processing = s.processing) ∧
    t.pendingRemovals i = s.pendingRemovals i
  guarantee := Keeps
  rely_refl i s := ⟨fun _ => ⟨fun _ _ h _ _ => h, rfl⟩, rfl⟩
  rely_trans := by
    rintro i s t u ⟨hWorker, hOwn⟩ ⟨hWorker', hOwn'⟩
    refine ⟨fun hi => ⟨fun id task hTask hList hStage => ?_, ?_⟩, hOwn'.trans hOwn⟩
    · exact (hWorker' hi).1 id task ((hWorker hi).1 id task hTask hList hStage) hList hStage
    · exact (hWorker' hi).2.trans (hWorker hi).2
  compatible := by
    intro i j op s t hij _ _ hKeeps
    refine ⟨fun hi => ?_, hKeeps.removals i hij⟩
    have hj : j ≠ .transferWorker := fun hj => hij (hi.trans hj.symm)
    exact ⟨hKeeps.listed hj, hKeeps.processing hj⟩

section Calls

open TransferState

variable {s : TransferState} {i : ThreadId}

theorem Keeps.same {op : Call} (hRemoval : ∀ path, op ≠ .removeFile path)
    (hServed : ∀ id, op.served = some id → i = .transferWorker ∧ s.Serves id) : Keeps i op s s where
  completed _ _ h _ := .inl h
  listed _ _ _ h _ _ := h
  processing _ := rfl
  removals _ _ := rfl
  removal path h := absurd h (hRemoval path)
  served := hServed

theorem keeps_insertTask (task : Task) (answer : Except Failure (Option Task)) :
    Keeps i (.insertTask task) s (s.insertTask task answer).2 := by
  rw [TransferState.insertTask]
  cases hStored : s.tasks[task.requestId]? with
  | some stored => exact Keeps.same (fun _ h => nomatch h) (fun _ h => nomatch h)
  | none =>
    have hKept : ∀ (id : StdString) other, s.tasks[id]? = some other →
        (s.tasks.insert task.requestId task)[id]? = some other := by
      intro id other hOther
      rw [getElem?_insert_of_ne _ _ (fun hId => by rw [hId, hStored] at hOther; cases hOther)]
      exact hOther
    exact {
      completed := fun id other hOther _ => .inl (hKept id other hOther)
      listed := fun _ id other hOther _ _ => hKept id other hOther
      processing := fun _ => rfl
      removals := fun _ _ => rfl
      removal := fun _ h => nomatch h
      served := fun _ h => nomatch h }

theorem keeps_applyTask (task : Task) (answer : Except Failure Bool) :
    Keeps .transferWorker (.applyTask task) s (s.applyTask task answer).2 := by
  rw [TransferState.applyTask]
  cases hApply : s.tasks.applyTask task with
  | none => exact Keeps.same (fun _ h => nomatch h) (fun _ h => nomatch h)
  | some tasks =>
    obtain ⟨rfl, stored, hStored, hUnfinished⟩ := Tasks.applyTask_eq_some hApply
    refine ⟨fun id other hOther hCompleted => .inl ?_, fun h => absurd rfl h, fun h => absurd rfl h,
      fun _ _ => rfl, (fun _ h => nomatch h), (fun _ h => nomatch h)⟩
    have hId : id ≠ task.requestId := by
      rintro rfl
      rw [hStored] at hOther
      obtain rfl := Option.some.inj hOther
      exact hUnfinished hCompleted
    rw [← hOther]
    exact getElem?_insert_of_ne _ _ hId

theorem keeps_eraseTask {id : StdString} (h : s.Lists id) :
    Keeps .transferWorker (.eraseTask id) s (s.eraseTask id) := by
  obtain ⟨stored, hStored, -, hUnfinished⟩ := h
  refine ⟨fun other task hOther hCompleted => .inl ?_, fun h => absurd rfl h, fun h => absurd rfl h,
    fun _ _ => rfl, (fun _ h => nomatch h), (fun _ h => nomatch h)⟩
  have hId : other ≠ id := by
    rintro rfl
    rw [hStored] at hOther
    obtain rfl := Option.some.inj hOther
    exact hUnfinished hCompleted
  rw [← hOther]
  exact getElem?_erase_of_ne _ hId

theorem keeps_dueTask (nowMs : Int) : Keeps .transferWorker (.dueTask nowMs) s (s.dueTask nowMs) where
  completed _ _ h _ := .inl h
  listed h := absurd rfl h
  processing h := absurd rfl h
  removals _ _ := rfl
  removal _ h := nomatch h
  served _ h := nomatch h

theorem keeps_removeFile {id path : StdString} (h : (id, path) ∈ s.pendingRemovals i) :
    Keeps i (.removeFile path) s (s.removeFile i path) where
  completed _ _ h _ := .inl h
  listed _ _ _ h _ _ := h
  processing _ := rfl
  removals _ hj := setRemovals_of_ne _ hj _
  removal _ hPath := by
    obtain rfl := Call.removeFile.inj hPath
    exact ⟨id, h⟩
  served _ h := nomatch h

/-- Pruning takes completed tasks only, and only when there are more of them than are kept. -/
theorem complete_keeps {tasks : Tasks} {requestId : StdString} {task : Task} {nowMs : Int}
    (hComplete : s.tasks.complete requestId nowMs = some (task, tasks)) {id : StdString} {stored : Task}
    (hStored : s.tasks[id]? = some stored) (hId : id ≠ requestId) :
    tasks[id]? = some stored ∨ (tasks[id]? = none ∧ stored.stage = .completed ∧
      Tasks.maxCompletedTasks ≤ Tasks.completedCount s.tasks) := by
  obtain ⟨rfl, -, -, -⟩ := Tasks.complete_eq_some hComplete
  have hInserted : (s.tasks.insert requestId (task.acknowledged nowMs))[id]? = some stored := by
    rw [getElem?_insert_of_ne _ _ hId]
    exact hStored
  by_cases hUnfinished : stored.stage = .completed
  · by_cases hFew : Tasks.completedCount (s.tasks.insert requestId (task.acknowledged nowMs)) ≤ Tasks.maxCompletedTasks
    · left
      rw [Tasks.pruneCompletedLocked, Tasks.pruneRounds_of_le _ hFew]
      exact hInserted
    · cases hPruned : (Tasks.pruneCompletedLocked (s.tasks.insert requestId (task.acknowledged nowMs)))[id]? with
      | none =>
        refine .inr ⟨rfl, hUnfinished, ?_⟩
        have hCount : _ ≤ Tasks.completedCount s.tasks + 1 :=
          @Tasks.completedCount_insert_le s.tasks requestId (task.acknowledged nowMs)
        omega
      | some other =>
        rw [Tasks.getElem?_of_pruneRounds _ hPruned] at hInserted
        exact .inl hInserted
  · exact .inl (Tasks.pruneRounds_getElem? _ hInserted hUnfinished)

theorem keeps_completeTask (requestId : StdString) (nowMs : Int)
    (answer : Except Failure (Option Task)) :
    Keeps i (.completeTask requestId nowMs) s (s.completeTask i requestId nowMs answer).2 := by
  rw [TransferState.completeTask]
  cases hComplete : s.tasks.complete requestId nowMs with
  | none => exact Keeps.same (fun _ h => nomatch h) (fun _ h => nomatch h)
  | some taken =>
    obtain ⟨task, tasks⟩ := taken
    obtain ⟨-, hTask, hPull, hStage⟩ := Tasks.complete_eq_some hComplete
    have hUnfinished : task.stage ≠ .completed := by
      rcases hStage with hStage | hStage <;> rw [hStage] <;> decide
    have hCompleted : ∀ (id : StdString) stored, s.tasks[id]? = some stored → stored.stage = .completed →
        tasks[id]? = some stored ∨ (tasks[id]? = none ∧
          (∃ r n, Call.completeTask requestId nowMs = .completeTask r n) ∧
          Tasks.maxCompletedTasks ≤ Tasks.completedCount s.tasks) := by
      intro id stored hStored hStage
      have hId : id ≠ requestId := by
        rintro rfl
        rw [hTask] at hStored
        obtain rfl := Option.some.inj hStored
        exact hUnfinished hStage
      rcases complete_keeps hComplete hStored hId with hKept | ⟨hPruned, -, hCount⟩
      · exact .inl hKept
      · exact .inr ⟨hPruned, ⟨requestId, nowMs, rfl⟩, hCount⟩
    have hListed : ∀ (id : StdString) stored, s.tasks[id]? = some stored → stored.action = .list →
        stored.stage ≠ .completed → tasks[id]? = some stored := by
      intro id stored hStored hList hStage
      have hId : id ≠ requestId := by
        rintro rfl
        rw [hTask] at hStored
        obtain rfl := Option.some.inj hStored
        rw [hPull] at hList
        cases hList
      rcases complete_keeps hComplete hStored hId with hKept | ⟨-, hCompleted, -⟩
      · exact hKept
      · exact absurd hCompleted hStage
    cases answer with
    | error e =>
      exact ⟨hCompleted, fun _ => hListed, fun _ => rfl, fun _ _ => rfl, (fun _ h => nomatch h),
        (fun _ h => nomatch h)⟩
    | ok a =>
      exact ⟨hCompleted, fun _ => hListed, fun _ => rfl, fun _ hj => setRemovals_of_ne _ hj _,
        (fun _ h => nomatch h), (fun _ h => nomatch h)⟩

theorem Sound.insertTask {task : Task} (h : s.Sound) (hAdopts : s.tasks[task.requestId]? = none → s.Adopts task)
    (answer : Except Failure (Option Task)) : (s.insertTask task answer).2.Sound := by
  rw [TransferState.insertTask]
  cases hStored : s.tasks[task.requestId]? with
  | some stored => exact h
  | none => exact h.insert (hAdopts hStored)

theorem Sound.completeTask (h : s.Sound) (requestId : StdString) (nowMs : Int)
    (answer : Except Failure (Option Task)) : (s.completeTask i requestId nowMs answer).2.Sound := by
  rw [TransferState.completeTask]
  cases hComplete : s.tasks.complete requestId nowMs with
  | none => exact h
  | some taken =>
    cases answer with
    | error e => exact h.completed hComplete
    | ok a => exact h.acknowledge hComplete i

theorem Sound.applyTask {task : Task} (h : s.Sound) (hAdopts : (s.tasks.applyTask task).isSome → s.Adopts task)
    (answer : Except Failure Bool) : (s.applyTask task answer).2.Sound := by
  rw [TransferState.applyTask]
  cases hApply : s.tasks.applyTask task with
  | none => exact h
  | some tasks =>
    obtain ⟨rfl, -⟩ := Tasks.applyTask_eq_some hApply
    exact h.insert (hAdopts (by rw [hApply]; rfl))

theorem sound_act (op : Call) (h : s.Sound) (hAllowed : Allowed s op) (answer : Except Failure (Answer op)) :
    (transferAct i op answer s).2.Sound := by
  cases op with
  | insertTask task => exact Sound.insertTask h hAllowed answer
  | completeTask requestId nowMs => exact Sound.completeTask h requestId nowMs answer
  | dueTask nowMs => exact h.processing _
  | applyTask task => exact Sound.applyTask h hAllowed answer
  | eraseTask requestId => exact h.erase requestId
  | removeFile path => exact h.removed i path
  | _ => exact h

end Calls

section Handlers

open TransferState

variable {s : TransferState} {i : ThreadId} {config : TransferConfig}

theorem handleRequest_safe (request : RecordingRequest) (nowMs : Int) :
    (handleRequest config request nowMs).Safe transferAct transferContract i (fun _ _ => True) s := by
  refine Safe.of_only (fun _ => True) (handleRequest_only request nowMs) (fun _ _ _ _ => trivial) ?_ trivial
  intro op t answer hOp _ hInv hAllowed
  refine ⟨sound_act op hInv hAllowed answer, ?_, trivial⟩
  cases op with
  | findTask requestId => exact Keeps.same (fun _ h => nomatch h) (fun _ h => nomatch h)
  | insertTask task => exact keeps_insertTask task answer
  | publish notice => exact Keeps.same (fun _ h => nomatch h) (fun _ h => nomatch h)
  | socketOf deviceCode => exact Keeps.same (fun _ h => nomatch h) (fun _ h => nomatch h)
  | _ => exact hOp.elim

theorem completeTask_pending {requestId : StdString} {nowMs : Int} {answer : Except Failure (Option Task)}
    {task : Task} (h : (s.completeTask i requestId nowMs answer).1 = .ok (some task)) :
    (s.completeTask i requestId nowMs answer).2.pendingRemovals i =
      (requestId, task.cfgPath) :: (requestId, task.datPath) :: s.pendingRemovals i := by
  rw [TransferState.completeTask] at h ⊢
  cases hComplete : s.tasks.complete requestId nowMs with
  | none => rw [hComplete] at h; cases h
  | some completed =>
    rw [hComplete] at h
    cases answer with
    | error e => cases h
    | ok a =>
      obtain rfl : completed.1 = task := Option.some.inj (Except.ok.inj h)
      exact setRemovals_self _ i _

theorem handleAck_safe (ack : RecordingAck) (nowMs : Int) :
    (handleAck config ack nowMs).Safe transferAct transferContract i (fun _ _ => True) s := by
  rw [handleAck]
  have hRead : (lift (readAck config ack) : Thread StdString).Safe transferAct transferContract i
      (fun _ _ => True) s := fun _ _ _ => trivial
  refine Safe.bind hRead (fun requestId t hInv _ => ?_) (fun _ _ _ _ => trivial)
  refine Safe.perform_bind fun t _ hInv answer hAllowed =>
    ⟨sound_act (.completeTask requestId nowMs) hInv hAllowed answer, keeps_completeTask requestId nowMs answer, fun taken hTaken => ?_,
      fun _ _ _ _ _ => trivial⟩
  cases taken with
  | none => exact Safe.pure fun _ _ _ => trivial
  | some task =>
    have hPending := completeTask_pending hTaken
    change (transferAct i (.completeTask requestId nowMs) answer t).2.pendingRemovals i = _ at hPending
    generalize (transferAct i (.completeTask requestId nowMs) answer t).2 = completed at hPending
    refine Safe.perform_bind fun u hu hInv _ hAllowed => ?_
    have hOwn : u.pendingRemovals i = (requestId, task.cfgPath) :: (requestId, task.datPath) :: t.pendingRemovals i :=
      hu.2.trans hPending
    refine ⟨sound_act (.removeFile task.cfgPath) hInv hAllowed (.ok ()), keeps_removeFile (by rw [hOwn]; exact List.mem_cons_self),
      fun _ _ => ?_, fun _ h => nomatch h⟩
    refine Safe.perform_bind fun v hv hInv _ hAllowed => ?_
    have hRest : v.pendingRemovals i = (requestId, task.datPath) :: t.pendingRemovals i := by
      rw [hv.2]
      change (u.removeFile i task.cfgPath).pendingRemovals i = _
      rw [TransferState.removeFile, setRemovals_self, hOwn]
      exact List.eraseP_cons_of_pos (beq_self_eq_true _)
    refine ⟨sound_act (.removeFile task.datPath) hInv hAllowed (.ok ()), keeps_removeFile (by rw [hRest]; exact List.mem_cons_self),
      fun _ _ => ?_, fun _ h => nomatch h⟩
    exact Safe.perform fun w _ hInv answer hAllowed =>
      ⟨hInv, Keeps.same (fun _ h => nomatch h) (fun _ h => nomatch h), fun _ _ _ => trivial⟩

end Handlers

section Worker

open TransferState

variable {s : TransferState} {config : TransferConfig}

theorem serves_applyTask {id : StdString} (h : s.Serves id) (copy : Task) (saved : Except Failure Bool) :
    (s.applyTask copy saved).2.Serves id := by
  rw [TransferState.applyTask]
  split <;> exact h

theorem lists_applyTask {copy : Task} (h : s.Lists copy.requestId) (hList : copy.action = .list)
    (hStage : copy.stage ≠ .completed) (saved : Except Failure Bool) :
    (s.applyTask copy saved).2.Lists copy.requestId := by
  rw [TransferState.applyTask]
  cases hApply : s.tasks.applyTask copy with
  | none => exact h
  | some tasks =>
    obtain ⟨rfl, -⟩ := Tasks.applyTask_eq_some hApply
    exact ⟨copy, getElem?_insert_self _ _ _, hList, hStage⟩

/-- A call for the task that the worker has taken keeps the contract, and a list task listed. -/
theorem workerCall_keeps {id : StdString} {action : RecordingAction} {op : Call}
    (hOp : WorkerCall id action (fun _ sent => sent.requestId = id) False op)
    (hServes : s.Serves id) (answer : Except Failure (Answer op)) :
    Keeps .transferWorker op s (transferAct .transferWorker op answer s).2 ∧
      (transferAct .transferWorker op answer s).2.Serves id ∧
      (action = .list → s.Lists id → (transferAct .transferWorker op answer s).2.Lists id) := by
  cases op with
  | applyTask copy =>
    obtain ⟨rfl, rfl, hStage⟩ := hOp
    exact ⟨keeps_applyTask copy answer, serves_applyTask hServes copy answer,
      fun hList hLists => lists_applyTask hLists hList hStage answer⟩
  | eraseTask erased => exact hOp.1.elim
  | command socketPath sent =>
    refine ⟨Keeps.same (fun _ h => nomatch h) fun other h => ?_, hServes, fun _ h => h⟩
    obtain rfl : sent.requestId = other := Option.some.inj h
    exact ⟨rfl, hOp.symm ▸ hServes⟩
  | upload copy request =>
    refine ⟨Keeps.same (fun _ h => nomatch h) fun other h => ?_, hServes, fun _ h => h⟩
    obtain rfl : copy.requestId = other := Option.some.inj h
    exact ⟨rfl, hOp.symm ▸ hServes⟩
  | publish _ => exact ⟨Keeps.same (fun _ h => nomatch h) (fun _ h => nomatch h), hServes, fun _ h => h⟩
  | connect _ => exact ⟨Keeps.same (fun _ h => nomatch h) (fun _ h => nomatch h), hServes, fun _ h => h⟩
  | fileSize _ => exact ⟨Keeps.same (fun _ h => nomatch h) (fun _ h => nomatch h), hServes, fun _ h => h⟩
  | sha256File _ => exact ⟨Keeps.same (fun _ h => nomatch h) (fun _ h => nomatch h), hServes, fun _ h => h⟩
  | readFile _ => exact ⟨Keeps.same (fun _ h => nomatch h) (fun _ h => nomatch h), hServes, fun _ h => h⟩
  | _ => exact hOp.elim

theorem serves_stable {id : StdString} {t : TransferState} (h : transferContract.rely .transferWorker s t)
    (hServes : s.Serves id) : t.Serves id := by
  obtain ⟨task, hTask, hId⟩ := hServes
  exact ⟨task, (h.1 rfl).2.trans hTask, hId⟩

theorem lists_stable {id : StdString} {t : TransferState} (h : transferContract.rely .transferWorker s t)
    (hLists : s.Lists id) : t.Lists id := by
  obtain ⟨task, hTask, hList, hStage⟩ := hLists
  exact ⟨task, (h.1 rfl).1 id task hTask hList hStage, hList, hStage⟩

def Holds (task : Task) (s : TransferState) : Prop :=
  s.Serves task.requestId ∧ (task.action = .list → s.Lists task.requestId)

theorem safe_of_holds {α : Type} {task : Task} {x : Thread α}
    (hx : x.Only (WorkerCall task.requestId task.action (fun _ sent => sent.requestId = task.requestId) False))
    (hs : Holds task s) : x.Safe transferAct transferContract .transferWorker (fun _ => Holds task) s := by
  refine Safe.of_only (Holds task) hx ?_ ?_ hs
  · exact fun t u htu hHolds => ⟨serves_stable htu hHolds.1, fun hList => lists_stable htu (hHolds.2 hList)⟩
  · intro op t answer hOp hHolds hInv hAllowed
    obtain ⟨hKeeps, hServes, hLists⟩ := workerCall_keeps hOp hHolds.1 answer
    exact ⟨sound_act op hInv hAllowed answer, hKeeps, hServes, fun hList => hLists hList (hHolds.2 hList)⟩

theorem safe_of_serves {α : Type} {id : StdString} {action : RecordingAction} {x : Thread α}
    (hx : x.Only (WorkerCall id action (fun _ sent => sent.requestId = id) False)) (hs : s.Serves id) :
    x.Safe transferAct transferContract .transferWorker (fun _ t => t.Serves id) s := by
  refine Safe.of_only (fun t => t.Serves id) hx (fun t u htu hServes => serves_stable htu hServes) ?_ hs
  intro op t answer hOp hServes hInv hAllowed
  obtain ⟨hKeeps, hServes', -⟩ := workerCall_keeps hOp hServes answer
  exact ⟨sound_act op hInv hAllowed answer, hKeeps, hServes'⟩

theorem completeListTask_safe {task : Task} (hs : Holds task s) (hList : task.action = .list)
    (records : List Iec103DisturbanceRecord) (nowMs : Int) :
    (completeListTask task records nowMs).Safe transferAct transferContract .transferWorker
      (fun _ t => t.Serves task.requestId) s := by
  rw [completeListTask]
  refine Safe.bind (safe_of_holds (Only.perform trivial) hs) (fun _ t _ ht => ?_) fun _ _ _ h => h.1
  refine Safe.bind (safe_of_holds (publishStatus_only task _ _ _ _) ht) (fun _ t _ ht => ?_) fun _ _ _ h => h.1
  refine Safe.perform fun u hu hInv answer hAllowed => ?_
  have hServes := serves_stable hu ht.1
  exact ⟨sound_act (.eraseTask task.requestId) hInv hAllowed answer,
    keeps_eraseTask (lists_stable hu (ht.2 hList)), fun v hv _ => serves_stable hv hServes⟩

theorem processAnswer_safe {task : Task} (hs : Holds task s) (hStage : task.stage ≠ .completed)
    (status : Iec103RecordingJobStatus) (nowMs : Int) :
    (processAnswer task status nowMs).Safe transferAct transferContract .transferWorker
      (fun _ t => t.Serves task.requestId) s := by
  rw [processAnswer]
  split
  · split
    · exact safe_of_serves
        (writeBack_only { task with stage := .accepted, nextRetryAtMs := nowMs } (by intro hDone; cases hDone)) hs.1
    · exact Safe.throw fun t ht _ => serves_stable ht hs.1
  · split
    · let copy := { task with nextRetryAtMs := nowMs + 250 }
      exact safe_of_serves (Only.bind (writeBack_only copy hStage) fun _ => publishStatus_only copy _ _ _ _) hs.1
    · split
      · rename_i hList
        exact completeListTask_safe hs hList _ _
      · let copy := { task with
          cfgPath := status.files.cfgPath, cfgBytes := status.files.cfgBytes, datPath := status.files.datPath,
          datBytes := status.files.datBytes, stage := .localReady, nextRetryAtMs := nowMs }
        exact safe_of_serves
          (Only.bind (writeBack_only copy (by intro hDone; cases hDone)) fun _ => publishStatus_only copy _ _ _ _) hs.1

theorem processLocalCommand_safe {task : Task} (hs : Holds task s) (hStage : task.stage ≠ .completed)
    (nowMs : Int) :
    (processLocalCommand task nowMs).Safe transferAct transferContract .transferWorker
      (fun _ t => t.Serves task.requestId) s := by
  rw [processLocalCommand]
  split
  · have hSubmit : (submitCommand task).requestId = task.requestId := by
      rw [submitCommand]
      split <;> rfl
    refine Safe.bind (safe_of_holds (sendCommand_only hSubmit _ _) hs) (fun status t _ ht => ?_) fun _ _ _ h => h.1
    let copy := { task with stage := .localWait, nextRetryAtMs := nowMs + 250, lastError := [] }
    have hWaits : copy.stage ≠ .completed := by
      intro hDone
      cases hDone
    refine Safe.bind (safe_of_holds (writeBack_only copy hWaits) ht) (fun _ t _ ht => ?_) fun _ _ _ h => h.1
    refine Safe.bind (safe_of_holds (publishStatus_only copy _ _ _ _) ht) (fun _ t _ ht => ?_) fun _ _ _ h => h.1
    split
    · exact processAnswer_safe (show Holds copy t from ht) (by intro hDone; cases hDone) status nowMs
    · exact Safe.pure fun u hu _ => serves_stable hu ht.1
  · refine Safe.bind (safe_of_holds (sendCommand_only rfl _ _) hs) (fun status t _ ht => ?_) fun _ _ _ h => h.1
    exact processAnswer_safe ht hStage status nowMs

theorem processTask_safe {task : Task} (hs : Holds task s) (hStage : task.stage ≠ .completed) (nowMs : Int) :
    (processTask task nowMs).Safe transferAct transferContract .transferWorker
      (fun _ t => t.Serves task.requestId) s := by
  rw [processTask]
  split
  · exact processLocalCommand_safe hs hStage nowMs
  · split
    · exact safe_of_serves (processUpload_only task nowMs) hs.1
    · exact Safe.pure fun u hu _ => serves_stable hu hs.1

theorem runPendingOnce_safe (nowMs : Int) :
    (runPendingOnce config nowMs).Safe transferAct transferContract .transferWorker (fun _ _ => True) s := by
  rw [runPendingOnce]
  refine Safe.perform_bind fun t _ hInv answer hAllowed => ?_
  refine ⟨sound_act (.dueTask nowMs) hInv hAllowed answer, keeps_dueTask nowMs, fun taken hTaken => ?_,
    fun _ _ _ _ _ => trivial⟩
  have hDue : t.tasks.due nowMs = taken := Except.ok.inj hTaken
  cases taken with
  | none => exact Safe.pure fun _ _ _ => trivial
  | some task =>
    obtain ⟨key, hStored, -, -, hStage, -⟩ := Tasks.due_stored hDue
    obtain rfl := hInv.keyed key task hStored
    have hHolds : Holds task (t.dueTask nowMs) :=
      ⟨⟨task, hDue, rfl⟩, fun hList => ⟨task, hStored, hList, hStage⟩⟩
    refine Safe.tryCatch (processTask_safe hHolds hStage nowMs) (fun _ _ _ _ => trivial) fun failure u _ hServes => ?_
    exact (safe_of_serves (scheduleRetry_only task hStage _ nowMs _) hServes).weaken fun _ _ _ _ => trivial

end Worker

end EdgeGateway.Recording
