import EdgeGateway.Recording.CommandServer

/-! # The queue of recording transfers -/

namespace EdgeGateway.Recording

inductive TaskStage where
  | accepted
  | localWait
  | localReady
  | uploading
  | awaitingAck
  | completed
  | failed
deriving DecidableEq, Repr

structure Task where
  requestId : StdString
  action : RecordingAction
  deviceCode : StdString
  fan : Int := -1
  sessionId : StdString := []
  baseUrl : StdString := []
  token : StdString := []
  expireAtMs : Int := 0
  partSize : Nat := 4 * 1024 * 1024
  socketPath : StdString := []
  stage : TaskStage := .accepted
  cfgPath : StdString := []
  cfgBytes : Nat := 0
  cfgSha256 : StdString := []
  datPath : StdString := []
  datBytes : Nat := 0
  datSha256 : StdString := []
  retryCount : Nat := 0
  nextRetryAtMs : Int := 0
  lastError : StdString := []
deriving DecidableEq, Repr

def Task.conflictsWith (existing task : Task) : Bool :=
  existing.action != task.action || existing.deviceCode != task.deviceCode || existing.fan != task.fan

def Task.acknowledged (task : Task) (nowMs : Int) : Task :=
  { task with
    stage := .completed, sessionId := [], baseUrl := [], token := [], expireAtMs := 0, partSize := 0,
    socketPath := [], cfgPath := [], cfgBytes := 0, cfgSha256 := [], datPath := [], datBytes := 0,
    datSha256 := [], retryCount := 0, nextRetryAtMs := nowMs, lastError := [] }

abbrev Tasks := StringMap Task

namespace Tasks

def maxCompletedTasks : Nat := 128

def completedCount (tasks : Tasks) : Nat := tasks.toList.countP fun entry => entry.2.stage == .completed

def oldestCompleted (tasks : Tasks) : Option (StdString × Task) :=
  (tasks.toList.filter fun entry => entry.2.stage == .completed).foldl (fun oldest entry =>
    match oldest with
    | none => some entry
    | some best => if entry.2.nextRetryAtMs < best.2.nextRetryAtMs then some entry else oldest) none

/-- Each round of the loop removes a task, so there are no more rounds than tasks. -/
def pruneRounds : Nat → Tasks → Tasks
  | 0, tasks => tasks
  | rounds + 1, tasks =>
    if completedCount tasks ≤ maxCompletedTasks then tasks
    else match oldestCompleted tasks with
      | none => tasks
      | some oldest => pruneRounds rounds (tasks.erase oldest.1)

def pruneCompletedLocked (tasks : Tasks) : Tasks := pruneRounds tasks.size tasks

/-- The lock section of `handleAck`: the task as it was, when the acknowledgement is taken. -/
def complete (tasks : Tasks) (requestId : StdString) (nowMs : Int) : Option (Task × Tasks) :=
  match tasks[requestId]? with
  | none => none
  | some task =>
    if task.stage = .completed then none
    else if task.action ≠ .pull ∨ (task.stage ≠ .uploading ∧ task.stage ≠ .awaitingAck) then none
    else some (task, pruneCompletedLocked (tasks.insert requestId (task.acknowledged nowMs)))

def due (tasks : Tasks) (nowMs : Int) : Option Task :=
  (tasks.toList.find? fun entry =>
    !(entry.2.stage == .failed || entry.2.stage == .awaitingAck || entry.2.stage == .completed ||
      decide (nowMs < entry.2.nextRetryAtMs))).map Prod.snd

def applyTask (tasks : Tasks) (task : Task) : Option Tasks :=
  match tasks[task.requestId]? with
  | none => none
  | some stored => if stored.stage = .completed then none else some (tasks.insert task.requestId task)

section Lemmas

variable {tasks : Tasks} {requestId id : StdString} {task stored : Task} {nowMs : Int}

theorem due_stored (h : tasks.due nowMs = some task) :
    ∃ key : StdString, tasks[key]? = some task ∧ task.stage ≠ .failed ∧ task.stage ≠ .awaitingAck ∧
      task.stage ≠ .completed ∧ task.nextRetryAtMs ≤ nowMs := by
  rw [due, Option.map_eq_some_iff] at h
  obtain ⟨⟨key, found⟩, hFind, rfl⟩ := h
  have hMem := Std.TreeMap.mem_toList_iff_getElem?_eq_some.mp (List.mem_of_find?_eq_some hFind)
  have hDue := List.find?_some hFind
  simp only [Bool.not_eq_true', Bool.or_eq_false_iff, beq_eq_false_iff_ne, decide_eq_false_iff_not,
    Int.not_lt] at hDue
  obtain ⟨⟨⟨hFailed, hAwaiting⟩, hCompleted⟩, hTime⟩ := hDue
  exact ⟨key, hMem, hFailed, hAwaiting, hCompleted, hTime⟩

theorem applyTask_eq_some {tasks' : Tasks} (h : tasks.applyTask task = some tasks') :
    tasks' = tasks.insert task.requestId task ∧
      ∃ stored, tasks[task.requestId]? = some stored ∧ stored.stage ≠ .completed := by
  rw [applyTask] at h
  cases hStored : tasks[task.requestId]? with
  | none => rw [hStored] at h; cases h
  | some stored =>
    rw [hStored] at h
    dsimp only at h
    by_cases hCompleted : stored.stage = .completed
    · rw [if_pos hCompleted] at h
      cases h
    · rw [if_neg hCompleted] at h
      exact ⟨(Option.some.inj h).symm, stored, rfl, hCompleted⟩

theorem complete_eq_some {tasks' : Tasks} (h : tasks.complete requestId nowMs = some (task, tasks')) :
    tasks' = pruneCompletedLocked (tasks.insert requestId (task.acknowledged nowMs)) ∧
      tasks[requestId]? = some task ∧ task.action = .pull ∧ (task.stage = .uploading ∨ task.stage = .awaitingAck) := by
  rw [complete] at h
  cases hStored : tasks[requestId]? with
  | none => rw [hStored] at h; cases h
  | some stored =>
    rw [hStored] at h
    dsimp only at h
    split at h
    · cases h
    · split at h
      · cases h
      · rename_i hTaken
        obtain ⟨rfl, rfl⟩ := Prod.mk.inj (Option.some.inj h)
        rw [not_or, not_not, not_and_or, not_not, not_not] at hTaken
        exact ⟨rfl, rfl, hTaken⟩

theorem oldestCompleted_stored {oldest : StdString × Task} (h : tasks.oldestCompleted = some oldest) :
    tasks[oldest.1]? = some oldest.2 ∧ oldest.2.stage = .completed := by
  have hFold : ∀ (entries : List (StdString × Task)) (best : Option (StdString × Task)),
      (∀ entry ∈ entries, tasks[entry.1]? = some entry.2 ∧ entry.2.stage = .completed) →
      (∀ entry, best = some entry → tasks[entry.1]? = some entry.2 ∧ entry.2.stage = .completed) →
      ∀ oldest, entries.foldl (fun oldest entry => match oldest with
        | none => some entry
        | some best => if entry.2.nextRetryAtMs < best.2.nextRetryAtMs then some entry else oldest) best =
        some oldest → tasks[oldest.1]? = some oldest.2 ∧ oldest.2.stage = .completed := by
    intro entries
    induction entries with
    | nil => exact fun best _ hBest oldest h => hBest oldest h
    | cons entry entries ih =>
      intro best hEntries hBest oldest h
      refine ih _ (fun e he => hEntries e (List.mem_cons_of_mem _ he)) ?_ oldest h
      intro e he
      cases best with
      | none =>
        obtain rfl := Option.some.inj he
        exact hEntries _ List.mem_cons_self
      | some best =>
        dsimp only at he
        split at he
        · obtain rfl := Option.some.inj he
          exact hEntries _ List.mem_cons_self
        · exact hBest e he
  refine hFold _ none (fun entry hEntry => ?_) (fun _ h => nomatch h) oldest h
  obtain ⟨hMem, hCompleted⟩ := List.mem_filter.mp hEntry
  exact ⟨Std.TreeMap.mem_toList_iff_getElem?_eq_some.mp hMem, beq_iff_eq.mp hCompleted⟩

theorem pruneRounds_getElem? (rounds : Nat) (h : tasks[id]? = some task) (hUnfinished : task.stage ≠ .completed) :
    (pruneRounds rounds tasks)[id]? = some task := by
  induction rounds generalizing tasks with
  | zero => exact h
  | succ rounds ih =>
    rw [pruneRounds]
    split
    · exact h
    · cases hOldest : tasks.oldestCompleted with
      | none => exact h
      | some oldest =>
        obtain ⟨hStored, hCompleted⟩ := oldestCompleted_stored hOldest
        refine ih ?_
        by_cases hKey : id = oldest.1
        · rw [← hKey, h] at hStored
          obtain rfl := Option.some.inj hStored
          exact absurd hCompleted hUnfinished
        · rw [getElem?_erase_of_ne tasks hKey]
          exact h

theorem getElem?_of_pruneRounds (rounds : Nat) (h : (pruneRounds rounds tasks)[id]? = some task) :
    tasks[id]? = some task := by
  induction rounds generalizing tasks with
  | zero => exact h
  | succ rounds ih =>
    rw [pruneRounds] at h
    split at h
    · exact h
    · cases hOldest : tasks.oldestCompleted with
      | none => rw [hOldest] at h; exact h
      | some oldest =>
        rw [hOldest] at h
        have hErased := ih h
        rw [Std.TreeMap.getElem?_erase] at hErased
        split at hErased
        · cases hErased
        · exact hErased

theorem pruneRounds_of_le (rounds : Nat) (h : completedCount tasks ≤ maxCompletedTasks) :
    pruneRounds rounds tasks = tasks := by
  cases rounds with
  | zero => rfl
  | succ rounds => rw [pruneRounds, if_pos h]

theorem completedCount_insert_le : completedCount (tasks.insert id task) ≤ completedCount tasks + 1 := by
  have hPerm := Std.TreeMap.toList_insert_perm (t := tasks) (k := id) (v := task)
  rw [completedCount, hPerm.countP_eq, List.countP_cons, completedCount]
  refine Nat.add_le_add (List.Sublist.countP_le List.filter_sublist) ?_
  split <;> omega

end Lemmas

end Tasks

end EdgeGateway.Recording
