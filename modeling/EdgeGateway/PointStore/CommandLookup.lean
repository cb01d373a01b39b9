import EdgeGateway.PointStore.WritebackResults

/-! # Looking up commands and results by id -/

namespace EdgeGateway.PointStore

open Picking

def budget (limit size : Nat) : Nat := if limit = 0 then size else limit

def served (store : MemoryPointStore) (command : PendingWriteCommand) : Bool :=
  allowedIndex store.drainFilter command.index

def wanted (store : MemoryPointStore) (cmdId : StdString) (command : PendingWriteCommand) : Bool :=
  served store command && (cmdId ≠ [] && command.cmdId = cmdId && command.highPriority)

theorem wanted_of_registered {store : MemoryPointStore} {cmdId : StdString} {command : PendingWriteCommand}
    (hId : cmdId ≠ []) (hCommand : command.cmdId = cmdId) (hHigh : command.highPriority = true)
    (hIndex : command.index ∈ store.registeredIndexes) : wanted store cmdId command = true := by
  have hServed : served store command = true := by
    rw [served, MemoryPointStore.drainFilter]
    split
    · rfl
    · rw [allowedIndex, decide_eq_true hIndex, Bool.or_true]
  rw [wanted, hServed, hCommand, hHigh, decide_eq_true hId, decide_eq_true rfl]
  rfl

section Drains

variable {limit : Nat} {allowedIndexes : Option (Finset UInt32)} {requiredCmdId : Option StdString}

def drained (allowedIndexes : Option (Finset UInt32)) (requiredCmdId : Option StdString)
    (slot : SharedPendingWriteSlot) : Bool :=
  allowedIndex allowedIndexes slot.index && requiredCommand requiredCmdId slot

/-- The drain loop takes the matching slots within its limit and retains the others. -/
theorem drainLoop_pick (n : Nat) (slots : List SharedPendingWriteSlot) (result : List PendingWriteCommand)
    (retained : List SharedPendingWriteSlot) (hOccupied : ∀ slot ∈ slots, slot.occupied = true)
    (hBudget : limit = 0 ∧ slots.length ≤ n ∨ 0 < limit ∧ result.length + n = limit) :
    drainLoop limit allowedIndexes requiredCmdId slots result retained =
      (result ++ (pick (drained allowedIndexes requiredCmdId) n slots).1.map SharedPendingWriteSlot.toCommand,
        retained ++ (pick (drained allowedIndexes requiredCmdId) n slots).2) := by
  induction slots generalizing n result retained with
  | nil => rw [drainLoop, pick_nil, List.map_nil, List.append_nil, List.append_nil]
  | cons slot rest ih =>
    obtain ⟨hSlot, hRest⟩ := List.forall_mem_cons.mp hOccupied
    rw [List.length_cons] at hBudget
    rw [drainLoop, if_pos hSlot]
    obtain hMatch | hMatch := Decidable.em (drained allowedIndexes requiredCmdId slot = true)
    · have hAllowed : (allowedIndex allowedIndexes slot.index && requiredCommand requiredCmdId slot) = true := hMatch
      cases n with
      | zero =>
        have hFull : ¬(limit = 0 ∨ result.length < limit) := by omega
        rw [if_neg]
        · rw [ih 0 result (retained ++ [slot]) hRest (by omega), pick_zero, pick_zero, List.append_assoc]
          rfl
        · rw [hAllowed, Bool.true_and]
          simpa using hFull
      | succ n =>
        have hRoom : limit = 0 ∨ result.length < limit := by omega
        rw [if_pos, ih n _ retained hRest (by rw [List.length_append, List.length_singleton]; omega), pick_pos hMatch,
          List.append_assoc]
        · rfl
        · rw [hAllowed, Bool.true_and]
          simpa using hRoom
    · have hAllowed : (allowedIndex allowedIndexes slot.index && requiredCommand requiredCmdId slot) = false :=
        Bool.eq_false_iff.mpr hMatch
      rw [hAllowed, Bool.false_and, if_neg Bool.false_ne_true, pick_neg hMatch,
        ih n result (retained ++ [slot]) hRest (by omega), List.append_assoc]
      rfl

theorem drainPendingWrites_pick {layout : SharedStoreLayout} (hOccupied : PendingOccupied layout) :
    (drainPendingWrites layout limit allowedIndexes requiredCmdId).2 =
        (pick (drained allowedIndexes requiredCmdId) (budget limit layout.pendingWrites.contents.length)
          layout.pendingWrites.contents).1.map SharedPendingWriteSlot.toCommand ∧
      (drainPendingWrites layout limit allowedIndexes requiredCmdId).1.pendingWrites.contents =
        (pick (drained allowedIndexes requiredCmdId) (budget limit layout.pendingWrites.contents.length)
          layout.pendingWrites.contents).2 := by
  have hBudget : limit = 0 ∧ layout.pendingWrites.contents.length ≤ budget limit layout.pendingWrites.contents.length ∨
      0 < limit ∧ ([] : List PendingWriteCommand).length + budget limit layout.pendingWrites.contents.length = limit := by
    rw [budget, List.length_nil]
    split <;> omega
  have hLoop := @drainLoop_pick limit allowedIndexes requiredCmdId _ layout.pendingWrites.contents [] [] hOccupied hBudget
  rw [List.nil_append, List.nil_append] at hLoop
  have hKept : (pick (drained allowedIndexes requiredCmdId) (budget limit layout.pendingWrites.contents.length)
      layout.pendingWrites.contents).2.length < kMaxPendingWriteSlots := by
    apply Nat.lt_of_le_of_lt (pick_kept_sublist _ _ _).length_le
    rw [Ring.length_contents]
    exact Ring.count_lt _
  rw [drainPendingWrites, hLoop]
  refine ⟨rfl, ?_⟩
  dsimp only
  rw [Ring.contents_foldl_push, Ring.contents_cleared, List.nil_append]
  rw [← Ring.length_contents, Ring.contents_cleared, List.length_nil, Nat.zero_add]
  exact hKept

end Drains

inductive CommandCall where
  | recordWritebackResult (result : WritebackResultRecord)
  | pending (call : PendingCall)

structure CommandLog where
  layout : SharedStoreLayout
  results : WritebackResults
  recorded : List WritebackResultRecord
  queue : List PendingWriteCommand

namespace CommandLog

def start : CommandLog := ⟨.initial, .initial, [], []⟩

def keeping (log : CommandLog) (matching : PendingWriteCommand → Bool) (limit : Nat) : List PendingWriteCommand :=
  (pick matching (budget limit log.queue.length) log.queue).2

def step (log : CommandLog) : CommandCall → CommandLog
  | .recordWritebackResult result =>
    { log with
      results := recordWritebackResult log.results result
      recorded := if result.cmdId = [] then log.recorded else log.recorded ++ [result] }
  | .pending (.submitWriteCommand store command) =>
    match store.submitWriteCommand log.layout command with
    | .ok layout => { log with layout := layout, queue := log.queue ++ [command] }
    | .error _ => log
  | .pending (.drainPendingWriteCommands store limit) =>
    { log with
      layout := (store.drainPendingWriteCommands log.layout limit).1
      queue := log.keeping (served store) limit }
  | .pending (.drainPendingWriteCommandsByCmdId store cmdId limit) =>
    { log with
      layout := (store.drainPendingWriteCommandsByCmdId log.layout cmdId limit).1
      queue := log.keeping (wanted store cmdId) limit }

def after (calls : List CommandCall) : CommandLog := Run.after step start calls

/-- A drain by id gives out the queued high-priority commands of the id on the handle's indexes. -/
def DrainsQueued (log : CommandLog) : Prop :=
  ∀ store cmdId limit, cmdId ≠ [] →
    (store.drainPendingWriteCommandsByCmdId log.layout cmdId limit).2 =
      (log.queue.filter (wanted store cmdId)).take (budget limit log.queue.length) ∧
    ∀ command ∈ log.queue, command.cmdId = cmdId → command.highPriority = true →
      command.index ∈ store.registeredIndexes → wanted store cmdId command = true

/-- Recorded results fit their slots, accepted high-priority commands with an id fit theirs, and the
ring keeps a slot free. -/
def Meets (log : CommandLog) : CommandCall → Prop
  | .recordWritebackResult result => result.cmdId ≠ [] → FitsSlot result
  | .pending (.submitWriteCommand store command) =>
    (PendingCall.submitWriteCommand store command).KeepsSlotFree log.layout ∧
      ∀ layout, store.submitWriteCommand log.layout command = .ok layout → command.highPriority = true →
        command.cmdId ≠ [] → FitsField kCmdIdSize command.cmdId ∧ FitsField kSourceSize command.source
  | .pending _ => True

/-- The ring holds the queue, and what a drain by id may give out is stored whole. -/
structure Aligned (log : CommandLog) : Prop where
  results : log.results.Holds log.recorded
  fits : ∀ result ∈ log.recorded, FitsSlot result
  occupied : PendingOccupied log.layout
  queued : log.layout.pendingWrites.contents.map SharedPendingWriteSlot.toCommand = log.queue.map storedCommand
  whole : ∀ command ∈ log.queue, command.highPriority = true → command.cmdId ≠ [] → storedCommand command = command

theorem aligned_start : start.Aligned where
  results := WritebackResults.holds_initial
  fits := List.forall_mem_nil _
  occupied := PendingHistory.sound_start.occupied
  queued := congrArg (List.map _) (Ring.contents_cleared _ _)
  whole := List.forall_mem_nil _

section Steps

variable {log : CommandLog}

theorem Aligned.length (h : log.Aligned) : log.layout.pendingWrites.contents.length = log.queue.length := by
  rw [← List.length_map, h.queued, List.length_map]

/-- A drain takes from the ring what picking from the queue takes, each command as it is stored. -/
theorem Aligned.drained (h : log.Aligned) {allowedIndexes : Option (Finset UInt32)}
    {requiredCmdId : Option StdString} {matching : PendingWriteCommand → Bool} (limit : Nat)
    (hSlots : ∀ slot, PointStore.drained allowedIndexes requiredCmdId slot = matching slot.toCommand)
    (hQueue : ∀ command ∈ log.queue, matching (storedCommand command) = matching command) :
    (drainPendingWrites log.layout limit allowedIndexes requiredCmdId).2 =
        (pick matching (budget limit log.queue.length) log.queue).1.map storedCommand ∧
      (drainPendingWrites log.layout limit allowedIndexes requiredCmdId).1.pendingWrites.contents.map
          SharedPendingWriteSlot.toCommand = (log.keeping matching limit).map storedCommand ∧
      PendingOccupied (drainPendingWrites log.layout limit allowedIndexes requiredCmdId).1 := by
  obtain ⟨hTaken, hKept⟩ := @drainPendingWrites_pick limit allowedIndexes requiredCmdId log.layout h.occupied
  have hSame : PointStore.drained allowedIndexes requiredCmdId = fun slot => matching slot.toCommand := funext hSlots
  have hPick : pick matching (budget limit log.queue.length)
      (log.layout.pendingWrites.contents.map SharedPendingWriteSlot.toCommand) =
      ((pick matching (budget limit log.queue.length) log.queue).1.map storedCommand,
        (log.keeping matching limit).map storedCommand) := by
    rw [h.queued, pick_map, pick_congr hQueue]
    rfl
  rw [pick_map, ← hSame, ← h.length] at hPick
  obtain ⟨hFirst, hSecond⟩ := Prod.mk.inj hPick
  rw [← h.length]
  refine ⟨hTaken.trans hFirst, ?_, ?_⟩
  · rw [hKept]
    exact hSecond
  · intro slot hSlot
    rw [hKept] at hSlot
    exact h.occupied slot ((pick_kept_sublist _ _ _).subset hSlot)

theorem Aligned.kept (h : log.Aligned) {matching : PendingWriteCommand → Bool} {limit : Nat}
    {layout : SharedStoreLayout} (hOccupied : PendingOccupied layout)
    (hQueued : layout.pendingWrites.contents.map SharedPendingWriteSlot.toCommand =
      (log.keeping matching limit).map storedCommand) :
    Aligned { log with layout := layout, queue := log.keeping matching limit } where
  results := h.results
  fits := h.fits
  occupied := hOccupied
  queued := hQueued
  whole := fun command hCommand => h.whole command ((pick_kept_sublist _ _ _).subset hCommand)

theorem served_stored (store : MemoryPointStore) (command : PendingWriteCommand) :
    served store (storedCommand command) = served store command := rfl

theorem Aligned.wanted_stored (h : log.Aligned) {store : MemoryPointStore} {cmdId : StdString}
    {command : PendingWriteCommand} (hCommand : command ∈ log.queue) :
    wanted store cmdId (storedCommand command) = wanted store cmdId command := by
  obtain hHigh | hLow := Bool.eq_false_or_eq_true command.highPriority
  · obtain hEmpty | hNamed := eq_or_ne command.cmdId []
    · have hStored : (storedCommand command).cmdId = command.cmdId := by
        rw [storedCommand, hEmpty]
        rfl
      rw [wanted, wanted, hStored, served_stored]
      rfl
    · rw [h.whole command hCommand hHigh hNamed]
  · have hStored : (storedCommand command).highPriority = false := hLow
    rw [wanted, wanted, hStored, hLow, Bool.and_false, Bool.and_false, Bool.and_false, Bool.and_false]

theorem drained_none (store : MemoryPointStore) (slot : SharedPendingWriteSlot) :
    PointStore.drained store.drainFilter none slot = served store slot.toCommand := Bool.and_true _

theorem drained_some {cmdId : StdString} (store : MemoryPointStore) (slot : SharedPendingWriteSlot) :
    PointStore.drained store.drainFilter (some cmdId) slot = wanted store cmdId slot.toCommand := rfl

theorem wanted_inv {store : MemoryPointStore} {cmdId : StdString} {command : PendingWriteCommand}
    (h : wanted store cmdId command = true) : command.cmdId ≠ [] ∧ command.highPriority = true := by
  rw [wanted, Bool.and_eq_true, Bool.and_eq_true, Bool.and_eq_true] at h
  obtain ⟨-, ⟨hId, hCommand⟩, hHigh⟩ := h
  refine ⟨?_, hHigh⟩
  rw [of_decide_eq_true hCommand]
  exact of_decide_eq_true hId

theorem Aligned.drainsQueued (h : log.Aligned) : log.DrainsQueued := by
  intro store cmdId limit hId
  refine ⟨?_, fun command _ hCommand hHigh hIndex => wanted_of_registered hId hCommand hHigh hIndex⟩
  rw [MemoryPointStore.drainPendingWriteCommandsByCmdId, if_neg hId,
    (h.drained limit (drained_some store) fun command hCommand => h.wanted_stored hCommand).1, pick_taken]
  refine (List.map_congr_left fun command hCommand => ?_).trans (List.map_id _)
  obtain ⟨hQueued, hWanted⟩ := List.mem_filter.mp (List.mem_of_mem_take hCommand)
  obtain ⟨hNamed, hHigh⟩ := wanted_inv hWanted
  exact h.whole command hQueued hHigh hNamed

theorem Aligned.recorded (h : log.Aligned) {result : WritebackResultRecord}
    (hFits : result.cmdId ≠ [] → FitsSlot result) : (log.step (.recordWritebackResult result)).Aligned := by
  rw [CommandLog.step, recordWritebackResult]
  obtain hNone | hNamed := eq_or_ne result.cmdId []
  · rw [if_pos hNone, if_pos hNone]
    exact h
  · rw [if_neg hNamed, if_neg hNamed]
    refine { h with results := h.results.push result, fits := ?_ }
    exact List.forall_mem_append.mpr ⟨h.fits, List.forall_mem_singleton.mpr (hFits hNamed)⟩

theorem Aligned.submitted (h : log.Aligned) {store : MemoryPointStore} {command : PendingWriteCommand}
    {layout : SharedStoreLayout} (hOk : store.submitWriteCommand log.layout command = .ok layout)
    (hRoom : log.layout.pendingWrites.count + 1 < kMaxPendingWriteSlots)
    (hFits : command.highPriority = true → command.cmdId ≠ [] →
      FitsField kCmdIdSize command.cmdId ∧ FitsField kSourceSize command.source) :
    Aligned { log with layout := layout, queue := log.queue ++ [command] } := by
  obtain ⟨-, -, hRing⟩ := submitWriteCommand_ok hOk
  have hContents : layout.pendingWrites.contents =
      log.layout.pendingWrites.contents ++ [pendingSlot (log.layout.writeSequence + 1) command] := by
    rw [hRing, Ring.contents_push _ _ hRoom]
  refine { h with occupied := ?_, queued := ?_, whole := ?_ }
  · rw [PendingOccupied, hContents, List.forall_mem_append]
    exact ⟨h.occupied, List.forall_mem_singleton.mpr rfl⟩
  · rw [hContents, List.map_append, List.map_append, h.queued, List.map_singleton, toCommand_pendingSlot]
    rfl
  · refine List.forall_mem_append.mpr ⟨h.whole, List.forall_mem_singleton.mpr fun hHigh hNamed => ?_⟩
    obtain ⟨hId, hSource⟩ := hFits hHigh hNamed
    exact storedCommand_of_fits hId.1 hId.2 hSource.1 hSource.2

theorem Aligned.step (h : log.Aligned) {call : CommandCall} (hMeets : log.Meets call) : (log.step call).Aligned := by
  cases call with
  | recordWritebackResult result => exact h.recorded hMeets
  | pending call =>
    cases call with
    | submitWriteCommand store command =>
      rw [CommandLog.step]
      obtain ⟨hFree, hFits⟩ := hMeets
      cases hSubmit : store.submitWriteCommand log.layout command with
      | error e => exact h
      | ok layout =>
        apply h.submitted hSubmit ?_ (hFits layout hSubmit)
        obtain hOpening | hOpening := eq_or_ne store.opening .segmentName
        · exact hFree (submitWriteCommand_ok hSubmit).1 hOpening
        · exact PendingHistory.count_lt_of_submit_ok hSubmit hOpening
    | drainPendingWriteCommands store limit =>
      obtain ⟨-, hQueued, hOccupied⟩ :=
        h.drained limit (drained_none store) fun command _ => served_stored store command
      exact h.kept hOccupied hQueued
    | drainPendingWriteCommandsByCmdId store cmdId limit =>
      rw [CommandLog.step, MemoryPointStore.drainPendingWriteCommandsByCmdId]
      obtain rfl | hId := eq_or_ne cmdId []
      · have hNone : log.keeping (wanted store []) limit = log.queue := by
          rw [keeping, pick_none]
          intro command _ hWanted
          rw [wanted, Bool.and_eq_true, Bool.and_eq_true, Bool.and_eq_true] at hWanted
          exact of_decide_eq_true hWanted.2.1.1 rfl
        rw [if_pos rfl, hNone]
        exact h
      · obtain ⟨-, hQueued, hOccupied⟩ :=
          h.drained limit (drained_some store) fun command hCommand => @Aligned.wanted_stored log h store cmdId command hCommand
        rw [if_neg hId]
        exact h.kept hOccupied hQueued

end Steps

/-- If all calls meet the condition every lookup and drain by id gives out what was recorded and submitted. -/
theorem lookups_agree (calls : List CommandCall) (hMeets : Run.Guarded step Meets start calls) :
    ∀ done, done <+: calls →
      (after done).results.ReadsBack (after done).recorded ∧ (after done).DrainsQueued := by
  intro done hDone
  have hAligned : (after done).Aligned :=
    Run.invariant_along step Aligned aligned_start (fun done call hStep h => h.step (hMeets done call hStep)) done hDone
  exact ⟨hAligned.results.readsBack hAligned.fits, hAligned.drainsQueued⟩

def writtenResult : WritebackResultRecord where
  cmdId := ['c', '1']
  index := 7
  value := 0
  success := true
  message := ['o', 'k']
  stage := ['d', 'e', 'v', 'i', 'c', 'e']
  requestedAt := 1000
  acceptedAt := 1000
  startedAt := 1010
  completedAt := 1020
  queueDelayMs := 10
  deviceWriteMs := 10
  edgeElapsedMs := 20
  totalElapsedMs := 20
  verifyAttempted := false
  verifyPassed := false

def configStore : MemoryPointStore := { PendingHistory.segmentNameStore with opening := .config {} }

def answeredCommand : List CommandCall :=
  [.pending (.submitWriteCommand configStore { PendingHistory.sampleCommand with highPriority := true }),
    .pending (.drainPendingWriteCommandsByCmdId configStore ['c', '1'] 0), .recordWritebackResult writtenResult]

theorem answeredCommand_agrees :
    (after answeredCommand).results.ReadsBack (after answeredCommand).recorded ∧ (after answeredCommand).DrainsQueued := by
  refine lookups_agree answeredCommand ?_ answeredCommand (List.prefix_refl answeredCommand)
  rw [answeredCommand, Run.guarded_cons, Run.guarded_cons, Run.guarded_cons]
  refine ⟨⟨fun _ hOpening => ?_, fun _ _ _ _ => ⟨⟨by decide, by decide⟩, by decide, by decide⟩⟩, trivial,
    fun _ => ⟨⟨by decide, by decide⟩, ⟨by decide, by decide⟩, ⟨by decide, by decide⟩, rfl⟩, Run.guarded_nil _ _ _⟩
  cases hOpening

theorem not_readsBack {result : WritebackResultRecord} (hNamed : result.cmdId ≠ []) (hFits : ¬FitsSlot result) :
    ¬(after [.recordWritebackResult result]).results.ReadsBack (after [.recordWritebackResult result]).recorded := by
  intro hReads
  have hAfter : after [.recordWritebackResult result] =
      { start with results := pushWritebackResult .initial result, recorded := [result] } := by
    rw [after, Run.after_cons, Run.after_nil, step, recordWritebackResult, if_neg hNamed, if_neg hNamed]
    rfl
  rw [hAfter] at hReads
  have hFound := (hReads result.cmdId hNamed).1 [] result [] rfl rfl (List.forall_mem_nil _) (by decide)
  exact hFits ((WritebackResults.holds_initial.push result).fits hFound)

/-- An id of 64 bytes is not found, and a high-priority result is read back as an ordinary one. -/
theorem results_cut :
    (¬(after [.recordWritebackResult { writtenResult with cmdId := List.replicate 64 'a' }]).results.ReadsBack
      (after [.recordWritebackResult { writtenResult with cmdId := List.replicate 64 'a' }]).recorded) ∧
    ¬(after [.recordWritebackResult { writtenResult with highPriority := true }]).results.ReadsBack
      (after [.recordWritebackResult { writtenResult with highPriority := true }]).recorded :=
  ⟨not_readsBack (by decide) fun hFits => absurd hFits.cmdId.1 (by decide),
    not_readsBack (by decide) fun hFits => Bool.noConfusion hFits.highPriority⟩

end CommandLog

end EdgeGateway.PointStore
