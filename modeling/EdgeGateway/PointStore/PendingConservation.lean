import EdgeGateway.Foundation.Run
import EdgeGateway.PointStore.PendingWrites

/-! # Conservation of pending writes -/

namespace EdgeGateway.PointStore

inductive PendingCall where
  | submitWriteCommand (store : MemoryPointStore) (command : PendingWriteCommand)
  | drainPendingWriteCommands (store : MemoryPointStore) (limit : Nat)
  | drainPendingWriteCommandsByCmdId (store : MemoryPointStore) (cmdId : StdString) (limit : Nat)

structure PendingHistory where
  layout : SharedStoreLayout
  accepted : List PendingWriteCommand
  returned : List PendingWriteCommand

namespace PendingHistory

def start : PendingHistory := ⟨.initial, [], []⟩

def drained (h : PendingHistory) (outcome : SharedStoreLayout × List PendingWriteCommand) : PendingHistory :=
  { h with layout := outcome.1, returned := h.returned ++ outcome.2 }

def step (h : PendingHistory) : PendingCall → PendingHistory
  | .submitWriteCommand store command =>
    match store.submitWriteCommand h.layout command with
    | .ok layout => { h with layout := layout, accepted := h.accepted ++ [command] }
    | .error _ => h
  | .drainPendingWriteCommands store limit =>
    h.drained (store.drainPendingWriteCommands h.layout limit)
  | .drainPendingWriteCommandsByCmdId store cmdId limit =>
    h.drained (store.drainPendingWriteCommandsByCmdId h.layout cmdId limit)

def after (calls : List PendingCall) : PendingHistory := Run.after step start calls

def pending (h : PendingHistory) : List PendingWriteCommand := peekPendingWrites h.layout 0

/-- Every accepted command is returned or still pending, exactly once in all, the pending ones in order. -/
def Conserved (h : PendingHistory) : Prop :=
  (h.accepted.map storedCommand).Perm (h.returned ++ h.pending) ∧
    h.pending.Sublist (h.accepted.map storedCommand)

end PendingHistory

/-- No push onto a ring with a single free slot through a handle whose limit counts all slots. -/
def PendingCall.KeepsSlotFree (layout : SharedStoreLayout) : PendingCall → Prop
  | .submitWriteCommand store command =>
    command.index ≠ 0 → store.opening = .segmentName →
      layout.pendingWrites.count + 1 < kMaxPendingWriteSlots
  | _ => True

/-- The inductive form of conservation, over slots. -/
structure PendingHistory.Sound (h : PendingHistory) : Prop where
  occupied : PendingOccupied h.layout
  conserved : h.Conserved

namespace PendingHistory

theorem sound_start : start.Sound where
  occupied := by
    intro slot hSlot
    simp [start, SharedStoreLayout.initial] at hSlot
  conserved := by
    have hPending : start.pending = [] := by
      simp [pending, peekPendingWrites, start, SharedStoreLayout.initial, peekLoop]
    exact ⟨by rw [hPending]; simp [start], by rw [hPending]; exact List.nil_sublist _⟩

theorem Sound.pending_eq {h : PendingHistory} (hs : h.Sound) :
    h.pending = h.layout.pendingWrites.contents.map SharedPendingWriteSlot.toCommand :=
  peekPendingWrites_all hs.occupied

theorem Sound.drained {h : PendingHistory} (hs : h.Sound) (limit : Nat)
    (allowedIndexes : Option (Finset UInt32)) (requiredCmdId : Option StdString) :
    (h.drained (drainPendingWrites h.layout limit allowedIndexes requiredCmdId)).Sound := by
  obtain ⟨taken, kept, hTaken, hKept, hPerm, hSub⟩ :=
    drainPendingWrites_splits h.layout limit allowedIndexes requiredCmdId hs.occupied
  have hOccupied : PendingOccupied (drainPendingWrites h.layout limit allowedIndexes requiredCmdId).1 := by
    intro slot hSlot
    exact hs.occupied slot (hSub.subset (hKept ▸ hSlot))
  have hPending : (h.drained (drainPendingWrites h.layout limit allowedIndexes requiredCmdId)).pending =
      kept.map SharedPendingWriteSlot.toCommand := by
    rw [← hKept]
    exact peekPendingWrites_all hOccupied
  obtain ⟨hConserved, hOrder⟩ := hs.conserved
  rw [hs.pending_eq] at hConserved hOrder
  refine ⟨hOccupied, ?_, ?_⟩
  · rw [hPending]
    refine hConserved.trans ?_
    simp only [PendingHistory.drained, hTaken, List.append_assoc, ← List.map_append]
    exact (hPerm.map _).append_left _
  · rw [hPending]
    exact (hSub.map _).trans hOrder

theorem Sound.submitted {h : PendingHistory} (hs : h.Sound) {store : MemoryPointStore}
    {command : PendingWriteCommand} {layout : SharedStoreLayout}
    (hOk : store.submitWriteCommand h.layout command = .ok layout)
    (hRoom : h.layout.pendingWrites.count + 1 < kMaxPendingWriteSlots) :
    PendingHistory.Sound { h with layout := layout, accepted := h.accepted ++ [command] } := by
  obtain ⟨_, _, hRing⟩ := submitWriteCommand_ok hOk
  have hContents : layout.pendingWrites.contents =
      h.layout.pendingWrites.contents ++ [pendingSlot (h.layout.writeSequence + 1) command] := by
    rw [hRing, Ring.contents_push _ _ hRoom]
  have hOccupied : PendingOccupied layout := by
    intro slot hSlot
    rw [hContents, List.mem_append, List.mem_singleton] at hSlot
    obtain hSlot | rfl := hSlot
    · exact hs.occupied slot hSlot
    · rfl
  have hPending : peekPendingWrites layout 0 = h.pending ++ [storedCommand command] := by
    rw [peekPendingWrites_all hOccupied, hs.pending_eq, hContents]
    simp
  obtain ⟨hConserved, hOrder⟩ := hs.conserved
  refine ⟨hOccupied, ?_, ?_⟩
  · simp only [PendingHistory.pending, hPending, List.map_append, List.map_cons, List.map_nil,
      ← List.append_assoc]
    exact hConserved.append_right _
  · simp only [PendingHistory.pending, hPending, List.map_append, List.map_cons, List.map_nil]
    exact hOrder.append (List.Sublist.refl _)

theorem Sound.not_conserved_of_full {h : PendingHistory} (hs : h.Sound) {store : MemoryPointStore}
    {command : PendingWriteCommand} {layout : SharedStoreLayout}
    (hOk : store.submitWriteCommand h.layout command = .ok layout)
    (hFull : h.layout.pendingWrites.count + 1 = kMaxPendingWriteSlots) :
    ¬ PendingHistory.Conserved { h with layout := layout, accepted := h.accepted ++ [command] } := by
  obtain ⟨_, _, hRing⟩ := submitWriteCommand_ok hOk
  have hPending : peekPendingWrites layout 0 = [] := by
    rw [peekPendingWrites, hRing, Ring.contents_push_full _ _ hFull]
    rfl
  rintro ⟨hPerm, -⟩
  have hBefore := hs.conserved.1.length_eq
  have hAfter := hPerm.length_eq
  rw [hs.pending_eq] at hBefore
  simp only [PendingHistory.pending, hPending] at hAfter
  simp only [List.length_map, List.length_append, Ring.length_contents, List.length_cons,
    List.length_nil] at hBefore hAfter
  omega

theorem count_lt_of_submit_ok {store : MemoryPointStore} {layout layout' : SharedStoreLayout}
    {command : PendingWriteCommand} (hOk : store.submitWriteCommand layout command = .ok layout')
    (hOpening : store.opening ≠ .segmentName) :
    layout.pendingWrites.count + 1 < kMaxPendingWriteSlots := by
  obtain ⟨_, hCount, _⟩ := submitWriteCommand_ok hOk
  cases hCase : store.opening with
  | segmentName => exact absurd hCase hOpening
  | config c =>
    rw [hCase] at hCount
    have hLimit := Opening.maxPendingWrites_config_lt c
    omega

theorem Sound.step {h : PendingHistory} (hs : h.Sound) {call : PendingCall}
    (hFree : call.KeepsSlotFree h.layout) : (h.step call).Sound := by
  cases call with
  | drainPendingWriteCommands store limit => exact hs.drained limit store.drainFilter none
  | drainPendingWriteCommandsByCmdId store cmdId limit =>
    simp only [PendingHistory.step, MemoryPointStore.drainPendingWriteCommandsByCmdId]
    split
    · simpa [PendingHistory.drained] using hs
    · exact hs.drained limit store.drainFilter (some cmdId)
  | submitWriteCommand store command =>
    simp only [PendingHistory.step]
    cases hSubmit : store.submitWriteCommand h.layout command with
    | error e => exact hs
    | ok layout =>
      obtain ⟨hIndex, _, _⟩ := submitWriteCommand_ok hSubmit
      by_cases hOpening : store.opening = .segmentName
      · exact hs.submitted hSubmit (hFree hIndex hOpening)
      · exact hs.submitted hSubmit (count_lt_of_submit_ok hSubmit hOpening)

theorem submit_segmentName_ok {store : MemoryPointStore} {command : PendingWriteCommand}
    (layout : SharedStoreLayout) (hIndex : command.index ≠ 0) (hOpening : store.opening = .segmentName) :
    ∃ layout', store.submitWriteCommand layout command = .ok layout' := by
  have hCount : layout.pendingWrites.count < 4096 := Ring.count_lt _
  simp only [MemoryPointStore.submitWriteCommand, if_neg hIndex, pushPendingWrite, hOpening,
    Opening.maxPendingWrites]
  rw [if_neg (by omega)]
  exact ⟨_, rfl⟩

theorem Sound.step_iff {h : PendingHistory} (hs : h.Sound) (call : PendingCall) :
    (h.step call).Conserved ↔ call.KeepsSlotFree h.layout := by
  refine ⟨fun hConserved => ?_, fun hFree => (hs.step hFree).conserved⟩
  cases call with
  | drainPendingWriteCommands store limit => trivial
  | drainPendingWriteCommandsByCmdId store cmdId limit => trivial
  | submitWriteCommand store command =>
    intro hIndex hOpening
    obtain ⟨layout, hSubmit⟩ := submit_segmentName_ok h.layout hIndex hOpening
    simp only [PendingHistory.step, hSubmit] at hConserved
    by_contra hRoom
    have hCount := Ring.count_lt h.layout.pendingWrites
    exact hs.not_conserved_of_full hSubmit (by omega) hConserved

theorem after_snoc (calls : List PendingCall) (call : PendingCall) :
    after (calls ++ [call]) = (after calls).step call := Run.after_snoc _ _ _ _

/-- Conserved iff no call pushes onto a ring with one free slot through a handle opened by segment name. -/
theorem conserved_throughout_iff (calls : List PendingCall) :
    (∀ done, done <+: calls → (after done).Conserved) ↔
      ∀ done call, done ++ [call] <+: calls → call.KeepsSlotFree (after done).layout := by
  constructor
  · intro hConserved done call hDone
    have hFree : ∀ done call, done ++ [call] <+: calls → (after done).Sound →
        call.KeepsSlotFree (after done).layout := by
      intro done call hDone hs
      apply (hs.step_iff call).mp
      rw [← after_snoc]
      exact hConserved _ hDone
    have hSound := Run.invariant_along step Sound sound_start
      fun done call hDone hs => hs.step (hFree done call hDone hs)
    exact hFree done call hDone (hSound done ((List.prefix_append done [call]).trans hDone))
  · intro hFree done hDone
    have hSound := Run.invariant_along step Sound sound_start
      fun done call hDone hs => hs.step (hFree done call hDone)
    exact (hSound done hDone).conserved

theorem after_replicate_submit (store : MemoryPointStore) (command : PendingWriteCommand)
    (hIndex : command.index ≠ 0) (hOpening : store.opening = .segmentName) (n : Nat)
    (hn : n < kMaxPendingWriteSlots) :
    (after (List.replicate n (.submitWriteCommand store command))).Sound ∧
      (after (List.replicate n (.submitWriteCommand store command))).layout.pendingWrites.count = n := by
  induction n with
  | zero => exact ⟨sound_start, Ring.distance_self _⟩
  | succ n ih =>
    obtain ⟨hs, hCount⟩ := ih (by omega)
    rw [List.replicate_succ', after_snoc]
    have hRoom : (after (List.replicate n (.submitWriteCommand store command))).layout.pendingWrites.count + 1 <
        kMaxPendingWriteSlots := by omega
    refine ⟨hs.step fun _ _ => hRoom, ?_⟩
    obtain ⟨layout, hSubmit⟩ := submit_segmentName_ok
      (after (List.replicate n (.submitWriteCommand store command))).layout hIndex hOpening
    simp only [PendingHistory.step, hSubmit, (submitWriteCommand_ok hSubmit).2.2]
    rw [← Ring.length_contents, Ring.contents_push _ _ hRoom, List.length_append, Ring.length_contents, hCount]
    rfl

def segmentNameStore : MemoryPointStore where
  opening := .segmentName
  ownerId := 1
  ownerSource := []
  keyToIndex := fun _ => none
  bindings := fun _ => none
  latestSlotByIndex := fun _ => none
  lastPersistentSampleTs := fun _ => none
  persistentDropped := 0
  registeredIndexes := ∅

def sampleCommand : PendingWriteCommand where
  cmdId := ['c', '1']
  index := 7
  value := 0
  source := ['m', 'q', 't', 't']
  ts := 1000
  acceptedAt := 1000
  highPriority := false

/-- The 4096th undrained submission through a segment-name handle is accepted and
the whole queue is lost. -/
theorem submissions_lost_at_full_ring :
    ¬ (after (List.replicate 4096 (.submitWriteCommand segmentNameStore sampleCommand))).Conserved := by
  obtain ⟨hs, hCount⟩ := after_replicate_submit segmentNameStore sampleCommand
    (by decide) rfl 4095 (by decide)
  intro hConserved
  have hFree := (hs.step_iff (.submitWriteCommand segmentNameStore sampleCommand)).mp
    (by rw [← after_snoc, ← List.replicate_succ']; exact hConserved)
  have hRoom := hFree (by decide) rfl
  rw [hCount] at hRoom
  exact absurd hRoom (by decide)

end PendingHistory

end EdgeGateway.PointStore
