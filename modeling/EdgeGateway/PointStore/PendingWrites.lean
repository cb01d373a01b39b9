import EdgeGateway.PointStore.Layout

/-! # The pending-write queue

`submitWriteCommand` appends a slot unless the handle's limit is reached; a drain visits the ring
from head to tail, hands out what matches and rebuilds the rest.
-/

namespace EdgeGateway.PointStore

def pendingSlot (sequence : UInt64) (command : PendingWriteCommand) : SharedPendingWriteSlot where
  sequence := sequence
  index := command.index
  value := command.value
  ts := command.ts
  acceptedAt := command.acceptedAt
  cmdId := copyString kCmdIdSize command.cmdId
  source := copyString kSourceSize command.source
  occupied := true
  highPriority := command.highPriority

def SharedPendingWriteSlot.toCommand (slot : SharedPendingWriteSlot) : PendingWriteCommand where
  cmdId := readString slot.cmdId kCmdIdSize
  index := slot.index
  value := slot.value
  source := readString slot.source kSourceSize
  ts := slot.ts
  acceptedAt := slot.acceptedAt
  highPriority := slot.highPriority

def storedCommand (command : PendingWriteCommand) : PendingWriteCommand :=
  { command with
    cmdId := readString (copyString kCmdIdSize command.cmdId) kCmdIdSize
    source := readString (copyString kSourceSize command.source) kSourceSize }

@[simp] theorem toCommand_pendingSlot (sequence : UInt64) (command : PendingWriteCommand) :
    (pendingSlot sequence command).toCommand = storedCommand command := rfl

theorem storedCommand_of_fits {command : PendingWriteCommand}
    (hId : command.cmdId.length < kCmdIdSize) (hIdNul : '\x00' ∉ command.cmdId)
    (hSource : command.source.length < kSourceSize) (hSourceNul : '\x00' ∉ command.source) :
    storedCommand command = command := by
  rw [storedCommand, readString_copyString_of_fits hId hIdNul,
    readString_copyString_of_fits hSource hSourceNul]

def pushPendingWrite (layout : SharedStoreLayout) (command : PendingWriteCommand)
    (maxPendingWrites : Nat) : Except StoreError SharedStoreLayout :=
  if layout.pendingWrites.count ≥ maxPendingWrites then
    .error .pendingWriteQueueFull
  else
    .ok { layout with
      writeSequence := layout.writeSequence + 1
      pendingWrites := layout.pendingWrites.push (pendingSlot (layout.writeSequence + 1) command) }

def allowedIndex (allowedIndexes : Option (Finset UInt32)) (index : UInt32) : Bool :=
  match allowedIndexes with
  | none => true
  | some indexes => decide (indexes = ∅) || decide (index ∈ indexes)

def requiredCommand (requiredCmdId : Option StdString) (slot : SharedPendingWriteSlot) : Bool :=
  match requiredCmdId with
  | none => true
  | some cmdId => cmdId ≠ [] && readString slot.cmdId kCmdIdSize = cmdId && slot.highPriority

def drainLoop (limit : Nat) (allowedIndexes : Option (Finset UInt32)) (requiredCmdId : Option StdString) :
    List SharedPendingWriteSlot → List PendingWriteCommand → List SharedPendingWriteSlot →
      List PendingWriteCommand × List SharedPendingWriteSlot
  | [], result, retained => (result, retained)
  | slot :: rest, result, retained =>
    if slot.occupied then
      if allowedIndex allowedIndexes slot.index && requiredCommand requiredCmdId slot &&
          (limit = 0 || result.length < limit) then
        drainLoop limit allowedIndexes requiredCmdId rest (result ++ [slot.toCommand]) retained
      else
        drainLoop limit allowedIndexes requiredCmdId rest result (retained ++ [slot])
    else
      drainLoop limit allowedIndexes requiredCmdId rest result retained

def drainPendingWrites (layout : SharedStoreLayout) (limit : Nat)
    (allowedIndexes : Option (Finset UInt32)) (requiredCmdId : Option StdString) :
    SharedStoreLayout × List PendingWriteCommand :=
  let (result, retained) :=
    drainLoop limit allowedIndexes requiredCmdId layout.pendingWrites.contents [] []
  ({ layout with
      pendingWrites := retained.foldl Ring.push (Ring.cleared {} ⟨0, kMaxPendingWriteSlots_pos⟩) }, result)

def peekLoop (limit : Nat) : List SharedPendingWriteSlot → List PendingWriteCommand → List PendingWriteCommand
  | [], result => result
  | slot :: rest, result =>
    if limit > 0 && result.length ≥ limit then
      result
    else if slot.occupied then
      peekLoop limit rest (result ++ [slot.toCommand])
    else
      peekLoop limit rest result

def peekPendingWrites (layout : SharedStoreLayout) (limit : Nat) : List PendingWriteCommand :=
  peekLoop limit layout.pendingWrites.contents []

namespace MemoryPointStore

def submitWriteCommand (store : MemoryPointStore) (layout : SharedStoreLayout)
    (command : PendingWriteCommand) : Except StoreError SharedStoreLayout :=
  if command.index = 0 then
    .error .pendingWriteIndexZero
  else
    pushPendingWrite layout command store.opening.maxPendingWrites

/-- An empty registered set is handed to the drain as no filter at all. -/
def drainFilter (store : MemoryPointStore) : Option (Finset UInt32) :=
  if store.registeredIndexes = ∅ then none else some store.registeredIndexes

def drainPendingWriteCommands (store : MemoryPointStore) (layout : SharedStoreLayout) (limit : Nat) :
    SharedStoreLayout × List PendingWriteCommand :=
  drainPendingWrites layout limit store.drainFilter none

def drainPendingWriteCommandsByCmdId (store : MemoryPointStore) (layout : SharedStoreLayout)
    (cmdId : StdString) (limit : Nat) : SharedStoreLayout × List PendingWriteCommand :=
  if cmdId = [] then
    (layout, [])
  else
    drainPendingWrites layout limit store.drainFilter (some cmdId)

end MemoryPointStore

def PendingOccupied (layout : SharedStoreLayout) : Prop :=
  ∀ slot ∈ layout.pendingWrites.contents, slot.occupied = true

theorem peekLoop_all (slots : List SharedPendingWriteSlot) (result : List PendingWriteCommand)
    (h : ∀ slot ∈ slots, slot.occupied = true) :
    peekLoop 0 slots result = result ++ slots.map SharedPendingWriteSlot.toCommand := by
  induction slots generalizing result with
  | nil => simp [peekLoop]
  | cons slot rest ih =>
    have hSlot := h slot List.mem_cons_self
    have hRest := ih (result ++ [slot.toCommand]) fun s hs => h s (List.mem_cons_of_mem _ hs)
    simp [peekLoop, hSlot, hRest]

theorem peekPendingWrites_all {layout : SharedStoreLayout} (h : PendingOccupied layout) :
    peekPendingWrites layout 0 = layout.pendingWrites.contents.map SharedPendingWriteSlot.toCommand := by
  rw [peekPendingWrites, peekLoop_all _ _ h, List.nil_append]

/-- A drain splits the visited slots: those it hands out and, in their order,
those it keeps. -/
theorem drainLoop_splits (limit : Nat) (allowedIndexes : Option (Finset UInt32))
    (requiredCmdId : Option StdString) (slots : List SharedPendingWriteSlot)
    (result : List PendingWriteCommand) (retained : List SharedPendingWriteSlot)
    (h : ∀ slot ∈ slots, slot.occupied = true) :
    ∃ taken kept, drainLoop limit allowedIndexes requiredCmdId slots result retained =
        (result ++ taken.map SharedPendingWriteSlot.toCommand, retained ++ kept) ∧
      slots.Perm (taken ++ kept) ∧ kept.Sublist slots := by
  induction slots generalizing result retained with
  | nil => exact ⟨[], [], by simp [drainLoop], List.Perm.nil, List.Sublist.refl _⟩
  | cons slot rest ih =>
    have hSlot := h slot List.mem_cons_self
    have hRest : ∀ s ∈ rest, s.occupied = true := fun s hs => h s (List.mem_cons_of_mem _ hs)
    simp only [drainLoop, hSlot, if_true]
    split
    · obtain ⟨taken, kept, hLoop, hPerm, hSub⟩ := ih (result ++ [slot.toCommand]) retained hRest
      refine ⟨slot :: taken, kept, ?_, hPerm.cons slot, hSub.cons slot⟩
      simp [hLoop]
    · obtain ⟨taken, kept, hLoop, hPerm, hSub⟩ := ih result (retained ++ [slot]) hRest
      refine ⟨taken, slot :: kept, ?_, ?_, hSub.cons_cons slot⟩
      · simp [hLoop]
      · exact (hPerm.cons slot).trans List.perm_middle.symm

theorem drainPendingWrites_splits (layout : SharedStoreLayout) (limit : Nat)
    (allowedIndexes : Option (Finset UInt32)) (requiredCmdId : Option StdString)
    (h : PendingOccupied layout) :
    ∃ taken kept : List SharedPendingWriteSlot,
      (drainPendingWrites layout limit allowedIndexes requiredCmdId).2 =
        taken.map SharedPendingWriteSlot.toCommand ∧
      (drainPendingWrites layout limit allowedIndexes requiredCmdId).1.pendingWrites.contents = kept ∧
      layout.pendingWrites.contents.Perm (taken ++ kept) ∧
      kept.Sublist layout.pendingWrites.contents := by
  obtain ⟨taken, kept, hLoop, hPerm, hSub⟩ :=
    drainLoop_splits limit allowedIndexes requiredCmdId layout.pendingWrites.contents [] [] h
  simp only [List.nil_append] at hLoop
  have hKept : kept.length < kMaxPendingWriteSlots :=
    (hSub.length_le.trans_eq (Ring.length_contents _)).trans_lt (Ring.count_lt _)
  refine ⟨taken, kept, ?_, ?_, hPerm, hSub⟩
  · simp only [drainPendingWrites, hLoop]
  · simp only [drainPendingWrites, hLoop]
    rw [Ring.contents_foldl_push]
    · simp
    · rw [← Ring.length_contents, Ring.contents_cleared]
      simpa using hKept

theorem submitWriteCommand_ok {store : MemoryPointStore} {layout layout' : SharedStoreLayout}
    {command : PendingWriteCommand} (h : store.submitWriteCommand layout command = .ok layout') :
    command.index ≠ 0 ∧ layout.pendingWrites.count < store.opening.maxPendingWrites ∧
      layout'.pendingWrites =
        layout.pendingWrites.push (pendingSlot (layout.writeSequence + 1) command) := by
  unfold MemoryPointStore.submitWriteCommand pushPendingWrite at h
  split at h
  · cases h
  · next hIndex =>
    split at h
    · cases h
    · next hCount =>
      cases h
      exact ⟨hIndex, Nat.lt_of_not_le hCount, rfl⟩

end EdgeGateway.PointStore
