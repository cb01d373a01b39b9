import EdgeGateway.Foundation.Run
import EdgeGateway.PointStore.LatestSpec

/-! # Processes sharing one segment

A system is the segment with the handles opened on it. Every operation holds the segment's lock, so
a run is a sequence of whole operations, each with the time it reads.
-/

namespace EdgeGateway.PointStore

universe u

structure System (H : Type u) where
  layout : SharedStoreLayout
  stores : H → Option MemoryPointStore
  now : Int

inductive StoreEvent (H : Type u) where
  | openStore (h : H) (opening : Opening) (ownerSource : StdString)
  | registerDevicePoints (h : H) (configs : List DeviceConfig) (ts : Int)
  | heartbeatRegisteredPoints (h : H) (order : HashOrder) (nowMs : Int)
  | removeExpired (h : H) (nowMs : Int)
  | releaseOwnerClaims (h : H) (ts : Int)
  | putLatest (h : H) (value : PointValue)

def StoreEvent.time {H : Type u} : StoreEvent H → Option Int
  | .openStore .. => none
  | .registerDevicePoints _ _ ts => some ts
  | .heartbeatRegisteredPoints _ _ nowMs => some nowMs
  | .removeExpired _ nowMs => some nowMs
  | .releaseOwnerClaims _ ts => some ts
  | .putLatest .. => none

def MemoryPointStore.opened (opening : Opening) (ownerId : UInt64) (ownerSource : StdString)
    (layout : SharedStoreLayout) : MemoryPointStore where
  opening := opening
  ownerId := ownerId
  ownerSource := ownerSource
  keyToIndex := fun _ => none
  bindings := fun _ => none
  latestSlotByIndex := layout.table.slotIndex
  lastPersistentSampleTs := fun _ => none
  persistentDropped := 0
  registeredIndexes := ∅

namespace System

variable {H : Type u} [DecidableEq H]

def start (startMs : Int) : System H := ⟨.initial, fun _ => none, startMs⟩

def through (s : System H) (h : H) (time : Option Int)
    (f : MemoryPointStore → MemoryPointStore × SharedStoreLayout) : System H :=
  match s.stores h with
  | none => s
  | some store =>
    { layout := (f store).2
      stores := Function.update s.stores h (some (f store).1)
      now := time.getD s.now }

def opening (s : System H) (ownerId : H → UInt64) (h : H) (opening : Opening) (ownerSource : StdString) :
    System H :=
  match s.stores h with
  | some _ => s
  | none =>
    { s with stores := Function.update s.stores h (some (.opened opening (ownerId h) ownerSource s.layout)) }

def step (ownerId : H → UInt64) (s : System H) : StoreEvent H → System H
  | .openStore h opening ownerSource => s.opening ownerId h opening ownerSource
  | .registerDevicePoints h configs ts =>
    s.through h (some ts) fun store =>
      let outcome := store.registerDevicePoints s.layout.registry configs ts
      (outcome.1, { s.layout with registry := outcome.2.1 })
  | .heartbeatRegisteredPoints h order nowMs =>
    s.through h (some nowMs) fun store =>
      (store, { s.layout with
        registry := (s.layout.registry.heartbeatRegisteredPoints store.ownerId store.ownerSource
          store.registeredIndexes order nowMs).1 })
  | .removeExpired h nowMs => s.through h (some nowMs) fun store => store.removeExpired s.layout nowMs
  | .releaseOwnerClaims h ts =>
    s.through h (some ts) fun store =>
      (store, { s.layout with registry := s.layout.registry.releaseOwnerClaims store.ownerId ts })
  | .putLatest h value =>
    s.through h none fun store => ((store.putLatest s.layout value).1, (store.putLatest s.layout value).2.1)

def Timely (s : System H) (event : StoreEvent H) : Prop := ∀ t, event.time = some t → s.now ≤ t

theorem through_none {s : System H} {h : H} (time : Option Int)
    (f : MemoryPointStore → MemoryPointStore × SharedStoreLayout) (hClosed : s.stores h = none) :
    s.through h time f = s := by
  simp [through, hClosed]

theorem through_some {s : System H} {h : H} {store : MemoryPointStore} (time : Option Int)
    (f : MemoryPointStore → MemoryPointStore × SharedStoreLayout) (hOpen : s.stores h = some store) :
    s.through h time f =
      { layout := (f store).2
        stores := Function.update s.stores h (some (f store).1)
        now := time.getD s.now } := by
  simp [through, hOpen]

theorem through_stores_of_ne {s : System H} {h other : H} (time : Option Int)
    (f : MemoryPointStore → MemoryPointStore × SharedStoreLayout) (hOther : other ≠ h) :
    (s.through h time f).stores other = s.stores other := by
  cases hStore : s.stores h with
  | none => rw [through_none _ _ hStore]
  | some store =>
    rw [through_some _ _ hStore]
    exact Function.update_of_ne hOther _ _

theorem step_putLatest_layout (ownerId : H → UInt64) {s : System H} {h : H} {store : MemoryPointStore}
    (value : PointValue) (hOpen : s.stores h = some store) :
    (s.step ownerId (.putLatest h value)).layout = (store.putLatest s.layout value).2.1 := by
  rw [step, through_some _ _ hOpen]

end System

def rivalId (h : Bool) : UInt64 := if h then 2 else 1

def rival (h : Bool) : MemoryPointStore := .opened .segmentName (rivalId h) [] .initial

def bothOpen : System Bool where
  layout := .initial
  stores := Function.update (Function.update (fun _ => none) false (some (rival false))) true (some (rival true))
  now := 0

theorem bothOpen_layout : bothOpen.layout = .initial := rfl

theorem step_bothOpen : ((System.start 0).step rivalId (.openStore false .segmentName [])).step rivalId
    (.openStore true .segmentName []) = bothOpen := by
  simp [System.step, System.opening, System.start, bothOpen, rival, rivalId]

/-! ## The count of the latest table

The header's count follows the occupied slots through every run of the processes, so a
`putLatest` that needs a new slot is refused for its handle's limit or for want of a slot.
-/

open Slots

namespace LatestTable

def occupiedSlots (table : LatestTable) : Nat := tally (·.occupied) table.latest

def Counted (table : LatestTable) : Prop := table.latestCount = table.occupiedSlots

variable {table table' : LatestTable} {k : Fin kMaxLatestSlots} {slot : SharedLatestSlot}

theorem occupiedSlots_update (hTable : table'.latest = Function.update table.latest k slot) :
    table'.occupiedSlots + (table.latest k).occupied.toNat = table.occupiedSlots + slot.occupied.toNat := by
  rw [occupiedSlots, occupiedSlots, hTable]
  exact tally_update table.latest k slot

theorem Counted.emptied (h : table.Counted) (hOccupied : (table.latest k).occupied = true)
    (hTable : table'.latest = Function.update table.latest k {}) (hCount : table'.latestCount = table.latestCount - 1) :
    table'.Counted := by
  have hSlots := occupiedSlots_update hTable
  have hEmpty : ({} : SharedLatestSlot).occupied.toNat = 0 := rfl
  rw [hOccupied, hEmpty, Bool.toNat_true] at hSlots
  rw [Counted] at h ⊢
  omega

theorem counted_initial : SharedStoreLayout.initial.table.Counted :=
  (tally_eq_zero fun _ => rfl).symm

end LatestTable

section Steps

variable {store : MemoryPointStore} {layout : SharedStoreLayout}

theorem putLatest_latestCount (value : PointValue) :
    (store.putLatest layout value).2.1.table.latestCount = layout.table.latestCount ∨
      layout.table.cachedSlot store.latestSlotByIndex value.index = none ∧
        (store.putLatest layout value).2.1.table.latestCount = layout.table.latestCount + 1 := by
  obtain ⟨k, -, hAlloc⟩ | ⟨k, cache, hAppends, -, hAlloc⟩ | ⟨e, cache, -, hAlloc⟩ :=
    layout.table.allocateLatestSlot_cases value.index store.opening.maxLatestPoints store.latestSlotByIndex
  · left
    rw [MemoryPointStore.putLatest]
    simp only [MemoryPointStore.bindValue, hAlloc, publishUpdate_table]
  · right
    refine ⟨hAppends.missed, ?_⟩
    rw [MemoryPointStore.putLatest]
    simp only [MemoryPointStore.bindValue, hAlloc, publishUpdate_table, LatestTable.occupySlot]
  · left
    rw [MemoryPointStore.putLatest]
    simp only [MemoryPointStore.bindValue, hAlloc]

theorem putLatest_counted (value : PointValue) (h : layout.table.Counted) :
    (store.putLatest layout value).2.1.table.Counted := by
  have hWritten : (MemoryPointStore.writtenSlot value).occupied = true := rfl
  rw [LatestTable.Counted] at h ⊢
  cases putLatest_outcome store layout value with
  | rewritten k hCached hTable _ =>
    have hSlots := LatestTable.occupiedSlots_update hTable
    rw [(LatestTable.cachedSlot_carries hCached).1, hWritten] at hSlots
    obtain hSame | ⟨hMissed, -⟩ := @putLatest_latestCount store layout value
    · omega
    · cases hMissed.symm.trans hCached
  | appended k _ hFree hTable hCount _ =>
    have hSlots := LatestTable.occupiedSlots_update hTable
    rw [hFree, hWritten, Bool.toNat_false, Bool.toNat_true] at hSlots
    omega
  | refused e _ hTable _ =>
    rw [hTable]
    exact h

theorem removeVisit_counted (registry : ClaimRegistry) (nowMs : Int) (state : LatestTable × (UInt32 → Option Nat))
    (k : Fin kMaxLatestSlots) (h : state.1.Counted) : (removeVisit registry nowMs state k).1.Counted := by
  rw [removeVisit]
  split
  · rename_i hRemoved
    have hOccupied : (state.1.latest k).occupied = true := by
      rw [isRemoved, Bool.and_eq_true] at hRemoved
      exact hRemoved.1
    exact h.emptied hOccupied rfl rfl
  · exact h

theorem foldl_removeVisit_counted (registry : ClaimRegistry) (nowMs : Int) (visits : List (Fin kMaxLatestSlots))
    (state : LatestTable × (UInt32 → Option Nat)) (h : state.1.Counted) :
    (visits.foldl (removeVisit registry nowMs) state).1.Counted := by
  induction visits generalizing state with
  | nil => exact h
  | cons k visits ih => exact ih _ (removeVisit_counted registry nowMs state k h)

theorem removeAmong_counted (visits : List (Fin kMaxLatestSlots)) (nowMs : Int) (h : layout.table.Counted) :
    (store.removeAmong visits layout nowMs).2.table.Counted :=
  foldl_removeVisit_counted _ nowMs visits (layout.table, store.latestSlotByIndex) h

theorem removeExpired_counted (nowMs : Int) (h : layout.table.Counted) :
    (store.removeExpired layout nowMs).2.table.Counted := by
  rw [MemoryPointStore.removeExpired]
  exact removeAmong_counted _ nowMs h

theorem putLatest_throws_iff (value : PointValue)
    (hMissed : layout.table.cachedSlot store.latestSlotByIndex value.index = none) :
    (∃ e, (store.putLatest layout value).2.2 = some e) ↔
      store.opening.maxLatestPoints ≤ layout.table.latestCount ∨ ∀ k, (layout.table.latest k).occupied = true := by
  constructor
  · rintro ⟨e, hThrown⟩
    cases putLatest_outcome store layout value with
    | rewritten k hCached => cases hMissed.symm.trans hCached
    | appended k _ _ _ _ hDone => cases hThrown.symm.trans hDone
    | refused _ hAppends =>
      by_contra hRoom
      rw [not_or, not_le, not_forall] at hRoom
      obtain ⟨hBelow, k, hFree⟩ := hRoom
      exact hAppends ⟨hMissed, hBelow, LatestTable.freeLatestSlot_isSome (Bool.eq_false_iff.mpr hFree)⟩
  · intro hFull
    cases putLatest_outcome store layout value with
    | rewritten k hCached => cases hMissed.symm.trans hCached
    | appended k hAppends hFree =>
      obtain hLimit | hAll := hFull
      · exact absurd hAppends.below (Nat.not_lt.mpr hLimit)
      · exact absurd (hFree.symm.trans (hAll k)) Bool.false_ne_true
    | refused e _ _ hThrown => exact ⟨e, hThrown⟩

end Steps

namespace System

variable {H : Type u} [DecidableEq H]

theorem step_counted (ownerId : H → UInt64) (s : System H) (event : StoreEvent H) (h : s.layout.table.Counted) :
    (s.step ownerId event).layout.table.Counted := by
  have hThrough : ∀ (handle : H) (time : Option Int) (f : MemoryPointStore → MemoryPointStore × SharedStoreLayout),
      (∀ store, (f store).2.table.Counted) → (s.through handle time f).layout.table.Counted := by
    intro handle time f hCall
    cases hOpen : s.stores handle with
    | none =>
      rw [through_none time f hOpen]
      exact h
    | some store =>
      rw [through_some time f hOpen]
      exact hCall store
  cases event with
  | openStore handle opening ownerSource =>
    rw [step, System.opening]
    split <;> exact h
  | registerDevicePoints handle configs ts => exact hThrough _ _ _ fun _ => h
  | heartbeatRegisteredPoints handle order nowMs => exact hThrough _ _ _ fun _ => h
  | removeExpired handle nowMs => exact hThrough _ _ _ fun _ => removeExpired_counted nowMs h
  | releaseOwnerClaims handle ts => exact hThrough _ _ _ fun _ => h
  | putLatest handle value => exact hThrough _ _ _ fun _ => putLatest_counted value h

theorem run_counted (ownerId : H → UInt64) (startMs : Int) (events : List (StoreEvent H)) :
    (Run.after (step ownerId) (start startMs) events).layout.table.Counted := by
  induction events using List.reverseRecOn with
  | nil => exact LatestTable.counted_initial
  | append_singleton events event ih =>
    rw [Run.after_snoc]
    exact step_counted ownerId _ event ih

/-- The header counts the occupied slots, and a put without a cached slot throws exactly when the limit or the
    slots are reached. -/
theorem latest_accounting (ownerId : H → UInt64) (startMs : Int) (events : List (StoreEvent H)) :
    (Run.after (step ownerId) (start startMs) events).layout.table.latestCount =
        tally SharedLatestSlot.occupied (Run.after (step ownerId) (start startMs) events).layout.table.latest ∧
      ∀ handle store value, (Run.after (step ownerId) (start startMs) events).stores handle = some store →
        (Run.after (step ownerId) (start startMs) events).layout.table.cachedSlot store.latestSlotByIndex value.index =
          none →
        ((∃ e, (store.putLatest (Run.after (step ownerId) (start startMs) events).layout value).2.2 = some e) ↔
          store.opening.maxLatestPoints ≤ (Run.after (step ownerId) (start startMs) events).layout.table.latestCount ∨
            ∀ k, ((Run.after (step ownerId) (start startMs) events).layout.table.latest k).occupied = true) :=
  ⟨run_counted ownerId startMs events, fun _ _ value _ hMissed => putLatest_throws_iff value hMissed⟩

end System

end EdgeGateway.PointStore
