import EdgeGateway.PointStore.Latest

/-! # What the latest table does

`putLatest` writes one slot, which carried the index before or was free; `removeExpired` only
empties slots.
-/

namespace EdgeGateway.PointStore

open Slots

namespace LatestTable

variable {table : LatestTable} {index : UInt32} {cache : UInt32 → Option Nat} {k : Fin kMaxLatestSlots}

def Carries (table : LatestTable) (k : Fin kMaxLatestSlots) (index : UInt32) : Prop :=
  (table.latest k).occupied = true ∧ (table.latest k).index = index

def Unique (table : LatestTable) : Prop := ∀ index k l, table.Carries k index → table.Carries l index → k = l

theorem cachedSlot_carries (h : table.cachedSlot cache index = some k) : table.Carries k index := by
  unfold cachedSlot at h
  split at h
  · cases h
  · split at h
    · split at h
      · next hSlot =>
        obtain rfl := Option.some.inj h
        simpa [Carries] using hSlot
      · cases h
    · cases h

theorem findLatestSlot_carries (h : table.findLatestSlot index = some k) : table.Carries k index := by
  simpa [Carries] using firstSlot_some h

theorem findLatestSlot_eq_none : table.findLatestSlot index = none ↔ ∀ k, ¬ table.Carries k index := by
  simp [findLatestSlot, firstSlot_eq_none, Carries]

theorem freeLatestSlot_free (h : table.freeLatestSlot = some k) : (table.latest k).occupied = false := by
  have hFirst : firstSlot (fun slot : SharedLatestSlot => !slot.occupied) table.latest = some k →
      (table.latest k).occupied = false := fun h => by simpa using firstSlot_some h
  unfold freeLatestSlot at h
  split at h
  · split at h
    · next hFree =>
      obtain rfl := Option.some.inj h
      simpa using hFree
    · exact hFirst h
  · exact hFirst h

theorem freeLatestSlot_isSome (h : (table.latest k).occupied = false) : table.freeLatestSlot.isSome = true := by
  obtain ⟨l, hFirst⟩ : ∃ l, firstSlot (fun slot : SharedLatestSlot => !slot.occupied) table.latest = some l :=
    firstSlot_exists (i := k) (by simp [h])
  unfold freeLatestSlot
  split
  · split
    · rfl
    · rw [hFirst]
      rfl
  · rw [hFirst]
    rfl

structure Appends (table : LatestTable) (cache : UInt32 → Option Nat) (maxLatestPoints : Nat) (index : UInt32) :
    Prop where
  missed : table.cachedSlot cache index = none
  below : table.latestCount < maxLatestPoints
  room : table.freeLatestSlot.isSome

theorem allocateLatestSlot_cases (table : LatestTable) (index : UInt32) (maxLatestPoints : Nat)
    (cache : UInt32 → Option Nat) :
    (∃ k, table.cachedSlot cache index = some k ∧
      table.allocateLatestSlot index maxLatestPoints cache = (table, cache, .ok k)) ∨
    (∃ k cache', table.Appends cache maxLatestPoints index ∧ (table.latest k).occupied = false ∧
      table.allocateLatestSlot index maxLatestPoints cache = (table.occupySlot k index, cache', .ok k)) ∨
    (∃ e cache', ¬ table.Appends cache maxLatestPoints index ∧
      table.allocateLatestSlot index maxLatestPoints cache = (table, cache', .error e)) := by
  cases hCached : table.cachedSlot cache index with
  | some k => exact Or.inl ⟨k, rfl, by rw [allocateLatestSlot, hCached]⟩
  | none =>
    refine Or.inr ?_
    by_cases hLimit : table.latestCount ≥ maxLatestPoints
    · refine Or.inr ⟨.latestLimitReached, table.forgetStale cache index, fun h => ?_, ?_⟩
      · exact absurd h.below (Nat.not_lt.mpr hLimit)
      · rw [allocateLatestSlot, hCached]
        simp only [if_pos hLimit]
    · cases hFree : table.freeLatestSlot with
      | some k =>
        refine Or.inl ⟨k, Function.update (table.forgetStale cache index) index (some k.val),
          ⟨hCached, Nat.lt_of_not_le hLimit, by rw [hFree]; rfl⟩, freeLatestSlot_free hFree, ?_⟩
        rw [allocateLatestSlot, hCached]
        simp only [if_neg hLimit, hFree]
      | none =>
        refine Or.inr ⟨.latestStoreFull, table.forgetStale cache index, fun h => ?_, ?_⟩
        · have hRoom := h.room
          rw [hFree] at hRoom
          cases hRoom
        · rw [allocateLatestSlot, hCached]
          simp only [if_neg hLimit, hFree]

end LatestTable

section Put

variable (store : MemoryPointStore) (layout : SharedStoreLayout) (value : PointValue)

theorem publishUpdate_table : (store.publishUpdate layout value).2.table = layout.table := by
  unfold MemoryPointStore.publishUpdate
  simp only
  split <;> rfl

/-- The ways `putLatest` ends: a slot of the index rewritten, a free slot taken, or a throw. -/
inductive PutOutcome (store : MemoryPointStore) (layout : SharedStoreLayout) (value : PointValue) : Prop where
  | rewritten (k : Fin kMaxLatestSlots)
      (hCached : layout.table.cachedSlot store.latestSlotByIndex value.index = some k)
      (hTable : (store.putLatest layout value).2.1.table.latest =
        Function.update layout.table.latest k (MemoryPointStore.writtenSlot value))
      (hDone : (store.putLatest layout value).2.2 = none)
  | appended (k : Fin kMaxLatestSlots)
      (hAppends : layout.table.Appends store.latestSlotByIndex store.opening.maxLatestPoints value.index)
      (hFree : (layout.table.latest k).occupied = false)
      (hTable : (store.putLatest layout value).2.1.table.latest =
        Function.update layout.table.latest k (MemoryPointStore.writtenSlot value))
      (hCount : (store.putLatest layout value).2.1.table.latestCount = layout.table.latestCount + 1)
      (hDone : (store.putLatest layout value).2.2 = none)
  | refused (e : StoreError)
      (hAppends : ¬ layout.table.Appends store.latestSlotByIndex store.opening.maxLatestPoints value.index)
      (hTable : (store.putLatest layout value).2.1.table = layout.table)
      (hThrown : (store.putLatest layout value).2.2 = some e)

theorem putLatest_outcome : PutOutcome store layout value := by
  rcases layout.table.allocateLatestSlot_cases value.index store.opening.maxLatestPoints
    store.latestSlotByIndex with ⟨k, hCached, hAlloc⟩ | ⟨k, cache, hAppends, hFree, hAlloc⟩ |
      ⟨e, cache, hAppends, hAlloc⟩
  · refine .rewritten k hCached ?_ ?_
    · rw [MemoryPointStore.putLatest]
      simp only [MemoryPointStore.bindValue, hAlloc]
      rw [publishUpdate_table]
    · rw [MemoryPointStore.putLatest]
      simp only [MemoryPointStore.bindValue, hAlloc]
  · refine .appended k hAppends hFree ?_ ?_ ?_
    · rw [MemoryPointStore.putLatest]
      simp only [MemoryPointStore.bindValue, hAlloc]
      rw [publishUpdate_table]
      simp only [LatestTable.occupySlot, Function.update_idem]
    · rw [MemoryPointStore.putLatest]
      simp only [MemoryPointStore.bindValue, hAlloc]
      rw [publishUpdate_table]
      simp only [LatestTable.occupySlot]
    · rw [MemoryPointStore.putLatest]
      simp only [MemoryPointStore.bindValue, hAlloc]
  · refine .refused e hAppends ?_ ?_
    · rw [MemoryPointStore.putLatest]
      simp only [MemoryPointStore.bindValue, hAlloc]
    · rw [MemoryPointStore.putLatest]
      simp only [MemoryPointStore.bindValue, hAlloc]

end Put

section Remove

variable (registry : ClaimRegistry) (nowMs : Int)

theorem removeVisit_latest (state : LatestTable × (UInt32 → Option Nat)) (k l : Fin kMaxLatestSlots) :
    (removeVisit registry nowMs state k).1.latest l =
      if l = k ∧ isRemoved registry nowMs (state.1.latest l) = true then {} else state.1.latest l := by
  unfold removeVisit
  by_cases hk : l = k
  · subst hk
    split <;> next hRemoved => simp [hRemoved]
  · split <;> simp [hk]

theorem foldl_removeVisit_latest (visits : List (Fin kMaxLatestSlots)) (hNodup : visits.Nodup)
    (state : LatestTable × (UInt32 → Option Nat)) (l : Fin kMaxLatestSlots) :
    (visits.foldl (removeVisit registry nowMs) state).1.latest l =
      if l ∈ visits ∧ isRemoved registry nowMs (state.1.latest l) = true then {} else state.1.latest l := by
  induction visits generalizing state with
  | nil => simp
  | cons k visits ih =>
    obtain ⟨hFresh, hNodup⟩ := List.nodup_cons.mp hNodup
    rw [List.foldl_cons, ih hNodup, removeVisit_latest]
    by_cases hk : l = k
    · subst hk
      simp [hFresh]
    · simp [hk]

theorem removeAmong_latest (visits : List (Fin kMaxLatestSlots)) (hNodup : visits.Nodup)
    (store : MemoryPointStore) (layout : SharedStoreLayout) (l : Fin kMaxLatestSlots) :
    (store.removeAmong visits layout nowMs).2.table.latest l =
      if l ∈ visits ∧
        isRemoved (layout.registry.cleanupStaleOwnersAndClaims nowMs) nowMs (layout.table.latest l) = true
      then {} else layout.table.latest l :=
  foldl_removeVisit_latest _ _ visits hNodup (layout.table, store.latestSlotByIndex) l

theorem removeExpired_latest (store : MemoryPointStore) (layout : SharedStoreLayout) (l : Fin kMaxLatestSlots) :
    (store.removeExpired layout nowMs).2.table.latest l =
      if isRemoved (layout.registry.cleanupStaleOwnersAndClaims nowMs) nowMs (layout.table.latest l) = true
      then {} else layout.table.latest l := by
  rw [MemoryPointStore.removeExpired, removeAmong_latest _ _ (List.nodup_finRange _)]
  simp only [List.mem_finRange, true_and]

end Remove

section Read

variable {store : MemoryPointStore} {layout : SharedStoreLayout} {nowMs : Int}

theorem LatestTable.Unique.findLatestSlot {table : LatestTable} {index : UInt32} {k : Fin kMaxLatestSlots}
    (hUnique : table.Unique) (h : table.Carries k index) : table.findLatestSlot index = some k := by
  apply firstSlot_eq_of_unique
  · simpa [LatestTable.Carries] using h
  · intro l hl
    exact hUnique index l k (by simpa [LatestTable.Carries] using hl) h

theorem getLatestByIndex_eq (hUnique : layout.table.Unique) (index : UInt32) :
    store.getLatestByIndex layout index nowMs =
      (layout.table.findLatestSlot index).map fun k =>
        storedValue (layout.table.latest k) (store.bindings index) nowMs := by
  rw [MemoryPointStore.getLatestByIndex]
  cases hCached : layout.table.cachedSlot store.latestSlotByIndex index with
  | none => rfl
  | some k => rw [hUnique.findLatestSlot (LatestTable.cachedSlot_carries hCached)]

theorem mergeLatest_fresh {merged : List StoredPointValue} {value : StoredPointValue}
    (h : ∀ entry ∈ merged, entry.index ≠ value.index) : mergeLatest merged value = merged ++ [value] := by
  have hFind : merged.find? (fun existing => existing.index == value.index) = none := by
    simpa using h
  rw [mergeLatest, hFind]

theorem storedValue_index (slot : SharedLatestSlot) (binding : Option PointBinding) (nowMs : Int) :
    (storedValue slot binding nowMs).index = slot.index := rfl

theorem foldl_mergeVisit (hUnique : layout.table.Unique) (visits : List (Fin kMaxLatestSlots))
    (hNodup : visits.Nodup) (merged : List StoredPointValue)
    (hFresh : ∀ entry ∈ merged, ∀ k ∈ visits, ¬ layout.table.Carries k entry.index) :
    visits.foldl (store.mergeVisit layout nowMs) merged =
      merged ++ (visits.filter fun k => (layout.table.latest k).occupied).map fun k =>
        storedValue (layout.table.latest k) (store.bindings (layout.table.latest k).index) nowMs := by
  induction visits generalizing merged with
  | nil => simp
  | cons k visits ih =>
    obtain ⟨hk, hNodup⟩ := List.nodup_cons.mp hNodup
    rw [List.foldl_cons]
    cases hOccupied : (layout.table.latest k).occupied with
    | false =>
      have hVisit : store.mergeVisit layout nowMs merged k = merged := by
        simp [MemoryPointStore.mergeVisit, hOccupied]
      rw [hVisit, ih hNodup merged fun entry hEntry l hl => hFresh entry hEntry l (List.mem_cons_of_mem _ hl)]
      simp [hOccupied]
    | true =>
      have hVisit : store.mergeVisit layout nowMs merged k = merged ++
          [storedValue (layout.table.latest k) (store.bindings (layout.table.latest k).index) nowMs] := by
        simp only [MemoryPointStore.mergeVisit, hOccupied, Bool.not_true, Bool.false_eq_true, if_false]
        apply mergeLatest_fresh
        intro entry hEntry hSame
        exact hFresh entry hEntry k List.mem_cons_self ⟨hOccupied, hSame.symm⟩
      rw [hVisit, ih hNodup]
      · simp [hOccupied]
      · intro entry hEntry l hl hCarries
        obtain hEntry | hEntry := List.mem_append.mp hEntry
        · exact hFresh entry hEntry l (List.mem_cons_of_mem _ hl) hCarries
        · rw [List.mem_singleton.mp hEntry, storedValue_index] at hCarries
          obtain rfl := hUnique _ l k hCarries ⟨hOccupied, rfl⟩
          exact hk hl

theorem filter_mergeSort {α : Type} {entries : List α} {le : α → α → Bool} {p : α → Bool}
    {entry : Option α}
    (h : entries.filter p = entry.toList) : (entries.mergeSort le).filter p = entry.toList := by
  have hPerm := (List.mergeSort_perm entries le).filter p
  rw [h] at hPerm
  cases entry with
  | none => exact List.perm_nil.mp hPerm
  | some x => exact List.perm_singleton.mp hPerm

theorem getAllLatest_filter (hUnique : layout.table.Unique) (index : UInt32) :
    ((store.getAllLatest layout nowMs).filter fun value => value.index == index) =
      (store.getLatestByIndex layout index nowMs).toList := by
  rw [MemoryPointStore.getAllLatest]
  apply filter_mergeSort
  rw [foldl_mergeVisit hUnique _ (List.nodup_finRange _) [] (by simp), List.nil_append, List.filter_map,
    List.filter_filter, getLatestByIndex_eq hUnique]
  have hSelected : ∀ k, (((fun value : StoredPointValue => value.index == index) ∘ fun k =>
        storedValue (layout.table.latest k) (store.bindings (layout.table.latest k).index) nowMs) k &&
        (layout.table.latest k).occupied) =
      ((layout.table.latest k).occupied && (layout.table.latest k).index == index) :=
    fun k => Bool.and_comm _ _
  have hFound := @filter_finRange _ _ (fun slot : SharedLatestSlot => slot.occupied && slot.index == index)
    layout.table.latest fun k l hk hl => hUnique index k l
      (by simpa [LatestTable.Carries] using hk) (by simpa [LatestTable.Carries] using hl)
  simp only [hSelected]
  rw [hFound, ← LatestTable.findLatestSlot]
  cases hSlot : layout.table.findLatestSlot index with
  | none => rfl
  | some k =>
    have hIndex := (LatestTable.findLatestSlot_carries hSlot).2
    simp [hIndex]

end Read

end EdgeGateway.PointStore
