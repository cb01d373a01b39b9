import EdgeGateway.PointStore.LatestSpec

/-! # Reading many latest values at once -/

namespace EdgeGateway.PointStore

open Slots

namespace LatestTable

variable (table : LatestTable)

def holds (index : UInt32) (k : Fin kMaxLatestSlots) : Bool :=
  (table.latest k).occupied && (table.latest k).index == index

def discoveredSlot (discovered : List (Fin kMaxLatestSlots)) (index : UInt32) : Option (Fin kMaxLatestSlots) :=
  discovered.find? fun k => (table.latest k).index == index

def emplaceSlot (discovered : List (Fin kMaxLatestSlots)) (k : Fin kMaxLatestSlots) : List (Fin kMaxLatestSlots) :=
  if (table.discoveredSlot discovered (table.latest k).index).isSome then discovered else discovered ++ [k]

/-- The pass over the slots for the indexes without a cache entry. -/
def discoverSlots (missing : Finset UInt32) :
    List (Fin kMaxLatestSlots) → List (Fin kMaxLatestSlots) → List (Fin kMaxLatestSlots)
  | [], discovered => discovered
  | k :: rest, discovered =>
    if discovered.length < missing.card then
      discoverSlots missing rest
        (if (table.latest k).occupied && (table.latest k).index ∈ missing then table.emplaceSlot discovered k
        else discovered)
    else discovered

def batchSlot (snapshot : UInt32 → Option Nat) (missing : Finset UInt32) (discovered : List (Fin kMaxLatestSlots))
    (index : UInt32) : Option (Fin kMaxLatestSlots) :=
  match table.cachedSlot snapshot index with
  | some k => some k
  | none =>
    match (table.discoveredSlot discovered index).filter (table.holds index) with
    | some k => some k
    | none => if index ∈ missing then none else table.findLatestSlot index

end LatestTable

namespace MemoryPointStore

def missingIndexes (store : MemoryPointStore) (indexes : List UInt32) : Finset UInt32 :=
  (indexes.filter fun index => (store.latestSlotByIndex index).isNone).toFinset

def getLatestByIndexes (store : MemoryPointStore) (layout : SharedStoreLayout) (indexes : List UInt32) (nowMs : Int) :
    List StoredPointValue :=
  let snapshot := fun index => if index ∈ indexes then store.latestSlotByIndex index else none
  let bindings := fun index => if index ∈ indexes then store.bindings index else none
  let missing := store.missingIndexes indexes
  let discovered := layout.table.discoverSlots missing (List.finRange kMaxLatestSlots) []
  indexes.filterMap fun index =>
    (layout.table.batchSlot snapshot missing discovered index).map fun k =>
      storedValue (layout.table.latest k) (bindings (layout.table.latest k).index) nowMs

end MemoryPointStore

section Discovery

variable {table : LatestTable} {missing : Finset UInt32} {visited rest discovered : List (Fin kMaxLatestSlots)}

/-- What the pass knows behind the visited slots: the first of them for each missing index. -/
structure Discovered (table : LatestTable) (missing : Finset UInt32) (visited discovered : List (Fin kMaxLatestSlots)) :
    Prop where
  occupied : ∀ k ∈ discovered, (table.latest k).occupied = true
  wanted : ∀ k ∈ discovered, (table.latest k).index ∈ missing
  nodup : (discovered.map fun k => (table.latest k).index).Nodup
  first : ∀ index ∈ missing, discovered.find? (table.holds index) = visited.find? (table.holds index)

theorem discovered_nil : Discovered table missing [] [] where
  occupied := List.forall_mem_nil _
  wanted := List.forall_mem_nil _
  nodup := List.nodup_nil
  first := fun _ _ => rfl

theorem discoveredSlot_of_occupied (hOccupied : ∀ k ∈ discovered, (table.latest k).occupied = true) (index : UInt32) :
    table.discoveredSlot discovered index = discovered.find? (table.holds index) := by
  rw [LatestTable.discoveredSlot]
  induction discovered with
  | nil => rfl
  | cons k discovered ih =>
    obtain ⟨hk, hRest⟩ := List.forall_mem_cons.mp hOccupied
    rw [List.find?_cons, List.find?_cons, ih hRest, LatestTable.holds, hk, Bool.true_and]

theorem Discovered.slot (h : Discovered table missing visited discovered) (index : UInt32) :
    table.discoveredSlot discovered index = discovered.find? (table.holds index) :=
  discoveredSlot_of_occupied h.occupied index

theorem Discovered.complete (h : Discovered table missing visited discovered) (hFull : missing.card ≤ discovered.length)
    {index : UInt32} (hIndex : index ∈ missing) : ∃ k, visited.find? (table.holds index) = some k := by
  have hKeys : (discovered.map fun k => (table.latest k).index).toFinset = missing := by
    apply Finset.eq_of_subset_of_card_le
    · intro key hKey
      obtain ⟨k, hk, rfl⟩ := List.mem_map.mp (List.mem_toFinset.mp hKey)
      exact h.wanted k hk
    · rw [List.toFinset_card_of_nodup h.nodup, List.length_map]
      exact hFull
  rw [← hKeys, List.mem_toFinset] at hIndex
  obtain ⟨k, hk, hSame⟩ := List.mem_map.mp hIndex
  rw [← h.first index (by rw [← hSame]; exact h.wanted k hk)]
  apply Option.isSome_iff_exists.mp
  rw [List.find?_isSome]
  refine ⟨k, hk, ?_⟩
  rw [LatestTable.holds, h.occupied k hk, hSame, beq_self_eq_true]
  rfl

theorem Discovered.visit (h : Discovered table missing visited discovered) (k : Fin kMaxLatestSlots) :
    Discovered table missing (visited ++ [k])
      (if (table.latest k).occupied && (table.latest k).index ∈ missing then table.emplaceSlot discovered k
        else discovered) := by
  have hSingle : ∀ index, ¬table.holds index k = true →
      (visited ++ [k]).find? (table.holds index) = visited.find? (table.holds index) := by
    intro index hMiss
    rw [List.find?_append, List.find?_cons_of_neg hMiss, List.find?_nil, Option.or_none]
  split
  · rename_i hWanted
    obtain ⟨hOccupied, hMissing⟩ := Bool.and_eq_true_iff.mp hWanted
    have hMissing := of_decide_eq_true hMissing
    rw [LatestTable.emplaceSlot, h.slot]
    split
    · rename_i hKnown
      refine { h with first := fun index hIndex => ?_ }
      rw [h.first index hIndex, List.find?_append]
      obtain hHolds | hMiss := Decidable.em (table.holds index k = true)
      · have hSame : (table.latest k).index = index := eq_of_beq (Bool.and_eq_true_iff.mp hHolds).2
        rw [hSame, h.first index hIndex] at hKnown
        obtain ⟨j, hj⟩ := Option.isSome_iff_exists.mp hKnown
        rw [hj, Option.some_or]
      · rw [List.find?_cons_of_neg hMiss, List.find?_nil, Option.or_none]
    · rename_i hUnknown
      rw [Option.not_isSome_iff_eq_none] at hUnknown
      constructor
      · exact List.forall_mem_append.mpr ⟨h.occupied, List.forall_mem_singleton.mpr hOccupied⟩
      · exact List.forall_mem_append.mpr ⟨h.wanted, List.forall_mem_singleton.mpr hMissing⟩
      · rw [List.map_append, List.map_singleton, List.nodup_append]
        refine ⟨h.nodup, List.nodup_singleton _, ?_⟩
        rintro key hKey other hOther rfl
        rw [List.mem_singleton.mp hOther] at hKey
        obtain ⟨j, hj, hSame⟩ := List.mem_map.mp hKey
        apply List.find?_eq_none.mp hUnknown j hj
        rw [LatestTable.holds, h.occupied j hj, hSame, beq_self_eq_true]
        rfl
      · intro index hIndex
        rw [List.find?_append, List.find?_append, h.first index hIndex]
  · rename_i hUnwanted
    refine { h with first := fun index hIndex => ?_ }
    rw [hSingle index, h.first index hIndex]
    intro hHolds
    obtain ⟨hOccupied, hSame⟩ := Bool.and_eq_true_iff.mp hHolds
    apply hUnwanted
    rw [hOccupied, eq_of_beq hSame, decide_eq_true hIndex]
    rfl

theorem Discovered.pass (h : Discovered table missing visited discovered) :
    (∀ k ∈ table.discoverSlots missing rest discovered, (table.latest k).index ∈ missing) ∧
      ∀ index ∈ missing, table.discoveredSlot (table.discoverSlots missing rest discovered) index =
        (visited ++ rest).find? (table.holds index) := by
  induction rest generalizing visited discovered with
  | nil =>
    refine ⟨h.wanted, fun index hIndex => ?_⟩
    rw [List.append_nil, LatestTable.discoverSlots, h.slot, h.first index hIndex]
  | cons k rest ih =>
    rw [LatestTable.discoverSlots]
    split
    · have hRest := ih (h.visit k)
      rwa [List.append_assoc] at hRest
    · rename_i hFull
      refine ⟨h.wanted, fun index hIndex => ?_⟩
      obtain ⟨j, hj⟩ := h.complete (Nat.le_of_not_lt hFull) hIndex
      rw [h.slot, h.first index hIndex, List.find?_append, hj, Option.some_or]

end Discovery

section Batch

variable {store : MemoryPointStore} {layout : SharedStoreLayout} {indexes : List UInt32} {index : UInt32} {nowMs : Int}

theorem findLatestSlot_eq (table : LatestTable) (index : UInt32) :
    table.findLatestSlot index = (List.finRange kMaxLatestSlots).find? (table.holds index) := rfl

/-- The slot that a read of one index takes. -/
def LatestTable.singleSlot (table : LatestTable) (cache : UInt32 → Option Nat) (index : UInt32) :
    Option (Fin kMaxLatestSlots) :=
  match table.cachedSlot cache index with
  | some k => some k
  | none => table.findLatestSlot index

theorem getLatestByIndex_singleSlot :
    store.getLatestByIndex layout index nowMs = (layout.table.singleSlot store.latestSlotByIndex index).map fun k =>
      storedValue (layout.table.latest k) (store.bindings index) nowMs := rfl

theorem LatestTable.singleSlot_carries {table : LatestTable} {cache : UInt32 → Option Nat} {k : Fin kMaxLatestSlots}
    (h : table.singleSlot cache index = some k) : table.Carries k index := by
  rw [LatestTable.singleSlot] at h
  split at h
  · rename_i j hCached
    obtain rfl := Option.some.inj h
    exact LatestTable.cachedSlot_carries hCached
  · exact LatestTable.findLatestSlot_carries h

theorem LatestTable.cachedSlot_congr {table : LatestTable} {cache snapshot : UInt32 → Option Nat}
    (h : snapshot index = cache index) : table.cachedSlot snapshot index = table.cachedSlot cache index := by
  rw [LatestTable.cachedSlot, LatestTable.cachedSlot, h]

/-- In a batch each of its indexes gets the slot that a read of its own gets. -/
theorem batchSlot_eq (hIndex : index ∈ indexes) :
    layout.table.batchSlot (fun index => if index ∈ indexes then store.latestSlotByIndex index else none)
        (store.missingIndexes indexes)
        (layout.table.discoverSlots (store.missingIndexes indexes) (List.finRange kMaxLatestSlots) []) index =
      layout.table.singleSlot store.latestSlotByIndex index := by
  obtain ⟨hWanted, hPass⟩ := @Discovered.pass layout.table (store.missingIndexes indexes) []
    (List.finRange kMaxLatestSlots) [] discovered_nil
  rw [LatestTable.batchSlot, LatestTable.singleSlot, LatestTable.cachedSlot_congr (if_pos hIndex)]
  cases hCached : layout.table.cachedSlot store.latestSlotByIndex index with
  | some k => rfl
  | none =>
    dsimp only
    obtain hMissing | hKnown := Decidable.em (index ∈ store.missingIndexes indexes)
    · rw [hPass index hMissing, List.nil_append, findLatestSlot_eq, if_pos hMissing]
      cases hFound : (List.finRange kMaxLatestSlots).find? (layout.table.holds index) with
      | none => rfl
      | some k => rw [Option.filter_some_pos (List.find?_some hFound)]
    · have hNone : layout.table.discoveredSlot
          (layout.table.discoverSlots (store.missingIndexes indexes) (List.finRange kMaxLatestSlots) []) index = none := by
        rw [LatestTable.discoveredSlot, List.find?_eq_none]
        intro k hk hSame
        exact hKnown (eq_of_beq hSame ▸ hWanted k hk)
      rw [hNone, Option.filter_none, if_neg hKnown]

theorem getLatestByIndexes_eq (store : MemoryPointStore) (layout : SharedStoreLayout) (indexes : List UInt32)
    (nowMs : Int) :
    store.getLatestByIndexes layout indexes nowMs =
      indexes.filterMap fun index => store.getLatestByIndex layout index nowMs := by
  rw [MemoryPointStore.getLatestByIndexes]
  apply List.filterMap_congr
  intro index hIndex
  rw [getLatestByIndex_singleSlot, batchSlot_eq hIndex]
  cases hSlot : layout.table.singleSlot store.latestSlotByIndex index with
  | none => rfl
  | some k =>
    have hSame := (LatestTable.singleSlot_carries hSlot).2
    rw [Option.map_some, Option.map_some, hSame]
    dsimp only
    rw [if_pos hIndex]

end Batch

end EdgeGateway.PointStore
