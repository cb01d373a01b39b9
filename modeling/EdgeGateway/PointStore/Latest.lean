import EdgeGateway.PointStore.Claims
import Mathlib.Data.List.Sort

/-! # Latest values

`putLatest` finds its slot through the handle's own cache, the readers fall back to the table.
-/

namespace EdgeGateway.PointStore

open Slots

def isExpired (expireAt nowMs : Int) : Bool := decide (expireAt > 0) && decide (nowMs > expireAt)

def markStale (value : StoredPointValue) (nowMs : Int) : StoredPointValue :=
  { value with stale := isExpired value.expireAt nowMs }

namespace LatestTable

def findLatestSlot (table : LatestTable) (index : UInt32) : Option (Fin kMaxLatestSlots) :=
  firstSlot (fun slot => slot.occupied && slot.index == index) table.latest

def cachedSlot (table : LatestTable) (cache : UInt32 → Option Nat) (index : UInt32) :
    Option (Fin kMaxLatestSlots) :=
  match cache index with
  | none => none
  | some k =>
    if h : k < kMaxLatestSlots then
      if (table.latest ⟨k, h⟩).occupied && (table.latest ⟨k, h⟩).index == index then some ⟨k, h⟩ else none
    else none

/-- A cache entry that points at a slot of another index is dropped on the way. -/
def forgetStale (table : LatestTable) (cache : UInt32 → Option Nat) (index : UInt32) : UInt32 → Option Nat :=
  match cache index with
  | some k =>
    if k < kMaxLatestSlots ∧ table.cachedSlot cache index = none then Function.update cache index none else cache
  | none => cache

def occupySlot (table : LatestTable) (k : Fin kMaxLatestSlots) (index : UInt32) : LatestTable where
  latestCount := table.latestCount + 1
  latest := Function.update table.latest k { index := index, occupied := true }

def freeLatestSlot (table : LatestTable) : Option (Fin kMaxLatestSlots) :=
  if h : table.latestCount < kMaxLatestSlots then
    if !(table.latest ⟨table.latestCount, h⟩).occupied then
      some ⟨table.latestCount, h⟩
    else
      firstSlot (fun slot => !slot.occupied) table.latest
  else
    firstSlot (fun slot => !slot.occupied) table.latest

/-- `allocateLatestSlot` with a cache, as `putLatest` calls it. -/
def allocateLatestSlot (table : LatestTable) (index : UInt32) (maxLatestPoints : Nat)
    (cache : UInt32 → Option Nat) :
    LatestTable × (UInt32 → Option Nat) × Except StoreError (Fin kMaxLatestSlots) :=
  match table.cachedSlot cache index with
  | some k => (table, cache, .ok k)
  | none =>
    let cache := table.forgetStale cache index
    if table.latestCount ≥ maxLatestPoints then
      (table, cache, .error .latestLimitReached)
    else
      match table.freeLatestSlot with
      | some k => (table.occupySlot k index, Function.update cache index (some k.val), .ok k)
      | none => (table, cache, .error .latestStoreFull)

/-- The cache a handle builds when it opens the segment: the last slot of each index wins. -/
def slotIndex (table : LatestTable) : UInt32 → Option Nat :=
  (List.finRange kMaxLatestSlots).foldl (fun cache i =>
    if (table.latest i).occupied then Function.update cache (table.latest i).index (some i.val) else cache)
    (fun _ => none)

end LatestTable

def pushPointUpdate (layout : SharedStoreLayout) (update : PointUpdateRecord) : SharedStoreLayout :=
  let slot : SharedPointUpdateSlot :=
    { sequence := layout.pointUpdateSequence + 1, index := update.index, value := update.value,
      quality := update.quality, ts := update.ts, expireAt := update.expireAt, occupied := true }
  let ring := layout.pointUpdates.push slot
  { layout with
    pointUpdateSequence := layout.pointUpdateSequence + 1
    pointUpdates := if ring.tail = ring.head then { ring with head := Ring.next ring.head } else ring }

/-- The eviction loop of `pushPersistentSample`; a pass over all slots is fuel enough. -/
def evictPersistent (maxPersistentSamples : Nat) :
    Nat → Ring SharedPersistentSlot kMaxPersistentSlots → UInt64 → Ring SharedPersistentSlot kMaxPersistentSlots × UInt64
  | 0, ring, dropped => (ring, dropped)
  | fuel + 1, ring, dropped =>
    if ring.count ≥ maxPersistentSamples then
      evictPersistent maxPersistentSamples fuel
        { ring with slots := Function.update ring.slots ring.head {}, head := Ring.next ring.head }
        (if (ring.slots ring.head).occupied then dropped + 1 else dropped)
    else
      (ring, dropped)

def pushPersistentSample (layout : SharedStoreLayout) (sample : PersistentPointSample)
    (maxPersistentSamples : Nat) : SharedStoreLayout × UInt64 :=
  let slot : SharedPersistentSlot :=
    { sequence := layout.persistentSequence + 1, index := sample.index, value := sample.value,
      ts := sample.ts, occupied := true }
  let evicted := evictPersistent maxPersistentSamples kMaxPersistentSlots (layout.persistent.push slot) 0
  ({ layout with persistentSequence := layout.persistentSequence + 1, persistent := evicted.1 }, evicted.2)

theorem evictPersistent_count_lt {maxPersistentSamples : Nat} (hMax : 0 < maxPersistentSamples) (fuel : Nat)
    (ring : Ring SharedPersistentSlot kMaxPersistentSlots) (dropped : UInt64) (hFuel : ring.count < fuel) :
    (evictPersistent maxPersistentSamples fuel ring dropped).1.count < maxPersistentSamples := by
  induction fuel generalizing ring dropped with
  | zero => omega
  | succ fuel ih =>
    unfold evictPersistent
    split
    · next hFull =>
      have hne : ring.head ≠ ring.tail := by
        intro hEq
        have hZero : ring.count = 0 := by rw [Ring.count, hEq, Ring.distance_self]
        omega
      have hNext := Ring.distance_next_left hne
      apply ih
      simp only [Ring.count] at hFuel ⊢
      omega
    · next hRoom => exact Nat.lt_of_not_le hRoom

def storedValue (slot : SharedLatestSlot) (binding : Option PointBinding) (nowMs : Int) : StoredPointValue :=
  markStale
    { index := slot.index
      machineCode := (binding.map (·.machineCode)).getD []
      meterCode := (binding.map (·.meterCode)).getD []
      pointCode := (binding.map (·.pointCode)).getD []
      value := slot.value
      quality := slot.quality
      ts := slot.ts
      expireAt := slot.expireAt
      stale := slot.stale } nowMs

/-- The merge step of `getAllLatest`: a later value of the same index replaces it. -/
def mergeLatest (merged : List StoredPointValue) (value : StoredPointValue) : List StoredPointValue :=
  match merged.find? fun existing => existing.index == value.index with
  | none => merged ++ [value]
  | some existing =>
    if value.ts > existing.ts ∨ (value.ts = existing.ts ∧ value.expireAt > existing.expireAt) then
      merged.map fun entry => if entry.index = value.index then value else entry
    else
      merged

namespace MemoryPointStore

def writtenSlot (value : PointValue) : SharedLatestSlot where
  index := value.index
  value := value.value
  quality := value.quality
  ts := value.ts
  expireAt := value.expireAt
  stale := false
  occupied := true

def bindValue (store : MemoryPointStore) (value : PointValue) : MemoryPointStore :=
  { store with
    keyToIndex := Function.update store.keyToIndex
      (buildKey value.machineCode value.meterCode value.pointCode) (some value.index)
    bindings := Function.update store.bindings value.index
      (some ⟨value.index, value.machineCode, value.meterCode, value.pointCode⟩) }

def persistDue (store : MemoryPointStore) (value : PointValue) : Bool :=
  value.isStore && match store.lastPersistentSampleTs value.index with
    | none => true
    | some last => value.ts - last ≥ max 1 value.persistIntervalSec * 1000

/-- The writes of `putLatest` behind the slot: update ring and, when due, sample ring. -/
def publishUpdate (store : MemoryPointStore) (layout : SharedStoreLayout) (value : PointValue) :
    MemoryPointStore × SharedStoreLayout :=
  let layout := pushPointUpdate layout ⟨0, value.index, value.value, value.quality, value.ts, value.expireAt⟩
  if store.persistDue value then
    let pushed := pushPersistentSample layout ⟨value.index, value.value, value.ts⟩
      store.opening.maxPersistentSamples
    ({ store with
        persistentDropped := store.persistentDropped + pushed.2
        lastPersistentSampleTs := Function.update store.lastPersistentSampleTs value.index (some value.ts) },
      pushed.1)
  else
    (store, layout)

def putLatest (store : MemoryPointStore) (layout : SharedStoreLayout) (value : PointValue) :
    MemoryPointStore × SharedStoreLayout × Option StoreError :=
  let store := store.bindValue value
  match layout.table.allocateLatestSlot value.index store.opening.maxLatestPoints store.latestSlotByIndex with
  | (table, cache, .error e) => ({ store with latestSlotByIndex := cache }, { layout with table := table }, some e)
  | (table, cache, .ok k) =>
    let written : LatestTable := { table with latest := Function.update table.latest k (writtenSlot value) }
    let published := ({ store with latestSlotByIndex := cache } : MemoryPointStore).publishUpdate
      { layout with table := written } value
    (published.1, published.2, none)

def getLatestByIndex (store : MemoryPointStore) (layout : SharedStoreLayout) (index : UInt32) (nowMs : Int) :
    Option StoredPointValue :=
  let slot := match layout.table.cachedSlot store.latestSlotByIndex index with
    | some k => some k
    | none => layout.table.findLatestSlot index
  slot.map fun k => storedValue (layout.table.latest k) (store.bindings index) nowMs

def mergeVisit (store : MemoryPointStore) (layout : SharedStoreLayout) (nowMs : Int)
    (merged : List StoredPointValue) (k : Fin kMaxLatestSlots) : List StoredPointValue :=
  let slot := layout.table.latest k
  if !slot.occupied then merged
  else mergeLatest merged (storedValue slot (store.bindings slot.index) nowMs)

def getAllLatest (store : MemoryPointStore) (layout : SharedStoreLayout) (nowMs : Int) : List StoredPointValue :=
  let merged := (List.finRange kMaxLatestSlots).foldl (store.mergeVisit layout nowMs) []
  merged.mergeSort fun lhs rhs => decide (lhs.index ≤ rhs.index)

end MemoryPointStore

/-- Membership in the set `activelyClaimedIndexes` of `removeExpired`. -/
def ClaimRegistry.activelyClaimed (registry : ClaimRegistry) (nowMs : Int) (index : UInt32) : Bool :=
  anySlot (fun claim => claim.occupied &&
    anySlot (fun owner => isOwnerAlive owner nowMs && owner.ownerId == claim.ownerId) registry.owners &&
    claim.index == index) registry.claims

def isRemoved (registry : ClaimRegistry) (nowMs : Int) (slot : SharedLatestSlot) : Bool :=
  slot.occupied && (isExpired slot.expireAt nowMs || !registry.activelyClaimed nowMs slot.index)

def removeVisit (registry : ClaimRegistry) (nowMs : Int) (state : LatestTable × (UInt32 → Option Nat))
    (k : Fin kMaxLatestSlots) : LatestTable × (UInt32 → Option Nat) :=
  if isRemoved registry nowMs (state.1.latest k) then
    ({ latestCount := state.1.latestCount - 1
       latest := Function.update state.1.latest k {} },
     Function.update state.2 (state.1.latest k).index none)
  else
    state

/-- `removeExpired` with the slots its loop goes through. -/
def MemoryPointStore.removeAmong (visits : List (Fin kMaxLatestSlots)) (store : MemoryPointStore)
    (layout : SharedStoreLayout) (nowMs : Int) : MemoryPointStore × SharedStoreLayout :=
  let registry := layout.registry.cleanupStaleOwnersAndClaims nowMs
  let removed := visits.foldl (removeVisit registry nowMs) (layout.table, store.latestSlotByIndex)
  ({ store with latestSlotByIndex := removed.2 }, { layout with table := removed.1, registry := registry })

def MemoryPointStore.removeExpired (store : MemoryPointStore) (layout : SharedStoreLayout) (nowMs : Int) :
    MemoryPointStore × SharedStoreLayout :=
  store.removeAmong (List.finRange kMaxLatestSlots) layout nowMs

end EdgeGateway.PointStore
