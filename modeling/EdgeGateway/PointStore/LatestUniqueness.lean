import EdgeGateway.PointStore.System

/-! # Uniqueness of latest slots -/

namespace EdgeGateway.PointStore

open Slots

universe u

namespace LatestTable

structure Records (table : LatestTable) (lastPut : UInt32 → Option PointValue) : Prop where
  unique : table.Unique
  kept : ∀ index value, lastPut index = some value →
    value.index = index ∧ ∃ k, table.latest k = MemoryPointStore.writtenSlot value
  known : ∀ k, (table.latest k).occupied = true → ∃ value,
    lastPut (table.latest k).index = some value ∧ table.latest k = MemoryPointStore.writtenSlot value

variable {table table' : LatestTable} {lastPut : UInt32 → Option PointValue} {value : PointValue}
  {k : Fin kMaxLatestSlots}

theorem Records.slot_of_carries (h : table.Records lastPut) {index : UInt32} (hCarries : table.Carries k index) :
    ∃ value, lastPut index = some value ∧ table.latest k = MemoryPointStore.writtenSlot value := by
  obtain ⟨value, hLast, hSlot⟩ := h.known k hCarries.1
  rw [hCarries.2] at hLast
  exact ⟨value, hLast, hSlot⟩

theorem Records.put (h : table.Records lastPut)
    (hTable : table'.latest = Function.update table.latest k (MemoryPointStore.writtenSlot value))
    (hOther : ∀ l, table.Carries l value.index → l = k)
    (hFree : ∀ index, table.Carries k index → index = value.index) :
    table'.Records (Function.update lastPut value.index (some value)) := by
  have hAt : table'.latest k = MemoryPointStore.writtenSlot value := by rw [hTable, Function.update_self]
  have hOff : ∀ l, l ≠ k → table'.latest l = table.latest l := fun l hl => by
    rw [hTable, Function.update_of_ne hl]
  have hMine : ∀ l, l ≠ k → ∀ index, table'.Carries l index → table.Carries l index ∧ index ≠ value.index := by
    intro l hl index hCarries
    rw [Carries, hOff l hl] at hCarries
    exact ⟨hCarries, fun hEq => hl (hOther l (hEq ▸ hCarries))⟩
  have hNew : ∀ index, table'.Carries k index → index = value.index := by
    rintro index ⟨-, hIndex⟩
    rw [hAt] at hIndex
    exact hIndex.symm
  constructor
  · intro index l m hl hm
    by_cases hlk : l = k
    · by_cases hmk : m = k
      · rw [hlk, hmk]
      · exact absurd (hNew index (hlk ▸ hl)) (hMine m hmk index hm).2
    · by_cases hmk : m = k
      · exact absurd (hNew index (hmk ▸ hm)) (hMine l hlk index hl).2
      · exact h.unique index l m (hMine l hlk index hl).1 (hMine m hmk index hm).1
  · intro index last hLast
    by_cases hIndex : index = value.index
    · subst hIndex
      rw [Function.update_self] at hLast
      obtain rfl := Option.some.inj hLast
      exact ⟨rfl, k, hAt⟩
    · rw [Function.update_of_ne hIndex] at hLast
      obtain ⟨hSame, l, hSlot⟩ := h.kept index last hLast
      have hl : l ≠ k := by
        rintro rfl
        exact hIndex (hFree index (by rw [Carries, hSlot]; exact ⟨rfl, hSame⟩))
      exact ⟨hSame, l, (hOff l hl).trans hSlot⟩
  · intro l hOccupied
    by_cases hl : l = k
    · subst hl
      rw [hAt]
      exact ⟨value, Function.update_self _ _ _, rfl⟩
    · obtain ⟨hCarries, hne⟩ := hMine l hl _ ⟨hOccupied, rfl⟩
      rw [hOff l hl] at hne ⊢
      obtain ⟨last, hLast, hSlot⟩ := h.known l hCarries.1
      exact ⟨last, by rw [Function.update_of_ne hne]; exact hLast, hSlot⟩

theorem Records.removed (removes : UInt32 → Int → Bool) (h : table.Records lastPut)
    (hTable : ∀ l, table'.latest l =
      if (table.latest l).occupied = true ∧ removes (table.latest l).index (table.latest l).expireAt = true
      then {} else table.latest l) :
    table'.Records fun index => (lastPut index).filter fun value => !removes index value.expireAt := by
  have hKept : ∀ l, (table'.latest l).occupied = true →
      (table.latest l).occupied = true ∧ table'.latest l = table.latest l ∧
        removes (table.latest l).index (table.latest l).expireAt = false := by
    intro l hOccupied
    rw [hTable l] at hOccupied ⊢
    split at hOccupied
    · cases hOccupied
    · next hStays =>
      rw [if_neg hStays]
      exact ⟨hOccupied, rfl, by simpa [hOccupied] using hStays⟩
  constructor
  · rintro index l m ⟨hlOccupied, hl⟩ ⟨hmOccupied, hm⟩
    obtain ⟨hlBefore, hlSame, -⟩ := hKept l hlOccupied
    obtain ⟨hmBefore, hmSame, -⟩ := hKept m hmOccupied
    exact h.unique index l m ⟨hlBefore, hlSame ▸ hl⟩ ⟨hmBefore, hmSame ▸ hm⟩
  · intro index last hLast
    obtain ⟨hBefore, hStays⟩ := Option.filter_eq_some_iff.mp hLast
    obtain ⟨rfl, l, hSlot⟩ := h.kept index last hBefore
    refine ⟨rfl, l, ?_⟩
    rw [hTable l, hSlot, if_neg]
    rintro ⟨-, hRemoves⟩
    simp only [MemoryPointStore.writtenSlot] at hRemoves
    simp [hRemoves] at hStays
  · intro l hOccupied
    obtain ⟨hBefore, hSame, hStays⟩ := hKept l hOccupied
    obtain ⟨last, hLast, hSlot⟩ := h.known l hBefore
    rw [hSame]
    refine ⟨last, Option.filter_eq_some_iff.mpr ⟨hLast, ?_⟩, hSlot⟩
    rw [show last.expireAt = (table.latest l).expireAt by rw [hSlot]; rfl, hStays]
    rfl

end LatestTable

section Put

variable {layout : SharedStoreLayout} {store : MemoryPointStore} {value : PointValue}
  {lastPut : UInt32 → Option PointValue}

theorem LatestTable.Records.putLatest (h : layout.table.Records lastPut)
    (hFresh : layout.table.Appends store.latestSlotByIndex store.opening.maxLatestPoints value.index →
      layout.table.findLatestSlot value.index = none) :
    (store.putLatest layout value).2.1.table.Records
      (match (store.putLatest layout value).2.2 with
        | none => Function.update lastPut value.index (some value)
        | some _ => lastPut) := by
  cases putLatest_outcome store layout value with
  | rewritten k hCached hTable hDone =>
    have hCarries := LatestTable.cachedSlot_carries hCached
    rw [hDone]
    exact h.put hTable (fun l hl => h.unique _ l k hl hCarries) fun index hIndex => hIndex.2.symm.trans hCarries.2
  | appended k hAppends hFree hTable _ hDone =>
    rw [hDone]
    refine h.put hTable (fun l hl => ?_) fun index hIndex => ?_
    · exact absurd hl (LatestTable.findLatestSlot_eq_none.mp (hFresh hAppends) l)
    · rw [LatestTable.Carries, hFree] at hIndex
      cases hIndex.1
  | refused e _ hTable hThrown =>
    rw [hThrown, hTable]
    exact h

theorem LatestTable.Records.removeExpired (h : layout.table.Records lastPut) (store : MemoryPointStore)
    (nowMs : Int) :
    (store.removeExpired layout nowMs).2.table.Records fun index => (lastPut index).filter fun value =>
      !(isExpired value.expireAt nowMs ||
        !(layout.registry.cleanupStaleOwnersAndClaims nowMs).activelyClaimed nowMs index) := by
  refine h.removed (fun index expireAt => isExpired expireAt nowMs ||
    !(layout.registry.cleanupStaleOwnersAndClaims nowMs).activelyClaimed nowMs index) fun l => ?_
  rw [removeExpired_latest]
  simp only [isRemoved, Bool.and_eq_true]

theorem findLatestSlot_eq_none_of_unique (hUnique : (store.putLatest layout value).2.1.table.Unique)
    (hAppends : layout.table.Appends store.latestSlotByIndex store.opening.maxLatestPoints value.index) :
    layout.table.findLatestSlot value.index = none := by
  rw [LatestTable.findLatestSlot_eq_none]
  intro l hl
  cases putLatest_outcome store layout value with
  | rewritten k hCached _ _ =>
    rw [hAppends.missed] at hCached
    cases hCached
  | refused e hNot _ _ => exact hNot hAppends
  | appended k _ hFree hTable _ _ =>
    have hlk : l ≠ k := by
      rintro rfl
      rw [LatestTable.Carries, hFree] at hl
      cases hl.1
    refine hlk (hUnique value.index l k ?_ ?_)
    · rw [LatestTable.Carries, hTable, Function.update_of_ne hlk]
      exact hl
    · rw [LatestTable.Carries, hTable, Function.update_self]
      exact ⟨rfl, rfl⟩

end Put

structure LatestHistory (H : Type u) where
  system : System H
  lastPut : UInt32 → Option PointValue

namespace LatestHistory

variable {H : Type u} [DecidableEq H]

def start (startMs : Int) : LatestHistory H := ⟨System.start startMs, fun _ => none⟩

/-- A `putLatest` that returns is the last of its index; `removeExpired` removes what has expired or has no
    active owner. -/
def recorded (s : LatestHistory H) : StoreEvent H → UInt32 → Option PointValue
  | .putLatest h value =>
    match s.system.stores h with
    | none => s.lastPut
    | some store =>
      match (store.putLatest s.system.layout value).2.2 with
      | none => Function.update s.lastPut value.index (some value)
      | some _ => s.lastPut
  | .removeExpired h nowMs =>
    match s.system.stores h with
    | none => s.lastPut
    | some _ => fun index => (s.lastPut index).filter fun value =>
        !(isExpired value.expireAt nowMs ||
          !(s.system.layout.registry.cleanupStaleOwnersAndClaims nowMs).activelyClaimed nowMs index)
  | _ => s.lastPut

def step (ownerId : H → UInt64) (s : LatestHistory H) (event : StoreEvent H) : LatestHistory H where
  system := s.system.step ownerId event
  lastPut := s.recorded event

theorem system_after (ownerId : H → UInt64) (s : LatestHistory H) (events : List (StoreEvent H)) :
    (Run.after (step ownerId) s events).system = Run.after (System.step ownerId) s.system events := by
  induction events generalizing s with
  | nil => rfl
  | cons event events ih =>
    rw [Run.after_cons, Run.after_cons]
    exact ih (s.step ownerId event)

structure Faithful (s : LatestHistory H) : Prop where
  unique : s.system.layout.table.Unique
  reads : ∀ h store, s.system.stores h = some store → ∀ index nowMs,
    store.getLatestByIndex s.system.layout index nowMs = (s.lastPut index).map fun value =>
      storedValue (MemoryPointStore.writtenSlot value) (store.bindings index) nowMs
  agrees : ∀ h store, s.system.stores h = some store → ∀ index nowMs,
    ((store.getAllLatest s.system.layout nowMs).filter fun value => value.index == index) =
      (store.getLatestByIndex s.system.layout index nowMs).toList

/-- A `putLatest` takes a new slot only for an index that no slot carries. -/
def AppendsFresh (s : LatestHistory H) : StoreEvent H → Prop
  | .putLatest h value => ∀ store, s.system.stores h = some store →
      s.system.layout.table.Appends store.latestSlotByIndex store.opening.maxLatestPoints value.index →
      s.system.layout.table.findLatestSlot value.index = none
  | _ => True

omit [DecidableEq H] in
theorem faithful_of_records {s : LatestHistory H} (h : s.system.layout.table.Records s.lastPut) : s.Faithful where
  unique := h.unique
  reads p store _ index nowMs := by
    rw [getLatestByIndex_eq h.unique]
    cases hSlot : s.system.layout.table.findLatestSlot index with
    | none =>
      cases hLast : s.lastPut index with
      | none => rfl
      | some value =>
        obtain ⟨rfl, k, hk⟩ := h.kept index value hLast
        refine absurd ?_ (LatestTable.findLatestSlot_eq_none.mp hSlot k)
        rw [LatestTable.Carries, hk]
        exact ⟨rfl, rfl⟩
    | some k =>
      obtain ⟨value, hLast, hk⟩ := h.slot_of_carries (LatestTable.findLatestSlot_carries hSlot)
      rw [hLast, Option.map_some, Option.map_some, hk]
  agrees p store _ index nowMs := getAllLatest_filter h.unique index

omit [DecidableEq H] in
theorem start_records (startMs : Int) :
    (start startMs : LatestHistory H).system.layout.table.Records (start startMs : LatestHistory H).lastPut where
  unique := by
    rintro index k l ⟨hOccupied, -⟩
    cases hOccupied
  kept := by
    rintro index value ⟨⟩
  known := by
    rintro k ⟨⟩

theorem step_records (ownerId : H → UInt64) {s : LatestHistory H} {event : StoreEvent H}
    (h : s.system.layout.table.Records s.lastPut) (hFresh : s.AppendsFresh event) :
    (s.step ownerId event).system.layout.table.Records (s.step ownerId event).lastPut := by
  have hOpening : ∀ p opening ownerSource,
      (s.system.opening ownerId p opening ownerSource).layout.table = s.system.layout.table := by
    intro p opening ownerSource
    rw [System.opening]
    split <;> rfl
  cases event with
  | openStore p opening ownerSource =>
    simp only [step, recorded, System.step, hOpening]
    exact h
  | registerDevicePoints p configs ts =>
    simp only [step, recorded, System.step]
    cases hStore : s.system.stores p with
    | none => rw [System.through_none _ _ hStore]; exact h
    | some store => rw [System.through_some _ _ hStore]; exact h
  | heartbeatRegisteredPoints p order nowMs =>
    simp only [step, recorded, System.step]
    cases hStore : s.system.stores p with
    | none => rw [System.through_none _ _ hStore]; exact h
    | some store => rw [System.through_some _ _ hStore]; exact h
  | releaseOwnerClaims p ts =>
    simp only [step, recorded, System.step]
    cases hStore : s.system.stores p with
    | none => rw [System.through_none _ _ hStore]; exact h
    | some store => rw [System.through_some _ _ hStore]; exact h
  | removeExpired p nowMs =>
    simp only [step, recorded, System.step]
    cases hStore : s.system.stores p with
    | none => rw [System.through_none _ _ hStore]; exact h
    | some store =>
      rw [System.through_some _ _ hStore]
      exact h.removeExpired store nowMs
  | putLatest p value =>
    simp only [step, recorded, System.step]
    cases hStore : s.system.stores p with
    | none => rw [System.through_none _ _ hStore]; exact h
    | some store =>
      rw [System.through_some _ _ hStore]
      exact h.putLatest (hFresh store hStore)

theorem appendsFresh_of_unique (ownerId : H → UInt64) {s : LatestHistory H} {event : StoreEvent H}
    (h : (s.step ownerId event).system.layout.table.Unique) : s.AppendsFresh event := by
  cases event with
  | putLatest p value =>
    intro store hStore hAppends
    rw [step, System.step_putLatest_layout ownerId value hStore] at h
    exact findLatestSlot_eq_none_of_unique h hAppends
  | _ => trivial

/-- Slots stay unique and the readers faithful exactly when no `putLatest` takes a second slot for an index.
    -/
theorem faithful_throughout_iff (ownerId : H → UInt64) (startMs : Int) (events : List (StoreEvent H)) :
    (∀ done, done <+: events → (Run.after (step ownerId) (start startMs) done).Faithful) ↔
      Run.Guarded (step ownerId) AppendsFresh (start startMs) events := by
  constructor
  · intro hFaithful done event hDone
    apply appendsFresh_of_unique ownerId
    rw [← Run.after_snoc (step ownerId)]
    exact (hFaithful _ hDone).unique
  · intro hRun done hDone
    apply faithful_of_records
    exact Run.invariant (step ownerId) (fun s => s.system.layout.table.Records s.lastPut)
      (start_records startMs) (fun _ _ hRecords hFresh => step_records ownerId hRecords hFresh)
      (hRun.before _ hDone)

end LatestHistory

theorem LatestTable.slotIndex_blank {table : LatestTable} (h : ∀ k, (table.latest k).occupied = false) :
    table.slotIndex = fun _ => none := by
  have hVisits : ∀ (visits : List (Fin kMaxLatestSlots)) (cache : UInt32 → Option Nat),
      visits.foldl (fun cache i =>
        if (table.latest i).occupied then Function.update cache (table.latest i).index (some i.val) else cache)
        cache = cache := by
    intro visits cache
    induction visits with
    | nil => rfl
    | cons i visits ih =>
      rw [List.foldl_cons, if_neg (by rw [h i]; exact Bool.false_ne_true)]
      exact ih
  exact hVisits _ _

theorem LatestTable.cachedSlot_of_forgotten {table : LatestTable} {cache : UInt32 → Option Nat} {index : UInt32}
    (h : cache index = none) : table.cachedSlot cache index = none := by
  rw [cachedSlot, h]

def reading (value : RawDouble) : PointValue where
  index := 5
  machineCode := ['g']
  meterCode := ['m']
  pointCode := ['p']
  value := value
  quality := 1
  ts := 1000
  expireAt := 0
  isStore := false
  persistIntervalSec := 0

def twoWriters : List (StoreEvent Bool) :=
  [.openStore false .segmentName [], .openStore true .segmentName [],
   .putLatest false (reading 1), .putLatest true (reading 2)]

theorem rival_appends (h : Bool) {table : LatestTable} {k : Fin kMaxLatestSlots} (index : UInt32)
    (hCount : table.latestCount < 2) (hFree : (table.latest k).occupied = false) :
    table.Appends (rival h).latestSlotByIndex (rival h).opening.maxLatestPoints index where
  missed := by
    have hBlank : SharedStoreLayout.initial.table.slotIndex = fun _ => none :=
      LatestTable.slotIndex_blank fun _ => rfl
    apply LatestTable.cachedSlot_of_forgotten
    rw [rival, MemoryPointStore.opened, hBlank]
  below := Nat.lt_trans hCount (by cases h <;> decide)
  room := LatestTable.freeLatestSlot_isSome hFree

def firstLatest : Fin kMaxLatestSlots := ⟨0, by unfold kMaxLatestSlots; decide⟩

def secondLatest : Fin kMaxLatestSlots := ⟨1, by unfold kMaxLatestSlots; decide⟩

theorem exists_other_latest (k : Fin kMaxLatestSlots) : ∃ l, l ≠ k := by
  by_cases hk : k = firstLatest
  · refine ⟨secondLatest, fun h => ?_⟩
    exact absurd (Fin.val_eq_of_eq (h.trans hk)) Nat.one_ne_zero
  · exact ⟨firstLatest, fun h => hk h.symm⟩

theorem first_put : ∃ k, ((rival false).putLatest .initial (reading 1)).2.1.table.latestCount = 1 ∧
    ((rival false).putLatest .initial (reading 1)).2.1.table.latest =
      Function.update (fun _ => {}) k (MemoryPointStore.writtenSlot (reading 1)) := by
  have hAppends : SharedStoreLayout.initial.table.Appends (rival false).latestSlotByIndex
      (rival false).opening.maxLatestPoints 5 := rival_appends false (k := firstLatest) 5 Nat.zero_lt_two rfl
  cases putLatest_outcome (rival false) .initial (reading 1) with
  | rewritten k hCached _ _ => exact absurd (hAppends.missed.symm.trans hCached) (by simp)
  | refused e hNot _ _ => exact absurd hAppends hNot
  | appended k _ _ hTable hCount _ => exact ⟨k, hCount, hTable⟩

/-- The second writer's cache is from before the first write, so it takes another slot. -/
theorem two_writers_break_uniqueness :
    ¬ (Run.after (LatestHistory.step rivalId) (LatestHistory.start 0) twoWriters).system.layout.table.Unique := by
  intro hUnique
  have hFirst : bothOpen.stores false = some (rival false) := by simp [bothOpen]
  have hSecond : (bothOpen.step rivalId (.putLatest false (reading 1))).stores true = some (rival true) := by
    rw [System.step, System.through_stores_of_ne _ _ (by decide)]
    simp [bothOpen]
  rw [LatestHistory.system_after, LatestHistory.start, twoWriters, Run.after_cons, Run.after_cons, step_bothOpen,
    Run.after_cons, Run.after_cons, Run.after_nil, System.step_putLatest_layout rivalId _ hSecond,
    System.step_putLatest_layout rivalId _ hFirst, bothOpen_layout] at hUnique
  obtain ⟨k, hCount, hTable⟩ := first_put
  generalize ((rival false).putLatest .initial (reading 1)).2.1 = layout at hUnique hCount hTable
  obtain ⟨l, hl⟩ := exists_other_latest k
  have hFree : (layout.table.latest l).occupied = false := by
    rw [hTable, Function.update_of_ne hl]
  have hNone := findLatestSlot_eq_none_of_unique hUnique
    (rival_appends true _ (by rw [hCount]; exact Nat.one_lt_two) hFree)
  refine LatestTable.findLatestSlot_eq_none.mp hNone k ?_
  rw [LatestTable.Carries, hTable, Function.update_self]
  exact ⟨rfl, rfl⟩

end EdgeGateway.PointStore
