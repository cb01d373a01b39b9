import EdgeGateway.Northbound.Server
import EdgeGateway.PointStore.LatestUniqueness

/-! # Registers of one point in one response -/

namespace EdgeGateway.Northbound

open EdgeGateway.PointStore Slots

universe u

variable {ops : DoubleOps} {server : ModbusNorthboundServer} {lookups : Lookups} {request : ReadRequest}

theorem readLoop_getElem {offsets : List Nat} {values : List UInt16}
    (h : readLoop ops server lookups request offsets = .ok values) (k offset : Nat) (hOffset : offsets[k]? = some offset) :
    ∃ register, values[k]? = some register ∧ readRegister ops server lookups request offset = .ok register := by
  induction offsets generalizing values k with
  | nil => simp at hOffset
  | cons first offsets ih =>
    rw [readLoop] at h
    cases hFirst : readRegister ops server lookups request first with
    | error code => simp [hFirst, bind, Except.bind] at h
    | ok register =>
      cases hRest : readLoop ops server lookups request offsets with
      | error code => simp [hFirst, hRest, bind, Except.bind] at h
      | ok rest =>
        simp only [hFirst, hRest, bind, Except.bind, pure, Except.pure, Except.ok.injEq] at h
        subst h
        cases k with
        | zero =>
          simp only [List.getElem?_cons_zero, Option.some.injEq] at hOffset
          exact ⟨register, rfl, hOffset ▸ hFirst⟩
        | succ k => exact ih hRest k (by simpa using hOffset)

theorem register_eq {values : List UInt16} {function : UInt8}
    (h : handleRegisterRead ops server lookups request = .registers function values) {offset : Nat}
    (hOffset : offset < request.count.toNat) {mapping : Mapping}
    (hMapping : server.addressMappings (request.key offset) = some mapping) :
    ∃ encoded, encodeRegistersForMapping ops mapping (lookups offset mapping.point.index) = .ok encoded ∧
      values[offset]? = encoded[((request.key offset).address - mapping.config.address).toNat]? := by
  unfold handleRegisterRead at h
  split at h
  · cases h
  split at h
  · cases h
  rename_i read hLoop
  cases h
  obtain ⟨register, hValue, hRead⟩ := readLoop_getElem hLoop offset offset (by simp [hOffset])
  unfold readRegister at hRead
  rw [hMapping] at hRead
  dsimp only at hRead
  split at hRead
  · cases hRead
  rename_i encoded hEncoded
  refine ⟨encoded, hEncoded, ?_⟩
  split at hRead
  · cases hRead
  split at hRead
  · cases hRead
  · rename_i found hFound
    cases hRead
    rw [hValue, hFound]

section Store

variable {H : Type u} [DecidableEq H]

theorem putLatest_slots (store : MemoryPointStore) (layout : SharedStoreLayout) {value : PointValue} {index : UInt32}
    (hOther : value.index ≠ index) (k : Fin kMaxLatestSlots) :
    (store.putLatest layout value).2.1.table.latest k = layout.table.latest k ∨
      (¬ (store.putLatest layout value).2.1.table.Carries k index ∧ ¬ layout.table.Carries k index) := by
  have hWritten : ∀ l, (store.putLatest layout value).2.1.table.latest =
      Function.update layout.table.latest l (MemoryPointStore.writtenSlot value) → ¬ layout.table.Carries l index →
      (store.putLatest layout value).2.1.table.latest k = layout.table.latest k ∨
        (¬ (store.putLatest layout value).2.1.table.Carries k index ∧ ¬ layout.table.Carries k index) := by
    intro l hTable hFree
    obtain rfl | hSlot := eq_or_ne k l
    · refine .inr ⟨?_, hFree⟩
      rintro ⟨-, hIndex⟩
      rw [hTable, Function.update_self] at hIndex
      exact hOther hIndex
    · exact .inl (by rw [hTable, Function.update_of_ne hSlot])
  cases putLatest_outcome store layout value with
  | rewritten l hCached hTable _ =>
    apply hWritten l hTable
    rintro ⟨-, hIndex⟩
    exact hOther ((LatestTable.cachedSlot_carries hCached).2.symm.trans hIndex)
  | appended l _ hFree hTable _ _ =>
    apply hWritten l hTable
    rintro ⟨hOccupied, -⟩
    rw [hFree] at hOccupied
    cases hOccupied
  | refused e _ hTable _ => exact .inl (by rw [hTable])

theorem allocateLatestSlot_cache {table : LatestTable} {cache : UInt32 → Option Nat} {allocated index : UInt32}
    (maxLatestPoints : Nat) (hOther : allocated ≠ index) :
    (table.allocateLatestSlot allocated maxLatestPoints cache).2.1 index = cache index := by
  have hForget : table.forgetStale cache allocated index = cache index := by
    unfold LatestTable.forgetStale
    cases cache allocated with
    | none => rfl
    | some k =>
      dsimp only
      split
      · exact Function.update_of_ne (Ne.symm hOther) _ _
      · rfl
  unfold LatestTable.allocateLatestSlot
  split
  · rfl
  dsimp only
  split
  · exact hForget
  split
  · exact (Function.update_of_ne (Ne.symm hOther) _ _).trans hForget
  · exact hForget

theorem publishUpdate_handle (store : MemoryPointStore) (layout : SharedStoreLayout) (value : PointValue) :
    (store.publishUpdate layout value).1.bindings = store.bindings ∧
      (store.publishUpdate layout value).1.latestSlotByIndex = store.latestSlotByIndex := by
  unfold MemoryPointStore.publishUpdate
  dsimp only
  split <;> exact ⟨rfl, rfl⟩

theorem putLatest_handle (store : MemoryPointStore) (layout : SharedStoreLayout) {value : PointValue} {index : UInt32}
    (hOther : value.index ≠ index) :
    (store.putLatest layout value).1.bindings index = store.bindings index ∧
      (store.putLatest layout value).1.latestSlotByIndex index = store.latestSlotByIndex index := by
  have hCache : (layout.table.allocateLatestSlot value.index store.opening.maxLatestPoints
      store.latestSlotByIndex).2.1 index = store.latestSlotByIndex index := allocateLatestSlot_cache _ hOther
  have hBinding : (store.bindValue value).bindings index = store.bindings index :=
    Function.update_of_ne (Ne.symm hOther) _ _
  unfold MemoryPointStore.putLatest
  dsimp only
  generalize hAllocated : layout.table.allocateLatestSlot value.index (store.bindValue value).opening.maxLatestPoints
    (store.bindValue value).latestSlotByIndex = allocated
  have hSame : allocated.2.1 index = store.latestSlotByIndex index := by
    rw [← hAllocated]
    exact hCache
  obtain ⟨table, cache, slot⟩ := allocated
  cases slot with
  | error e => exact ⟨hBinding, hSame⟩
  | ok k =>
    dsimp only
    rw [(publishUpdate_handle _ _ _).1, (publishUpdate_handle _ _ _).2]
    exact ⟨hBinding, hSame⟩

/-- What a handle reads of an index depends on its own entries for it and on the slots that carry it. -/
theorem getLatestByIndex_congr {store other : MemoryPointStore} {layout next : SharedStoreLayout} {index : UInt32}
    {nowMs : Int} (hBinding : other.bindings index = store.bindings index)
    (hCache : other.latestSlotByIndex index = store.latestSlotByIndex index)
    (hSlots : ∀ k, next.table.latest k = layout.table.latest k ∨
      (¬ next.table.Carries k index ∧ ¬ layout.table.Carries k index)) :
    other.getLatestByIndex next index nowMs = store.getLatestByIndex layout index nowMs := by
  have hCarries : ∀ k, ((next.table.latest k).occupied && (next.table.latest k).index == index) =
      ((layout.table.latest k).occupied && (layout.table.latest k).index == index) := by
    intro k
    obtain hSame | ⟨hNext, hBefore⟩ := hSlots k
    · rw [hSame]
    · simp only [LatestTable.Carries] at hNext hBefore
      rw [Bool.eq_iff_iff]
      simp [hNext, hBefore]
  have hCached : next.table.cachedSlot other.latestSlotByIndex index =
      layout.table.cachedSlot store.latestSlotByIndex index := by
    simp only [LatestTable.cachedSlot, hCache, hCarries]
  have hFound : next.table.findLatestSlot index = layout.table.findLatestSlot index := by
    simp only [LatestTable.findLatestSlot, firstSlot, hCarries]
  have hSlot : ∀ k, layout.table.Carries k index →
      storedValue (next.table.latest k) (other.bindings index) nowMs =
        storedValue (layout.table.latest k) (store.bindings index) nowMs := by
    intro k hk
    obtain hSame | ⟨-, hBefore⟩ := hSlots k
    · rw [hSame, hBinding]
    · exact absurd hk hBefore
  unfold MemoryPointStore.getLatestByIndex
  rw [hCached, hFound]
  cases hCase : layout.table.cachedSlot store.latestSlotByIndex index with
  | some k => exact congrArg some (hSlot k (LatestTable.cachedSlot_carries hCase))
  | none =>
    cases hCase : layout.table.findLatestSlot index with
    | some k => exact congrArg some (hSlot k (LatestTable.findLatestSlot_carries hCase))
    | none => rfl

theorem read_put (ownerId : H → UInt64) {s : System H} {h me : H} {value : PointValue} {index : UInt32} {nowMs : Int}
    (hOther : value.index ≠ index) : read (s.step ownerId (.putLatest h value)) me nowMs index = read s me nowMs index := by
  cases hStore : s.stores h with
  | none => rw [System.step, System.through_none _ _ hStore]
  | some store =>
    have hLayout := System.step_putLatest_layout ownerId value hStore
    have hSlots : ∀ k, _ := putLatest_slots store s.layout hOther
    obtain rfl | hMe := eq_or_ne me h
    · have hMine : (s.step ownerId (.putLatest me value)).stores me = some (store.putLatest s.layout value).1 := by
        rw [System.step, System.through_some _ _ hStore]
        exact Function.update_self ..
      obtain ⟨hBinding, hCache⟩ := putLatest_handle store s.layout hOther
      rw [read, read, hMine, hStore, hLayout, Option.bind_some, Option.bind_some]
      exact getLatestByIndex_congr hBinding hCache hSlots
    · have hKept : (s.step ownerId (.putLatest h value)).stores me = s.stores me := by
        rw [System.step]
        exact System.through_stores_of_ne _ _ hMe
      rw [read, read, hKept, hLayout]
      cases s.stores me with
      | none => rw [Option.bind_none, Option.bind_none]
      | some reader =>
        rw [Option.bind_some, Option.bind_some]
        exact getLatestByIndex_congr rfl rfl hSlots

end Store

section Interleaving

variable {H : Type u} [DecidableEq H]

theorem systemAt_succ (ownerId : H → UInt64) (s : System H) (puts : Interleaving H) (offset : Nat) :
    systemAt ownerId s puts (offset + 1) = Run.after (System.step ownerId) (systemAt ownerId s puts offset)
      ((puts (offset + 1)).map fun put => .putLatest put.1 put.2) := by
  rw [systemAt, systemAt, ← Run.after_append]
  simp [putEvents, List.range_succ (n := offset + 1)]

theorem read_puts (ownerId : H → UInt64) {s : System H} {me : H} {index : UInt32} {nowMs : Int}
    {puts : List (H × PointValue)} (h : ∀ put ∈ puts, put.2.index ≠ index) :
    read (Run.after (System.step ownerId) s (puts.map fun put => .putLatest put.1 put.2)) me nowMs index =
      read s me nowMs index := by
  induction puts generalizing s with
  | nil => rfl
  | cons put puts ih =>
    rw [List.map_cons, Run.after_cons, ih fun p hp => h p (List.mem_cons_of_mem _ hp)]
    exact read_put ownerId (h put List.mem_cons_self)

/-- Nobody writes a point of the request between the lookups of two of its registers. -/
def Settled (server : ModbusNorthboundServer) (request : ReadRequest) (puts : Interleaving H) : Prop :=
  ∀ mapping first last, first < last → last < request.count.toNat →
    server.addressMappings (request.key first) = some mapping →
    server.addressMappings (request.key last) = some mapping →
    ∀ n, first < n → n ≤ last → ∀ put ∈ puts n, put.2.index ≠ mapping.point.index

theorem lookups_settled (ownerId : H → UInt64) (s : System H) (me : H) (nowMs : Int) {puts : Interleaving H}
    {index : UInt32} {first last : Nat} (hOrder : first ≤ last)
    (h : ∀ n, first < n → n ≤ last → ∀ put ∈ puts n, put.2.index ≠ index) :
    lookupsDuring ownerId s puts me nowMs last index = lookupsDuring ownerId s puts me nowMs first index := by
  induction last, hOrder using Nat.le_induction with
  | base => rfl
  | succ last hOrder ih =>
    rw [lookupsDuring, systemAt_succ, read_puts ownerId (h (last + 1) (by omega) (by omega))]
    exact ih fun n hFirst hLast => h n hFirst (by omega)

end Interleaving

/-- The registers of a point in a normal response belong to one stored value of it. -/
def Untorn (ops : DoubleOps) (server : ModbusNorthboundServer) (request : ReadRequest) (lookups : Lookups) : Prop :=
  ∀ function values, handleRegisterRead ops server lookups request = .registers function values →
    ∀ mapping, ∃ stored : Option StoredPointValue, ∀ offset < request.count.toNat,
      server.addressMappings (request.key offset) = some mapping →
        lookups offset mapping.point.index = stored ∧
        ∃ encoded, encodeRegistersForMapping ops mapping stored = .ok encoded ∧
          values[offset]? = encoded[((request.key offset).address - mapping.config.address).toNat]?

theorem registers_of_one_value_of_settled {H : Type u} [DecidableEq H] (ops : DoubleOps)
    (server : ModbusNorthboundServer) (request : ReadRequest) (ownerId : H → UInt64) (s : System H)
    (puts : Interleaving H) (me : H) (nowMs : Int) (h : Settled server request puts) :
    Untorn ops server request (lookupsDuring ownerId s puts me nowMs) := by
  intro function values hResponse mapping
  by_cases hSome : ∃ offset < request.count.toNat, server.addressMappings (request.key offset) = some mapping
  · obtain ⟨first, hFirst, hMapped⟩ := hSome
    refine ⟨lookupsDuring ownerId s puts me nowMs first mapping.point.index, fun offset hOffset hMapping => ?_⟩
    have hSame : lookupsDuring ownerId s puts me nowMs offset mapping.point.index =
        lookupsDuring ownerId s puts me nowMs first mapping.point.index := by
      obtain hLater | rfl | hEarlier := Nat.lt_trichotomy first offset
      · exact lookups_settled ownerId s me nowMs hLater.le (h mapping first offset hLater hOffset hMapped hMapping)
      · rfl
      · exact (lookups_settled ownerId s me nowMs hEarlier.le
          (h mapping offset first hEarlier hFirst hMapping hMapped)).symm
    refine ⟨hSame, ?_⟩
    rw [← hSame]
    exact register_eq hResponse hOffset hMapping
  · exact ⟨none, fun offset hOffset hMapping => absurd ⟨offset, hOffset, hMapping⟩ hSome⟩

def wholeOps : DoubleOps where
  isZeroScale scale := scale == 0
  removeScale value _ _ := value
  llround value := (2 ^ 52 + value.toNat % 2 ^ 52) * 2 ^ (value.toNat / 2 ^ 52 - 1023) / 2 ^ 52
  isNonZero value := value != 0
  floatBits _ := 0

def energyPoint : PointDefinition where
  index := 5
  pointCode := "Energy".toList
  enabled := true
  northbound :=
    { address := 0, dataType := "uint32".toList, scale := 0x3FF0000000000000, offset := 0, byteOrder := "ABCD".toList }

def energyMappings : AddressMappings :=
  Function.update (Function.update (fun _ => none) ⟨1, 3, 0⟩ (some ⟨energyPoint, energyPoint.northbound⟩))
    ⟨1, 3, 1⟩ (some ⟨energyPoint, energyPoint.northbound⟩)

def energyServer : ModbusNorthboundServer where
  points := [energyPoint]
  addressMappings := energyMappings
  built := by rfl

def energyRequest : ReadRequest := ⟨1, 3, 0, 2⟩

def energyValue (value : RawDouble) : PointValue := ⟨5, [], [], [], value, 1, 0, 0, false, 0⟩

def energyPuts : Interleaving Bool
  | 0 => [(true, energyValue 0x40EFFFE000000000)]
  | 1 => [(true, energyValue 0x40F0000000000000)]
  | _ => []

theorem registers_of_one_value_of_settled_energy :
    Settled energyServer energyRequest (fun n => if n = 0 then energyPuts 0 else []) ∧
      Untorn wholeOps energyServer energyRequest
        (lookupsDuring rivalId bothOpen (fun n => if n = 0 then energyPuts 0 else []) true 0) := by
  have hSettled : Settled energyServer energyRequest (fun n => if n = 0 then energyPuts 0 else []) := by
    intro mapping first last _ _ _ _ n hFirst _ put hPut
    have hLater : n ≠ 0 := by omega
    simp [hLater] at hPut
  exact ⟨hSettled, registers_of_one_value_of_settled _ _ _ _ _ _ _ _ hSettled⟩

def Holds (s : System Bool) (value : PointValue) : Prop :=
  ∃ store k, s.stores true = some store ∧ s.layout.table.cachedSlot store.latestSlotByIndex value.index = some k ∧
    s.layout.table.latest k = MemoryPointStore.writtenSlot value

theorem Holds.read_eq {s : System Bool} {value : PointValue} (h : Holds s value) (nowMs : Int) :
    ∃ binding, read s true nowMs value.index =
      some (storedValue (MemoryPointStore.writtenSlot value) binding nowMs) := by
  obtain ⟨store, k, hStore, hCached, hSlot⟩ := h
  refine ⟨store.bindings value.index, ?_⟩
  rw [read, hStore, Option.bind_some, MemoryPointStore.getLatestByIndex, hCached]
  exact congrArg (fun slot => some (storedValue slot _ nowMs)) hSlot

def Allocates (table : LatestTable) (store : MemoryPointStore) (index : UInt32) : Prop :=
  ∃ taken cache k, table.allocateLatestSlot index store.opening.maxLatestPoints store.latestSlotByIndex =
    (taken, cache, .ok k) ∧ cache index = some k.val

theorem allocates_of_appends {table : LatestTable} {store : MemoryPointStore} {index : UInt32}
    (h : table.Appends store.latestSlotByIndex store.opening.maxLatestPoints index) : Allocates table store index := by
  obtain ⟨k, hFree⟩ := Option.isSome_iff_exists.mp h.room
  refine ⟨table.occupySlot k index, Function.update (table.forgetStale store.latestSlotByIndex index) index (some k.val),
    k, ?_, Function.update_self ..⟩
  rw [LatestTable.allocateLatestSlot, h.missed]
  simp only [if_neg (Nat.not_le.mpr h.below), hFree]

theorem allocates_of_cached {table : LatestTable} {store : MemoryPointStore} {index : UInt32} {k : Fin kMaxLatestSlots}
    (h : table.cachedSlot store.latestSlotByIndex index = some k) : Allocates table store index := by
  refine ⟨table, store.latestSlotByIndex, k, by rw [LatestTable.allocateLatestSlot, h], ?_⟩
  unfold LatestTable.cachedSlot at h
  split at h
  · cases h
  split at h
  · split at h
    · rename_i hCache _ _
      cases h
      exact hCache
    · cases h
  · cases h

theorem holds_put {s : System Bool} {store : MemoryPointStore} {value : PointValue}
    (hStore : s.stores true = some store) (h : Allocates s.layout.table store value.index) :
    Holds (s.step rivalId (.putLatest true value)) value := by
  obtain ⟨taken, cache, k, hAllocated, hCache⟩ := h
  have hMine : (s.step rivalId (.putLatest true value)).stores true = some (store.putLatest s.layout value).1 := by
    rw [System.step, System.through_some _ _ hStore]
    simp only [Function.update_self]
  have hLayout := System.step_putLatest_layout rivalId value hStore
  have hPut : (store.putLatest s.layout value).1.latestSlotByIndex = cache ∧
      (store.putLatest s.layout value).2.1.table.latest =
        Function.update taken.latest k (MemoryPointStore.writtenSlot value) := by
    rw [MemoryPointStore.putLatest]
    simp only [MemoryPointStore.bindValue, hAllocated]
    rw [(publishUpdate_handle _ _ _).2, publishUpdate_table]
    exact ⟨rfl, rfl⟩
  have hSlot : (store.putLatest s.layout value).2.1.table.latest k = MemoryPointStore.writtenSlot value := by
    rw [hPut.2, Function.update_self]
  have hCarried : ((MemoryPointStore.writtenSlot value).occupied &&
      (MemoryPointStore.writtenSlot value).index == value.index) = true := by
    simp [MemoryPointStore.writtenSlot]
  refine ⟨_, k, hMine, ?_, by rw [hLayout, hSlot]⟩
  rw [hLayout, LatestTable.cachedSlot, hPut.1, hCache]
  simp only [k.isLt, dif_pos, hSlot, hCarried, if_true]

theorem holds_energyPuts : Holds (systemAt rivalId bothOpen energyPuts 0) (energyValue 0x40EFFFE000000000) ∧
    Holds (systemAt rivalId bothOpen energyPuts 1) (energyValue 0x40F0000000000000) := by
  have hOpen : bothOpen.stores true = some (rival true) := by simp [bothOpen]
  have hFirst : Holds (systemAt rivalId bothOpen energyPuts 0) (energyValue 0x40EFFFE000000000) :=
    holds_put hOpen (allocates_of_appends (rival_appends true (k := firstLatest) 5 Nat.zero_lt_two rfl))
  refine ⟨hFirst, ?_⟩
  obtain ⟨store, k, hStore, hCached, -⟩ := hFirst
  rw [systemAt_succ]
  exact holds_put hStore (allocates_of_cached hCached)

theorem readRegister_energy {lookups : Lookups} {offset : Nat} {latest : Option StoredPointValue} {encoded : List UInt16}
    {register : UInt16} (hLookup : lookups offset energyPoint.index = latest)
    (hMapped : energyServer.addressMappings (energyRequest.key offset) = some ⟨energyPoint, energyPoint.northbound⟩)
    (hEncoded : encodeRegistersForMapping wholeOps ⟨energyPoint, energyPoint.northbound⟩ latest = .ok encoded)
    (hRegister : encoded[offset]? = some register) :
    readRegister wholeOps energyServer lookups energyRequest offset = .ok register := by
  have hRelative : (energyRequest.key offset).address - energyPoint.northbound.address = offset := by
    simp [ReadRequest.key, energyRequest, energyPoint]
  unfold readRegister
  rw [hMapped]
  dsimp only
  rw [hLookup, hEncoded]
  dsimp only
  rw [hRelative, Int.toNat_natCast, hRegister, if_neg (by omega)]

theorem encode_energy (value : RawDouble) (binding : Option PointBinding) :
    encodeRegistersForMapping wholeOps ⟨energyPoint, energyPoint.northbound⟩
      (some (storedValue (MemoryPointStore.writtenSlot (energyValue value)) binding 0)) =
    encodeNumericRegisters wholeOps value energyPoint.northbound := rfl

/-- The two halves are those of 65535 and of 65536, and make zero together. -/
theorem counter_read_as_zero :
    handleRegisterRead wholeOps energyServer (lookupsDuring rivalId bothOpen energyPuts true 0) energyRequest =
        .registers 3 [0, 0] ∧
      ¬ Untorn wholeOps energyServer energyRequest (lookupsDuring rivalId bothOpen energyPuts true 0) := by
  obtain ⟨before, hBefore⟩ := holds_energyPuts.1.read_eq 0
  obtain ⟨after, hAfter⟩ := holds_energyPuts.2.read_eq 0
  have hFirst : lookupsDuring rivalId bothOpen energyPuts true 0 0 energyPoint.index = _ := hBefore
  have hSecond : lookupsDuring rivalId bothOpen energyPuts true 0 1 energyPoint.index = _ := hAfter
  generalize lookupsDuring rivalId bothOpen energyPuts true 0 = lookups at hFirst hSecond
  have hOld : encodeRegistersForMapping wholeOps ⟨energyPoint, energyPoint.northbound⟩ (some
      (storedValue (MemoryPointStore.writtenSlot (energyValue 0x40EFFFE000000000)) before 0)) = .ok [0, 65535] :=
    (encode_energy ..).trans (by decide +kernel)
  have hNew : encodeRegistersForMapping wholeOps ⟨energyPoint, energyPoint.northbound⟩ (some
      (storedValue (MemoryPointStore.writtenSlot (energyValue 0x40F0000000000000)) after 0)) = .ok [1, 0] :=
    (encode_energy ..).trans (by decide +kernel)
  have hHigh : readRegister wholeOps energyServer lookups energyRequest 0 = .ok 0 :=
    readRegister_energy hFirst rfl hOld rfl
  have hLow : readRegister wholeOps energyServer lookups energyRequest 1 = .ok 0 :=
    readRegister_energy hSecond rfl hNew rfl
  have hLoop : readLoop wholeOps energyServer lookups energyRequest (List.range energyRequest.count.toNat) =
      .ok [0, 0] := by
    rw [show List.range energyRequest.count.toNat = [0, 1] from rfl, readLoop, readLoop, readLoop, hHigh, hLow]
    rfl
  have hResponse : handleRegisterRead wholeOps energyServer lookups energyRequest = .registers 3 [0, 0] := by
    rw [handleRegisterRead, hLoop]
    rfl
  refine ⟨hResponse, fun hUntorn => ?_⟩
  obtain ⟨stored, hStored⟩ := hUntorn _ _ hResponse ⟨energyPoint, energyPoint.northbound⟩
  have hSame : lookups 0 energyPoint.index = lookups 1 energyPoint.index :=
    (hStored 0 (by decide) rfl).1.trans (hStored 1 (by decide) rfl).1.symm
  rw [hFirst, hSecond] at hSame
  have hValue : some (0x40EFFFE000000000 : RawDouble) = some 0x40F0000000000000 :=
    congrArg (Option.map StoredPointValue.value) hSame
  revert hValue
  decide

end EdgeGateway.Northbound
