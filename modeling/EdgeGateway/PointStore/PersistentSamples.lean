import EdgeGateway.PointStore.PointUpdates
import Mathlib.Algebra.BigOperators.Group.List.Basic

/-! # The ring of persistent samples

A put of a stored point pushes a sample when its interval is over, and the push evicts until the
ring is below the handle's limit.
-/

namespace EdgeGateway.PointStore

universe u

def SharedPersistentSlot.toSample (slot : SharedPersistentSlot) : PersistentPointSample where
  index := slot.index
  value := slot.value
  ts := slot.ts

def drainPersistentLoop :
    Nat → Ring SharedPersistentSlot kMaxPersistentSlots → List PersistentPointSample →
      Ring SharedPersistentSlot kMaxPersistentSlots × List PersistentPointSample
  | 0, ring, result => (ring, result)
  | fuel + 1, ring, result =>
    if ring.head = ring.tail then (ring, result)
    else if (ring.slots ring.head).occupied then
      drainPersistentLoop fuel (ring.pop {}) (result ++ [(ring.slots ring.head).toSample])
    else
      drainPersistentLoop fuel { ring with head := Ring.next ring.head } result

def drainPersistent (layout : SharedStoreLayout) : SharedStoreLayout × List PersistentPointSample :=
  let drained := drainPersistentLoop kMaxPersistentSlots layout.persistent []
  ({ layout with persistent := drained.1 }, drained.2)

def MemoryPointStore.consumePersistentDropCount (store : MemoryPointStore) : MemoryPointStore × UInt64 :=
  ({ store with persistentDropped := 0 }, store.persistentDropped)

def heldSamples (layout : SharedStoreLayout) : List PersistentPointSample :=
  layout.persistent.contents.map SharedPersistentSlot.toSample

def sampleOf (value : PointValue) : PersistentPointSample where
  index := value.index
  value := value.value
  ts := value.ts

def sampleSlot (layout : SharedStoreLayout) (value : PointValue) : SharedPersistentSlot where
  sequence := layout.persistentSequence + 1
  index := value.index
  value := value.value
  ts := value.ts
  occupied := true

section Rings

variable {ring : Ring SharedPersistentSlot kMaxPersistentSlots} {slot : SharedPersistentSlot}

/-- A drain returns what the ring holds and leaves it empty. -/
theorem drainPersistentLoop_all (fuel : Nat) (ring : Ring SharedPersistentSlot kMaxPersistentSlots)
    (result : List PersistentPointSample) (hOccupied : ∀ slot ∈ ring.contents, slot.occupied = true)
    (hFuel : ring.count ≤ fuel) :
    (drainPersistentLoop fuel ring result).1.contents = [] ∧
      (drainPersistentLoop fuel ring result).2 = result ++ ring.contents.map SharedPersistentSlot.toSample := by
  induction fuel generalizing ring result with
  | zero =>
    have hEmpty : ring.contents = [] := by
      rw [← List.length_eq_zero_iff, Ring.length_contents]
      omega
    rw [drainPersistentLoop]
    dsimp only
    rw [hEmpty, List.map_nil, List.append_nil]
    exact ⟨rfl, rfl⟩
  | succ fuel ih =>
    rw [drainPersistentLoop]
    split
    · rename_i hEmpty
      have hNone := (Ring.contents_eq_nil ring).mpr hEmpty
      dsimp only
      rw [hNone, List.map_nil, List.append_nil]
      exact ⟨rfl, rfl⟩
    · rename_i hSome
      have hPop := Ring.contents_pop ring {} hSome
      have hCount := Ring.count_pop ring {} hSome
      rw [hPop] at hOccupied
      rw [if_pos (hOccupied _ List.mem_cons_self)]
      obtain ⟨hLeft, hTaken⟩ := ih (ring.pop {}) (result ++ [(ring.slots ring.head).toSample])
        (fun slot hSlot => hOccupied slot (List.mem_cons_of_mem _ hSlot)) (by omega)
      refine ⟨hLeft, ?_⟩
      rw [hTaken, hPop, List.append_assoc, List.singleton_append, List.map_cons]

theorem evictPersistent_below {limit : Nat} (hBelow : ring.count < limit) (fuel : Nat) (dropped : UInt64) :
    evictPersistent limit fuel ring dropped = (ring, dropped) := by
  cases fuel with
  | zero => rfl
  | succ fuel => rw [evictPersistent, if_neg (Nat.not_le.mpr hBelow)]

theorem occupied_push (hOccupied : ∀ s ∈ ring.contents, s.occupied = true) (hSlot : slot.occupied = true)
    (hRoom : ring.count + 1 < kMaxPersistentSlots) : ∀ s ∈ (ring.push slot).contents, s.occupied = true := by
  rw [Ring.contents_push ring slot hRoom, List.forall_mem_append]
  exact ⟨hOccupied, List.forall_mem_singleton.mpr hSlot⟩

end Rings

section Puts

variable {store : MemoryPointStore} {layout : SharedStoreLayout} {value : PointValue}

theorem publishUpdate_sample (hDue : store.persistDue value = true) :
    (store.publishUpdate layout value).2.persistent =
        (evictPersistent store.opening.maxPersistentSamples kMaxPersistentSlots
          (layout.persistent.push (sampleSlot layout value)) 0).1 ∧
      (store.publishUpdate layout value).1.persistentDropped = store.persistentDropped +
        (evictPersistent store.opening.maxPersistentSamples kMaxPersistentSlots
          (layout.persistent.push (sampleSlot layout value)) 0).2 := by
  rw [MemoryPointStore.publishUpdate]
  dsimp only
  rw [if_pos hDue]
  exact ⟨rfl, rfl⟩

theorem publishUpdate_none (hDue : ¬store.persistDue value = true) :
    (store.publishUpdate layout value).2.persistent = layout.persistent ∧
      (store.publishUpdate layout value).1.persistentDropped = store.persistentDropped := by
  rw [MemoryPointStore.publishUpdate]
  dsimp only
  rw [if_neg hDue]
  exact ⟨rfl, rfl⟩

/-- A put that returns and whose sample is due pushes it; any other put leaves ring and counter alone. -/
theorem putLatest_sample (store : MemoryPointStore) (layout : SharedStoreLayout) (value : PointValue) :
    (((store.putLatest layout value).2.2 = none ∧ store.persistDue value = true) ∧
      (store.putLatest layout value).2.1.persistent =
        (evictPersistent store.opening.maxPersistentSamples kMaxPersistentSlots
          (layout.persistent.push (sampleSlot layout value)) 0).1 ∧
      (store.putLatest layout value).1.persistentDropped = store.persistentDropped +
        (evictPersistent store.opening.maxPersistentSamples kMaxPersistentSlots
          (layout.persistent.push (sampleSlot layout value)) 0).2) ∨
    ¬((store.putLatest layout value).2.2 = none ∧ store.persistDue value = true) ∧
      (store.putLatest layout value).2.1.persistent = layout.persistent ∧
      (store.putLatest layout value).1.persistentDropped = store.persistentDropped := by
  rw [MemoryPointStore.putLatest]
  dsimp only
  split
  · exact .inr ⟨fun h => Option.some_ne_none _ h.1, rfl, rfl⟩
  · rename_i table cache k _
    obtain hDue | hDue := Bool.eq_false_or_eq_true (store.persistDue value)
    · exact .inl ⟨⟨rfl, hDue⟩, publishUpdate_sample hDue⟩
    · refine .inr ⟨fun h => absurd (hDue.symm.trans h.2) Bool.false_ne_true, publishUpdate_none ?_⟩
      intro hOther
      exact absurd (hDue.symm.trans hOther) Bool.false_ne_true

theorem Opening.maxPersistentSamples_pos (opening : Opening) : 0 < opening.maxPersistentSamples := by
  cases opening with
  | segmentName => exact Nat.succ_pos _
  | config c => exact Nat.lt_of_lt_of_le Nat.zero_lt_one (Nat.le_max_left _ _)

theorem Opening.maxPersistentSamples_le (opening : Opening) : opening.maxPersistentSamples ≤ kMaxPersistentSlots := by
  cases opening with
  | segmentName => exact Nat.le_refl _
  | config c =>
    rw [Opening.maxPersistentSamples, kMaxPersistentSlots]
    omega

theorem removeAmong_persistentDropped (visits : List (Fin kMaxLatestSlots)) (nowMs : Int) :
    (store.removeAmong visits layout nowMs).1.persistentDropped = store.persistentDropped := rfl

theorem recordRegistrations_persistentDropped (registrations : List (StdString × PointBinding)) :
    (store.recordRegistrations registrations).persistentDropped = store.persistentDropped := by
  rw [MemoryPointStore.recordRegistrations]
  induction registrations generalizing store with
  | nil => rfl
  | cons registration registrations ih =>
    rw [List.foldl_cons]
    exact ih

theorem registerDevicePoints_persistentDropped (registry : ClaimRegistry) (configs : List DeviceConfig) (ts : Int) :
    (store.registerDevicePoints registry configs ts).1.persistentDropped = store.persistentDropped := by
  rw [MemoryPointStore.registerDevicePoints]
  split
  · rfl
  · split
    · exact recordRegistrations_persistentDropped _
    · split
      · rfl
      · exact recordRegistrations_persistentDropped _

end Puts

inductive SampleEvent (H : Type u) where
  | store (event : StoreEvent H)
  | drainPersistentSamples (h : H)
  | consumePersistentDropCount (h : H)

namespace System

variable {H : Type u} [DecidableEq H]

def sampleStep (ownerId : H → UInt64) (s : System H) : SampleEvent H → System H
  | .store event => s.step ownerId event
  | .drainPersistentSamples h => s.through h none fun store => (store, (drainPersistent s.layout).1)
  | .consumePersistentDropCount h => s.through h none fun store => (store.consumePersistentDropCount.1, s.layout)

def pushing (s : System H) : SampleEvent H → Option (Nat × PersistentPointSample)
  | .store (.putLatest h value) =>
    match s.stores h with
    | none => none
    | some store =>
      if (store.putLatest s.layout value).2.2 = none ∧ store.persistDue value = true then
        some (store.opening.maxPersistentSamples, sampleOf value)
      else none
  | _ => none

def draining (s : System H) : SampleEvent H → Option (List PersistentPointSample)
  | .drainPersistentSamples h => (s.stores h).map fun _ => (drainPersistent s.layout).2
  | _ => none

def consuming (s : System H) : SampleEvent H → Nat
  | .consumePersistentDropCount h =>
    match s.stores h with
    | none => 0
    | some store => store.consumePersistentDropCount.2.toNat
  | _ => 0

def openingHandle (s : System H) : SampleEvent H → List H
  | .store (.openStore h _ _) => if (s.stores h).isSome then [] else [h]
  | _ => []

def NoDrops (s : System H) : Prop := ∀ h store, s.stores h = some store → store.persistentDropped = 0

theorem NoDrops.through {s : System H} (hDrops : s.NoDrops) {h : H} {time : Option Int}
    {f : MemoryPointStore → MemoryPointStore × SharedStoreLayout}
    (hKeep : ∀ store, s.stores h = some store → store.persistentDropped = 0 → (f store).1.persistentDropped = 0) :
    (s.through h time f).NoDrops := by
  intro other store hStore
  cases hOpen : s.stores h with
  | none =>
    rw [through_none time f hOpen] at hStore
    exact hDrops other store hStore
  | some mine =>
    rw [through_some time f hOpen] at hStore
    dsimp only at hStore
    obtain rfl | hOther := eq_or_ne other h
    · rw [Function.update_self] at hStore
      rw [← Option.some.inj hStore]
      exact hKeep mine hOpen (hDrops _ mine hOpen)
    · rw [Function.update_of_ne hOther] at hStore
      exact hDrops other store hStore

/-- What an event does to the sample ring and the drop counters. -/
inductive SampleCase (ownerId : H → UInt64) (s : System H) (event : SampleEvent H) : Prop
  | pushed (limit : Nat) (slot : SharedPersistentSlot) (hLimit : 0 < limit) (hMost : limit ≤ kMaxPersistentSlots)
      (hOccupied : slot.occupied = true)
      (hPushing : s.pushing event = some (limit, slot.toSample)) (hDraining : s.draining event = none)
      (hRing : (s.sampleStep ownerId event).layout.persistent =
        (evictPersistent limit kMaxPersistentSlots (s.layout.persistent.push slot) 0).1)
      (hDrops : (evictPersistent limit kMaxPersistentSlots (s.layout.persistent.push slot) 0).2 = 0 → s.NoDrops →
        (s.sampleStep ownerId event).NoDrops ∧ s.consuming event = 0)
  | drained (hPushing : s.pushing event = none)
      (hDraining : s.draining event = some (drainPersistent s.layout).2)
      (hRing : (s.sampleStep ownerId event).layout.persistent = (drainPersistent s.layout).1.persistent)
      (hDrops : s.NoDrops → (s.sampleStep ownerId event).NoDrops ∧ s.consuming event = 0)
  | other (hPushing : s.pushing event = none) (hDraining : s.draining event = none)
      (hRing : (s.sampleStep ownerId event).layout.persistent = s.layout.persistent)
      (hDrops : s.NoDrops → (s.sampleStep ownerId event).NoDrops ∧ s.consuming event = 0)

theorem SampleCase.of_through {ownerId : H → UInt64} {s : System H} {event : SampleEvent H} {h : H}
    {time : Option Int} {f : MemoryPointStore → MemoryPointStore × SharedStoreLayout}
    (hStep : s.sampleStep ownerId event = s.through h time f)
    (hRing : ∀ store, (f store).2.persistent = s.layout.persistent)
    (hKeep : ∀ store, store.persistentDropped = 0 → (f store).1.persistentDropped = 0)
    (hPushing : s.pushing event = none) (hDraining : s.draining event = none)
    (hConsuming : s.NoDrops → s.consuming event = 0) : SampleCase ownerId s event := by
  refine .other hPushing hDraining ?_ fun hDrops => ⟨?_, hConsuming hDrops⟩
  · rw [hStep]
    cases hOpen : s.stores h with
    | none => rw [through_none time f hOpen]
    | some store =>
      rw [through_some time f hOpen]
      exact hRing store
  · rw [hStep]
    exact hDrops.through fun store _ => hKeep store

theorem sampleStep_cases (ownerId : H → UInt64) (s : System H) (event : SampleEvent H) :
    SampleCase ownerId s event := by
  cases event with
  | drainPersistentSamples h =>
    cases hOpen : s.stores h with
    | none =>
      refine .other rfl ?_ ?_ fun hDrops => ⟨?_, rfl⟩
      · rw [draining, hOpen]
        rfl
      · rw [sampleStep, through_none _ _ hOpen]
      · rw [sampleStep, through_none _ _ hOpen]
        exact hDrops
    | some store =>
      refine .drained rfl ?_ ?_ fun hDrops => ⟨?_, rfl⟩
      · rw [draining, hOpen]
        rfl
      · rw [sampleStep, through_some _ _ hOpen]
      · rw [sampleStep]
        exact hDrops.through fun store _ hZero => hZero
  | consumePersistentDropCount h =>
    refine .of_through rfl (fun _ => rfl) (fun _ _ => rfl) rfl rfl fun hDrops => ?_
    rw [consuming]
    split
    · rfl
    · rename_i store hOpen
      rw [MemoryPointStore.consumePersistentDropCount]
      dsimp only
      rw [hDrops h store hOpen]
      rfl
  | store event =>
    cases event with
    | openStore h opening ownerSource =>
      refine .other rfl rfl ?_ fun hDrops => ⟨?_, rfl⟩
      · rw [sampleStep, step, System.opening]
        split <;> rfl
      · intro other store hStore
        rw [sampleStep, step, System.opening] at hStore
        split at hStore
        · exact hDrops other store hStore
        · dsimp only at hStore
          obtain rfl | hOther := eq_or_ne other h
          · rw [Function.update_self] at hStore
            rw [← Option.some.inj hStore]
            rfl
          · rw [Function.update_of_ne hOther] at hStore
            exact hDrops other store hStore
    | registerDevicePoints h configs ts =>
      exact .of_through rfl (fun _ => rfl)
        (fun store hZero => (registerDevicePoints_persistentDropped _ configs ts).trans hZero) rfl rfl fun _ => rfl
    | heartbeatRegisteredPoints h order nowMs =>
      exact .of_through rfl (fun _ => rfl) (fun _ hZero => hZero) rfl rfl fun _ => rfl
    | removeExpired h nowMs =>
      refine .of_through rfl (fun store => ?_) (fun store hZero => ?_) rfl rfl fun _ => rfl
      · obtain ⟨table, registry, hLayout⟩ := @removeExpired_layout store s.layout nowMs
        rw [hLayout]
      · rw [MemoryPointStore.removeExpired, removeAmong_persistentDropped]
        exact hZero
    | releaseOwnerClaims h ts => exact .of_through rfl (fun _ => rfl) (fun _ hZero => hZero) rfl rfl fun _ => rfl
    | putLatest h value =>
      cases hOpen : s.stores h with
      | none =>
        refine .other ?_ rfl ?_ fun hDrops => ⟨?_, rfl⟩
        · rw [pushing, hOpen]
        · rw [sampleStep, step, through_none _ _ hOpen]
        · rw [sampleStep, step, through_none _ _ hOpen]
          exact hDrops
      | some store =>
        have hLayout := step_putLatest_layout ownerId value hOpen
        obtain ⟨hDue, hRing, hDropped⟩ | ⟨hDue, hRing, hDropped⟩ := putLatest_sample store s.layout value
        · refine .pushed store.opening.maxPersistentSamples (sampleSlot s.layout value)
            store.opening.maxPersistentSamples_pos store.opening.maxPersistentSamples_le rfl ?_ rfl ?_ fun hZero hDrops => ⟨?_, rfl⟩
          · rw [pushing, hOpen]
            exact if_pos hDue
          · rw [sampleStep, hLayout, hRing]
          · rw [sampleStep, step]
            apply hDrops.through
            intro other hOther hNone
            rw [hOpen] at hOther
            obtain rfl := Option.some.inj hOther
            rw [hDropped, hNone, hZero]
            rfl
        · refine .other ?_ rfl ?_ fun hDrops => ⟨?_, rfl⟩
          · rw [pushing, hOpen]
            exact if_neg hDue
          · rw [sampleStep, hLayout, hRing]
          · rw [sampleStep, step]
            apply hDrops.through
            intro other hOther hNone
            rw [hOpen] at hOther
            obtain rfl := Option.some.inj hOther
            exact hDropped.trans hNone

end System

/-- The system with the samples since the last drain, those pushed and drained, the drops read and the handles
    opened. -/
structure SampleLog (H : Type u) where
  system : System H
  sinceDrain : List PersistentPointSample
  pushed : List PersistentPointSample
  drained : List PersistentPointSample
  consumed : Nat
  opened : List H

namespace SampleLog

variable {H : Type u} [DecidableEq H] (ownerId : H → UInt64)

def start (startMs : Int) : SampleLog H := ⟨.start startMs, [], [], [], 0, []⟩

def record (log : SampleLog H) (event : SampleEvent H) : SampleLog H where
  system := log.system.sampleStep ownerId event
  sinceDrain :=
    if (log.system.draining event).isSome then []
    else log.sinceDrain ++ ((log.system.pushing event).map (·.2)).toList
  pushed := log.pushed ++ ((log.system.pushing event).map (·.2)).toList
  drained := log.drained ++ (log.system.draining event).getD []
  consumed := log.consumed + log.system.consuming event
  opened := log.system.openingHandle event ++ log.opened

def after (startMs : Int) (events : List (SampleEvent H)) : SampleLog H :=
  Run.after (record ownerId) (start startMs) events

def unread (log : SampleLog H) : Nat :=
  (log.opened.map fun h => ((log.system.stores h).map fun store => store.persistentDropped.toNat).getD 0).sum

def Kept (log : SampleLog H) (limit : Nat) : Prop :=
  heldSamples log.system.layout = log.sinceDrain.drop (log.sinceDrain.length - min log.sinceDrain.length limit)

def Accounted (log : SampleLog H) : Prop :=
  log.pushed.length = log.drained.length + (heldSamples log.system.layout).length + (log.consumed + log.unread)

structure Whole (log : SampleLog H) : Prop where
  occupied : ∀ slot ∈ log.system.layout.persistent.contents, slot.occupied = true
  held : heldSamples log.system.layout = log.sinceDrain
  noDrops : log.system.NoDrops
  consumed : log.consumed = 0
  counted : log.pushed.length = log.drained.length + log.sinceDrain.length

def Below (log : SampleLog H) (event : SampleEvent H) : Prop :=
  ∀ limit sample, log.system.pushing event = some (limit, sample) → log.sinceDrain.length + 1 < limit

section Steps

variable {log : SampleLog H} {event : SampleEvent H}

theorem record_of_pushing {limit : Nat} {sample : PersistentPointSample}
    (hPushing : log.system.pushing event = some (limit, sample)) (hDraining : log.system.draining event = none) :
    (log.record ownerId event).sinceDrain = log.sinceDrain ++ [sample] ∧
      (log.record ownerId event).pushed = log.pushed ++ [sample] ∧
      (log.record ownerId event).drained = log.drained := by
  rw [record, hPushing, hDraining]
  exact ⟨rfl, rfl, List.append_nil _⟩

theorem record_of_draining {samples : List PersistentPointSample} (hPushing : log.system.pushing event = none)
    (hDraining : log.system.draining event = some samples) :
    (log.record ownerId event).sinceDrain = [] ∧ (log.record ownerId event).pushed = log.pushed ∧
      (log.record ownerId event).drained = log.drained ++ samples := by
  rw [record, hPushing, hDraining]
  exact ⟨rfl, List.append_nil _, rfl⟩

theorem record_of_other (hPushing : log.system.pushing event = none) (hDraining : log.system.draining event = none) :
    (log.record ownerId event).sinceDrain = log.sinceDrain ∧ (log.record ownerId event).pushed = log.pushed ∧
      (log.record ownerId event).drained = log.drained := by
  rw [record, hPushing, hDraining]
  exact ⟨List.append_nil _, List.append_nil _, List.append_nil _⟩

omit [DecidableEq H] in
theorem Whole.count (hWhole : log.Whole) : log.system.layout.persistent.count = log.sinceDrain.length := by
  rw [← Ring.length_contents, ← hWhole.held, heldSamples, List.length_map]

theorem Whole.record (hWhole : log.Whole) (hBelow : log.Below event) : (log.record ownerId event).Whole := by
  have hCount := hWhole.count
  have hConsumed : log.system.consuming event = 0 → (log.record ownerId event).consumed = 0 := by
    intro hNone
    rw [SampleLog.record, hNone, Nat.add_zero]
    exact hWhole.consumed
  cases System.sampleStep_cases ownerId log.system event with
  | pushed limit slot hLimit hMost hOccupied hPushing hDraining hRing hDrops =>
    obtain ⟨hSince, hPushed, hDrained⟩ := record_of_pushing ownerId hPushing hDraining
    have hBound := hBelow limit _ hPushing
    have hRoom : log.system.layout.persistent.count + 1 < kMaxPersistentSlots := by omega
    have hStill : (log.system.layout.persistent.push slot).count < limit := by
      rw [Ring.count_push _ _ hRoom]
      omega
    rw [evictPersistent_below hStill] at hRing hDrops
    obtain ⟨hNone, hConsuming⟩ := hDrops rfl hWhole.noDrops
    have hPersistent : (log.record ownerId event).system.layout.persistent =
        log.system.layout.persistent.push slot := hRing
    refine ⟨?_, ?_, hNone, hConsumed hConsuming, ?_⟩
    · rw [hPersistent]
      exact occupied_push hWhole.occupied hOccupied hRoom
    · rw [heldSamples, hPersistent, Ring.contents_push _ _ hRoom, List.map_append, hSince, ← hWhole.held]
      rfl
    · rw [hPushed, hDrained, hSince, List.length_append, List.length_append, hWhole.counted, Nat.add_assoc]
  | drained hPushing hDraining hRing hDrops =>
    obtain ⟨hSince, hPushed, hDrained⟩ := record_of_draining ownerId hPushing hDraining
    obtain ⟨hNone, hConsuming⟩ := hDrops hWhole.noDrops
    obtain ⟨hEmpty, hTaken⟩ := drainPersistentLoop_all kMaxPersistentSlots log.system.layout.persistent []
      hWhole.occupied (Nat.le_of_lt (Ring.count_lt _))
    have hPersistent : (log.record ownerId event).system.layout.persistent.contents = [] := by
      rw [← hEmpty]
      exact congrArg Ring.contents hRing
    refine ⟨?_, ?_, hNone, hConsumed hConsuming, ?_⟩
    · rw [hPersistent]
      exact List.forall_mem_nil _
    · rw [heldSamples, hPersistent, hSince]
      rfl
    · have hSamples : (drainPersistent log.system.layout).2 = log.sinceDrain := by
        rw [← hWhole.held]
        exact hTaken
      rw [hPushed, hDrained, hSince, hSamples, List.length_append, hWhole.counted]
      rfl
  | other hPushing hDraining hRing hDrops =>
    obtain ⟨hSince, hPushed, hDrained⟩ := record_of_other ownerId hPushing hDraining
    obtain ⟨hNone, hConsuming⟩ := hDrops hWhole.noDrops
    have hPersistent : (log.record ownerId event).system.layout.persistent = log.system.layout.persistent := hRing
    refine ⟨?_, ?_, hNone, hConsumed hConsuming, ?_⟩
    · rw [hPersistent]
      exact hWhole.occupied
    · rw [heldSamples, hPersistent, hSince]
      exact hWhole.held
    · rw [hPushed, hDrained, hSince]
      exact hWhole.counted

theorem below_of_kept {limit : Nat} {sample : PersistentPointSample}
    (hPushing : log.system.pushing event = some (limit, sample)) (hKept : (log.record ownerId event).Kept limit) :
    log.sinceDrain.length + 1 < limit := by
  cases System.sampleStep_cases ownerId log.system event with
  | pushed most slot hLimit hMost hOccupied hSame hDraining hRing hDrops =>
    rw [hPushing] at hSame
    obtain ⟨rfl, -⟩ := Prod.mk.inj (Option.some.inj hSame)
    have hHeld : (heldSamples (log.record ownerId event).system.layout).length < limit := by
      rw [heldSamples, List.length_map, Ring.length_contents]
      have hEvicted := evictPersistent_count_lt hLimit kMaxPersistentSlots (log.system.layout.persistent.push slot) 0
        (Ring.count_lt _)
      rw [← hRing] at hEvicted
      exact hEvicted
    obtain ⟨hSince, -, -⟩ := record_of_pushing ownerId hPushing hDraining
    rw [Kept] at hKept
    rw [hKept, hSince, List.length_drop, List.length_append, List.length_singleton] at hHeld
    omega
  | drained hNone => rw [hPushing] at hNone; cases hNone
  | other hNone => rw [hPushing] at hNone; cases hNone

omit [DecidableEq H] in
theorem Whole.kept (hWhole : log.Whole) {limit : Nat} (hBelow : log.sinceDrain.length ≤ limit) : log.Kept limit := by
  rw [Kept, hWhole.held, Nat.min_eq_left hBelow, Nat.sub_self, List.drop_zero]

omit [DecidableEq H] in
theorem Whole.accounted (hWhole : log.Whole) : log.Accounted := by
  have hUnread : log.unread = 0 := by
    rw [unread]
    apply List.sum_eq_zero
    intro count hCount
    obtain ⟨h, -, rfl⟩ := List.mem_map.mp hCount
    cases hOpen : log.system.stores h with
    | none => rfl
    | some store =>
      rw [Option.map_some, hWhole.noDrops h store hOpen]
      rfl
  rw [Accounted, hUnread, hWhole.consumed, hWhole.counted, hWhole.held]
  omega

end Steps

omit [DecidableEq H] in
theorem start_whole (startMs : Int) : (start startMs : SampleLog H).Whole := by
  have hEmpty : (start startMs : SampleLog H).system.layout.persistent.contents = [] := Ring.contents_cleared _ _
  refine ⟨?_, ?_, ?_, rfl, rfl⟩
  · rw [hEmpty]
    exact List.forall_mem_nil _
  · rw [heldSamples, hEmpty]
    rfl
  · rintro h store hOpen
    cases hOpen

theorem after_snoc (startMs : Int) (events : List (SampleEvent H)) (event : SampleEvent H) :
    after ownerId startMs (events ++ [event]) = (after ownerId startMs events).record ownerId event :=
  Run.after_snoc _ _ _ _

/-- The pushes leave the last samples and an exact account iff every one stays below its handle's limit. -/
theorem samples_kept_iff (ownerId : H → UInt64) (startMs : Int) (events : List (SampleEvent H)) :
    (∀ done event, done ++ [event] <+: events → ∀ limit sample,
      (after ownerId startMs done).system.pushing event = some (limit, sample) →
        (after ownerId startMs (done ++ [event])).Kept limit ∧
          (after ownerId startMs (done ++ [event])).Accounted) ↔
    ∀ done event, done ++ [event] <+: events → ∀ limit sample,
      (after ownerId startMs done).system.pushing event = some (limit, sample) →
        (after ownerId startMs done).sinceDrain.length + 1 < limit := by
  constructor
  · intro hAll done event hDone limit sample hPushing
    obtain ⟨hKept, -⟩ := hAll done event hDone limit sample hPushing
    rw [after_snoc] at hKept
    exact below_of_kept ownerId hPushing hKept
  · intro hBelow done event hDone limit sample hPushing
    have hWhole := Run.invariant_along (record ownerId) Whole (start_whole startMs)
      (fun done event hStep hWhole => hWhole.record ownerId (hBelow done event hStep))
    have hBefore := hWhole done ((List.prefix_append _ _).trans hDone)
    have hAfter : (after ownerId startMs (done ++ [event])).Whole := hWhole _ hDone
    refine ⟨hAfter.kept ?_, hAfter.accounted⟩
    have hBound := hBelow done event hDone limit sample hPushing
    cases System.sampleStep_cases ownerId (after ownerId startMs done).system event with
    | pushed most slot hLimit hMost hOccupied hSame hDraining hRing hDrops =>
      rw [after_snoc, (record_of_pushing ownerId hPushing hDraining).1, List.length_append, List.length_singleton]
      exact Nat.le_of_lt hBound
    | drained hNone => rw [hPushing] at hNone; cases hNone
    | other hNone => rw [hPushing] at hNone; cases hNone

end SampleLog

def storedPut : List (SampleEvent Bool) :=
  [.store (.openStore false (.config { maxPersistentSamples := 1 }) []),
    .store (.putLatest false { countedPoint with isStore := true })]

theorem Opening.maxLatestPoints_pos (opening : Opening) : 0 < opening.maxLatestPoints := by
  cases opening with
  | segmentName => exact Nat.succ_pos _
  | config c =>
    rw [Opening.maxLatestPoints, kMaxLatestSlots]
    split <;> omega

theorem first_put_pushes (config : MemoryStoreConfig) : ∃ sample, (SampleLog.after rivalId 0
    [.store (.openStore false (.config config) [])]).system.pushing
      (.store (.putLatest false { countedPoint with isStore := true })) =
        some ((Opening.config config).maxPersistentSamples, sample) := by
  obtain ⟨k, hDone, -⟩ := first_put_cached (.opened (.config config) (rivalId false) [] .initial)
    { countedPoint with isStore := true } (Opening.maxLatestPoints_pos _)
  exact ⟨_, if_pos ⟨hDone, rfl⟩⟩

/-- The one sample that the configuration asks for is evicted by the push that stores it. -/
theorem single_sample_evicted :
    ¬∀ done event, done ++ [event] <+: storedPut → ∀ limit sample,
      (SampleLog.after rivalId 0 done).system.pushing event = some (limit, sample) →
        (SampleLog.after rivalId 0 (done ++ [event])).Kept limit ∧
          (SampleLog.after rivalId 0 (done ++ [event])).Accounted := by
  intro hAll
  obtain ⟨sample, hPushing⟩ := first_put_pushes { maxPersistentSamples := 1 }
  have hRun : [.store (.openStore false (.config { maxPersistentSamples := 1 }) [])] ++
      [.store (.putLatest false { countedPoint with isStore := true })] <+: storedPut := List.prefix_refl _
  obtain ⟨hKept, -⟩ := hAll _ _ hRun 1 sample hPushing
  rw [SampleLog.after_snoc] at hKept
  exact Nat.lt_irrefl 1 (SampleLog.below_of_kept rivalId hPushing hKept)

end EdgeGateway.PointStore
