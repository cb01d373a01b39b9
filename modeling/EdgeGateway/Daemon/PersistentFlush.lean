import EdgeGateway.Daemon.GatewayDaemon
import EdgeGateway.PointStore.PersistentSamples
import Mathlib.Algebra.Order.Group.Multiset
import Mathlib.Tactic.Abel

/-! # Flushing the persistent samples -/

namespace EdgeGateway.Daemon

open PointStore QuotedText

universe u

inductive WriterAnswer where
  | committed
  | committedThenThrew (what : StdString)
  | threw (what : StdString)
deriving DecidableEq, Repr

/-- `SqliteSampleWriter::writeSamples` of an enabled writer: what it writes and what it throws. -/
def writeSamples (answer : WriterAnswer) (samples : List PersistentPointSample) :
    List PersistentPointSample × Option StdString :=
  if samples = [] then ([], none)
  else
    match answer with
    | .committed => (samples, none)
    | .committedThenThrew what => (samples, some what)
    | .threw what => ([], some what)

structure FlushWorld where
  writer : WriterAnswer
  flushedAt : Int
  flushedThrows : Option StdString
  droppedAt : Int
  droppedThrows : Option StdString
deriving DecidableEq, Repr

structure Flushed where
  store : MemoryPointStore
  layout : SharedStoreLayout
  written : List PersistentPointSample
  published : List StatusMessage
  result : Except StdString Nat

namespace GatewayDaemon

variable (self : GatewayDaemon)

def countDetails (count : Nat) : StdString := "\"count\":".toList ++ intText count

/-- The second half of a flush: the drop counter is read, cleared and reported. -/
def reportDropped (world : FlushWorld) (store : MemoryPointStore) (layout : SharedStoreLayout)
    (written : List PersistentPointSample) (published : List StatusMessage) (count : Nat) : Flushed :=
  let consumed := store.consumePersistentDropCount
  if consumed.2 > 0 then
    let report := self.publishStatusEvent world.droppedThrows published "persist-dropped".toList world.droppedAt
      (countDetails consumed.2.toNat)
    match report.2 with
    | some what => ⟨consumed.1, layout, written, report.1, .error what⟩
    | none => ⟨consumed.1, layout, written, report.1, .ok count⟩
  else ⟨consumed.1, layout, written, published, .ok count⟩

def flushPersistentOnce (world : FlushWorld) (store : MemoryPointStore) (layout : SharedStoreLayout) : Flushed :=
  let drained := drainPersistent layout
  let samples := drained.2
  let write := writeSamples world.writer samples
  match write.2 with
  | some what => ⟨store, drained.1, write.1, [], .error what⟩
  | none =>
    let report :=
      if samples = [] then ([], none)
      else self.publishStatusEvent world.flushedThrows [] "persist-flushed".toList world.flushedAt
        (countDetails samples.length)
    match report.2 with
    | some what => ⟨store, drained.1, write.1, report.1, .error what⟩
    | none => self.reportDropped world store drained.1 write.1 report.1 samples.length

variable {self} {world : FlushWorld} {store : MemoryPointStore} {layout : SharedStoreLayout}

theorem reportDropped_kept (written : List PersistentPointSample) (published : List StatusMessage) (count : Nat) :
    (self.reportDropped world store layout written published count).layout = layout ∧
      (self.reportDropped world store layout written published count).written = written := by
  rw [reportDropped]
  dsimp only
  split
  · split <;> exact ⟨rfl, rfl⟩
  · exact ⟨rfl, rfl⟩

theorem flushPersistentOnce_written :
    (self.flushPersistentOnce world store layout).layout = (drainPersistent layout).1 ∧
      (self.flushPersistentOnce world store layout).written =
        (writeSamples world.writer (drainPersistent layout).2).1 := by
  rw [flushPersistentOnce]
  dsimp only
  split
  · exact ⟨rfl, rfl⟩
  · split
    · exact ⟨rfl, rfl⟩
    · exact reportDropped_kept _ _ _

end GatewayDaemon

theorem writeSamples_kept {answer : WriterAnswer} {samples : List PersistentPointSample}
    (h : samples = [] ∨ ∀ what, answer ≠ .threw what) : (writeSamples answer samples).1 = samples := by
  unfold writeSamples
  split
  · rename_i hNone
    exact hNone.symm
  · rename_i hSome
    cases answer with
    | committed => rfl
    | committedThenThrew what => rfl
    | threw what => exact absurd rfl ((h.resolve_left hSome) what)

theorem writeSamples_threw (what : StdString) (samples : List PersistentPointSample) :
    (writeSamples (.threw what) samples).1 = [] := by
  unfold writeSamples
  split <;> rfl

theorem evictPersistent_step {limit fuel : Nat} {ring : Ring SharedPersistentSlot kMaxPersistentSlots}
    (dropped : UInt64) (hFull : limit ≤ ring.count) (hHead : (ring.slots ring.head).occupied = true) :
    evictPersistent limit (fuel + 1) ring dropped = evictPersistent limit fuel (ring.pop {}) (dropped + 1) := by
  rw [evictPersistent, if_pos hFull, if_pos hHead, Ring.pop]

/-- Eviction takes the oldest slots and counts each of them. -/
theorem evictPersistent_taken {limit : Nat} (hLimit : 0 < limit) (fuel : Nat)
    (ring : Ring SharedPersistentSlot kMaxPersistentSlots) (dropped : UInt64)
    (hOccupied : ∀ slot ∈ ring.contents, slot.occupied = true) :
    ∃ k ≤ ring.count, (evictPersistent limit fuel ring dropped).1.contents = ring.contents.drop k ∧
      (evictPersistent limit fuel ring dropped).2 = dropped + UInt64.ofNat k := by
  have hNone (dropped : UInt64) : dropped = dropped + UInt64.ofNat 0 := (UInt64.add_zero dropped).symm
  induction fuel generalizing ring dropped with
  | zero => exact ⟨0, Nat.zero_le _, List.drop_zero.symm, hNone dropped⟩
  | succ fuel ih =>
    obtain hBelow | hFull := Nat.lt_or_ge ring.count limit
    · rw [evictPersistent_below hBelow]
      exact ⟨0, Nat.zero_le _, List.drop_zero.symm, hNone dropped⟩
    · have hSome : ring.head ≠ ring.tail := by
        intro hEmpty
        have hCount : ring.count = 0 := by
          rw [← Ring.length_contents, (Ring.contents_eq_nil ring).mpr hEmpty, List.length_nil]
        omega
      have hPop := Ring.contents_pop ring {} hSome
      have hCount := Ring.count_pop ring {} hSome
      rw [hPop] at hOccupied
      obtain ⟨hHead, hRest⟩ := List.forall_mem_cons.mp hOccupied
      obtain ⟨k, hMost, hLeft, hCounted⟩ := ih (ring.pop {}) (dropped + 1) hRest
      refine ⟨k + 1, by omega, ?_, ?_⟩
      · rw [evictPersistent_step dropped hFull hHead, hLeft, hPop, List.drop_succ_cons]
      · rw [evictPersistent_step dropped hFull hHead, hCounted, Nat.add_comm, UInt64.ofNat_add, UInt64.add_assoc]
        rfl

theorem drainPersistent_all {layout : SharedStoreLayout}
    (hOccupied : ∀ slot ∈ layout.persistent.contents, slot.occupied = true) :
    (drainPersistent layout).1.persistent.contents = [] ∧ (drainPersistent layout).2 = heldSamples layout :=
  drainPersistentLoop_all kMaxPersistentSlots layout.persistent [] hOccupied (Nat.le_of_lt (Ring.count_lt _))

section Puts

variable {H : Type u} [DecidableEq H]

/-- What a store event adds to the drop counter of the handle that puts. -/
def dropping (s : System H) : StoreEvent H → Nat
  | .putLatest h value =>
    match s.stores h with
    | none => 0
    | some store => ((store.putLatest s.layout value).1.persistentDropped - store.persistentDropped).toNat
  | _ => 0

inductive Putting (ownerId : H → UInt64) (s : System H) (event : StoreEvent H) : Prop
  | pushed (limit : Nat) (slot : SharedPersistentSlot) (hLimit : 0 < limit) (hOccupied : slot.occupied = true)
      (hPushing : s.pushing (.store event) = some (limit, slot.toSample))
      (hRing : (s.step ownerId event).layout.persistent =
        (evictPersistent limit kMaxPersistentSlots (s.layout.persistent.push slot) 0).1)
      (hDropping : dropping s event =
        (evictPersistent limit kMaxPersistentSlots (s.layout.persistent.push slot) 0).2.toNat)
  | other (hPushing : s.pushing (.store event) = none)
      (hRing : (s.step ownerId event).layout.persistent = s.layout.persistent) (hDropping : dropping s event = 0)

theorem putting_put (ownerId : H → UInt64) (s : System H) (h : H) (value : PointValue) :
    Putting ownerId s (.putLatest h value) := by
  cases hOpen : s.stores h with
  | none =>
    refine .other ?_ ?_ ?_
    · rw [System.pushing, hOpen]
    · rw [System.step, System.through_none _ _ hOpen]
    · rw [dropping, hOpen]
  | some store =>
    have hLayout := System.step_putLatest_layout ownerId value hOpen
    obtain ⟨hDue, hRing, hDropped⟩ | ⟨hDue, hRing, hDropped⟩ := putLatest_sample store s.layout value
    · refine .pushed store.opening.maxPersistentSamples (sampleSlot s.layout value)
        store.opening.maxPersistentSamples_pos rfl ?_ ?_ ?_
      · rw [System.pushing, hOpen]
        exact if_pos hDue
      · rw [hLayout, hRing]
      · rw [dropping, hOpen]
        dsimp only
        rw [hDropped, UInt64.add_comm, UInt64.add_sub_cancel]
    · refine .other ?_ ?_ ?_
      · rw [System.pushing, hOpen]
        exact if_neg hDue
      · rw [hLayout, hRing]
      · rw [dropping, hOpen]
        dsimp only
        rw [hDropped, UInt64.sub_self]
        rfl

theorem putting (ownerId : H → UInt64) (s : System H) (event : StoreEvent H) : Putting ownerId s event := by
  have hRing (hPushing : s.pushing (.store event) = none) :
      (s.step ownerId event).layout.persistent = s.layout.persistent := by
    cases System.sampleStep_cases ownerId s (.store event) with
    | pushed limit slot hLimit hMost hOccupied hSome => rw [hPushing] at hSome; cases hSome
    | drained hNone hDraining => cases hDraining
    | other hNone hDraining hRing => exact hRing
  cases event with
  | putLatest h value => exact putting_put ownerId s h value
  | openStore | registerDevicePoints | heartbeatRegisteredPoints | removeExpired | releaseOwnerClaims =>
    exact .other rfl (hRing rfl) rfl

end Puts

inductive FlushEvent (H : Type u) where
  | store (event : StoreEvent H)
  | flushPersistentOnce (h : H) (world : FlushWorld)

structure FlushLog (H : Type u) where
  system : System H
  pushed : List PersistentPointSample
  written : List PersistentPointSample
  dropped : List PersistentPointSample

namespace FlushLog

variable {H : Type u} [DecidableEq H] (self : GatewayDaemon) (ownerId : H → UInt64)

def start (startMs : Int) : FlushLog H := ⟨.start startMs, [], [], []⟩

def step (log : FlushLog H) : FlushEvent H → FlushLog H
  | .store event =>
    let sample := ((log.system.pushing (.store event)).map (·.2)).toList
    { system := log.system.step ownerId event
      pushed := log.pushed ++ sample
      written := log.written
      dropped := log.dropped ++ (heldSamples log.system.layout ++ sample).take (dropping log.system event) }
  | .flushPersistentOnce h world =>
    match log.system.stores h with
    | none => log
    | some store =>
      let flushed := self.flushPersistentOnce world store log.system.layout
      { log with
        system := log.system.through h none fun _ => (flushed.store, flushed.layout)
        written := log.written ++ flushed.written }

def after (startMs : Int) (events : List (FlushEvent H)) : FlushLog H :=
  Run.after (step self ownerId) (start startMs) events

def Conserved (log : FlushLog H) : Prop :=
  (log.pushed : Multiset PersistentPointSample) =
    (log.written : Multiset PersistentPointSample) + (heldSamples log.system.layout : Multiset PersistentPointSample) +
      (log.dropped : Multiset PersistentPointSample)

def Occupied (log : FlushLog H) : Prop :=
  ∀ slot ∈ log.system.layout.persistent.contents, slot.occupied = true

def Meets (log : FlushLog H) : FlushEvent H → Prop
  | .store event => (log.system.pushing (.store event)).isSome →
      log.system.layout.persistent.count + 1 < kMaxPersistentSlots
  | .flushPersistentOnce h world => (log.system.stores h).isSome → (∃ what, world.writer = .threw what) →
      heldSamples log.system.layout = []

section Steps

variable {log : FlushLog H}

/-- A push and its evictions split what the ring held and the new sample into kept and counted. -/
theorem held_put {event : StoreEvent H} {limit : Nat} {slot : SharedPersistentSlot} (hOccupied : log.Occupied)
    (hLimit : 0 < limit) (hSlot : slot.occupied = true)
    (hRing : (log.system.step ownerId event).layout.persistent =
      (evictPersistent limit kMaxPersistentSlots (log.system.layout.persistent.push slot) 0).1)
    (hDropping : dropping log.system event =
      (evictPersistent limit kMaxPersistentSlots (log.system.layout.persistent.push slot) 0).2.toNat)
    (hRoom : log.system.layout.persistent.count + 1 < kMaxPersistentSlots) :
    heldSamples (log.system.step ownerId event).layout =
      (heldSamples log.system.layout ++ [slot.toSample]).drop (dropping log.system event) := by
  obtain ⟨k, hMost, hLeft, hCounted⟩ := evictPersistent_taken hLimit kMaxPersistentSlots
    (log.system.layout.persistent.push slot) 0 (occupied_push hOccupied hSlot hRoom)
  have hCount := Ring.count_lt (log.system.layout.persistent.push slot)
  have hNumber : dropping log.system event = k := by
    rw [hDropping, hCounted, UInt64.zero_add, UInt64.toNat_ofNat']
    apply Nat.mod_eq_of_lt
    exact Nat.lt_trans (Nat.lt_of_le_of_lt hMost hCount) (by decide)
  rw [hNumber, heldSamples, hRing, hLeft, Ring.contents_push _ _ hRoom, List.map_drop, List.map_append]
  rfl

theorem occupied_put {event : StoreEvent H} (hOccupied : log.Occupied) :
    (log.step self ownerId (.store event)).Occupied := by
  rw [Occupied, step]
  cases putting ownerId log.system event with
  | pushed limit slot hLimit hSlot hPushing hRing hDropping =>
    rw [hRing]
    have hPushed : ∀ s ∈ (log.system.layout.persistent.push slot).contents, s.occupied = true := by
      obtain hRoom | hFull := Nat.lt_or_eq_of_le (Nat.succ_le_of_lt (Ring.count_lt log.system.layout.persistent))
      · exact occupied_push hOccupied hSlot hRoom
      · rw [Ring.contents_push_full _ _ hFull]
        exact List.forall_mem_nil _
    obtain ⟨k, -, hLeft, -⟩ := evictPersistent_taken hLimit kMaxPersistentSlots _ 0 hPushed
    rw [hLeft]
    exact fun s hs => hPushed s (List.mem_of_mem_drop hs)
  | other hPushing hRing hDropping =>
    rw [hRing]
    exact hOccupied

theorem step_flush {h : H} {store : MemoryPointStore} (hOpen : log.system.stores h = some store) (world : FlushWorld) :
    (log.step self ownerId (.flushPersistentOnce h world)).system.layout = (drainPersistent log.system.layout).1 ∧
      (log.step self ownerId (.flushPersistentOnce h world)).pushed = log.pushed ∧
      (log.step self ownerId (.flushPersistentOnce h world)).written =
        log.written ++ (writeSamples world.writer (drainPersistent log.system.layout).2).1 ∧
      (log.step self ownerId (.flushPersistentOnce h world)).dropped = log.dropped := by
  obtain ⟨hLayout, hWritten⟩ := @GatewayDaemon.flushPersistentOnce_written self world store log.system.layout
  rw [step, hOpen]
  dsimp only
  rw [System.through_some _ _ hOpen, hWritten]
  exact ⟨hLayout, rfl, rfl, rfl⟩

theorem Occupied.step (hOccupied : log.Occupied) (event : FlushEvent H) : (log.step self ownerId event).Occupied := by
  cases event with
  | store event => exact occupied_put self ownerId hOccupied
  | flushPersistentOnce h world =>
    cases hOpen : log.system.stores h with
    | none =>
      rw [FlushLog.step, hOpen]
      exact hOccupied
    | some store =>
      rw [Occupied, (step_flush self ownerId hOpen world).1, (drainPersistent_all hOccupied).1]
      exact List.forall_mem_nil _

omit [DecidableEq H] in
theorem Conserved.length (h : log.Conserved) :
    log.pushed.length = log.written.length + (heldSamples log.system.layout).length + log.dropped.length := by
  have hCard := congrArg Multiset.card h
  rw [Multiset.card_add, Multiset.card_add] at hCard
  exact hCard

/-- The push that moves the tail onto the head leaves nothing and counts nothing. -/
theorem held_put_full {event : StoreEvent H} {limit : Nat} {slot : SharedPersistentSlot} (hLimit : 0 < limit)
    (hRing : (log.system.step ownerId event).layout.persistent =
      (evictPersistent limit kMaxPersistentSlots (log.system.layout.persistent.push slot) 0).1)
    (hDropping : dropping log.system event =
      (evictPersistent limit kMaxPersistentSlots (log.system.layout.persistent.push slot) 0).2.toNat)
    (hFull : ¬log.system.layout.persistent.count + 1 < kMaxPersistentSlots) :
    heldSamples (log.system.step ownerId event).layout = [] ∧ dropping log.system event = 0 := by
  have hMet := Ring.contents_push_full log.system.layout.persistent slot
    (Nat.le_antisymm (Nat.succ_le_of_lt (Ring.count_lt _)) (Nat.le_of_not_lt hFull))
  have hEmpty : (log.system.layout.persistent.push slot).count < limit := by
    rw [← Ring.length_contents, hMet]
    exact hLimit
  rw [evictPersistent_below hEmpty] at hRing hDropping
  refine ⟨?_, hDropping⟩
  rw [heldSamples, hRing, hMet, List.map_nil]

theorem conserved_put_iff {event : StoreEvent H} (hOccupied : log.Occupied) (hConserved : log.Conserved) :
    (log.step self ownerId (.store event)).Conserved ↔ log.Meets (.store event) := by
  cases putting ownerId log.system event with
  | pushed limit slot hLimit hSlot hPushing hRing hDropping =>
    constructor
    · intro hAfter hSome
      by_contra hFull
      obtain ⟨hHeld, hNone⟩ := held_put_full ownerId hLimit hRing hDropping hFull
      have hLength := hAfter.length
      have hBefore := hConserved.length
      rw [step] at hLength
      dsimp only at hLength
      rw [hPushing, hHeld, hNone, List.take_zero, List.append_nil, List.length_append] at hLength
      change _ + 1 = _ + 0 + _ at hLength
      omega
    · intro hMeets
      have hRoom : log.system.layout.persistent.count + 1 < kMaxPersistentSlots := hMeets (by rw [hPushing]; rfl)
      rw [Conserved, step]
      dsimp only
      rw [held_put ownerId hOccupied hLimit hSlot hRing hDropping hRoom, hPushing]
      rw [Option.map_some, Option.toList_some]
      dsimp only
      rw [← Multiset.coe_add, ← Multiset.coe_add, hConserved]
      have hSplit := congrArg (fun samples : List PersistentPointSample => (samples : Multiset PersistentPointSample))
        (List.take_append_drop (dropping log.system event) (heldSamples log.system.layout ++ [slot.toSample]))
      rw [← Multiset.coe_add, ← Multiset.coe_add (heldSamples _)] at hSplit
      rw [add_right_comm, add_assoc (log.written : Multiset PersistentPointSample), ← hSplit]
      abel
  | other hPushing hRing hDropping =>
    have hHeld : heldSamples (log.system.step ownerId event).layout = heldSamples log.system.layout := by
      rw [heldSamples, hRing]
      rfl
    have hAfter : (log.step self ownerId (.store event)).Conserved := by
      rw [Conserved, step]
      dsimp only
      rw [hPushing, hDropping, hHeld, List.take_zero, List.append_nil]
      exact (congrArg _ (List.append_nil _)).trans hConserved
    refine iff_of_true hAfter fun hSome => ?_
    rw [hPushing] at hSome
    cases hSome

theorem conserved_flush_iff {h : H} {world : FlushWorld} (hOccupied : log.Occupied) (hConserved : log.Conserved) :
    (log.step self ownerId (.flushPersistentOnce h world)).Conserved ↔ log.Meets (.flushPersistentOnce h world) := by
  cases hOpen : log.system.stores h with
  | none =>
    rw [step, Meets, hOpen]
    refine iff_of_true hConserved fun hSome => ?_
    cases hSome
  | some store =>
    obtain ⟨hLayout, hPushed, hWritten, hDropped⟩ := step_flush self ownerId hOpen world
    obtain ⟨hEmpty, hDrained⟩ := drainPersistent_all hOccupied
    have hHeld : heldSamples (log.step self ownerId (.flushPersistentOnce h world)).system.layout = [] := by
      rw [heldSamples, hLayout, hEmpty, List.map_nil]
    rw [hDrained] at hWritten
    constructor
    · rintro hAfter - ⟨what, hThrew⟩
      have hLength := hAfter.length
      have hBefore := hConserved.length
      rw [hHeld, hPushed, hWritten, hDropped, hThrew, writeSamples_threw, List.append_nil, List.length_nil] at hLength
      exact List.length_eq_zero_iff.mp (by omega)
    · intro hMeets
      have hKept : (writeSamples world.writer (heldSamples log.system.layout)).1 = heldSamples log.system.layout := by
        apply writeSamples_kept
        obtain hThrew | hNot := Classical.em (∃ what, world.writer = .threw what)
        · exact .inl (hMeets (by rw [hOpen]; rfl) hThrew)
        · exact .inr fun what hWhat => hNot ⟨what, hWhat⟩
      rw [Conserved, hHeld, hPushed, hWritten, hDropped, hKept, ← Multiset.coe_add, hConserved, Multiset.coe_nil,
        add_zero]

theorem conserved_step_iff {event : FlushEvent H} (hOccupied : log.Occupied) (hConserved : log.Conserved) :
    (log.step self ownerId event).Conserved ↔ log.Meets event := by
  cases event with
  | store event => exact conserved_put_iff self ownerId hOccupied hConserved
  | flushPersistentOnce h world => exact conserved_flush_iff self ownerId hOccupied hConserved

end Steps

omit [DecidableEq H] in
theorem start_held (startMs : Int) : (start startMs : FlushLog H).system.layout.persistent.contents = [] :=
  Ring.contents_cleared _ _

omit [DecidableEq H] in
theorem start_conserved (startMs : Int) : (start startMs : FlushLog H).Occupied ∧ (start startMs : FlushLog H).Conserved := by
  constructor
  · rw [Occupied, start_held]
    exact List.forall_mem_nil _
  · rw [Conserved, heldSamples, start_held]
    rfl

theorem after_occupied (startMs : Int) (events : List (FlushEvent H)) : (after self ownerId startMs events).Occupied :=
  Run.invariant_along (step self ownerId) Occupied (start_conserved startMs).1
    (fun _ event _ hBefore => hBefore.step self ownerId event) events (List.prefix_refl events)

theorem after_snoc (startMs : Int) (events : List (FlushEvent H)) (event : FlushEvent H) :
    after self ownerId startMs (events ++ [event]) = (after self ownerId startMs events).step self ownerId event :=
  Run.after_snoc _ _ _ _

/-- A run accounts for every pushed sample iff no flush drains what the writer throws away and no push fills
    the last slot. -/
theorem samples_conserved_iff (self : GatewayDaemon) (ownerId : H → UInt64) (startMs : Int)
    (events : List (FlushEvent H)) :
    (∀ done, done <+: events → (after self ownerId startMs done).Conserved) ↔
      Run.Guarded (step self ownerId) Meets (start startMs) events := by
  constructor
  · intro hAll done event hStep
    have hAfter := hAll _ hStep
    rw [after_snoc] at hAfter
    exact (conserved_step_iff self ownerId (after_occupied self ownerId startMs done)
      (hAll done ((List.prefix_append done [event]).trans hStep))).mp hAfter
  · intro hMeets done hDone
    refine Run.invariant_along (step self ownerId) Conserved (start_conserved startMs).2 ?_ done hDone
    intro done event hStep hBefore
    exact (conserved_step_iff self ownerId (after_occupied self ownerId startMs done) hBefore).mpr
      (hMeets done event hStep)

end FlushLog

section LostBatch

open FlushLog

def storedPoint : List (FlushEvent Bool) :=
  [.store (.openStore false (.config {}) []), .store (.putLatest false { countedPoint with isStore := true })]

def lockedFlush : FlushEvent Bool :=
  .flushPersistentOnce false ⟨.threw "database is locked".toList, 0, none, 0, none⟩

def plainDaemon : GatewayDaemon := ⟨[], [], 0, false, fun _ => none, ⟨[], []⟩⟩

theorem storedPoint_held : heldSamples (after plainDaemon rivalId 0 storedPoint).system.layout ≠ [] := by
  obtain ⟨sample, hPushing⟩ := first_put_pushes {}
  have hOpened : (SampleLog.after rivalId 0 [.store (.openStore false (.config {}) [])]).Whole := by
    apply (SampleLog.start_whole 0).record
    intro limit sample hNone
    cases hNone
  have hBelow : (SampleLog.after rivalId 0 [.store (.openStore false (.config {}) [])]).Below
      (.store (.putLatest false { countedPoint with isStore := true })) := by
    intro limit sample hOther
    rw [hPushing] at hOther
    obtain ⟨rfl, -⟩ := Prod.mk.inj (Option.some.inj hOther)
    decide
  have hPut := hOpened.record rivalId hBelow
  have hSince := (SampleLog.record_of_pushing rivalId hPushing rfl).1
  intro hNone
  have hHeld := hPut.held
  rw [hSince] at hHeld
  exact List.append_ne_nil_of_right_ne_nil _ (List.cons_ne_nil _ _) (hHeld.symm.trans hNone)

/-- A stored point is flushed into a locked database: the sample is lost and no counter knows of it. -/
theorem locked_batch_lost :
    ¬∀ done, done <+: storedPoint ++ [lockedFlush] → (after plainDaemon rivalId 0 done).Conserved := by
  intro hAll
  have hBefore := hAll storedPoint (List.prefix_append _ _)
  have hAfter := hAll _ (List.prefix_refl _)
  rw [after_snoc] at hAfter
  have hMeets := (conserved_step_iff plainDaemon rivalId (after_occupied plainDaemon rivalId 0 storedPoint) hBefore).mp
    hAfter
  exact storedPoint_held (hMeets rfl ⟨_, rfl⟩)

end LostBatch

end EdgeGateway.Daemon
