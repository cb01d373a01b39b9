import EdgeGateway.PointStore.System

/-! # The stream of point updates

Every put that returns appends one numbered record to a ring that overwrites its oldest.
-/

namespace EdgeGateway.PointStore

universe u

def SharedPointUpdateSlot.toRecord (slot : SharedPointUpdateSlot) : PointUpdateRecord where
  sequence := slot.sequence
  index := slot.index
  value := slot.value
  quality := slot.quality
  ts := slot.ts
  expireAt := slot.expireAt

def drainUpdateLoop (limit : Nat) :
    Nat → Ring SharedPointUpdateSlot kMaxPointUpdateSlots → List PointUpdateRecord →
      Ring SharedPointUpdateSlot kMaxPointUpdateSlots × List PointUpdateRecord
  | 0, ring, result => (ring, result)
  | fuel + 1, ring, result =>
    if ring.head = ring.tail then (ring, result)
    else if limit > 0 ∧ result.length ≥ limit then (ring, result)
    else if (ring.slots ring.head).occupied then
      drainUpdateLoop limit fuel (ring.pop {}) (result ++ [(ring.slots ring.head).toRecord])
    else
      drainUpdateLoop limit fuel { ring with head := Ring.next ring.head } result

def drainPointUpdates (layout : SharedStoreLayout) (limit : Nat) : SharedStoreLayout × List PointUpdateRecord :=
  let drained := drainUpdateLoop limit kMaxPointUpdateSlots layout.pointUpdates []
  ({ layout with pointUpdates := drained.1 }, drained.2)

def queuedUpdates (layout : SharedStoreLayout) : List PointUpdateRecord :=
  layout.pointUpdates.contents.map SharedPointUpdateSlot.toRecord

def updateSlot (layout : SharedStoreLayout) (value : PointValue) : SharedPointUpdateSlot where
  sequence := layout.pointUpdateSequence + 1
  index := value.index
  value := value.value
  quality := value.quality
  ts := value.ts
  expireAt := value.expireAt
  occupied := true

def publishedRecord (layout : SharedStoreLayout) (value : PointValue) : PointUpdateRecord where
  sequence := layout.pointUpdateSequence + 1
  index := value.index
  value := value.value
  quality := value.quality
  ts := value.ts
  expireAt := value.expireAt

section Steps

variable {store : MemoryPointStore} {layout : SharedStoreLayout}

theorem drainUpdateLoop_takes (limit fuel : Nat) (ring : Ring SharedPointUpdateSlot kMaxPointUpdateSlots)
    (result : List PointUpdateRecord) (hOccupied : ∀ slot ∈ ring.contents, slot.occupied = true) :
    ∃ taken, ring.contents = taken ++ (drainUpdateLoop limit fuel ring result).1.contents ∧
      (drainUpdateLoop limit fuel ring result).2 = result ++ taken.map SharedPointUpdateSlot.toRecord := by
  induction fuel generalizing ring result with
  | zero =>
    rw [drainUpdateLoop]
    exact ⟨[], (List.nil_append _).symm, (List.append_nil _).symm⟩
  | succ fuel ih =>
    rw [drainUpdateLoop]
    split
    · exact ⟨[], (List.nil_append _).symm, (List.append_nil _).symm⟩
    · rename_i hSome
      have hPop := Ring.contents_pop ring {} hSome
      split
      · exact ⟨[], (List.nil_append _).symm, (List.append_nil _).symm⟩
      · rw [hPop] at hOccupied
        rw [if_pos (hOccupied _ List.mem_cons_self)]
        obtain ⟨taken, hContents, hResult⟩ := ih (ring.pop {}) (result ++ [(ring.slots ring.head).toRecord])
          fun slot hSlot => hOccupied slot (List.mem_cons_of_mem _ hSlot)
        refine ⟨ring.slots ring.head :: taken, ?_, ?_⟩
        · rw [hPop, List.cons_append, ← hContents]
        · rw [hResult, List.append_assoc, List.singleton_append, List.map_cons]

theorem drainUpdateLoop_all (fuel : Nat) (ring : Ring SharedPointUpdateSlot kMaxPointUpdateSlots)
    (result : List PointUpdateRecord) (hOccupied : ∀ slot ∈ ring.contents, slot.occupied = true)
    (hFuel : ring.count ≤ fuel) :
    (drainUpdateLoop 0 fuel ring result).2 = result ++ ring.contents.map SharedPointUpdateSlot.toRecord := by
  induction fuel generalizing ring result with
  | zero =>
    have hEmpty : ring.contents = [] := by
      rw [← List.length_eq_zero_iff, Ring.length_contents]
      omega
    rw [drainUpdateLoop, hEmpty, List.map_nil, List.append_nil]
  | succ fuel ih =>
    rw [drainUpdateLoop]
    split
    · rename_i hEmpty
      rw [(Ring.contents_eq_nil ring).mpr hEmpty, List.map_nil, List.append_nil]
    · rename_i hSome
      have hPop := Ring.contents_pop ring {} hSome
      have hCount := Ring.count_pop ring {} hSome
      rw [hPop] at hOccupied
      rw [if_neg fun hLimit => Nat.lt_irrefl 0 hLimit.1, if_pos (hOccupied _ List.mem_cons_self)]
      rw [ih (ring.pop {}) _ (fun slot hSlot => hOccupied slot (List.mem_cons_of_mem _ hSlot)) (by omega)]
      rw [hPop, List.append_assoc, List.singleton_append, List.map_cons]

theorem publishUpdate_pointUpdates (value : PointValue) :
    (store.publishUpdate layout value).2.pointUpdates = layout.pointUpdates.pushOver (updateSlot layout value) ∧
      (store.publishUpdate layout value).2.pointUpdateSequence = layout.pointUpdateSequence + 1 := by
  rw [MemoryPointStore.publishUpdate]
  dsimp only
  split <;> exact ⟨rfl, rfl⟩

/-- A put that returns pushes its record; one that throws pushes nothing. -/
theorem putLatest_pointUpdates (value : PointValue) :
    ((store.putLatest layout value).2.2 = none ∧
      (store.putLatest layout value).2.1.pointUpdates = layout.pointUpdates.pushOver (updateSlot layout value) ∧
      (store.putLatest layout value).2.1.pointUpdateSequence = layout.pointUpdateSequence + 1) ∨
    (store.putLatest layout value).2.2 ≠ none ∧
      (store.putLatest layout value).2.1.pointUpdates = layout.pointUpdates ∧
      (store.putLatest layout value).2.1.pointUpdateSequence = layout.pointUpdateSequence := by
  rw [MemoryPointStore.putLatest]
  dsimp only
  split
  · exact .inr ⟨Option.some_ne_none _, rfl, rfl⟩
  · exact .inl ⟨rfl, publishUpdate_pointUpdates value⟩

theorem removeAmong_layout (visits : List (Fin kMaxLatestSlots)) (nowMs : Int) :
    ∃ table registry, (store.removeAmong visits layout nowMs).2 = { layout with table, registry } :=
  ⟨_, _, rfl⟩

theorem removeExpired_layout (nowMs : Int) :
    ∃ table registry, (store.removeExpired layout nowMs).2 = { layout with table, registry } := by
  rw [MemoryPointStore.removeExpired]
  exact removeAmong_layout _ nowMs

end Steps

section Ring

variable {ring : Ring SharedPointUpdateSlot kMaxPointUpdateSlots} {slot : SharedPointUpdateSlot}

theorem contents_pushOver_cases :
    (ring.pushOver slot).contents = ring.contents ++ [slot] ∨
      ∃ first kept, ring.contents = first :: kept ∧ (ring.pushOver slot).contents = kept ++ [slot] ∧
        (kept ++ [slot]).length = 65535 := by
  have hPush : (ring.pushOver slot).contents =
      (ring.contents ++ [slot]).drop (ring.contents.length + 2 - 65536) :=
    Ring.contents_pushOver ring slot (by decide)
  have hLength : ring.contents.length < 65536 := by
    rw [Ring.length_contents]
    exact Ring.count_lt ring
  cases hContents : ring.contents with
  | nil =>
    rw [hContents] at hPush
    exact .inl hPush
  | cons first kept =>
    rw [hContents] at hPush hLength
    rw [List.length_cons] at hPush hLength
    obtain hFull | hRoom := Nat.eq_or_lt_of_le (Nat.le_of_lt_succ hLength)
    · rw [hFull, show 65535 + 2 - 65536 = 1 from rfl] at hPush
      refine .inr ⟨first, kept, rfl, hPush, ?_⟩
      rw [List.length_append]
      exact hFull
    · rw [Nat.sub_eq_zero_of_le (by omega)] at hPush
      exact .inl hPush

theorem occupied_pushOver (hOccupied : ∀ s ∈ ring.contents, s.occupied = true) (hSlot : slot.occupied = true) :
    ∀ s ∈ (ring.pushOver slot).contents, s.occupied = true := by
  have hAll : ∀ s ∈ ring.contents ++ [slot], s.occupied = true := by
    rw [List.forall_mem_append]
    exact ⟨hOccupied, List.forall_mem_singleton.mpr hSlot⟩
  intro s hs
  apply hAll
  obtain hPush | ⟨first, kept, hContents, hPush, -⟩ := @contents_pushOver_cases ring slot
  · rwa [hPush] at hs
  · rw [hPush] at hs
    rw [hContents]
    exact List.mem_cons_of_mem first hs

end Ring

inductive UpdateEvent (H : Type u) where
  | store (event : StoreEvent H)
  | drainPointUpdates (h : H) (limit : Nat)

namespace System

variable {H : Type u} [DecidableEq H] (ownerId : H → UInt64) (startMs : Int)

def streamStep (s : System H) : UpdateEvent H → System H
  | .store event => s.step ownerId event
  | .drainPointUpdates h limit => s.through h none fun store => (store, (drainPointUpdates s.layout limit).1)

def publishedBy (s : System H) : UpdateEvent H → List PointUpdateRecord
  | .store (.putLatest h value) =>
    match s.stores h with
    | none => []
    | some store => if (store.putLatest s.layout value).2.2 = none then [publishedRecord s.layout value] else []
  | _ => []

def drainedBy (s : System H) : UpdateEvent H → List PointUpdateRecord
  | .drainPointUpdates h limit =>
    match s.stores h with
    | none => []
    | some _ => (drainPointUpdates s.layout limit).2
  | _ => []

inductive StreamCase (s : System H) (event : UpdateEvent H) : Prop
  | published (value : PointValue) (hPublished : s.publishedBy event = [publishedRecord s.layout value])
      (hDrained : s.drainedBy event = [])
      (hRing : (s.streamStep ownerId event).layout.pointUpdates =
        s.layout.pointUpdates.pushOver (updateSlot s.layout value))
      (hSequence : (s.streamStep ownerId event).layout.pointUpdateSequence = s.layout.pointUpdateSequence + 1)
  | drained (limit : Nat) (hPublished : s.publishedBy event = [])
      (hDrained : s.drainedBy event = (drainPointUpdates s.layout limit).2)
      (hRing : (s.streamStep ownerId event).layout.pointUpdates = (drainPointUpdates s.layout limit).1.pointUpdates)
      (hSequence : (s.streamStep ownerId event).layout.pointUpdateSequence = s.layout.pointUpdateSequence)
  | other (hPublished : s.publishedBy event = []) (hDrained : s.drainedBy event = [])
      (hRing : (s.streamStep ownerId event).layout.pointUpdates = s.layout.pointUpdates)
      (hSequence : (s.streamStep ownerId event).layout.pointUpdateSequence = s.layout.pointUpdateSequence)

theorem StreamCase.of_through {ownerId : H → UInt64} {s : System H} {event : UpdateEvent H} {h : H} {time : Option Int}
    {f : MemoryPointStore → MemoryPointStore × SharedStoreLayout}
    (hStep : s.streamStep ownerId event = s.through h time f)
    (hRing : ∀ store, (f store).2.pointUpdates = s.layout.pointUpdates)
    (hSequence : ∀ store, (f store).2.pointUpdateSequence = s.layout.pointUpdateSequence)
    (hPublished : s.publishedBy event = []) (hDrained : s.drainedBy event = []) : StreamCase ownerId s event := by
  cases hOpen : s.stores h with
  | none =>
    rw [through_none time f hOpen] at hStep
    exact .other hPublished hDrained (by rw [hStep]) (by rw [hStep])
  | some store =>
    rw [through_some time f hOpen] at hStep
    refine .other hPublished hDrained ?_ ?_
    · rw [hStep]
      exact hRing store
    · rw [hStep]
      exact hSequence store

theorem streamStep_cases (s : System H) (event : UpdateEvent H) : StreamCase ownerId s event := by
  cases event with
  | drainPointUpdates h limit =>
    cases hOpen : s.stores h with
    | none =>
      refine .other rfl ?_ ?_ ?_
      · rw [drainedBy, hOpen]
      · rw [streamStep, through_none _ _ hOpen]
      · rw [streamStep, through_none _ _ hOpen]
    | some store =>
      refine .drained limit rfl ?_ ?_ ?_
      · rw [drainedBy, hOpen]
      · rw [streamStep, through_some _ _ hOpen]
      · rw [streamStep, through_some _ _ hOpen]
        rfl
  | store event =>
    cases event with
    | openStore h opening ownerSource =>
      have hLayout : (s.opening ownerId h opening ownerSource).layout = s.layout := by
        rw [System.opening]
        split <;> rfl
      exact .other rfl rfl (congrArg _ hLayout) (congrArg _ hLayout)
    | registerDevicePoints h configs ts => exact .of_through rfl (fun _ => rfl) (fun _ => rfl) rfl rfl
    | heartbeatRegisteredPoints h order nowMs => exact .of_through rfl (fun _ => rfl) (fun _ => rfl) rfl rfl
    | removeExpired h nowMs =>
      refine .of_through rfl (fun store => ?_) (fun store => ?_) rfl rfl
      · obtain ⟨table, registry, hLayout⟩ := @removeExpired_layout store s.layout nowMs
        rw [hLayout]
      · obtain ⟨table, registry, hLayout⟩ := @removeExpired_layout store s.layout nowMs
        rw [hLayout]
    | releaseOwnerClaims h ts => exact .of_through rfl (fun _ => rfl) (fun _ => rfl) rfl rfl
    | putLatest h value =>
      cases hOpen : s.stores h with
      | none =>
        refine .other ?_ rfl ?_ ?_
        · rw [publishedBy, hOpen]
        · rw [streamStep, step, through_none _ _ hOpen]
        · rw [streamStep, step, through_none _ _ hOpen]
      | some store =>
        have hLayout := step_putLatest_layout ownerId value hOpen
        obtain ⟨hDone, hRing, hSequence⟩ | ⟨hThrown, hRing, hSequence⟩ := @putLatest_pointUpdates store s.layout value
        · refine .published value ?_ rfl ?_ ?_
          · rw [publishedBy, hOpen]
            exact if_pos hDone
          · rw [streamStep, hLayout, hRing]
          · rw [streamStep, hLayout, hSequence]
        · refine .other ?_ rfl ?_ ?_
          · rw [publishedBy, hOpen]
            exact if_neg hThrown
          · rw [streamStep, hLayout, hRing]
          · rw [streamStep, hLayout, hSequence]

section Stream

def streamed (events : List (UpdateEvent H)) : System H := Run.after (streamStep ownerId) (start startMs) events

def published (events : List (UpdateEvent H)) : List PointUpdateRecord :=
  Run.trace (streamStep ownerId) publishedBy (start startMs) events

def drained (events : List (UpdateEvent H)) : List PointUpdateRecord :=
  Run.trace (streamStep ownerId) drainedBy (start startMs) events

def Overwritten (events : List (UpdateEvent H)) (record : PointUpdateRecord) : Prop :=
  ∃ done event past kept newest, done ++ [event] <+: events ∧
    queuedUpdates (streamed ownerId startMs done).layout = record :: kept ∧
    queuedUpdates (streamed ownerId startMs (done ++ [event])).layout = kept ++ [newest] ∧
    (kept ++ [newest]).length = 65535 ∧
    published ownerId startMs (done ++ [event]) = past ++ record :: (kept ++ [newest])

/-- The published records are numbered from one; those behind the ring were drained or overwritten. -/
structure Streamed (events : List (UpdateEvent H)) : Prop where
  occupied : ∀ slot ∈ (streamed ownerId startMs events).layout.pointUpdates.contents, slot.occupied = true
  sequence : (streamed ownerId startMs events).layout.pointUpdateSequence =
    UInt64.ofNat (published ownerId startMs events).length
  numbered : (published ownerId startMs events).map (·.sequence) =
    (List.range' 1 (published ownerId startMs events).length).map UInt64.ofNat
  split : ∃ past, published ownerId startMs events = past ++ queuedUpdates (streamed ownerId startMs events).layout ∧
    (drained ownerId startMs events).Sublist past ∧
    ∀ record ∈ past, record ∈ drained ownerId startMs events ∨ Overwritten ownerId startMs events record

variable {ownerId startMs}

theorem Overwritten.later {events : List (UpdateEvent H)} {record : PointUpdateRecord}
    (h : Overwritten ownerId startMs events record) (event : UpdateEvent H) :
    Overwritten ownerId startMs (events ++ [event]) record := by
  obtain ⟨done, last, past, kept, newest, hDone, hRest⟩ := h
  exact ⟨done, last, past, kept, newest, hDone.trans (List.prefix_append events [event]), hRest⟩

theorem streamed_nil : Streamed ownerId startMs ([] : List (UpdateEvent H)) := by
  have hEmpty : (streamed ownerId startMs ([] : List (UpdateEvent H))).layout.pointUpdates.contents = [] :=
    Ring.contents_cleared _ _
  refine ⟨?_, rfl, rfl, [], ?_, List.Sublist.refl [], ?_⟩
  · intro slot hSlot
    rw [hEmpty] at hSlot
    cases hSlot
  · rw [queuedUpdates, hEmpty]
    rfl
  · intro record hRecord
    cases hRecord

theorem streamed_snoc (events : List (UpdateEvent H)) (event : UpdateEvent H) :
    streamed ownerId startMs (events ++ [event]) = (streamed ownerId startMs events).streamStep ownerId event :=
  Run.after_snoc _ _ _ _

theorem published_snoc (events : List (UpdateEvent H)) (event : UpdateEvent H) :
    published ownerId startMs (events ++ [event]) =
      published ownerId startMs events ++ (streamed ownerId startMs events).publishedBy event :=
  Run.trace_snoc _ _ _ _ _

theorem drained_snoc (events : List (UpdateEvent H)) (event : UpdateEvent H) :
    drained ownerId startMs (events ++ [event]) =
      drained ownerId startMs events ++ (streamed ownerId startMs events).drainedBy event :=
  Run.trace_snoc _ _ _ _ _

/-- A step that publishes nothing: what it takes off the ring is what it drains. -/
theorem Streamed.take {events : List (UpdateEvent H)} {event : UpdateEvent H} (h : Streamed ownerId startMs events)
    (hPublished : (streamed ownerId startMs events).publishedBy event = [])
    (hSequence : (streamed ownerId startMs (events ++ [event])).layout.pointUpdateSequence =
      (streamed ownerId startMs events).layout.pointUpdateSequence)
    {taken : List SharedPointUpdateSlot}
    (hContents : (streamed ownerId startMs events).layout.pointUpdates.contents =
      taken ++ (streamed ownerId startMs (events ++ [event])).layout.pointUpdates.contents)
    (hDrained : (streamed ownerId startMs events).drainedBy event = taken.map SharedPointUpdateSlot.toRecord) :
    Streamed ownerId startMs (events ++ [event]) := by
  have hSame : published ownerId startMs (events ++ [event]) = published ownerId startMs events := by
    rw [published_snoc, hPublished, List.append_nil]
  obtain ⟨past, hSplit, hSublist, hPast⟩ := h.split
  refine ⟨?_, ?_, ?_, past ++ taken.map SharedPointUpdateSlot.toRecord, ?_, ?_, ?_⟩
  · intro slot hSlot
    apply h.occupied
    rw [hContents]
    exact List.mem_append_right _ hSlot
  · rw [hSequence, hSame, h.sequence]
  · rw [hSame]
    exact h.numbered
  · rw [hSame, hSplit, queuedUpdates, hContents, List.map_append, List.append_assoc]
    rfl
  · rw [drained_snoc, hDrained]
    exact hSublist.append (List.Sublist.refl _)
  · rw [drained_snoc, hDrained]
    intro record hRecord
    obtain hRecord | hRecord := List.mem_append.mp hRecord
    · obtain hTaken | hLost := hPast record hRecord
      · exact .inl (List.mem_append_left _ hTaken)
      · exact .inr (hLost.later event)
    · exact .inl (List.mem_append_right _ hRecord)

theorem Streamed.publish {events : List (UpdateEvent H)} {event : UpdateEvent H} (h : Streamed ownerId startMs events)
    (value : PointValue)
    (hPublished : (streamed ownerId startMs events).publishedBy event =
      [publishedRecord (streamed ownerId startMs events).layout value])
    (hDrained : (streamed ownerId startMs events).drainedBy event = [])
    (hRing : (streamed ownerId startMs (events ++ [event])).layout.pointUpdates =
      (streamed ownerId startMs events).layout.pointUpdates.pushOver
        (updateSlot (streamed ownerId startMs events).layout value))
    (hSequence : (streamed ownerId startMs (events ++ [event])).layout.pointUpdateSequence =
      (streamed ownerId startMs events).layout.pointUpdateSequence + 1) :
    Streamed ownerId startMs (events ++ [event]) := by
  have hMore : published ownerId startMs (events ++ [event]) = published ownerId startMs events ++
      [publishedRecord (streamed ownerId startMs events).layout value] := by
    rw [published_snoc, hPublished]
  have hSame : drained ownerId startMs (events ++ [event]) = drained ownerId startMs events := by
    rw [drained_snoc, hDrained, List.append_nil]
  have hCount : (published ownerId startMs (events ++ [event])).length =
      (published ownerId startMs events).length + 1 := by
    rw [hMore, List.length_append]
    rfl
  have hNumber : (streamed ownerId startMs events).layout.pointUpdateSequence + 1 =
      UInt64.ofNat ((published ownerId startMs events).length + 1) := by
    rw [h.sequence, UInt64.ofNat_add]
    rfl
  obtain ⟨past, hSplit, hSublist, hPast⟩ := h.split
  refine ⟨?_, ?_, ?_, ?_⟩
  · rw [hRing]
    exact occupied_pushOver h.occupied rfl
  · rw [hSequence, hCount, hNumber]
  · rw [hCount, List.range'_concat, List.map_append, ← h.numbered, hMore, List.map_append]
    congr 1
    rw [List.map_singleton, List.map_singleton, Nat.one_mul, Nat.add_comm 1, ← hNumber]
    rfl
  · have hKept : ∀ record ∈ past, record ∈ drained ownerId startMs events ∨
        Overwritten ownerId startMs (events ++ [event]) record :=
      fun record hRecord => (hPast record hRecord).imp_right fun hLost => hLost.later event
    rw [hMore, hSame]
    obtain hPush | ⟨first, kept, hContents, hPush, hLength⟩ := @contents_pushOver_cases
      (streamed ownerId startMs events).layout.pointUpdates (updateSlot (streamed ownerId startMs events).layout value)
    · refine ⟨past, ?_, hSublist, hKept⟩
      rw [hSplit, queuedUpdates, queuedUpdates, hRing, hPush, List.map_append, List.append_assoc]
      rfl
    · have hQueued : queuedUpdates (streamed ownerId startMs events).layout =
          first.toRecord :: kept.map SharedPointUpdateSlot.toRecord := by
        rw [queuedUpdates, hContents, List.map_cons]
      have hAfter : queuedUpdates (streamed ownerId startMs (events ++ [event])).layout =
          kept.map SharedPointUpdateSlot.toRecord ++ [publishedRecord (streamed ownerId startMs events).layout value] := by
        rw [queuedUpdates, hRing, hPush, List.map_append]
        rfl
      refine ⟨past ++ [first.toRecord], ?_, hSublist.trans (List.sublist_append_left _ _), ?_⟩
      · rw [hSplit, hQueued, hAfter, List.append_assoc, List.append_assoc]
        rfl
      · intro record hRecord
        obtain hRecord | hRecord := List.mem_append.mp hRecord
        · exact hKept record hRecord
        · obtain rfl := List.mem_singleton.mp hRecord
          refine .inr ⟨events, event, past, _, _, List.prefix_refl _, hQueued, hAfter, ?_, ?_⟩
          · rw [List.length_append, List.length_map]
            rw [List.length_append] at hLength
            exact hLength
          · rw [hMore, hSplit, hQueued, List.append_assoc]
            rfl

theorem streamed_run (events : List (UpdateEvent H)) : Streamed ownerId startMs events := by
  induction events using List.reverseRecOn with
  | nil => exact streamed_nil
  | append_singleton events event ih =>
    cases streamStep_cases ownerId (streamed ownerId startMs events) event with
    | published value hPublished hDrained hRing hSequence =>
      rw [← streamed_snoc] at hRing hSequence
      exact ih.publish value hPublished hDrained hRing hSequence
    | drained limit hPublished hDrained hRing hSequence =>
      rw [← streamed_snoc] at hRing hSequence
      obtain ⟨taken, hContents, hResult⟩ := drainUpdateLoop_takes limit kMaxPointUpdateSlots
        (streamed ownerId startMs events).layout.pointUpdates [] ih.occupied
      rw [drainPointUpdates] at hRing hDrained
      dsimp only at hRing hDrained
      rw [← hRing] at hContents
      rw [List.nil_append] at hResult
      exact ih.take hPublished hSequence hContents (hDrained.trans hResult)
    | other hPublished hDrained hRing hSequence =>
      rw [← streamed_snoc] at hRing hSequence
      have hNone : (streamed ownerId startMs events).layout.pointUpdates.contents =
          [] ++ (streamed ownerId startMs (events ++ [event])).layout.pointUpdates.contents := by
        rw [hRing, List.nil_append]
      exact ih.take hPublished hSequence hNone hDrained

theorem published_of_done {done events : List (UpdateEvent H)} (h : done <+: events) :
    published ownerId startMs done <+: published ownerId startMs events := by
  obtain ⟨rest, rfl⟩ := h
  induction rest using List.reverseRecOn with
  | nil =>
    rw [List.append_nil]
  | append_singleton rest event ih =>
    rw [← List.append_assoc, published_snoc]
    exact ih.trans (List.prefix_append _ _)

theorem published_increasing {events : List (UpdateEvent H)} (hLength : (published ownerId startMs events).length < 2 ^ 64) :
    (published ownerId startMs events).Pairwise fun x y => x.sequence < y.sequence := by
  rw [← List.pairwise_map (f := PointUpdateRecord.sequence) (R := fun x y => x < y),
    (streamed_run events).numbered, List.pairwise_map]
  refine List.Pairwise.imp_of_mem ?_ (List.pairwise_lt_range' (s := 1) (n := (published ownerId startMs events).length))
  intro a b _ hb hLess
  obtain ⟨-, hHigh⟩ := List.mem_range'_1.mp hb
  have hSize : UInt64.size = 2 ^ 64 := rfl
  rw [UInt64.lt_iff_toNat_lt, UInt64.toNat_ofNat_of_lt' (by omega), UInt64.toNat_ofNat_of_lt' (by omega)]
  exact hLess

/-- Batches carry increasing numbers and the puts' own records; a lost one was pushed out by 65535 newer ones.
    -/
theorem point_update_stream (ownerId : H → UInt64) (startMs : Int) (events : List (UpdateEvent H))
    (hLength : (published ownerId startMs events).length < 2 ^ 64) :
    (drained ownerId startMs events).Pairwise (fun x y => x.sequence < y.sequence) ∧
      (drained ownerId startMs events).Sublist (published ownerId startMs events) ∧
      (published ownerId startMs events).Pairwise (fun x y => x.sequence < y.sequence) ∧
      ∀ record ∈ published ownerId startMs events, record ∈ drained ownerId startMs events ∨
        record ∈ queuedUpdates (streamed ownerId startMs events).layout ∨
        ∃ done event kept newest, done ++ [event] <+: events ∧
          queuedUpdates (streamed ownerId startMs done).layout = record :: kept ∧
          queuedUpdates (streamed ownerId startMs (done ++ [event])).layout = kept ++ [newest] ∧
          65535 ≤ (kept ++ [newest]).length ∧ ∀ newer ∈ kept ++ [newest], record.sequence < newer.sequence := by
  have hIncreasing := published_increasing hLength
  obtain ⟨past, hSplit, hSublist, hPast⟩ := (@streamed_run H _ ownerId startMs events).split
  have hTaken : (drained ownerId startMs events).Sublist (published ownerId startMs events) := by
    rw [hSplit]
    exact hSublist.trans (List.sublist_append_left _ _)
  refine ⟨hIncreasing.sublist hTaken, hTaken, hIncreasing, ?_⟩
  intro record hRecord
  rw [hSplit] at hRecord
  obtain hBehind | hQueued := List.mem_append.mp hRecord
  · obtain hDrained | ⟨done, event, front, kept, newest, hDone, hBefore, hAfter, hFull, hOrder⟩ := hPast record hBehind
    · exact .inl hDrained
    · refine .inr (.inr ⟨done, event, kept, newest, hDone, hBefore, hAfter, hFull.ge, ?_⟩)
      have hUntil := hIncreasing.sublist (published_of_done hDone).sublist
      rw [hOrder] at hUntil
      exact (List.pairwise_cons.mp (List.pairwise_append.mp hUntil).2.1).1
  · exact .inr (.inl hQueued)

theorem published_length_le (events : List (UpdateEvent H)) :
    (published ownerId startMs events).length ≤ events.length := by
  induction events using List.reverseRecOn with
  | nil => exact Nat.le_refl 0
  | append_singleton events event ih =>
    have hOne : ((streamed ownerId startMs events).publishedBy event).length ≤ 1 := by
      cases streamStep_cases ownerId (streamed ownerId startMs events) event with
      | published value hPublished => rw [hPublished, List.length_singleton]
      | drained limit hPublished => rw [hPublished]; exact Nat.zero_le 1
      | other hPublished => rw [hPublished]; exact Nat.zero_le 1
    rw [published_snoc, List.length_append, List.length_append, List.length_singleton]
    omega

end Stream

end System

def countedPoint : PointValue where
  index := 7
  machineCode := []
  meterCode := []
  pointCode := []
  value := 0
  quality := 1
  ts := 1000
  expireAt := 0
  isStore := false
  persistIntervalSec := 0

def putPoint : UpdateEvent Bool := .store (.putLatest false countedPoint)

def repeatedPuts (n : Nat) : List (UpdateEvent Bool) :=
  .store (.openStore false .segmentName []) :: List.replicate n putPoint

theorem two_puts_drained_in_order :
    (System.drained rivalId 0 (repeatedPuts 2 ++ [.drainPointUpdates false 1, .drainPointUpdates false 0])).Pairwise
      fun x y => x.sequence < y.sequence :=
  (System.point_update_stream rivalId 0 (repeatedPuts 2 ++ [.drainPointUpdates false 1, .drainPointUpdates false 0])
    (Nat.lt_of_le_of_lt (System.published_length_le _) (by decide))).1

section Wrap

variable {store : MemoryPointStore} {layout : SharedStoreLayout} {value : PointValue} {k : Fin kMaxLatestSlots}

theorem cachedSlot_of_carries {table : LatestTable} {cache : UInt32 → Option Nat} {index : UInt32}
    (hCache : cache index = some k.val) (hCarries : table.Carries k index) : table.cachedSlot cache index = some k := by
  obtain ⟨hOccupied, hIndex⟩ := hCarries
  rw [LatestTable.cachedSlot, hCache]
  dsimp only
  rw [dif_pos k.isLt, if_pos]
  rw [hOccupied, hIndex, Bool.true_and, beq_self_eq_true]

theorem cache_of_cachedSlot {table : LatestTable} {cache : UInt32 → Option Nat} {index : UInt32}
    (h : table.cachedSlot cache index = some k) : cache index = some k.val := by
  rw [LatestTable.cachedSlot] at h
  split at h
  · cases h
  · rename_i slot hCache
    split at h
    · split at h
      · rw [hCache, ← Option.some.inj h]
      · cases h
    · cases h

theorem publishUpdate_cache (layout : SharedStoreLayout) (value : PointValue) :
    (store.publishUpdate layout value).1.latestSlotByIndex = store.latestSlotByIndex := by
  rw [MemoryPointStore.publishUpdate]
  dsimp only
  split <;> rfl

theorem putLatest_cached {table : LatestTable} {cache : UInt32 → Option Nat}
    (hAlloc : layout.table.allocateLatestSlot value.index store.opening.maxLatestPoints store.latestSlotByIndex =
      (table, cache, .ok k)) (hCache : cache value.index = some k.val) :
    (store.putLatest layout value).2.2 = none ∧
      (store.putLatest layout value).2.1.table.cachedSlot (store.putLatest layout value).1.latestSlotByIndex
        value.index = some k := by
  rw [MemoryPointStore.putLatest]
  simp only [MemoryPointStore.bindValue, hAlloc, publishUpdate_cache, publishUpdate_table]
  refine ⟨trivial, cachedSlot_of_carries hCache ?_⟩
  rw [LatestTable.Carries]
  dsimp only
  rw [Function.update_self]
  exact ⟨rfl, rfl⟩

theorem putLatest_again (h : layout.table.cachedSlot store.latestSlotByIndex value.index = some k) :
    (store.putLatest layout value).2.2 = none ∧
      (store.putLatest layout value).2.1.table.cachedSlot (store.putLatest layout value).1.latestSlotByIndex
        value.index = some k :=
  putLatest_cached (by rw [LatestTable.allocateLatestSlot, h]) (cache_of_cachedSlot h)

theorem putLatest_first (hMissed : layout.table.cachedSlot store.latestSlotByIndex value.index = none)
    (hBelow : layout.table.latestCount < store.opening.maxLatestPoints) (hRoom : layout.table.freeLatestSlot = some k) :
    (store.putLatest layout value).2.2 = none ∧
      (store.putLatest layout value).2.1.table.cachedSlot (store.putLatest layout value).1.latestSlotByIndex
        value.index = some k := by
  apply putLatest_cached
  · rw [LatestTable.allocateLatestSlot, hMissed]
    dsimp only
    rw [if_neg (Nat.not_le.mpr hBelow), hRoom]
  · exact Function.update_self _ _ _

theorem first_put_cached (store : MemoryPointStore) (value : PointValue) (hLimit : 0 < store.opening.maxLatestPoints) :
    ∃ k, (store.putLatest .initial value).2.2 = none ∧
      (store.putLatest .initial value).2.1.table.cachedSlot
        (store.putLatest .initial value).1.latestSlotByIndex value.index = some k := by
  have hEmpty : ∀ k, (SharedStoreLayout.initial.table.latest k).occupied = false := fun _ => rfl
  have hMissed : SharedStoreLayout.initial.table.cachedSlot store.latestSlotByIndex value.index = none := by
    rw [Option.eq_none_iff_forall_ne_some]
    intro k hCached
    exact absurd ((hEmpty k).symm.trans (LatestTable.cachedSlot_carries hCached).1) Bool.false_ne_true
  have hSlots : 0 < kMaxLatestSlots := by
    rw [kMaxLatestSlots]
    decide
  obtain ⟨k, hRoom⟩ := Option.isSome_iff_exists.mp
    (LatestTable.freeLatestSlot_isSome (hEmpty ⟨0, hSlots⟩))
  exact ⟨k, putLatest_first hMissed hLimit hRoom⟩

theorem queued_grows (hDone : (store.putLatest layout value).2.2 = none) :
    min ((queuedUpdates layout).length + 1) 2 ≤ (queuedUpdates (store.putLatest layout value).2.1).length := by
  obtain ⟨-, hRing, -⟩ | ⟨hThrown, -⟩ := @putLatest_pointUpdates store layout value
  · rw [queuedUpdates, queuedUpdates, hRing, List.length_map, List.length_map]
    obtain hPush | ⟨first, kept, -, hPush, hLength⟩ := @contents_pushOver_cases layout.pointUpdates (updateSlot layout value)
    · rw [hPush, List.length_append, List.length_singleton]
      omega
    · rw [hPush, hLength]
      omega
  · exact absurd hDone hThrown

theorem repeatedPuts_succ (n : Nat) : repeatedPuts (n + 1) = repeatedPuts n ++ [putPoint] := by
  rw [repeatedPuts, List.replicate_succ', ← List.cons_append]
  rfl

/-- A put of the process that returns publishes one record, drains none and leaves the slot known. -/
theorem put_snoc {events : List (UpdateEvent Bool)} {layout : SharedStoreLayout}
    (hLayout : (System.streamed rivalId 0 events).layout = layout)
    (hOpen : (System.streamed rivalId 0 events).stores false = some store)
    (hDone : (store.putLatest layout countedPoint).2.2 = none)
    (hCached : (store.putLatest layout countedPoint).2.1.table.cachedSlot
      (store.putLatest layout countedPoint).1.latestSlotByIndex countedPoint.index = some k) :
    (∃ store k, (System.streamed rivalId 0 (events ++ [putPoint])).stores false = some store ∧
      (System.streamed rivalId 0 (events ++ [putPoint])).layout.table.cachedSlot store.latestSlotByIndex
        countedPoint.index = some k) ∧
    (System.published rivalId 0 (events ++ [putPoint])).length = (System.published rivalId 0 events).length + 1 ∧
    System.drained rivalId 0 (events ++ [putPoint]) = System.drained rivalId 0 events ∧
    min ((queuedUpdates layout).length + 1) 2 ≤
      (queuedUpdates (System.streamed rivalId 0 (events ++ [putPoint])).layout).length := by
  have hState : System.streamed rivalId 0 (events ++ [putPoint]) =
      { layout := (store.putLatest layout countedPoint).2.1
        stores := Function.update (System.streamed rivalId 0 events).stores false
          (some (store.putLatest layout countedPoint).1)
        now := (System.streamed rivalId 0 events).now } := by
    rw [System.streamed_snoc, putPoint, System.streamStep, System.step, System.through_some _ _ hOpen, hLayout]
    rfl
  refine ⟨⟨(store.putLatest layout countedPoint).1, k, ?_, ?_⟩, ?_, ?_, ?_⟩
  · rw [hState]
    dsimp only
    exact Function.update_self _ _ _
  · rw [hState]
    exact hCached
  · rw [System.published_snoc, putPoint, System.publishedBy, hOpen, List.length_append]
    dsimp only
    rw [hLayout, if_pos hDone, List.length_singleton]
  · rw [System.drained_snoc]
    exact List.append_nil _
  · rw [hState]
    exact queued_grows hDone

/-- Every put of the process returns, and from the second on at least two records are queued. -/
theorem repeatedPuts_published (n : Nat) :
    (∃ store k, (System.streamed rivalId 0 (repeatedPuts (n + 1))).stores false = some store ∧
      (System.streamed rivalId 0 (repeatedPuts (n + 1))).layout.table.cachedSlot store.latestSlotByIndex
        countedPoint.index = some k) ∧
    (System.published rivalId 0 (repeatedPuts (n + 1))).length = n + 1 ∧
    System.drained rivalId 0 (repeatedPuts (n + 1)) = [] ∧
    min (n + 1) 2 ≤ (queuedUpdates (System.streamed rivalId 0 (repeatedPuts (n + 1))).layout).length := by
  induction n with
  | zero =>
    obtain ⟨k, hDone, hCached⟩ := first_put_cached (rival false) countedPoint (by decide)
    obtain ⟨hKnown, hPublished, hDrained, hQueued⟩ :=
      @put_snoc (rival false) k (repeatedPuts 0) .initial rfl rfl hDone hCached
    rw [repeatedPuts_succ, hPublished, hDrained]
    exact ⟨hKnown, rfl, rfl, le_trans (by omega) hQueued⟩
  | succ n ih =>
    obtain ⟨⟨store, k, hOpen, hCached⟩, hCount, hNone, hTwo⟩ := ih
    obtain ⟨hDone, hStill⟩ := putLatest_again hCached
    obtain ⟨hKnown, hPublished, hDrained, hQueued⟩ := put_snoc rfl hOpen hDone hStill
    rw [repeatedPuts_succ, hPublished, hDrained, hCount]
    exact ⟨hKnown, rfl, hNone, le_trans (by omega) hQueued⟩

/-- The drain after `2 ^ 64` puts gives out the record numbered zero behind its predecessors. -/
theorem numbers_wrap :
    ¬(System.drained rivalId 0 (repeatedPuts (2 ^ 64) ++ [.drainPointUpdates false 0])).Pairwise
      fun x y => x.sequence < y.sequence := by
  have hWrap : ∀ m, UInt64.ofNat m = 0 → 2 ≤ m →
      ¬(System.drained rivalId 0 (repeatedPuts m ++ [.drainPointUpdates false 0])).Pairwise
        fun x y => x.sequence < y.sequence := by
    intro m hZero hTwo
    obtain ⟨n, rfl⟩ := Nat.exists_eq_succ_of_ne_zero (Nat.ne_of_gt (Nat.lt_of_lt_of_le Nat.two_pos hTwo))
    obtain ⟨⟨store, k, hOpen, -⟩, hCount, hNone, hQueued⟩ := repeatedPuts_published n
    have hStream := @System.streamed_run Bool _ rivalId 0 (repeatedPuts (n + 1))
    have hBatch : System.drained rivalId 0 (repeatedPuts (n + 1) ++ [.drainPointUpdates false 0]) =
        queuedUpdates (System.streamed rivalId 0 (repeatedPuts (n + 1))).layout := by
      rw [System.drained_snoc, hNone, List.nil_append, System.drainedBy, hOpen]
      exact drainUpdateLoop_all _ _ [] hStream.occupied (Nat.le_of_lt (Ring.count_lt _))
    obtain ⟨past, hSplit, -, -⟩ := hStream.split
    rw [hBatch]
    intro hIncreasing
    obtain hEmpty | ⟨front, last, hLast⟩ := List.eq_nil_or_concat
      (queuedUpdates (System.streamed rivalId 0 (repeatedPuts (n + 1))).layout)
    · rw [hEmpty, List.length_nil] at hQueued
      omega
    · rw [hLast, List.concat_eq_append] at hIncreasing hSplit hQueued
      have hNumbers := hStream.numbered
      rw [hCount, hSplit, List.range'_concat, ← List.append_assoc, List.map_append] at hNumbers
      have hNumber : last.sequence = UInt64.ofNat (1 + 1 * n) :=
        List.singleton_injective (List.append_inj_right' (hNumbers.trans List.map_append) rfl)
      cases front with
      | nil =>
        rw [List.nil_append, List.length_singleton] at hQueued
        omega
      | cons first front =>
        have hLess := (List.pairwise_append.mp hIncreasing).2.2 first List.mem_cons_self last List.mem_cons_self
        rw [hNumber, Nat.one_mul, Nat.add_comm, hZero] at hLess
        exact absurd hLess UInt64.not_lt_zero
  exact hWrap (2 ^ 64) (by decide) (by decide)

end Wrap

end EdgeGateway.PointStore
