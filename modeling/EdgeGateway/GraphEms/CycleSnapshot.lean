import EdgeGateway.Foundation.Run
import EdgeGateway.GraphEms.Engine
import EdgeGateway.GraphEms.Operands

/-! # The points of one cycle

A cycle reads its points in one batch and looks up others when they are first asked for. Other
processes write at any time: each call carries what the router would answer.
-/

namespace EdgeGateway.GraphEms

open Numerals EdgeGateway.Fallible

structure PointSnapshot where
  value : RawDouble
  quality : Int
  ts : Int
  stale : Bool
deriving DecidableEq

def PointSnapshot.goodValue (point : PointSnapshot) : Option RawDouble :=
  if point.quality = 1 ∧ point.stale = false then some point.value else none

structure Caches where
  points : UInt32 → Option PointSnapshot
  values : UInt32 → Option RawDouble
  resolved : UInt32 → Bool
  active : Bool

namespace Caches

def latestPoint (caches : Caches) (index : UInt32) (answer : Option PointSnapshot) : Option PointSnapshot × Caches :=
  if !caches.active then (answer, caches)
  else match caches.points index with
    | some point => (some point, caches)
    | none =>
      if caches.resolved index then (none, caches)
      else (answer, { caches with
        resolved := Function.update caches.resolved index true
        points := Function.update caches.points index answer })

def latestValue (caches : Caches) (index : UInt32) (answer : Option PointSnapshot) : Option RawDouble × Caches :=
  if !caches.active then (answer.bind PointSnapshot.goodValue, caches)
  else match caches.values index with
    | some value => (some value, caches)
    | none =>
      if caches.resolved index then (none, caches)
      else (answer.bind PointSnapshot.goodValue, { caches with
        resolved := Function.update caches.resolved index true
        values := Function.update caches.values index (answer.bind PointSnapshot.goodValue) })

def set (nowMs : Int) (caches : Caches) (index : UInt32) (value : RawDouble) (accepted : Bool) : Caches :=
  if accepted && caches.active then
    { caches with
      resolved := Function.update caches.resolved index true
      values := Function.update caches.values index (some value)
      points := Function.update caches.points index (some ⟨value, 1, nowMs, false⟩) }
  else caches

def keep (caches : Caches) (entry : UInt32 × PointSnapshot) : Caches :=
  { caches with
    points := Function.update caches.points entry.1 (some entry.2)
    values := if entry.2.quality = 1 ∧ entry.2.stale = false then
      Function.update caches.values entry.1 (some entry.2.value) else caches.values }

/-- The batch has one value for each index that had one when its store was read. -/
def takeSnapshot (indexes : List UInt32) (answers : UInt32 → Option PointSnapshot) : Caches :=
  let batch := indexes.filterMap fun index => (answers index).map fun point => (index, point)
  batch.foldl keep ⟨fun _ => none, fun _ => none, fun index => index ∈ indexes, true⟩

end Caches

inductive Call where
  | latestPoint (index : UInt32) (answer : Option PointSnapshot)
  | latestValue (index : UInt32) (answer : Option PointSnapshot)
  | set (index : UInt32) (value : RawDouble) (accepted : Bool)

def Call.index : Call → UInt32
  | .latestPoint index _ | .latestValue index _ | .set index _ _ => index

def Caches.step (nowMs : Int) (caches : Caches) : Call → Caches
  | .latestPoint index answer => (caches.latestPoint index answer).2
  | .latestValue index answer => (caches.latestValue index answer).2
  | .set index value accepted => caches.set nowMs index value accepted

structure Cycle where
  nowMs : Int
  restored : List (UInt32 × RawDouble × Bool)
  answers : UInt32 → Option PointSnapshot
  calls : List Call

def Cycle.restoredCalls (cycle : Cycle) : List Call := cycle.restored.map fun entry => .set entry.1 entry.2.1 entry.2.2

/-- Nothing is cached while state is restored; what the batch finds is kept. -/
def Cycle.cachesAfter (cycle : Cycle) (indexes : List UInt32) (done : List Call) : Caches :=
  Run.after (Caches.step cycle.nowMs) (Caches.takeSnapshot indexes cycle.answers) done

def lastSet (index : UInt32) (calls : List Call) : Option RawDouble :=
  calls.foldl (fun last call => match call with
    | .set i value true => if i = index then some value else last
    | _ => last) none

/-- The point as the nodes should see it: what was found first, under what was set since. -/
def view (nowMs : Int) (seen : UInt32 → Option PointSnapshot) (done : List Call) (index : UInt32) : Option PointSnapshot :=
  match lastSet index done with
  | some value => some ⟨value, 1, nowMs, false⟩
  | none => seen index

/-- Every read of the cycle is a read of one frozen picture of the points, under the sets given and those of the nodes. -/
def ReadsFrozen (cycle : Cycle) (indexes : List UInt32) (earlier : List Call) : Prop :=
  ∃ seen, ∀ done index answer,
    (done ++ [.latestPoint index answer] <+: cycle.calls →
      ((cycle.cachesAfter indexes done).latestPoint index answer).1 = view cycle.nowMs seen (earlier ++ done) index) ∧
    (done ++ [.latestValue index answer] <+: cycle.calls →
      ((cycle.cachesAfter indexes done).latestValue index answer).1 =
        (view cycle.nowMs seen (earlier ++ done) index).bind PointSnapshot.goodValue)

theorem lastSet_snoc (index : UInt32) (calls : List Call) (call : Call) :
    lastSet index (calls ++ [call]) = match call with
      | .set i value true => if i = index then some value else lastSet index calls
      | _ => lastSet index calls := by
  simp only [lastSet, List.foldl_append, List.foldl_cons, List.foldl_nil]

theorem lastSet_other {index : UInt32} {call : Call} (h : call.index ≠ index) (calls : List Call) :
    lastSet index (calls ++ [call]) = lastSet index calls := by
  rw [lastSet_snoc]
  cases call with
  | latestPoint i answer => rfl
  | latestValue i answer => rfl
  | set i value accepted =>
    cases accepted with
    | false => rfl
    | true => exact if_neg h

def Call.asked (index : UInt32) : Call → Option (Option PointSnapshot)
  | .latestPoint i answer | .latestValue i answer => if i = index then some answer else none
  | .set _ _ _ => none

def firstAnswer (index : UInt32) (calls : List Call) : Option (Option PointSnapshot) := calls.findSome? (Call.asked index)

theorem firstAnswer_snoc (index : UInt32) (calls : List Call) (call : Call) :
    firstAnswer index (calls ++ [call]) = (firstAnswer index calls).or (call.asked index) := by
  rw [firstAnswer, List.findSome?_append]
  cases hAsked : call.asked index with
  | none => simp [hAsked, firstAnswer]
  | some answer => simp [hAsked, firstAnswer]

theorem asked_other {index : UInt32} {call : Call} (h : call.index ≠ index) : call.asked index = none := by
  cases call with
  | latestPoint i answer => exact if_neg h
  | latestValue i answer => exact if_neg h
  | set i value accepted => rfl

theorem firstAnswer_of_prefix {index : UInt32} {calls done : List Call} {call : Call} {answer : Option PointSnapshot}
    (hPrefix : done ++ [call] <+: calls) (hDone : firstAnswer index done = none) (hCall : call.asked index = some answer) :
    firstAnswer index calls = some answer := by
  obtain ⟨rest, rfl⟩ := hPrefix
  have hFirst : firstAnswer index (done ++ [call]) = some answer := by
    rw [firstAnswer_snoc, hDone, hCall]
    rfl
  rw [firstAnswer, List.findSome?_append, ← firstAnswer, hFirst]
  rfl

section Entries

structure Entry where
  point : Option PointSnapshot
  value : Option RawDouble
  resolved : Bool

def Caches.entry (caches : Caches) (index : UInt32) : Entry :=
  ⟨caches.points index, caches.values index, caches.resolved index⟩

theorem latestPoint_cases {caches : Caches} (hActive : caches.active = true) (index : UInt32)
    (answer : Option PointSnapshot) :
    (∃ point, caches.points index = some point ∧ caches.latestPoint index answer = (some point, caches)) ∨
    (caches.points index = none ∧ caches.resolved index = true ∧ caches.latestPoint index answer = (none, caches)) ∨
    (caches.points index = none ∧ caches.resolved index = false ∧ caches.latestPoint index answer = (answer, { caches with
      resolved := Function.update caches.resolved index true
      points := Function.update caches.points index answer })) := by
  cases hPoint : caches.points index with
  | some point => exact .inl ⟨point, rfl, by simp [Caches.latestPoint, hActive, hPoint]⟩
  | none =>
    cases hResolved : caches.resolved index with
    | true => exact .inr (.inl ⟨rfl, rfl, by simp [Caches.latestPoint, hActive, hPoint, hResolved]⟩)
    | false => exact .inr (.inr ⟨rfl, rfl, by simp [Caches.latestPoint, hActive, hPoint, hResolved]⟩)

theorem latestValue_cases {caches : Caches} (hActive : caches.active = true) (index : UInt32)
    (answer : Option PointSnapshot) :
    (∃ value, caches.values index = some value ∧ caches.latestValue index answer = (some value, caches)) ∨
    (caches.values index = none ∧ caches.resolved index = true ∧ caches.latestValue index answer = (none, caches)) ∨
    (caches.values index = none ∧ caches.resolved index = false ∧
      caches.latestValue index answer = (answer.bind PointSnapshot.goodValue, { caches with
        resolved := Function.update caches.resolved index true
        values := Function.update caches.values index (answer.bind PointSnapshot.goodValue) })) := by
  cases hValue : caches.values index with
  | some value => exact .inl ⟨value, rfl, by simp [Caches.latestValue, hActive, hValue]⟩
  | none =>
    cases hResolved : caches.resolved index with
    | true => exact .inr (.inl ⟨rfl, rfl, by simp [Caches.latestValue, hActive, hValue, hResolved]⟩)
    | false => exact .inr (.inr ⟨rfl, rfl, by simp [Caches.latestValue, hActive, hValue, hResolved]⟩)

theorem step_active {nowMs : Int} {caches : Caches} (h : caches.active = true) (call : Call) :
    (caches.step nowMs call).active = true := by
  cases call with
  | latestPoint i answer =>
    obtain ⟨point, -, hRead⟩ | ⟨-, -, hRead⟩ | ⟨-, -, hRead⟩ := latestPoint_cases h i answer <;>
      (rw [Caches.step, hRead]; exact h)
  | latestValue i answer =>
    obtain ⟨value, -, hRead⟩ | ⟨-, -, hRead⟩ | ⟨-, -, hRead⟩ := latestValue_cases h i answer <;>
      (rw [Caches.step, hRead]; exact h)
  | set i value accepted =>
    simp only [Caches.step, Caches.set]
    split <;> exact h

theorem step_entry_other {nowMs : Int} {caches : Caches} (hActive : caches.active = true) {call : Call} {index : UInt32}
    (h : call.index ≠ index) : (caches.step nowMs call).entry index = caches.entry index := by
  cases call with
  | latestPoint i answer =>
    have hNe : index ≠ i := Ne.symm h
    obtain ⟨point, -, hRead⟩ | ⟨-, -, hRead⟩ | ⟨-, -, hRead⟩ := latestPoint_cases hActive i answer
    · rw [Caches.step, hRead]
    · rw [Caches.step, hRead]
    · rw [Caches.step, hRead]
      simp [Caches.entry, Function.update_of_ne hNe]
  | latestValue i answer =>
    have hNe : index ≠ i := Ne.symm h
    obtain ⟨value, -, hRead⟩ | ⟨-, -, hRead⟩ | ⟨-, -, hRead⟩ := latestValue_cases hActive i answer
    · rw [Caches.step, hRead]
    · rw [Caches.step, hRead]
    · rw [Caches.step, hRead]
      simp [Caches.entry, Function.update_of_ne hNe]
  | set i value accepted =>
    have hNe : index ≠ i := Ne.symm h
    simp only [Caches.step, Caches.set]
    split
    · simp [Caches.entry, Function.update_of_ne hNe]
    · rfl

inductive Held (nowMs : Int) (prefetched : Bool) (seen : Option PointSnapshot) : Option RawDouble → Bool → Entry → Prop where
  | set (value : RawDouble) (asked resolved : Bool) :
      Held nowMs prefetched seen (some value) asked ⟨some ⟨value, 1, nowMs, false⟩, some value, resolved⟩
  | frozen (asked : Bool) (hPrefetched : prefetched = true) :
      Held nowMs prefetched seen none asked ⟨seen, seen.bind PointSnapshot.goodValue, true⟩
  | read (hLazy : prefetched = false) :
      Held nowMs prefetched seen none true ⟨none, seen.bind PointSnapshot.goodValue, true⟩
  | unread (hLazy : prefetched = false) : Held nowMs prefetched seen none false ⟨none, none, false⟩

variable {nowMs : Int} {prefetched : Bool} {seen : Option PointSnapshot} {last : Option RawDouble} {asked : Bool}
  {caches : Caches} {index : UInt32}

def seenUnder (nowMs : Int) (seen : Option PointSnapshot) : Option RawDouble → Option PointSnapshot
  | some value => some ⟨value, 1, nowMs, false⟩
  | none => seen

theorem latestValue_entry (hActive : caches.active = true) (index : UInt32) (answer : Option PointSnapshot) :
    (caches.latestValue index answer).1 = (caches.entry index).value.or
        (if (caches.entry index).resolved then none else answer.bind PointSnapshot.goodValue) ∧
      (caches.latestValue index answer).2.entry index = { caches.entry index with
        value := (caches.latestValue index answer).1
        resolved := (caches.entry index).resolved || (caches.entry index).value.isNone } := by
  obtain ⟨value, hSome, hRead⟩ | ⟨hNone, hDone, hRead⟩ | ⟨hNone, hOpen, hRead⟩ := latestValue_cases hActive index answer
  · rw [hRead]
    simp [Caches.entry, hSome]
  · rw [hRead]
    simp [Caches.entry, hNone, hDone]
  · rw [hRead]
    simp [Caches.entry, hNone, hOpen]

theorem latestPoint_entry (hActive : caches.active = true) (index : UInt32) (answer : Option PointSnapshot) :
    (caches.latestPoint index answer).1 = (caches.entry index).point.or
        (if (caches.entry index).resolved then none else answer) ∧
      (caches.latestPoint index answer).2.entry index = { caches.entry index with
        point := (caches.latestPoint index answer).1
        resolved := (caches.entry index).resolved || (caches.entry index).point.isNone } := by
  obtain ⟨point, hSome, hRead⟩ | ⟨hNone, hDone, hRead⟩ | ⟨hNone, hOpen, hRead⟩ := latestPoint_cases hActive index answer
  · rw [hRead]
    simp [Caches.entry, hSome]
  · rw [hRead]
    simp [Caches.entry, hNone, hDone]
  · rw [hRead]
    simp [Caches.entry, hNone, hOpen]

theorem held_latestValue (hActive : caches.active = true)
    (h : Held nowMs prefetched seen last asked (caches.entry index)) (answer : Option PointSnapshot)
    (hFirst : prefetched = false → asked = false → seen = answer) :
    (caches.latestValue index answer).1 = (seenUnder nowMs seen last).bind PointSnapshot.goodValue ∧
      Held nowMs prefetched seen last true ((caches.latestValue index answer).2.entry index) := by
  obtain ⟨hRead, hAfter⟩ := latestValue_entry hActive index answer
  rw [hAfter, hRead]
  generalize caches.entry index = entry at h
  cases h with
  | set value asked resolved => exact ⟨rfl, .set _ _ _⟩
  | frozen asked hPrefetched => exact ⟨Option.or_none, Option.or_none.symm ▸ .frozen _ hPrefetched⟩
  | read hLazy => exact ⟨Option.or_none, Option.or_none.symm ▸ .read hLazy⟩
  | unread hLazy => exact ⟨hFirst hLazy rfl ▸ rfl, hFirst hLazy rfl ▸ .read hLazy⟩

/-- Points are asked for where the batch has read them, or where the router has nothing to answer. -/
theorem held_latestPoint (hActive : caches.active = true)
    (h : Held nowMs prefetched seen last asked (caches.entry index)) (answer : Option PointSnapshot)
    (hUnrouted : prefetched = false → seen = none ∧ answer = none) :
    (caches.latestPoint index answer).1 = seenUnder nowMs seen last ∧
      Held nowMs prefetched seen last true ((caches.latestPoint index answer).2.entry index) := by
  obtain ⟨hRead, hAfter⟩ := latestPoint_entry hActive index answer
  rw [hAfter, hRead]
  generalize caches.entry index = entry at h
  cases h with
  | set value asked resolved => exact ⟨rfl, .set _ _ _⟩
  | frozen asked hPrefetched => exact ⟨Option.or_none, Option.or_none.symm ▸ .frozen _ hPrefetched⟩
  | read hLazy => exact ⟨(hUnrouted hLazy).1.symm, .read hLazy⟩
  | unread hLazy =>
    obtain ⟨rfl, rfl⟩ := hUnrouted hLazy
    exact ⟨rfl, .read hLazy⟩

theorem held_set (hActive : caches.active = true) (h : Held nowMs prefetched seen last asked (caches.entry index))
    (value : RawDouble) (accepted : Bool) :
    Held nowMs prefetched seen (if accepted then some value else last) asked
      ((caches.set nowMs index value accepted).entry index) := by
  cases accepted with
  | false => exact h
  | true =>
    have hKept : Held nowMs prefetched seen (some value) asked ⟨some ⟨value, 1, nowMs, false⟩, some value, true⟩ :=
      .set value asked true
    simpa [Caches.set, hActive, Caches.entry] using hKept

end Entries

section Batch

theorem foldl_keep (batch : List (UInt32 × PointSnapshot)) (caches : Caches) (index : UInt32)
    (hDistinct : (batch.map Prod.fst).Nodup) :
    (batch.foldl Caches.keep caches).entry index = match batch.find? fun entry => entry.1 == index with
      | some entry => ⟨some entry.2, entry.2.goodValue.or (caches.values index), caches.resolved index⟩
      | none => caches.entry index := by
  induction batch generalizing caches with
  | nil => rfl
  | cons entry batch ih =>
    rw [List.map_cons, List.nodup_cons] at hDistinct
    rw [List.foldl_cons, ih _ hDistinct.2, List.find?_cons]
    by_cases hSame : entry.1 = index
    · have hNone : (batch.find? fun other => other.1 == index) = none := by
        refine List.find?_eq_none.mpr fun other hOther hEq => hDistinct.1 ?_
        rw [hSame, ← beq_iff_eq.mp hEq]
        exact List.mem_map_of_mem hOther
      subst hSame
      rw [hNone, beq_self_eq_true]
      by_cases hGood : entry.2.quality = 1 ∧ entry.2.stale = false
      · simp [Caches.entry, Caches.keep, PointSnapshot.goodValue, hGood]
      · simp [Caches.entry, Caches.keep, PointSnapshot.goodValue, hGood]
    · have hKeep : (caches.keep entry).entry index = caches.entry index := by
        have hNe : index ≠ entry.1 := Ne.symm hSame
        by_cases hGood : entry.2.quality = 1 ∧ entry.2.stale = false
        · simp [Caches.entry, Caches.keep, hGood, Function.update_of_ne hNe]
        · simp [Caches.entry, Caches.keep, hGood, Function.update_of_ne hNe]
      rw [beq_false_of_ne hSame]
      have hValues : (caches.keep entry).values index = caches.values index := congrArg Entry.value hKeep
      have hResolved : (caches.keep entry).resolved index = caches.resolved index := congrArg Entry.resolved hKeep
      rw [hKeep, hValues, hResolved]

variable {indexes : List UInt32} (answers : UInt32 → Option PointSnapshot)

def batchEntry (index : UInt32) : Option (UInt32 × PointSnapshot) := (answers index).map fun point => (index, point)

theorem find_batch (indexes : List UInt32) (index : UInt32) :
    ((indexes.filterMap (batchEntry answers)).find? fun entry => entry.1 == index) =
      if index ∈ indexes then batchEntry answers index else none := by
  induction indexes with
  | nil => rfl
  | cons i indexes ih =>
    rw [List.filterMap_cons]
    cases hAnswer : answers i with
    | none =>
      have hEntry : batchEntry answers i = none := by rw [batchEntry, hAnswer]; rfl
      rw [hEntry, ih]
      by_cases hSame : index = i
      · subst hSame
        simp [hEntry]
      · simp [hSame]
    | some point =>
      have hEntry : batchEntry answers i = some (i, point) := by rw [batchEntry, hAnswer]; rfl
      rw [hEntry]
      by_cases hSame : index = i
      · subst hSame
        simp [hEntry]
      · have hNe : (i == index) = false := beq_false_of_ne (Ne.symm hSame)
        simp [hSame, hNe, ih]

theorem nodup_batch (h : indexes.Nodup) : ((indexes.filterMap (batchEntry answers)).map Prod.fst).Nodup := by
  have hSub : List.Sublist ((indexes.filterMap (batchEntry answers)).map Prod.fst) indexes := by
    have hSame : (fun i => (batchEntry answers i).map Prod.fst) = Option.guard fun i => (answers i).isSome := by
      funext i
      unfold batchEntry
      cases hAnswer : answers i with
      | none => simp [Option.guard, hAnswer]
      | some point => simp [Option.guard, hAnswer]
    rw [List.map_filterMap, hSame, List.filterMap_eq_filter]
    exact List.filter_sublist
  exact hSub.nodup h

theorem takeSnapshot_entry (h : indexes.Nodup) (index : UInt32) :
    (Caches.takeSnapshot indexes answers).entry index = if index ∈ indexes then
      ⟨answers index, (answers index).bind PointSnapshot.goodValue, true⟩ else ⟨none, none, false⟩ := by
  unfold Caches.takeSnapshot
  dsimp only
  change (List.foldl Caches.keep _ (indexes.filterMap (batchEntry answers))).entry index = _
  rw [foldl_keep _ _ _ (nodup_batch answers h), find_batch]
  by_cases hMem : index ∈ indexes
  · rw [if_pos hMem, if_pos hMem, batchEntry]
    cases answers index with
    | none => simp [Caches.entry, hMem]
    | some point => simp [hMem]
  · simp [Caches.entry, hMem]

theorem takeSnapshot_active (indexes : List UInt32) : (Caches.takeSnapshot indexes answers).active = true := by
  unfold Caches.takeSnapshot
  dsimp only
  generalize List.filterMap _ indexes = batch
  generalize hStart : (⟨fun _ => none, fun _ => none, fun index => decide (index ∈ indexes), true⟩ : Caches) = start
  have hActive : start.active = true := by rw [← hStart]
  clear hStart
  induction batch generalizing start with
  | nil => exact hActive
  | cons entry batch ih => exact ih (start.keep entry) hActive

end Batch

section Frozen

variable {routed : UInt32 → Bool} {indexes : List UInt32} {cycle : Cycle}

structure AsksFor (routed : UInt32 → Bool) (indexes : List UInt32) (calls : List Call) : Prop where
  prefetched : ∀ index answer, .latestPoint index answer ∈ calls → routed index = true → index ∈ indexes
  unrouted : ∀ call ∈ calls, ∀ index answer, call.asked index = some answer → routed index = false → answer = none

def Cycle.found (cycle : Cycle) (indexes : List UInt32) (index : UInt32) : Option PointSnapshot :=
  if index ∈ indexes then cycle.answers index else (firstAnswer index cycle.calls).getD none

def Cycle.Holds (cycle : Cycle) (indexes : List UInt32) (done : List Call) (caches : Caches) (index : UInt32) : Prop :=
  Held cycle.nowMs (index ∈ indexes) (cycle.found indexes index) (lastSet index done) (firstAnswer index done).isSome
    (caches.entry index)

theorem found_of_first {done : List Call} {call : Call} {index : UInt32} {answer : Option PointSnapshot}
    (hPrefix : done ++ [call] <+: cycle.calls) (hCall : call.asked index = some answer) (hLazy : index ∉ indexes) (hFirst : (firstAnswer index done).isSome = false) : cycle.found indexes index = answer := by
  have hNone : firstAnswer index done = none := by simpa using hFirst
  rw [Cycle.found, if_neg hLazy, firstAnswer_of_prefix hPrefix hNone hCall]
  rfl

theorem found_of_unrouted (hAsks : AsksFor routed indexes cycle.calls) {index : UInt32} (hUnrouted : routed index = false)
    (hLazy : index ∉ indexes) : cycle.found indexes index = none := by
  rw [Cycle.found, if_neg hLazy]
  cases hFirst : firstAnswer index cycle.calls with
  | none => rfl
  | some answer =>
    obtain ⟨call, hCall, hAsked⟩ := List.exists_of_findSome?_eq_some hFirst
    exact hAsks.unrouted call hCall index answer hAsked hUnrouted

theorem holds_start (hNodup : indexes.Nodup) (index : UInt32) :
    cycle.Holds indexes [] (Caches.takeSnapshot indexes cycle.answers) index := by
  unfold Cycle.Holds
  rw [takeSnapshot_entry cycle.answers hNodup]
  by_cases hMem : index ∈ indexes
  · rw [if_pos hMem, Cycle.found, if_pos hMem]
    exact .frozen _ (by simpa using hMem)
  · rw [if_neg hMem]
    exact .unread (by simpa using hMem)

theorem reads_of_holds (hAsks : AsksFor routed indexes cycle.calls) {done : List Call} {caches : Caches}
    (hActive : caches.active = true) {index : UInt32} (hHolds : cycle.Holds indexes done caches index)
    {answer : Option PointSnapshot} :
    (done ++ [.latestPoint index answer] <+: cycle.calls →
      (caches.latestPoint index answer).1 = view cycle.nowMs (cycle.found indexes) done index ∧
        cycle.Holds indexes (done ++ [.latestPoint index answer]) (caches.latestPoint index answer).2 index) ∧
    (done ++ [.latestValue index answer] <+: cycle.calls →
      (caches.latestValue index answer).1 =
          (view cycle.nowMs (cycle.found indexes) done index).bind PointSnapshot.goodValue ∧
        cycle.Holds indexes (done ++ [.latestValue index answer]) (caches.latestValue index answer).2 index) := by
  have hAnswered : ∀ call : Call, call.asked index = some answer →
      (firstAnswer index (done ++ [call])).isSome = true := by
    intro call hCall
    rw [firstAnswer_snoc, hCall]
    cases firstAnswer index done with
    | none => rfl
    | some earlier => rfl
  have hView : view cycle.nowMs (cycle.found indexes) done index =
      seenUnder cycle.nowMs (cycle.found indexes index) (lastSet index done) := by
    unfold view seenUnder
    cases lastSet index done with
    | none => rfl
    | some value => rfl
  rw [hView]
  constructor
  · intro hPrefix
    have hCall : (Call.latestPoint index answer).asked index = some answer := if_pos rfl
    have hMem : Call.latestPoint index answer ∈ cycle.calls :=
      hPrefix.subset (List.mem_append_right _ (List.mem_singleton.mpr rfl))
    obtain ⟨hRead, hNext⟩ := held_latestPoint hActive hHolds answer (by
      intro hLazy
      have hNot : index ∉ indexes := by simpa using hLazy
      have hUnrouted : routed index = false := by
        rw [Bool.eq_false_iff]
        exact fun hRouted => hNot (hAsks.prefetched index answer hMem hRouted)
      exact ⟨found_of_unrouted hAsks hUnrouted hNot, hAsks.unrouted _ hMem index answer hCall hUnrouted⟩)
    refine ⟨hRead, ?_⟩
    rw [Cycle.Holds, hAnswered _ hCall, lastSet_snoc]
    exact hNext
  · intro hPrefix
    have hCall : (Call.latestValue index answer).asked index = some answer := if_pos rfl
    obtain ⟨hRead, hNext⟩ := held_latestValue hActive hHolds answer (by
      intro hLazy hFirst
      exact found_of_first hPrefix hCall (by simpa using hLazy) hFirst)
    refine ⟨hRead, ?_⟩
    rw [Cycle.Holds, hAnswered _ hCall, lastSet_snoc]
    exact hNext

theorem holds_step (hAsks : AsksFor routed indexes cycle.calls) {done : List Call} {call : Call}
    (hPrefix : done ++ [call] <+: cycle.calls) {caches : Caches} (hActive : caches.active = true)
    (hHolds : ∀ index, cycle.Holds indexes done caches index) (index : UInt32) :
    cycle.Holds indexes (done ++ [call]) (caches.step cycle.nowMs call) index := by
  by_cases hOwn : call.index = index
  · subst hOwn
    cases call with
    | latestPoint i answer => exact ((reads_of_holds hAsks hActive (hHolds i)).1 hPrefix).2
    | latestValue i answer => exact ((reads_of_holds hAsks hActive (hHolds i)).2 hPrefix).2
    | set i value accepted =>
      have hSet := held_set hActive (hHolds i) value accepted
      have hAnswers : firstAnswer i (done ++ [.set i value accepted]) = firstAnswer i done := by
        rw [firstAnswer_snoc]
        exact Option.or_none
      unfold Cycle.Holds Call.index
      rw [hAnswers, lastSet_snoc]
      cases accepted with
      | false => exact hSet
      | true =>
        dsimp only
        rw [if_pos rfl]
        exact hSet
  · unfold Cycle.Holds
    rw [step_entry_other hActive hOwn, lastSet_other hOwn, firstAnswer_snoc, asked_other hOwn, Option.or_none]
    exact hHolds index

theorem readsFrozen_of_asksFor (hNodup : indexes.Nodup) (hAsks : AsksFor routed indexes cycle.calls) :
    ReadsFrozen cycle indexes [] := by
  have hInvariant : ∀ done, done <+: cycle.calls → (cycle.cachesAfter indexes done).active = true ∧
      ∀ index, cycle.Holds indexes done (cycle.cachesAfter indexes done) index := by
    intro done
    induction done using List.reverseRecOn with
    | nil =>
      intro _
      exact ⟨takeSnapshot_active cycle.answers indexes, holds_start hNodup⟩
    | append_singleton done call ih =>
      intro hPrefix
      obtain ⟨hActive, hHolds⟩ := ih ((List.prefix_append done [call]).trans hPrefix)
      rw [Cycle.cachesAfter, Run.after_snoc]
      exact ⟨step_active hActive call, holds_step hAsks hPrefix hActive hHolds⟩
  refine ⟨cycle.found indexes, fun done index answer => ⟨fun hPrefix => ?_, fun hPrefix => ?_⟩⟩
  · obtain ⟨hActive, hHolds⟩ := hInvariant done ((List.prefix_append done _).trans hPrefix)
    exact ((reads_of_holds hAsks hActive (hHolds index)).1 hPrefix).1
  · obtain ⟨hActive, hHolds⟩ := hInvariant done ((List.prefix_append done _).trans hPrefix)
    exact ((reads_of_holds hAsks hActive (hHolds index)).2 hPrefix).1

end Frozen

section Graphs

/-- The calls of a cycle: only voltage qualification asks for points, and only for its inputs. -/
structure CallsOf (routes : Routes) (engine : GraphEmsEngine) (calls : List Call) : Prop where
  points : ∀ index answer, .latestPoint index answer ∈ calls → ∃ node ∈ engine.running,
    node.type = "voltageQualification".toList ∧
      ∃ inputs, paramIndexes node.params "inputIndexes".toList = .ok inputs ∧ index ∈ inputs
  unrouted : ∀ call ∈ calls, ∀ index answer, call.asked index = some answer → routes.routed index = false → answer = none

variable {routes : Routes} {profile : Params} {config : GraphEmsConfig} {engine : GraphEmsEngine}

theorem snapshotCandidate_of_valid {params : Params} {key : StdString} {index : UInt32}
    (hValid : validatePositiveIndex params key = .ok ()) (hIndex : paramIndex params key 0 = .ok index)
    (hRouted : routes.routed index = true) :
    ∃ text, (key, text) ∈ params ∧ snapshotCandidate routes.routed text = some index := by
  have hMissing : index ≠ 0 := by
    rintro rfl
    rw [routes.zero] at hRouted
    cases hRouted
  cases hFound : params.find key with
  | none =>
    rw [paramIndex, hFound] at hIndex
    exact absurd (Except.ok.inj hIndex).symm hMissing
  | some text =>
    by_cases hText : text = []
    · rw [paramIndex, hFound, hText] at hIndex
      exact absurd (Except.ok.inj hIndex).symm hMissing
    · obtain ⟨n, hRead, hPositive, hSmall⟩ := validatePositiveIndex_reads hValid hFound hText
      have hNat := stoull_of_stoll hRead hPositive
      rw [paramIndex_of_find hFound hText, stoul, hNat] at hIndex
      obtain rfl : UInt32.ofNat n.toNat = index := Except.ok.inj hIndex
      refine ⟨text, ?_, ?_⟩
      · unfold Params.find at hFound
        obtain ⟨entry, hEntry, rfl⟩ := Option.map_eq_some_iff.mp hFound
        have hKey : entry.1 = key := by simpa using List.find?_some hEntry
        rw [← hKey]
        exact List.mem_of_find?_eq_some hEntry
      · rw [snapshotCandidate, hNat]
        exact if_pos ⟨by omega, by omega, hRouted⟩

theorem voltage_input_prefetched (hCreated : Created routes.routed profile config engine) (hValid : Validated config)
    {node : GraphEmsNodeConfig} (hNode : node ∈ engine.running) (hType : node.type = "voltageQualification".toList)
    {inputs : List UInt32} (hInputs : paramIndexes node.params "inputIndexes".toList = .ok inputs) {index : UInt32}
    (hIndex : index ∈ inputs) (hRouted : routes.routed index = true) : index ∈ engine.snapshotIndexes := by
  obtain ⟨hMem, -⟩ := (mem_selectM hCreated.running).mp hNode
  obtain ⟨type, hKnown, hGeneric⟩ := hValid.checked node hMem
  have hNamed : nodeType? "voltageQualification".toList = some .voltageQualification := by decide
  rw [hType, hNamed] at hKnown
  cases hKnown
  obtain ⟨⟨⟩, hArray, -⟩ := bind_ok_iff.mp hGeneric
  obtain ⟨count, hCount, hArray⟩ := bind_ok_iff.mp hArray
  obtain ⟨⟨⟩, -, hEach⟩ := bind_ok_iff.mp hArray
  obtain ⟨count', hCount', hElements⟩ := bind_ok_iff.mp hInputs
  obtain rfl := Except.ok.inj (hCount.symm.trans hCount')
  obtain ⟨i, hi, hElement⟩ := exists_right_of_forall₂ (mapM_ok hElements).flip hIndex
  obtain ⟨text, hEntry, hCandidate⟩ := snapshotCandidate_of_valid (forM_ok_iff.mp hEach i hi) hElement hRouted
  rw [hCreated.snapshot, List.mem_dedup]
  refine List.mem_append_left _ (List.mem_flatMap.mpr ⟨node, hNode, ?_⟩)
  exact List.mem_filterMap.mpr ⟨_, hEntry, hCandidate⟩

/-- The nodes of an accepted graph read one frozen picture of the points, under what they set themselves. -/
theorem cycle_reads_frozen_points (order : IdOrder) (object : JsonObject) (config : GraphEmsConfig)
    (hParsed : parseExecutableV2Graph order object = .ok config) (routes : Routes) (profile : Params)
    (engine : GraphEmsEngine) (hEngine : createEngine routes.routed profile config = .ok engine) (cycle : Cycle)
    (hCalls : CallsOf routes engine cycle.calls) : ReadsFrozen cycle engine.snapshotIndexes [] := by
  have hCreated := createEngine_ok hEngine
  obtain ⟨stages, -, rfl, hValid, -⟩ := parseExecutableV2Graph_ok hParsed
  refine @readsFrozen_of_asksFor routes.routed _ _ ?_ ⟨?_, hCalls.unrouted⟩
  · rw [hCreated.snapshot]
    exact List.nodup_dedup _
  · intro index answer hCall hRouted
    obtain ⟨node, hNode, hType, inputs, hInputs, hIndex⟩ := hCalls.points index answer hCall
    exact voltage_input_prefetched hCreated hValid hNode hType hInputs hIndex hRouted

def thermostat : JsonObject :=
  Written.document false
    [Written.node "h" "hysteresis" 0
      [Written.member "lowThreshold" (Written.whole 1), Written.member "highThreshold" (Written.whole 2)]
      [Written.port "in" "input" "/inputIndex" (Written.bindPoint 5),
        Written.port "out" "output" "/outputIndex" (Written.bindPoint 7)]] []

def thermostatRoutes : Routes where
  routed := fun index => index == 5 || index == 7
  zero := rfl

def steadyPoint (text : String) : PointSnapshot := ⟨double text, 1, 1000, false⟩

def overwrittenRestore : Cycle where
  nowMs := 1000
  restored := [(7, double "1", true)]
  answers := fun index => if index = 7 then some (steadyPoint "0") else some (steadyPoint "3")
  calls := [.latestValue 5 none, .latestValue 7 none, .set 7 (double "1") true]

theorem thermostat_engine :
    ∃ config engine, parseExecutableV2Graph .asGiven thermostat = .ok config ∧
      createEngine thermostatRoutes.routed [] config = .ok engine ∧ engine.snapshotIndexes = [5, 7] ∧
      engine.stateIndexes = [7] := by
  obtain ⟨stages, -, hParsed, hEngine⟩ := @loaded_of_checks thermostat (Fallible (List UInt32 × List UInt32))
    (fun stages => (createEngine thermostatRoutes.routed [] stages.config).map fun engine =>
      (engine.snapshotIndexes, engine.stateIndexes)) (.ok ([5, 7], [7])) (by decide +kernel) (by decide +kernel)
  obtain ⟨engine, hEngine, hIndexes⟩ := map_ok_iff.mp hEngine
  exact ⟨stages.config, engine, hParsed, hEngine, congrArg Prod.fst hIndexes, congrArg Prod.snd hIndexes⟩

theorem cycle_reads_frozen_points_thermostat :
    ∃ config engine, parseExecutableV2Graph .asGiven thermostat = .ok config ∧
      createEngine thermostatRoutes.routed [] config = .ok engine ∧
      CallsOf thermostatRoutes engine overwrittenRestore.calls ∧
      ReadsFrozen overwrittenRestore engine.snapshotIndexes [] := by
  obtain ⟨config, engine, hParsed, hEngine, -, -⟩ := thermostat_engine
  have hCalls : CallsOf thermostatRoutes engine overwrittenRestore.calls := by
    refine ⟨fun index answer hCall => ?_, fun call hCall index answer hAsked hUnrouted => ?_⟩
    · simp [overwrittenRestore] at hCall
    · simp only [overwrittenRestore, List.mem_cons, List.not_mem_nil, or_false] at hCall
      obtain rfl | rfl | rfl := hCall
      · exact (Option.some.inj (Option.ite_none_right_eq_some.mp hAsked).2).symm
      · exact (Option.some.inj (Option.ite_none_right_eq_some.mp hAsked).2).symm
      · cases hAsked
  exact ⟨config, engine, hParsed, hEngine, hCalls, cycle_reads_frozen_points _ _ _ hParsed _ _ _ hEngine _ hCalls⟩

/-- A value set while state is restored is not what the nodes of the cycle read. -/
theorem restored_value_overwritten_before_batch :
    ∃ config engine, parseExecutableV2Graph .asGiven thermostat = .ok config ∧
      createEngine thermostatRoutes.routed [] config = .ok engine ∧ 7 ∈ engine.stateIndexes ∧
      ((overwrittenRestore.cachesAfter engine.snapshotIndexes [.latestValue 5 none]).latestValue 7 none).1 =
        some (double "0") ∧
      lastSet 7 overwrittenRestore.restoredCalls = some (double "1") ∧
      ¬ ReadsFrozen overwrittenRestore engine.snapshotIndexes overwrittenRestore.restoredCalls := by
  obtain ⟨config, engine, hParsed, hEngine, hSnapshot, hState⟩ := thermostat_engine
  have hRead : ((overwrittenRestore.cachesAfter engine.snapshotIndexes [.latestValue 5 none]).latestValue 7 none).1 =
      some (double "0") := by
    rw [hSnapshot]
    decide +kernel
  refine ⟨config, engine, hParsed, hEngine, by simp [hState], hRead, by decide +kernel, ?_⟩
  rintro ⟨seen, hSeen⟩
  have hValue := (hSeen [.latestValue 5 none] 7 none).2 ⟨[.set 7 (double "1") true], rfl⟩
  rw [hRead] at hValue
  have hSet : lastSet 7 (overwrittenRestore.restoredCalls ++ [.latestValue 5 none]) = some (double "1") := by
    decide +kernel
  rw [view, hSet] at hValue
  dsimp only at hValue
  rw [Option.bind_some, PointSnapshot.goodValue, if_pos ⟨rfl, rfl⟩] at hValue
  have hOther : some (double "0") ≠ some (double "1") := by decide +kernel
  dsimp only at hValue
  exact hOther hValue

end Graphs

end EdgeGateway.GraphEms
