import EdgeGateway.Foundation.Periods
import EdgeGateway.GraphEms.VoltageQuality

/-! # The minutes of a day -/

namespace EdgeGateway.GraphEms

section Lists

variable {α β γ : Type}

theorem destutter'_concat (R : α → α → Prop) [DecidableRel R] (l : List α) (a x : α) :
    (l ++ [x]).destutter' R a =
      if ∀ y ∈ (l.destutter' R a).getLast?, R y x then l.destutter' R a ++ [x] else l.destutter' R a := by
  induction l generalizing a with
  | nil =>
    rw [List.nil_append, List.destutter'_singleton]
    simp [List.destutter'_nil]
  | cons b l ih =>
    rw [List.cons_append]
    by_cases hab : R a b
    · rw [List.destutter'_cons_pos _ hab, List.destutter'_cons_pos _ hab, ih]
      obtain ⟨c, rest, hRest⟩ := List.exists_cons_of_ne_nil (@List.destutter'_ne_nil α l R _ b)
      rw [hRest, List.getLast?_cons_cons]
      split <;> rfl
    · rw [List.destutter'_cons_neg _ hab, List.destutter'_cons_neg _ hab, ih]

theorem destutter_concat (R : α → α → Prop) [DecidableRel R] (l : List α) (x : α) :
    (l ++ [x]).destutter R =
      if ∀ y ∈ (l.destutter R).getLast?, R y x then l.destutter R ++ [x] else l.destutter R := by
  cases l with
  | nil => simp
  | cons a l => exact destutter'_concat R l a x

theorem zipWith_eq_map {R : α → β → Prop} {xs : List α} {ys : List β} {f : α → β → γ} {g : α → γ}
    (h : List.Forall₂ R xs ys) (hSame : ∀ x y, R x y → f x y = g x) : List.zipWith f xs ys = xs.map g := by
  induction h with
  | nil => rfl
  | cons hxy _ ih => rw [List.zipWith_cons_cons, List.map_cons, ih, hSame _ _ hxy]

theorem forall₂_zipWith {R : α → β → Prop} {R' : α → γ → Prop} {xs : List α} {ys : List β} {f : α → β → γ}
    (h : List.Forall₂ R xs ys) (hStep : ∀ x y, R x y → R' x (f x y)) : List.Forall₂ R' xs (List.zipWith f xs ys) := by
  induction h with
  | nil => exact .nil
  | cons hxy _ ih => exact .cons (hStep _ _ hxy) ih

end Lists

section Samples

variable {K : Type} [Field K] [LinearOrder K]

def samplingRuns (runs : List (VoltageRun K)) : List (VoltageRun K) :=
  runs.destutter fun earlier later => earlier.nowMs + sampleIntervalMs ≤ later.nowMs

structure VoltageSample (K : Type) where
  value : K
  ts : Int

def goodSample (minuteKey : Int) (index : UInt32) (run : VoltageRun K) : Option (VoltageSample K) :=
  match run.latestPoint index with
  | none => none
  | some point => match point.value with
    | none => none
    | some value =>
      if point.quality = 1 ∧ point.stale = false ∧ minuteKeyOf point.ts = minuteKey then some ⟨value, point.ts⟩
      else none

/-- What the node took for an input during a minute, a repeated timestamp only once. -/
def samplesOf (runs : List (VoltageRun K)) (minuteKey : Int) (index : UInt32) : List (VoltageSample K) :=
  (((samplingRuns runs).filter fun run => minuteKeyOf run.nowMs = minuteKey).filterMap
    (goodSample minuteKey index)).destutter fun earlier later => earlier.ts ≠ later.ts

def sumOf (samples : List (VoltageSample K)) : K := (samples.map VoltageSample.value).sum

def averageOf (samples : List (VoltageSample K)) : K := sumOf samples / (samples.length : K)

variable [FloorRing K] (node : VoltageNode K) (runs : List (VoltageRun K))

def Monitored (minuteKey : Int) : Prop :=
  ∀ input ∈ node.inputs, node.requiredSamples ≤ (samplesOf runs minuteKey input.inputIndex).length

def Overlimit (minuteKey : Int) : Prop :=
  Monitored node runs minuteKey ∧ ∃ input ∈ node.inputs,
    averageOf (samplesOf runs minuteKey input.inputIndex) < input.limits.1 ∨
      input.limits.2 < averageOf (samplesOf runs minuteKey input.inputIndex)

instance : DecidablePred (Monitored node runs) := fun minuteKey =>
  inferInstanceAs (Decidable (∀ input ∈ node.inputs,
    node.requiredSamples ≤ (samplesOf runs minuteKey input.inputIndex).length))

instance : DecidablePred (Overlimit node runs) := fun minuteKey =>
  inferInstanceAs (Decidable (Monitored node runs minuteKey ∧ ∃ input ∈ node.inputs,
    averageOf (samplesOf runs minuteKey input.inputIndex) < input.limits.1 ∨
      input.limits.2 < averageOf (samplesOf runs minuteKey input.inputIndex)))

def statusOf (minuteKey : Int) : MinuteStatus :=
  if Monitored node runs minuteKey then if Overlimit node runs minuteKey then .overlimit else .qualified
  else .invalid

end Samples

section Taking

variable {K : Type} {runs : List (VoltageRun K)} {run : VoltageRun K} {index : UInt32} {minuteKey stamp : Int}

theorem samplingRuns_snoc (runs : List (VoltageRun K)) (run : VoltageRun K) : samplingRuns (runs ++ [run]) =
    if ∀ last ∈ (samplingRuns runs).getLast?, last.nowMs + sampleIntervalMs ≤ run.nowMs then samplingRuns runs ++ [run]
    else samplingRuns runs := destutter_concat _ runs run

theorem samplesOf_skip (h : samplingRuns (runs ++ [run]) = samplingRuns runs) :
    samplesOf (runs ++ [run]) minuteKey index = samplesOf runs minuteKey index := by
  rw [samplesOf, h, samplesOf]

theorem samplesOf_other (h : minuteKeyOf run.nowMs ≠ minuteKey) :
    samplesOf (runs ++ [run]) minuteKey index = samplesOf runs minuteKey index := by
  rw [samplesOf, samplingRuns_snoc]
  split
  · rw [List.filter_append, List.filter_singleton, decide_eq_false h]
    simp [samplesOf]
  · rfl

theorem samplesOf_take (h : samplingRuns (runs ++ [run]) = samplingRuns runs ++ [run])
    (hMinute : minuteKeyOf run.nowMs = minuteKey) : samplesOf (runs ++ [run]) minuteKey index =
      match goodSample minuteKey index run with
      | none => samplesOf runs minuteKey index
      | some sample =>
        if ∀ last ∈ (samplesOf runs minuteKey index).getLast?, last.ts ≠ sample.ts then
          samplesOf runs minuteKey index ++ [sample]
        else samplesOf runs minuteKey index := by
  rw [samplesOf, h, List.filter_append, List.filter_singleton, decide_eq_true hMinute, List.filterMap_append]
  cases hGood : goodSample minuteKey index run with
  | none => simp [hGood, samplesOf]
  | some sample =>
    simp only [Bool.cond_true, List.filterMap_cons, hGood, List.filterMap_nil]
    exact destutter_concat _ _ sample

theorem samplesOf_empty (h : ∀ run ∈ runs, minuteKeyOf run.nowMs ≠ minuteKey) : samplesOf runs minuteKey index = [] := by
  have hNone : (samplingRuns runs).filter (fun run => minuteKeyOf run.nowMs = minuteKey) = [] := by
    refine List.filter_eq_nil_iff.mpr fun run hRun => ?_
    have hMem := (List.destutter_sublist _ runs).subset hRun
    simpa using h run hMem
  rw [samplesOf, hNone]
  rfl

def StampFits (samples : List (VoltageSample K)) (minuteKey stamp : Int) : Prop :=
  match samples.getLast? with
  | some sample => stamp = sample.ts
  | none => stamp = 0 ∨ minuteKeyOf stamp < minuteKey

theorem goodSample_eq_some {sample : VoltageSample K} (h : goodSample minuteKey index run = some sample) :
    ∃ point, run.latestPoint index = some point ∧ point.value = some sample.value ∧ point.quality = 1 ∧
      point.stale = false ∧ minuteKeyOf point.ts = minuteKey ∧ point.ts = sample.ts := by
  rw [goodSample] at h
  cases hPoint : run.latestPoint index with
  | none =>
    rw [hPoint] at h
    cases h
  | some point =>
    rw [hPoint] at h
    dsimp only at h
    cases hValue : point.value with
    | none =>
      rw [hValue] at h
      cases h
    | some value =>
      rw [hValue] at h
      dsimp only at h
      split at h
      · rename_i hGood
        obtain rfl := Option.some.inj h
        exact ⟨point, rfl, hValue, hGood.1, hGood.2.1, hGood.2.2, rfl⟩
      · cases h

variable [Field K]

theorem sample_eq (bucket : VoltageBucket K) : bucket.sample minuteKey (run.latestPoint index) =
    match goodSample minuteKey index run with
    | none => bucket
    | some sample =>
      if sample.ts ≠ bucket.lastInputTimestamp then
        ⟨bucket.sum + sample.value, bucket.count + 1, sample.ts⟩
      else bucket := by
  rw [goodSample]
  cases run.latestPoint index with
  | none => rfl
  | some point =>
    obtain ⟨value, quality, ts, stale⟩ := point
    cases value with
    | none => rfl
    | some value =>
      rw [VoltageBucket.sample]
      dsimp only
      by_cases hGood : quality = 1 ∧ stale = false ∧ minuteKeyOf ts = minuteKey
      · rw [if_pos hGood]
        dsimp only
        by_cases hNew : ts ≠ bucket.lastInputTimestamp
        · rw [if_pos hNew, if_pos ⟨hGood.1, hGood.2.1, hGood.2.2, hNew⟩]
        · rw [if_neg hNew, if_neg fun h => hNew h.2.2.2]
      · rw [if_neg hGood, if_neg fun h => hGood ⟨h.1, h.2.1, h.2.2.1⟩]

/-- One run takes a sample, and the bucket of the input goes on to hold what was taken. -/
theorem sample_spec (hTake : samplingRuns (runs ++ [run]) = samplingRuns runs ++ [run])
    (hMinute : minuteKeyOf run.nowMs = minuteKey)
    (hStamps : ∀ point, run.latestPoint index = some point → minuteKeyOf point.ts = 0 → 0 < point.ts)
    (hFits : StampFits (samplesOf runs minuteKey index) minuteKey stamp) :
    ∃ stamp', StampFits (samplesOf (runs ++ [run]) minuteKey index) minuteKey stamp' ∧
      VoltageBucket.sample ⟨sumOf (samplesOf runs minuteKey index), (samplesOf runs minuteKey index).length, stamp⟩
        minuteKey (run.latestPoint index) =
      ⟨sumOf (samplesOf (runs ++ [run]) minuteKey index), (samplesOf (runs ++ [run]) minuteKey index).length, stamp'⟩ := by
  rw [sample_eq, samplesOf_take hTake hMinute]
  cases hGood : goodSample minuteKey index run with
  | none => exact ⟨stamp, hFits, rfl⟩
  | some sample =>
    dsimp only
    have hNew : sample.ts ≠ stamp ↔ ∀ last ∈ (samplesOf runs minuteKey index).getLast?, last.ts ≠ sample.ts := by
      rw [StampFits] at hFits
      cases hLast : (samplesOf runs minuteKey index).getLast? with
      | some last =>
        rw [hLast] at hFits
        dsimp only at hFits
        subst hFits
        constructor
        · rintro hNe other hOther
          obtain rfl := Option.some.inj hOther
          exact hNe.symm
        · exact fun h => (h last rfl).symm
      | none =>
        rw [hLast] at hFits
        obtain ⟨point, hPoint, -, -, -, hTs, hSame⟩ := goodSample_eq_some hGood
        refine ⟨fun _ other hOther => (by cases hOther), fun _ => ?_⟩
        rw [← hSame]
        rintro rfl
        rcases hFits with hZero | hEarlier
        · have hPositive := hStamps point hPoint (by rw [hZero]; rfl)
          omega
        · omega
    by_cases hTaken : sample.ts ≠ stamp
    · rw [if_pos hTaken, if_pos (hNew.mp hTaken)]
      refine ⟨sample.ts, ?_, ?_⟩
      · rw [StampFits, List.getLast?_concat]
      · rw [sumOf, sumOf, List.map_append, List.sum_append, List.map_singleton, List.sum_singleton,
          List.length_append, List.length_singleton]
    · rw [if_neg hTaken, if_neg (mt hNew.mpr hTaken)]
      exact ⟨stamp, hFits, rfl⟩

end Taking

section Books

structure MinuteCounts where
  monitored : Nat
  overlimit : Nat
  invalid : Nat
deriving DecidableEq, Repr

def MinuteCounts.add (counts : MinuteCounts) : MinuteStatus → MinuteCounts
  | .qualified => { counts with monitored := counts.monitored + 1 }
  | .overlimit => { counts with monitored := counts.monitored + 1, overlimit := counts.overlimit + 1 }
  | _ => { counts with invalid := counts.invalid + 1 }

def entryOf (period : VoltageQualityPeriodState) : Option (Int × MinuteCounts) :=
  if period.key = 0 then none
  else some (period.key, ⟨period.monitoredMinutes, period.overlimitMinutes, period.invalidMinutes⟩)

theorem entryOf_count {period : VoltageQualityPeriodState} (h : period.key ≠ 0) (status : MinuteStatus) :
    entryOf (period.count status) = some (period.key,
      (⟨period.monitoredMinutes, period.overlimitMinutes, period.invalidMinutes⟩ : MinuteCounts).add status) := by
  cases status with
  | _ => exact if_neg h

variable {K : Type} [Field K]

def VoltageQualityState.book (state : VoltageQualityState K) : Periods.Book Int MinuteCounts :=
  ⟨entryOf state.day, entryOf state.completedDay⟩

/-- A period without a key has counted nothing. -/
structure VoltageQualityState.Keyed (state : VoltageQualityState K) : Prop where
  day : state.day.key = 0 → state.day = {}
  completedDay : state.completedDay.key = 0 → state.completedDay = {}

variable {state : VoltageQualityState K} {key : Int}

theorem book_beginDay (hKey : key ≠ 0) : (state.beginDay key).book = state.book.turn key ⟨0, 0, 0⟩ := by
  rw [VoltageQualityState.beginDay, VoltageQualityState.finalizeDay, VoltageQualityState.book, Periods.Book.turn]
  by_cases hNone : state.day.key = 0
  · rw [if_neg fun h => h.1 hNone]
    have hEntry : entryOf state.day = none := if_pos hNone
    simp only [VoltageQualityState.book, hEntry]
  · have hEntry : entryOf state.day = some (state.day.key, _) := if_neg hNone
    by_cases hSame : state.day.key = key
    · rw [if_neg fun h => h.2 hSame]
      simp only [VoltageQualityState.book, hEntry, if_pos hSame]
    · rw [if_pos ⟨hNone, hSame⟩, if_pos hNone]
      simp only [VoltageQualityState.book, hEntry, if_neg hSame]
      rw [entryOf, if_neg hKey]

theorem book_updateDay (hKey : key ≠ 0) (status : MinuteStatus) :
    (state.updateDay key status).book = state.book.record key ⟨0, 0, 0⟩ fun counts => counts.add status := by
  rw [VoltageQualityState.updateDay, VoltageQualityState.finalizeDay, Periods.Book.record, Periods.Book.turn]
  by_cases hNone : state.day.key = 0
  · have hEntry : entryOf state.day = none := if_pos hNone
    rw [if_pos (by rw [hNone]; exact hKey.symm), if_neg (not_not_intro hNone)]
    simp only [VoltageQualityState.book, hEntry, Option.map_none, Option.getD_none]
    rw [entryOf_count hKey]
  · have hEntry : entryOf state.day = some (state.day.key, _) := if_neg hNone
    by_cases hSame : state.day.key = key
    · rw [if_neg (not_not_intro hSame)]
      simp only [VoltageQualityState.book, hEntry, if_pos hSame, Option.map_some, Option.getD_some]
      rw [entryOf_count hNone, hSame]
    · rw [if_pos hSame, if_pos hNone]
      simp only [VoltageQualityState.book, hEntry, if_neg hSame, Option.map_some, Option.getD_some]
      rw [entryOf_count hKey]

theorem VoltageQualityState.Keyed.finalizeDay (h : state.Keyed) : state.finalizeDay.Keyed := by
  rw [VoltageQualityState.finalizeDay]
  split
  · rename_i hDay
    exact ⟨h.day, fun hNone => absurd hNone hDay⟩
  · exact h

theorem key_count (period : VoltageQualityPeriodState) (status : MinuteStatus) : (period.count status).key = period.key := by
  cases status <;> rfl

theorem VoltageQualityState.Keyed.updateDay (h : state.Keyed) (hKey : key ≠ 0) (status : MinuteStatus) :
    (state.updateDay key status).Keyed := by
  rw [VoltageQualityState.updateDay]
  split
  · refine ⟨fun hNone => absurd ?_ hKey, h.finalizeDay.completedDay⟩
    rw [key_count] at hNone
    exact hNone
  · rename_i hSame
    refine ⟨fun hNone => absurd ?_ hKey, h.completedDay⟩
    rw [key_count, not_not.mp hSame] at hNone
    exact hNone

theorem VoltageQualityState.Keyed.beginDay (h : state.Keyed) (hKey : key ≠ 0) : (state.beginDay key).Keyed := by
  rw [VoltageQualityState.beginDay]
  split
  · exact ⟨fun hNone => absurd hNone hKey, h.finalizeDay.completedDay⟩
  · exact h

def minuteCounting [LinearOrder K] [FloorRing K] (node : VoltageNode K) (runs : List (VoltageRun K)) :
    Periods.Counting MinuteCounts where
  zero := ⟨0, 0, 0⟩
  add minute counts := counts.add (statusOf node runs minute)
  total minutes := {
    monitored := (minutes.filter (Monitored node runs)).card
    overlimit := (minutes.filter (Overlimit node runs)).card
    invalid := (minutes.filter fun minute => ¬ Monitored node runs minute).card }
  total_empty := rfl
  total_insert := by
    intro minute minutes hNew
    have hNotIn : ∀ (p : Int → Prop) [DecidablePred p], minute ∉ minutes.filter p :=
      fun p _ hMem => hNew (Finset.mem_filter.mp hMem).1
    rw [Finset.filter_insert, Finset.filter_insert, Finset.filter_insert, statusOf]
    by_cases hMonitored : Monitored node runs minute
    · by_cases hOver : Overlimit node runs minute
      · simp [hMonitored, hOver, MinuteCounts.add, hNew]
      · simp [hMonitored, hOver, MinuteCounts.add, hNew]
    · have hOver : ¬ Overlimit node runs minute := fun h => hMonitored h.1
      simp [hMonitored, hOver, MinuteCounts.add, hNew]

end Books

section Minutes

variable {K : Type} [Field K] [LinearOrder K] [FloorRing K] {node : VoltageNode K} {dayKey : Int → Int}
  {runs : List (VoltageRun K)} {run : VoltageRun K} {first now minuteKey today : Int} {state : VoltageQualityState K}

def Measured (node : VoltageNode K) (runs : List (VoltageRun K)) (minuteKey : Int) (state : VoltageQualityState K) :
    Prop :=
  state.sums = node.inputs.map (fun input => sumOf (samplesOf runs minuteKey input.inputIndex)) ∧
    state.counts = node.inputs.map fun input => (samplesOf runs minuteKey input.inputIndex).length

omit [FloorRing K] in
theorem measured_resetMinute (h : ∀ run ∈ runs, minuteKeyOf run.nowMs ≠ minuteKey) :
    Measured node runs minuteKey (state.resetMinute node) := by
  constructor
  · simp only [VoltageQualityState.resetMinute, samplesOf_empty h, sumOf, List.map_nil, List.sum_nil]
    exact List.map_const'.symm
  · simp only [VoltageQualityState.resetMinute, samplesOf_empty h, List.length_nil]
    exact List.map_const'.symm

omit [FloorRing K] in
theorem Measured.averages (h : Measured node runs minuteKey state) : state.averages =
    node.inputs.map fun input => averageOf (samplesOf runs minuteKey input.inputIndex) := by
  rw [VoltageQualityState.averages, h.1, h.2, List.zipWith_map, List.zipWith_self]
  rfl

theorem Measured.minuteStatus (h : Measured node runs minuteKey state) :
    state.minuteStatus node = statusOf node runs minuteKey := by
  have hAll : state.counts.all (fun count => decide (node.requiredSamples ≤ count)) = true ↔
      Monitored node runs minuteKey := by
    rw [h.2, List.all_map, List.all_eq_true]
    simp only [Function.comp_apply, decide_eq_true_eq]
    rfl
  have hQualified : VoltageQualityState.isQualified node state.averages = true ↔ ∀ input ∈ node.inputs,
      ¬ (averageOf (samplesOf runs minuteKey input.inputIndex) < input.limits.1 ∨
        input.limits.2 < averageOf (samplesOf runs minuteKey input.inputIndex)) := by
    rw [VoltageQualityState.isQualified, h.averages, List.zipWith_map_right, List.zipWith_self, List.all_map,
      List.all_eq_true]
    simp
  rw [VoltageQualityState.minuteStatus, statusOf]
  by_cases hMonitored : Monitored node runs minuteKey
  · rw [if_pos (hAll.mpr hMonitored), if_pos hMonitored]
    by_cases hOver : Overlimit node runs minuteKey
    · rw [if_pos hOver, if_neg]
      intro hTrue
      obtain ⟨-, input, hInput, hOutside⟩ := hOver
      exact hQualified.mp hTrue input hInput hOutside
    · rw [if_neg hOver, if_pos]
      exact hQualified.mpr fun input hInput hOutside => hOver ⟨hMonitored, input, hInput, hOutside⟩
  · rw [if_neg (mt hAll.mp hMonitored), if_neg hMonitored]

/-- What holds while the minutes before `upto` are closed one by one. -/
structure Closing (node : VoltageNode K) (dayKey : Int → Int) (runs : List (VoltageRun K)) (first upto today : Int)
    (state : VoltageQualityState K) : Prop where
  averages : state.lastAverages.length = node.inputs.length
  accounts : Periods.Accounts (minuteCounting node runs) dayKey first upto today state.book
  keyed : state.Keyed

theorem accountCompletedMinute_spec (h : Closing node dayKey runs first minuteKey today state)
    (hMeasured : Measured node runs minuteKey state) (hKey : dayKey minuteKey ≠ 0) (hNext : today ≤ dayKey minuteKey)
    (hTick : today < dayKey minuteKey → first < minuteKey →
      ∃ minute ∈ Finset.Ico first minuteKey, dayKey minute = today) :
    Closing node dayKey runs first (minuteKey + 1) (dayKey minuteKey)
      (state.accountCompletedMinute node dayKey minuteKey) := by
  have hAverages : state.averages.length = node.inputs.length := by
    rw [hMeasured.averages, List.length_map]
  let counted : VoltageQualityState K := { state with
    lastAverages := if state.minuteStatus node = .invalid then state.lastAverages else state.averages
    lastMinuteStatus := state.minuteStatus node
    lastMinuteCoverage := state.coverage }
  have hKeyed : counted.Keyed := ⟨h.keyed.day, h.keyed.completedDay⟩
  refine ⟨?_, ?_, hKeyed.updateDay hKey _⟩
  · have hKept : (state.accountCompletedMinute node dayKey minuteKey).lastAverages =
        if state.minuteStatus node = .invalid then state.lastAverages else state.averages := by
      rw [VoltageQualityState.accountCompletedMinute, VoltageQualityState.updateDay, VoltageQualityState.finalizeDay]
      dsimp only
      split
      · split <;> rfl
      · rfl
    rw [hKept]
    split
    · exact h.averages
    · exact hAverages
  · rw [VoltageQualityState.accountCompletedMinute, book_updateDay hKey, hMeasured.minuteStatus]
    exact h.accounts.record hNext hTick

def VoltageQualityState.sampling (state : VoltageQualityState K) : List Int × Int :=
  (state.lastInputTimestamps, state.lastSampleAt)

omit [FloorRing K] [LinearOrder K] in
theorem sampling_updateDay (key : Int) (status : MinuteStatus) :
    (state.updateDay key status).sampling = state.sampling := by
  rw [VoltageQualityState.updateDay, VoltageQualityState.finalizeDay]
  split
  · split <;> rfl
  · rfl

theorem sampling_accountCompletedMinute :
    (state.accountCompletedMinute node dayKey minuteKey).sampling = state.sampling :=
  sampling_updateDay _ _

structure DayKeys (dayKey : Int → Int) : Prop where
  monotone : ∀ {earlier later : Int}, 0 ≤ earlier → earlier ≤ later → dayKey earlier ≤ dayKey later
  ne_zero : ∀ {minute : Int}, 0 ≤ minute → dayKey minute ≠ 0

theorem Closing.account (h : Closing node dayKey runs first minuteKey (dayKey (minuteKey - 1)) state)
    (hDays : DayKeys dayKey) (hStart : 0 ≤ first) (hFirst : first < minuteKey)
    (hMeasured : Measured node runs minuteKey state) :
    Closing node dayKey runs first (minuteKey + 1) (dayKey (minuteKey + 1 - 1))
      (state.accountCompletedMinute node dayKey minuteKey) := by
  rw [add_sub_cancel_right]
  refine accountCompletedMinute_spec h hMeasured (hDays.ne_zero (by omega)) (hDays.monotone (by omega) (by omega)) ?_
  rintro - -
  exact ⟨minuteKey - 1, Finset.mem_Ico.mpr ⟨by omega, by omega⟩, rfl⟩

theorem accountMissing_spec (hDays : DayKeys dayKey) (hStart : 0 ≤ first) (n : Nat) (hFirst : first < minuteKey)
    (hRuns : ∀ run ∈ runs, minuteKeyOf run.nowMs < minuteKey)
    (h : Closing node dayKey runs first minuteKey (dayKey (minuteKey - 1)) state) :
    Closing node dayKey runs first (minuteKey + n) (dayKey (minuteKey + n - 1))
      (VoltageQualityState.accountMissing node dayKey n minuteKey state) ∧
    (VoltageQualityState.accountMissing node dayKey n minuteKey state).sampling = state.sampling := by
  induction n generalizing minuteKey state with
  | zero =>
    rw [Nat.cast_zero, add_zero]
    exact ⟨h, rfl⟩
  | succ n ih =>
    have hReset : Closing node dayKey runs first minuteKey (dayKey (minuteKey - 1)) (state.resetMinute node) :=
      ⟨h.averages, h.accounts, ⟨h.keyed.day, h.keyed.completedDay⟩⟩
    have hMeasured : Measured node runs minuteKey (state.resetMinute node) :=
      measured_resetMinute fun run hRun => (hRuns run hRun).ne
    have hNext := hReset.account hDays hStart hFirst hMeasured
    obtain ⟨hClosing, hKept⟩ := ih (by omega) (fun run hRun => (hRuns run hRun).trans (by omega)) hNext
    have hEnd : minuteKey + 1 + (n : Int) = minuteKey + (n + 1 : Nat) := by omega
    rw [hEnd] at hClosing
    refine ⟨hClosing, hKept.trans ?_⟩
    rw [sampling_accountCompletedMinute]
    rfl

structure Tracked (node : VoltageNode K) (dayKey : Int → Int) (runs : List (VoltageRun K)) (first now : Int)
    (state : VoltageQualityState K) : Prop where
  minute : state.currentMinuteKey = now
  measured : Measured node runs now state
  stamps : List.Forall₂ (fun input stamp => StampFits (samplesOf runs now input.inputIndex) now stamp) node.inputs
    state.lastInputTimestamps
  sampled : state.lastSampleAt = ((samplingRuns runs).getLast?.map VoltageRun.nowMs).getD 0
  closing : Closing node dayKey runs first now (dayKey now) state

omit [LinearOrder K] [FloorRing K] [Field K] in
theorem stampFits_later {samples : List (VoltageSample K)} {stamp : Int} (h : StampFits samples now stamp)
    (hSamples : ∀ sample ∈ samples, minuteKeyOf sample.ts = now) (hLater : now < minuteKey) :
    StampFits ([] : List (VoltageSample K)) minuteKey stamp := by
  rw [StampFits] at h
  cases hLast : samples.getLast? with
  | none =>
    rw [hLast] at h
    exact h.imp id fun hEarlier => hEarlier.trans hLater
  | some sample =>
    rw [hLast] at h
    dsimp only at h
    have hMinute := hSamples sample (List.mem_of_getLast? hLast)
    right
    rw [h, hMinute]
    exact hLater

omit [LinearOrder K] [FloorRing K] [Field K] in
theorem mem_samplesOf {index : UInt32} {sample : VoltageSample K} (h : sample ∈ samplesOf runs minuteKey index) :
    minuteKeyOf sample.ts = minuteKey := by
  have hMem := (List.destutter_sublist _ _).subset h
  obtain ⟨run, -, hGood⟩ := List.mem_filterMap.mp hMem
  obtain ⟨point, -, -, -, -, hMinute, hTs⟩ := goodSample_eq_some hGood
  rw [← hTs]
  exact hMinute

omit [FloorRing K] [LinearOrder K] in
theorem sampling_beginDay (state : VoltageQualityState K) (key : Int) : (state.beginDay key).sampling = state.sampling ∧
    (state.beginDay key).currentMinuteKey = state.currentMinuteKey ∧ (state.beginDay key).sums = state.sums ∧
      (state.beginDay key).counts = state.counts ∧ (state.beginDay key).lastAverages = state.lastAverages := by
  rw [VoltageQualityState.beginDay, VoltageQualityState.finalizeDay]
  split
  · split <;> exact ⟨rfl, rfl, rfl, rfl, rfl⟩
  · exact ⟨rfl, rfl, rfl, rfl, rfl⟩

theorem Closing.beginDay {next : Int} (h : Closing node dayKey runs first now today state) (hKey : next ≠ 0)
    (hNext : today ≤ next)
    (hTick : today < next → first < now → ∃ minute ∈ Finset.Ico first now, dayKey minute = today) :
    Closing node dayKey runs first now next (state.beginDay next) where
  averages := by
    rw [(sampling_beginDay state next).2.2.2.2]
    exact h.averages
  accounts := by
    rw [book_beginDay hKey]
    exact h.accounts.turn hNext hTick
  keyed := h.keyed.beginDay hKey

theorem Tracked.close (h : Tracked node dayKey runs first now state) (hDays : DayKeys dayKey) (hStart : 0 ≤ first)
    (hRuns : ∀ run ∈ runs, minuteKeyOf run.nowMs ≤ now) (hNow : now ≤ minuteKey) :
    Tracked node dayKey runs first minuteKey ((state.closeMinutes node dayKey minuteKey).beginDay (dayKey minuteKey)) := by
  have hFirst : first ≤ now := h.closing.accounts.le
  rw [VoltageQualityState.closeMinutes, h.minute]
  by_cases hLater : now < minuteKey
  · rw [if_pos hLater]
    have hClosed : Closing node dayKey runs first (now + 1) (dayKey (now + 1 - 1))
        (state.accountCompletedMinute node dayKey now) := by
      rw [add_sub_cancel_right]
      refine accountCompletedMinute_spec h.closing h.measured (hDays.ne_zero (by omega)) le_rfl ?_
      exact fun hLess => absurd hLess (lt_irrefl _)
    obtain ⟨hCaughtUp, hKept⟩ := accountMissing_spec hDays hStart (minuteKey - now - 1).toNat (by omega)
      (fun run hRun => Int.lt_add_one_of_le (hRuns run hRun)) hClosed
    have hEnd : now + 1 + ((minuteKey - now - 1).toNat : Int) = minuteKey := by omega
    rw [hEnd] at hCaughtUp
    rw [sampling_accountCompletedMinute] at hKept
    have hNone : ∀ run ∈ runs, minuteKeyOf run.nowMs ≠ minuteKey := fun run hRun => by
      have hLe := hRuns run hRun
      omega
    obtain ⟨hStamps, hSampled⟩ := Prod.ext_iff.mp hKept
    let caughtUp := VoltageQualityState.accountMissing node dayKey (minuteKey - now - 1).toNat (now + 1)
      (state.accountCompletedMinute node dayKey now)
    let reset := ({ caughtUp with currentMinuteKey := minuteKey } : VoltageQualityState K).resetMinute node
    have hReset : Closing node dayKey runs first minuteKey (dayKey (minuteKey - 1)) reset :=
      ⟨hCaughtUp.averages, hCaughtUp.accounts, ⟨hCaughtUp.keyed.day, hCaughtUp.keyed.completedDay⟩⟩
    have hMeasured : Measured node runs minuteKey reset := measured_resetMinute hNone
    obtain ⟨hSampling, hMinute, hSums, hCounts, -⟩ := sampling_beginDay reset (dayKey minuteKey)
    obtain ⟨hSameStamps, hSameSampled⟩ := Prod.ext_iff.mp hSampling
    change Tracked node dayKey runs first minuteKey (reset.beginDay (dayKey minuteKey))
    refine ⟨hMinute, ⟨hSums.trans hMeasured.1, hCounts.trans hMeasured.2⟩, ?_, ?_, ?_⟩
    · rw [show (reset.beginDay (dayKey minuteKey)).lastInputTimestamps = state.lastInputTimestamps from
        hSameStamps.trans hStamps]
      refine h.stamps.imp fun input stamp hFits => ?_
      rw [samplesOf_empty hNone]
      exact stampFits_later hFits (fun sample hSample => mem_samplesOf hSample) hLater
    · exact (hSameSampled.trans hSampled).trans h.sampled
    · refine hReset.beginDay (hDays.ne_zero (by omega)) (hDays.monotone (by omega) (by omega)) ?_
      rintro - -
      exact ⟨minuteKey - 1, Finset.mem_Ico.mpr ⟨by omega, by omega⟩, rfl⟩
  · rw [if_neg hLater]
    obtain rfl : now = minuteKey := by omega
    obtain ⟨hSampling, hMinute, hSums, hCounts, -⟩ := sampling_beginDay state (dayKey now)
    obtain ⟨hStamps, hSampled⟩ := Prod.ext_iff.mp hSampling
    refine ⟨hMinute.trans h.minute, ⟨hSums.trans h.measured.1, hCounts.trans h.measured.2⟩, ?_, ?_, ?_⟩
    · rw [show (state.beginDay (dayKey now)).lastInputTimestamps = state.lastInputTimestamps from hStamps]
      exact h.stamps
    · exact hSampled.trans h.sampled
    · exact h.closing.beginDay (hDays.ne_zero (by omega)) le_rfl fun hLess => absurd hLess (lt_irrefl _)

end Minutes

end EdgeGateway.GraphEms
