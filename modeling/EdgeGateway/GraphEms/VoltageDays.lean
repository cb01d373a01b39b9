import EdgeGateway.GraphEms.VoltageAccounting

/-! # The days of a run -/

namespace EdgeGateway.GraphEms

section Sampling

variable {K : Type} [Field K] [LinearOrder K] [FloorRing K] {node : VoltageNode K} {dayKey : Int → Int}
  {runs : List (VoltageRun K)} {run : VoltageRun K} {first now minuteKey : Int} {state : VoltageQualityState K}

theorem total_snoc {minutes : Finset Int} (h : ∀ minute ∈ minutes, minuteKeyOf run.nowMs ≠ minute) :
    (minuteCounting node runs).total minutes = (minuteCounting node (runs ++ [run])).total minutes := by
  have hMonitored : ∀ minute ∈ minutes, (Monitored node runs minute ↔ Monitored node (runs ++ [run]) minute) := by
    intro minute hMinute
    simp only [Monitored, samplesOf_other (h minute hMinute)]
  have hOverlimit : ∀ minute ∈ minutes, (Overlimit node runs minute ↔ Overlimit node (runs ++ [run]) minute) := by
    intro minute hMinute
    simp only [Overlimit, Monitored, samplesOf_other (h minute hMinute)]
  simp only [minuteCounting, MinuteCounts.mk.injEq]
  refine ⟨?_, ?_, ?_⟩
  · rw [Finset.filter_congr hMonitored]
  · rw [Finset.filter_congr hOverlimit]
  · rw [Finset.filter_congr fun minute hMinute => not_congr (hMonitored minute hMinute)]

theorem Closing.snoc (h : Closing node dayKey runs first now (dayKey now) state) (hMinute : minuteKeyOf run.nowMs = now) :
    Closing node dayKey (runs ++ [run]) first now (dayKey now) state := by
  refine ⟨h.averages, h.accounts.congr fun key => total_snoc fun minute hMem => ?_, h.keyed⟩
  have hBefore := (Finset.mem_Ico.mp (Finset.mem_filter.mp hMem).1).2
  omega

omit [LinearOrder K] [FloorRing K] in
theorem sample_due (hPositive : ∀ run ∈ runs, 0 < run.nowMs) (hOrdered : ∀ earlier ∈ runs, earlier.nowMs ≤ run.nowMs)
    (hSampled : state.lastSampleAt = ((samplingRuns runs).getLast?.map VoltageRun.nowMs).getD 0) :
    (state.lastSampleAt = 0 ∨ run.nowMs < state.lastSampleAt ∨ sampleIntervalMs ≤ run.nowMs - state.lastSampleAt) ↔
      ∀ last ∈ (samplingRuns runs).getLast?, last.nowMs + sampleIntervalMs ≤ run.nowMs := by
  cases hLast : (samplingRuns runs).getLast? with
  | none =>
    rw [hLast] at hSampled
    exact ⟨fun _ last hMem => (by cases hMem), fun _ => .inl hSampled⟩
  | some last =>
    rw [hLast] at hSampled
    have hMem : last ∈ runs := (List.destutter_sublist _ runs).subset (List.mem_of_getLast? hLast)
    have hAt : state.lastSampleAt = last.nowMs := hSampled
    have hLe := hOrdered last hMem
    have hNonzero := hPositive last hMem
    constructor
    · rintro hDue other hOther
      obtain rfl := Option.some.inj hOther
      omega
    · intro hDue
      have hInterval := hDue last rfl
      omega

omit [FloorRing K] in
theorem zipWith_buckets {δ : Type} {R : VoltageInput K → Int → Prop} {inputs : List (VoltageInput K)} {stamps : List Int}
    (h : List.Forall₂ R inputs stamps) (sum : VoltageInput K → K) (count : VoltageInput K → Nat)
    (f : VoltageInput K → VoltageBucket K → δ) :
    List.zipWith f inputs (List.zipWith (fun sum (rest : Nat × Int) => ⟨sum, rest.1, rest.2⟩) (inputs.map sum)
      ((inputs.map count).zip stamps)) =
    List.zipWith (fun input stamp => f input ⟨sum input, count input, stamp⟩) inputs stamps := by
  induction h with
  | nil => rfl
  | cons _ _ ih => simp only [List.map_cons, List.zip_cons_cons, List.zipWith_cons_cons, ih]

theorem Tracked.sample (h : Tracked node dayKey runs first now state) (hMinute : minuteKeyOf run.nowMs = now)
    (hPositive : ∀ run ∈ runs, 0 < run.nowMs) (hOrdered : ∀ earlier ∈ runs, earlier.nowMs ≤ run.nowMs)
    (hStamps : ∀ index point, run.latestPoint index = some point → minuteKeyOf point.ts = 0 → 0 < point.ts) :
    Tracked node dayKey (runs ++ [run]) first now (state.sampleInputs node run) := by
  have hDue := sample_due hPositive hOrdered h.sampled
  have hSnoc := samplingRuns_snoc runs run
  rw [VoltageQualityState.sampleInputs]
  by_cases hTaken : ∀ last ∈ (samplingRuns runs).getLast?, last.nowMs + sampleIntervalMs ≤ run.nowMs
  · rw [if_pos hTaken] at hSnoc
    rw [if_pos (hDue.mpr hTaken), VoltageQualityState.buckets, h.measured.1, h.measured.2, zipWith_buckets h.stamps,
      h.minute]
    have hStep : ∀ input : VoltageInput K, ∀ stamp, StampFits (samplesOf runs now input.inputIndex) now stamp →
        ∃ stamp', StampFits (samplesOf (runs ++ [run]) now input.inputIndex) now stamp' ∧
          VoltageBucket.sample ⟨sumOf (samplesOf runs now input.inputIndex),
            (samplesOf runs now input.inputIndex).length, stamp⟩ now (run.latestPoint input.inputIndex) =
          ⟨sumOf (samplesOf (runs ++ [run]) now input.inputIndex),
            (samplesOf (runs ++ [run]) now input.inputIndex).length, stamp'⟩ := fun input stamp hFits =>
      sample_spec hSnoc hMinute (hStamps input.inputIndex) hFits
    refine ⟨h.minute, ⟨?_, ?_⟩, ?_, ?_, ?_⟩
    · refine (List.map_zipWith ..).trans (zipWith_eq_map h.stamps fun input stamp hFits => ?_)
      obtain ⟨stamp', -, hBucket⟩ := hStep input stamp hFits
      rw [hBucket]
    · refine (List.map_zipWith ..).trans (zipWith_eq_map h.stamps fun input stamp hFits => ?_)
      obtain ⟨stamp', -, hBucket⟩ := hStep input stamp hFits
      rw [hBucket]
    · rw [show ∀ buckets, ({ state.setBuckets buckets with lastSampleAt := run.nowMs } :
        VoltageQualityState K).lastInputTimestamps = buckets.map VoltageBucket.lastInputTimestamp from fun _ => rfl,
        List.map_zipWith]
      refine forall₂_zipWith h.stamps fun input stamp hFits => ?_
      obtain ⟨stamp', hFits', hBucket⟩ := hStep input stamp hFits
      rw [hBucket]
      exact hFits'
    · rw [hSnoc, List.getLast?_concat]
      rfl
    · have hClosing := h.closing.snoc hMinute
      exact ⟨hClosing.averages, hClosing.accounts, ⟨hClosing.keyed.day, hClosing.keyed.completedDay⟩⟩
  · rw [if_neg hTaken] at hSnoc
    rw [if_neg (mt hDue.mp hTaken)]
    have hSame : ∀ index, samplesOf (runs ++ [run]) now index = samplesOf runs now index :=
      fun index => samplesOf_skip hSnoc
    refine ⟨h.minute, ?_, ?_, ?_, h.closing.snoc hMinute⟩
    · simp only [Measured, hSame]
      exact h.measured
    · simp only [hSame]
      exact h.stamps
    · rw [hSnoc]
      exact h.sampled

end Sampling

section Days

variable {K : Type} [Field K] [LinearOrder K] [FloorRing K] (node : VoltageNode K)
  (localTimeFromEpochMs : Int → LocalDate)

/-- The clock is set and never jumps back or too far, and the writes are accepted. The timestamp 0 stands for
    none. -/
structure Clocked (runs : List (VoltageRun K)) : Prop where
  positive : ∀ run ∈ runs, 0 < run.nowMs
  ordered : runs.Pairwise fun earlier later => earlier.nowMs ≤ later.nowMs
  gaps : runs.IsChain fun earlier later => minuteKeyOf later.nowMs - minuteKeyOf earlier.nowMs ≤ 600000
  accepted : ∀ run ∈ runs, ∀ index, run.rejection index = none
  stamps : ∀ run ∈ runs, ∀ index point, run.latestPoint index = some point → minuteKeyOf point.ts = 0 → 0 < point.ts

/-- Local time as the C library gives it for times of the epoch, with no day before an earlier one. -/
structure Calendar : Prop where
  fields : ∀ ms, 0 ≤ ms → 0 ≤ (localTimeFromEpochMs ms).year ∧ 0 ≤ (localTimeFromEpochMs ms).mon ∧
    0 ≤ (localTimeFromEpochMs ms).mday
  monotone : Monotone (voltageQualityDayKey localTimeFromEpochMs)

variable {node localTimeFromEpochMs} {runs : List (VoltageRun K)} {run : VoltageRun K} {first now : Int}
  {state : VoltageQualityState K}

theorem Calendar.dayKeys (h : Calendar localTimeFromEpochMs) : DayKeys (voltageQualityDayKey localTimeFromEpochMs) where
  monotone _ hLe := h.monotone hLe
  ne_zero := by
    intro minute hMinute
    obtain ⟨hYear, hMon, hMday⟩ := h.fields (minute * 60000) (by omega)
    rw [voltageQualityDayKey]
    omega

theorem Tracked.atMinute {dayKey : Int → Int} {minuteKey : Int} (h : Tracked node dayKey runs first now state)
    (hNow : 0 ≤ now) (hLe : now ≤ minuteKey) (hGap : minuteKey - now ≤ 600000) :
    state.atMinute node minuteKey = state := by
  have hSums : state.sums.length = node.inputs.length := by
    rw [h.measured.1, List.length_map]
  have hCounts : state.counts.length = node.inputs.length := by
    rw [h.measured.2, List.length_map]
  have hStamps : state.lastInputTimestamps.length = node.inputs.length := h.stamps.length_eq.symm
  have hResized : state.resized node = state := by
    rw [VoltageQualityState.resized, if_neg (not_or.mpr ⟨not_not_intro hSums, not_not_intro hCounts⟩), if_neg (not_not_intro h.closing.averages),
      if_neg (not_not_intro hStamps)]
  rw [VoltageQualityState.atMinute, hResized, h.minute]
  dsimp only
  rw [if_neg (by omega), if_neg (by omega), if_neg (by omega)]

theorem sampleInputs_of_accepted (h : ∀ index, run.rejection index = none) :
    (runVoltageQualification node localTimeFromEpochMs state run).2 =
      (((state.atMinute node (minuteKeyOf run.nowMs)).closeMinutes node (voltageQualityDayKey localTimeFromEpochMs)
        (minuteKeyOf run.nowMs)).beginDay
          (voltageQualityDayKey localTimeFromEpochMs (minuteKeyOf run.nowMs))).sampleInputs node run := by
  rw [runVoltageQualification]
  simp only [h, Option.map_none]
  rw [List.findSome?_eq_none_iff.mpr fun _ _ => rfl]

/-- One run of the node. -/
theorem Tracked.step (hCalendar : Calendar localTimeFromEpochMs) (hClocked : Clocked (runs ++ [run])) (hStart : 0 ≤ first)
    (h : Tracked node (voltageQualityDayKey localTimeFromEpochMs) runs first now
      (state.atMinute node (minuteKeyOf run.nowMs)))
    (hRuns : ∀ run ∈ runs, minuteKeyOf run.nowMs ≤ now) (hNow : now ≤ minuteKeyOf run.nowMs) :
    Tracked node (voltageQualityDayKey localTimeFromEpochMs) (runs ++ [run]) first (minuteKeyOf run.nowMs)
      (runVoltageQualification node localTimeFromEpochMs state run).2 := by
  have hLast : run ∈ runs ++ [run] := List.mem_append_right _ (List.mem_singleton_self run)
  rw [sampleInputs_of_accepted (hClocked.accepted run hLast)]
  refine (h.close hCalendar.dayKeys hStart hRuns hNow).sample rfl ?_ ?_ (hClocked.stamps run hLast)
  · exact fun other hOther => hClocked.positive other (List.mem_append_left _ hOther)
  · exact fun other hOther => (List.pairwise_append.mp hClocked.ordered).2.2 other hOther run (List.mem_singleton_self run)

omit [Field K] [LinearOrder K] [FloorRing K] in
theorem Clocked.init (h : Clocked (runs ++ [run])) : Clocked runs where
  positive other hOther := h.positive other (List.mem_append_left _ hOther)
  ordered := (List.pairwise_append.mp h.ordered).1
  gaps := (List.isChain_append.mp h.gaps).1
  accepted other hOther := h.accepted other (List.mem_append_left _ hOther)
  stamps other hOther := h.stamps other (List.mem_append_left _ hOther)

end Days

end EdgeGateway.GraphEms
