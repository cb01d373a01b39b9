import EdgeGateway.AgcAvc.WriteDiscipline

/-! # Giving up the ownership

A zeroing tick keeps the ownership while a non-zero command is remembered or a write is out.
-/

namespace EdgeGateway.AgcAvc

open WriteLedger

universe u

variable {K : Type u} {n : Nat}

structure PointHistory (K : Type u) where
  value : Option K
  failed : Bool

def Deed.note (index : UInt32) (history : PointHistory K) : Deed K n → PointHistory K
  | .resolved _ => history
  | .failed other => if other = index then { history with failed := true } else history
  | .submitted submission =>
    if submission.accepted && submission.index == index then ⟨some submission.value, false⟩ else history

def historyOf (index : UInt32) (deeds : List (Deed K n)) : PointHistory K :=
  deeds.foldl (Deed.note index) ⟨none, false⟩

def AgcAvcServiceConfig.targetIndexes (config : AgcAvcServiceConfig K n) : List UInt32 :=
  ((List.finRange n).flatMap fun i =>
    ((config.units i).points.activeTargets ++ (config.units i).points.reactiveTargets).map (·.index)).filter (· ≠ 0)

namespace AgcAvcService

variable (config : AgcAvcServiceConfig K n)

theorem lastValue_eq (start : Ledger UInt32 K) {index : UInt32} (hStart : start.lastValue index = none)
    (hIndex : index ≠ 0) (deeds : List (Deed K n)) :
    (Run.after Ledger.record start (entriesOf config deeds)).lastValue index =
      if (historyOf index deeds).failed then none else (historyOf index deeds).value := by
  induction deeds using List.reverseRecOn with
  | nil => exact hStart
  | append_singleton deeds deed ih =>
    have hHistory : historyOf index (deeds ++ [deed]) = Deed.note index (historyOf index deeds) deed := by
      simp [historyOf]
    rw [entriesOf_append, Run.after_append, hHistory]
    generalize Run.after Ledger.record start (entriesOf config deeds) = ledger at ih ⊢
    cases deed with
    | resolved other => exact ih
    | failed other =>
      obtain rfl | hNe := eq_or_ne other index
      · simp [entriesOf, Deed.entries, Deed.note, hIndex, Ledger.record]
      · have hSame : (Run.after Ledger.record ledger (entriesOf config [.failed other])).lastValue index =
            ledger.lastValue index := by
          simp only [entriesOf, Deed.entries, List.flatMap_cons, List.flatMap_nil, List.append_nil]
          split
          · rfl
          · simp [Ledger.record, Function.update_of_ne hNe.symm]
        rw [hSame, ih]
        simp [Deed.note, hNe]
    | submitted submission =>
      cases hAccepted : submission.accepted with
      | false =>
        simp [entriesOf, Deed.entries, hAccepted, Deed.note, ih]
      | true =>
        obtain rfl | hNe := eq_or_ne submission.index index
        · simp [entriesOf, Deed.entries, hAccepted, Deed.note, Ledger.record]
        · simp [entriesOf, Deed.entries, hAccepted, Deed.note, Ledger.record, hNe,
            Function.update_of_ne hNe.symm, ih]

variable [Field K] [LinearOrder K]

def AllZero (deeds : List (Deed K n)) : Prop :=
  ∀ index ∈ config.targetIndexes, ∀ value, (historyOf index deeds).value = some value → value = 0

structure Remembered (deeds : List (Deed K n)) : Prop where
  kept : ∀ index ∈ config.targetIndexes, (historyOf index deeds).failed →
    ∀ value, (historyOf index deeds).value = some value → value = 0
  apart : ∀ index ∈ config.targetIndexes, ∀ value, (historyOf index deeds).value = some value →
    |value| ≤ 1 / 10 ^ 9 → value = 0

variable [FloorRing K] (math : CMath K)

variable {config math} {answers : TickAnswers K n} {s : AgcAvcService K n}

/-- A zeroing tick that gives up the ownership remembers nothing beyond the tolerance. -/
theorem released_forgets (hWrites : config.submitWrites) (hShadow : config.shadowMode = false)
    (hReleased : (s.tick config answers math).released)
    (hZeroing : zeroing (s.tick config answers math).controllerState) :
    s.needsOwnership config answers math = false ∧
      (s.results config answers).service.hasNonZeroSubmitted = false := by
  obtain ⟨hNeeds, hHeld⟩ : (!s.needsOwnership config answers math) = true ∧ s.ownershipHeld = true := by
    simpa only [tick, Bool.and_eq_true] using hReleased
  have hNone : s.needsOwnership config answers math = false := by simpa using hNeeds
  refine ⟨hNone, ?_⟩
  rw [needsOwnership] at hNone
  change zeroing (s.controlled config answers math).2.state = true at hZeroing
  simp only [hWrites, hShadow, hHeld, hZeroing, Bool.not_false, Bool.true_and, Bool.or_eq_false_iff] at hNone
  exact hNone.2.1

theorem released_deeds (hNeeds : s.needsOwnership config answers math = false) :
    (s.tick config answers math).deeds = (s.results config answers).deeds := by
  have hSubmitting : s.submitting config answers math = ⟨s.readied config answers math, []⟩ := by
    obtain hNone | ⟨hAcquired, -, -⟩ := submitting_cases config answers math s
    · exact hNone
    · rw [hNeeds] at hAcquired
      exact absurd hAcquired Bool.false_ne_true
  change (s.results config answers).deeds ++ (s.submitting config answers math).submissions.map .submitted = _
  rw [hSubmitting]
  exact List.append_nil _

omit [FloorRing K] in
theorem small_of_none_submitted (hNone : s.hasNonZeroSubmitted = false) {index : UInt32} {value : K}
    (h : s.lastSubmittedValue.lookup index = some value) : |value| ≤ 1 / 10 ^ 9 := by
  have hEntry : ⟨index, value⟩ ∈ s.lastSubmittedValue.entries := AList.mem_lookup_iff.mp h
  rw [hasNonZeroSubmitted] at hNone
  rw [List.any_eq_false] at hNone
  simpa using hNone _ hEntry

/-- A zeroing tick that gives up the ownership leaves every point at zero exactly if nothing else was
    forgotten. -/
theorem release_zeroed_iff (hWrites : config.submitWrites) (hShadow : config.shadowMode = false)
    (done : List (TickAnswers K n)) (answers : TickAnswers K n)
    (hReleased : ((Run.after (next config math) fresh done).tick config answers math).released)
    (hZeroing : zeroing ((Run.after (next config math) fresh done).tick config answers math).controllerState) :
    AllZero config (deedsOf config math fresh (done ++ [answers])) ↔
      Remembered config (deedsOf config math fresh (done ++ [answers])) := by
  constructor
  · intro hZero
    exact ⟨fun index hIndex _ => hZero index hIndex, fun index hIndex value hValue _ => hZero index hIndex value hValue⟩
  intro hRemembered index hIndex value hValue
  obtain ⟨hNeeds, hNone⟩ := released_forgets hWrites hShadow hReleased hZeroing
  -- The ledger of the run, up to the write results of the releasing tick.
  obtain ⟨deeds, hDeeds, -, hResults⟩ := adds_processWriteResults config answers
    (Run.after (next config math) fresh done) ((Run.after (next config math) fresh done).input config answers).pcs
  have hAll : deedsOf config math fresh (done ++ [answers]) = deedsOf config math fresh done ++ deeds := by
    rw [deedsOf, Run.trace_snoc, released_deeds hNeeds]
    exact congrArg _ hDeeds
  have hLedger := ((run_keeps config math fresh done).append hResults).2
  rw [← entriesOf_append, ← hAll] at hLedger
  cases hFailed : (historyOf index (deedsOf config math fresh (done ++ [answers]))).failed with
  | true => exact hRemembered.kept index hIndex hFailed value hValue
  | false =>
    apply hRemembered.apart index hIndex value hValue
    apply small_of_none_submitted hNone
    have hNonzero : index ≠ 0 := by simpa using (List.mem_filter.mp hIndex).2
    have hLast := lastValue_eq config (fresh : AgcAvcService K n).ledger rfl hNonzero
      (deedsOf config math fresh (done ++ [answers]))
    rw [hLedger, hFailed, hValue] at hLast
    exact hLast

end AgcAvcService

section Sample

open AgcAvcService

noncomputable def failedTick : TickAnswers ℝ 2 := sampleTick 2000 (some ⟨false, 1500⟩)

structure Commanded (s : AgcAvcService ℝ 2) : Prop where
  held : s.ownershipHeld = true
  value : s.lastSubmittedValue = AList.insert 40 100 ∅
  pending : s.pendingWrites = AList.insert 40 ⟨makeCommandId 1 1000 40, 0, false, 100, 1000⟩ ∅
  feedback : s.pendingFeedback = []
  failures : s.consecutiveWriteFailures = 0

theorem commanded_sample :
    Commanded (Run.after (next sampleService realMath) (fresh : AgcAvcService ℝ 2) [sampleTick 1000 none]) := by
  rw [Run.after_cons, Run.after_nil, next, tick, submitting_sample, readied_sample]
  exact ⟨rfl, rfl, rfl, rfl, rfl⟩

variable {s : AgcAvcService ℝ 2}

theorem results_failedTick (h : Commanded s) :
    s.results sampleService failedTick =
      ⟨{ s.registerWriteFailure 40 with pendingWrites := ∅ }, [.failed 40, .resolved 40], false⟩ := by
  simp [results, processWriteResults, observeFeedbacks, observeWrites, failedTick, sampleTick, h.pending, h.feedback,
    observeWrite, Progress.fail, Progress.resolve, registerWriteFailure]
  rfl

theorem state_failedTick (h : Commanded s) :
    (s.tick sampleService failedTick realMath).controllerState = .failsafe := by
  have hUnhealthy : (s.checkedInput sampleService failedTick).inputHealthy = false := by
    rw [checkedInput, results_failedTick h, if_pos]
    simp [registerWriteFailure, h.failures, sampleService]
  have hEnabled : sampleService.controller.enabled = true := rfl
  simp [tick, controlled, AgcAvcController.step, hUnhealthy, hEnabled]

theorem released_failedTick (h : Commanded s) : (s.tick sampleService failedTick realMath).released = true := by
  have hState : (s.controlled sampleService failedTick realMath).2.state = .failsafe := state_failedTick h
  have hNeeds : s.needsOwnership sampleService failedTick realMath = false := by
    rw [needsOwnership, hState, results_failedTick h]
    have hGone : (s.lastSubmittedValue.erase 40).entries = [] := by
      rw [h.value]
      rfl
    simp [activeControl, hasNonZeroSubmitted, registerWriteFailure, hGone]
  simp [tick, hNeeds, h.held]

theorem zeroing_failedTick (h : Commanded s) :
    zeroing (s.tick sampleService failedTick realMath).controllerState = true := by
  rw [state_failedTick h]
  rfl

theorem failed_release_decided :
    AllZero sampleService (deedsOf sampleService realMath fresh ([sampleTick 1000 none] ++ [failedTick])) ↔
      Remembered sampleService (deedsOf sampleService realMath fresh ([sampleTick 1000 none] ++ [failedTick])) :=
  release_zeroed_iff rfl rfl [sampleTick 1000 none] failedTick (released_failedTick commanded_sample)
    (zeroing_failedTick commanded_sample)

/-- The ownership is given up while the last command of the unit is 100 kW. -/
theorem failed_write_releases :
    sampleService.submitWrites = true ∧ sampleService.shadowMode = false ∧
      ((Run.after (next sampleService realMath) fresh [sampleTick 1000 none]).tick sampleService failedTick
        realMath).released = true ∧
      zeroing ((Run.after (next sampleService realMath) fresh [sampleTick 1000 none]).tick sampleService failedTick
        realMath).controllerState = true ∧
      ¬AllZero sampleService (deedsOf sampleService realMath fresh ([sampleTick 1000 none] ++ [failedTick])) := by
  refine ⟨rfl, rfl, released_failedTick commanded_sample, zeroing_failedTick commanded_sample, fun hZero => ?_⟩
  have hNeeds : (Run.after (next sampleService realMath) fresh [sampleTick 1000 none]).needsOwnership sampleService
      failedTick realMath = false :=
    (released_forgets rfl rfl (released_failedTick commanded_sample) (zeroing_failedTick commanded_sample)).1
  have hDeeds : deedsOf sampleService realMath fresh ([sampleTick 1000 none] ++ [failedTick]) =
      [.submitted ⟨makeCommandId 1 1000 40, 40, 100, 1000, 0, true⟩, .failed 40, .resolved 40] := by
    rw [deedsOf, Run.trace_snoc, released_deeds hNeeds, results_failedTick commanded_sample, Run.trace, deeds_sample]
    rfl
  have hIndex : (40 : UInt32) ∈ sampleService.targetIndexes := by
    simp [AgcAvcServiceConfig.targetIndexes, List.finRange_succ, sampleService, sampleUnit, plainRef]
  rw [hDeeds] at hZero
  have hValue := hZero 40 hIndex 100 (by simp [historyOf, Deed.note])
  norm_num at hValue

end Sample

end EdgeGateway.AgcAvc
