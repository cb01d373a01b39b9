import EdgeGateway.AgcAvc.CommandMailbox
import EdgeGateway.AgcAvc.Service
import EdgeGateway.AgcAvc.StationLimit
import EdgeGateway.Foundation.Exchange

/-! # The discipline of the writes

What a tick does keeps a ledger of writes: the table of pending writes is what is out,
and the times of the last submissions are the spacing that is remembered.
-/

namespace EdgeGateway.AgcAvc

open WriteLedger

universe u

variable {K : Type u} {n : Nat}

def Deed.entries (interval : Fin n → Int) : Deed K n → List (Entry UInt32 K)
  | .resolved index => [.settled index]
  | .failed index => if index = 0 then [] else [.forgotten index]
  | .submitted submission =>
    if submission.accepted then
      [.issued submission.index submission.ts (interval submission.pcsIndex) submission.value]
    else []

def AgcAvcServiceConfig.interval (config : AgcAvcServiceConfig K n) (i : Fin n) : Int :=
  (config.units i).minWriteIntervalMs

namespace AgcAvcService

def ledger (s : AgcAvcService K n) : Ledger UInt32 K :=
  ⟨fun index => decide (index ∈ s.pendingWrites), fun index => s.lastSubmittedAtMs.lookup index,
    fun index => s.lastSubmittedValue.lookup index⟩

def entriesOf (config : AgcAvcServiceConfig K n) (deeds : List (Deed K n)) : List (Entry UInt32 K) :=
  deeds.flatMap (Deed.entries config.interval)

theorem entriesOf_append (config : AgcAvcServiceConfig K n) (xs ys : List (Deed K n)) :
    entriesOf config (xs ++ ys) = entriesOf config xs ++ entriesOf config ys := List.flatMap_append

/-- A part of looking at the write results: the deeds it adds keep the ledger and submit nothing. -/
def Adds (config : AgcAvcServiceConfig K n) (before after : Progress K n) : Prop :=
  ∃ deeds, after.deeds = before.deeds ++ deeds ∧ (∀ submission, .submitted submission ∉ deeds) ∧
    Keeps before.service.ledger (entriesOf config deeds) after.service.ledger

namespace Adds

variable {config : AgcAvcServiceConfig K n} {p q r : Progress K n}

theorem same (hDeeds : q.deeds = p.deeds) (hLedger : q.service.ledger = p.service.ledger) : Adds config p q :=
  ⟨[], by rw [hDeeds, List.append_nil], fun _ => List.not_mem_nil, by
    rw [hLedger]
    exact Run.Leads.nil _⟩

theorem trans (hFirst : Adds config p q) (hSecond : Adds config q r) : Adds config p r := by
  obtain ⟨first, hFirstDeeds, hFirstNone, hFirstKeeps⟩ := hFirst
  obtain ⟨second, hSecondDeeds, hSecondNone, hSecondKeeps⟩ := hSecond
  refine ⟨first ++ second, by rw [hSecondDeeds, hFirstDeeds, List.append_assoc], fun submission hMem => ?_, ?_⟩
  · obtain hMem | hMem := List.mem_append.mp hMem
    · exact hFirstNone submission hMem
    · exact hSecondNone submission hMem
  · rw [entriesOf_append]
    exact hFirstKeeps.append hSecondKeeps

end Adds

theorem ledger_registerWriteFailure (s : AgcAvcService K n) {index : UInt32} (h : index ≠ 0) :
    (s.registerWriteFailure index).ledger = s.ledger.record (.forgotten index) := by
  unfold ledger registerWriteFailure Ledger.record
  simp only [h, if_false, Ledger.mk.injEq, true_and, funext_iff, ← forall_and]
  intro other
  obtain rfl | hNe := eq_or_ne other index
  · simp
  · simp [AList.lookup_erase_ne hNe, Function.update_of_ne hNe]

theorem adds_fail (config : AgcAvcServiceConfig K n) (p : Progress K n) (index : UInt32) :
    Adds config p (p.fail index) := by
  refine ⟨[.failed index], rfl, by simp, ?_⟩
  obtain rfl | hNe := eq_or_ne index 0
  · exact Run.Leads.nil _
  · have hEntries : entriesOf config [(.failed index : Deed K n)] = [.forgotten index] := by
      simp [entriesOf, Deed.entries, hNe]
    change Keeps p.service.ledger _ (p.service.registerWriteFailure index).ledger
    rw [hEntries, ledger_registerWriteFailure _ hNe]
    exact Run.Leads.single trivial

theorem adds_resolve (config : AgcAvcServiceConfig K n) (p : Progress K n) {index : UInt32}
    (h : index ∈ p.service.pendingWrites) : Adds config p (p.resolve index) := by
  refine ⟨[.resolved index], rfl, by simp, ?_⟩
  have hLedger : (p.resolve index).service.ledger = p.service.ledger.record (.settled index) := by
    unfold ledger Progress.resolve Ledger.record
    simp only [Ledger.mk.injEq, and_true]
    funext other
    obtain rfl | hNe := eq_or_ne other index
    · simp
    · simp [hNe]
  rw [hLedger]
  exact Run.Leads.single (decide_eq_true h)

variable (config : AgcAvcServiceConfig K n) (answers : TickAnswers K n)

theorem ledger_watchFeedback (s : AgcAvcService K n) (pending : PendingWriteObservation K n) (completedAt : Int) :
    (watchFeedback config answers s pending completedAt).ledger = s.ledger := by
  unfold watchFeedback
  split <;> rfl

theorem pendingWrites_watchFeedback (s : AgcAvcService K n) (pending : PendingWriteObservation K n)
    (completedAt : Int) : (watchFeedback config answers s pending completedAt).pendingWrites = s.pendingWrites := by
  unfold watchFeedback
  split <;> rfl

theorem adds_observeWrite (p : Progress K n) (entry : Sigma fun _ : UInt32 => PendingWriteObservation K n)
    (h : entry.1 ∈ p.service.pendingWrites) : Adds config p (observeWrite config answers p entry) := by
  unfold observeWrite
  split
  case h_1 result _ =>
    split
    · have hWatched : Adds config p { p with
          service := watchFeedback config answers p.service entry.2 result.completedAt, successObserved := true } :=
        Adds.same rfl (ledger_watchFeedback config answers _ _ _)
      refine hWatched.trans (adds_resolve config _ ?_)
      change entry.1 ∈ (watchFeedback config answers p.service entry.2 result.completedAt).pendingWrites
      rwa [pendingWrites_watchFeedback]
    · exact (adds_fail config p entry.1).trans (adds_resolve config _ h)
  case h_2 =>
    split
    · exact (adds_fail config p entry.1).trans (adds_resolve config _ h)
    · exact Adds.same rfl rfl

theorem pendingWrites_observeWrite (p : Progress K n) (entry : Sigma fun _ : UInt32 => PendingWriteObservation K n)
    {index : UInt32} (hNe : index ≠ entry.1) (h : index ∈ p.service.pendingWrites) :
    index ∈ (observeWrite config answers p entry).service.pendingWrites := by
  unfold observeWrite
  split
  · split
    · change index ∈ (watchFeedback config answers p.service entry.2 _).pendingWrites.erase entry.1
      rw [pendingWrites_watchFeedback]
      exact AList.mem_erase.mpr ⟨hNe, h⟩
    · exact AList.mem_erase.mpr ⟨hNe, h⟩
  · split
    · exact AList.mem_erase.mpr ⟨hNe, h⟩
    · exact h

theorem adds_foldl_observeWrite (entries : List (Sigma fun _ : UInt32 => PendingWriteObservation K n))
    (hNodup : (entries.map (·.1)).Nodup) (p : Progress K n)
    (hMem : ∀ entry ∈ entries, entry.1 ∈ p.service.pendingWrites) :
    Adds config p (entries.foldl (observeWrite config answers) p) := by
  induction entries generalizing p with
  | nil => exact Adds.same rfl rfl
  | cons entry entries ih =>
    rw [List.map_cons, List.nodup_cons] at hNodup
    refine (adds_observeWrite config answers p entry (hMem entry List.mem_cons_self)).trans ?_
    apply ih hNodup.2
    intro later hLater
    apply pendingWrites_observeWrite config answers p entry
    · intro hEq
      exact hNodup.1 (hEq ▸ List.mem_map_of_mem hLater)
    · exact hMem later (List.mem_cons_of_mem _ hLater)

variable [Field K] [LinearOrder K]

theorem adds_observeFeedback (pcs : List (AgcAvcPcsRuntimeInput K)) (p : Progress K n)
    (item : PendingFeedbackObservation K n) : Adds config p (observeFeedback config answers pcs p item) := by
  unfold observeFeedback
  split
  · exact Adds.same rfl rfl
  split
  · exact Adds.same rfl rfl
  split
  · exact adds_fail config p _
  · exact Adds.same rfl rfl

theorem adds_processWriteResults (s : AgcAvcService K n) (pcs : List (AgcAvcPcsRuntimeInput K)) :
    Adds config ⟨s, [], false⟩ (processWriteResults config answers s pcs) := by
  have hPerm := answers.walk_perm s.pendingWrites
  have hNodup : ((answers.walk s.pendingWrites).map (·.1)).Nodup :=
    (hPerm.map _).nodup_iff.mpr s.pendingWrites.keys_nodup
  have hMem : ∀ entry ∈ answers.walk s.pendingWrites, entry.1 ∈ s.pendingWrites :=
    fun entry hEntry => List.mem_keys_of_mem (hPerm.subset hEntry)
  have hWrites : Adds config ⟨s, [], false⟩ (observeWrites config answers s) :=
    adds_foldl_observeWrite config answers _ hNodup ⟨s, [], false⟩ hMem
  have hFeedbacks : Adds config ⟨s, [], false⟩
      (observeFeedbacks config answers pcs (observeWrites config answers s)) := by
    refine hWrites.trans (List.foldlRecOn _ _ (Adds.same rfl rfl) fun p hBefore item _ => ?_)
    exact hBefore.trans (adds_observeFeedback config answers pcs p item)
  unfold processWriteResults
  dsimp only
  split
  · exact hFeedbacks.trans (Adds.same rfl rfl)
  · exact hFeedbacks

def Submits (before after : Submitting K n) : Prop :=
  ∃ made, after.submissions = before.submissions ++ made ∧ (∀ submission ∈ made, submission.ts = answers.nowMs) ∧
    Keeps before.service.ledger (entriesOf config (made.map .submitted)) after.service.ledger

namespace Submits

variable {config answers} {p q r : Submitting K n}

omit [Field K] [LinearOrder K] in
theorem refl (p : Submitting K n) : Submits config answers p p :=
  ⟨[], (List.append_nil _).symm, fun _ h => absurd h List.not_mem_nil, Run.Leads.nil _⟩

omit [Field K] [LinearOrder K] in
theorem trans (hFirst : Submits config answers p q) (hSecond : Submits config answers q r) :
    Submits config answers p r := by
  obtain ⟨first, hFirstMade, hFirstTime, hFirstKeeps⟩ := hFirst
  obtain ⟨second, hSecondMade, hSecondTime, hSecondKeeps⟩ := hSecond
  refine ⟨first ++ second, by rw [hSecondMade, hFirstMade, List.append_assoc], ?_, ?_⟩
  · intro submission hMem
    obtain hMem | hMem := List.mem_append.mp hMem
    · exact hFirstTime submission hMem
    · exact hSecondTime submission hMem
  · rw [List.map_append, entriesOf_append]
    exact hFirstKeeps.append hSecondKeeps

end Submits

omit [Field K] [LinearOrder K] in
theorem ledger_accepted (s : AgcAvcService K n) (index : UInt32) (value : K) (nowMs : Int)
    (observation : PendingWriteObservation K n) (spacing : Int) :
    ledger { s with
        lastSubmittedValue := s.lastSubmittedValue.insert index value
        lastSubmittedAtMs := s.lastSubmittedAtMs.insert index nowMs
        pendingWrites := s.pendingWrites.insert index observation } =
      s.ledger.record (.issued index nowMs spacing value) := by
  unfold ledger Ledger.record
  simp only [Ledger.mk.injEq, funext_iff, ← forall_and]
  intro other
  obtain rfl | hNe := eq_or_ne other index
  · simp
  · simp [hNe, AList.lookup_insert_ne hNe]

theorem submits_target (commandSequence : Int) (setpoint : Setpoint K n) (p : Submitting K n)
    (target : AgcAvcPointRefConfig) :
    Submits config answers p (submitTarget config answers commandSequence setpoint p target) := by
  unfold submitTarget
  split
  · exact Submits.refl p
  case isFalse hTaken =>
    simp only [skipsTarget, Bool.or_eq_true, decide_eq_true_eq, not_or] at hTaken
    refine ⟨_, rfl, fun submission hMem => by rw [List.mem_singleton.mp hMem], ?_⟩
    dsimp only
    cases answers.accepts p.submissions.length with
    | false => exact Run.Leads.nil _
    | true =>
      rw [if_pos rfl, ledger_accepted p.service target.index _ _ _
        (config.interval setpoint.pcsIndex)]
      refine Run.Leads.single ⟨decide_eq_false hTaken.1.1.2, fun last hLast => ?_⟩
      have hInterval := hTaken.2
      rw [show p.service.lastSubmittedAtMs.lookup target.index = some last from hLast] at hInterval
      change (config.units setpoint.pcsIndex).minWriteIntervalMs ≤ answers.nowMs - last
      simpa using hInterval

theorem submits_assignments (s : AgcAvcService K n) (output : AgcAvcCycleOutput K n) :
    Submits config answers ⟨s, []⟩ (submitAssignments config answers s output) := by
  unfold submitAssignments
  split
  · exact Submits.refl _
  · refine List.foldlRecOn _ _ (Submits.refl _) fun p hBefore setpoint _ => hBefore.trans ?_
    refine List.foldlRecOn _ _ (Submits.refl _) fun q hInner target _ => hInner.trans ?_
    exact submits_target config answers output.commandSequence setpoint q target

section Tick

variable [FloorRing K] (math : CMath K)

/-- A tick submits only with the ownership it has just been granted. -/
theorem submitting_cases (s : AgcAvcService K n) :
    s.submitting config answers math = ⟨s.readied config answers math, []⟩ ∨
      (s.needsOwnership config answers math && answers.acquires) = true ∧
        (s.tickOutput config answers math).state ≠ .pausedByPriority ∧
        Submits config answers ⟨s.readied config answers math, []⟩ (s.submitting config answers math) := by
  unfold submitting
  dsimp only
  split
  case isTrue h =>
    simp only [Bool.and_eq_true, decide_eq_true_eq] at h
    exact Or.inr ⟨Bool.and_eq_true _ _ ▸ h.1.2, h.2, submits_assignments config answers _ _⟩
  case isFalse => exact Or.inl rfl

theorem tick_keeps (s : AgcAvcService K n) :
    Keeps s.ledger (entriesOf config (s.tick config answers math).deeds)
      (s.tick config answers math).service.ledger := by
  obtain ⟨deeds, hDeeds, -, hResults⟩ := adds_processWriteResults config answers s (s.input config answers).pcs
  change (s.results config answers).deeds = [] ++ deeds at hDeeds
  change Keeps s.ledger (entriesOf config ((s.results config answers).deeds ++
    (s.submitting config answers math).submissions.map .submitted)) (s.submitting config answers math).service.ledger
  rw [entriesOf_append, hDeeds]
  refine hResults.append ?_
  obtain hNone | ⟨-, -, made, hMade, -, hKeeps⟩ := submitting_cases config answers math s
  · rw [hNone]
    exact Run.Leads.nil _
  · rw [hMade]
    exact hKeeps

theorem tick_submitted (s : AgcAvcService K n) {submission : Submission K n}
    (h : .submitted submission ∈ (s.tick config answers math).deeds) :
    submission.ts = answers.nowMs ∧ (s.tick config answers math).acquired ∧
      (s.tick config answers math).output.state ≠ .pausedByPriority := by
  obtain ⟨deeds, hDeeds, hNoneSubmitted, -⟩ :=
    adds_processWriteResults config answers s (s.input config answers).pcs
  change (s.results config answers).deeds = [] ++ deeds at hDeeds
  change _ ∈ (s.results config answers).deeds ++ (s.submitting config answers math).submissions.map .submitted at h
  rw [hDeeds] at h
  have hMem := (List.mem_append.mp h).resolve_left (hNoneSubmitted submission)
  obtain hNone | ⟨hAcquired, hState, made, hMade, hTime, -⟩ := submitting_cases config answers math s
  · rw [hNone] at hMem
    exact absurd hMem List.not_mem_nil
  · rw [hMade] at hMem
    obtain ⟨other, hOther, hEq⟩ := List.mem_map.mp hMem
    obtain rfl := Deed.submitted.inj hEq
    exact ⟨hTime other hOther, hAcquired, hState⟩

end Tick

section Whole

variable [FloorRing K] (math : CMath K)

def next (s : AgcAvcService K n) (answers : TickAnswers K n) : AgcAvcService K n :=
  (s.tick config answers math).service

def deedsOf (s : AgcAvcService K n) (run : List (TickAnswers K n)) : List (Deed K n) :=
  Run.trace (next config math) (fun s answers => (s.tick config answers math).deeds) s run

theorem run_keeps (s : AgcAvcService K n) (run : List (TickAnswers K n)) :
    Keeps s.ledger (entriesOf config (deedsOf config math s run)) (Run.after (next config math) s run).ledger := by
  refine Run.trace_invariant (next config math) _
    (fun after log => Keeps s.ledger (entriesOf config log) after.ledger) (Run.Leads.nil _) ?_ run
  intro after log answers hLog
  rw [entriesOf_append]
  exact hLog.append (tick_keeps config answers math after)

omit [Field K] [LinearOrder K] [FloorRing K] in
theorem issued_mem {deeds : List (Deed K n)} {key : UInt32} {time spacing : Int} {value : K}
    (h : .issued key time spacing value ∈ entriesOf config deeds) :
    ∃ submission, .submitted submission ∈ deeds ∧ submission.ts = time := by
  obtain ⟨deed, hDeed, hEntry⟩ := List.mem_flatMap.mp h
  cases deed with
  | resolved index => simp [Deed.entries] at hEntry
  | failed index =>
    simp only [Deed.entries] at hEntry
    split at hEntry <;> simp at hEntry
  | submitted submission =>
    simp only [Deed.entries] at hEntry
    split at hEntry
    · simp only [List.mem_singleton, Entry.issued.injEq] at hEntry
      exact ⟨submission, hDeed, hEntry.2.1.symm⟩
    · simp at hEntry

theorem submitted_mem (s : AgcAvcService K n) (run : List (TickAnswers K n)) {submission : Submission K n}
    (h : .submitted submission ∈ deedsOf config math s run) : ∃ answers ∈ run, submission.ts = answers.nowMs := by
  induction run generalizing s with
  | nil => exact absurd h List.not_mem_nil
  | cons answers run ih =>
    obtain h | h := List.mem_append.mp h
    · exact ⟨answers, List.mem_cons_self, (tick_submitted config answers math s h).1⟩
    · obtain ⟨later, hLater, hTime⟩ := ih _ h
      exact ⟨later, List.mem_cons_of_mem _ hLater, hTime⟩

theorem run_inOrder (s : AgcAvcService K n) (run : List (TickAnswers K n))
    (hClock : run.Pairwise fun a b => a.nowMs ≤ b.nowMs) : InOrder (entriesOf config (deedsOf config math s run)) := by
  induction run generalizing s with
  | nil => exact List.Pairwise.nil
  | cons answers run ih =>
    rw [List.pairwise_cons] at hClock
    change InOrder (entriesOf config ((s.tick config answers math).deeds ++ deedsOf config math _ run))
    rw [entriesOf_append]
    have hHere : ∀ key time spacing value,
        .issued key time spacing value ∈ entriesOf config (s.tick config answers math).deeds →
          time = answers.nowMs := by
      intro key time spacing value hMem
      obtain ⟨submission, hSubmission, rfl⟩ := issued_mem config hMem
      exact (tick_submitted config answers math s hSubmission).1
    refine List.pairwise_append.mpr ⟨?_, ih _ hClock.2, ?_⟩
    · refine List.Pairwise.imp_of_mem ?_ (List.pairwise_of_forall (R := fun _ _ => True) fun _ _ => trivial)
      rintro _ _ hFirst hSecond - key time spacing value key' time' spacing' value' rfl rfl
      rw [hHere _ _ _ _ hFirst, hHere _ _ _ _ hSecond]
    · rintro _ hFirst _ hSecond key time spacing value key' time' spacing' value' rfl rfl
      obtain ⟨submission, hSubmission, rfl⟩ := issued_mem config hSecond
      obtain ⟨later, hLater, hTime⟩ := submitted_mem config math _ run hSubmission
      rw [hHere _ _ _ _ hFirst, hTime]
      exact hClock.1 later hLater

end Whole

end AgcAvcService

def Deed.acceptedFor (index : UInt32) : Deed K n → Bool
  | .submitted submission => submission.accepted && submission.index == index
  | _ => false

def Deed.resolvedFor (index : UInt32) : Deed K n → Bool
  | .resolved other => other == index
  | _ => false

namespace AgcAvcService

variable (config : AgcAvcServiceConfig K n)

theorem countP_entriesOf {entry : Entry UInt32 K → Bool} {deed : Deed K n → Bool}
    (h : ∀ one, (Deed.entries config.interval one).countP entry = if deed one then 1 else 0) (deeds : List (Deed K n)) :
    (entriesOf config deeds).countP entry = deeds.countP deed := by
  induction deeds with
  | nil => rfl
  | cons one deeds ih =>
    change (Deed.entries config.interval one ++ entriesOf config deeds).countP _ = _
    rw [List.countP_append, ih, List.countP_cons, Nat.add_comm, h]

theorem countP_issued (index : UInt32) (deeds : List (Deed K n)) :
    (entriesOf config deeds).countP (isIssued index) = deeds.countP (Deed.acceptedFor index) := by
  apply countP_entriesOf
  intro deed
  cases deed with
  | resolved other => rfl
  | failed other =>
    simp only [Deed.entries, Deed.acceptedFor]
    split <;> rfl
  | submitted submission =>
    cases hAccepted : submission.accepted <;>
      simp [Deed.entries, Deed.acceptedFor, isIssued, hAccepted, List.countP_singleton]

theorem countP_settled (index : UInt32) (deeds : List (Deed K n)) :
    (entriesOf config deeds).countP (isSettled index) = deeds.countP (Deed.resolvedFor index) := by
  apply countP_entriesOf
  intro deed
  cases deed with
  | resolved other => simp [Deed.entries, Deed.resolvedFor, isSettled, List.countP_singleton]
  | failed other =>
    simp only [Deed.entries, Deed.resolvedFor]
    split <;> rfl
  | submitted submission =>
    simp only [Deed.entries, Deed.resolvedFor]
    split <;> rfl

theorem forgotten_mem {deeds : List (Deed K n)} {index : UInt32} (h : .forgotten index ∈ entriesOf config deeds) :
    .failed index ∈ deeds := by
  obtain ⟨deed, hDeed, hEntry⟩ := List.mem_flatMap.mp h
  cases deed with
  | resolved other => simp [Deed.entries] at hEntry
  | failed other =>
    simp only [Deed.entries] at hEntry
    split at hEntry
    · simp at hEntry
    · obtain rfl := Entry.forgotten.inj (List.mem_singleton.mp hEntry)
      exact hDeed
  | submitted submission =>
    simp only [Deed.entries] at hEntry
    split at hEntry <;> simp at hEntry

variable [Field K] [LinearOrder K] [FloorRing K] (math : CMath K)

/-- Every submission is made under the ownership of its tick, a target has one write out and keeps its
    interval unless a failure came. -/
theorem write_discipline (run : List (TickAnswers K n)) (hClock : run.Pairwise fun a b => a.nowMs ≤ b.nowMs) :
    (∀ done answers, done ++ [answers] <+: run →
      let result := (Run.after (next config math) fresh done).tick config answers math
      ∀ submission, .submitted submission ∈ result.deeds →
        submission.ts = answers.nowMs ∧ result.acquired ∧ result.output.state ≠ .pausedByPriority) ∧
    (∀ index past, past <+: deedsOf config math fresh run →
      past.countP (Deed.acceptedFor index) ≤ past.countP (Deed.resolvedFor index) + 1) ∧
    ∀ before first between second after,
      deedsOf config math fresh run = before ++ .submitted first :: (between ++ .submitted second :: after) →
      first.accepted → second.accepted → first.index = second.index → .failed first.index ∉ between →
        (config.units second.pcsIndex).minWriteIntervalMs ≤ second.ts - first.ts := by
  have hKeeps : Keeps Ledger.empty (entriesOf config (deedsOf config math fresh run)) _ := run_keeps config math fresh run
  refine ⟨fun done answers _ submission hMem => tick_submitted config answers math _ hMem, ?_, ?_⟩
  · rintro index past ⟨rest, hRest⟩
    have hPrefix : entriesOf config past <+: entriesOf config (deedsOf config math fresh run) := by
      rw [← hRest, entriesOf_append]
      exact List.prefix_append _ _
    rw [← countP_issued config, ← countP_settled config]
    exact one_out index hKeeps _ hPrefix
  · intro before first between second after hSplit hFirst hSecond hIndex hKept
    have hIssued : ∀ (submission : Submission K n) (later : List (Deed K n)), submission.accepted →
        entriesOf config (.submitted submission :: later) =
          .issued submission.index submission.ts (config.interval submission.pcsIndex) submission.value ::
            entriesOf config later := by
      intro submission later hAccepted
      simp [entriesOf, Deed.entries, hAccepted]
    have hEntries := congrArg (entriesOf config) hSplit
    rw [entriesOf_append, hIssued first _ hFirst, entriesOf_append, hIssued second _ hSecond, ← hIndex] at hEntries
    exact spaced hKeeps (run_inOrder config math fresh run hClock) hEntries fun hMem => hKept (forgotten_mem config hMem)

end AgcAvcService

section Sample

open AgcAvcController AgcAvcService

def unusedRef : AgcAvcPointRefConfig := ⟨0, false, ""⟩

def sampleUnit (online target : AgcAvcPointRefConfig) : AgcAvcPcsServiceConfig ℝ where
  points :=
    { online := online
      ready := plainRef 22
      soc := plainRef 23
      actualP := unusedRef
      actualQ := unusedRef
      chargeAllowed := unusedRef
      dischargeAllowed := unusedRef
      availableChargeKw := unusedRef
      availableDischargeKw := unusedRef
      dynamicReactiveLimitKvar := unusedRef
      temperature := unusedRef
      acCurrent := []
      ratedActiveSource := unusedRef
      ratedApparentSource := unusedRef
      activeTargets := [target]
      reactiveTargets := [] }
  ratedPercent := false
  writeDeadbandKw := 0
  writeDeadbandKvar := 0
  minWriteIntervalMs := 200
  feedbackTimeoutMs := 0
  feedbackToleranceKw := 2
  feedbackToleranceKvar := 2

noncomputable def sampleService : AgcAvcServiceConfig ℝ 2 where
  controller := slowFallStation 2
  units := ![sampleUnit (plainRef 21) (plainRef 40), sampleUnit unusedRef (plainRef 41)]
  shadowMode := false
  submitWrites := true
  inputMaxAgeMs := 1500
  writeResultTimeoutMs := 5000
  maxConsecutiveWriteFailures := 1
  remoteEnable := unusedRef
  emergencyStop := unusedRef
  fireAlarm := unusedRef
  target := plainRef 4
  commandSequence := plainRef 5
  commandTimestamp := plainRef 6
  pccActivePower := unusedRef
  frequency := unusedRef
  mode := unusedRef
  targetQ := unusedRef
  targetVoltage := unusedRef
  targetPowerFactor := unusedRef
  pccReactivePower := unusedRef
  pccVoltage := unusedRef
  pccPowerFactor := unusedRef

def sampleValues : Snapshot ℝ := fun index =>
  (if index = 4 then some 100 else if index = 5 then some 1 else if index = 6 then some 1000
    else if index = 21 then some 1 else if index = 22 then some 1 else if index = 23 then some 50 else none).map
    fun value => ⟨some value, 1, 1000, false⟩

noncomputable def sampleTick (nowMs : Int) (result : Option WritebackResult) : TickAnswers ℝ 2 where
  nowMs := nowMs
  values := sampleValues
  sequencePoint := sampleValues 5
  priorityBlocked := false
  acquires := true
  readWriteResult := fun _ => result
  walk := fun pending => pending.entries
  walk_perm := fun _ => List.Perm.refl _
  accepts := fun _ => true

theorem llround_one : llround (1 : ℝ) = 1 := by
  simpa using llround_intCast (K := ℝ) 1

theorem llround_thousand : llround (1000 : ℝ) = 1000 := by
  simpa using llround_intCast (K := ℝ) 1000

theorem observed_sample : sampleService.observedCommand sampleValues 1000 = ⟨1, 1000, 100, 0, 0, 1, none⟩ := by
  simp [AgcAvcServiceConfig.observedCommand, readValue, pointValue, sampleService, plainRef, unusedRef, sampleValues,
    pointUsable, slowFallStation, llround_one, llround_thousand]

theorem stable_sample :
    sampleService.sequenceStable 1000 (sampleValues 5) ⟨1, 1000, 100, 0, 0, 1, none⟩ = true := by
  simp [AgcAvcServiceConfig.sequenceStable, sampleValues, pointUsable, llround_one, sampleService, slowFallStation]

section FirstTick

variable (result : Option WritebackResult)

theorem input_sample : (fresh : AgcAvcService ℝ 2).input sampleService (sampleTick 1000 result) = oneRunning := by
  simp only [AgcAvcService.input, AgcAvcService.latch, sampleTick, observed_sample, stable_sample]
  simp [latchCommand, fresh, AgcAvcServiceConfig.cycleInput, AgcAvcServiceConfig.stationHealth,
    AgcAvcServiceConfig.healthBefore, Health.checkAll, Health.check, readValue, pointValue, sampleService, plainRef,
    unusedRef, sampleValues, pointUsable, slowFallStation, oneRunning, dispatchCycle, List.finRange_succ,
    AgcAvcServiceConfig.unitInput, sampleUnit, runningUnit, readMaxAbsValue, slowFallUnit]
  norm_num

theorem results_sample :
    (fresh : AgcAvcService ℝ 2).results sampleService (sampleTick 1000 result) = ⟨fresh, [], false⟩ := by
  simp [results, processWriteResults, observeFeedbacks, observeWrites, sampleTick, fresh]

theorem controlled_sample :
    (fresh : AgcAvcService ℝ 2).controlled sampleService (sampleTick 1000 result) realMath =
      AgcAvcController.reset.controlStep realMath (slowFallStation 2) oneRunning := by
  have hChecked : (fresh : AgcAvcService ℝ 2).checkedInput sampleService (sampleTick 1000 result) = oneRunning := by
    rw [checkedInput, results_sample, input_sample]
    exact if_neg (by simp [fresh, sampleService])
  rw [controlled, hChecked]
  exact step_dispatch realMath _ 1000 _ (by decide) (by decide)

theorem needs_sample :
    (fresh : AgcAvcService ℝ 2).needsOwnership sampleService (sampleTick 1000 result) realMath = true := by
  rw [needsOwnership, controlled_sample]
  obtain hState | hState :=
    controlStep_runs realMath (slowFallStation 2) AgcAvcController.reset (oneRunning : AgcAvcCycleInput ℝ)
  · rw [hState]
    rfl
  · rw [hState]
    rfl

theorem output_sample :
    (fresh : AgcAvcService ℝ 2).tickOutput sampleService (sampleTick 1000 result) realMath =
      (AgcAvcController.reset.controlStep realMath (slowFallStation 2) oneRunning).2 := by
  rw [tickOutput, needs_sample, controlled_sample]
  rfl

theorem readied_sample :
    (fresh : AgcAvcService ℝ 2).readied sampleService (sampleTick 1000 result) realMath =
      { (fresh : AgcAvcService ℝ 2) with
        controller := (AgcAvcController.reset.controlStep realMath (slowFallStation 2) oneRunning).1
        latchedCommand := (fresh : AgcAvcService ℝ 2).latch sampleService (sampleTick 1000 result)
        ownershipHeld := true } := by
  rw [readied, results_sample, controlled_sample, needs_sample]
  rfl

theorem submitting_sample :
    (fresh : AgcAvcService ℝ 2).submitting sampleService (sampleTick 1000 result) realMath =
      ⟨{ (fresh : AgcAvcService ℝ 2).readied sampleService (sampleTick 1000 result) realMath with
          lastSubmittedValue := AList.insert 40 100 ∅
          lastSubmittedAtMs := AList.insert 40 1000 ∅
          pendingWrites := AList.insert 40 ⟨makeCommandId 1 1000 40, 0, false, 100, 1000⟩ ∅ },
        [⟨makeCommandId 1 1000 40, 40, 100, 1000, 0, true⟩]⟩ := by
  have hState : (AgcAvcController.reset.controlStep realMath (slowFallStation 2)
      (oneRunning : AgcAvcCycleInput ℝ)).2.state ≠ .pausedByPriority := by
    obtain h | h :=
      controlStep_runs realMath (slowFallStation 2) AgcAvcController.reset (oneRunning : AgcAvcCycleInput ℝ)
    · simp [h]
    · simp [h]
  have hPcs : (AgcAvcController.reset.controlStep realMath (slowFallStation 2)
      (oneRunning : AgcAvcCycleInput ℝ)).2.pcs =
        some (AgcAvcController.reset.assignment realMath (slowFallStation 2) oneRunning) := rfl
  have hSequence : (AgcAvcController.reset.controlStep realMath (slowFallStation 2)
      (oneRunning : AgcAvcCycleInput ℝ)).2.commandSequence = 1 := rfl
  have hTarget : (AgcAvcController.reset.assignment realMath (slowFallStation 2)
      (oneRunning : AgcAvcCycleInput ℝ) 0).targetPkw = 100 := by
    simp [assignment, target_oneRunning]
  have hOnline : (AgcAvcController.reset.assignment realMath (slowFallStation 2)
      (oneRunning : AgcAvcCycleInput ℝ) 0).available = true := by
    simp [assignment, capability_oneRunning]
  have hOffline : (AgcAvcController.reset.assignment realMath (slowFallStation 2)
      (oneRunning : AgcAvcCycleInput ℝ) 1).available = false := by
    simp [assignment, capability_oneRunning]
  rw [submitting, output_sample, readied_sample]
  dsimp only
  rw [if_pos (by simp [sampleService, hState]), submitAssignments, hPcs]
  simp [List.finRange_succ, setpoints, hOnline, hOffline, hTarget, hSequence, sampleService, sampleUnit, submitTarget,
    skipsTarget, plainRef, fresh, Setpoint.value, sampleTick]

theorem deeds_sample :
    ((fresh : AgcAvcService ℝ 2).tick sampleService (sampleTick 1000 result) realMath).deeds =
      [.submitted ⟨makeCommandId 1 1000 40, 40, 100, 1000, 0, true⟩] := by
  rw [tick, results_sample, submitting_sample]
  rfl

end FirstTick

theorem first_command_disciplined :
    .submitted ⟨makeCommandId 1 1000 40, 40, 100, 1000, 0, true⟩ ∈
        ((fresh : AgcAvcService ℝ 2).tick sampleService (sampleTick 1000 none) realMath).deeds ∧
      ((fresh : AgcAvcService ℝ 2).tick sampleService (sampleTick 1000 none) realMath).acquired ∧
      ∀ index past, past <+: deedsOf sampleService realMath fresh [sampleTick 1000 none, sampleTick 1100 none] →
        past.countP (Deed.acceptedFor index) ≤ past.countP (Deed.resolvedFor index) + 1 := by
  have hClock : [sampleTick 1000 none, sampleTick 1100 none].Pairwise fun a b => a.nowMs ≤ b.nowMs := by
    simp [sampleTick]
  obtain ⟨hOwned, hOne, -⟩ := write_discipline sampleService realMath _ hClock
  have hMem : .submitted ⟨makeCommandId 1 1000 40, 40, 100, 1000, 0, true⟩ ∈
      ((fresh : AgcAvcService ℝ 2).tick sampleService (sampleTick 1000 none) realMath).deeds := by
    rw [deeds_sample]
    exact List.mem_singleton_self _
  exact ⟨hMem, (hOwned [] (sampleTick 1000 none) (by simp) _ hMem).2.1, hOne⟩

end Sample

end EdgeGateway.AgcAvc
