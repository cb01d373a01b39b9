import EdgeGateway.AgcAvc.Bounds

/-! # The division of a total among units -/

namespace EdgeGateway.AgcAvc

universe u

variable {K : Type u} [Field K] [LinearOrder K] [IsStrictOrderedRing K] {n : Nat}

section Rounds

variable (capacities weights : Fin n → K)

/-- Between the rounds: who takes part has weight and room, who does not is full. -/
structure Share.Filling (total : K) (s : Share K n) : Prop extends s.Fair capacities weights total where
  conserved : ∑ i, s.result i + s.remaining = total
  weighty : ∀ i, s.active i → 1 / 10 ^ 12 < weights i
  roomy : ∀ i, s.active i → 1 / 10 ^ 9 < s.room capacities i
  filled : ∀ i, s.active i = false → 0 < weights i → capacities i - 1 / 10 ^ 9 ≤ s.result i
  unweighted : ∀ i, weights i ≤ 0 → s.result i = 0

namespace Share

/-- One round of `allocateLoop` that is not the last. -/
def round (s : Share K n) : Share K n where
  result := fun i => s.result i + s.applied capacities weights i
  active := fun i => s.active i && !decide (s.room capacities i - s.applied capacities weights i ≤ 1 / 10 ^ 9)
  remaining := s.remaining - ∑ i, s.applied capacities weights i

def activeCount (s : Share K n) : Nat := (Finset.univ.filter fun i => s.active i = true).card

variable {capacities weights} {total : K} {s : Share K n}

omit [Field K] [LinearOrder K] [IsStrictOrderedRing K] in
theorem activeCount_le (s : Share K n) : s.activeCount ≤ n := by
  have h := Finset.card_filter_le Finset.univ fun i => s.active i = true
  rwa [Finset.card_univ, Fintype.card_fin] at h

theorem Filling.weight_le (h : s.Filling capacities weights total) (i : Fin n) (hActive : s.active i = true) :
    weights i ≤ s.weightSum weights := by
  have hTerm : ∀ j ∈ Finset.univ, 0 ≤ if s.active j then weights j else 0 := by
    intro j _
    split
    case isTrue hj => exact (h.weighted j hj).le
    case isFalse => exact le_rfl
  have hSum := Finset.single_le_sum hTerm (Finset.mem_univ i)
  rwa [if_pos hActive] at hSum

theorem Filling.inactive (h : s.Filling capacities weights total) (hWeight : s.weightSum weights ≤ 1 / 10 ^ 12)
    (i : Fin n) : s.active i = false := by
  rw [← Bool.not_eq_true]
  intro hActive
  exact absurd ((h.weighty i hActive).trans_le (h.weight_le i hActive)) (not_lt.mpr hWeight)

omit [IsStrictOrderedRing K] in
theorem Filling.applied_unweighted (h : s.Filling capacities weights total) {i : Fin n} (hWeight : weights i ≤ 0) :
    s.applied capacities weights i = 0 := by
  rw [applied, if_neg]
  intro hActive
  exact absurd (h.weighted i hActive) (not_lt.mpr hWeight)

theorem room_round (hApplied : 1 / 10 ^ 9 < s.room capacities i - s.applied capacities weights i)
    (hNonneg : 0 ≤ s.applied capacities weights i) :
    (s.round capacities weights).room capacities i = s.room capacities i - s.applied capacities weights i := by
  have hTolerance : (0 : K) < 1 / 10 ^ 9 := by positivity
  have hRoom : s.room capacities i = capacities i - s.result i := by
    rw [room]
    apply max_eq_right
    by_contra hFull
    rw [room, max_eq_left (not_le.mp hFull).le] at hApplied
    linarith
  rw [room, round, hRoom, sub_add_eq_sub_sub]
  rw [hRoom] at hApplied
  exact max_eq_right (by linarith)

theorem Filling.round (h : s.Filling capacities weights total) (hWeight : 0 < s.weightSum weights) :
    (s.round capacities weights).Filling capacities weights total := by
  have hTolerance : (0 : K) < 1 / 10 ^ 9 := by positivity
  have hNonneg := h.applied_nonneg hWeight
  have hSum := applied_sum_le capacities hWeight
  have hSplit : ∑ i, (s.result i + s.applied capacities weights i) =
      ∑ i, s.result i + ∑ i, s.applied capacities weights i := Finset.sum_add_distrib
  have hConserved : ∑ i, (s.round capacities weights).result i + (s.round capacities weights).remaining = total := by
    rw [Share.round]
    dsimp only
    linarith [h.conserved]
  have hActive : ∀ i, (s.round capacities weights).active i = true →
      s.active i = true ∧ 1 / 10 ^ 9 < s.room capacities i - s.applied capacities weights i := by
    intro i hi
    obtain ⟨hi, hRoom⟩ := Bool.and_eq_true _ _ ▸ hi
    exact ⟨hi, not_le.mp (of_decide_eq_false (Bool.not_eq_true' _ ▸ hRoom))⟩
  refine ⟨⟨fun i => add_nonneg (h.nonneg i) (hNonneg i), h.result_add_applied_le, ?_, hConserved.le, ?_⟩,
    hConserved, ?_, ?_, ?_, ?_⟩
  · exact fun i hi => h.weighted i (hActive i hi).1
  · exact sub_nonneg.mpr hSum
  · exact fun i hi => h.weighty i (hActive i hi).1
  · intro i hi
    rw [room_round (hActive i hi).2 (hNonneg i)]
    exact (hActive i hi).2
  · intro i hi hPositive
    change capacities i - 1 / 10 ^ 9 ≤ s.result i + s.applied capacities weights i
    cases hWas : s.active i with
    | false => linarith [h.filled i hWas hPositive, hNonneg i]
    | true =>
      have hFull : s.room capacities i - s.applied capacities weights i ≤ 1 / 10 ^ 9 := by
        by_contra hOpen
        rw [Share.round] at hi
        simp only [hWas, hOpen, decide_false, Bool.not_false, Bool.and_self] at hi
        cases hi
      have hRoom : capacities i - s.result i ≤ s.room capacities i := le_max_right 0 _
      linarith
  · intro i hi
    change s.result i + s.applied capacities weights i = 0
    rw [h.unweighted i hi, h.applied_unweighted hi, add_zero]

theorem applied_cases (capacities weights : Fin n → K) (s : Share K n) :
    (∃ i, s.active i = true ∧ s.applied capacities weights i = s.room capacities i) ∨
      ∀ i, s.applied capacities weights i =
        s.remaining / s.weightSum weights * (if s.active i then weights i else 0) := by
  by_cases hFull : ∃ i, s.active i = true ∧ s.room capacities i ≤ s.remaining * weights i / s.weightSum weights
  · obtain ⟨i, hActive, hRoom⟩ := hFull
    refine Or.inl ⟨i, hActive, ?_⟩
    rw [applied, if_pos hActive, min_eq_left hRoom]
  · refine Or.inr fun i => ?_
    rw [applied]
    split
    case isTrue hActive =>
      have hShare := lt_of_not_ge fun hRoom => hFull ⟨i, hActive, hRoom⟩
      rw [min_eq_right hShare.le]
      ring
    case isFalse => rw [mul_zero]

omit [IsStrictOrderedRing K] in
theorem applied_sum_eq (hWeight : 0 < s.weightSum weights)
    (hFree : ∀ i, s.applied capacities weights i =
      s.remaining / s.weightSum weights * (if s.active i then weights i else 0)) :
    ∑ i, s.applied capacities weights i = s.remaining := by
  calc
    ∑ i, s.applied capacities weights i
        = s.remaining / s.weightSum weights * s.weightSum weights := by
          rw [weightSum, Finset.mul_sum]
          exact Finset.sum_congr rfl fun i _ => hFree i
    _ = s.remaining := div_mul_cancel₀ s.remaining hWeight.ne'

theorem Filling.distributed_gt (h : s.Filling capacities weights total) (hWeight : 0 < s.weightSum weights)
    (hRemaining : 1 / 10 ^ 9 < s.remaining) : 1 / 10 ^ 9 < ∑ i, s.applied capacities weights i := by
  obtain ⟨i, hActive, hRoom⟩ | hFree := applied_cases capacities weights s
  · calc
      1 / 10 ^ 9 < s.room capacities i := h.roomy i hActive
      _ = s.applied capacities weights i := hRoom.symm
      _ ≤ ∑ j, s.applied capacities weights j :=
        Finset.single_le_sum (fun j _ => h.applied_nonneg hWeight j) (Finset.mem_univ i)
  · rwa [applied_sum_eq hWeight hFree]

theorem round_progress (hWeight : 0 < s.weightSum weights) :
    (s.round capacities weights).remaining = 0 ∨ (s.round capacities weights).activeCount < s.activeCount := by
  obtain ⟨i, hActive, hRoom⟩ | hFree := applied_cases capacities weights s
  · right
    apply Finset.card_lt_card
    constructor
    · intro j hj
      rw [Finset.mem_filter] at hj ⊢
      exact ⟨hj.1, (Bool.and_eq_true _ _ ▸ hj.2).1⟩
    · intro hSubset
      have hStill := (Finset.mem_filter.mp (hSubset (Finset.mem_filter.mpr ⟨Finset.mem_univ i, hActive⟩))).2
      have hOpen := (Bool.and_eq_true _ _ ▸ hStill).2
      rw [hRoom, sub_self] at hOpen
      have hTolerance : (0 : K) ≤ 1 / 10 ^ 9 := by positivity
      simp only [hTolerance, decide_true, Bool.not_true] at hOpen
      cases hOpen
  · left
    rw [round, applied_sum_eq hWeight hFree]
    exact sub_self s.remaining

end Share

omit [IsStrictOrderedRing K] in
theorem allocateLoop_done {s : Share K n} (h : s.remaining ≤ 1 / 10 ^ 9) (pass : Nat) :
    allocateLoop capacities weights pass s = s := by
  cases pass with
  | zero => rfl
  | succ pass => rw [allocateLoop, if_pos h]

omit [IsStrictOrderedRing K] in
theorem allocateLoop_round {s : Share K n} (hRemaining : 1 / 10 ^ 9 < s.remaining)
    (hWeight : 1 / 10 ^ 12 < s.weightSum weights) (hGiven : 1 / 10 ^ 9 < ∑ i, s.applied capacities weights i)
    (pass : Nat) :
    allocateLoop capacities weights (pass + 1) s = allocateLoop capacities weights pass (s.round capacities weights) := by
  rw [allocateLoop, if_neg (not_le.mpr hRemaining), if_neg (not_le.mpr hWeight)]
  dsimp only
  rw [if_neg (not_le.mpr hGiven)]
  rfl

variable {capacities weights} in
/-- More rounds than units taking part are enough: at the end all is given out or all are full. -/
theorem allocateLoop_filling {total : K} (pass : Nat) (s : Share K n) (h : s.Filling capacities weights total)
    (hPass : s.activeCount < pass) :
    (allocateLoop capacities weights pass s).Filling capacities weights total ∧
      ((allocateLoop capacities weights pass s).remaining ≤ 1 / 10 ^ 9 ∨
        ∀ i, (allocateLoop capacities weights pass s).active i = false) := by
  induction pass generalizing s with
  | zero => omega
  | succ pass ih =>
    by_cases hRemaining : s.remaining ≤ 1 / 10 ^ 9
    · rw [allocateLoop_done capacities weights hRemaining]
      exact ⟨h, Or.inl hRemaining⟩
    by_cases hWeight : s.weightSum weights ≤ 1 / 10 ^ 12
    · rw [allocateLoop, if_neg hRemaining, if_pos hWeight]
      exact ⟨h, Or.inr (h.inactive hWeight)⟩
    have hPositive : 0 < s.weightSum weights := lt_trans (by positivity) (not_le.mp hWeight)
    have hGiven := h.distributed_gt hPositive (not_le.mp hRemaining)
    rw [allocateLoop_round capacities weights (not_le.mp hRemaining) (not_le.mp hWeight) hGiven]
    have hNext := h.round hPositive
    obtain hDone | hFewer := @Share.round_progress K _ _ _ n capacities weights s hPositive
    · have hSmall : (s.round capacities weights).remaining ≤ 1 / 10 ^ 9 := by
        rw [hDone]
        positivity
      rw [allocateLoop_done capacities weights hSmall]
      exact ⟨hNext, Or.inl hSmall⟩
    · exact ih _ hNext (by omega)

/-- What a division keeps to: its bounds from above, and how much it gives out. -/
structure Allocated (total : K) (result : Fin n → K) : Prop extends Shares capacities total result where
  unweighted : ∀ i, weights i ≤ 0 → result i = 0
  sum_ge : min (|total| - 1 / 10 ^ 9)
      ((∑ i with 0 < weights i ∧ 0 < capacities i, capacities i) - n * (1 / 10 ^ 9)) ≤ ∑ i, |result i|

variable {capacities weights} in
theorem Share.Filling.sum_ge {total : K} {s : Share K n} (h : s.Filling capacities weights total)
    (hDone : s.remaining ≤ 1 / 10 ^ 9 ∨ ∀ i, s.active i = false) :
    min (total - 1 / 10 ^ 9) ((∑ i with 0 < weights i ∧ 0 < capacities i, capacities i) - n * (1 / 10 ^ 9)) ≤
      ∑ i, s.result i := by
  obtain hGiven | hFull := hDone
  · exact (min_le_left _ _).trans (by linarith [h.conserved])
  · refine (min_le_right _ _).trans ?_
    have hTolerance : (0 : K) ≤ 1 / 10 ^ 9 := by positivity
    have hUnits : ((Finset.univ.filter fun i => 0 < weights i ∧ 0 < capacities i).card : K) ≤ n := by
      have hCard := Finset.card_filter_le Finset.univ fun i => 0 < weights i ∧ 0 < capacities i
      rw [Finset.card_univ, Fintype.card_fin] at hCard
      exact Nat.cast_le.mpr hCard
    have hEach : ∑ i with 0 < weights i ∧ 0 < capacities i, capacities i ≤
        ∑ i with 0 < weights i ∧ 0 < capacities i, (s.result i + 1 / 10 ^ 9) := by
      apply Finset.sum_le_sum
      intro i hi
      have hFilled := h.filled i (hFull i) (Finset.mem_filter.mp hi).2.1
      linarith
    rw [Finset.sum_add_distrib, Finset.sum_const, nsmul_eq_mul] at hEach
    have hSome : ∑ i with 0 < weights i ∧ 0 < capacities i, s.result i ≤ ∑ i, s.result i :=
      Finset.sum_le_sum_of_subset_of_nonneg (Finset.filter_subset _ _) fun i _ _ => h.nonneg i
    linarith [mul_le_mul_of_nonneg_right hUnits hTolerance]

variable {capacities weights} in
theorem Share.Filling.start (hWeights : ∀ i, 0 < weights i → 1 / 10 ^ 12 < weights i) (total : K) :
    Share.Filling capacities weights |total|
      { result := fun _ => 0
        active := fun i => decide (capacities i > 1 / 10 ^ 9) && decide (weights i > 0)
        remaining := |total| } := by
  have hActive : ∀ i, (decide (capacities i > 1 / 10 ^ 9) && decide (weights i > 0)) = true →
      1 / 10 ^ 9 < capacities i ∧ 0 < weights i := by
    intro i hi
    obtain ⟨hCapacity, hWeight⟩ := Bool.and_eq_true _ _ ▸ hi
    exact ⟨of_decide_eq_true hCapacity, of_decide_eq_true hWeight⟩
  refine ⟨⟨fun _ => le_rfl, fun i => le_max_left 0 _, fun i hi => (hActive i hi).2, by simp, abs_nonneg total⟩,
    by simp, fun i hi => hWeights i (hActive i hi).2, ?_, ?_, fun _ _ => rfl⟩
  · intro i hi
    rw [Share.room, sub_zero]
    exact (hActive i hi).1.trans_le (le_max_right 0 _)
  · intro i hi hPositive
    have hSmall : ¬ capacities i > 1 / 10 ^ 9 := by
      intro hCapacity
      simp only [hCapacity, hPositive, decide_true, Bool.and_self] at hi
      cases hi
    exact sub_nonpos.mpr (not_lt.mp hSmall)

variable {capacities weights} in
theorem allocateByCapacity_allocated (hWeights : ∀ i, 0 < weights i → 1 / 10 ^ 12 < weights i) (total : K) :
    Allocated capacities weights total (allocateByCapacity capacities weights total) := by
  have hShares := allocateByCapacity_shares capacities weights total
  obtain ⟨hFilling, hDone⟩ := allocateLoop_filling (n + 1) _ (Share.Filling.start hWeights total)
    (Nat.lt_succ_of_le (Share.activeCount_le _))
  suffices h : (∀ i, weights i ≤ 0 → allocateByCapacity capacities weights total i = 0) ∧
      min (|total| - 1 / 10 ^ 9) ((∑ i with 0 < weights i ∧ 0 < capacities i, capacities i) - n * (1 / 10 ^ 9)) ≤
        ∑ i, |allocateByCapacity capacities weights total i| from ⟨hShares, h.1, h.2⟩
  rw [allocateByCapacity]
  split
  case isTrue hNothing =>
    refine ⟨fun _ _ => rfl, (min_le_left _ _).trans ?_⟩
    exact (sub_nonpos.mpr hNothing).trans (Finset.sum_nonneg fun i _ => abs_nonneg _)
  dsimp only
  split
  case isTrue =>
    refine ⟨fun i hi => neg_eq_zero.mpr (hFilling.unweighted i hi), (hFilling.sum_ge hDone).trans ?_⟩
    exact Finset.sum_le_sum fun i _ => (neg_le_abs _).trans' (neg_neg _).ge
  case isFalse =>
    refine ⟨hFilling.unweighted, (hFilling.sum_ge hDone).trans ?_⟩
    exact Finset.sum_le_sum fun i _ => le_abs_self _

end Rounds

section Minimum

variable (weights : Fin n → K) (total : K)

def minimumOf (minimums : List K) (i : Fin n) : K := minimums.getD i 0

def Below (result minimums : Fin n → K) (i : Fin n) : Prop :=
  1 / 10 ^ 9 < |result i| ∧ |result i| + 1 / 10 ^ 9 < max 0 (minimums i)

/-- What the loop of `allocateWithMinimum` returns from inside; `none` is the fallback after it. -/
def minimumLoopReturn (minimums : Fin n → K) : Nat → (Fin n → K) → Option (Fin n → K)
  | 0, _ => none
  | pass + 1, capacities =>
    let result := allocateByCapacity capacities weights total
    match belowMinimum result minimums with
    | none => some result
    | some i => minimumLoopReturn minimums pass (Function.update capacities i 0)

omit [IsStrictOrderedRing K] in
theorem minimumLoop_eq (minimums : Fin n → K) (pass : Nat) (capacities : Fin n → K) :
    minimumLoop weights total minimums pass capacities =
      (minimumLoopReturn weights total minimums pass capacities).getD fun _ => 0 := by
  induction pass generalizing capacities with
  | zero => rfl
  | succ pass ih =>
    rw [minimumLoop, minimumLoopReturn]
    cases belowMinimum (allocateByCapacity capacities weights total) minimums with
    | none => rfl
    | some i => exact ih (Function.update capacities i 0)

section Search

variable {result minimums : Fin n → K}

omit [IsStrictOrderedRing K] in
theorem belowMinimum_fold (units : List (Fin n)) (best : Option (Fin n))
    (hBest : ∀ i, best = some i → Below result minimums i) :
    let found := units.foldl (fun best i =>
      if |result i| > 1 / 10 ^ 9 ∧ |result i| + 1 / 10 ^ 9 < max 0 (minimums i) ∧
          best.all fun j => |result i| < |result j| then some i else best) best
    (∀ i, found = some i → Below result minimums i) ∧
      (found = none → best = none ∧ ∀ i ∈ units, ¬ Below result minimums i) := by
  induction units generalizing best with
  | nil =>
    refine ⟨hBest, fun h => ⟨h, fun i hi => ?_⟩⟩
    cases hi
  | cons head units ih =>
    dsimp only [List.foldl_cons]
    split
    case isTrue hBelow =>
      have hHead : ∀ i, some head = some i → Below result minimums i := by
        intro i hi
        cases hi
        exact ⟨hBelow.1, hBelow.2.1⟩
      refine ⟨(ih _ hHead).1, fun h => ?_⟩
      cases ((ih _ hHead).2 h).1
    case isFalse hNot =>
      refine ⟨(ih _ hBest).1, fun h => ?_⟩
      obtain ⟨hNone, hRest⟩ := (ih _ hBest).2 h
      refine ⟨hNone, fun i hi => ?_⟩
      obtain rfl | hi := List.mem_cons.mp hi
      · intro hBelow
        subst hNone
        exact hNot ⟨hBelow.1, hBelow.2, rfl⟩
      · exact hRest i hi

omit [IsStrictOrderedRing K] in
theorem belowMinimum_some {i : Fin n} (h : belowMinimum result minimums = some i) : Below result minimums i :=
  (belowMinimum_fold (List.finRange n) none fun _ hNone => nomatch hNone).1 i h

omit [IsStrictOrderedRing K] in
theorem belowMinimum_none (h : belowMinimum result minimums = none) (i : Fin n) : ¬ Below result minimums i :=
  ((belowMinimum_fold (List.finRange n) none fun _ hNone => nomatch hNone).2 h).2 i (List.mem_finRange i)

end Search

variable (capacities : Fin n → K)

/-- The capacities once the units in `dropped` are set to zero. -/
def keptCapacities (dropped : Finset (Fin n)) (i : Fin n) : K := if i ∈ dropped then 0 else capacities i

omit [LinearOrder K] [IsStrictOrderedRing K] in
theorem keptCapacities_insert (dropped : Finset (Fin n)) (i : Fin n) :
    Function.update (keptCapacities capacities dropped) i 0 = keptCapacities capacities (insert i dropped) := by
  funext j
  obtain rfl | hNe := eq_or_ne j i
  · rw [Function.update_self, keptCapacities, if_pos (Finset.mem_insert_self j dropped)]
  · rw [Function.update_of_ne hNe, keptCapacities, keptCapacities]
    simp only [Finset.mem_insert, hNe, false_or]

def DroppedFor (minimums : Fin n → K) (dropped : Finset (Fin n)) : Prop :=
  ∀ i ∈ dropped, ∃ before ⊆ dropped, i ∉ before ∧
    Below (allocateByCapacity (keptCapacities capacities before) weights total) minimums i

variable {capacities} in
theorem Below.notMem {dropped : Finset (Fin n)} {minimums : Fin n → K} {i : Fin n}
    (h : Below (allocateByCapacity (keptCapacities capacities dropped) weights total) minimums i) : i ∉ dropped := by
  intro hi
  have hCapped := (allocateByCapacity_shares (keptCapacities capacities dropped) weights total).capped i
  rw [keptCapacities, if_pos hi, max_self] at hCapped
  have hTolerance : (0 : K) ≤ 1 / 10 ^ 9 := by positivity
  exact absurd (h.1.trans_le hCapped) (not_lt.mpr hTolerance)

variable {capacities weights total} in
theorem DroppedFor.insert {minimums : Fin n → K} {dropped : Finset (Fin n)}
    (h : DroppedFor weights total capacities minimums dropped) {i : Fin n}
    (hi : Below (allocateByCapacity (keptCapacities capacities dropped) weights total) minimums i) :
    DroppedFor weights total capacities minimums (insert i dropped) := by
  intro j hj
  obtain rfl | hj := Finset.mem_insert.mp hj
  · exact ⟨dropped, Finset.subset_insert j dropped, hi.notMem, hi⟩
  · obtain ⟨before, hBefore, hNot, hBelow⟩ := h j hj
    exact ⟨before, hBefore.trans (Finset.subset_insert i dropped), hNot, hBelow⟩

variable {capacities weights total} in
/-- With more rounds than units left to drop, some round drops nobody and returns. -/
theorem minimumLoopReturn_kept (minimums : Fin n → K) (pass : Nat) (dropped : Finset (Fin n))
    (hPass : n < pass + dropped.card) (hDropped : DroppedFor weights total capacities minimums dropped) :
    ∃ last, DroppedFor weights total capacities minimums last ∧
      minimumLoopReturn weights total minimums pass (keptCapacities capacities dropped) =
        some (allocateByCapacity (keptCapacities capacities last) weights total) ∧
      ∀ i, ¬ Below (allocateByCapacity (keptCapacities capacities last) weights total) minimums i := by
  induction pass generalizing dropped with
  | zero =>
    have hCard := Finset.card_le_univ dropped
    rw [Fintype.card_fin] at hCard
    omega
  | succ pass ih =>
    rw [minimumLoopReturn]
    split
    case h_1 hNone => exact ⟨dropped, hDropped, rfl, belowMinimum_none hNone⟩
    case h_2 i hSome =>
      have hBelow := belowMinimum_some hSome
      have hCard := Finset.card_insert_of_notMem hBelow.notMem
      rw [keptCapacities_insert]
      exact ih _ (by omega) (hDropped.insert hBelow)

structure AllocatedWithMinimum (minimums : Fin n → K) (dropped : Finset (Fin n)) (result : Fin n → K) : Prop where
  returned : minimumLoopReturn weights total minimums (n + 1) capacities = some result
  shares : Shares capacities total result
  kept : Allocated (keptCapacities capacities dropped) weights total result
  minimum : ∀ i, |result i| ≤ 1 / 10 ^ 9 ∨ minimums i - 1 / 10 ^ 9 ≤ |result i|
  dropped : DroppedFor weights total capacities minimums dropped

variable {weights} in
theorem allocation_keeps_bounds (hWeights : ∀ i, 0 < weights i → 1 / 10 ^ 12 < weights i) (minimums : List K) :
    Allocated capacities weights total (allocateByCapacity capacities weights total) ∧
      ∃ dropped, AllocatedWithMinimum weights total capacities (minimumOf minimums) dropped
        (allocateWithMinimum capacities weights total (minimumOf minimums)) := by
  refine ⟨allocateByCapacity_allocated hWeights total, ?_⟩
  have hNobody : DroppedFor weights total capacities (minimumOf minimums) ∅ :=
    fun i hi => absurd hi (Finset.notMem_empty i)
  obtain ⟨dropped, hDropped, hReturned, hNone⟩ :=
    minimumLoopReturn_kept (minimumOf minimums) (n + 1) ∅ (by omega) hNobody
  have hAll : keptCapacities capacities ∅ = capacities := by
    funext i
    rw [keptCapacities, if_neg (Finset.notMem_empty i)]
  rw [hAll] at hReturned
  have hResult : allocateWithMinimum capacities weights total (minimumOf minimums) =
      allocateByCapacity (keptCapacities capacities dropped) weights total := by
    rw [allocateWithMinimum, minimumLoop_eq, hReturned, Option.getD_some]
  refine ⟨dropped, hReturned.trans (congrArg some hResult.symm), ?_, ?_, fun i => ?_, hDropped⟩
  · exact allocateWithMinimum_shares capacities weights total (minimumOf minimums)
  · rw [hResult]
    exact allocateByCapacity_allocated hWeights total
  · rw [hResult]
    obtain hSmall | hBig := le_or_gt |allocateByCapacity (keptCapacities capacities dropped) weights total i| (1 / 10 ^ 9)
    · exact Or.inl hSmall
    · right
      have hEnough := not_lt.mp fun hBelow => hNone i ⟨hBig, hBelow⟩
      linarith [le_max_right 0 (minimumOf minimums i)]

theorem allocation_keeps_bounds_of_one :
    Allocated (fun _ : Fin 1 => (100 : ℚ)) (fun _ => 1) 60 (allocateByCapacity (fun _ => 100) (fun _ => 1) 60) ∧
      ∃ dropped, AllocatedWithMinimum (fun _ => 1) 60 (fun _ : Fin 1 => (100 : ℚ)) (minimumOf [50]) dropped
        (allocateWithMinimum (fun _ => 100) (fun _ => 1) 60 (minimumOf [50])) :=
  allocation_keeps_bounds 60 (fun _ => 100) (fun _ _ => by norm_num) [50]

/-- A unit that cannot run with ten gets nothing, although a hundred would fit. -/
theorem total_below_minimum_withheld :
    ¬ Allocated (fun _ : Fin 1 => (100 : ℚ)) (fun _ => 1) 10
      (allocateWithMinimum (fun _ => 100) (fun _ => 1) 10 (minimumOf [50])) := by
  intro h
  have hNothing : allocateWithMinimum (fun _ : Fin 1 => (100 : ℚ)) (fun _ => 1) 10 (minimumOf [50]) 0 = 0 := by
    decide +kernel
  have hSum := h.sum_ge
  rw [Fin.sum_univ_one, hNothing] at hSum
  norm_num at hSum

end Minimum

end EdgeGateway.AgcAvc
