import EdgeGateway.AgcAvc.Arithmetic
import Mathlib.Tactic.Positivity
import Mathlib.Tactic.Ring

/-! # What the arithmetic keeps -/

namespace EdgeGateway.AgcAvc

universe u

variable {K : Type u} [Field K] [LinearOrder K]

def Damped (x y : K) : Prop := min 0 y ≤ x ∧ x ≤ max 0 y

namespace Damped

variable {x y z : K}

theorem refl (x : K) : Damped x x := ⟨min_le_right 0 x, le_max_right 0 x⟩

theorem zero (y : K) : Damped 0 y := ⟨min_le_left 0 y, le_max_left 0 y⟩

theorem positivePart (h : Damped x y) : max 0 x ≤ max 0 y := max_le (le_max_left 0 y) h.2

theorem negativePart (h : Damped x y) : min 0 y ≤ min 0 x := le_min (min_le_left 0 y) h.1

theorem trans (hx : Damped x y) (hy : Damped y z) : Damped x z :=
  ⟨hy.negativePart.trans hx.1, hx.2.trans hy.positivePart⟩

theorem le (h : Damped x y) {high : K} (hHigh : 0 ≤ high) (hy : y ≤ high) : x ≤ high :=
  h.2.trans (max_le hHigh hy)

theorem ge (h : Damped x y) {low : K} (hLow : low ≤ 0) (hy : low ≤ y) : low ≤ x :=
  (le_min hLow hy).trans h.1

end Damped

theorem positiveLimit_nonneg (primary fallback : K) : 0 ≤ positiveLimit primary fallback := by
  rw [positiveLimit]
  split
  case isTrue h => exact h.le
  case isFalse => exact le_max_left 0 fallback

omit [Field K] in
theorem clampValue_eq {low high : K} (h : low ≤ high) (value : K) :
    clampValue value low high = max low (min value high) := by
  simp [clampValue, not_lt.mpr h]

omit [Field K] in
theorem clampValue_mem {low high : K} (h : low ≤ high) (value : K) :
    low ≤ clampValue value low high ∧ clampValue value low high ≤ high := by
  rw [clampValue_eq h]
  exact ⟨le_max_left low _, max_le h (min_le_right value high)⟩

theorem clampValue_damped {low high : K} (hLow : low ≤ 0) (hHigh : 0 ≤ high) (value : K) :
    Damped (clampValue value low high) value := by
  rw [clampValue_eq (hLow.trans hHigh)]
  constructor
  · obtain h | h := le_total value high
    · rw [min_eq_left h]
      exact (min_le_right 0 value).trans (le_max_right low value)
    · rw [min_eq_right h]
      exact (min_le_left 0 value).trans (hHigh.trans (le_max_right low high))
  · exact max_le (hLow.trans (le_max_left 0 value)) ((min_le_left value high).trans (le_max_right 0 value))

section Ramp

variable {previous requested rise fall dt : K}

theorem rateLimit_le (hDt : 0 < dt) :
    rateLimit previous requested rise fall dt ≤ max requested (previous - max 0 fall * dt) := by
  rw [rateLimit]
  rw [if_neg (not_le.mpr hDt)]
  split
  · exact (min_le_left _ _).trans (le_max_left _ _)
  · exact le_rfl

theorem rateLimit_ge (hDt : 0 < dt) :
    min requested (previous + max 0 rise * dt) ≤ rateLimit previous requested rise fall dt := by
  rw [rateLimit]
  rw [if_neg (not_le.mpr hDt)]
  split
  · exact le_rfl
  · exact (min_le_left _ _).trans (le_max_left _ _)

variable [IsStrictOrderedRing K]

theorem rateLimit_le_previous (hDt : 0 < dt) (h : requested ≤ previous) :
    rateLimit previous requested rise fall dt ≤ previous := by
  rw [rateLimit]
  rw [if_neg (not_le.mpr hDt), if_neg (not_lt.mpr h)]
  have hDown : 0 ≤ max 0 fall * dt := mul_nonneg (le_max_left 0 fall) hDt.le
  exact max_le h (sub_le_self previous hDown)

theorem previous_le_rateLimit (hDt : 0 < dt) (h : previous ≤ requested) :
    previous ≤ rateLimit previous requested rise fall dt := by
  rw [rateLimit]
  rw [if_neg (not_le.mpr hDt)]
  have hUp : 0 ≤ max 0 rise * dt := mul_nonneg (le_max_left 0 rise) hDt.le
  split
  · exact le_min h (le_add_of_nonneg_right hUp)
  · exact h.trans (le_max_left requested _)

theorem rateLimit_zero_damped (hDt : 0 < dt) : Damped (rateLimit previous 0 rise fall dt) previous := by
  obtain h | h := le_total 0 previous
  · constructor
    · rw [min_eq_left h]
      refine le_trans ?_ (rateLimit_ge hDt)
      exact le_min le_rfl (add_nonneg h (mul_nonneg (le_max_left 0 rise) hDt.le))
    · exact (rateLimit_le_previous hDt h).trans (le_max_right 0 previous)
  · constructor
    · exact (min_le_right 0 previous).trans (previous_le_rateLimit hDt h)
    · rw [max_eq_left h]
      refine (rateLimit_le hDt).trans ?_
      exact max_le le_rfl (sub_nonpos.mpr (h.trans (mul_nonneg (le_max_left 0 fall) hDt.le)))

end Ramp

section Envelope

variable (math : CMath K)

theorem copysign_mul_self (magnitude value : K) :
    copysign magnitude value * copysign magnitude value = magnitude * magnitude := by
  rw [copysign]
  split
  · exact abs_mul_abs_self magnitude
  · rw [neg_mul_neg]
    exact abs_mul_abs_self magnitude

variable [IsStrictOrderedRing K]

theorem copysign_damped {magnitude value : K} (h : |magnitude| ≤ |value|) :
    Damped (copysign magnitude value) value := by
  rw [copysign]
  split
  case isTrue hSign =>
    rw [abs_of_nonneg hSign] at h
    exact ⟨(min_le_left 0 value).trans (abs_nonneg magnitude), h.trans (le_max_right 0 value)⟩
  case isFalse hSign =>
    rw [abs_of_neg (not_le.mp hSign)] at h
    refine ⟨(min_le_right 0 value).trans (by linarith), ?_⟩
    exact (neg_nonpos.mpr (abs_nonneg magnitude)).trans (le_max_left 0 value)

theorem restOfCircle {s : K} (kept given : K) (hs : 0 < s) (hOut : s * s < kept * kept + given * given) :
    let clamped := clampValue kept (-s) s
    let rest := copysign (math.sqrt (max 0 (s * s - clamped * clamped))) given
    Damped rest given ∧ clamped * clamped + rest * rest = s * s := by
  intro clamped rest
  have hRange : -s ≤ s := by linarith
  obtain ⟨hLow, hHigh⟩ := clampValue_mem hRange kept
  have hInside : 0 ≤ s * s - clamped * clamped := by
    have hProduct : 0 ≤ (s - clamped) * (s + clamped) := mul_nonneg (sub_nonneg.mpr hHigh) (by linarith)
    linarith [(by ring : (s - clamped) * (s + clamped) = s * s - clamped * clamped)]
  have hSqrt := math.sqrt_mul_self _ hInside
  -- Inside the limits the clamp changes nothing; at a limit it leaves no rest.
  have hCases : clamped = kept ∨ clamped * clamped = s * s := by
    change clampValue kept (-s) s = kept ∨ clampValue kept (-s) s * clampValue kept (-s) s = s * s
    rw [clampValue_eq hRange]
    obtain hUp | hUp := le_total kept s
    · obtain hDown | hDown := le_total (-s) kept
      · exact Or.inl (by rw [min_eq_left hUp, max_eq_right hDown])
      · exact Or.inr (by rw [min_eq_left hUp, max_eq_left hDown, neg_mul_neg])
    · exact Or.inr (by rw [min_eq_right hUp, max_eq_right hRange])
  constructor
  · apply copysign_damped
    apply sq_le_sq.mp
    rw [max_eq_right hInside, sq, sq, hSqrt]
    obtain hEq | hEq := hCases
    · rw [hEq]
      linarith
    · rw [hEq, sub_self]
      exact mul_self_nonneg given
  · change clamped * clamped + copysign _ given * copysign _ given = s * s
    rw [copysign_mul_self, max_eq_right hInside, hSqrt]
    ring

theorem scale_damped {scale value : K} (hLow : 0 ≤ scale) (hHigh : scale ≤ 1) : Damped (value * scale) value := by
  obtain h | h := le_total 0 value
  · refine ⟨(min_le_left 0 value).trans (mul_nonneg h hLow), ?_⟩
    exact (mul_le_of_le_one_right h hHigh).trans (le_max_right 0 value)
  · constructor
    · refine (min_le_right 0 value).trans ?_
      linarith [mul_nonneg (neg_nonneg.mpr h) (sub_nonneg.mpr hHigh)]
    · exact (mul_nonpos_of_nonpos_of_nonneg h hLow).trans (le_max_left 0 value)

structure InEnvelope (p q s : K) (result : K × K) : Prop where
  active : Damped result.1 p
  reactive : Damped result.2 q
  circle : 0 < s → result.1 * result.1 + result.2 * result.2 ≤ s * s + 1 / 10 ^ 9

theorem applyPqEnvelope_spec (p q s : K) (priority : PqPriority) :
    InEnvelope p q s (applyPqEnvelope math p q s priority) := by
  unfold applyPqEnvelope
  split
  case isTrue hIn =>
    refine ⟨Damped.refl p, Damped.refl q, fun hs => ?_⟩
    exact hIn.resolve_left (not_le.mpr hs)
  case isFalse hOut =>
    obtain ⟨hs, hOut⟩ := not_or.mp hOut
    have hs : 0 < s := not_le.mp hs
    have hTolerance : (0 : K) < 1 / 10 ^ 9 := by positivity
    have hOut : s * s + 1 / 10 ^ 9 < p * p + q * q := not_le.mp hOut
    cases priority with
    | reactivePowerFirst =>
      obtain ⟨hRest, hCircle⟩ := restOfCircle math q p hs (by linarith)
      refine ⟨hRest, clampValue_damped (by linarith) hs.le q, fun _ => ?_⟩
      dsimp only at hCircle ⊢
      linarith
    | activePowerFirst =>
      obtain ⟨hRest, hCircle⟩ := restOfCircle math p q hs (by linarith)
      refine ⟨clampValue_damped (by linarith) hs.le p, hRest, fun _ => ?_⟩
      dsimp only at hCircle ⊢
      linarith
    | proportional =>
      have hSquare : 0 ≤ p * p + q * q := add_nonneg (mul_self_nonneg p) (mul_self_nonneg q)
      have hNonneg := math.sqrt_nonneg (p * p + q * q)
      have hSqrt := math.sqrt_mul_self _ hSquare
      set magnitude := math.sqrt (p * p + q * q)
      have hLarger : s ≤ magnitude := by
        apply nonneg_le_nonneg_of_sq_le_sq hNonneg
        linarith
      have hApart : 1 / 10 ^ 9 < magnitude := by
        apply lt_of_mul_self_lt_mul_self₀ hNonneg
        have hSmall : (1 : K) / 10 ^ 9 * (1 / 10 ^ 9) ≤ 1 / 10 ^ 9 := by norm_num
        linarith [mul_self_nonneg s]
      have hPos : 0 < magnitude := hs.trans_le hLarger
      have hScale : s / magnitude ≤ 1 := (div_le_one hPos).mpr hLarger
      have hScaleNonneg : 0 ≤ s / magnitude := div_nonneg hs.le hNonneg
      dsimp only
      rw [if_pos hApart]
      refine ⟨scale_damped hScaleNonneg hScale, scale_damped hScaleNonneg hScale, fun _ => ?_⟩
      have hCircle : p * (s / magnitude) * (p * (s / magnitude)) + q * (s / magnitude) * (q * (s / magnitude)) =
          s * s := by
        calc
          _ = (p * p + q * q) * (s / magnitude * (s / magnitude)) := by ring
          _ = magnitude * magnitude * (s / magnitude * (s / magnitude)) := by rw [hSqrt]
          _ = s * s := by field_simp
      linarith

end Envelope

section Allocation

variable {n : Nat} [IsStrictOrderedRing K] (capacities weights : Fin n → K)

structure Shares (total : K) (result : Fin n → K) : Prop where
  nonneg : 0 ≤ total → ∀ i, 0 ≤ result i
  nonpos : total ≤ 0 → ∀ i, result i ≤ 0
  capped : ∀ i, |result i| ≤ max 0 (capacities i)
  sum_le : ∑ i, |result i| ≤ |total|

structure Share.Fair (total : K) (s : Share K n) : Prop where
  nonneg : ∀ i, 0 ≤ s.result i
  capped : ∀ i, s.result i ≤ max 0 (capacities i)
  weighted : ∀ i, s.active i → 0 < weights i
  given : ∑ i, s.result i + s.remaining ≤ total
  remaining_nonneg : 0 ≤ s.remaining

namespace Share

variable {capacities weights} {total : K} {s : Share K n}

theorem Fair.result_sum_le (h : s.Fair capacities weights total) : ∑ i, s.result i ≤ total := by
  linarith [h.given, h.remaining_nonneg]

theorem Fair.applied_nonneg (h : s.Fair capacities weights total) (hWeight : 0 < s.weightSum weights) (i : Fin n) :
    0 ≤ s.applied capacities weights i := by
  rw [applied]
  split
  case isTrue hActive =>
    refine le_min (le_max_left 0 _) ?_
    exact div_nonneg (mul_nonneg h.remaining_nonneg (h.weighted i hActive).le) hWeight.le
  case isFalse => exact le_rfl

omit [IsStrictOrderedRing K] in
theorem applied_le_room (capacities weights : Fin n → K) (s : Share K n) (i : Fin n) :
    s.applied capacities weights i ≤ s.room capacities i := by
  rw [applied]
  split
  · exact min_le_left _ _
  · exact le_max_left 0 _

theorem applied_sum_le (capacities : Fin n → K) (hWeight : 0 < s.weightSum weights) :
    ∑ i, s.applied capacities weights i ≤ s.remaining := by
  calc
    ∑ i, s.applied capacities weights i
        ≤ ∑ i, s.remaining / s.weightSum weights * (if s.active i then weights i else 0) := by
          apply Finset.sum_le_sum
          intro i _
          rw [applied]
          split
          · refine (min_le_right _ _).trans (le_of_eq ?_)
            ring
          · rw [mul_zero]
    _ = s.remaining := by
          rw [← Finset.mul_sum]
          exact div_mul_cancel₀ s.remaining hWeight.ne'

theorem Fair.result_add_applied_le (h : s.Fair capacities weights total) (i : Fin n) :
    s.result i + s.applied capacities weights i ≤ max 0 (capacities i) := by
  have hRoom := applied_le_room capacities weights s i
  rw [room] at hRoom
  obtain hFree | hFull := le_total 0 (capacities i - s.result i)
  · rw [max_eq_right hFree] at hRoom
    exact (by linarith : s.result i + s.applied capacities weights i ≤ capacities i).trans (le_max_right 0 _)
  · rw [max_eq_left hFull] at hRoom
    linarith [h.capped i]

end Share

theorem allocateLoop_fair {total : K} (pass : Nat) (s : Share K n) (h : s.Fair capacities weights total) :
    (∀ i, 0 ≤ (allocateLoop capacities weights pass s).result i) ∧
      (∀ i, (allocateLoop capacities weights pass s).result i ≤ max 0 (capacities i)) ∧
      ∑ i, (allocateLoop capacities weights pass s).result i ≤ total := by
  induction pass generalizing s with
  | zero => exact ⟨h.nonneg, h.capped, h.result_sum_le⟩
  | succ pass ih =>
    rw [allocateLoop]
    split
    · exact ⟨h.nonneg, h.capped, h.result_sum_le⟩
    split
    · exact ⟨h.nonneg, h.capped, h.result_sum_le⟩
    case isFalse hWeight =>
      have hWeight : 0 < s.weightSum weights := lt_trans (by positivity) (not_le.mp hWeight)
      have hNonneg : ∀ i, 0 ≤ s.result i + s.applied capacities weights i :=
        fun i => add_nonneg (h.nonneg i) (h.applied_nonneg hWeight i)
      have hSum := Share.applied_sum_le capacities hWeight
      have hGiven := h.given
      have hSplit : ∑ i, (s.result i + s.applied capacities weights i) =
          ∑ i, s.result i + ∑ i, s.applied capacities weights i := Finset.sum_add_distrib
      dsimp only
      split
      · exact ⟨hNonneg, h.result_add_applied_le, by linarith⟩
      · apply ih
        refine ⟨hNonneg, h.result_add_applied_le, fun i hActive => ?_, ?_, by linarith⟩
        · exact h.weighted i (Bool.and_eq_true _ _ ▸ hActive).1
        · dsimp only
          linarith

theorem Shares.zero (total : K) : Shares capacities total fun _ => 0 where
  nonneg := fun _ _ => le_rfl
  nonpos := fun _ _ => le_rfl
  capped := fun i => by
    rw [abs_zero]
    exact le_max_left 0 _
  sum_le := by
    simp

theorem allocateByCapacity_shares (total : K) :
    Shares capacities total (allocateByCapacity capacities weights total) := by
  rw [allocateByCapacity]
  split
  · exact Shares.zero capacities total
  dsimp only
  have hStart : Share.Fair capacities weights |total|
      { result := fun _ => 0
        active := fun i => decide (capacities i > 1 / 10 ^ 9) && decide (weights i > 0)
        remaining := |total| } := by
    refine ⟨fun _ => le_rfl, fun i => le_max_left 0 _, fun i hActive => ?_, by simp, abs_nonneg total⟩
    exact of_decide_eq_true (Bool.and_eq_true _ _ ▸ hActive).2
  obtain ⟨hNonneg, hCapped, hSum⟩ := allocateLoop_fair capacities weights (n + 1) _ hStart
  set shared := (allocateLoop capacities weights (n + 1) _).result
  split
  case isTrue hSign =>
    refine ⟨fun h => absurd hSign (not_lt.mpr h), fun _ i => neg_nonpos.mpr (hNonneg i), fun i => ?_, ?_⟩
    · rw [abs_neg, abs_of_nonneg (hNonneg i)]
      exact hCapped i
    · simpa only [abs_neg, abs_of_nonneg (hNonneg _)] using hSum
  case isFalse hSign =>
    have hTotal : |total| = total := abs_of_nonneg (not_lt.mp hSign)
    refine ⟨fun _ => hNonneg, fun h i => ?_, fun i => ?_, ?_⟩
    · -- A total of zero gives out nothing.
      have hZero : |total| ≤ 0 := by rwa [hTotal]
      exact (Finset.single_le_sum (fun j _ => hNonneg j) (Finset.mem_univ i)).trans (hSum.trans hZero)
    · rw [abs_of_nonneg (hNonneg i)]
      exact hCapped i
    · simpa only [abs_of_nonneg (hNonneg _)] using hSum

omit [IsStrictOrderedRing K] in
theorem Shares.mono {smaller : Fin n → K} (hLe : ∀ i, max 0 (smaller i) ≤ max 0 (capacities i)) {total : K}
    {result : Fin n → K} (h : Shares smaller total result) : Shares capacities total result :=
  ⟨h.nonneg, h.nonpos, fun i => (h.capped i).trans (hLe i), h.sum_le⟩

theorem minimumLoop_shares (total : K) (minimums : Fin n → K) (pass : Nat) :
    Shares capacities total (minimumLoop weights total minimums pass capacities) := by
  induction pass generalizing capacities with
  | zero => exact Shares.zero capacities total
  | succ pass ih =>
    unfold minimumLoop
    dsimp only
    split
    · exact allocateByCapacity_shares capacities weights total
    case h_2 i _ =>
      apply Shares.mono capacities _ (ih (Function.update capacities i 0))
      intro j
      obtain rfl | hNe := eq_or_ne j i
      · rw [Function.update_self, max_self]
        exact le_max_left 0 _
      · rw [Function.update_of_ne hNe]

theorem allocateWithMinimum_shares (total : K) (minimums : Fin n → K) :
    Shares capacities total (allocateWithMinimum capacities weights total minimums) :=
  minimumLoop_shares capacities weights total minimums (n + 1)

namespace Shares

variable {capacities} {total : K} {result : Fin n → K}

theorem positive_sum_le (h : Shares capacities total result) : ∑ i, max 0 (result i) ≤ max 0 total := by
  obtain hSign | hSign := le_total 0 total
  · rw [max_eq_right hSign]
    calc
      ∑ i, max 0 (result i) ≤ ∑ i, |result i| :=
        Finset.sum_le_sum fun i _ => max_le (abs_nonneg _) (le_abs_self _)
      _ ≤ |total| := h.sum_le
      _ = total := abs_of_nonneg hSign
  · refine le_trans (le_of_eq ?_) (le_max_left 0 total)
    exact Finset.sum_eq_zero fun i _ => max_eq_left (h.nonpos hSign i)

theorem negative_sum_ge (h : Shares capacities total result) : min 0 total ≤ ∑ i, min 0 (result i) := by
  obtain hSign | hSign := le_total 0 total
  · refine (min_le_left 0 total).trans (le_of_eq ?_)
    exact (Finset.sum_eq_zero fun i _ => min_eq_left (h.nonneg hSign i)).symm
  · rw [min_eq_right hSign]
    have hAbs : -∑ i, |result i| ≤ ∑ i, min 0 (result i) := by
      rw [← Finset.sum_neg_distrib]
      exact Finset.sum_le_sum fun i _ => le_min (neg_nonpos.mpr (abs_nonneg _)) (neg_abs_le _)
    have hSum := h.sum_le
    rw [abs_of_nonpos hSign] at hSum
    linarith

end Shares

end Allocation

end EdgeGateway.AgcAvc
