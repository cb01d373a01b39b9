import Mathlib.Algebra.Order.BigOperators.Group.List
import Mathlib.Algebra.BigOperators.Group.List.Lemmas
import Mathlib.Algebra.Order.Field.Basic
import Mathlib.Algebra.Order.Group.MinMax
import Mathlib.Tactic.Linarith

/-! # Sums of numbers of either sign -/

namespace EdgeGateway.SignedSums

variable {K : Type} [Field K] [LinearOrder K] [IsStrictOrderedRing K] {values : List K} {ratio limit : K}

def positive (values : List K) : K := (values.map fun value => max 0 value).sum

def negative (values : List K) : K := (values.map fun value => min 0 value).sum

omit [IsStrictOrderedRing K] in
theorem positive_cons (value : K) : positive (value :: values) = max 0 value + positive values := by
  rw [positive, List.map_cons, List.sum_cons, positive]

omit [IsStrictOrderedRing K] in
theorem negative_cons (value : K) : negative (value :: values) = min 0 value + negative values := by
  rw [negative, List.map_cons, List.sum_cons, negative]

theorem sum_eq (values : List K) : values.sum = positive values + negative values := by
  induction values with
  | nil => simp [positive, negative]
  | cons value rest ih =>
    have hParts : max 0 value + min 0 value = value := by rw [max_add_min, zero_add]
    rw [List.sum_cons, positive_cons, negative_cons, ih]
    linarith

theorem positive_nonneg (values : List K) : 0 ≤ positive values := by
  rw [positive]
  apply List.sum_nonneg
  intro part hPart
  obtain ⟨value, -, rfl⟩ := List.mem_map.mp hPart
  exact le_max_left 0 value

theorem negative_eq_neg (values : List K) : negative values = -positive (values.map fun value => -value) := by
  induction values with
  | nil => simp [positive, negative]
  | cons value rest ih =>
    have hParts : max 0 (-value) = -min 0 value := by
      rw [← neg_zero, max_neg_neg, neg_zero]
    rw [List.map_cons, positive_cons, negative_cons, ih, hParts, neg_add, neg_neg]

theorem negative_nonpos (values : List K) : negative values ≤ 0 := by
  rw [negative_eq_neg]
  exact neg_nonpos.mpr (positive_nonneg _)

theorem positive_eq_zero_iff : positive values = 0 ↔ ∀ value ∈ values, value ≤ 0 := by
  induction values with
  | nil => simp [positive]
  | cons value rest ih =>
    rw [positive_cons, add_eq_zero_iff_of_nonneg (le_max_left 0 value) (positive_nonneg rest), ih,
      List.forall_mem_cons, max_eq_left_iff]

theorem negative_eq_zero_iff : negative values = 0 ↔ ∀ value ∈ values, 0 ≤ value := by
  rw [negative_eq_neg, neg_eq_zero, positive_eq_zero_iff, List.forall_mem_map]
  simp only [neg_nonpos]

def scalePositive (ratio value : K) : K := if 0 < value then value * ratio else value

def scaleNegative (ratio value : K) : K := if value < 0 then value * ratio else value

theorem scaleNegative_eq (ratio value : K) : scaleNegative ratio value = -scalePositive ratio (-value) := by
  rw [scaleNegative, scalePositive]
  simp only [neg_pos]
  split
  · rw [neg_mul, neg_neg]
  · rw [neg_neg]

theorem abs_scalePositive_le (hRatio : 0 ≤ ratio) (hSmall : ratio ≤ 1) (value : K) :
    |scalePositive ratio value| ≤ |value| := by
  rw [scalePositive]
  split
  · rw [abs_mul, abs_of_nonneg hRatio]
    exact mul_le_of_le_one_right (abs_nonneg value) hSmall
  · exact le_rfl

theorem abs_scaleNegative_le (hRatio : 0 ≤ ratio) (hSmall : ratio ≤ 1) (value : K) :
    |scaleNegative ratio value| ≤ |value| := by
  rw [scaleNegative_eq, abs_neg, ← abs_neg value]
  exact abs_scalePositive_le hRatio hSmall (-value)

theorem max_scalePositive (hRatio : 0 ≤ ratio) (value : K) : max 0 (scalePositive ratio value) = max 0 value * ratio := by
  rw [scalePositive]
  split
  · rename_i hValue
    rw [max_eq_right hValue.le, max_eq_right (mul_nonneg hValue.le hRatio)]
  · rename_i hValue
    rw [max_eq_left (not_lt.mp hValue), zero_mul]

theorem min_scalePositive (hRatio : 0 ≤ ratio) (value : K) : min 0 (scalePositive ratio value) = min 0 value := by
  rw [scalePositive]
  split
  · rename_i hValue
    rw [min_eq_left hValue.le, min_eq_left (mul_nonneg hValue.le hRatio)]
  · rfl

theorem positive_scalePositive (hRatio : 0 ≤ ratio) (values : List K) :
    positive (values.map (scalePositive ratio)) = positive values * ratio := by
  induction values with
  | nil => simp [positive]
  | cons value rest ih => rw [List.map_cons, positive_cons, positive_cons, ih, max_scalePositive hRatio, add_mul]

theorem negative_scalePositive (hRatio : 0 ≤ ratio) (values : List K) :
    negative (values.map (scalePositive ratio)) = negative values := by
  induction values with
  | nil => rfl
  | cons value rest ih => rw [List.map_cons, negative_cons, negative_cons, ih, min_scalePositive hRatio]

theorem map_neg_scaleNegative (ratio : K) (values : List K) :
    (values.map (scaleNegative ratio)).map (fun value => -value) =
      (values.map fun value => -value).map (scalePositive ratio) := by
  rw [List.map_map, List.map_map]
  apply List.map_congr_left
  intro value _
  rw [Function.comp_apply, Function.comp_apply, scaleNegative_eq, neg_neg]

theorem negative_scaleNegative (hRatio : 0 ≤ ratio) (values : List K) :
    negative (values.map (scaleNegative ratio)) = negative values * ratio := by
  rw [negative_eq_neg, map_neg_scaleNegative, positive_scalePositive hRatio, negative_eq_neg, neg_mul]

theorem positive_eq_neg (values : List K) : positive values = -negative (values.map fun value => -value) := by
  rw [negative_eq_neg, List.map_map, neg_neg]
  simp

theorem positive_scaleNegative (hRatio : 0 ≤ ratio) (values : List K) :
    positive (values.map (scaleNegative ratio)) = positive values := by
  rw [positive_eq_neg, map_neg_scaleNegative, negative_scalePositive hRatio, ← positive_eq_neg]

theorem shrinking_ratio {part other limit : K} (hLimit : 0 ≤ limit) (hOther : other ≤ 0) (hOver : limit < part + other) :
    0 < part ∧ 0 ≤ (limit - other) / part ∧ (limit - other) / part ≤ 1 ∧ part * ((limit - other) / part) = limit - other := by
  have hPart : 0 < part := by linarith
  refine ⟨hPart, div_nonneg (by linarith) hPart.le, (div_le_one hPart).mpr (by linarith), ?_⟩
  rw [mul_div_cancel₀ _ hPart.ne']

end EdgeGateway.SignedSums
