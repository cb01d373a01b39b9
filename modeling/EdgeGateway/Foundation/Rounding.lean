import Mathlib.Algebra.Order.Round

/-! # Number literals

The numerals that the calculations share, named once, so that a literal of an
arbitrary field is the same term in every module.
-/

namespace EdgeGateway

instance atLeastTwo_two : Nat.AtLeastTwo 2 := ⟨by decide⟩

instance atLeastTwo_ten : Nat.AtLeastTwo 10 := ⟨by decide⟩

instance atLeastTwo_fifty : Nat.AtLeastTwo 50 := ⟨by decide⟩

instance atLeastTwo_hundred : Nat.AtLeastTwo 100 := ⟨by decide⟩

instance atLeastTwo_thousand : Nat.AtLeastTwo 1000 := ⟨by decide⟩

instance atLeastTwo_highBit : Nat.AtLeastTwo 32768 := ⟨by decide⟩

end EdgeGateway

/-! # Rounding to whole numbers

`std::round`, `std::trunc` and `std::llround` over exact numbers. What `llround`
makes of a number beyond `long long` is left to the platform.
-/

namespace EdgeGateway.Rounding

variable {K : Type} [Field K] [LinearOrder K] [FloorRing K]

/-- Halves go away from zero. -/
def roundAway (x : K) : Int := if 0 ≤ x then ⌊x + 1 / 2⌋ else ⌈x - 1 / 2⌉

def towardZero (x : K) : Int := if 0 ≤ x then ⌊x⌋ else ⌈x⌉

def IsLongLong (n : Int) : Prop := -2 ^ 63 ≤ n ∧ n < 2 ^ 63

instance decidableIsLongLong (n : Int) : Decidable (IsLongLong n) := inferInstanceAs (Decidable (_ ∧ _))

def llround (beyond : K → BitVec 64) (x : K) : BitVec 64 :=
  if IsLongLong (roundAway x) then BitVec.ofInt 64 (roundAway x) else beyond x

variable [IsStrictOrderedRing K]

theorem roundAway_intCast (n : Int) : roundAway (n : K) = n := by
  rw [roundAway]
  split
  · rw [Int.floor_eq_iff]
    constructor <;> norm_num
  · rw [Int.ceil_eq_iff]
    constructor <;> norm_num

theorem roundAway_mono {x y : K} (h : x ≤ y) : roundAway x ≤ roundAway y := by
  by_cases hx : 0 ≤ x
  · rw [roundAway, roundAway, if_pos hx, if_pos (hx.trans h)]
    exact Int.floor_mono (add_le_add_left h _)
  · rw [roundAway, if_neg hx, roundAway]
    split
    · have hCeil : ⌈x - 1 / 2⌉ ≤ 0 := Int.ceil_le.mpr (by push_cast; linarith)
      have hFloor : 0 ≤ ⌊y + 1 / 2⌋ := Int.le_floor.mpr (by push_cast; linarith)
      exact hCeil.trans hFloor
    · exact Int.ceil_mono (sub_le_sub_right h _)

theorem towardZero_mono {x y : K} (h : x ≤ y) : towardZero x ≤ towardZero y := by
  by_cases hx : 0 ≤ x
  · rw [towardZero, towardZero, if_pos hx, if_pos (hx.trans h)]
    exact Int.floor_mono h
  · rw [towardZero, if_neg hx, towardZero]
    split
    · have hCeil : ⌈x⌉ ≤ 0 := Int.ceil_le.mpr (by push_cast; linarith)
      have hFloor : 0 ≤ ⌊y⌋ := Int.le_floor.mpr (by push_cast; linarith)
      exact hCeil.trans hFloor
    · exact Int.ceil_mono h

theorem llround_intCast {beyond : K → BitVec 64} {n : Int} (hRange : IsLongLong n) :
    llround beyond (n : K) = BitVec.ofInt 64 n := by
  rw [llround, roundAway_intCast, if_pos hRange]

theorem llround_beyond {beyond : K → BitVec 64} {n : Int} (hRange : ¬IsLongLong n) :
    llround beyond (n : K) = beyond n := by
  rw [llround, roundAway_intCast, if_neg hRange]

end EdgeGateway.Rounding
