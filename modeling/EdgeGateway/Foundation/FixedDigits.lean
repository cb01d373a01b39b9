import Mathlib.Data.List.Basic
import Mathlib.Data.Nat.Digits.Defs
import Mathlib.Data.Nat.ModEq

/-! # Numbers digit by digit

The lowest digits of a number in some base with what is left above them; and numbers in bytes of
seven bits, the lowest first, with a high bit where another follows.
-/

namespace EdgeGateway.FixedDigits

variable {base count n : Nat}

def peel (base : Nat) : Nat → Nat → List Nat × Nat
  | 0, n => ([], n)
  | count + 1, n => (n % base :: (peel base count (n / base)).1, (peel base count (n / base)).2)

@[simp] theorem length_peel : (peel base count n).1.length = count := by
  induction count generalizing n with
  | zero => rfl
  | succ count ih => rw [peel, List.length_cons, ih]

theorem peel_rest : (peel base count n).2 = n / base ^ count := by
  induction count generalizing n with
  | zero => rw [peel, Nat.pow_zero, Nat.div_one]
  | succ count ih => rw [peel, ih, Nat.div_div_eq_div_mul, Nat.pow_succ']

theorem peel_rest_eq_zero_iff (hBase : 0 < base) : (peel base count n).2 = 0 ↔ n < base ^ count := by
  rw [peel_rest, Nat.div_eq_zero_iff, or_iff_right (Nat.pow_pos hBase).ne']

theorem lt_of_mem_peel (hBase : 0 < base) {digit : Nat} (h : digit ∈ (peel base count n).1) : digit < base := by
  induction count generalizing n with
  | zero => cases h
  | succ count ih =>
    rw [peel, List.mem_cons] at h
    obtain rfl | h := h
    · exact Nat.mod_lt n hBase
    · exact ih h

theorem ofDigits_peel : Nat.ofDigits base (peel base count n).1 = n % base ^ count := by
  induction count generalizing n with
  | zero => rw [peel, Nat.ofDigits_nil, Nat.pow_zero, Nat.mod_one]
  | succ count ih => rw [peel, Nat.ofDigits_cons, ih, Nat.pow_succ', Nat.mod_mul]

theorem ofDigits_peel_of_lt (h : n < base ^ count) : Nat.ofDigits base (peel base count n).1 = n := by
  rw [ofDigits_peel, Nat.mod_eq_of_lt h]

end EdgeGateway.FixedDigits

namespace EdgeGateway.SevenBit

def decode : List UInt8 → Option (Nat × Nat)
  | [] => none
  | byte :: rest =>
    if byte &&& 0x80 ≠ 0 then
      (decode rest).map fun decoded => ((byte &&& 0x7F).toNat + 128 * decoded.1, decoded.2 + 1)
    else some ((byte &&& 0x7F).toNat, 1)

def encode (value : Nat) : List UInt8 :=
  if value < 128 then [UInt8.ofNat value]
  else (UInt8.ofNat (value % 128) ||| 0x80) :: encode (value / 128)

theorem low_of_lt {value : Nat} (h : value < 128) :
    UInt8.ofNat value &&& 0x80 = 0 ∧ (UInt8.ofNat value &&& 0x7F).toNat = value := by
  have hAll : ∀ value : Fin 128, UInt8.ofNat value.val &&& 0x80 = 0 ∧ (UInt8.ofNat value.val &&& 0x7F).toNat = value.val := by
    decide
  exact hAll ⟨value, h⟩

theorem low_of_continued {value : Nat} (h : value < 128) :
    (UInt8.ofNat value ||| 0x80) &&& 0x80 ≠ 0 ∧ ((UInt8.ofNat value ||| 0x80) &&& 0x7F).toNat = value := by
  have hAll : ∀ value : Fin 128, (UInt8.ofNat value.val ||| 0x80) &&& 0x80 ≠ 0 ∧
      ((UInt8.ofNat value.val ||| 0x80) &&& 0x7F).toNat = value.val := by
    decide
  exact hAll ⟨value, h⟩

theorem decode_last {byte : UInt8} (h : byte &&& 0x80 = 0) (rest : List UInt8) :
    decode (byte :: rest) = some ((byte &&& 0x7F).toNat, 1) := by
  rw [decode, if_neg (not_not.mpr h)]

theorem decode_continued {byte : UInt8} (h : byte &&& 0x80 ≠ 0) (rest : List UInt8) :
    decode (byte :: rest) = (decode rest).map fun decoded => ((byte &&& 0x7F).toNat + 128 * decoded.1, decoded.2 + 1) := by
  rw [decode, if_pos h]

theorem decode_encode (value : Nat) (rest : List UInt8) :
    decode (encode value ++ rest) = some (value, (encode value).length) := by
  induction value using Nat.strongRecOn with
  | ind value ih =>
    rw [encode]
    split
    · rename_i hLast
      obtain ⟨hBit, hLow⟩ := low_of_lt hLast
      rw [List.singleton_append, decode_last hBit, hLow]
      rfl
    · rename_i hMore
      obtain ⟨hBit, hLow⟩ := low_of_continued (Nat.mod_lt value (by decide : 0 < 128))
      rw [List.cons_append, decode_continued hBit, ih (value / 128) (by omega), hLow, Option.map_some, Nat.mod_add_div]
      rfl

theorem length_encode_pos (value : Nat) : 0 < (encode value).length := by
  rw [encode]
  split <;> exact Nat.succ_pos _

theorem length_encode_le_iff (value count : Nat) : (encode value).length ≤ count + 1 ↔ value < 128 ^ (count + 1) := by
  induction count generalizing value with
  | zero =>
    rw [encode]
    split
    · rename_i hLast
      exact iff_of_true (Nat.le_refl 1) hLast
    · rename_i hMore
      have hRest := length_encode_pos (value / 128)
      rw [List.length_cons]
      omega
  | succ count ih =>
    rw [encode, Nat.pow_succ']
    split
    · rename_i hLast
      have hPower : 0 < 128 ^ (count + 1) := Nat.pow_pos (by decide)
      refine iff_of_true (Nat.le_add_left 1 _) ?_
      calc
        value < 128 * 1 := hLast
        _ ≤ 128 * 128 ^ (count + 1) := Nat.mul_le_mul_left 128 hPower
    · rw [List.length_cons, Nat.succ_le_succ_iff, ih, Nat.div_lt_iff_lt_mul (by decide), Nat.mul_comm]

theorem decode_used_pos {bytes : List UInt8} {value used : Nat} (h : decode bytes = some (value, used)) : 0 < used := by
  cases bytes with
  | nil => cases h
  | cons byte rest =>
    rw [decode] at h
    split at h
    · obtain ⟨decoded, -, hDecoded⟩ := Option.map_eq_some_iff.mp h
      rw [← (Prod.mk.inj hDecoded).2]
      exact Nat.succ_pos _
    · rw [← (Prod.mk.inj (Option.some.inj h)).2]
      exact Nat.one_pos

end EdgeGateway.SevenBit
