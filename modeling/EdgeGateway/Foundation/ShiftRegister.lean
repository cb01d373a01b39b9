import Mathlib.Logic.Function.Iterate
import Mathlib.Data.List.Basic

/-! # Feedback shift registers

A register of `w` bits is shifted down, its taps are added when a one falls out, symbols are added
at the low end.
-/

namespace EdgeGateway.ShiftRegister

variable {w k : Nat} (taps : BitVec w)

def shift (c : BitVec w) : BitVec w := if c.getLsbD 0 then (c >>> 1) ^^^ taps else c >>> 1

def shifts (n : Nat) : BitVec w → BitVec w := (shift taps)^[n]

def absorb (c : BitVec w) (symbol : BitVec k) : BitVec w := shifts taps k (c ^^^ symbol.setWidth w)

def feed (c : BitVec w) (symbols : List (BitVec k)) : BitVec w := symbols.foldl (absorb taps) c

theorem shift_xor (a b : BitVec w) : shift taps (a ^^^ b) = shift taps a ^^^ shift taps b := by
  rw [shift, shift, shift, BitVec.getLsbD_xor, BitVec.ushiftRight_xor_distrib]
  cases a.getLsbD 0 <;> cases b.getLsbD 0
  · rfl
  · exact BitVec.xor_assoc _ _ _
  · show a >>> 1 ^^^ b >>> 1 ^^^ taps = a >>> 1 ^^^ taps ^^^ b >>> 1
    rw [BitVec.xor_assoc, BitVec.xor_comm (b >>> 1), BitVec.xor_assoc]
  · show a >>> 1 ^^^ b >>> 1 = a >>> 1 ^^^ taps ^^^ (b >>> 1 ^^^ taps)
    rw [BitVec.xor_comm (b >>> 1) taps, BitVec.xor_assoc, ← BitVec.xor_assoc taps, BitVec.xor_self, BitVec.zero_xor]

theorem shifts_xor (n : Nat) (a b : BitVec w) : shifts taps n (a ^^^ b) = shifts taps n a ^^^ shifts taps n b := by
  induction n generalizing a b with
  | zero => rfl
  | succ n ih =>
    rw [shifts, Function.iterate_succ_apply, shift_xor]
    exact ih _ _

theorem shifts_add (m n : Nat) (c : BitVec w) : shifts taps (m + n) c = shifts taps m (shifts taps n c) :=
  Function.iterate_add_apply _ m n c

theorem shift_zero : shift taps 0#w = 0#w := by
  rw [shift, BitVec.getLsbD_zero, if_neg Bool.false_ne_true, BitVec.zero_ushiftRight]

theorem shifts_zero (n : Nat) : shifts taps n 0#w = 0#w := Function.iterate_fixed (shift_zero taps) n

theorem shifts_of_low_zero (n : Nat) (c : BitVec w) (hLow : ∀ i, i < n → c.getLsbD i = false) :
    shifts taps n c = c >>> n := by
  induction n generalizing c with
  | zero => exact (BitVec.ushiftRight_zero c).symm
  | succ n ih =>
    have hShift : shift taps c = c >>> 1 := by
      rw [shift, hLow 0 (Nat.succ_pos n), if_neg Bool.false_ne_true]
    rw [shifts, Function.iterate_succ_apply, hShift]
    refine (ih (c >>> 1) fun i hi => ?_).trans ?_
    · rw [BitVec.getLsbD_ushiftRight]
      exact hLow (1 + i) (by omega)
    · rw [← BitVec.shiftRight_add, Nat.add_comm]

section Parity

/-- Whether an odd number of the first bits are set. -/
def oddBits (bits : Nat → Bool) : Nat → Bool
  | 0 => false
  | n + 1 => oddBits bits n ^^ bits n

def parity (c : BitVec w) : Bool := oddBits c.getLsbD w

theorem oddBits_xor (f g : Nat → Bool) (n : Nat) :
    oddBits (fun i => f i ^^ g i) n = (oddBits f n ^^ oddBits g n) := by
  induction n with
  | zero => rfl
  | succ n ih => rw [oddBits, oddBits, oddBits, ih, Bool.xor_assoc, Bool.xor_left_comm (oddBits g n), ← Bool.xor_assoc]

theorem oddBits_tail (f : Nat → Bool) (n : Nat) : oddBits (fun i => f (1 + i)) n = (oddBits f (n + 1) ^^ f 0) := by
  induction n with
  | zero => simp [oddBits]
  | succ n ih =>
    rw [oddBits, ih, Nat.add_comm 1 n, Bool.xor_assoc, Bool.xor_comm (f 0), ← Bool.xor_assoc]
    rfl

theorem oddBits_of_le {f : Nat → Bool} {m n : Nat} (h : m ≤ n) (hZero : ∀ i, m ≤ i → f i = false) :
    oddBits f n = oddBits f m := by
  induction h with
  | refl => rfl
  | step h ih => rw [oddBits, ih, hZero _ h, Bool.xor_false]

theorem parity_xor (a b : BitVec w) : parity (a ^^^ b) = (parity a ^^ parity b) := by
  have hBits : (a ^^^ b).getLsbD = fun i => a.getLsbD i ^^ b.getLsbD i := funext fun _ => BitVec.getLsbD_xor
  rw [parity, hBits, oddBits_xor]
  rfl

theorem parity_setWidth (hWidth : k ≤ w) (s : BitVec k) : parity (s.setWidth w) = parity s := by
  have hBits : (s.setWidth w).getLsbD = s.getLsbD := by
    funext i
    rw [BitVec.getLsbD_setWidth]
    by_cases hIn : i < w
    · rw [decide_eq_true hIn, Bool.true_and]
    · rw [BitVec.getLsbD_of_ge s i (by omega), Bool.and_false]
  rw [parity, hBits, oddBits_of_le hWidth fun i hi => BitVec.getLsbD_of_ge s i hi]
  rfl

variable {taps} (hTaps : parity taps = true)
include hTaps

theorem parity_shift (c : BitVec w) : parity (shift taps c) = parity c := by
  have hDown : parity (c >>> 1) = (parity c ^^ c.getLsbD 0) := by
    rw [parity, funext fun i => BitVec.getLsbD_ushiftRight c 1 i, oddBits_tail, oddBits,
      BitVec.getLsbD_of_ge c w (Nat.le_refl w), Bool.xor_false]
    rfl
  rw [shift]
  split
  · rename_i hLow
    rw [parity_xor, hDown, hTaps, hLow, Bool.xor_assoc, Bool.xor_self, Bool.xor_false]
  · rename_i hLow
    rw [hDown, Bool.eq_false_iff.mpr hLow, Bool.xor_false]

theorem parity_shifts (n : Nat) (c : BitVec w) : parity (shifts taps n c) = parity c := by
  induction n generalizing c with
  | zero => rfl
  | succ n ih => exact (ih _).trans (parity_shift hTaps c)

/-- The register keeps the parity of all that it has been fed. -/
theorem parity_feed (hWidth : k ≤ w) (c : BitVec w) (symbols : List (BitVec k)) :
    parity (feed taps c symbols) = symbols.foldl (fun odd symbol => odd ^^ parity symbol) (parity c) := by
  induction symbols generalizing c with
  | nil => rfl
  | cons symbol symbols ih =>
    have hAbsorb : parity (absorb taps c symbol) = (parity c ^^ parity symbol) := by
      rw [absorb, parity_shifts hTaps, parity_xor, parity_setWidth hWidth]
    rw [List.foldl_cons, ← hAbsorb, ← ih]
    rfl

end Parity

section Injective

variable {taps} (hTop : taps.msb = true)
include hTop

theorem width_pos : 0 < w := by
  rw [Nat.pos_iff_ne_zero]
  rintro rfl
  rw [BitVec.msb_eq_getLsbD_last] at hTop
  simp at hTop

theorem msb_shift (c : BitVec w) : (shift taps c).msb = c.getLsbD 0 := by
  have hPos := width_pos hTop
  have hZero : (c >>> 1).msb = false := by
    rw [BitVec.msb_ushiftRight]
    rfl
  rw [shift]
  cases hLow : c.getLsbD 0 with
  | false => rw [if_neg Bool.false_ne_true, hZero]
  | true => rw [if_pos rfl, BitVec.msb_xor, hZero, hTop, Bool.false_xor]

theorem shift_injective : Function.Injective (shift taps) := by
  intro a b hSame
  have hLow : a.getLsbD 0 = b.getLsbD 0 := by
    rw [← msb_shift hTop a, hSame, msb_shift hTop]
  have hHigh : a >>> 1 = b >>> 1 := by
    rw [shift, shift, hLow] at hSame
    split at hSame
    · exact BitVec.xor_left_inj taps |>.mp hSame
    · exact hSame
  apply BitVec.eq_of_getLsbD_eq
  intro i hi
  cases i with
  | zero => exact hLow
  | succ i =>
    have hBit := congrArg (fun c => BitVec.getLsbD c i) hHigh
    simp only [BitVec.getLsbD_ushiftRight] at hBit
    rw [Nat.add_comm]
    exact hBit

theorem shifts_injective (n : Nat) : Function.Injective (shifts taps n) := (shift_injective hTop).iterate n

theorem absorb_injective (symbol : BitVec k) : Function.Injective fun c => absorb taps c symbol := by
  intro a b hSame
  exact BitVec.xor_left_inj _ |>.mp (shifts_injective hTop k hSame)

theorem feed_injective (symbols : List (BitVec k)) : Function.Injective fun c => feed taps c symbols := by
  induction symbols with
  | nil => exact Function.injective_id
  | cons symbol symbols ih => exact fun a b hSame => absorb_injective hTop symbol (ih hSame)

end Injective

section Pairs

variable (hWidth : 2 * k = w)
include hWidth

theorem absorb_absorb (c : BitVec w) (s t : BitVec k) :
    absorb taps (absorb taps c s) t = shifts taps (k + k) (c ^^^ (s.setWidth w ^^^ t.setWidth w <<< k)) := by
  have hBack : (t.setWidth w <<< k) >>> k = t.setWidth w := by
    apply BitVec.eq_of_getLsbD_eq
    intro i hi
    simp only [BitVec.getLsbD_ushiftRight, BitVec.getLsbD_shiftLeft, BitVec.getLsbD_setWidth]
    by_cases hIn : i < k
    · have hSum : k + i < w := by omega
      simp [hSum, hi]
    · have hGone := BitVec.getLsbD_of_ge t i (Nat.not_lt.mp hIn)
      simp [hGone]
  have hHigh : shifts taps k (t.setWidth w <<< k) = t.setWidth w := by
    rw [shifts_of_low_zero, hBack]
    intro i hi
    rw [BitVec.getLsbD_shiftLeft, decide_eq_true hi, Bool.not_true, Bool.and_false, Bool.false_and]
  rw [absorb, absorb, shifts_add, ← BitVec.xor_assoc, shifts_xor taps k (c ^^^ s.setWidth w), hHigh]

theorem pair_injective {s t s' t' : BitVec k}
    (h : s.setWidth w ^^^ t.setWidth w <<< k = s'.setWidth w ^^^ t'.setWidth w <<< k) : s = s' ∧ t = t' := by
  have hForm : ∀ (x y : BitVec k) (i : Nat), i < w →
      (x.setWidth w ^^^ y.setWidth w <<< k).getLsbD i = (x.getLsbD i ^^ (decide (k ≤ i) && y.getLsbD (i - k))) := by
    intro x y i hi
    have hSub : i - k < w := by omega
    have hOut : (!decide (i < k)) = decide (k ≤ i) := by
      rw [← decide_not, decide_eq_decide]
      exact Nat.not_lt
    rw [BitVec.getLsbD_xor, BitVec.getLsbD_setWidth, BitVec.getLsbD_shiftLeft, BitVec.getLsbD_setWidth,
      decide_eq_true hi, decide_eq_true hSub, hOut, Bool.true_and, Bool.true_and, Bool.true_and]
  have hBit : ∀ i, i < w → (s.getLsbD i ^^ (decide (k ≤ i) && t.getLsbD (i - k))) =
      (s'.getLsbD i ^^ (decide (k ≤ i) && t'.getLsbD (i - k))) := by
    intro i hi
    rw [← hForm s t i hi, ← hForm s' t' i hi, h]
  constructor
  · apply BitVec.eq_of_getLsbD_eq
    intro i hi
    have hSame := hBit i (by omega)
    simpa [Nat.not_le.mpr hi] using hSame
  · apply BitVec.eq_of_getLsbD_eq
    intro i hi
    have hSame := hBit (k + i) (by omega)
    rw [BitVec.getLsbD_of_ge s _ (Nat.le_add_right _ _), BitVec.getLsbD_of_ge s' _ (Nat.le_add_right _ _)] at hSame
    simpa using hSame

variable {taps} (hTop : taps.msb = true)
include hTop

theorem absorb_absorb_injective {c : BitVec w} {s t s' t' : BitVec k}
    (h : absorb taps (absorb taps c s) t = absorb taps (absorb taps c s') t') : s = s' ∧ t = t' := by
  rw [absorb_absorb taps hWidth, absorb_absorb taps hWidth] at h
  exact pair_injective hWidth (BitVec.xor_right_inj c |>.mp (shifts_injective hTop (k + k) h))

theorem absorb_absorb_eq_zero_iff {c : BitVec w} {s t : BitVec k} :
    absorb taps (absorb taps c s) t = 0#w ↔ c = s.setWidth w ^^^ t.setWidth w <<< k := by
  rw [absorb_absorb taps hWidth, ← shifts_zero taps (k + k), (shifts_injective hTop (k + k)).eq_iff, BitVec.xor_eq_zero_iff]

theorem feed_pair_injective {c : BitVec w} {before after : List (BitVec k)} {s t s' t' : BitVec k}
    (h : feed taps c (before ++ s :: t :: after) = feed taps c (before ++ s' :: t' :: after)) : s = s' ∧ t = t' := by
  rw [feed, feed, List.foldl_append, List.foldl_append] at h
  exact absorb_absorb_injective hWidth hTop (feed_injective hTop after h)

end Pairs

end EdgeGateway.ShiftRegister
