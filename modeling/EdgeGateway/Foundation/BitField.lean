import Mathlib.Data.List.GetD
import Mathlib.Data.Nat.ModEq

/-! # Fields of bits in a list of bytes

A field is a number of bits with a place for each.
-/

namespace EdgeGateway.BitField

variable {w : Nat}

def bit (bytes : List (BitVec 8)) (k : Nat) : Bool := (bytes.getD (k / 8) 0).getLsbD (k % 8)

structure Reads (place : Nat → Nat) (length : Nat) (bytes : List (BitVec 8)) (value : BitVec w) : Prop where
  bits : ∀ j, j < w → value.getLsbD j = (decide (j < length) && bit bytes (place j))

structure Writes (place : Nat → Nat) (length : Nat) (bytes : List (BitVec 8)) (value : BitVec w)
    (written : List (BitVec 8)) : Prop where
  size : written.length = bytes.length
  inside : ∀ j, j < length → bit written (place j) = value.getLsbD j
  outside : ∀ k, (∀ j, j < length → place j ≠ k) → bit written k = bit bytes k

theorem eq_of_bits {bytes other : List (BitVec 8)} (hSize : bytes.length = other.length)
    (hBits : ∀ k, bit bytes k = bit other k) : bytes = other := by
  apply List.ext_getElem hSize
  intro i hi hi'
  apply BitVec.eq_of_getLsbD_eq
  intro r hr
  have hBit := hBits (8 * i + r)
  rw [bit, bit, Nat.mul_add_div (by decide), Nat.mul_add_mod, Nat.div_eq_of_lt hr, Nat.mod_eq_of_lt hr, Nat.add_zero,
    List.getD_eq_getElem _ _ hi, List.getD_eq_getElem _ _ hi'] at hBit
  exact hBit

variable {place : Nat → Nat} {length : Nat} {bytes written : List (BitVec 8)} {value back : BitVec w}

theorem Reads.of_writes (hWrites : Writes place length bytes value written) (hReads : Reads place length written back) :
    back = BitVec.ofNat w (value.toNat % 2 ^ length) := by
  apply BitVec.eq_of_getLsbD_eq
  intro j hj
  rw [hReads.bits j hj, BitVec.getLsbD_ofNat, Nat.testBit_mod_two_pow]
  by_cases hIn : j < length
  · rw [hWrites.inside j hIn]
    simp [hj, hIn, BitVec.testBit_toNat]
  · simp [hIn]

theorem Writes.of_reads (hReads : Reads place length bytes value) (hWidth : length ≤ w)
    (hWrites : Writes place length bytes value written) : written = bytes := by
  apply eq_of_bits hWrites.size
  intro k
  by_cases hPlace : ∃ j, j < length ∧ place j = k
  · obtain ⟨j, hj, rfl⟩ := hPlace
    rw [hWrites.inside j hj, hReads.bits j (hj.trans_le hWidth), decide_eq_true hj, Bool.true_and]
  · exact hWrites.outside k fun j hj hk => hPlace ⟨j, hj, hk⟩

/-- The order of the bits in the number is its own inverse. -/
structure Order (target : Nat → Nat) (length : Nat) : Prop where
  lt : ∀ i, i < length → target i < length
  twice : ∀ i, i < length → target (target i) = i

theorem order_id (length : Nat) : Order (fun i => i) length := ⟨fun _ hi => hi, fun _ _ => rfl⟩

theorem order_reverse (length : Nat) : Order (fun i => length - 1 - i) length :=
  ⟨fun i hi => by omega, fun i hi => by omega⟩

def mirror (j : Nat) : Nat := j / 8 * 8 + (7 - j % 8)

theorem order_mirror (count : Nat) : Order mirror (8 * count) :=
  ⟨fun i hi => by rw [mirror]; omega, fun i hi => by rw [mirror, mirror]; omega⟩

theorem mirror_same_iff {count : Nat} {bits : Nat → Bool} {byte : Nat → BitVec 8}
    (hBits : ∀ i r, i < count → r < 8 → bits (8 * i + r) = (byte i).getLsbD r) :
    (∀ j, j < 8 * count → bits (mirror j) = bits j) ↔ ∀ i, i < count → (byte i).reverse = byte i := by
  have hMirror : ∀ i r, i < count → r < 8 → bits (mirror (8 * i + r)) = (byte i).reverse.getLsbD r := by
    intro i r hi hr
    have hPlace : mirror (8 * i + r) = 8 * i + (7 - r) := by
      rw [mirror]
      omega
    rw [hPlace, hBits i _ hi (by omega), BitVec.getLsbD_reverse, BitVec.getMsbD_eq_getLsbD, decide_eq_true hr,
      Bool.true_and]
  constructor
  · intro hSame i hi
    apply BitVec.eq_of_getLsbD_eq
    intro r hr
    rw [← hMirror i r hi hr, ← hBits i r hi hr]
    exact hSame _ (by omega)
  · intro hSame j hj
    have hParts : j = 8 * (j / 8) + j % 8 := (Nat.div_add_mod j 8).symm
    have hByte : j / 8 < count := by omega
    have hBit : j % 8 < 8 := Nat.mod_lt j (by decide)
    rw [hParts, hMirror _ _ hByte hBit, hBits _ _ hByte hBit, hSame _ hByte]

variable {other : Nat → Nat} {order : Nat → Nat}

theorem Reads.eq_iff (hReads : Reads place length bytes value) (hOther : Reads other length bytes back)
    (hWidth : length ≤ w) (hPlaces : ∀ j, j < length → other j = place (order j)) :
    value = back ↔ ∀ j, j < length → bit bytes (place (order j)) = bit bytes (place j) := by
  constructor
  · rintro rfl j hj
    have hThis := hReads.bits j (hj.trans_le hWidth)
    have hThat := hOther.bits j (hj.trans_le hWidth)
    rw [decide_eq_true hj, Bool.true_and] at hThis hThat
    rw [← hPlaces j hj, ← hThat, hThis]
  · intro hSame
    apply BitVec.eq_of_getLsbD_eq
    intro j hj
    rw [hReads.bits j hj, hOther.bits j hj]
    by_cases hIn : j < length
    · rw [hPlaces j hIn, hSame j hIn]
    · rw [decide_eq_false hIn, Bool.false_and, Bool.false_and]

theorem Writes.eq_iff {rewritten : List (BitVec 8)} (hOrder : Order order length)
    (hWrites : Writes place length bytes value written) (hOther : Writes other length bytes value rewritten)
    (hPlaces : ∀ j, j < length → other j = place (order j)) :
    written = rewritten ↔ ∀ j, j < length → value.getLsbD (order j) = value.getLsbD j := by
  constructor
  · rintro rfl j hj
    rw [← hWrites.inside _ (hOrder.lt j hj), ← hPlaces j hj]
    exact hOther.inside j hj
  · intro hSame
    apply eq_of_bits (hWrites.size.trans hOther.size.symm)
    intro k
    by_cases hPlace : ∃ j, j < length ∧ place j = k
    · obtain ⟨j, hj, rfl⟩ := hPlace
      have hBack : other (order j) = place j := by rw [hPlaces _ (hOrder.lt j hj), hOrder.twice j hj]
      rw [hWrites.inside j hj, ← hBack, hOther.inside _ (hOrder.lt j hj), hSame j hj]
    · rw [hWrites.outside k fun j hj hk => hPlace ⟨j, hj, hk⟩, hOther.outside k]
      intro j hj hk
      exact hPlace ⟨order j, hOrder.lt j hj, (hPlaces j hj).symm.trans hk⟩

theorem bit_set {i : Nat} (byte : BitVec 8) (hi : i < bytes.length) (k : Nat) :
    bit (bytes.set i byte) k = if k / 8 = i then byte.getLsbD (k % 8) else bit bytes k := by
  rw [bit, bit, List.getD_eq_getElem?_getD, List.getElem?_set]
  by_cases hk : k / 8 = i
  · rw [if_pos hk, if_pos hk.symm, if_pos hi]
    rfl
  · rw [if_neg hk, if_neg (Ne.symm hk), ← List.getD_eq_getElem?_getD]

theorem getLsbD_one_shiftLeft (n j : Nat) (hj : j < w) : (1#w <<< n).getLsbD j = decide (j = n) := by
  rw [BitVec.getLsbD_shiftLeft, BitVec.getLsbD_one]
  by_cases hn : j = n
  · subst hn
    simp [hj]
    omega
  · simp [hj, hn]
    omega

theorem shiftRight_and_one (byte : BitVec w) (n : Nat) (hw : 0 < w) :
    (byte >>> n &&& 1#w ≠ 0#w) ↔ byte.getLsbD n = true := by
  rw [ne_eq, BitVec.and_one_eq_setWidth_ofBool_getLsbD, BitVec.getLsbD_ushiftRight, Nat.add_zero]
  cases byte.getLsbD n with
  | false => simp
  | true =>
    refine iff_of_true (fun hZero => ?_) rfl
    have hBit := congrArg (fun c => BitVec.getLsbD c 0) hZero
    simp [hw] at hBit

theorem setWidth_low_byte (value : BitVec w) (hw : 8 ≤ w) : (value &&& 0xFF).setWidth 8 = value.setWidth 8 := by
  have hWidth : 2 ^ 8 ≤ 2 ^ w := Nat.pow_le_pow_right (by decide) hw
  have hMask : (0xFF : BitVec w).toNat = 2 ^ 8 - 1 := by
    exact (BitVec.toNat_ofNat 0xFF w).trans (Nat.mod_eq_of_lt (by omega))
  apply BitVec.eq_of_toNat_eq
  rw [BitVec.toNat_setWidth, BitVec.toNat_setWidth, BitVec.toNat_and, hMask, Nat.and_two_pow_sub_one_eq_mod, Nat.mod_mod]

def readBits (w : Nat) (physical target : Nat → Nat) (length : Nat) (bytes : List (BitVec 8)) : BitVec w :=
  (List.range length).foldl (fun value i => if bit bytes (physical i) then value ||| 1#w <<< target i else value) 0#w

def setBit (bytes : List (BitVec 8)) (k : Nat) (b : Bool) : List (BitVec 8) :=
  bytes.set (k / 8) (if b then bytes.getD (k / 8) 0 ||| 1#8 <<< (k % 8) else bytes.getD (k / 8) 0 &&& ~~~(1#8 <<< (k % 8)))

def writeBits (physical target : Nat → Nat) (length : Nat) (bytes : List (BitVec 8)) (value : BitVec w) :
    List (BitVec 8) :=
  (List.range length).foldl (fun bytes i => setBit bytes (physical i) (value.getLsbD (target i))) bytes

theorem bit_setBit {k : Nat} (b : Bool) (hk : k < 8 * bytes.length) (k' : Nat) :
    bit (setBit bytes k b) k' = if k' = k then b else bit bytes k' := by
  rw [setBit, bit_set _ (by omega)]
  have hMod : k' % 8 < 8 := Nat.mod_lt _ (by decide)
  by_cases hByte : k' / 8 = k / 8
  · have hSame : k' = k ↔ k' % 8 = k % 8 := by omega
    rw [if_pos hByte]
    cases b with
    | true =>
      rw [if_pos rfl, BitVec.getLsbD_or, getLsbD_one_shiftLeft _ _ hMod, ← hByte]
      simp only [hSame]
      by_cases hBit : k' % 8 = k % 8 <;> simp [hBit, bit]
    | false =>
      rw [if_neg Bool.false_ne_true, BitVec.getLsbD_and, BitVec.getLsbD_not, getLsbD_one_shiftLeft _ _ hMod, ← hByte]
      simp only [hSame]
      by_cases hBit : k' % 8 = k % 8 <;> simp [hBit, bit, hMod]
  · rw [if_neg hByte, if_neg (by rintro rfl; exact hByte rfl)]

theorem length_setBit (k : Nat) (b : Bool) : (setBit bytes k b).length = bytes.length := List.length_set

theorem readBits_bit (physical target : Nat → Nat) (length : Nat) {j : Nat} (hj : j < w) :
    (readBits w physical target length bytes).getLsbD j = true ↔
      ∃ i, i < length ∧ target i = j ∧ bit bytes (physical i) = true := by
  induction length with
  | zero =>
    rw [readBits, List.range_zero, List.foldl_nil, BitVec.getLsbD_zero]
    simp
  | succ n ih =>
    rw [readBits, List.range_succ, List.foldl_append, List.foldl_cons, List.foldl_nil, ← readBits]
    constructor
    · intro hBit
      by_cases hSet : bit bytes (physical n) = true
      · rw [if_pos hSet, BitVec.getLsbD_or, getLsbD_one_shiftLeft _ _ hj, Bool.or_eq_true, decide_eq_true_eq] at hBit
        obtain hBefore | hHere := hBit
        · obtain ⟨i, hi, hTarget⟩ := ih.mp hBefore
          exact ⟨i, Nat.lt_succ_of_lt hi, hTarget⟩
        · exact ⟨n, Nat.lt_succ_self n, hHere.symm, hSet⟩
      · rw [if_neg hSet] at hBit
        obtain ⟨i, hi, hTarget⟩ := ih.mp hBit
        exact ⟨i, Nat.lt_succ_of_lt hi, hTarget⟩
    · rintro ⟨i, hi, hTarget, hBit⟩
      obtain hBefore | rfl := Nat.lt_succ_iff_lt_or_eq.mp hi
      · have hOld := ih.mpr ⟨i, hBefore, hTarget, hBit⟩
        split
        · rw [BitVec.getLsbD_or, hOld, Bool.true_or]
        · exact hOld
      · rw [if_pos hBit, BitVec.getLsbD_or, getLsbD_one_shiftLeft _ _ hj, decide_eq_true hTarget.symm, Bool.or_true]

theorem reads_readBits {physical target : Nat → Nat} (hOrder : Order target length) :
    Reads (fun j => physical (target j)) length bytes (readBits w physical target length bytes) := by
  constructor
  intro j hj
  rw [Bool.eq_iff_iff, readBits_bit physical target length hj, Bool.and_eq_true, decide_eq_true_eq]
  constructor
  · rintro ⟨i, hi, rfl, hBit⟩
    exact ⟨hOrder.lt i hi, by rw [hOrder.twice i hi]; exact hBit⟩
  · rintro ⟨hIn, hBit⟩
    exact ⟨target j, hOrder.lt j hIn, hOrder.twice j hIn, hBit⟩

theorem writeBits_spec {physical target : Nat → Nat} (length : Nat)
    (hInjective : ∀ i j, i < length → j < length → physical i = physical j → i = j)
    (hInside : ∀ i, i < length → physical i < 8 * bytes.length) (value : BitVec w) :
    (writeBits physical target length bytes value).length = bytes.length ∧
      (∀ i, i < length → bit (writeBits physical target length bytes value) (physical i) = value.getLsbD (target i)) ∧
      ∀ k, (∀ i, i < length → physical i ≠ k) → bit (writeBits physical target length bytes value) k = bit bytes k := by
  induction length with
  | zero => exact ⟨rfl, fun i hi => absurd hi (Nat.not_lt_zero i), fun _ _ => rfl⟩
  | succ n ih =>
    obtain ⟨hSize, hBits, hOutside⟩ := ih (fun i j hi hj => hInjective i j (Nat.lt_succ_of_lt hi) (Nat.lt_succ_of_lt hj))
      fun i hi => hInside i (Nat.lt_succ_of_lt hi)
    have hStep : writeBits physical target (n + 1) bytes value =
        setBit (writeBits physical target n bytes value) (physical n) (value.getLsbD (target n)) := by
      rw [writeBits, List.range_succ, List.foldl_append]
      rfl
    have hLast : physical n < 8 * (writeBits physical target n bytes value).length := by
      rw [hSize]
      exact hInside n (Nat.lt_succ_self n)
    rw [hStep]
    refine ⟨by rw [length_setBit, hSize], fun i hi => ?_, fun k hk => ?_⟩
    · rw [bit_setBit _ hLast]
      split
      · next hSame => rw [hInjective i n hi (Nat.lt_succ_self n) hSame]
      · next hOther =>
        apply hBits
        exact lt_of_le_of_ne (Nat.le_of_lt_succ hi) (by rintro rfl; exact hOther rfl)
    · rw [bit_setBit _ hLast, if_neg (Ne.symm (hk n (Nat.lt_succ_self n)))]
      exact hOutside k fun i hi => hk i (Nat.lt_succ_of_lt hi)

theorem writes_writeBits {physical target : Nat → Nat} (hOrder : Order target length)
    (hInjective : ∀ i j, i < length → j < length → physical i = physical j → i = j)
    (hInside : ∀ i, i < length → physical i < 8 * bytes.length) (value : BitVec w) :
    Writes (fun j => physical (target j)) length bytes value (writeBits physical target length bytes value) := by
  obtain ⟨hSize, hBits, hOutside⟩ := @writeBits_spec w bytes physical target length hInjective hInside value
  refine ⟨hSize, fun j hj => ?_, fun k hk => hOutside k fun i hi => ?_⟩
  · rw [hBits _ (hOrder.lt j hj), hOrder.twice j hj]
  · have hPlace := hk (target i) (hOrder.lt i hi)
    rwa [hOrder.twice i hi] at hPlace

def bytePlace (offset : Nat) (order : Nat → Nat) (j : Nat) : Nat := 8 * (offset + order (j / 8)) + j % 8

def writeBytes (offset : Nat) (order : Nat → Nat) (count : Nat) (bytes : List (BitVec 8)) (value : BitVec w) :
    List (BitVec 8) :=
  (List.range count).foldl (fun bytes i => bytes.set (offset + i) ((value >>> (8 * order i)).setWidth 8)) bytes

theorem writeBytes_spec {offset : Nat} {order : Nat → Nat} (count : Nat) (hInside : offset + count ≤ bytes.length)
    (value : BitVec w) : (writeBytes offset order count bytes value).length = bytes.length ∧
      ∀ k, bit (writeBytes offset order count bytes value) k =
        if offset ≤ k / 8 ∧ k / 8 < offset + count then value.getLsbD (8 * order (k / 8 - offset) + k % 8)
        else bit bytes k := by
  induction count with
  | zero =>
    refine ⟨rfl, fun k => ?_⟩
    rw [if_neg (by omega)]
    rfl
  | succ n ih =>
    obtain ⟨hSize, hBits⟩ := ih (by omega)
    have hStep : writeBytes offset order (n + 1) bytes value =
        (writeBytes offset order n bytes value).set (offset + n) ((value >>> (8 * order n)).setWidth 8) := by
      rw [writeBytes, List.range_succ, List.foldl_append]
      rfl
    rw [hStep]
    refine ⟨by rw [List.length_set, hSize], fun k => ?_⟩
    rw [bit_set _ (by omega), hBits]
    have hMod : k % 8 < 8 := Nat.mod_lt _ (by decide)
    by_cases hHere : k / 8 = offset + n
    · rw [if_pos hHere, if_pos (by omega), BitVec.getLsbD_setWidth, BitVec.getLsbD_ushiftRight, hHere,
        Nat.add_sub_cancel_left, decide_eq_true hMod, Bool.true_and]
    · rw [if_neg hHere]
      by_cases hBefore : offset ≤ k / 8 ∧ k / 8 < offset + n
      · rw [if_pos hBefore, if_pos (by omega)]
      · rw [if_neg hBefore, if_neg (by omega)]

theorem writes_writeBytes {offset count : Nat} {order : Nat → Nat} (hOrder : Order order count)
    (hInside : offset + count ≤ bytes.length) (value : BitVec w) :
    Writes (bytePlace offset order) (8 * count) bytes value (writeBytes offset order count bytes value) := by
  obtain ⟨hSize, hBits⟩ := @writeBytes_spec w bytes offset order count hInside value
  refine ⟨hSize, fun j hj => ?_, fun k hk => ?_⟩
  · have hQuotient : j / 8 < count := by omega
    have hBound := hOrder.lt _ hQuotient
    have hDiv : bytePlace offset order j / 8 = offset + order (j / 8) := by
      rw [bytePlace]
      omega
    have hMod : bytePlace offset order j % 8 = j % 8 := by
      rw [bytePlace]
      omega
    rw [hBits, hDiv, hMod, if_pos (by omega), Nat.add_sub_cancel_left, hOrder.twice _ hQuotient, Nat.div_add_mod]
  · rw [hBits, if_neg]
    intro hIn
    have hQuotient : k / 8 - offset < count := by omega
    have hBound := hOrder.lt _ hQuotient
    apply hk (8 * order (k / 8 - offset) + k % 8) (by omega)
    have hDiv : (8 * order (k / 8 - offset) + k % 8) / 8 = order (k / 8 - offset) := by omega
    rw [bytePlace, hDiv, hOrder.twice _ hQuotient]
    omega

def readBytesUp (w offset count : Nat) (bytes : List (BitVec 8)) : BitVec w :=
  (List.range count).foldl (fun value i => value ||| (bytes.getD (offset + i) 0).setWidth w <<< (8 * i)) 0#w

def readBytesDown (w offset count : Nat) (bytes : List (BitVec 8)) : BitVec w :=
  (List.range count).foldl (fun value i => value <<< 8 ||| (bytes.getD (offset + i) 0).setWidth w) 0#w

theorem bit_byte (i r : Nat) (hr : r < 8) : (bytes.getD i 0).getLsbD r = bit bytes (8 * i + r) := by
  rw [bit, Nat.mul_add_div (by decide), Nat.mul_add_mod, Nat.div_eq_of_lt hr, Nat.mod_eq_of_lt hr, Nat.add_zero]

theorem reads_readBytesUp (offset count : Nat) :
    Reads (bytePlace offset fun i => i) (8 * count) bytes (readBytesUp w offset count bytes) := by
  constructor
  intro j hj
  induction count with
  | zero =>
    rw [readBytesUp, List.range_zero, List.foldl_nil, BitVec.getLsbD_zero]
    simp
  | succ n ih =>
    rw [readBytesUp, List.range_succ, List.foldl_append, List.foldl_cons, List.foldl_nil, ← readBytesUp,
      BitVec.getLsbD_or, ih, BitVec.getLsbD_shiftLeft, BitVec.getLsbD_setWidth, decide_eq_true hj, Bool.true_and]
    obtain hBefore | hHere | hAbove : j < 8 * n ∨ (8 * n ≤ j ∧ j < 8 * (n + 1)) ∨ 8 * (n + 1) ≤ j := by omega
    · have hIn : j < 8 * (n + 1) := by omega
      simp [hBefore, hIn]
    · have hByte : j / 8 = n := by omega
      have hRest : j - 8 * n = j % 8 := by omega
      have hNot : ¬j < 8 * n := by omega
      have hWidth : j % 8 < w := by omega
      rw [bytePlace, hByte, ← bit_byte _ _ (Nat.mod_lt j (by decide)), hRest]
      simp [hNot, hHere.2, hWidth]
    · have hNot : ¬j < 8 * n := by omega
      have hOut : ¬j < 8 * (n + 1) := by omega
      rw [BitVec.getLsbD_of_ge _ _ (by omega : 8 ≤ j - 8 * n)]
      simp [hNot, hOut]

theorem reads_readBytesDown (offset count : Nat) :
    Reads (bytePlace offset fun i => count - 1 - i) (8 * count) bytes (readBytesDown w offset count bytes) := by
  constructor
  induction count with
  | zero =>
    intro j _
    rw [readBytesDown, List.range_zero, List.foldl_nil, BitVec.getLsbD_zero]
    simp
  | succ n ih =>
    intro j hj
    rw [readBytesDown, List.range_succ, List.foldl_append, List.foldl_cons, List.foldl_nil, ← readBytesDown,
      BitVec.getLsbD_or, BitVec.getLsbD_shiftLeft, BitVec.getLsbD_setWidth, decide_eq_true hj, Bool.true_and]
    obtain hHere | hAbove : j < 8 ∨ 8 ≤ j := by omega
    · have hIn : j < 8 * (n + 1) := by omega
      have hByte : j / 8 = 0 := by omega
      have hRest : j % 8 = j := by omega
      rw [bytePlace, hByte, hRest, bit_byte _ _ hHere]
      simp [hHere, hIn]
    · rw [ih (j - 8) (by omega), BitVec.getLsbD_of_ge _ _ hAbove]
      have hNot : ¬j < 8 := by omega
      have hIff : j - 8 < 8 * n ↔ j < 8 * (n + 1) := by omega
      simp only [hNot, hIff, decide_false, Bool.not_false, Bool.true_and, Bool.or_false]
      by_cases hIn : j < 8 * (n + 1)
      · have hPlace : bytePlace offset (fun i => n - 1 - i) (j - 8) = bytePlace offset (fun i => n + 1 - 1 - i) j := by
          rw [bytePlace, bytePlace]
          omega
        rw [hPlace]
      · simp [hIn]

end EdgeGateway.BitField
