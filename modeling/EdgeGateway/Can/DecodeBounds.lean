import EdgeGateway.Can.BitPacking
import EdgeGateway.Can.SignalValues
import EdgeGateway.Foundation.Fallible
import Mathlib.Data.Rat.Floor

/-! # The payload bytes that the codec reaches

Where no `int` operation overflows the machine computes what the plain loops compute and stays
inside the payload.
-/

namespace EdgeGateway.Can

open BitField Fallible

variable {payload : List (BitVec 8)} {can : CanSignalSpec} {bitLength : Int}

def Exact (int : IntArithmetic) : Prop := ∀ x, -2 ^ 31 ≤ x → x < 2 ^ 31 → int x = .ok x

theorem exact_strict : Exact strict := by
  intro x hLow hHigh
  rw [strict, if_pos ⟨hLow, hHigh⟩]

theorem bmod_int {x : Int} (hLow : -2 ^ 31 ≤ x) (hHigh : x < 2 ^ 31) : Int.bmod x (2 ^ 32) = x := by
  rw [Int.bmod_eq_iff (by decide)]
  refine ⟨?_, ?_, ?_⟩
  · omega
  · omega
  · simp

theorem exact_modular : Exact modular := by
  intro x hLow hHigh
  rw [modular, bmod_int hLow hHigh]

theorem bmod_le {n : Nat} : Int.bmod (n : Int) (2 ^ 32) ≤ n := by
  rw [Int.bmod]
  split <;> omega

section NoOverflow

variable {int : IntArithmetic} (hExact : Exact int) {byteOffset bitOffset length : Nat}
  (valid : ValidSignal payload can bitLength byteOffset bitOffset length)
  (hRoom : byteOffset * 8 + bitOffset + length < 2 ^ 31)

include hExact valid hRoom

theorem physicalBitIndex_exact {i : Nat} (hi : i < length) :
    Machine.physicalBitIndex int can i = .ok (physicalBitIndex can i) := by
  have hLogical : can.byteOffset * 8 + can.bitOffset + i = ((byteOffset * 8 + bitOffset + i : Nat) : Int) := by
    rw [valid.byteOffset_eq, valid.bitOffset_eq]
    push_cast
    rfl
  have hByte := valid.byteOffset_eq
  have hBit := valid.bitOffset_eq
  have hStart : int (can.byteOffset * 8) = .ok (can.byteOffset * 8) := hExact _ (by omega) (by omega)
  have hBase : int (can.byteOffset * 8 + can.bitOffset) = .ok (can.byteOffset * 8 + can.bitOffset) :=
    hExact _ (by omega) (by omega)
  have hIndex : int (can.byteOffset * 8 + can.bitOffset + i) = .ok (can.byteOffset * 8 + can.bitOffset + i) :=
    hExact _ (by omega) (by omega)
  rw [Machine.physicalBitIndex, hStart]
  change ((int (can.byteOffset * 8 + can.bitOffset)).bind _) = _
  rw [hBase]
  change ((int (can.byteOffset * 8 + can.bitOffset + i)).bind _) = _
  rw [hIndex]
  change (if _ then _ else _) = _
  rw [physicalBitIndex]
  by_cases hOrder : normalizeType can.bitOrder = "msb0".toList
  · rw [if_pos hOrder]
    dsimp only
    rw [if_pos hOrder, hLogical, Int.tdiv_eq_ediv_of_nonneg (Int.natCast_nonneg _),
      Int.tmod_eq_emod_of_nonneg (Int.natCast_nonneg _)]
    exact hExact _ (by omega) (by omega)
  · rw [if_neg hOrder]
    dsimp only
    rw [if_neg hOrder]

omit hRoom in
theorem byteOffset_exact {i : Nat} (hi : byteOffset + i < 2 ^ 31) : int (can.byteOffset + i) = .ok (can.byteOffset + i) := by
  have hByte := valid.byteOffset_eq
  exact hExact _ (by omega) (by omega)

omit hExact hRoom in
theorem physical_parts {i : Nat} (hi : i < length) : Machine.InPayload payload ((physicalBitIndex can i).tdiv 8) ∧
    ((physicalBitIndex can i).tmod 8 % 32).toNat = ((physicalBitIndex can i).tmod 8).toNat := by
  have hInside := physical_inside valid hi
  rw [physical_eq valid] at hInside
  rw [physicalBitIndex_eq valid, Int.tdiv_eq_ediv_of_nonneg (Int.natCast_nonneg _),
    Int.tmod_eq_emod_of_nonneg (Int.natCast_nonneg _)]
  constructor
  · rw [Machine.InPayload]
    omega
  · omega

omit hExact hRoom in
theorem byte_in_payload (hAligned : byteAligned can bitLength = true) {i : Nat} (hi : i < (bitLength.tdiv 8).toNat) :
    Machine.InPayload payload (can.byteOffset + i) := by
  obtain ⟨hZero, hWhole, hCount, -⟩ := aligned_parts valid hAligned
  have hByte := valid.byteOffset_eq
  have hInside := valid.inside
  rw [Machine.InPayload]
  omega

theorem extract_exact :
    Machine.extractUnsignedBits int payload can bitLength = .ok (extractUnsignedBits payload can bitLength) := by
  have hLength : bitLength.toNat = length := by rw [valid.length_eq, Int.toNat_natCast]
  cases hAligned : byteAligned can bitLength with
  | true =>
    obtain ⟨hZero, hWhole, hCount, -⟩ := aligned_parts valid hAligned
    rw [Machine.extractUnsignedBits, extractUnsignedBits, hAligned, if_pos rfl, if_pos rfl]
    refine foldlM_ok (fun _ => True) trivial fun i hi value _ => ⟨?_, trivial⟩
    have hi := List.mem_range.mp hi
    rw [byteOffset_exact hExact valid (by omega)]
    change (Machine.readByte payload (can.byteOffset + i)).bind _ = _
    rw [Machine.readByte, if_pos (byte_in_payload valid hAligned hi)]
    rfl
  | false =>
    rw [Machine.extractUnsignedBits, extractUnsignedBits, hAligned, if_neg Bool.false_ne_true,
      if_neg Bool.false_ne_true]
    refine foldlM_ok (fun _ => True) trivial fun i hi value _ => ⟨?_, trivial⟩
    have hi : i < length := hLength ▸ List.mem_range.mp hi
    obtain ⟨hByte, hBit⟩ := physical_parts valid hi
    rw [physicalBitIndex_exact hExact valid hRoom hi]
    change (Machine.readByte payload ((physicalBitIndex can i).tdiv 8)).bind _ = _
    rw [Machine.readByte, if_pos hByte]
    simp only [Except.bind, Machine.bitOf, hBit]
    rfl

theorem write_exact (value : BitVec 64) : Machine.writeUnsignedBits int payload can bitLength value =
    .ok (writeUnsignedBits payload can bitLength value) := by
  have hLength : bitLength.toNat = length := by rw [valid.length_eq, Int.toNat_natCast]
  have hSame : ∀ {bytes : List (BitVec 8)} {index : Int}, bytes.length = payload.length →
      Machine.InPayload payload index → Machine.InPayload bytes index := by
    intro bytes index hSize hInside
    rwa [Machine.InPayload, hSize]
  cases hAligned : byteAligned can bitLength with
  | true =>
    obtain ⟨hZero, hWhole, hCount, -⟩ := aligned_parts valid hAligned
    rw [Machine.writeUnsignedBits, writeUnsignedBits, hAligned, if_pos rfl, if_pos rfl]
    refine foldlM_ok (fun bytes => bytes.length = payload.length) rfl fun i hi bytes hSize => ⟨?_, ?_⟩
    · have hi := List.mem_range.mp hi
      rw [byteOffset_exact hExact valid (by omega)]
      change (Machine.readByte bytes (can.byteOffset + i)).bind _ = _
      rw [Machine.readByte, if_pos (hSame hSize (byte_in_payload valid hAligned hi))]
      rfl
    · rw [List.length_set]
      exact hSize
  | false =>
    rw [Machine.writeUnsignedBits, writeUnsignedBits, hAligned, if_neg Bool.false_ne_true, if_neg Bool.false_ne_true]
    refine foldlM_ok (fun bytes => bytes.length = payload.length) rfl fun i hi bytes hSize => ⟨?_, ?_⟩
    · have hi : i < length := hLength ▸ List.mem_range.mp hi
      obtain ⟨hByte, hBit⟩ := physical_parts valid hi
      rw [physicalBitIndex_exact hExact valid hRoom hi]
      change (Machine.readByte bytes ((physicalBitIndex can i).tdiv 8)).bind _ = _
      rw [Machine.readByte, if_pos (hSame hSize hByte)]
      simp only [Except.bind, hBit]
      exact congrArg Except.ok (apply_ite (bytes.set _) _ _ _)
    · dsimp only
      rw [apply_ite List.length, List.length_set, List.length_set, ite_self]
      exact hSize

end NoOverflow

def BadRange (can : CanSignalSpec) (bitLength : Int) : Prop :=
  can.byteOffset < 0 ∨ can.bitOffset < 0 ∨ can.bitOffset > 7 ∨ bitLength ≤ 0 ∨ bitLength > 64

theorem validate_exact {int : IntArithmetic} (hExact : Exact int) (hRange : ¬BadRange can bitLength)
    (hRoom : can.byteOffset * 8 + can.bitOffset + bitLength < 2 ^ 31) :
    Machine.validateSignalBounds int payload can bitLength =
      if can.byteOffset * 8 + can.bitOffset + bitLength > Int.bmod (payload.length * 8) (2 ^ 32) then
        invalid "CAN payload shorter than signal range"
      else .ok () := by
  rw [BadRange] at hRange
  rw [Machine.validateSignalBounds, if_neg hRange, hExact (can.byteOffset * 8) (by omega) (by omega)]
  change (int (can.byteOffset * 8 + can.bitOffset)).bind _ = _
  rw [hExact _ (by omega) (by omega)]
  change (int (can.byteOffset * 8 + can.bitOffset + bitLength)).bind _ = _
  rw [hExact _ (by omega) (by omega)]
  rfl

theorem valid_of_machine {int : IntArithmetic} (hExact : Exact int)
    (hRoom : can.byteOffset * 8 + can.bitOffset + bitLength < 2 ^ 31)
    (hPassed : Machine.validateSignalBounds int payload can bitLength = .ok ()) :
    validateSignalBounds payload can bitLength = .ok () := by
  rw [validateSignalBounds]
  by_cases hRange : BadRange can bitLength
  · rw [BadRange] at hRange
    rw [Machine.validateSignalBounds, if_pos hRange] at hPassed
    cases hPassed
  · have hSize := @bmod_le (payload.length * 8)
    rw [Nat.cast_mul, Nat.cast_ofNat] at hSize
    rw [validate_exact hExact hRange hRoom] at hPassed
    rw [BadRange] at hRange
    rw [if_neg hRange]
    split at hPassed
    · cases hPassed
    · dsimp only
      rw [if_neg (by omega)]

/-- The physical bit that the position of the `i`-th bit wraps to. -/
def wrappedBit (can : CanSignalSpec) (i : Nat) : Int :=
  let baseBit := Int.bmod (Int.bmod (can.byteOffset * 8) (2 ^ 32) + can.bitOffset) (2 ^ 32)
  let logicalBit := Int.bmod (baseBit + i) (2 ^ 32)
  if normalizeType can.bitOrder = "msb0".toList then
    Int.bmod (logicalBit.tdiv 8 * 8 + (7 - logicalBit.tmod 8)) (2 ^ 32)
  else logicalBit

def WrapsInside (payload : List (BitVec 8)) (can : CanSignalSpec) (bitLength : Int) : Prop :=
  if byteAligned can bitLength then
    ∀ i, i < (bitLength.tdiv 8).toNat → Machine.InPayload payload (Int.bmod (can.byteOffset + i) (2 ^ 32))
  else ∀ i, i < bitLength.toNat → Machine.InPayload payload ((wrappedBit can i).tdiv 8)

theorem physicalBitIndex_modular (i : Nat) : Machine.physicalBitIndex modular can i = .ok (wrappedBit can i) := by
  rw [wrappedBit]
  by_cases hOrder : normalizeType can.bitOrder = "msb0".toList
  · rw [if_pos hOrder]
    exact if_pos hOrder
  · rw [if_neg hOrder]
    exact if_neg hOrder

theorem extract_outside_iff :
    Machine.extractUnsignedBits modular payload can bitLength = .error .outside ↔ ¬WrapsInside payload can bitLength := by
  rw [Machine.extractUnsignedBits, WrapsInside]
  cases byteAligned can bitLength with
  | true =>
    rw [if_pos rfl, if_pos rfl,
      @foldlM_error_iff _ _ _ _ _ fun (i : Nat) => Machine.InPayload payload (Int.bmod (can.byteOffset + i) (2 ^ 32))]
    · simp only [List.mem_range, not_forall, exists_prop]
    · intro i _ hInside value
      change ∃ s', (Machine.readByte payload _).bind _ = .ok s'
      rw [Machine.readByte, if_pos hInside]
      exact ⟨_, rfl⟩
    · intro i _ hOutside value
      change (Machine.readByte payload _).bind _ = _
      rw [Machine.readByte, if_neg hOutside]
      rfl
  | false =>
    rw [if_neg Bool.false_ne_true, if_neg Bool.false_ne_true,
      @foldlM_error_iff _ _ _ _ _ fun (i : Nat) => Machine.InPayload payload ((wrappedBit can i).tdiv 8)]
    · simp only [List.mem_range, not_forall, exists_prop]
    · intro i _ hInside value
      rw [physicalBitIndex_modular]
      change ∃ s', (Machine.readByte payload _).bind _ = .ok s'
      rw [Machine.readByte, if_pos hInside]
      exact ⟨_, rfl⟩
    · intro i _ hOutside value
      rw [physicalBitIndex_modular]
      change (Machine.readByte payload _).bind _ = _
      rw [Machine.readByte, if_neg hOutside]
      rfl

theorem validate_modular : Machine.validateSignalBounds modular payload can bitLength = .ok () ∨
    ∃ message, Machine.validateSignalBounds modular payload can bitLength = .error (.thrown message) := by
  rw [Machine.validateSignalBounds]
  split
  · exact .inr ⟨_, rfl⟩
  · dsimp only [modular, bind, Except.bind]
    split
    · exact .inr ⟨_, rfl⟩
    · exact .inl rfl

section Decode

variable {K : Type} [Field K] [LinearOrder K] (platform : Platform K) (spec : ReadSpec K)

omit [LinearOrder K] in
theorem rawValue_ne_outside (type : StdString) (signedFlag : Bool) (bitLength : Int) (raw : BitVec 64) :
    CanSignalCodec.rawValue platform type signedFlag bitLength raw ≠ .error .outside := by
  rw [CanSignalCodec.rawValue]
  split
  · split
    · intro hOutside
      cases hOutside
    · intro hOutside
      cases hOutside
  · split
    · intro hOutside
      cases hOutside
    · intro hOutside
      cases hOutside

theorem decode_outside_iff {int : IntArithmetic} : CanSignalCodec.decode int platform payload spec = .error .outside ↔
    Machine.validateSignalBounds int payload spec.can (signalBitLength spec.can spec.dataType) = .error .outside ∨
    Machine.validateSignalBounds int payload spec.can (signalBitLength spec.can spec.dataType) = .ok () ∧
      Machine.extractUnsignedBits int payload spec.can (signalBitLength spec.can spec.dataType) = .error .outside := by
  rw [CanSignalCodec.decode]
  cases Machine.validateSignalBounds int payload spec.can (signalBitLength spec.can spec.dataType) with
  | error fault =>
    constructor
    · intro hOutside
      exact .inl (congrArg Except.error (Except.error.inj hOutside))
    · rintro (hOutside | ⟨hPassed, -⟩)
      · exact congrArg Except.error (Except.error.inj hOutside)
      · cases hPassed
  | ok passed =>
    change ((Machine.extractUnsignedBits int payload spec.can (signalBitLength spec.can spec.dataType)).bind _) = _ ↔ _
    cases Machine.extractUnsignedBits int payload spec.can (signalBitLength spec.can spec.dataType) with
    | error fault =>
      constructor
      · intro hOutside
        exact .inr ⟨rfl, congrArg Except.error (Except.error.inj hOutside)⟩
      · rintro (hOutside | ⟨-, hOutside⟩)
        · cases hOutside
        · exact congrArg Except.error (Except.error.inj hOutside)
    | ok raw =>
      refine iff_of_false ?_ ?_
      · change (if _ then _ else _) ≠ _
        split
        · intro hOutside
          cases hOutside
        · have hRaw := rawValue_ne_outside platform (normalizeType spec.dataType) spec.signedFlag
            (signalBitLength spec.can spec.dataType) raw
          intro hOutside
          cases hValue : CanSignalCodec.rawValue platform (normalizeType spec.dataType) spec.signedFlag
            (signalBitLength spec.can spec.dataType) raw with
          | error fault =>
            rw [hValue] at hOutside hRaw
            exact hRaw (congrArg Except.error (Except.error.inj hOutside))
          | ok value =>
            rw [hValue] at hOutside
            cases hOutside
      · rintro (hOutside | ⟨-, hOutside⟩)
        · cases hOutside
        · cases hOutside

/-- It stays inside exactly when it refuses, an `int` can count the last bit, or it wraps to bytes that are
    there. -/
theorem decode_stays_inside_iff : CanSignalCodec.decode modular platform payload spec ≠ .error .outside ↔
    (∃ message, Machine.validateSignalBounds modular payload spec.can (signalBitLength spec.can spec.dataType) =
      .error (.thrown message)) ∨
    spec.can.byteOffset * 8 + spec.can.bitOffset + signalBitLength spec.can spec.dataType < 2 ^ 31 ∨
    WrapsInside payload spec.can (signalBitLength spec.can spec.dataType) := by
  rw [ne_eq, decode_outside_iff]
  obtain hPassed | ⟨message, hThrown⟩ := @validate_modular payload spec.can (signalBitLength spec.can spec.dataType)
  · have hInside : spec.can.byteOffset * 8 + spec.can.bitOffset + signalBitLength spec.can spec.dataType < 2 ^ 31 →
        WrapsInside payload spec.can (signalBitLength spec.can spec.dataType) := by
      intro hRoom
      obtain ⟨byteOffset, bitOffset, length, valid⟩ := exists_valid (valid_of_machine exact_modular hRoom hPassed)
      rw [valid.byteOffset_eq, valid.bitOffset_eq, valid.length_eq] at hRoom
      by_contra hOutside
      rw [← extract_outside_iff, extract_exact exact_modular valid (by omega)] at hOutside
      cases hOutside
    rw [hPassed, extract_outside_iff]
    constructor
    · intro hStays
      refine .inr (.inr ?_)
      by_contra hOutside
      exact hStays (.inr ⟨rfl, hOutside⟩)
    · rintro (⟨message, hThrown⟩ | hRoom | hWraps) (hOutside | ⟨-, hOutside⟩)
      · cases hOutside
      · cases hThrown
      · cases hOutside
      · exact hOutside (hInside hRoom)
      · cases hOutside
      · exact hOutside hWraps
  · rw [hThrown]
    refine iff_of_true ?_ (.inl ⟨message, rfl⟩)
    rintro (hOutside | ⟨hOutside, -⟩)
    · cases hOutside
    · cases hOutside

end Decode

def farSignal : CanSignalSpec := { byteOffset := 536870912, bitLength := 16 }

theorem far_signal_read_outside :
    CanSignalCodec.decode modular (⟨fun _ => 0, fun _ => 0, fun _ => 0, fun _ => []⟩ : Platform ℚ)
      [1, 2, 3, 4, 5, 6, 7, 8] ⟨"uint16".toList, 1, 0, false, farSignal⟩ = .error .outside := by
  rw [decode_outside_iff]
  exact .inr (by decide)

end EdgeGateway.Can
