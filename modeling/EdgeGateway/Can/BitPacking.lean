import EdgeGateway.Can.SignalCodec

/-! # Packing signals -/

namespace EdgeGateway.Can

open BitField

variable {payload : List (BitVec 8)} {can : CanSignalSpec} {bitLength : Int}

structure ValidSignal (payload : List (BitVec 8)) (can : CanSignalSpec) (bitLength : Int)
    (byteOffset bitOffset length : Nat) : Prop where
  byteOffset_eq : can.byteOffset = byteOffset
  bitOffset_eq : can.bitOffset = bitOffset
  length_eq : bitLength = length
  bitOffset_le : bitOffset ≤ 7
  length_le : length ≤ 64
  inside : byteOffset * 8 + bitOffset + length ≤ payload.length * 8

theorem exists_valid (hValid : validateSignalBounds payload can bitLength = .ok ()) :
    ∃ byteOffset bitOffset length, ValidSignal payload can bitLength byteOffset bitOffset length := by
  rw [validateSignalBounds] at hValid
  split at hValid
  · cases hValid
  · next hRange =>
    dsimp only at hValid
    split at hValid
    · cases hValid
    · next hInside => exact ⟨can.byteOffset.toNat, can.bitOffset.toNat, bitLength.toNat, by constructor <;> omega⟩

section Valid

variable {byteOffset bitOffset length : Nat} (valid : ValidSignal payload can bitLength byteOffset bitOffset length)

def physical (can : CanSignalSpec) (i : Nat) : Nat := (physicalBitIndex can i).toNat

def flip (msb0 : Bool) (k : Nat) : Nat := if msb0 then k / 8 * 8 + (7 - k % 8) else k

theorem flip_injective (msb0 : Bool) {k k' : Nat} (h : flip msb0 k = flip msb0 k') : k = k' := by
  cases msb0 with
  | false => exact h
  | true =>
    rw [flip, flip, if_pos rfl, if_pos rfl] at h
    omega

theorem flip_lt (msb0 : Bool) {k n : Nat} (h : k < 8 * n) : flip msb0 k < 8 * n := by
  cases msb0 with
  | false => exact h
  | true =>
    rw [flip, if_pos rfl]
    omega

include valid

theorem physicalBitIndex_eq (i : Nat) : physicalBitIndex can i =
    (flip (normalizeType can.bitOrder = "msb0".toList) (byteOffset * 8 + bitOffset + i) : Nat) := by
  have hBase : can.byteOffset * 8 + can.bitOffset + i = ((byteOffset * 8 + bitOffset + i : Nat) : Int) := by
    rw [valid.byteOffset_eq, valid.bitOffset_eq]
    push_cast
    rfl
  rw [physicalBitIndex]
  dsimp only
  rw [hBase]
  by_cases hOrder : normalizeType can.bitOrder = "msb0".toList
  · rw [if_pos hOrder, decide_eq_true hOrder, flip, if_pos rfl, Int.tdiv_eq_ediv_of_nonneg (Int.natCast_nonneg _),
      Int.tmod_eq_emod_of_nonneg (Int.natCast_nonneg _)]
    omega
  · rw [if_neg hOrder, decide_eq_false hOrder, flip, if_neg Bool.false_ne_true]

theorem physical_eq (i : Nat) :
    physical can i = flip (normalizeType can.bitOrder = "msb0".toList) (byteOffset * 8 + bitOffset + i) := by
  rw [physical, physicalBitIndex_eq valid, Int.toNat_natCast]

theorem physical_injective (i j : Nat) (h : physical can i = physical can j) : i = j := by
  rw [physical_eq valid, physical_eq valid] at h
  have hSame := flip_injective _ h
  omega

theorem physical_inside {i : Nat} (hi : i < length) : physical can i < 8 * payload.length := by
  rw [physical_eq valid]
  apply flip_lt
  have hInside := valid.inside
  omega

theorem physical_index (i : Nat) : ((physicalBitIndex can i).tdiv 8).toNat = physical can i / 8 ∧
    ((physicalBitIndex can i).tmod 8).toNat = physical can i % 8 := by
  rw [physical, physicalBitIndex_eq valid, Int.tdiv_eq_ediv_of_nonneg (Int.natCast_nonneg _),
    Int.tmod_eq_emod_of_nonneg (Int.natCast_nonneg _), Int.toNat_natCast]
  omega

def numberBit (can : CanSignalSpec) (length i : Nat) : Nat := if bigEndian can then length - 1 - i else i

omit valid in
theorem order_numberBit (can : CanSignalSpec) (length : Nat) : Order (numberBit can length) length := by
  have hFun : numberBit can length = fun i => if bigEndian can then length - 1 - i else i := rfl
  rw [hFun]
  cases bigEndian can with
  | false => exact order_id length
  | true => exact order_reverse length

theorem extract_bits :
    extractBitByBit payload can bitLength = readBits 64 (physical can) (numberBit can length) length payload := by
  have hLength : bitLength.toNat = length := by rw [valid.length_eq, Int.toNat_natCast]
  rw [extractBitByBit, readBits, hLength]
  congr 1
  funext value i
  obtain ⟨hByte, hBit⟩ := physical_index valid i
  dsimp only
  rw [hByte, hBit]
  simp only [numberBit, bit]
  congr 1
  exact propext (shiftRight_and_one _ _ (by decide))

theorem write_bits (value : BitVec 64) :
    writeBitByBit payload can bitLength value = writeBits (physical can) (numberBit can length) length payload value := by
  have hLength : bitLength.toNat = length := by rw [valid.length_eq, Int.toNat_natCast]
  rw [writeBitByBit, writeBits, hLength]
  congr 1
  funext bytes i
  obtain ⟨hByte, hBit⟩ := physical_index valid i
  have hNumber : (if bigEndian can = true then length - 1 - i else i) = numberBit can length i := rfl
  dsimp only
  rw [hByte, hBit, hNumber, setBit]
  by_cases hSet : value.getLsbD (numberBit can length i) = true
  · rw [if_pos hSet]
    exact if_pos ((shiftRight_and_one _ _ (by decide)).mpr hSet)
  · rw [if_neg hSet]
    exact if_neg fun h => hSet ((shiftRight_and_one _ _ (by decide)).mp h)

theorem reads_bits :
    Reads (fun j => physical can (numberBit can length j)) length payload (extractBitByBit payload can bitLength) := by
  rw [extract_bits valid]
  exact reads_readBits (order_numberBit can length)

theorem writes_bits (value : BitVec 64) :
    Writes (fun j => physical can (numberBit can length j)) length payload value
      (writeBitByBit payload can bitLength value) := by
  rw [write_bits valid]
  exact writes_writeBits (order_numberBit can length) (fun i j _ _ h => physical_injective valid i j h)
    (fun i hi => physical_inside valid hi) value

/-- The place in the number of the `i`-th byte of the signal. -/
def numberByte (can : CanSignalSpec) (count i : Nat) : Nat := if bigEndian can then count - 1 - i else i

omit valid in
theorem order_numberByte (can : CanSignalSpec) (count : Nat) : Order (numberByte can count) count :=
  order_numberBit can count

theorem aligned_parts (hAligned : byteAligned can bitLength = true) :
    bitOffset = 0 ∧ 8 * (length / 8) = length ∧ (bitLength.tdiv 8).toNat = length / 8 ∧
      normalizeType can.bitOrder = "lsb0".toList := by
  obtain ⟨hOffset, hLength, hOrder⟩ := of_decide_eq_true hAligned
  rw [valid.bitOffset_eq] at hOffset
  rw [valid.length_eq, Int.tmod_eq_emod_of_nonneg (Int.natCast_nonneg _)] at hLength
  rw [valid.length_eq, Int.tdiv_eq_ediv_of_nonneg (Int.natCast_nonneg _)]
  refine ⟨by omega, by omega, by omega, hOrder⟩

theorem byte_index (i : Nat) : (can.byteOffset + i).toNat = byteOffset + i := by
  rw [valid.byteOffset_eq]
  omega

theorem extract_bytes (hAligned : byteAligned can bitLength = true) :
    extractUnsignedBits payload can bitLength =
      if bigEndian can then readBytesDown 64 byteOffset (length / 8) payload
      else readBytesUp 64 byteOffset (length / 8) payload := by
  obtain ⟨-, -, hCount, -⟩ := aligned_parts valid hAligned
  rw [extractUnsignedBits, hAligned, if_pos rfl, hCount]
  simp only [byte_index valid]
  cases bigEndian can <;> rfl

theorem write_bytes (hAligned : byteAligned can bitLength = true) (value : BitVec 64) :
    writeUnsignedBits payload can bitLength value =
      writeBytes byteOffset (numberByte can (length / 8)) (length / 8) payload value := by
  obtain ⟨-, -, hCount, -⟩ := aligned_parts valid hAligned
  rw [writeUnsignedBits, hAligned, if_pos rfl, hCount, writeBytes]
  simp only [byte_index valid]
  congr 1
  funext bytes i
  have hShift : (if bigEndian can = true then 8 * (length / 8 - 1 - i) else 8 * i) =
      8 * numberByte can (length / 8) i := by
    rw [numberByte]
    split <;> rfl
  rw [hShift, setWidth_low_byte _ (by decide)]

/-- The place in the payload of the `j`-th bit of the number. -/
def place (can : CanSignalSpec) (bitLength : Int) (byteOffset length : Nat) (j : Nat) : Nat :=
  if byteAligned can bitLength then bytePlace byteOffset (numberByte can (length / 8)) j
  else physical can (numberBit can length j)

theorem reads_extract :
    Reads (place can bitLength byteOffset length) length payload (extractUnsignedBits payload can bitLength) := by
  have hPlace : place can bitLength byteOffset length = fun j => place can bitLength byteOffset length j := rfl
  cases hAligned : byteAligned can bitLength with
  | false =>
    rw [extractUnsignedBits_of_unaligned hAligned, hPlace]
    simp only [place, hAligned, Bool.false_eq_true, if_false]
    exact reads_bits valid
  | true =>
    obtain ⟨-, hWhole, -, -⟩ := aligned_parts valid hAligned
    rw [extract_bytes valid hAligned, hPlace]
    simp only [place, hAligned, if_true]
    have hOrder : numberByte can (length / 8) = fun i => if bigEndian can then length / 8 - 1 - i else i := rfl
    rw [hOrder]
    cases bigEndian can with
    | false =>
      have hReads := @reads_readBytesUp 64 payload byteOffset (length / 8)
      rw [hWhole] at hReads
      exact hReads
    | true =>
      have hReads := @reads_readBytesDown 64 payload byteOffset (length / 8)
      rw [hWhole] at hReads
      exact hReads

theorem writes_write (value : BitVec 64) : Writes (place can bitLength byteOffset length) length payload value
    (writeUnsignedBits payload can bitLength value) := by
  have hPlace : place can bitLength byteOffset length = fun j => place can bitLength byteOffset length j := rfl
  cases hAligned : byteAligned can bitLength with
  | false =>
    rw [writeUnsignedBits_of_unaligned hAligned, hPlace]
    simp only [place, hAligned, Bool.false_eq_true, if_false]
    exact writes_bits valid value
  | true =>
    obtain ⟨-, hWhole, -, -⟩ := aligned_parts valid hAligned
    have hInside := valid.inside
    have hWrites := writes_writeBytes (order_numberByte can (length / 8)) (by omega : byteOffset + length / 8 ≤ payload.length)
      value
    rw [write_bytes valid hAligned, hPlace]
    simp only [place, hAligned, if_true]
    rw [hWhole] at hWrites
    exact hWrites

theorem place_physical {j : Nat} (hj : j < length) :
    ∃ i, i < length ∧ physical can i = place can bitLength byteOffset length j := by
  cases hAligned : byteAligned can bitLength with
  | false =>
    refine ⟨numberBit can length j, (order_numberBit can length).lt j hj, ?_⟩
    rw [place, hAligned, if_neg Bool.false_ne_true]
  | true =>
    obtain ⟨hOffset, hWhole, -, hOrder⟩ := aligned_parts valid hAligned
    have hByte := (order_numberByte can (length / 8)).lt (j / 8) (by omega)
    have hLsb0 : decide (normalizeType can.bitOrder = "msb0".toList) = false := by
      rw [hOrder]
      rfl
    refine ⟨8 * numberByte can (length / 8) (j / 8) + j % 8, by omega, ?_⟩
    rw [physical_eq valid, hLsb0, flip, if_neg Bool.false_ne_true, place, hAligned, if_pos rfl, bytePlace]
    omega

end Valid

theorem bit_packing (hValid : validateSignalBounds payload can bitLength = .ok ()) (value : BitVec 64) :
    extractUnsignedBits (writeUnsignedBits payload can bitLength value) can bitLength =
        BitVec.ofNat 64 (value.toNat % 2 ^ bitLength.toNat) ∧
      (writeUnsignedBits payload can bitLength value).length = payload.length ∧
      (∀ k : Nat, (∀ i : Nat, i < bitLength.toNat → physicalBitIndex can i ≠ k) →
        bit (writeUnsignedBits payload can bitLength value) k = bit payload k) ∧
      writeUnsignedBits payload can bitLength (extractUnsignedBits payload can bitLength) = payload := by
  obtain ⟨byteOffset, bitOffset, length, valid⟩ := exists_valid hValid
  have hLength : bitLength.toNat = length := by rw [valid.length_eq, Int.toNat_natCast]
  have hWrites := writes_write valid value
  have hStill : ValidSignal (writeUnsignedBits payload can bitLength value) can bitLength byteOffset bitOffset length := by
    refine ⟨valid.byteOffset_eq, valid.bitOffset_eq, valid.length_eq, valid.bitOffset_le, valid.length_le, ?_⟩
    rw [hWrites.size]
    exact valid.inside
  rw [hLength]
  refine ⟨Reads.of_writes hWrites (reads_extract hStill), hWrites.size, fun k hk => ?_,
    Writes.of_reads (reads_extract valid) valid.length_le (writes_write valid _)⟩
  apply hWrites.outside
  intro j hj hPlace
  obtain ⟨i, hi, hPhysical⟩ := place_physical valid hj
  apply hk i hi
  rw [physicalBitIndex_eq valid, ← physical_eq valid, hPhysical, hPlace]

def motorSpeed : CanSignalSpec := { byteOffset := 1, bitOffset := 3, bitOrder := "msb0".toList, endian := "big".toList }

theorem bit_packing_motorSpeed :
    extractUnsignedBits (writeUnsignedBits [0xFF, 0x12, 0x34, 0x56] motorSpeed 12 0xABCD) motorSpeed 12 = 0xBCD ∧
      writeUnsignedBits [0xFF, 0x12, 0x34, 0x56] motorSpeed 12 0xABCD = [0xFF, 0x17, 0x9A, 0x56] :=
  ⟨(bit_packing (by decide) 0xABCD).1.trans (by decide), by decide⟩

end EdgeGateway.Can
