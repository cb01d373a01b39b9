import EdgeGateway.Can.BitPacking

/-! # The two paths on signals of whole bytes -/

namespace EdgeGateway.Can

open BitField

variable {payload : List (BitVec 8)} {can : CanSignalSpec} {bitLength : Int}

section Valid

variable {byteOffset bitOffset length : Nat} (valid : ValidSignal payload can bitLength byteOffset bitOffset length)
  (hAligned : byteAligned can bitLength = true)

include hAligned

theorem place_aligned (j : Nat) :
    place can bitLength byteOffset length j = bytePlace byteOffset (numberByte can (length / 8)) j := by
  rw [place, hAligned, if_pos rfl]

include valid

theorem physical_aligned (i : Nat) : physical can i = 8 * byteOffset + i := by
  obtain ⟨rfl, -, -, hOrder⟩ := aligned_parts valid hAligned
  have hLsb0 : decide (normalizeType can.bitOrder = "msb0".toList) = false := by
    rw [hOrder]
    rfl
  rw [physical_eq valid, hLsb0, flip, if_neg Bool.false_ne_true]
  omega

theorem places_little (hEndian : bigEndian can = false) (j : Nat) :
    physical can (numberBit can length j) = place can bitLength byteOffset length j := by
  rw [physical_aligned valid hAligned, place_aligned hAligned, numberBit, bytePlace, numberByte, hEndian,
    if_neg Bool.false_ne_true, if_neg Bool.false_ne_true]
  omega

theorem places_big (hEndian : bigEndian can = true) {j : Nat} (hj : j < length) :
    physical can (numberBit can length j) = place can bitLength byteOffset length (mirror j) := by
  obtain ⟨-, hWhole, -, -⟩ := aligned_parts valid hAligned
  rw [physical_aligned valid hAligned, place_aligned hAligned, numberBit, bytePlace, numberByte, hEndian,
    if_pos rfl, if_pos rfl, mirror]
  omega

theorem extract_agrees_iff (hEndian : bigEndian can = true) :
    extractUnsignedBits payload can bitLength = extractBitByBit payload can bitLength ↔
      ∀ i, i < length / 8 → (payload.getD (byteOffset + i) 0).reverse = payload.getD (byteOffset + i) 0 := by
  obtain ⟨-, hWhole, -, -⟩ := aligned_parts valid hAligned
  have hBits : ∀ i r, i < length / 8 → r < 8 → bit payload (place can bitLength byteOffset length (8 * i + r)) =
      (payload.getD (byteOffset + (length / 8 - 1 - i)) 0).getLsbD r := by
    intro i r hi hr
    have hByte : (8 * i + r) / 8 = i := by omega
    have hBit : (8 * i + r) % 8 = r := by omega
    rw [place_aligned hAligned, bytePlace, numberByte, hEndian, if_pos rfl, hByte, hBit, bit_byte _ _ hr]
  have hAgree := (reads_extract valid).eq_iff (reads_bits valid) valid.length_le
    fun j hj => places_big valid hAligned hEndian hj
  have hMirror := @mirror_same_iff (length / 8) (fun j => bit payload (place can bitLength byteOffset length j))
    (fun i => payload.getD (byteOffset + (length / 8 - 1 - i)) 0) hBits
  rw [hWhole] at hMirror
  rw [hAgree.trans hMirror]
  constructor
  · intro hSame i hi
    have hBack : length / 8 - 1 - (length / 8 - 1 - i) = i := by omega
    have hThis := hSame (length / 8 - 1 - i) (by omega)
    rwa [hBack] at hThis
  · intro hSame i hi
    exact hSame _ (by omega)

theorem write_agrees_iff (hEndian : bigEndian can = true) (value : BitVec 64) :
    writeUnsignedBits payload can bitLength value = writeBitByBit payload can bitLength value ↔
      ∀ i, i < length / 8 → ((value >>> (8 * i)).setWidth 8).reverse = (value >>> (8 * i)).setWidth 8 := by
  obtain ⟨-, hWhole, -, -⟩ := aligned_parts valid hAligned
  have hBits : ∀ i r, i < length / 8 → r < 8 →
      value.getLsbD (8 * i + r) = ((value >>> (8 * i)).setWidth 8).getLsbD r := by
    intro i r _ hr
    rw [BitVec.getLsbD_setWidth, BitVec.getLsbD_ushiftRight, decide_eq_true hr, Bool.true_and]
  have hOrder : Order mirror length := hWhole ▸ order_mirror (length / 8)
  have hAgree := Writes.eq_iff hOrder (writes_write valid value) (writes_bits valid value)
    fun j hj => places_big valid hAligned hEndian hj
  have hMirror := @mirror_same_iff (length / 8) (fun j => value.getLsbD j)
    (fun i => (value >>> (8 * i)).setWidth 8) hBits
  rw [hWhole] at hMirror
  exact hAgree.trans hMirror

theorem paths_agree_little (hEndian : bigEndian can = false) (value : BitVec 64) :
    extractUnsignedBits payload can bitLength = extractBitByBit payload can bitLength ∧
      writeUnsignedBits payload can bitLength value = writeBitByBit payload can bitLength value := by
  have hPlaces : ∀ j, j < length →
      physical can (numberBit can length j) = place can bitLength byteOffset length ((fun i => i) j) :=
    fun j _ => places_little valid hAligned hEndian j
  exact ⟨((reads_extract valid).eq_iff (reads_bits valid) valid.length_le hPlaces).mpr fun _ _ => rfl,
    (Writes.eq_iff (order_id length) (writes_write valid value) (writes_bits valid value) hPlaces).mpr fun _ _ => rfl⟩

end Valid

/-- The paths agree exactly when the signal is little-endian or each byte reads the same from both ends. -/
theorem fast_path_agrees_iff (hValid : validateSignalBounds payload can bitLength = .ok ())
    (hAligned : byteAligned can bitLength = true) (value : BitVec 64) :
    (extractUnsignedBits payload can bitLength = extractBitByBit payload can bitLength ↔
      bigEndian can = false ∨ ∀ i, i < bitLength.toNat / 8 →
        (payload.getD (can.byteOffset.toNat + i) 0).reverse = payload.getD (can.byteOffset.toNat + i) 0) ∧
    (writeUnsignedBits payload can bitLength value = writeBitByBit payload can bitLength value ↔
      bigEndian can = false ∨ ∀ i, i < bitLength.toNat / 8 →
        ((value >>> (8 * i)).setWidth 8).reverse = (value >>> (8 * i)).setWidth 8) := by
  obtain ⟨byteOffset, bitOffset, length, valid⟩ := exists_valid hValid
  rw [valid.length_eq, valid.byteOffset_eq, Int.toNat_natCast, Int.toNat_natCast, ← valid.length_eq]
  cases hEndian : bigEndian can with
  | false =>
    obtain ⟨hExtract, hWrite⟩ := paths_agree_little valid hAligned hEndian value
    exact ⟨iff_of_true hExtract (.inl rfl), iff_of_true hWrite (.inl rfl)⟩
  | true =>
    rw [extract_agrees_iff valid hAligned hEndian, write_agrees_iff valid hAligned hEndian value]
    simp

def batteryVoltage : CanSignalSpec := { byteOffset := 1, endian := "big".toList }

theorem fast_path_agrees_batteryVoltage :
    extractUnsignedBits [0, 0x18, 0x81] batteryVoltage 16 = extractBitByBit [0, 0x18, 0x81] batteryVoltage 16 :=
  (fast_path_agrees_iff (by decide) (by decide) 0).1.mpr (.inr (by decide))

/-- One byte holding 1: the loop over bits would make it 128. -/
theorem loops_disagree_on_one :
    extractUnsignedBits [0x01] { endian := "big".toList } 8 = 0x01 ∧
      extractBitByBit [0x01] { endian := "big".toList } 8 = 0x80 ∧
      writeUnsignedBits [0x00] { endian := "big".toList } 8 0x01 = [0x01] ∧
      writeBitByBit [0x00] { endian := "big".toList } 8 0x01 = [0x80] := by
  decide

end EdgeGateway.Can
