import EdgeGateway.Foundation.ShiftRegister
import EdgeGateway.Modbus.RtuClient

/-! # What the checksum detects -/

namespace EdgeGateway.Modbus.ModbusRtuClient

open ShiftRegister

def taps : BitVec 16 := 0xA001#16

theorem taps_msb : taps.msb = true := by decide

def symbols (bytes : List UInt8) : List (BitVec 8) := bytes.map UInt8.toBitVec

theorem crcShift_toBitVec (crc : UInt16) : (crcShift crc).toBitVec = shift taps crc.toBitVec := by
  have hLow : crc &&& 1 ≠ 0 ↔ crc.toBitVec.getLsbD 0 = true := by
    rw [ne_eq, ← UInt16.toBitVec_inj, UInt16.toBitVec_and]
    show ¬crc.toBitVec &&& 1#16 = 0#16 ↔ _
    rw [BitVec.and_one_eq_setWidth_ofBool_getLsbD]
    cases crc.toBitVec.getLsbD 0 <;> decide
  rw [crcShift, shift]
  by_cases h : crc &&& 1 ≠ 0
  · rw [if_pos h, if_pos (hLow.mp h)]
    rfl
  · rw [if_neg h, if_neg (mt hLow.mpr h)]
    rfl

theorem crcByte_toBitVec (crc : UInt16) (byte : UInt8) :
    (crcByte crc byte).toBitVec = absorb taps crc.toBitVec byte.toBitVec := by
  have hShifts : ∀ n c, (crcShift^[n] c).toBitVec = shifts taps n c.toBitVec := by
    intro n
    induction n with
    | zero => exact fun _ => rfl
    | succ n ih =>
      intro c
      rw [Function.iterate_succ_apply, ih, crcShift_toBitVec]
      rfl
  rw [crcByte, hShifts]
  rfl

theorem foldl_crcByte_toBitVec (bytes : List UInt8) (crc : UInt16) :
    (bytes.foldl crcByte crc).toBitVec = feed taps crc.toBitVec (symbols bytes) := by
  induction bytes generalizing crc with
  | nil => rfl
  | cons byte bytes ih =>
    rw [List.foldl_cons, ih, crcByte_toBitVec]
    rfl

theorem word_toBitVec (high low : UInt8) :
    (word high low).toBitVec = low.toBitVec.setWidth 16 ^^^ high.toBitVec.setWidth 16 <<< 8 := by
  have hWord : (word high low).toBitVec = high.toBitVec.setWidth 16 <<< 8 ||| low.toBitVec.setWidth 16 := rfl
  rw [hWord]
  apply BitVec.eq_of_getLsbD_eq
  intro i hi
  simp only [BitVec.getLsbD_or, BitVec.getLsbD_xor, BitVec.getLsbD_shiftLeft, BitVec.getLsbD_setWidth]
  by_cases hLow : i < 8
  · simp [hLow]
  · simp [BitVec.getLsbD_of_ge low.toBitVec i (Nat.not_lt.mp hLow)]

theorem crc16_snoc_eq_zero_iff (payload : List UInt8) (low high : UInt8) :
    crc16 (payload ++ [low, high]) = 0 ↔ crc16 payload = word high low := by
  rw [← UInt16.toBitVec_inj, ← UInt16.toBitVec_inj, word_toBitVec, crc16, List.foldl_append, foldl_crcByte_toBitVec]
  exact @absorb_absorb_eq_zero_iff 16 8 taps rfl taps_msb _ _ _

theorem receivedCrc_snoc (payload : List UInt8) (low high : UInt8) :
    receivedCrc (payload ++ [low, high]) = word high low := by
  have hLength : (payload ++ [low, high]).length = payload.length + 2 := by rw [List.length_append]; rfl
  have hHigh : (payload ++ [low, high])[payload.length + 1]? = some high := by
    rw [List.getElem?_append_right (Nat.le_add_right _ _), Nat.add_sub_cancel_left]
    rfl
  have hLow : (payload ++ [low, high])[payload.length]? = some low := by
    rw [List.getElem?_append_right (Nat.le_refl _), Nat.sub_self]
    rfl
  rw [receivedCrc, hLength, Nat.add_sub_cancel, Nat.add_succ_sub_one, List.getD_eq_getElem?_getD,
    List.getD_eq_getElem?_getD, hHigh, hLow, Option.getD_some, Option.getD_some]

theorem validateCrc_snoc (payload : List UInt8) (low high : UInt8) (hLength : 2 ≤ payload.length) :
    validateCrc (payload ++ [low, high]) =
      if crc16 (payload ++ [low, high]) = 0 then .ok () else .error "modbus crc mismatch" := by
  have hTake : (payload ++ [low, high]).length - 2 = payload.length := by
    rw [List.length_append]
    exact Nat.add_sub_cancel _ _
  rw [validateCrc, if_neg (by rw [List.length_append, List.length_cons, List.length_singleton]; omega), hTake,
    List.take_left, receivedCrc_snoc, ite_not]
  simp only [crc16_snoc_eq_zero_iff]

theorem exists_payload {frame : List UInt8} (hLength : 4 ≤ frame.length) :
    ∃ payload low high, 2 ≤ payload.length ∧ frame = payload ++ [low, high] := by
  have hLast : (frame.drop (frame.length - 2)).length = 2 := by
    rw [List.length_drop]
    omega
  obtain ⟨low, high, hPair⟩ := List.length_eq_two.mp hLast
  refine ⟨frame.take (frame.length - 2), low, high, ?_, ?_⟩
  · rw [List.length_take]
    omega
  · rw [← hPair, List.take_append_drop]

theorem validateCrc_eq {frame : List UInt8} (hLength : 4 ≤ frame.length) :
    validateCrc frame = if crc16 frame = 0 then .ok () else .error "modbus crc mismatch" := by
  obtain ⟨payload, low, high, hPayload, rfl⟩ := exists_payload hLength
  exact validateCrc_snoc payload low high hPayload

theorem crc16_appendCrc (bytes : List UInt8) : crc16 (appendCrc bytes) = 0 := by
  rw [appendCrc, crc16_snoc_eq_zero_iff, word_bytes]

theorem length_appendCrc (bytes : List UInt8) : (appendCrc bytes).length = bytes.length + 2 := by
  rw [appendCrc, List.length_append]
  rfl

def DiffersWithinPair (frame altered : List UInt8) : Prop :=
  altered.length = frame.length ∧ altered ≠ frame ∧ ∃ i, ∀ j, j ≠ i → j ≠ i + 1 → altered[j]? = frame[j]?

theorem split_at_pair {frame : List UInt8} {k : Nat} (hk : k + 1 < frame.length) :
    ∃ s t, frame = frame.take k ++ s :: t :: frame.drop (k + 2) := by
  refine ⟨frame[k], frame[k + 1], ?_⟩
  rw [← List.drop_eq_getElem_cons hk, ← List.drop_eq_getElem_cons (Nat.lt_of_succ_lt hk), List.take_append_drop]

theorem DiffersWithinPair.split {frame altered : List UInt8} (h : DiffersWithinPair frame altered)
    (hLength : 2 ≤ frame.length) :
    ∃ before s t s' t' after, frame = before ++ s :: t :: after ∧ altered = before ++ s' :: t' :: after := by
  obtain ⟨hSame, -, i, hOutside⟩ := h
  obtain ⟨k, hk, hPair⟩ : ∃ k, k + 1 < frame.length ∧ ∀ j, j ≠ k → j ≠ k + 1 → altered[j]? = frame[j]? := by
    by_cases hInside : i + 1 < frame.length
    · exact ⟨i, hInside, hOutside⟩
    · refine ⟨frame.length - 2, by omega, fun j hj hNext => ?_⟩
      by_cases hEnd : j < frame.length
      · exact hOutside j (by omega) (by omega)
      · rw [List.getElem?_eq_none (by omega), List.getElem?_eq_none (by omega)]
  have hBefore : altered.take k = frame.take k := by
    apply List.ext_getElem?
    intro j
    rw [List.getElem?_take, List.getElem?_take]
    split
    · exact hPair j (by omega) (by omega)
    · rfl
  have hAfter : altered.drop (k + 2) = frame.drop (k + 2) := by
    apply List.ext_getElem?
    intro j
    rw [List.getElem?_drop, List.getElem?_drop]
    exact hPair _ (by omega) (by omega)
  obtain ⟨s, t, hFrame⟩ := split_at_pair hk
  obtain ⟨s', t', hAltered⟩ := split_at_pair (hSame.symm ▸ hk)
  rw [hBefore, hAfter] at hAltered
  exact ⟨_, s, t, s', t', _, hFrame, hAltered⟩

theorem crc16_ne_of_differs {frame altered : List UInt8} (h : DiffersWithinPair frame altered)
    (hLength : 2 ≤ frame.length) : crc16 altered ≠ crc16 frame := by
  intro hSame
  obtain ⟨before, s, t, s', t', after, rfl, rfl⟩ := h.split hLength
  rw [← UInt16.toBitVec_inj, crc16, crc16, foldl_crcByte_toBitVec, foldl_crcByte_toBitVec, symbols, symbols,
    List.map_append, List.map_append, List.map_cons, List.map_cons, List.map_cons, List.map_cons] at hSame
  obtain ⟨hs, ht⟩ := feed_pair_injective rfl taps_msb hSame
  apply h.2.1
  rw [UInt8.toBitVec_inj.mp hs, UInt8.toBitVec_inj.mp ht]

/-- A frame with its checksum is accepted, and no alteration within two adjacent bytes of it is. -/
theorem crc_detects_adjacent_changes (bytes : List UInt8) (hLength : 2 ≤ bytes.length) :
    validateCrc (appendCrc bytes) = .ok () ∧
      ∀ altered, DiffersWithinPair (appendCrc bytes) altered → validateCrc altered = .error "modbus crc mismatch" := by
  have hFrame : 4 ≤ (appendCrc bytes).length := by
    rw [length_appendCrc]
    omega
  constructor
  · rw [validateCrc_eq hFrame, if_pos (crc16_appendCrc bytes)]
  · intro altered hDiffers
    have hChanged := crc16_ne_of_differs hDiffers (by omega)
    rw [crc16_appendCrc] at hChanged
    rw [validateCrc_eq (hDiffers.1.symm ▸ hFrame), if_neg hChanged]

theorem crc_detects_in_read_request :
    2 ≤ [(1 : UInt8), 3, 0, 0, 0, 1].length ∧ validateCrc (appendCrc [1, 3, 0, 0, 0, 1]) = .ok () ∧
      validateCrc (appendCrc [1, 3, 0, 0, 0, 1] |>.set 5 2) = .error "modbus crc mismatch" := by
  have hLength : 2 ≤ [(1 : UInt8), 3, 0, 0, 0, 1].length := by decide
  have hDetects := crc_detects_adjacent_changes [1, 3, 0, 0, 0, 1] hLength
  refine ⟨hLength, hDetects.1, hDetects.2 _ ⟨rfl, by decide, 5, fun j hj _ => ?_⟩⟩
  rw [List.getElem?_set_ne (Ne.symm hj)]

/-- Whether the bytes have an odd number of ones. -/
def oddOnes (bytes : List UInt8) : Bool := (symbols bytes).foldl (fun odd byte => odd ^^ parity byte) false

theorem parity_crc16 (bytes : List UInt8) : parity (crc16 bytes).toBitVec = oddOnes bytes := by
  have hStart : parity (0xFFFF : UInt16).toBitVec = false := by decide
  rw [crc16, foldl_crcByte_toBitVec, parity_feed (by decide) (by decide), hStart, oddOnes]

/-- Nothing that differs from an accepted frame in an odd number of bits is accepted, however long it is. -/
theorem crc_detects_odd_changes (frame altered : List UInt8) (hValid : validateCrc frame = .ok ())
    (hOdd : oddOnes altered ≠ oddOnes frame) :
    validateCrc altered = .error (if altered.length < 4 then "frame too short for crc" else "modbus crc mismatch") := by
  have hFrame : 4 ≤ frame.length := by
    by_contra hShort
    rw [validateCrc, if_pos (Nat.not_le.mp hShort)] at hValid
    cases hValid
  have hClear : crc16 frame = 0 := by
    rw [validateCrc_eq hFrame] at hValid
    split at hValid
    · assumption
    · cases hValid
  split
  · rename_i hShort
    rw [validateCrc, if_pos hShort]
  · rename_i hLong
    have hChanged : crc16 altered ≠ 0 := by
      intro hSame
      rw [← parity_crc16, ← parity_crc16, hSame, hClear] at hOdd
      exact hOdd rfl
    rw [validateCrc_eq (Nat.not_lt.mp hLong), if_neg hChanged]

theorem crc_detects_three_changes :
    validateCrc ((((appendCrc [1, 3, 0, 0, 0, 1]).set 0 0).set 3 0x80).set 5 0) = .error "modbus crc mismatch" :=
  crc_detects_odd_changes (appendCrc [1, 3, 0, 0, 0, 1]) _ (by decide +kernel) (by decide +kernel)

end EdgeGateway.Modbus.ModbusRtuClient
