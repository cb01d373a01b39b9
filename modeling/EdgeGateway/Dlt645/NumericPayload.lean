import EdgeGateway.Dlt645.Codec
import EdgeGateway.Foundation.Fallible
import Mathlib.Data.Rat.Floor

/-! # Numbers in write payloads -/

namespace EdgeGateway.Dlt645

open FixedDigits Rounding Fallible

theorem or_shiftLeft_toNat {value : BitVec 64} {i : Nat} (byte : BitVec 8) (hi : i < 8) (hValue : value.toNat < 2 ^ (i * 8)) :
    (value ||| byte.setWidth 64 <<< (i * 8)).toNat = value.toNat + 2 ^ (i * 8) * byte.toNat := by
  have hByte := byte.isLt
  have hShifted : 2 ^ (i * 8) * byte.toNat < 2 ^ 64 := by
    calc 2 ^ (i * 8) * byte.toNat < 2 ^ (i * 8) * 2 ^ 8 := Nat.mul_lt_mul_of_pos_left hByte (Nat.two_pow_pos _)
      _ = 2 ^ (i * 8 + 8) := (Nat.pow_add 2 _ 8).symm
      _ ≤ 2 ^ 64 := Nat.pow_le_pow_right (by decide) (by omega)
  rw [BitVec.toNat_or, BitVec.toNat_shiftLeft, BitVec.toNat_setWidth, Nat.mod_eq_of_lt (hByte.trans (by decide)),
    Nat.shiftLeft_eq, Nat.mul_comm byte.toNat, Nat.mod_eq_of_lt hShifted, Nat.or_comm,
    ← Nat.two_pow_add_eq_or_of_lt hValue, Nat.add_comm]

theorem orBytes_toNat {digits : List Nat} {i : Nat} {value : BitVec 64} (hDigits : ∀ digit ∈ digits, digit < 256)
    (hRoom : i + digits.length ≤ 8) (hValue : value.toNat < 2 ^ (i * 8)) :
    (orBytes i (digits.map UInt8.ofNat) value).toNat = value.toNat + 2 ^ (i * 8) * Nat.ofDigits 256 digits := by
  induction digits generalizing i value with
  | nil => rw [List.map_nil, orBytes, Nat.ofDigits_nil, Nat.mul_zero, Nat.add_zero]
  | cons digit digits ih =>
    rw [List.length_cons] at hRoom
    have hDigit : (UInt8.ofNat digit).toBitVec.toNat = digit := by
      rw [UInt8.toNat_toBitVec, UInt8.toNat_ofNat']
      exact Nat.mod_eq_of_lt (hDigits digit List.mem_cons_self)
    have hStep := or_shiftLeft_toNat (UInt8.ofNat digit).toBitVec (by omega : i < 8) hValue
    have hPower : 2 ^ ((i + 1) * 8) = 2 ^ (i * 8) * 256 := by rw [Nat.succ_mul, Nat.pow_add]
    have hGrown : 2 ^ (i * 8) * (digit + 1) ≤ 2 ^ (i * 8) * 256 :=
      Nat.mul_le_mul_left _ (hDigits digit List.mem_cons_self)
    rw [hDigit] at hStep
    rw [List.map_cons, orBytes, ih (fun other hOther => hDigits other (List.mem_cons_of_mem _ hOther)) (by omega)
      (by rw [hStep, hPower]; rw [Nat.mul_succ] at hGrown; omega), hStep, hPower, Nat.ofDigits_cons]
    ring

section Values

variable {K : Type} [Field K]

theorem decode_uint_digits {digits : List Nat} (hDigits : ∀ digit ∈ digits, digit < 256) (hLength : digits.length ≤ 8) :
    decodeUnsignedLittleEndian (digits.map UInt8.ofNat) = .ok ((Nat.ofDigits 256 digits : Nat) : K) := by
  have hNumber := @orBytes_toNat digits 0 0 hDigits (by omega) (by decide)
  rw [decodeUnsignedLittleEndian, List.length_map, if_neg (by omega), hNumber]
  simp

theorem not_outOfRange {n : Nat} (h : n < 2 ^ 64) : ¬2 ^ 1024 - 2 ^ 970 ≤ n := by
  have hPower : (2 : Nat) ^ 64 ≤ 2 ^ 970 := Nat.pow_le_pow_right Nat.two_pos (by decide : 64 ≤ 970)
  have hLimit : (2 : Nat) ^ 970 * 2 ≤ 2 ^ 1024 := by
    rw [← Nat.pow_succ]
    exact Nat.pow_le_pow_right (by decide) (by decide)
  omega

def bcdByte (digit : Nat) : UInt8 := UInt8.ofNat ((digit / 10) <<< 4 ||| digit % 10)

theorem encodeBcdByte_digit {digit : Nat} (h : digit < 100) : encodeBcdByte digit = .ok (bcdByte digit) := by
  rw [encodeBcdByte, if_neg (by omega)]
  rfl

theorem nibbles_bcdByte : ∀ digit, digit < 100 →
    bcdByte digit >>> 4 = UInt8.ofNat (digit / 10) ∧ bcdByte digit &&& 0x0F = UInt8.ofNat (digit % 10) ∧
      ¬(9 : UInt8) < bcdByte digit >>> 4 ∧ ¬9 < bcdByte digit &&& 0x0F ∧ ¬(0x0A : UInt8) ≤ bcdByte digit >>> 4 := by
  decide

theorem digitChar_ofNat : ∀ digit, digit < 10 → (digitChar (UInt8.ofNat digit)).toNat - '0'.toNat = digit := by
  decide

def bcdText (digits : List Nat) : StdString :=
  digits.flatMap fun digit => [digitChar (UInt8.ofNat (digit / 10)), digitChar (UInt8.ofNat (digit % 10))]

theorem bcdDigits_bytes {digits : List Nat} (hDigits : ∀ digit ∈ digits, digit < 100) :
    bcdDigits (digits.map bcdByte) = .ok (bcdText digits) := by
  induction digits with
  | nil => rfl
  | cons digit digits ih =>
    obtain ⟨hHigh, hLow, hHighDigit, hLowDigit, -⟩ := nibbles_bcdByte digit (hDigits digit List.mem_cons_self)
    rw [List.map_cons, bcdDigits, if_neg (not_or.mpr ⟨hHighDigit, hLowDigit⟩),
      ih fun other hOther => hDigits other (List.mem_cons_of_mem _ hOther), hHigh, hLow]
    rfl

theorem ofDigitChars_bcdText {digits : List Nat} (hDigits : ∀ digit ∈ digits, digit < 100) :
    Nat.ofDigitChars 10 (bcdText digits) 0 = Nat.ofDigits 100 digits.reverse := by
  induction digits using List.reverseRecOn with
  | nil => rfl
  | append_singleton digits digit ih =>
    have hDigit : digit < 100 := hDigits digit (List.mem_append_right _ List.mem_cons_self)
    have hFirst := digitChar_ofNat (digit / 10) (by omega)
    have hSecond := digitChar_ofNat (digit % 10) (by omega)
    rw [bcdText, List.flatMap_append, Nat.ofDigitChars_append,
      show Nat.ofDigitChars 10 (digits.flatMap _) 0 = _ from
        ih fun other hOther => hDigits other (List.mem_append_left _ hOther),
      List.flatMap_cons, List.flatMap_nil, List.append_nil, Nat.ofDigitChars_cons, Nat.ofDigitChars_cons,
      Nat.ofDigitChars_nil, hFirst, hSecond, List.reverse_append, List.reverse_singleton, List.singleton_append,
      Nat.ofDigits_cons]
    omega

theorem ofDigitChars_dropZeros (text : StdString) :
    Nat.ofDigitChars 10 (text.dropWhile (· = '0')) 0 = Nat.ofDigitChars 10 text 0 := by
  induction text with
  | nil => rfl
  | cons c text ih =>
    by_cases hZero : c = '0'
    · subst hZero
      rw [List.dropWhile_cons_of_pos (by decide), ih, Nat.ofDigitChars_cons]
      rfl
    · rw [List.dropWhile_cons_of_neg (by simpa using hZero)]

theorem stod_of_lt {text : StdString} (h : Nat.ofDigitChars 10 text 0 < 2 ^ 64) :
    stod text = .ok (Nat.ofDigitChars 10 text 0 : K) := by
  rw [stod, if_neg (not_outOfRange h)]

theorem splitSign_digits {digits : List Nat} (hDigits : ∀ digit ∈ digits, digit < 100) :
    splitSign (digits.map bcdByte) = (false, digits.map bcdByte) := by
  cases digits with
  | nil => rfl
  | cons digit digits =>
    rw [List.map_cons, splitSign, if_neg (nibbles_bcdByte digit (hDigits digit List.mem_cons_self)).2.2.2.2]

theorem decode_bcd_digits {digits : List Nat} (hDigits : ∀ digit ∈ digits, digit < 100)
    (hSmall : Nat.ofDigits 100 digits < 2 ^ 64) :
    decodeBcdLittleEndian (digits.map bcdByte) 1 = .ok ((Nat.ofDigits 100 digits : Nat) : K) := by
  have hReverse : ∀ digit ∈ digits.reverse, digit < 100 := fun digit h => hDigits digit (List.mem_reverse.mp h)
  have hNumber := ofDigitChars_bcdText hReverse
  rw [List.reverse_reverse, ← ofDigitChars_dropZeros] at hNumber
  have hText : Nat.ofDigitChars 10 (if (bcdText digits.reverse).dropWhile (· = '0') = [] then ['0']
      else (bcdText digits.reverse).dropWhile (· = '0')) 0 = Nat.ofDigits 100 digits := by
    split
    · next hEmpty =>
      rw [hEmpty] at hNumber
      exact hNumber
    · exact hNumber
  rw [decodeBcdLittleEndian, ← List.map_reverse, splitSign_digits hReverse]
  refine bind_ok_iff.mpr ⟨_, bcdDigits_bytes hReverse, bind_ok_iff.mpr ⟨_, stod_of_lt (hText ▸ hSmall), ?_⟩⟩
  rw [hText, mul_one]
  rfl

namespace Dlt645Codec

theorem peelBytes_eq {base byteCount raw : Nat} {encodeDigit : Nat → Except StdString UInt8} {byteOf : Nat → UInt8}
    (hBase : 0 < base) (hEncode : ∀ digit, digit < base → encodeDigit digit = .ok (byteOf digit)) :
    peelBytes base encodeDigit byteCount raw =
      if raw < base ^ byteCount then .ok ((peel base byteCount raw).1.map byteOf)
      else throwText "DLT645 write value exceeds configured byteCount" := by
  have hBytes : ∀ digits : List Nat, (∀ digit ∈ digits, digit < base) →
      digits.mapM encodeDigit = .ok (digits.map byteOf) := by
    intro digits hDigits
    induction digits with
    | nil => rfl
    | cons digit digits ih =>
      rw [List.mapM_cons, hEncode digit (hDigits digit List.mem_cons_self),
        ih fun other hOther => hDigits other (List.mem_cons_of_mem _ hOther)]
      rfl
  rw [peelBytes, hBytes _ fun digit => lt_of_mem_peel hBase]
  change (if (peel base byteCount raw).2 ≠ 0 then _ else _) = _
  by_cases hFits : raw < base ^ byteCount
  · rw [if_pos hFits, if_neg (not_not.mpr ((peel_rest_eq_zero_iff hBase).mpr hFits))]
    rfl
  · rw [if_neg hFits, if_pos fun hZero => hFits ((peel_rest_eq_zero_iff hBase).mp hZero)]

variable [LinearOrder K] [FloorRing K] [IsStrictOrderedRing K] {platform : Platform K} {spec : WriteSpec K}

theorem scaledInteger_natCast (hScale : spec.scale = 1) (hOffset : spec.offset = 0) {n : Nat} (hn : n < 2 ^ 63) :
    scaledInteger platform (n : K) spec = .ok (BitVec.ofNat 64 n) := by
  have hRaw : ((n : K) - spec.offset) / spec.scale = ((n : Int) : K) := by
    rw [hScale, hOffset, sub_zero, div_one, Int.cast_natCast]
  have hRange : IsLongLong (n : Int) := ⟨by omega, by omega⟩
  have hScaled : ¬|spec.scale| < 1 / 10 ^ 12 := by
    rw [hScale, abs_one]
    norm_num
  have hWhole : ¬((((n : Int) : K) < 0) ∨ 1 / 10 ^ 9 < |((n : Int) : K) - roundAway ((n : Int) : K)|) := by
    rw [roundAway_intCast, sub_self, abs_zero, not_or, not_lt, not_lt]
    exact ⟨by positivity, by positivity⟩
  rw [scaledInteger, if_neg hScaled, hRaw]
  refine (if_neg hWhole).trans ?_
  rw [llround_intCast hRange, BitVec.ofInt_natCast]

theorem encode_numeric {byteCount : Nat} (hCount : spec.dlt645.byteCount = byteCount) (hPos : 1 ≤ byteCount)
    (hBytes : byteCount ≤ 8) (hScale : spec.scale = 1) (hOffset : spec.offset = 0) {n : Nat} (hn : n < 2 ^ 63)
    (hNumeric : payloadType spec = "dlt645_uint_le".toList ∨ payloadType spec = "dlt645_bcd".toList) :
    encodeWritePayload platform (n : K) spec = numericPayload (payloadType spec) byteCount n := by
  have hRaw : (BitVec.ofNat 64 n).toNat = n := by
    rw [BitVec.toNat_ofNat]
    omega
  have hOther : payloadType spec ≠ "dlt645_none".toList ∧ payloadType spec ≠ "dlt645_scheduled_control".toList ∧
      payloadType spec ≠ "dlt645_fixed_hex".toList := by
    obtain hType | hType := hNumeric
    · rw [hType]
      decide
    · rw [hType]
      decide
  obtain ⟨hNone, hScheduled, hFixed⟩ := hOther
  rw [encodeWritePayload]
  refine (if_neg hNone).trans ((if_neg hScheduled).trans ((if_neg hFixed).trans ((if_neg (by omega)).trans ?_)))
  rw [scaledInteger_natCast hScale hOffset hn, hCount, Int.toNat_natCast]
  change numericPayload _ _ (BitVec.ofNat 64 n).toNat = _
  rw [hRaw]

def RoundTripsBelow (platform : Platform K) (spec : WriteSpec K) (decode : List UInt8 → Except StdString K)
    (bound n : Nat) : Prop :=
  (n < bound → ∃ payload, encodeWritePayload platform (n : K) spec = .ok payload ∧ decode payload = .ok (n : K)) ∧
    (bound ≤ n → ∃ message, encodeWritePayload platform (n : K) spec = .error message)

/-- Numbers of at most 63 bits come back from their payload, or do not fit its bytes and are refused. -/
theorem numeric_payload_round_trip {byteCount : Nat} (hCount : spec.dlt645.byteCount = byteCount) (hPos : 1 ≤ byteCount)
    (hBytes : byteCount ≤ 8) (hScale : spec.scale = 1) (hOffset : spec.offset = 0) {n : Nat} (hn : n < 2 ^ 63) :
    (payloadType spec = "dlt645_uint_le".toList →
      RoundTripsBelow platform spec decodeUnsignedLittleEndian (256 ^ byteCount) n) ∧
    (payloadType spec = "dlt645_bcd".toList →
      RoundTripsBelow platform spec (fun payload => decodeBcdLittleEndian payload 1) (100 ^ byteCount) n) := by
  constructor
  · intro hType
    have hEncode := @encode_numeric K _ _ _ _ platform _ _ hCount hPos hBytes hScale hOffset n hn (.inl hType)
    rw [hType, numericPayload, if_pos rfl, peelBytes_eq (by decide) fun digit _ => rfl] at hEncode
    rw [RoundTripsBelow, hEncode]
    constructor
    · intro hFits
      refine ⟨_, if_pos hFits, ?_⟩
      rw [decode_uint_digits (fun digit => lt_of_mem_peel (by decide)) (by rw [length_peel]; exact hBytes),
        ofDigits_peel_of_lt hFits]
    · intro hLarge
      exact ⟨_, if_neg (Nat.not_lt.mpr hLarge)⟩
  · intro hType
    have hEncode := @encode_numeric K _ _ _ _ platform _ _ hCount hPos hBytes hScale hOffset n hn (.inr hType)
    rw [hType, numericPayload, if_neg (by decide), if_pos rfl,
      peelBytes_eq (by decide) fun digit => encodeBcdByte_digit] at hEncode
    rw [RoundTripsBelow, hEncode]
    constructor
    · intro hFits
      refine ⟨_, if_pos hFits, ?_⟩
      have hSame := ofDigits_peel_of_lt hFits
      change decodeBcdLittleEndian ((peel 100 byteCount n).1.map bcdByte) 1 = _
      rw [decode_bcd_digits (fun digit => lt_of_mem_peel (by decide)) (by rw [hSame]; omega), hSame]
    · intro hLarge
      exact ⟨_, if_neg (Nat.not_lt.mpr hLarge)⟩

end Dlt645Codec

def demandSetting : WriteSpec ℚ := ⟨[], 1, 0, { dataType := "dlt645_bcd".toList, byteCount := 4 }⟩

theorem demandSetting_round_trip :
    (Dlt645Codec.payloadType demandSetting = "dlt645_uint_le".toList →
      Dlt645Codec.RoundTripsBelow ⟨fun _ => 0, fun _ => []⟩ demandSetting decodeUnsignedLittleEndian (256 ^ 4) 12345678) ∧
    (Dlt645Codec.payloadType demandSetting = "dlt645_bcd".toList →
      Dlt645Codec.RoundTripsBelow ⟨fun _ => 0, fun _ => []⟩ demandSetting
        (fun payload => decodeBcdLittleEndian payload 1) (100 ^ 4) 12345678) :=
  Dlt645Codec.numeric_payload_round_trip rfl (by decide) (by decide) rfl rfl (by decide)

end Values

end EdgeGateway.Dlt645
