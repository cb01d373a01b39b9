import EdgeGateway.Can.DecodeBounds

/-! # Integer values there and back -/

namespace EdgeGateway.Can

open BitField Fallible Rounding

theorem and_one_shiftLeft_eq_zero {w : Nat} (value : BitVec w) {k : Nat} (hk : k < w) :
    value &&& 1#w <<< k = 0#w ↔ value.getLsbD k = false := by
  constructor
  · intro hZero
    have hBit := congrArg (fun v => BitVec.getLsbD v k) hZero
    rw [BitVec.getLsbD_and, getLsbD_one_shiftLeft _ _ hk, decide_eq_true rfl, Bool.and_true, BitVec.getLsbD_zero] at hBit
    exact hBit
  · intro hBit
    apply BitVec.eq_of_getLsbD_eq
    intro i hi
    rw [BitVec.getLsbD_and, getLsbD_one_shiftLeft _ _ hi, BitVec.getLsbD_zero]
    by_cases hSame : i = k
    · rw [hSame, hBit, Bool.false_and]
    · rw [decide_eq_false hSame, Bool.and_false]

theorem signExtend_ofNat {length v : Nat} (hPos : 0 < length) (hLength : length ≤ 64) (hv : v < 2 ^ length) :
    signExtend (BitVec.ofNat 64 v) length = Int.bmod v (2 ^ length) := by
  have hWord : (BitVec.ofNat length v).toInt = Int.bmod v (2 ^ length) := BitVec.toInt_ofNat' v
  have hHigh : ∀ i, length ≤ i → v.testBit i = false := fun i hi =>
    Nat.testBit_lt_two_pow (hv.trans_le (Nat.pow_le_pow_right (by decide) hi))
  have hLast : length - 1 < length := by omega
  have hTop : (BitVec.ofNat length v).msb = v.testBit (length - 1) := by
    rw [BitVec.msb_eq_getLsbD_last, BitVec.getLsbD_ofNat, decide_eq_true hLast, Bool.true_and]
  rw [← hWord, ← BitVec.toInt_signExtend_of_le hLength, signExtend]
  by_cases hWhole : length = 64
  · subst hWhole
    rw [if_pos (.inr (by decide)), BitVec.signExtend_eq]
  · have hShort : length < 64 := by omega
    rw [if_neg (by omega), Int.toNat_natCast]
    dsimp only
    have hSign := and_one_shiftLeft_eq_zero (BitVec.ofNat 64 v) (by omega : length - 1 < 64)
    have hIn : length - 1 < 64 := by omega
    rw [BitVec.getLsbD_ofNat, decide_eq_true hIn, Bool.true_and] at hSign
    by_cases hBit : v.testBit (length - 1) = false
    · refine (if_pos (hSign.mpr hBit)).trans ?_
      congr 1
      apply BitVec.eq_of_getLsbD_eq
      intro i hi
      rw [BitVec.getLsbD_signExtend, BitVec.getLsbD_ofNat, BitVec.getLsbD_ofNat, hTop, hBit]
      by_cases hInside : i < length
      · simp [hInside, hi]
      · simp [hInside, hi, hHigh i (by omega)]
    · refine (if_neg (fun hZero => hBit (hSign.mp hZero))).trans ?_
      congr 1
      apply BitVec.eq_of_getLsbD_eq
      intro i hi
      have hAbove : i - length < 64 := by omega
      rw [BitVec.getLsbD_signExtend, BitVec.getLsbD_or, BitVec.getLsbD_shiftLeft, BitVec.getLsbD_ofNat,
        BitVec.getLsbD_ofNat, BitVec.getLsbD_not, BitVec.getLsbD_zero, decide_eq_true hAbove, hTop,
        (Bool.not_eq_false _).mp hBit]
      by_cases hInside : i < length
      · simp [hInside, hi]
      · simp [hInside, hi]

def Representable (signed : Bool) (length : Nat) (n : Int) : Prop :=
  if signed then -2 ^ (length - 1) ≤ n ∧ n < 2 ^ (length - 1) else 0 ≤ n ∧ n < 2 ^ length

def readBack (signed : Bool) (length : Nat) (raw : BitVec 64) : Int :=
  if signed then signExtend raw length else raw.toNat

theorem cut_ofInt (n : Int) {length : Nat} (hLength : length ≤ 64) :
    (((BitVec.ofInt 64 n).toNat % 2 ^ length : Nat) : Int) = n % 2 ^ length := by
  have hDvd : ((2 ^ length : Nat) : Int) ∣ ((2 ^ 64 : Nat) : Int) := Int.natCast_dvd_natCast.mpr (Nat.pow_dvd_pow 2 hLength)
  rw [BitVec.toNat_ofInt, Int.natCast_emod, Int.toNat_of_nonneg (Int.emod_nonneg _ (by decide)),
    Int.emod_emod_of_dvd _ hDvd]
  push_cast
  rfl

theorem readBack_eq_iff {signed : Bool} {length : Nat} (hPos : 0 < length) (hLength : length ≤ 64) (n : Int) :
    readBack signed length (BitVec.ofNat 64 ((BitVec.ofInt 64 n).toNat % 2 ^ length)) = n ↔
      Representable signed length n := by
  have hCut := cut_ofInt n hLength
  have hPow : 0 < 2 ^ length := Nat.two_pow_pos length
  have hSmall := Nat.mod_lt (BitVec.ofInt 64 n).toNat hPow
  generalize (BitVec.ofInt 64 n).toNat % 2 ^ length = v at hCut hSmall
  rw [readBack, Representable]
  cases signed with
  | true =>
    have hHalf : 2 ^ (length - 1) * 2 = 2 ^ length := Nat.two_pow_pred_mul_two hPos
    have hCast : (2 : Int) ^ (length - 1) = (2 ^ (length - 1) : Nat) := (Int.natCast_pow 2 (length - 1)).symm
    have hModulus : (2 : Int) ^ length = (2 ^ length : Nat) := (Int.natCast_pow 2 length).symm
    rw [if_pos rfl, if_pos rfl, signExtend_ofNat hPos hLength hSmall, hCut, hModulus, Int.emod_bmod,
      Int.bmod_eq_iff hPow, hCast]
    constructor
    · rintro ⟨hLow, hHigh, -⟩
      omega
    · rintro ⟨hLow, hHigh⟩
      refine ⟨by omega, by omega, ?_⟩
      rw [sub_self]
      exact Int.dvd_zero _
  | false =>
    have hWord : v < 2 ^ 64 := hSmall.trans_le (Nat.pow_le_pow_right (by decide) hLength)
    rw [if_neg Bool.false_ne_true, if_neg Bool.false_ne_true, BitVec.toNat_ofNat, Nat.mod_eq_of_lt hWord, hCut]
    have hPow' : (0 : Int) < 2 ^ length := by positivity
    constructor
    · intro hSame
      have hLow := Int.emod_nonneg n hPow'.ne'
      have hHigh := Int.emod_lt_of_pos n hPow'
      rw [hSame] at hLow hHigh
      exact ⟨hLow, hHigh⟩
    · rintro ⟨hLow, hHigh⟩
      exact Int.emod_eq_of_lt hLow hHigh

theorem signalBitLength_pos (can : CanSignalSpec) (dataType : StdString) : 0 < signalBitLength can dataType := by
  rw [signalBitLength]
  split
  · assumption
  · rw [defaultBitLength]
    split_ifs <;> decide

theorem validate_overflow {payload : List (BitVec 8)} {can : CanSignalSpec} {bitLength : Int}
    (hRange : ¬BadRange can bitLength) (hOverflow : 2 ^ 31 ≤ can.byteOffset * 8 + can.bitOffset + bitLength) :
    Machine.validateSignalBounds strict payload can bitLength = .error .undefined := by
  rw [BadRange] at hRange
  rw [Machine.validateSignalBounds, if_neg hRange]
  by_cases hFirst : can.byteOffset * 8 < 2 ^ 31
  · rw [exact_strict _ (by omega) hFirst]
    change (strict (can.byteOffset * 8 + can.bitOffset)).bind _ = _
    by_cases hStart : can.byteOffset * 8 + can.bitOffset < 2 ^ 31
    · rw [exact_strict _ (by omega) hStart]
      change (strict (can.byteOffset * 8 + can.bitOffset + bitLength)).bind _ = _
      rw [strict, if_neg (by omega)]
      rfl
    · rw [strict, if_neg (by omega)]
      rfl
  · rw [strict, if_neg (by omega)]
    rfl

theorem parseFrameId_thrown {value : StdString} {fault : Fault}
    (h : CanSignalCodec.parseFrameId value = .error fault) : ∃ message, fault = .thrown message := by
  rw [CanSignalCodec.parseFrameId] at h
  split at h
  · cases h
    exact ⟨_, rfl⟩
  · split at h
    · cases h
      exact ⟨_, rfl⟩
    · split at h
      · cases h
        exact ⟨_, rfl⟩
      · split at h
        · cases h
          exact ⟨_, rfl⟩
        · cases h

section Values

variable {K : Type} [Field K] [LinearOrder K]

namespace WriteSpec

variable (spec : WriteSpec K)

def reading (signedFlag : Bool) : ReadSpec K := ⟨spec.dataType, spec.scale, spec.offset, signedFlag, spec.can⟩

def bitLength : Int := signalBitLength spec.can spec.dataType

def frameLength : Int := if spec.can.dlc > 0 then spec.can.dlc else 8

def endBit : Int := spec.can.byteOffset * 8 + spec.can.bitOffset + spec.bitLength

def IsInteger : Prop :=
  isFloatType (normalizeType spec.dataType) = false ∧ isBoolType (normalizeType spec.dataType) = false

/-- The encoder throws at the frame, the range, and where that is an `int` the end of the signal and the
    scale. -/
def Refused : Prop :=
  (∃ fault, CanSignalCodec.parseFrameId spec.can.frameId = .error fault) ∨ 64 < spec.frameLength ∨
  BadRange spec.can spec.bitLength ∨
  spec.endBit < 2 ^ 31 ∧ (spec.frameLength * 8 < spec.endBit ∨ |spec.scale| < 1 / 10 ^ 12)

def readsSigned (signedFlag : Bool) : Bool := isSignedType (normalizeType spec.dataType) || signedFlag

variable [FloorRing K]

/-- The encoder throws, or the decoder reads the raw number back. -/
def RoundTrips (value : K) (signedFlag : Bool) (n : Int) : Prop :=
  ∀ platform : Platform K,
    (∃ message, CanSignalCodec.encode strict platform value spec = .error (.thrown message)) ∨
    ∃ frame decoded, CanSignalCodec.encode strict platform value spec = .ok frame ∧
      CanSignalCodec.decode strict platform frame.payload (spec.reading signedFlag) = .ok decoded ∧
      decoded.value = CanSignalCodec.applyScale (n : K) spec.scale spec.offset

variable {spec} {value : K} {platform : Platform K} {n : Int}

def blank (spec : WriteSpec K) : List (BitVec 8) := List.replicate spec.frameLength.toNat 0

omit [Field K] [LinearOrder K] [FloorRing K] in
theorem frameLength_pos : 0 < spec.frameLength := by
  rw [frameLength]
  split
  · assumption
  · decide

omit [Field K] [LinearOrder K] [FloorRing K] in
theorem length_blank : (spec.blank.length : Int) = spec.frameLength := by
  have hPos := @frameLength_pos K spec
  rw [blank, List.length_replicate]
  omega

theorem encode_parsed (hInteger : spec.IsInteger) {frameId : Nat}
    (hParsed : CanSignalCodec.parseFrameId spec.can.frameId = .ok frameId) (hShort : ¬64 < spec.frameLength) :
    CanSignalCodec.encode strict platform value spec =
      (Machine.validateSignalBounds strict spec.blank spec.can spec.bitLength).bind fun _ =>
        (CanSignalCodec.toRawInteger platform value spec.scale spec.offset).bind fun raw =>
          (Machine.writeUnsignedBits strict spec.blank spec.can spec.bitLength raw).bind fun payload =>
            .ok ⟨frameId, spec.can.extended, spec.can.remoteRequest, payload⟩ := by
  obtain ⟨hFloat, hBool⟩ := hInteger
  rw [CanSignalCodec.encode, hParsed]
  refine (if_neg hShort).trans ?_
  rw [CanSignalCodec.rawBits, hFloat, hBool, if_neg Bool.false_ne_true, if_neg Bool.false_ne_true]
  rfl

omit [Field K] [LinearOrder K] [FloorRing K] in
theorem validate_blank (hShort : ¬64 < spec.frameLength) (hRange : ¬BadRange spec.can spec.bitLength)
    (hRoom : spec.endBit < 2 ^ 31) : Machine.validateSignalBounds strict spec.blank spec.can spec.bitLength =
      if spec.frameLength * 8 < spec.endBit then invalid "CAN payload shorter than signal range" else .ok () := by
  have hPos := @frameLength_pos K spec
  rw [validate_exact exact_strict hRange hRoom, length_blank, bmod_int (by omega) (by omega)]
  rfl

theorem encode_refused (hInteger : spec.IsInteger) (hRefused : spec.Refused) :
    ∃ message, CanSignalCodec.encode strict platform value spec = .error (.thrown message) := by
  cases hParsed : CanSignalCodec.parseFrameId spec.can.frameId with
  | error fault =>
    obtain ⟨message, rfl⟩ := parseFrameId_thrown hParsed
    rw [CanSignalCodec.encode, hParsed]
    exact ⟨message, rfl⟩
  | ok frameId =>
    by_cases hShort : 64 < spec.frameLength
    · rw [CanSignalCodec.encode, hParsed]
      exact ⟨_, if_pos hShort⟩
    · rw [encode_parsed hInteger hParsed hShort]
      obtain ⟨fault, hFault⟩ | hLong | hRange | ⟨hRoom, hEnd⟩ := hRefused
      · rw [hParsed] at hFault
        cases hFault
      · exact absurd hLong hShort
      · rw [BadRange] at hRange
        rw [Machine.validateSignalBounds, if_pos hRange]
        exact ⟨_, rfl⟩
      · by_cases hRange : BadRange spec.can spec.bitLength
        · rw [BadRange] at hRange
          rw [Machine.validateSignalBounds, if_pos hRange]
          exact ⟨_, rfl⟩
        · rw [validate_blank hShort hRange hRoom]
          by_cases hBehind : spec.frameLength * 8 < spec.endBit
          · rw [if_pos hBehind]
            exact ⟨_, rfl⟩
          · rw [if_neg hBehind, CanSignalCodec.toRawInteger, if_pos (hEnd.resolve_left hBehind)]
            exact ⟨_, rfl⟩

theorem encode_overflow (hInteger : spec.IsInteger) (hAccepted : ¬spec.Refused) (hOverflow : 2 ^ 31 ≤ spec.endBit) :
    CanSignalCodec.encode strict platform value spec = .error .undefined := by
  rw [Refused, not_or, not_or, not_or] at hAccepted
  obtain ⟨hParses, hShort, hRange, -⟩ := hAccepted
  cases hParsed : CanSignalCodec.parseFrameId spec.can.frameId with
  | error fault => exact absurd ⟨fault, hParsed⟩ hParses
  | ok frameId =>
    rw [encode_parsed hInteger hParsed hShort, validate_overflow hRange hOverflow]
    rfl

def written (spec : WriteSpec K) (platform : Platform K) (n : Int) : List (BitVec 8) :=
  writeUnsignedBits spec.blank spec.can spec.bitLength (llround platform.llroundBeyond (n : K))

theorem encode_accepted (hInteger : spec.IsInteger) (hAccepted : ¬spec.Refused) (hRoom : spec.endBit < 2 ^ 31)
    (hRaw : (value - spec.offset) / spec.scale = n) : ∃ frameId,
      Machine.validateSignalBounds strict spec.blank spec.can spec.bitLength = .ok () ∧
      CanSignalCodec.encode strict platform value spec =
        .ok ⟨frameId, spec.can.extended, spec.can.remoteRequest, spec.written platform n⟩ := by
  rw [Refused, not_or, not_or, not_or, not_and, not_or] at hAccepted
  obtain ⟨hParses, hShort, hRange, hEnd⟩ := hAccepted
  obtain ⟨hInside, hScale⟩ := hEnd hRoom
  cases hParsed : CanSignalCodec.parseFrameId spec.can.frameId with
  | error fault => exact absurd ⟨fault, hParsed⟩ hParses
  | ok frameId =>
    have hPassed := validate_blank hShort hRange hRoom
    rw [if_neg hInside] at hPassed
    obtain ⟨byteOffset, bitOffset, length, valid⟩ := exists_valid (valid_of_machine exact_strict hRoom hPassed)
    have hEndBit : byteOffset * 8 + bitOffset + length < 2 ^ 31 := by
      rw [endBit, valid.byteOffset_eq, valid.bitOffset_eq, valid.length_eq] at hRoom
      omega
    refine ⟨frameId, hPassed, ?_⟩
    rw [encode_parsed hInteger hParsed hShort, hPassed, CanSignalCodec.toRawInteger, if_neg hScale, hRaw]
    change (Machine.writeUnsignedBits strict spec.blank spec.can spec.bitLength _).bind _ = _
    rw [write_exact exact_strict valid hEndBit]
    rfl

omit [Field K] [LinearOrder K] [FloorRing K] in
theorem validate_length {int : IntArithmetic} {payload other : List (BitVec 8)} (hSize : payload.length = other.length)
    (can : CanSignalSpec) (bitLength : Int) :
    Machine.validateSignalBounds int payload can bitLength = Machine.validateSignalBounds int other can bitLength := by
  rw [Machine.validateSignalBounds, Machine.validateSignalBounds, hSize]

omit [FloorRing K] in
theorem decode_integer (hInteger : spec.IsInteger) (signedFlag : Bool) {payload : List (BitVec 8)}
    (hPassed : Machine.validateSignalBounds strict payload spec.can spec.bitLength = .ok ())
    (hRoom : spec.endBit < 2 ^ 31) : ∃ decoded,
      CanSignalCodec.decode strict platform payload (spec.reading signedFlag) = .ok decoded ∧
      decoded.value = CanSignalCodec.applyScale
        ((readBack (spec.readsSigned signedFlag) spec.bitLength.toNat
          (extractUnsignedBits payload spec.can spec.bitLength) : Int) : K) spec.scale spec.offset := by
  obtain ⟨hFloat, hBool⟩ := hInteger
  obtain ⟨byteOffset, bitOffset, length, valid⟩ := exists_valid (valid_of_machine exact_strict hRoom hPassed)
  have hEndBit : byteOffset * 8 + bitOffset + length < 2 ^ 31 := by
    rw [endBit, valid.byteOffset_eq, valid.bitOffset_eq, valid.length_eq] at hRoom
    omega
  have hLength : (spec.bitLength.toNat : Int) = spec.bitLength := by rw [valid.length_eq, Int.toNat_natCast]
  have hExtract := extract_exact exact_strict valid hEndBit
  have hNumber : CanSignalCodec.rawValue platform (normalizeType spec.dataType) signedFlag spec.bitLength
      (extractUnsignedBits payload spec.can spec.bitLength) =
      .ok ((readBack (spec.readsSigned signedFlag) spec.bitLength.toNat
        (extractUnsignedBits payload spec.can spec.bitLength) : Int) : K) := by
    rw [CanSignalCodec.rawValue, hFloat, if_neg Bool.false_ne_true, readBack, readsSigned, hLength]
    split
    · rfl
    · rw [Int.cast_natCast]
  refine ⟨?_, ?_, ?_⟩
  rotate_left
  · rw [CanSignalCodec.decode]
    change (Machine.validateSignalBounds strict payload spec.can spec.bitLength).bind _ = _
    rw [hPassed]
    change (Machine.extractUnsignedBits strict payload spec.can spec.bitLength).bind _ = _
    rw [hExtract]
    change (if isBoolType (normalizeType spec.dataType) = true then _ else _) = _
    rw [hBool, if_neg Bool.false_ne_true]
    change (CanSignalCodec.rawValue platform (normalizeType spec.dataType) signedFlag spec.bitLength _).bind _ = _
    rw [hNumber]
    rfl
  · rfl

variable [IsStrictOrderedRing K]

omit [FloorRing K] in
theorem applyScale_injective (hAccepted : ¬spec.Refused) (hRoom : spec.endBit < 2 ^ 31) {m : Int} :
    CanSignalCodec.applyScale (m : K) spec.scale spec.offset = CanSignalCodec.applyScale (n : K) spec.scale spec.offset ↔
      m = n := by
  rw [Refused, not_or, not_or, not_or, not_and, not_or] at hAccepted
  obtain ⟨-, -, -, hEnd⟩ := hAccepted
  have hScale : spec.scale ≠ 0 := by
    intro hZero
    apply (hEnd hRoom).2
    rw [hZero, abs_zero]
    positivity
  rw [CanSignalCodec.applyScale, CanSignalCodec.applyScale, add_left_inj, mul_left_inj' hScale, Int.cast_inj]

/-- What comes back is what the bits of the signal keep of the rounded number. -/
theorem comes_back_iff (hInteger : spec.IsInteger) (hAccepted : ¬spec.Refused) (hRoom : spec.endBit < 2 ^ 31)
    (hRaw : (value - spec.offset) / spec.scale = n) (signedFlag : Bool) :
    ((∃ message, CanSignalCodec.encode strict platform value spec = .error (.thrown message)) ∨
      ∃ frame decoded, CanSignalCodec.encode strict platform value spec = .ok frame ∧
        CanSignalCodec.decode strict platform frame.payload (spec.reading signedFlag) = .ok decoded ∧
        decoded.value = CanSignalCodec.applyScale (n : K) spec.scale spec.offset) ↔
    readBack (spec.readsSigned signedFlag) spec.bitLength.toNat
      (BitVec.ofNat 64 ((llround platform.llroundBeyond (n : K)).toNat % 2 ^ spec.bitLength.toNat)) = n := by
  obtain ⟨frameId, hPassed, hEncode⟩ := @encode_accepted K _ _ spec _ value platform n hInteger hAccepted hRoom hRaw
  obtain ⟨hExtract, hSize, -⟩ := bit_packing (valid_of_machine exact_strict hRoom hPassed)
    (llround platform.llroundBeyond (n : K))
  rw [← validate_length (show (spec.written platform n).length = spec.blank.length from hSize)] at hPassed
  obtain ⟨decoded, hDecode, hValue⟩ := @decode_integer K _ _ spec platform hInteger signedFlag _ hPassed hRoom
  rw [written, hExtract] at hValue
  rw [← applyScale_injective hAccepted hRoom, ← hValue, hEncode]
  constructor
  · rintro (⟨message, hThrown⟩ | ⟨frame, other, hFrame, hOther, hSame⟩)
    · cases hThrown
    · cases hFrame
      rw [hDecode] at hOther
      cases hOther
      exact hSame
  · intro hSame
    exact .inr ⟨_, decoded, rfl, hDecode, hSame⟩

/-- It comes back exactly when it is refused, or the end is an `int` and the bits hold the `long long`. -/
theorem whole_raw_comes_back_iff (hInteger : spec.IsInteger) (signedFlag : Bool) (hRaw : (value - spec.offset) / spec.scale = n) :
    spec.RoundTrips value signedFlag n ↔ spec.Refused ∨
      (spec.endBit < 2 ^ 31 ∧ IsLongLong n ∧
        Representable (spec.readsSigned signedFlag) spec.bitLength.toNat n) := by
  by_cases hRefused : spec.Refused
  · exact iff_of_true (fun _ => .inl (encode_refused hInteger hRefused)) (.inl hRefused)
  · rw [or_iff_right hRefused]
    by_cases hRoom : spec.endBit < 2 ^ 31
    · have hPos : 0 < spec.bitLength.toNat := by
        have hLength : 0 < spec.bitLength := signalBitLength_pos spec.can spec.dataType
        omega
      have hLength : spec.bitLength.toNat ≤ 64 := by
        rw [Refused, not_or, not_or, not_or] at hRefused
        have hRange := hRefused.2.2.1
        rw [BadRange] at hRange
        omega
      constructor
      · intro hTrips
        have hBack := (comes_back_iff hInteger hRefused hRoom hRaw signedFlag).mp
          (hTrips ⟨fun _ => 0, fun _ => 0, fun _ => 0, fun _ => []⟩)
        by_cases hLong : IsLongLong n
        · rw [llround_intCast hLong, readBack_eq_iff hPos hLength] at hBack
          exact ⟨hRoom, hLong, hBack⟩
        · -- The platform may answer 0, which is no number beyond `long long`.
          have hZero : readBack (spec.readsSigned signedFlag) spec.bitLength.toNat
              (BitVec.ofNat 64 ((BitVec.ofInt 64 0).toNat % 2 ^ spec.bitLength.toNat)) = 0 := by
            rw [readBack_eq_iff hPos hLength, Representable]
            split
            · exact ⟨by simp, by positivity⟩
            · exact ⟨le_refl 0, by positivity⟩
          rw [llround_beyond hLong] at hBack
          have hNone : n = 0 := hBack.symm.trans hZero
          rw [hNone] at hLong
          exact absurd (by decide) hLong
      · rintro ⟨-, hLong, hRepresentable⟩ platform
        rw [comes_back_iff hInteger hRefused hRoom hRaw, llround_intCast hLong]
        exact (readBack_eq_iff hPos hLength n).mpr hRepresentable
    · refine iff_of_false (fun hTrips => ?_) (fun h => hRoom h.1)
      have hOverflow := @encode_overflow K _ _ spec _ value ⟨fun _ => 0, fun _ => 0, fun _ => 0, fun _ => []⟩ hInteger
        hRefused (Int.not_lt.mp hRoom)
      obtain ⟨message, hThrown⟩ | ⟨frame, decoded, hFrame, -⟩ :=
        hTrips ⟨fun _ => 0, fun _ => 0, fun _ => 0, fun _ => []⟩
      · rw [hOverflow] at hThrown
        cases hThrown
      · rw [hOverflow] at hFrame
        cases hFrame

end WriteSpec

def currentSetpoint : WriteSpec ℚ :=
  ⟨"uint8".toList, 1 / 10, 0, { frameId := "0x123".toList, byteOffset := 2 }⟩

theorem currentSetpoint_comes_back : currentSetpoint.RoundTrips (25 / 2) false 125 :=
  (WriteSpec.whole_raw_comes_back_iff ⟨by decide, by decide⟩ false (by norm_num [currentSetpoint])).mpr
    (.inr ⟨by decide, by decide, by decide, by decide⟩)

/-- 25.6 is 256 tenths, which the byte cuts to 0. -/
theorem currentSetpoint_cut : ¬currentSetpoint.RoundTrips (128 / 5) false 256 := by
  intro hTrips
  have hAccepted : ¬currentSetpoint.Refused := by
    rintro (⟨fault, hFault⟩ | hLong | hRange | ⟨-, hEnd | hScale⟩)
    · have hParsed : CanSignalCodec.parseFrameId "0x123".toList = .ok 291 := by decide
      cases hParsed.symm.trans hFault
    · exact absurd hLong (by decide)
    · rw [BadRange] at hRange
      exact absurd hRange (by decide)
    · exact absurd hEnd (by decide)
    · norm_num [currentSetpoint] at hScale
  have hBack := (WriteSpec.comes_back_iff ⟨by decide, by decide⟩ hAccepted (by decide) (by norm_num [currentSetpoint])
    false).mp (hTrips ⟨fun _ => 0, fun _ => 0, fun _ => 0, fun _ => []⟩)
  rw [llround_intCast (by decide)] at hBack
  exact absurd hBack (by decide)

end Values

end EdgeGateway.Can
