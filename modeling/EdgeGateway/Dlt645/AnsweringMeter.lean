import EdgeGateway.Dlt645.NumericPayload
import EdgeGateway.Dlt645.Client

/-! # Who answers a read -/

namespace EdgeGateway.Dlt645

open Fallible Dlt645Client Dlt645Codec

def nibbleText (bytes : List UInt8) : StdString :=
  bytes.flatMap fun (byte : UInt8) => [digitChar (byte >>> 4), digitChar (byte &&& 0x0F)]

def BcdReadable (bytes : List UInt8) : Prop :=
  (∀ byte ∈ (splitSign bytes.reverse).2, byte >>> 4 ≤ (9 : UInt8) ∧ byte &&& 0x0F ≤ 9) ∧
    Nat.ofDigitChars 10 (nibbleText (splitSign bytes.reverse).2) 0 < 2 ^ 1024 - 2 ^ 970

theorem bcdDigits_ok_iff {bytes : List UInt8} {text : StdString} : bcdDigits bytes = .ok text ↔
    (∀ byte ∈ bytes, byte >>> 4 ≤ (9 : UInt8) ∧ byte &&& 0x0F ≤ 9) ∧ text = nibbleText bytes := by
  induction bytes generalizing text with
  | nil =>
    constructor
    · intro h
      cases h
      exact ⟨fun byte hByte => absurd hByte List.not_mem_nil, rfl⟩
    · rintro ⟨-, rfl⟩
      rfl
  | cons byte bytes ih =>
    rw [bcdDigits, List.forall_mem_cons]
    by_cases hDigits : (9 : UInt8) < byte >>> 4 ∨ 9 < byte &&& 0x0F
    · rw [if_pos hDigits]
      refine iff_of_false ?_ ?_
      · intro h
        cases h
      · rintro ⟨⟨⟨hHigh, hLow⟩, -⟩, -⟩
        obtain hHigh' | hLow' := hDigits
        · exact absurd hHigh (UInt8.not_le.mpr hHigh')
        · exact absurd hLow (UInt8.not_le.mpr hLow')
    · rw [if_neg hDigits]
      rw [not_or, UInt8.not_lt, UInt8.not_lt] at hDigits
      constructor
      · intro h
        obtain ⟨rest, hRest, hText⟩ := bind_ok_iff.mp h
        obtain ⟨hBytes, rfl⟩ := ih.mp hRest
        exact ⟨⟨hDigits, hBytes⟩, (Except.ok.inj hText).symm⟩
      · rintro ⟨⟨-, hBytes⟩, rfl⟩
        exact bind_ok_iff.mpr ⟨_, ih.mpr ⟨hBytes, rfl⟩, rfl⟩

section Values

variable {K : Type} [Field K]

theorem stod_ok_iff {text : StdString} :
    (∃ value : K, stod text = .ok value) ↔ Nat.ofDigitChars 10 text 0 < 2 ^ 1024 - 2 ^ 970 := by
  rw [stod]
  split
  · next hLarge =>
    refine iff_of_false ?_ (Nat.not_lt.mpr hLarge)
    rintro ⟨value, hValue⟩
    cases hValue
  · next hSmall => exact iff_of_true ⟨_, rfl⟩ (Nat.lt_of_not_le hSmall)

theorem decodeBcd_ok_iff {bytes : List UInt8} {scale : K} :
    (∃ value, decodeBcdLittleEndian bytes scale = .ok value) ↔ BcdReadable bytes := by
  have hNumber : ∀ text : StdString, Nat.ofDigitChars 10 (if text.dropWhile (· = '0') = [] then ['0']
      else text.dropWhile (· = '0')) 0 = Nat.ofDigitChars 10 text 0 := by
    intro text
    rw [← ofDigitChars_dropZeros text]
    split
    · next hEmpty =>
      rw [hEmpty]
      rfl
    · rfl
  rw [BcdReadable, decodeBcdLittleEndian]
  constructor
  · rintro ⟨value, h⟩
    obtain ⟨text, hText, h⟩ := bind_ok_iff.mp h
    obtain ⟨number, hStod, -⟩ := bind_ok_iff.mp h
    obtain ⟨hDigits, rfl⟩ := bcdDigits_ok_iff.mp hText
    refine ⟨hDigits, ?_⟩
    rw [← hNumber]
    exact (@stod_ok_iff K _ _).mp ⟨number, hStod⟩
  · rintro ⟨hDigits, hSmall⟩
    rw [← hNumber] at hSmall
    obtain ⟨number, hStod⟩ := (@stod_ok_iff K _ _).mpr hSmall
    exact ⟨_, bind_ok_iff.mpr ⟨_, bcdDigits_ok_iff.mpr ⟨hDigits, rfl⟩, bind_ok_iff.mpr ⟨number, hStod, rfl⟩⟩⟩

variable {platform : Platform K} {point : ReadSpec K} {frame : List UInt8}

def ValueReadable (point : ReadSpec K) (bytes : List UInt8) : Prop :=
  if point.dataType = "dlt645_ascii".toList ∨ point.dataType = "dlt645_datetime".toList ∨
      point.dataType = "dlt645_hex".toList then True
  else if point.dataType = "dlt645_uint_le".toList ∨ point.dataType = "dlt645_bitfield_le".toList then
    if 0 ≤ point.bit then point.bit.toNat / 8 < bytes.length else bytes.length ≤ 8
  else BcdReadable bytes

def valueBytes (point : ReadSpec K) (payload : List UInt8) : List UInt8 :=
  if 0 < point.dlt645ByteCount then payload.take point.dlt645ByteCount.toNat else payload

theorem decodeValueBytes_ok_iff {bytes : List UInt8} :
    (∃ decoded, decodeValueBytes platform bytes point = .ok decoded) ↔ ValueReadable point bytes := by
  rw [decodeValueBytes, ValueReadable]
  by_cases hAscii : point.dataType = "dlt645_ascii".toList
  · exact iff_of_true ⟨_, if_pos hAscii⟩ (by rw [if_pos (.inl hAscii)]; trivial)
  · by_cases hDatetime : point.dataType = "dlt645_datetime".toList
    · refine iff_of_true ⟨_, (if_neg hAscii).trans (if_pos hDatetime)⟩ ?_
      rw [if_pos (.inr (.inl hDatetime))]
      trivial
    · by_cases hHex : point.dataType = "dlt645_hex".toList
      · refine iff_of_true ⟨_, (if_neg hAscii).trans ((if_neg hDatetime).trans (if_pos hHex))⟩ ?_
        rw [if_pos (.inr (.inr hHex))]
        trivial
      · rw [if_neg (not_or.mpr ⟨hAscii, not_or.mpr ⟨hDatetime, hHex⟩⟩)]
        simp only [if_neg hAscii, if_neg hDatetime, if_neg hHex]
        split_ifs with hUnsigned hBit hShort
        · refine iff_of_false ?_ (Nat.not_lt.mpr hShort)
          rintro ⟨decoded, h⟩
          cases h
        · exact iff_of_true ⟨_, rfl⟩ (Nat.lt_of_not_le hShort)
        · constructor
          · rintro ⟨decoded, h⟩
            obtain ⟨number, hNumber, -⟩ := bind_ok_iff.mp h
            rw [decodeUnsignedLittleEndian] at hNumber
            split at hNumber
            · cases hNumber
            · next hLong => exact Nat.not_lt.mp hLong
          · intro hLength
            exact ⟨_, bind_ok_iff.mpr ⟨_, if_neg (Nat.not_lt.mpr hLength), rfl⟩⟩
        · rw [← @decodeBcd_ok_iff K _ bytes point.scale]
          constructor
          · rintro ⟨decoded, h⟩
            obtain ⟨number, hNumber, -⟩ := bind_ok_iff.mp h
            exact ⟨number, hNumber⟩
          · rintro ⟨number, hNumber⟩
            exact ⟨_, bind_ok_iff.mpr ⟨number, hNumber, rfl⟩⟩

def frameData (frame : List UInt8) : List UInt8 := ((frame.drop 10).take (frame.getD 9 0).toNat).map (· - 0x33)

structure Answers (point : ReadSpec K) (frame : List UInt8) : Prop extends WellFormed frame where
  direction : frame.getD 8 0 &&& 0x80 ≠ 0
  data : 4 ≤ (frame.getD 9 0).toNat
  dataId : ∃ expected, parseDataId point.dlt645Di = .ok expected ∧ expected = (frameData frame).take expected.length
  byteCount : point.dlt645ByteCount ≤ ((frameData frame).drop 4).length
  value : ValueReadable point (valueBytes point ((frameData frame).drop 4))

theorem decodeFrameData_ok_iff {expected payload : List UInt8} : decodeFrameData frame expected = .ok payload ↔
    WellFormed frame ∧ frame.getD 8 0 &&& 0x80 ≠ 0 ∧ 4 ≤ (frame.getD 9 0).toNat ∧
      expected = (frameData frame).take expected.length ∧ payload = (frameData frame).drop 4 := by
  have hFour : (frame.getD 9 0 < 4) ↔ ¬4 ≤ (frame.getD 9 0).toNat := by
    rw [UInt8.lt_iff_toNat_lt, Nat.not_le]
    rfl
  rw [decodeFrameData]
  by_cases hShort : frame.length < 16
  · rw [if_pos hShort]
    refine iff_of_false ?_ ?_
    · split
      · intro h
        cases h
      · intro h
        cases h
    · rintro ⟨hFrame, -, hData, -⟩
      have hSize := hFrame.size
      omega
  · rw [if_neg hShort]
    split_ifs with hMarks hSum hControl hSize hData
    · refine iff_of_false (fun h => by cases h) ?_
      rintro ⟨hFrame, -⟩
      obtain hStart | hSecond | hStop := hMarks
      · exact hStart hFrame.start
      · exact hSecond hFrame.second
      · exact hStop hFrame.stop
    · refine iff_of_false (fun h => by cases h) ?_
      rintro ⟨hFrame, -⟩
      exact hSum hFrame.sum
    · refine iff_of_false (fun h => by cases h) ?_
      rintro ⟨-, hDirection, -⟩
      exact hDirection hControl
    · refine iff_of_false (fun h => by cases h) ?_
      rintro ⟨hFrame, -⟩
      exact hSize hFrame.size
    · refine iff_of_false (fun h => by cases h) ?_
      rintro ⟨-, -, hLong, -⟩
      exact hFour.mp hData hLong
    · rw [not_or, not_or, not_not, not_not, not_not] at hMarks
      obtain ⟨hStart, hSecond, hStop⟩ := hMarks
      have hFrame : WellFormed frame := ⟨hStart, hSecond, not_not.mp hSize, hStop, not_not.mp hSum⟩
      have hLong := not_not.mp (hFour.not.mp hData)
      change (if expected ≠ (frameData frame).take expected.length then _ else Except.ok ((frameData frame).drop 4)) = _ ↔ _
      by_cases hDataId : expected = (frameData frame).take expected.length
      · rw [if_neg (not_not.mpr hDataId)]
        constructor
        · intro h
          exact ⟨hFrame, hControl, hLong, hDataId, (Except.ok.inj h).symm⟩
        · rintro ⟨-, -, -, -, rfl⟩
          rfl
      · rw [if_pos hDataId]
        refine iff_of_false (fun h => by cases h) ?_
        rintro ⟨-, -, -, hSame, -⟩
        exact hDataId hSame

theorem decodeReadResponse_ok_iff :
    (∃ decoded, decodeReadResponse platform frame point = .ok decoded) ↔ Answers point frame := by
  rw [decodeReadResponse]
  constructor
  · rintro ⟨decoded, h⟩
    obtain ⟨expected, hExpected, h⟩ := bind_ok_iff.mp h
    obtain ⟨payload, hPayload, h⟩ := bind_ok_iff.mp h
    obtain ⟨hFrame, hDirection, hData, hDataId, rfl⟩ := decodeFrameData_ok_iff.mp hPayload
    split at h
    · cases h
    · next hCount =>
      exact ⟨hFrame, hDirection, hData, ⟨expected, hExpected, hDataId⟩, by omega,
        decodeValueBytes_ok_iff.mp ⟨decoded, h⟩⟩
  · rintro ⟨hFrame, hDirection, hData, ⟨expected, hExpected, hDataId⟩, hCount, hValue⟩
    obtain ⟨decoded, hDecoded⟩ := (@decodeValueBytes_ok_iff K _ platform point _).mpr hValue
    refine ⟨decoded, bind_ok_iff.mpr ⟨expected, hExpected, bind_ok_iff.mpr ⟨_,
      decodeFrameData_ok_iff.mpr ⟨hFrame, hDirection, hData, hDataId, rfl⟩, ?_⟩⟩⟩
    exact (if_neg (by omega)).trans hDecoded

def CarriesAddress (meterAddress : StdString) (frame : List UInt8) : Prop :=
  ∃ normalized expected, normalizeAddress meterAddress = .ok normalized ∧ encodeAddress normalized = .ok expected ∧
    expected = (frame.drop 1).take expected.length

/-- The control code of the read request, answered without an exception; the bit `0x20` says that
    more data follows. -/
def IsReadResponse (frame : List UInt8) : Prop := frame.getD 8 0 &&& 0xDF = 0x91

variable {wakeupBytes : Nat} {meterAddress : StdString} {chunks : List (List UInt8)}

theorem read_takes_iff : ((readData wakeupBytes meterAddress point.dlt645Di chunks).response = .ok frame ∧
      ∃ decoded, decodeReadResponse platform frame point = .ok decoded) ↔
    (∃ request, readRequest meterAddress point.dlt645Di = .ok request) ∧ Answers point frame ∧
      ∃ noise rest, chunks.flatten = noise ++ frame ++ rest ∧ 0x68 ∉ noise := by
  rw [decodeReadResponse_ok_iff, readData]
  cases hRequest : readRequest meterAddress point.dlt645Di with
  | error message =>
    refine iff_of_false ?_ ?_
    · rintro ⟨h, -⟩
      cases h
    · rintro ⟨⟨request, h⟩, -⟩
      cases h
  | ok request =>
    have hResponse := @exchange_response wakeupBytes request chunks
    have hSplit : chunks.flatten.takeWhile (· ≠ 0x68) ++ fromStart chunks.flatten = chunks.flatten :=
      List.takeWhile_append_dropWhile
    have hNoise : (0x68 : UInt8) ∉ chunks.flatten.takeWhile (· ≠ 0x68) := by
      intro hMem
      exact absurd (List.mem_takeWhile_imp hMem) (by decide)
    constructor
    · rintro ⟨hFrame, hAnswers⟩
      refine ⟨⟨request, rfl⟩, hAnswers, ?_⟩
      by_cases hStart : fromStart chunks.flatten = []
      · rw [if_pos hStart] at hResponse
        have hNone := hResponse frame hFrame
        rw [fromStart_of_frame hAnswers.hasFrame] at hNone
        exact absurd hNone (ne_nil_of_frame hAnswers.hasFrame)
      · rw [if_neg hStart, hFrame] at hResponse
        obtain ⟨rest, hRest⟩ := cut_isPrefix (fromStart chunks.flatten)
        rw [← Except.ok.inj hResponse] at hRest
        refine ⟨_, rest, ?_, hNoise⟩
        rw [List.append_assoc, hRest, hSplit]
    · rintro ⟨-, hAnswers, noise, rest, hStream, hFree⟩
      have hFound : fromStart chunks.flatten = frame ++ rest := by
        rw [hStream, List.append_assoc, Dlt645Client.fromStart_append, if_pos (fromStart_eq_nil_iff.mpr hFree),
          hAnswers.fromStart_append]
      have hSome : fromStart chunks.flatten ≠ [] := by
        rw [hFound]
        intro hNone
        exact ne_nil_of_frame hAnswers.hasFrame (List.append_eq_nil_iff.mp hNone).1
      rw [if_neg hSome, hFound, hAnswers.cut_append] at hResponse
      exact ⟨hResponse, hAnswers⟩

def AnsweredByMeter (platform : Platform K) (wakeupBytes : Nat) (meterAddress : StdString) (point : ReadSpec K)
    (chunks : List (List UInt8)) : Prop :=
  ∀ frame decoded, (readData wakeupBytes meterAddress point.dlt645Di chunks).response = .ok frame →
    decodeReadResponse platform frame point = .ok decoded → CarriesAddress meterAddress frame ∧ IsReadResponse frame

/-- The first start byte begins a frame with a value for the point, of another meter or no answer to a read.
    -/
def StrangeFrameFirst (meterAddress : StdString) (point : ReadSpec K) (received : List UInt8) : Prop :=
  ∃ noise frame rest, received = noise ++ frame ++ rest ∧ 0x68 ∉ noise ∧ Answers point frame ∧
    ¬(CarriesAddress meterAddress frame ∧ IsReadResponse frame)

/-- Reads are answered by the addressed meter exactly when they are refused or no strange frame comes first. -/
theorem answeredByMeter_iff : AnsweredByMeter platform wakeupBytes meterAddress point chunks ↔
    (∃ message, readRequest meterAddress point.dlt645Di = .error message) ∨
      ¬StrangeFrameFirst meterAddress point chunks.flatten := by
  have hTakes := @read_takes_iff K _ platform point
  cases hRequest : readRequest meterAddress point.dlt645Di with
  | error message =>
    refine iff_of_true ?_ (.inl ⟨message, rfl⟩)
    intro frame decoded hFrame hDecoded
    obtain ⟨⟨request, hOk⟩, -⟩ := hTakes.mp ⟨hFrame, decoded, hDecoded⟩
    rw [hRequest] at hOk
    cases hOk
  | ok request =>
    constructor
    · intro hMeter
      refine .inr ?_
      rintro ⟨noise, frame, rest, hStream, hNoise, hAnswers, hStrange⟩
      obtain ⟨hFrame, decoded, hDecoded⟩ := hTakes.mpr ⟨⟨request, hRequest⟩, hAnswers, noise, rest, hStream, hNoise⟩
      exact hStrange (hMeter frame decoded hFrame hDecoded)
    · rintro (⟨message, h⟩ | hNone)
      · cases h
      · intro frame decoded hFrame hDecoded
        obtain ⟨-, hAnswers, noise, rest, hStream, hNoise⟩ := hTakes.mp ⟨hFrame, decoded, hDecoded⟩
        by_contra hStrange
        exact hNone ⟨noise, frame, rest, hStream, hNoise, hAnswers, hStrange⟩

def voltagePoint : ReadSpec ℚ :=
  ⟨"dlt645_bcd".toList, 1 / 10, 0, -1, "02010100".toList, 2⟩

theorem answers_voltageAnswer : Answers voltagePoint voltageAnswer := by
  refine ⟨wellFormed_voltageAnswer, by decide, by decide, ⟨[0x00, 0x01, 0x01, 0x02], by decide, by decide⟩, by decide, ?_⟩
  refine (if_neg (by decide)).mpr ((if_neg (by decide)).mpr ⟨?_, ?_⟩)
  · change ∀ byte ∈ [(0x22 : UInt8), 0x05], byte >>> 4 ≤ 9 ∧ byte &&& 15 ≤ 9
    exact List.forall_mem_cons.mpr ⟨by decide, List.forall_mem_singleton.mpr (by decide)⟩
  · change 2205 < _
    have hSmall : 2205 < 2 ^ 64 := by norm_num
    exact Nat.lt_of_not_le (not_outOfRange hSmall)

/-- The late answer of the meter 1 is taken for one of the meter 2. -/
theorem late_answer_taken :
    ¬AnsweredByMeter ⟨fun _ => 0, fun _ => []⟩ 4 "2".toList voltagePoint [[0xFE], voltageAnswer] := by
  intro hMeter
  have hRequest : readRequest "2".toList voltagePoint.dlt645Di = .ok [0x68, 0x02, 0x00, 0x00, 0x00, 0x00, 0x00, 0x68, 0x11,
      0x04, 0x33, 0x34, 0x34, 0x35, 0xB7, 0x16] := by decide
  obtain ⟨hFrame, decoded, hDecoded⟩ := (@read_takes_iff ℚ _ ⟨fun _ => 0, fun _ => []⟩ voltagePoint voltageAnswer 4 "2".toList
    [[0xFE], voltageAnswer]).mpr ⟨⟨_, hRequest⟩, answers_voltageAnswer, [0xFE], [], by decide, by decide⟩
  obtain ⟨⟨normalized, expected, hNormalized, hExpected, hSame⟩, -⟩ := hMeter _ _ hFrame hDecoded
  have hDigits : normalizeAddress "2".toList = .ok "000000000002".toList := by decide
  have hBytes : encodeAddress "000000000002".toList = .ok [0x02, 0, 0, 0, 0, 0] := by decide
  rw [hDigits] at hNormalized
  cases hNormalized
  rw [hBytes] at hExpected
  cases hExpected
  exact absurd hSame (by decide)

end Values

end EdgeGateway.Dlt645
