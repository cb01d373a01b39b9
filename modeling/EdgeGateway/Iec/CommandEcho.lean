import EdgeGateway.Iec.ObjectLists
import EdgeGateway.Iec.TcpClient
import Mathlib.Data.Rat.Floor

/-! # Commands and their echo -/

namespace EdgeGateway.Iec

open Fallible

def kept (value : Int) (width : Nat) : Nat := (value % 256 ^ width).toNat

theorem kept_lt (value : Int) (width : Nat) : kept value width < 256 ^ width := by
  have hPos : (0 : Int) < 256 ^ width := by positivity
  have hLow := Int.emod_nonneg value hPos.ne'
  have hHigh := Int.emod_lt_of_pos value hPos
  rw [kept]
  zify
  rwa [Int.toNat_of_nonneg hLow]

theorem kept_of_fits {value : Int} {width : Nat} (hLow : 0 ≤ value) (hFits : value < 256 ^ width) :
    (kept value width : Int) = value := by
  rw [kept, Int.emod_eq_of_lt hLow hFits, Int.toNat_of_nonneg hLow]

theorem appendLe_eq {width : Nat} (value : Int) (hWidth : width ≤ 4) :
    appendLe value width = Bytes.littleEndian width (kept value width) := by
  have hDvd : (256 : Int) ^ width ∣ 2 ^ 32 := by
    have hPower : (256 : Int) ^ width ∣ 256 ^ 4 := pow_dvd_pow 256 hWidth
    norm_num at hPower ⊢
    exact hPower
  have hLow : 0 ≤ value % 2 ^ 32 := Int.emod_nonneg value (by decide)
  have hSame : kept value width = (value % 2 ^ 32).toNat % 256 ^ width := by
    rw [kept]
    zify
    rw [Int.toNat_of_nonneg hLow, Int.emod_emod_of_dvd value hDvd, Int.toNat_of_nonneg (Int.emod_nonneg value (by positivity))]
  rw [appendLe, hSame, Bytes.littleEndian_mod]

@[simp] theorem length_appendLe (value : Int) (width : Nat) : (appendLe value width).length = width :=
  Bytes.length_littleEndian _ _

theorem ofLittleEndian_appendLe {width : Nat} (value : Int) (hWidth : width ≤ 4) :
    Bytes.ofLittleEndian (appendLe value width) = kept value width := by
  rw [appendLe_eq value hWidth, Bytes.ofLittleEndian_littleEndian, Nat.mod_eq_of_lt (kept_lt value width)]

theorem readInt16Le_appendLe {n : Int} (hLow : -32768 ≤ n) (hHigh : n ≤ 32767) (rest : List UInt8) :
    readInt16Le (appendLe n 2 ++ rest) 0 = n := by
  have hTake : ((appendLe n 2 ++ rest).drop 0).take 2 = appendLe n 2 := List.take_left' (length_appendLe _ _)
  have hKept : (kept n 2 : Int) = n % ((2 ^ 16 : Nat) : Int) := by
    rw [kept]
    omega
  change Int.bmod (Bytes.ofLittleEndian (((appendLe n 2 ++ rest).drop 0).take 2)) (2 ^ 16) = n
  rw [hTake, ofLittleEndian_appendLe _ (by decide), hKept, Int.emod_bmod]
  exact Int.bmod_eq_of_le (by omega) (by omega)

section Header

variable {config : IecProtocolConfig} (hCot : 1 ≤ config.cotSize) (hCotSize : config.cotSize ≤ 2)

include hCot hCotSize

theorem length_appendCot (cause : Int) : (appendCot cause config).length = config.cotSize := by
  rw [appendCot]
  split
  · rw [length_appendLe]
    omega
  · rw [length_appendLe]

theorem cause_appendCot {cause : Int} (hLow : 0 ≤ cause) (hHigh : cause < 64) :
    (Bytes.ofLittleEndian (appendCot cause config) : Int) % 64 = cause := by
  rw [appendCot]
  split
  · rw [ofLittleEndian_appendLe _ (by decide), kept, Int.emod_eq_of_lt hLow hHigh]
    omega
  · rw [ofLittleEndian_appendLe _ (by omega), show config.cotSize = 2 by omega, kept]
    omega

end Header

section Elements

variable {K : Type} [Field K] [LinearOrder K] [FloorRing K] {platform : Platform K} {point : IecPoint K} {value : K}
  {select cancel : Bool} {element : List UInt8}

def commandRaw (point : IecPoint K) (value : K) : K :=
  (value - point.write.offset) / (if 1 / 10 ^ 12 < |point.write.scale| then point.write.scale else 1)

theorem commandElement_eq : commandElement platform point value select =
    if commandTypeOf point = 45 then .ok [buildQualifier point select (if 1 / 10 ^ 9 < |value| then 1 else 0)]
    else if commandTypeOf point = 46 then
      if roundAway value < 0 ∨ 3 < roundAway value then .error "IEC double command value must be 0..3"
      else .ok [buildQualifier point select (byte (roundAway value))]
    else if commandTypeOf point = 48 then
      .ok (appendLe (clampInt16 (roundAway (commandRaw point value * 32768))) 2 ++ [buildQualifier point select 0])
    else if commandTypeOf point = 49 then
      .ok (appendLe (clampInt16 (roundAway (commandRaw point value))) 2 ++ [buildQualifier point select 0])
    else if commandTypeOf point = 50 then
      .ok (appendLe (platform.floatBits (commandRaw point value)) 4 ++ [buildQualifier point select 0])
    else .error ("unsupported IEC104 write typeId: " ++ toString (commandTypeOf point)) := rfl

theorem commandElement_ok (h : commandElement platform point value select = .ok element) : ∃ typeId : Nat,
    commandTypeOf point = typeId ∧ typeId ∈ [45, 46, 48, 49, 50] ∧ element.length = typePayloadSize typeId := by
  rw [commandElement_eq] at h
  split at h
  · next hSingle =>
    cases h
    exact ⟨45, hSingle, by decide, rfl⟩
  · split at h
    · next hDouble =>
      split at h
      · cases h
      · cases h
        exact ⟨46, hDouble, by decide, rfl⟩
    · split at h
      · next hNormalized =>
        cases h
        exact ⟨48, hNormalized, by decide, by rw [List.length_append, length_appendLe]; rfl⟩
      · split at h
        · next hScaled =>
          cases h
          exact ⟨49, hScaled, by decide, by rw [List.length_append, length_appendLe]; rfl⟩
        · split at h
          · next hFloat =>
            cases h
            exact ⟨50, hFloat, by decide, by rw [List.length_append, length_appendLe]; rfl⟩
          · cases h

omit [Field K] [LinearOrder K] [FloorRing K] in
theorem buildQualifier_and {mask : UInt8} (hQualifier : 0x7C &&& mask = 0) (hSelect : 0x80 &&& mask = 0) (low : UInt8) :
    buildQualifier point select low &&& mask = low &&& mask := by
  have hSplit : ∀ a b : UInt8, (a ||| b) &&& mask = (a &&& mask) ||| (b &&& mask) := by
    intro a b
    apply UInt8.toNat_inj.mp
    rw [UInt8.toNat_and, UInt8.toNat_or, UInt8.toNat_or, UInt8.toNat_and, UInt8.toNat_and, Nat.and_or_distrib_right]
  have hPlain : (byte point.write.iec.qualifier &&& 0x7C ||| low) &&& mask = low &&& mask := by
    rw [hSplit, UInt8.and_assoc, hQualifier, UInt8.and_zero, UInt8.zero_or]
  rw [buildQualifier]
  split
  · rw [hSplit, hPlain, hSelect, UInt8.or_zero]
  · exact hPlain

theorem commandElement_number (h : commandElement platform point value select = .ok element) :
    (commandTypeOf point = 45 → elementNumber platform 45 element = if 1 / 10 ^ 9 < |value| then 1 else 0) ∧
    (commandTypeOf point = 46 → elementNumber platform 46 element = (roundAway value : K)) ∧
    (commandTypeOf point = 49 → elementNumber platform 49 element = (clampInt16 (roundAway (commandRaw point value)) : K)) := by
  rw [commandElement_eq] at h
  refine ⟨fun hType => ?_, fun hType => ?_, fun hType => ?_⟩
  · rw [if_pos hType] at h
    cases h
    change ((buildQualifier point select _ &&& 0x01).toNat : K) = _
    rw [buildQualifier_and (by decide) (by decide)]
    split
    · exact Nat.cast_one
    · exact Nat.cast_zero
  · have hOther : commandTypeOf point ≠ 45 := by omega
    rw [if_neg hOther, if_pos hType] at h
    split at h
    · cases h
    · next hRange =>
      rw [not_or, not_lt, not_lt] at hRange
      cases h
      change ((buildQualifier point select _ &&& 0x03).toNat : K) = _
      rw [buildQualifier_and (by decide) (by decide)]
      obtain ⟨state, hState⟩ := Int.eq_ofNat_of_zero_le hRange.1
      have hAll : ∀ n : Nat, n < 4 → (byte (n : Int) &&& 0x03).toNat = n := by decide
      rw [hState, hAll state (by omega), Int.cast_natCast]
  · have hOther : commandTypeOf point ≠ 45 ∧ commandTypeOf point ≠ 46 ∧ commandTypeOf point ≠ 48 := by omega
    rw [if_neg hOther.1, if_neg hOther.2.1, if_neg hOther.2.2, if_pos hType] at h
    cases h
    have hClamp : -32768 ≤ clampInt16 (roundAway (commandRaw point value)) ∧
        clampInt16 (roundAway (commandRaw point value)) ≤ 32767 := by
      rw [clampInt16]
      omega
    have hRead := readInt16Le_appendLe hClamp.1 hClamp.2 [buildQualifier point select 0]
    exact congrArg (fun n : Int => (n : K)) hRead

end Elements

section Commands

variable {K : Type} [Field K] [LinearOrder K] [FloorRing K] (platform : Platform K) (config : IecProtocolConfig)
  (point : IecPoint K)

def buildIec104ControlCommand (requestedValue : K) (sendSequence receiveSequence : Nat) (select cancel : Bool) :
    Except String (List UInt8) :=
  (controlAsdu platform config point requestedValue select cancel).bind fun asdu =>
    buildIec104IFrame asdu sendSequence receiveSequence

def confirmation (asdu : List UInt8) : List UInt8 := asdu.set 2 (byteAt asdu 2 &&& 0xC0 ||| 7)

/-- The peer's echo of the command is taken for its confirmation. -/
def EchoRecognised (frame : List UInt8) : Prop :=
  ∃ asdu value, decodeAsdu platform config (confirmation (iec104AsduPayload frame)) = .ok asdu ∧ asdu.values = [value] ∧
    controlConfirmationMatches point value 7 = true

variable {platform config point} {value : K} {sendSequence receiveSequence : Nat} {select cancel : Bool}
  {asdu frame : List UInt8}

omit [Field K] [LinearOrder K] [FloorRing K] in
theorem cause_of_confirmation (octet : UInt8) : (octet &&& 0xC0 ||| 7).toNat % 64 = 7 := by
  rw [UInt8.toNat_or, UInt8.toNat_and, ← Nat.and_two_pow_sub_one_eq_mod _ 6, Nat.and_or_distrib_right, Nat.and_assoc]
  change octet.toNat &&& 0 ||| 7 = 7
  rw [Nat.and_zero]
  rfl

theorem controlAsdu_individual (h : controlAsdu platform config point value select cancel = .ok asdu) :
    ∃ (typeId : Nat) (element : List UInt8), commandTypeOf point = typeId ∧ typeId ∈ [45, 46, 48, 49, 50] ∧
      commandElement platform point value select = .ok element ∧ element.length = typePayloadSize typeId ∧
      0 ≤ commandIoaOf point ∧
      asdu = [UInt8.ofNat typeId, 1] ++ appendCot (if cancel then 8 else 6) config ++
        appendLe (commandCommonAddressOf config point) config.caSize ++ (appendLe (commandIoaOf point) config.ioaSize ++ element) := by
  rw [controlAsdu] at h
  split at h
  · cases h
  · split at h
    · cases h
    · next hAddress =>
      obtain ⟨element, hElement, rfl⟩ := map_ok_iff.mp h
      obtain ⟨typeId, hType, hMem, hLength⟩ := commandElement_ok hElement
      have hAll : ∀ t ∈ [45, 46, 48, 49, 50], byte ((t : Nat) : Int) = UInt8.ofNat t := by decide
      refine ⟨typeId, element, hType, hMem, hElement, hLength, not_lt.mp hAddress, ?_⟩
      rw [asduHeader, hType, hAll typeId hMem, List.append_assoc]

section Sizes

variable (hCot : 1 ≤ config.cotSize) (hCotSize : config.cotSize ≤ 2) (hCaSize : config.caSize ≤ 2) (hIoaSize : config.ioaSize ≤ 3)

include hCotSize hCaSize hIoaSize

omit [LinearOrder K] [FloorRing K] in
/-- What a unit like that of a command decodes to, whatever its cause octets. -/
theorem decodeAsdu_command {typeId : Nat} (hType : typeId ∈ [45, 46, 48, 49, 50]) {cot element : List UInt8}
    (hCotLength : cot.length = config.cotSize) (hElement : element.length = typePayloadSize typeId) (commonAddress ioa : Int) :
    decodeAsdu platform config ([UInt8.ofNat typeId, 1] ++ cot ++ appendLe commonAddress config.caSize ++
        (appendLe ioa config.ioaSize ++ element)) =
      .ok { typeId, cause := (Bytes.ofLittleEndian cot : Int) % 64, commonAddress := kept commonAddress config.caSize,
            values := [⟨kept commonAddress config.caSize, kept ioa config.ioaSize, typeId,
              (Bytes.ofLittleEndian cot : Int) % 64, elementNumber platform typeId element⟩] } := by
  have hAll : ∀ t ∈ [45, 46, 48, 49, 50], typePayloadSize t ≠ 0 ∧ isProtectionType t = false := by decide
  obtain ⟨hSize, hProtection⟩ := hAll typeId hType
  have hDecoded := @decodeAsdu_individual K _ platform config typeId cot (appendLe commonAddress config.caSize) hCotLength
    hCotSize (length_appendLe _ _) hCaSize hIoaSize hSize [(kept ioa config.ioaSize, element)] (List.cons_ne_nil _ _)
    (by rw [List.length_singleton]; decide)
    fun object hObject => by
      obtain rfl := List.mem_singleton.mp hObject
      exact ⟨kept_lt _ _, hElement⟩
  rw [objectsAsdu, hProtection, if_neg Bool.false_ne_true, ofLittleEndian_appendLe _ (by omega), individualAsdu,
    encodeAddressed, List.flatMap_cons, List.flatMap_nil, List.append_nil] at hDecoded
  rw [appendLe_eq ioa (by omega)]
  exact hDecoded

include hCot

theorem decode_confirmation (h : controlAsdu platform config point value select cancel = .ok asdu) : ∃ typeId number,
    commandTypeOf point = (typeId : Nat) ∧ 0 ≤ commandIoaOf point ∧
    decodeAsdu platform config (confirmation asdu) =
      .ok { typeId, cause := 7, commonAddress := kept (commandCommonAddressOf config point) config.caSize,
            values := [⟨kept (commandCommonAddressOf config point) config.caSize,
              kept (commandIoaOf point) config.ioaSize, typeId, 7, number⟩] } := by
  obtain ⟨typeId, element, hType, hMem, -, hLength, hAddress, rfl⟩ := controlAsdu_individual h
  refine ⟨typeId, elementNumber platform typeId element, hType, hAddress, ?_⟩
  have hCotLength := length_appendCot hCot hCotSize (if cancel then 8 else 6)
  generalize appendCot (if cancel then 8 else 6) config = cot at hCotLength
  cases cot with
  | nil =>
    rw [List.length_nil] at hCotLength
    omega
  | cons octet cot =>
    have hCause : (Bytes.ofLittleEndian ((octet &&& 0xC0 ||| 7) :: cot) : Int) % 64 = 7 := by
      have hOctet := cause_of_confirmation octet
      rw [Bytes.ofLittleEndian]
      omega
    have hDecoded := @decodeAsdu_command K _ platform config hCotSize hCaSize hIoaSize typeId hMem
      ((octet &&& 0xC0 ||| 7) :: cot) element hCotLength hLength (commandCommonAddressOf config point) (commandIoaOf point)
    rw [hCause] at hDecoded
    exact hDecoded

end Sizes

omit [Field K] [LinearOrder K] [FloorRing K] in
/-- The addresses agree; the types do where none is taken from the reading side, or the one of the data type.
    -/
theorem controlConfirmationMatches_iff {typeId : Nat} {number : K} (hType : commandTypeOf point = typeId) :
    controlConfirmationMatches point ⟨commandCommonAddressOf config point, commandIoaOf point, typeId, 7, number⟩ 7 = true ↔
      0 < point.write.iec.typeId ∨ point.read.iec.typeId ≤ 0 ∨ point.read.iec.typeId = commandTypeOf point := by
  have hIoa : ¬(0 ≤ (if 0 ≤ point.write.iec.ioa then point.write.iec.ioa else if 0 ≤ point.read.iec.ioa then point.read.iec.ioa
      else if 0 ≤ point.write.address then point.write.address else if 0 < point.address then point.address else -1) ∧
      (if 0 ≤ point.write.iec.ioa then point.write.iec.ioa else if 0 ≤ point.read.iec.ioa then point.read.iec.ioa
      else if 0 ≤ point.write.address then point.write.address else if 0 < point.address then point.address else -1) ≠
        commandIoaOf point) := by
    rw [commandIoaOf]
    split_ifs <;> omega
  have hCommonAddress : ¬(0 < (if 0 < point.write.iec.commonAddress then point.write.iec.commonAddress
      else point.read.iec.commonAddress) ∧ (if 0 < point.write.iec.commonAddress then point.write.iec.commonAddress
      else point.read.iec.commonAddress) ≠ commandCommonAddressOf config point) := by
    rw [commandCommonAddressOf]
    split_ifs <;> omega
  have hMatches : controlConfirmationMatches point
      ⟨commandCommonAddressOf config point, commandIoaOf point, typeId, 7, number⟩ 7 =
      if 0 < (if 0 < point.write.iec.typeId then point.write.iec.typeId else point.read.iec.typeId) ∧
        (if 0 < point.write.iec.typeId then point.write.iec.typeId else point.read.iec.typeId) ≠ typeId then false
      else true := (if_neg hIoa).trans (if_neg hCommonAddress)
  rw [hMatches, ← hType]
  by_cases hOwn : 0 < point.write.iec.typeId
  · have hSame : commandTypeOf point = point.write.iec.typeId := if_pos hOwn
    rw [if_pos hOwn, hSame, if_neg (by omega)]
    exact iff_of_true rfl (.inl hOwn)
  · rw [if_neg hOwn]
    split
    · next hOther => exact iff_of_false Bool.false_ne_true (by omega)
    · next hSame => exact iff_of_true rfl (by omega)

section Results

variable (hCot : 1 ≤ config.cotSize) (hCotSize : config.cotSize ≤ 2) (hCaSize : config.caSize ≤ 2) (hIoaSize : config.ioaSize ≤ 3)

include hCot hCotSize hCaSize hIoaSize

/-- It is recognised exactly when the write names its type, the reading side none, or both stand for the same.
    -/
theorem echo_recognised_iff
    (hBuilt : buildIec104ControlCommand platform config point value sendSequence receiveSequence select cancel = .ok frame)
    (hIoaFits : commandIoaOf point < 256 ^ config.ioaSize) (hCaLow : 0 ≤ commandCommonAddressOf config point)
    (hCaFits : commandCommonAddressOf config point < 256 ^ config.caSize) :
    EchoRecognised platform config point frame ↔
      0 < point.write.iec.typeId ∨ point.read.iec.typeId ≤ 0 ∨ point.read.iec.typeId = commandTypeOf point := by
  obtain ⟨asdu, hAsdu, hFrame⟩ := bind_ok_iff.mp hBuilt
  obtain ⟨typeId, number, hType, hAddress, hDecoded⟩ := decode_confirmation hCot hCotSize hCaSize hIoaSize hAsdu
  rw [kept_of_fits hCaLow hCaFits, kept_of_fits hAddress hIoaFits] at hDecoded
  rw [EchoRecognised, (buildIec104IFrame_contents hFrame).2, hDecoded, ← controlConfirmationMatches_iff hType]
  constructor
  · rintro ⟨decoded, data, hUnit, hValues, hMatches⟩
    cases hUnit
    cases hValues
    exact hMatches
  · intro hMatches
    exact ⟨_, _, rfl, rfl, hMatches⟩

/-- A command that is built can be read back with its addresses, its type and cause, and a number within its
    field. -/
theorem control_command_read_back (hSend : sendSequence < 2 ^ 15) (hReceive : receiveSequence < 2 ^ 15) :
    (∃ message, buildIec104ControlCommand platform config point value sendSequence receiveSequence select cancel =
      .error message) ∨
    ∃ frame asdu data,
      buildIec104ControlCommand platform config point value sendSequence receiveSequence select cancel = .ok frame ∧
      iec104SendSequence frame = sendSequence ∧ iec104ReceiveSequence frame = receiveSequence ∧
      decodeAsdu platform config (iec104AsduPayload frame) = .ok asdu ∧ asdu.values = [data] ∧
      data.typeId = commandTypeOf point ∧ data.cause = (if cancel then 8 else 6) ∧
      (0 ≤ commandCommonAddressOf config point → commandCommonAddressOf config point < 256 ^ config.caSize →
        data.commonAddress = commandCommonAddressOf config point) ∧
      (commandIoaOf point < 256 ^ config.ioaSize → data.ioa = commandIoaOf point) ∧
      (commandTypeOf point = 45 → data.value = if 1 / 10 ^ 9 < |value| then 1 else 0) ∧
      (commandTypeOf point = 46 → data.value = (roundAway value : K)) ∧
      (commandTypeOf point = 49 → -2 ^ 31 ≤ roundAway (commandRaw point value) → roundAway (commandRaw point value) < 2 ^ 31 →
        data.value = (clampInt16 (roundAway (commandRaw point value)) : K)) := by
  cases hBuilt : buildIec104ControlCommand platform config point value sendSequence receiveSequence select cancel with
  | error message => exact .inl ⟨message, rfl⟩
  | ok frame =>
    obtain ⟨asdu, hAsdu, hFrame⟩ := bind_ok_iff.mp hBuilt
    obtain ⟨typeId, element, hType, hMem, hElement, hLength, hAddress, rfl⟩ := controlAsdu_individual hAsdu
    obtain ⟨hReceived, hPayload⟩ := buildIec104IFrame_contents hFrame
    obtain ⟨hSingle, hDouble, hScaled⟩ := commandElement_number hElement
    have hCause := @cause_appendCot config hCot hCotSize (if cancel then 8 else 6)
      (by split <;> decide) (by split <;> decide)
    have hDecoded := @decodeAsdu_command K _ platform config hCotSize hCaSize hIoaSize typeId hMem _ element
      (length_appendCot hCot hCotSize (if cancel then 8 else 6)) hLength (commandCommonAddressOf config point) (commandIoaOf point)
    rw [hCause] at hDecoded
    refine .inr ⟨frame, _, _, rfl, ?_, ?_, (congrArg (decodeAsdu platform config) hPayload).trans hDecoded, rfl, hType.symm,
      rfl, ?_, ?_, ?_, ?_, ?_⟩
    · rw [(buildIec104IFrame_spec hFrame).2, Nat.mod_eq_of_lt hSend]
    · rw [hReceived, Nat.mod_eq_of_lt hReceive]
    · exact fun hLow hFits => kept_of_fits hLow hFits
    · exact fun hFits => kept_of_fits hAddress hFits
    · intro hIs
      obtain rfl : typeId = 45 := by omega
      exact hSingle hIs
    · intro hIs
      obtain rfl : typeId = 46 := by omega
      exact hDouble hIs
    · intro hIs _ _
      obtain rfl : typeId = 49 := by omega
      exact hScaled hIs

end Results

end Commands

def barePlatform : Platform ℚ := ⟨fun _ => 0, fun _ => 0, fun _ => ⟨0, 0, 0, 0, 0, 0⟩⟩

def breaker (writeType : Int) : IecPoint ℚ :=
  ⟨0, ⟨"single_point".toList, { ioa := 100, typeId := 1 }⟩,
    ⟨true, -1, "single_command".toList, 1, 0, none, none, [], { typeId := writeType }⟩⟩

def closeBreaker : List UInt8 := [0x68, 14, 0, 0, 0, 0, 45, 1, 6, 0, 1, 0, 100, 0, 0, 1]

theorem breaker_element {writeType : Int} (hType : commandTypeOf (breaker writeType) = 45) :
    commandElement barePlatform (breaker writeType) 1 false = .ok [1] := by
  have hOn : (1 : ℚ) / 10 ^ 9 < |1| := by norm_num
  have hQualifier : byte 0 &&& 0x7C ||| 1 = (1 : UInt8) := by decide
  rw [commandElement_eq, if_pos hType, if_pos hOn]
  exact congrArg (fun octet => Except.ok [octet]) hQualifier

theorem breaker_closed :
    buildIec104ControlCommand barePlatform {} (breaker 45) 1 0 0 false false = .ok closeBreaker := by
  rw [buildIec104ControlCommand, controlAsdu, breaker_element (by decide)]
  rfl

theorem breaker_echo : EchoRecognised barePlatform {} (breaker 45) closeBreaker ↔
    0 < (breaker 45).write.iec.typeId ∨ (breaker 45).read.iec.typeId ≤ 0 ∨
      (breaker 45).read.iec.typeId = commandTypeOf (breaker 45) :=
  echo_recognised_iff (by decide) (by decide) (by decide) (by decide) breaker_closed (by decide) (by decide) (by decide)

/-- The echo carries the type 45, and the type 1 of the reading side is expected. -/
theorem unnamed_type_hides_echo :
    buildIec104ControlCommand barePlatform {} (breaker 0) 1 0 0 false false = .ok closeBreaker ∧
      ¬EchoRecognised barePlatform {} (breaker 0) closeBreaker := by
  constructor
  · rw [buildIec104ControlCommand, controlAsdu, breaker_element (by decide)]
    rfl
  · rintro ⟨asdu, data, hDecoded, hValues, hMatches⟩
    have hEcho : decodeAsdu barePlatform {} (confirmation (iec104AsduPayload closeBreaker)) =
        .ok { typeId := 45, cause := 7, commonAddress := 1, values := [⟨1, 100, 45, 7, 1⟩] } :=
      @decodeAsdu_command ℚ _ barePlatform {} (by decide) (by decide) (by decide) 45 (by decide) [7, 0] [1] rfl rfl 1 100
    rw [hEcho] at hDecoded
    cases hDecoded
    cases hValues
    exact absurd hMatches (by decide)

def activePower : IecPoint ℚ := ⟨0, ⟨[], {}⟩, ⟨true, -1, "setpoint_scaled".toList, 1, 0, none, none, [], { ioa := 200 }⟩⟩

def setActivePower : List UInt8 := [0x68, 16, 0, 0, 0, 0, 49, 1, 6, 0, 1, 0, 200, 0, 0, 0xFF, 0x7F, 0]

theorem activePower_clamped : clampInt16 (roundAway (commandRaw activePower 40000)) = 32767 := by
  have hRaw : commandRaw activePower 40000 = 40000 := by
    change ((40000 : ℚ) - 0) / (if 1 / 10 ^ 12 < |(1 : ℚ)| then 1 else 1) = 40000
    norm_num
  have hRound : roundAway (40000 : ℚ) = 40000 := by
    rw [roundAway]
    norm_num
  rw [hRaw, hRound]
  rfl

/-- 40000 is sent as 32767. -/
theorem setpoint_is_clamped :
    buildIec104ControlCommand barePlatform {} activePower 40000 0 0 false false = .ok setActivePower ∧
      decodeAsdu barePlatform {} (iec104AsduPayload setActivePower) =
        .ok { typeId := 49, cause := 6, commonAddress := 1, values := [⟨1, 200, 49, 6, 32767⟩] } := by
  have hElement : commandElement barePlatform activePower 40000 false = .ok [0xFF, 0x7F, 0] := by
    rw [commandElement_eq, if_neg (by decide), if_neg (by decide), if_neg (by decide), if_pos (by decide), activePower_clamped]
    rfl
  constructor
  · rw [buildIec104ControlCommand, controlAsdu, hElement]
    rfl
  · have hNumber := (commandElement_number hElement).2.2 rfl
    rw [activePower_clamped] at hNumber
    have hDecoded := @decodeAsdu_command ℚ _ barePlatform {} (by decide) (by decide) (by decide) 49 (by decide) [6, 0]
      [0xFF, 0x7F, 0] rfl rfl 1 200
    rw [hNumber] at hDecoded
    exact hDecoded

theorem setpoint_read_back :
    (∃ message, buildIec104ControlCommand barePlatform {} activePower 40000 0 0 false false = .error message) ∨
    ∃ frame asdu data, buildIec104ControlCommand barePlatform {} activePower 40000 0 0 false false = .ok frame ∧
      iec104SendSequence frame = 0 ∧ iec104ReceiveSequence frame = 0 ∧
      decodeAsdu barePlatform {} (iec104AsduPayload frame) = .ok asdu ∧ asdu.values = [data] ∧
      data.typeId = commandTypeOf activePower ∧ data.cause = (if false = true then 8 else 6) ∧
      (0 ≤ commandCommonAddressOf {} activePower → commandCommonAddressOf {} activePower < 256 ^ 2 →
        data.commonAddress = commandCommonAddressOf {} activePower) ∧
      (commandIoaOf activePower < 256 ^ 3 → data.ioa = commandIoaOf activePower) ∧
      (commandTypeOf activePower = 45 → data.value = if 1 / 10 ^ 9 < |(40000 : ℚ)| then 1 else 0) ∧
      (commandTypeOf activePower = 46 → data.value = (roundAway (40000 : ℚ) : ℚ)) ∧
      (commandTypeOf activePower = 49 → -2 ^ 31 ≤ roundAway (commandRaw activePower 40000) →
        roundAway (commandRaw activePower 40000) < 2 ^ 31 →
        data.value = (clampInt16 (roundAway (commandRaw activePower 40000)) : ℚ)) :=
  control_command_read_back (by decide) (by decide) (by decide) (by decide) (by decide) (by decide)

end EdgeGateway.Iec
