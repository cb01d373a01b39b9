import EdgeGateway.Iec.ObjectLists

/-! # Decoding with checked reads

Every byte is read on its own, and a read beyond the string is a fault apart from the exceptions of
the code.
-/

namespace EdgeGateway.Iec

open Fallible

inductive ReadFault where
  | thrown (message : String)
  | outside

namespace Machine

def throwText {α : Type} (message : String) : Except ReadFault α := .error (.thrown message)

def byteAt (bytes : List UInt8) (i : Nat) : Except ReadFault UInt8 :=
  match bytes[i]? with
  | some byte => .ok byte
  | none => .error .outside

def readBytes (bytes : List UInt8) : Nat → Nat → Except ReadFault (List UInt8)
  | _, 0 => .ok []
  | offset, count + 1 => do
    let byte ← byteAt bytes offset
    return byte :: (← readBytes bytes (offset + 1) count)

def readLe (bytes : List UInt8) (offset width : Nat) : Except ReadFault Int :=
  if 4 < width ∨ bytes.length < offset + width then throwText "iec field out of range"
  else do return Int.bmod (Bytes.ofLittleEndian (← readBytes bytes offset width)) (2 ^ 32)

def readInt16Le (bytes : List UInt8) (offset : Nat) : Except ReadFault Int := do
  return Int.bmod (← readLe bytes offset 2) (2 ^ 16)

def readInt32Le (bytes : List UInt8) (offset : Nat) : Except ReadFault Int := readLe bytes offset 4

section Decode

variable {K : Type} [Field K] (platform : Platform K)

def readFloatLe (bytes : List UInt8) (offset : Nat) : Except ReadFault K := do
  return platform.ofFloatBits (((← readLe bytes offset 4) % 2 ^ 32).toNat)

def elementValue (bytes : List UInt8) (offset typeId : Nat) : Except ReadFault K :=
  match typeId with
  | 1 | 2 | 30 | 45 => do return ((← byteAt bytes offset) &&& 0x01).toNat
  | 3 | 4 | 31 | 46 => do return ((← byteAt bytes offset) &&& 0x03).toNat
  | 5 | 6 | 32 | 11 | 12 | 35 | 49 => do return (← readInt16Le bytes offset)
  | 7 | 8 | 33 | 15 | 16 | 37 => do return (← readInt32Le bytes offset)
  | 9 | 10 | 34 | 21 | 48 => do return (← readInt16Le bytes offset) / 32768
  | 13 | 14 | 36 | 50 => readFloatLe platform bytes offset
  | 20 => do return (← byteAt bytes offset).toNat
  | _ => throwText ("unsupported IEC ASDU typeId: " ++ toString typeId)

def decodeInformationObject (bytes : List UInt8) (payloadOffset typeId : Nat) (cause commonAddress ioa : Int) :
    Except ReadFault (IecDataValue K) :=
  if typePayloadSize typeId = 0 ∨ bytes.length < payloadOffset + typePayloadSize typeId then
    throwText ("unsupported IEC ASDU typeId: " ++ toString typeId)
  else do return ⟨commonAddress, ioa, typeId, cause, ← elementValue platform bytes payloadOffset typeId⟩

def decodeProtectionEvent (bytes : List UInt8) (payloadOffset typeId : Nat) (cause commonAddress ioa : Int) :
    Except ReadFault IecProtectionEvent :=
  if bytes.length < payloadOffset + typePayloadSize typeId then throwText "IEC protection ASDU too short"
  else do
    let eventState := ((← byteAt bytes payloadOffset) &&& 0x03).toNat
    let elapsedTimeMs ← readLe bytes (payloadOffset + 1) 2
    let relayDurationMs ← readLe bytes (payloadOffset + 3) 2
    return ⟨commonAddress, ioa, typeId, cause, eventState, elapsedTimeMs, relayDurationMs⟩

def decodeParameterObject (bytes : List UInt8) (offset typeId : Nat) (cause commonAddress ioa : Int) :
    Except ReadFault (IecParameterValue K) :=
  match typeId with
  | 110 =>
    if bytes.length < offset + 3 then throwText "IEC normalized parameter too short"
    else do
      let value ← readInt16Le bytes offset
      return ⟨commonAddress, ioa, typeId, cause, (← byteAt bytes (offset + 2)).toNat, value / 32768⟩
  | 111 =>
    if bytes.length < offset + 3 then throwText "IEC scaled parameter too short"
    else do
      let value ← readInt16Le bytes offset
      return ⟨commonAddress, ioa, typeId, cause, (← byteAt bytes (offset + 2)).toNat, value⟩
  | 112 =>
    if bytes.length < offset + 5 then throwText "IEC float parameter too short"
    else do
      let value ← readFloatLe platform bytes offset
      return ⟨commonAddress, ioa, typeId, cause, (← byteAt bytes (offset + 4)).toNat, value⟩
  | 113 =>
    if bytes.length < offset + 1 then throwText "IEC parameter activation too short"
    else do return ⟨commonAddress, ioa, typeId, cause, (← byteAt bytes offset).toNat, 0⟩
  | _ => throwText ("unsupported IEC parameter typeId: " ++ toString typeId)

def decodeFileObject (bytes : List UInt8) (offset typeId : Nat) (cause commonAddress ioa : Int) :
    Except ReadFault (IecFileSegment × Nat) :=
  let byteOf (i : Nat) : Except ReadFault Int := do return ((← byteAt bytes (offset + i)).toNat : Int)
  match typeId with
  | 120 =>
    if bytes.length < offset + 5 then throwText "IEC file ready ASDU too short"
    else do return (⟨commonAddress, ioa, cause, ← readLe bytes offset 2, 0, ← byteOf 4, 0, []⟩, 5)
  | 121 =>
    if bytes.length < offset + 6 then throwText "IEC section ready ASDU too short"
    else do return (⟨commonAddress, ioa, cause, ← readLe bytes offset 2, ← byteOf 2, ← byteOf 5, 0, []⟩, 6)
  | 122 | 124 =>
    if bytes.length < offset + 4 then throwText "IEC file command ASDU too short"
    else do return (⟨commonAddress, ioa, cause, ← readLe bytes offset 2, ← byteOf 2, ← byteOf 3, 0, []⟩, 4)
  | 123 =>
    if bytes.length < offset + 4 then throwText "IEC last section ASDU too short"
    else do return (⟨commonAddress, ioa, cause, ← readLe bytes offset 2, ← byteOf 2, 0, ← byteOf 3, []⟩, 4)
  | 125 =>
    if bytes.length < offset + 5 then throwText "IEC file segment ASDU too short"
    else do
      let name ← readLe bytes offset 2
      let section' ← byteOf 2
      let qualifier ← byteOf 3
      let length := (← byteAt bytes (offset + 4)).toNat
      if bytes.length < offset + 5 + length then throwText "IEC file segment data out of range"
      else return (⟨commonAddress, ioa, cause, name, section', qualifier, 0, ← readBytes bytes (offset + 5) length⟩, 5 + length)
  | 126 =>
    if bytes.length < offset + 4 then throwText "IEC file directory ASDU too short"
    else do return (⟨commonAddress, ioa, cause, ← readLe bytes offset 2, 0, ← byteOf 2, 0, []⟩, 4)
  | _ => throwText ("unsupported IEC file typeId: " ++ toString typeId)

def addressedObject {α : Type} (bytes : List UInt8) (ioaSize room : Nat)
    (decode : Nat → Int → Except ReadFault (α × Nat)) (_ offset : Nat) : Except ReadFault (Option (α × Nat)) :=
  if bytes.length < offset + ioaSize + room then .ok none
  else do
    let ioa ← readLe bytes offset ioaSize
    let (value, size) ← decode (offset + ioaSize) ioa
    return some (value, offset + ioaSize + size)

def sequentialObject {α : Type} (bytes : List UInt8) (baseIoa : Int) (room : Nat)
    (decode : Nat → Int → Except ReadFault (α × Nat)) (i offset : Nat) : Except ReadFault (Option (α × Nat)) :=
  if bytes.length < offset + room then .ok none
  else do
    let (value, size) ← decode offset (baseIoa + i)
    return some (value, offset + size)

def decodeElements {α : Type} (bytes : List UInt8) (config : IecProtocolConfig) (sequential : Bool)
    (count offset room : Nat) (decode : Nat → Int → Except ReadFault α) : Except ReadFault (List α) :=
  let sized (place : Nat) (ioa : Int) := (decode place ioa).map fun value => (value, room)
  if sequential then do
    let baseIoa ← readLe bytes offset config.ioaSize
    decodeObjects (sequentialObject bytes baseIoa room sized) count 0 (offset + config.ioaSize)
  else decodeObjects (addressedObject bytes config.ioaSize room sized) count 0 offset

def decodeAsdu (config : IecProtocolConfig) (bytes : List UInt8) : Except ReadFault (IecAsdu K) :=
  if bytes.length < 2 + config.cotSize + config.caSize then throwText "IEC ASDU too short"
  else do
    let typeId := (← byteAt bytes 0).toNat
    let vsq := (← byteAt bytes 1).toNat
    let count := vsq % 128
    let cause := (← readLe bytes 2 config.cotSize) % 64
    let commonAddress ← readLe bytes (2 + config.cotSize) config.caSize
    let offset := 2 + config.cotSize + config.caSize
    let asdu : IecAsdu K := { typeId, cause, commonAddress }
    if isParameterType typeId then
      let decode (place : Nat) (ioa : Int) :=
        (decodeParameterObject platform bytes place typeId cause commonAddress ioa).map
          fun value => (value, parameterSize typeId)
      let parameters ← decodeObjects (addressedObject bytes config.ioaSize 0 decode) count 0 offset
      return { asdu with parameters }
    else if isFileType typeId then
      let decode (place : Nat) (ioa : Int) := decodeFileObject bytes place typeId cause commonAddress ioa
      let fileSegments ← decodeObjects (addressedObject bytes config.ioaSize 0 decode) count 0 offset
      return { asdu with fileSegments }
    else if typePayloadSize typeId = 0 ∨ count = 0 then return asdu
    else if isProtectionType typeId then
      let decode (place : Nat) (ioa : Int) := decodeProtectionEvent bytes place typeId cause commonAddress ioa
      let protectionEvents ← decodeElements bytes config (128 ≤ vsq) count offset (typePayloadSize typeId) decode
      return { asdu with protectionEvents }
    else
      let decode (place : Nat) (ioa : Int) := decodeInformationObject platform bytes place typeId cause commonAddress ioa
      let values ← decodeElements bytes config (128 ≤ vsq) count offset (typePayloadSize typeId) decode
      return { asdu with values }

end Decode

section Reads

variable {bytes : List UInt8} {offset count : Nat}

theorem byteAt_ok (h : offset < bytes.length) : byteAt bytes offset = .ok (Iec.byteAt bytes offset) := by
  rw [byteAt, List.getElem?_eq_getElem h, Iec.byteAt, List.getD_eq_getElem _ _ h]

theorem readBytes_ok (h : offset + count ≤ bytes.length) :
    readBytes bytes offset count = .ok ((bytes.drop offset).take count) := by
  induction count generalizing offset with
  | zero => rw [List.take_zero, readBytes]
  | succ count ih =>
    have hHere : offset < bytes.length := by omega
    rw [readBytes, byteAt_ok hHere]
    refine bind_ok_iff.mpr ⟨_, rfl, bind_ok_iff.mpr ⟨_, ih (by omega), ?_⟩⟩
    rw [List.drop_eq_getElem_cons hHere, List.take_succ_cons, Iec.byteAt, List.getD_eq_getElem _ _ hHere]
    rfl

theorem readLe_checked (width : Nat) : readLe bytes offset width = (Iec.readLe bytes offset width).mapError .thrown := by
  rw [readLe, Iec.readLe]
  split
  · rfl
  · rw [readBytes_ok (by omega)]
    rfl

theorem readWord_ok (h : offset + 2 ≤ bytes.length) : readLe bytes offset 2 = .ok (wordAt bytes offset : Int) := by
  rw [readLe_checked, readLe_word h]
  rfl

theorem readInt16Le_ok (h : offset + 2 ≤ bytes.length) : readInt16Le bytes offset = .ok (Iec.readInt16Le bytes offset) := by
  rw [readInt16Le, readWord_ok h]
  rfl

theorem readInt32Le_ok (h : offset + 4 ≤ bytes.length) : readInt32Le bytes offset = .ok (Iec.readInt32Le bytes offset) := by
  rw [readInt32Le, readLe_checked, Iec.readLe, if_neg (by omega)]
  rfl

theorem readFloatLe_ok {K : Type} {platform : Platform K} (h : offset + 4 ≤ bytes.length) :
    readFloatLe platform bytes offset = .ok (platform.ofFloatBits (readUInt32Le bytes offset)) := by
  have hBound := Bytes.ofLittleEndian_lt ((bytes.drop offset).take 4)
  have hLength : ((bytes.drop offset).take 4).length = 4 := by
    rw [List.length_take, List.length_drop]
    omega
  rw [hLength] at hBound
  have hBits : (Int.bmod (readUInt32Le bytes offset) (2 ^ 32) % 2 ^ 32).toNat = readUInt32Le bytes offset := by
    change (Int.bmod (readUInt32Le bytes offset) (2 ^ 32) % ((2 ^ 32 : Nat) : Int)).toNat = _
    rw [Int.bmod_emod, readUInt32Le]
    omega
  have hRead : readLe bytes offset 4 = .ok (Int.bmod (readUInt32Le bytes offset) (2 ^ 32)) := readInt32Le_ok h
  rw [readFloatLe, hRead]
  change Except.ok (platform.ofFloatBits (Int.bmod (readUInt32Le bytes offset) (2 ^ 32) % 2 ^ 32).toNat) = _
  rw [hBits]

end Reads

section Agree

variable {K : Type} [Field K] {platform : Platform K} {bytes : List UInt8} {offset typeId : Nat} {cause commonAddress ioa : Int}

theorem elementValue_checked (h : typeId ∈ valueTypes) (hRoom : offset + typePayloadSize typeId ≤ bytes.length) :
    elementValue platform bytes offset typeId = (Iec.elementValue platform bytes offset typeId).mapError .thrown := by
  have hAll : ∀ t ∈ valueTypes, 0 < typePayloadSize t := by decide
  have hByte := @byteAt_ok bytes offset (by have := hAll typeId h; omega)
  have hInt16 : 2 ≤ typePayloadSize typeId → _ := fun hSize => @readInt16Le_ok bytes offset (by omega)
  have hInt32 : 4 ≤ typePayloadSize typeId → _ := fun hSize => @readInt32Le_ok bytes offset (by omega)
  have hFloat : 4 ≤ typePayloadSize typeId → _ := fun hSize => @readFloatLe_ok bytes offset K platform (by omega)
  clear hRoom
  simp only [valueTypes, List.mem_append] at h
  obtain (((((h | h) | h) | h) | h) | h) | h := h
  · fin_cases h <;>
      exact congrArg (fun r : Except ReadFault UInt8 => r >>= fun byte => pure ((byte &&& 0x01).toNat : K)) hByte
  · fin_cases h <;>
      exact congrArg (fun r : Except ReadFault UInt8 => r >>= fun byte => pure ((byte &&& 0x03).toNat : K)) hByte
  · fin_cases h
    exact congrArg (fun r : Except ReadFault UInt8 => r >>= fun byte => pure (byte.toNat : K)) hByte
  · fin_cases h <;> exact congrArg (fun r : Except ReadFault Int => r >>= fun n => pure (n : K)) (hInt16 (by decide))
  · fin_cases h <;>
      exact congrArg (fun r : Except ReadFault Int => r >>= fun n => pure ((n : K) / 32768)) (hInt16 (by decide))
  · fin_cases h <;> exact congrArg (fun r : Except ReadFault Int => r >>= fun n => pure (n : K)) (hInt32 (by decide))
  · fin_cases h <;> exact hFloat (by decide)

theorem decodeInformationObject_checked (hValue : isProtectionType typeId = false) :
    decodeInformationObject platform bytes offset typeId cause commonAddress ioa =
      (Iec.decodeInformationObject platform bytes offset typeId cause commonAddress ioa).mapError .thrown := by
  rw [decodeInformationObject, Iec.decodeInformationObject]
  split
  · rfl
  · next hRoom =>
    rw [not_or, Nat.not_lt] at hRoom
    rw [elementValue_checked (mem_valueTypes hRoom.1 hValue) hRoom.2]
    cases Iec.elementValue platform bytes offset typeId with
    | error message => rfl
    | ok value => rfl

theorem decodeProtectionEvent_checked (hProtection : isProtectionType typeId = true) :
    decodeProtectionEvent bytes offset typeId cause commonAddress ioa =
      (Iec.decodeProtectionEvent bytes offset typeId cause commonAddress ioa).mapError .thrown := by
  have hSize := protection_size hProtection
  rw [decodeProtectionEvent, Iec.decodeProtectionEvent]
  split
  · rfl
  · next hRoom =>
    rw [byteAt_ok (by omega), readWord_ok (by omega), readWord_ok (by omega), readLe_word (by omega),
      readLe_word (by omega)]
    rfl

theorem decodeParameterObject_checked (hParameter : isParameterType typeId = true) :
    decodeParameterObject platform bytes offset typeId cause commonAddress ioa =
      (Iec.decodeParameterObject platform bytes offset typeId cause commonAddress ioa).mapError .thrown := by
  unfold decodeParameterObject Iec.decodeParameterObject
  split
  · split
    · rfl
    · rw [readInt16Le_ok (by omega)]
      change (byteAt bytes (offset + 2)).bind _ = _
      rw [byteAt_ok (by omega)]
      rfl
  · split
    · rfl
    · rw [readInt16Le_ok (by omega)]
      change (byteAt bytes (offset + 2)).bind _ = _
      rw [byteAt_ok (by omega)]
      rfl
  · split
    · rfl
    · rw [readFloatLe_ok (by omega)]
      change (byteAt bytes (offset + 4)).bind _ = _
      rw [byteAt_ok (by omega)]
      rfl
  · split
    · rfl
    · rw [byteAt_ok (by omega)]
      rfl
  · next hNormalized hScaled hFloat hActivation =>
    have hRange := of_decide_eq_true hParameter
    rw [imp_false] at hNormalized hScaled hFloat hActivation
    omega

theorem decodeFileObject_checked (hFile : isFileType typeId = true) :
    decodeFileObject bytes offset typeId cause commonAddress ioa =
      (Iec.decodeFileObject bytes offset typeId cause commonAddress ioa).mapError .thrown := by
  unfold decodeFileObject Iec.decodeFileObject
  dsimp only
  split
  · split
    · rfl
    · rw [readWord_ok (by omega), byteAt_ok (by omega)]
      rfl
  · split
    · rfl
    · rw [readWord_ok (by omega), byteAt_ok (by omega), byteAt_ok (by omega)]
      rfl
  · split
    · rfl
    · rw [readWord_ok (by omega), byteAt_ok (by omega), byteAt_ok (by omega)]
      rfl
  · split
    · rfl
    · rw [readWord_ok (by omega), byteAt_ok (by omega), byteAt_ok (by omega)]
      rfl
  · split
    · rfl
    · rw [readWord_ok (by omega), byteAt_ok (by omega), byteAt_ok (by omega)]
      rfl
  · split
    · rfl
    · rw [readWord_ok (by omega), byteAt_ok (by omega), byteAt_ok (by omega), byteAt_ok (by omega)]
      change (if _ then _ else (readBytes bytes (offset + 5) (Iec.byteAt bytes (offset + 4)).toNat).bind _) = _
      split
      · rfl
      · rw [readBytes_ok (by omega)]
        rfl
  · split
    · rfl
    · rw [readWord_ok (by omega), byteAt_ok (by omega)]
      rfl
  · next hReady hSection hCall hSelect hLast hSegment hDirectory =>
    have hRange := of_decide_eq_true hFile
    rw [imp_false] at hReady hSection hCall hSelect hLast hSegment hDirectory
    omega

end Agree

section Loops

variable {α : Type} {bytes : List UInt8}

theorem decodeObjects_checked {object : Nat → Nat → Except String (Option (α × Nat))}
    {checked : Nat → Nat → Except ReadFault (Option (α × Nat))}
    (h : ∀ i offset, checked i offset = (object i offset).mapError .thrown) (count i offset : Nat) :
    decodeObjects checked count i offset = (decodeObjects object count i offset).mapError .thrown := by
  induction count generalizing i offset with
  | zero => rfl
  | succ count ih =>
    rw [decodeObjects, decodeObjects, h]
    cases object i offset with
    | error message => rfl
    | ok result =>
      cases result with
      | none => rfl
      | some found =>
        obtain ⟨value, next⟩ := found
        change (decodeObjects checked count (i + 1) next).map _ = ((decodeObjects object count (i + 1) next).map _).mapError _
        rw [ih]
        cases decodeObjects object count (i + 1) next with
        | error message => rfl
        | ok values => rfl

variable {decode : Nat → Int → Except String (α × Nat)} {checked : Nat → Int → Except ReadFault (α × Nat)}
  (h : ∀ place ioa, checked place ioa = (decode place ioa).mapError .thrown)

include h

theorem addressedObject_checked (ioaSize room i offset : Nat) : addressedObject bytes ioaSize room checked i offset =
    (Iec.addressedObject bytes ioaSize room decode i offset).mapError .thrown := by
  rw [addressedObject, Iec.addressedObject]
  split
  · rfl
  · rw [readLe_checked]
    cases Iec.readLe bytes offset ioaSize with
    | error message => rfl
    | ok ioa =>
      change (checked (offset + ioaSize) ioa).bind _ = ((decode (offset + ioaSize) ioa).bind _).mapError _
      rw [h]
      cases decode (offset + ioaSize) ioa with
      | error message => rfl
      | ok found => rfl

theorem sequentialObject_checked (baseIoa : Int) (room i offset : Nat) : sequentialObject bytes baseIoa room checked i offset =
    (Iec.sequentialObject bytes baseIoa room decode i offset).mapError .thrown := by
  rw [sequentialObject, Iec.sequentialObject]
  split
  · rfl
  · rw [h]
    cases decode offset (baseIoa + i) with
    | error message => rfl
    | ok found => rfl

omit h in
theorem decodeElements_checked {decode : Nat → Int → Except String α} {checked : Nat → Int → Except ReadFault α}
    (h : ∀ place ioa, checked place ioa = (decode place ioa).mapError .thrown) (config : IecProtocolConfig)
    (sequential : Bool) (count offset room : Nat) : decodeElements bytes config sequential count offset room checked =
      (Iec.decodeElements bytes config sequential count offset room decode).mapError .thrown := by
  have hSized : ∀ place ioa, (checked place ioa).map (fun value => (value, room)) =
      ((decode place ioa).map fun value => (value, room)).mapError .thrown := by
    intro place ioa
    rw [h]
    cases decode place ioa with
    | error message => rfl
    | ok value => rfl
  rw [decodeElements, Iec.decodeElements]
  cases sequential with
  | true =>
    rw [if_pos rfl, if_pos rfl, readLe_checked]
    cases Iec.readLe bytes offset config.ioaSize with
    | error message => rfl
    | ok baseIoa => exact decodeObjects_checked (sequentialObject_checked hSized baseIoa room) _ _ _
  | false => exact decodeObjects_checked (addressedObject_checked hSized config.ioaSize room) _ _ _

end Loops

theorem pure_checked {α β : Type} {x : Except String α} {checked : Except ReadFault α} {f : α → β}
    (h : checked = x.mapError .thrown) : (do return f (← checked)) = (do return f (← x) : Except String β).mapError .thrown := by
  rw [h]
  cases x with
  | error message => rfl
  | ok a => rfl

/-- The checked decoder throws where the other one does, and gives the same unit otherwise. -/
theorem decodeAsdu_checked {K : Type} [Field K] (platform : Platform K) (config : IecProtocolConfig) (bytes : List UInt8) :
    decodeAsdu platform config bytes = (Iec.decodeAsdu platform config bytes).mapError .thrown := by
  rw [decodeAsdu, Iec.decodeAsdu]
  split
  · rfl
  · rw [byteAt_ok (by omega), byteAt_ok (by omega), readLe_checked, readLe_checked]
    cases Iec.readLe bytes 2 config.cotSize with
    | error message => rfl
    | ok cot =>
      cases Iec.readLe bytes (2 + config.cotSize) config.caSize with
      | error message => rfl
      | ok commonAddress =>
        change (if isParameterType (Iec.byteAt bytes 0).toNat = true then _ else _) =
          Except.mapError ReadFault.thrown (if isParameterType (Iec.byteAt bytes 0).toNat = true then _ else _)
        generalize (Iec.byteAt bytes 0).toNat = typeId
        generalize (Iec.byteAt bytes 1).toNat = vsq
        by_cases hParameter : isParameterType typeId = true
        · rw [if_pos hParameter, if_pos hParameter]
          refine pure_checked (decodeObjects_checked (addressedObject_checked ?_ _ _) _ _ _)
          intro place ioa
          rw [decodeParameterObject_checked hParameter]
          cases Iec.decodeParameterObject platform bytes place typeId (cot % 64) commonAddress ioa with
          | error message => rfl
          | ok value => rfl
        · rw [if_neg hParameter, if_neg hParameter]
          by_cases hFile : isFileType typeId = true
          · rw [if_pos hFile, if_pos hFile]
            exact pure_checked (decodeObjects_checked (addressedObject_checked
              (fun place ioa => decodeFileObject_checked hFile) _ _) _ _ _)
          · rw [if_neg hFile, if_neg hFile]
            by_cases hNone : typePayloadSize typeId = 0 ∨ vsq % 128 = 0
            · rw [if_pos hNone, if_pos hNone]
              rfl
            · rw [if_neg hNone, if_neg hNone]
              by_cases hProtection : isProtectionType typeId = true
              · rw [if_pos hProtection, if_pos hProtection]
                exact pure_checked (decodeElements_checked (fun place ioa => decodeProtectionEvent_checked hProtection) _ _ _ _ _)
              · rw [if_neg hProtection, if_neg hProtection]
                exact pure_checked (decodeElements_checked (fun place ioa =>
                  decodeInformationObject_checked ((Bool.not_eq_true _).mp hProtection)) _ _ _ _ _)

end Machine

theorem decodeObjects_length {ε α : Type} {object : Nat → Nat → Except ε (Option (α × Nat))} {count i offset : Nat}
    {values : List α} (h : decodeObjects object count i offset = .ok values) : values.length ≤ count := by
  induction count generalizing i offset values with
  | zero =>
    cases h
    exact Nat.le_refl 0
  | succ count ih =>
    rw [decodeObjects] at h
    split at h
    · cases h
    · cases h
      exact Nat.zero_le _
    · obtain ⟨rest, hRest, rfl⟩ := map_ok_iff.mp h
      exact Nat.succ_le_succ (ih hRest)

theorem decodeElements_length {α : Type} {bytes : List UInt8} {config : IecProtocolConfig} {sequential : Bool}
    {count offset room : Nat} {decode : Nat → Int → Except String α} {values : List α}
    (h : decodeElements bytes config sequential count offset room decode = .ok values) : values.length ≤ count := by
  rw [decodeElements] at h
  split at h
  · obtain ⟨baseIoa, -, h⟩ := bind_ok_iff.mp h
    exact decodeObjects_length h
  · exact decodeObjects_length h

section Count

variable {K : Type} [Field K]

def IecAsdu.objectCount (asdu : IecAsdu K) : Nat :=
  asdu.values.length + asdu.parameters.length + asdu.protectionEvents.length + asdu.fileSegments.length

variable {platform : Platform K} {config : IecProtocolConfig}

theorem decodeAsdu_objectCount {bytes : List UInt8} {asdu : IecAsdu K} (h : decodeAsdu platform config bytes = .ok asdu) :
    asdu.objectCount ≤ (byteAt bytes 1).toNat % 128 := by
  rw [decodeAsdu] at h
  split at h
  · cases h
  · obtain ⟨cot, -, h⟩ := bind_ok_iff.mp h
    obtain ⟨commonAddress, -, h⟩ := bind_ok_iff.mp h
    split at h
    · obtain ⟨parameters, hObjects, hAsdu⟩ := bind_ok_iff.mp h
      cases hAsdu
      have hCount := decodeObjects_length hObjects
      simpa [IecAsdu.objectCount] using hCount
    · split at h
      · obtain ⟨segments, hObjects, hAsdu⟩ := bind_ok_iff.mp h
        cases hAsdu
        have hCount := decodeObjects_length hObjects
        simpa [IecAsdu.objectCount] using hCount
      · split at h
        · cases h
          exact Nat.zero_le _
        · split at h
          · obtain ⟨events, hObjects, hAsdu⟩ := bind_ok_iff.mp h
            cases hAsdu
            have hCount := decodeElements_length hObjects
            simpa [IecAsdu.objectCount] using hCount
          · obtain ⟨values, hObjects, hAsdu⟩ := bind_ok_iff.mp h
            cases hAsdu
            have hCount := decodeElements_length hObjects
            simpa [IecAsdu.objectCount] using hCount

/-- Both forms of the same objects decode to the same unit, and the decoder stays in the string and under the
    announced number. -/
theorem sequence_forms_agree (hCotSize : config.cotSize ≤ 2) (hCaSize : config.caSize ≤ 2) (hIoaSize : config.ioaSize ≤ 3) :
    (∀ (typeId : Nat) (cot ca : List UInt8) (base : Nat) (payloads : List (List UInt8)), typePayloadSize typeId ≠ 0 →
      cot.length = config.cotSize → ca.length = config.caSize → 1 ≤ payloads.length → payloads.length ≤ 127 →
      (∀ payload ∈ payloads, payload.length = typePayloadSize typeId) → base + payloads.length ≤ 256 ^ config.ioaSize →
      Machine.decodeAsdu platform config (sequentialAsdu config.ioaSize typeId cot ca base payloads) =
          .ok (objectsAsdu platform typeId cot ca (addressed base payloads)) ∧
        Machine.decodeAsdu platform config (individualAsdu config.ioaSize typeId cot ca (addressed base payloads)) =
          .ok (objectsAsdu platform typeId cot ca (addressed base payloads))) ∧
    ∀ bytes, (∃ message, Machine.decodeAsdu platform config bytes = .error (.thrown message)) ∨
      ∃ asdu, Machine.decodeAsdu platform config bytes = .ok asdu ∧ asdu.objectCount ≤ (byteAt bytes 1).toNat % 128 := by
  constructor
  · intro typeId cot ca base payloads hType hCot hCa hSome hCount hPayloads hBase
    have hPayloadsSome : payloads ≠ [] := List.ne_nil_of_length_pos hSome
    have hLength : (addressed base payloads).length = payloads.length := by
      rw [addressed, List.length_map, List.length_zipIdx]
    have hObjects : ∀ object ∈ addressed base payloads,
        object.1 < 256 ^ config.ioaSize ∧ object.2.length = typePayloadSize typeId := by
      intro object hObject
      obtain ⟨⟨payload, i⟩, hMem, rfl⟩ := List.mem_map.mp hObject
      have hIndex := List.snd_lt_of_mem_zipIdx hMem
      exact ⟨by omega, hPayloads payload (List.fst_mem_of_mem_zipIdx hMem)⟩
    rw [Machine.decodeAsdu_checked, Machine.decodeAsdu_checked,
      decodeAsdu_sequential hCot hCotSize hCa hCaSize hIoaSize hType hPayloadsSome hCount hPayloads (by omega),
      decodeAsdu_individual hCot hCotSize hCa hCaSize hIoaSize hType
        (List.ne_nil_of_length_pos (by omega)) (by omega) hObjects]
    exact ⟨rfl, rfl⟩
  · intro bytes
    rw [Machine.decodeAsdu_checked]
    cases hDecoded : decodeAsdu platform config bytes with
    | error message => exact .inl ⟨message, rfl⟩
    | ok asdu => exact .inr ⟨asdu, rfl, decodeAsdu_objectCount hDecoded⟩

end Count

def measurements : List (List UInt8) := [[0x10, 0x27, 0x00], [0xF0, 0xD8, 0x00]]

theorem measurements_agree :
    Machine.decodeAsdu (⟨fun _ => 0, fun _ => 0, fun _ => ⟨0, 0, 0, 0, 0, 0⟩⟩ : Platform ℚ) {}
        (sequentialAsdu 3 11 [0x03, 0x00] [0x01, 0x00] 4001 measurements) =
        .ok (objectsAsdu ⟨fun _ => 0, fun _ => 0, fun _ => ⟨0, 0, 0, 0, 0, 0⟩⟩ 11 [0x03, 0x00] [0x01, 0x00]
          (addressed 4001 measurements)) ∧
      Machine.decodeAsdu (⟨fun _ => 0, fun _ => 0, fun _ => ⟨0, 0, 0, 0, 0, 0⟩⟩ : Platform ℚ) {}
        (individualAsdu 3 11 [0x03, 0x00] [0x01, 0x00] (addressed 4001 measurements)) =
        .ok (objectsAsdu ⟨fun _ => 0, fun _ => 0, fun _ => ⟨0, 0, 0, 0, 0, 0⟩⟩ 11 [0x03, 0x00] [0x01, 0x00]
          (addressed 4001 measurements)) :=
  (sequence_forms_agree (by decide) (by decide) (by decide)).1 11 [0x03, 0x00] [0x01, 0x00] 4001 measurements
    (by decide) rfl rfl (by decide) (by decide) (by decide) (by decide)

end EdgeGateway.Iec
