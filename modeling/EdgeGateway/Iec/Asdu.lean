import EdgeGateway.Iec.Codec

/-! # Decoding application data units -/

namespace EdgeGateway.Iec

structure IecDataValue (K : Type) where
  commonAddress : Int
  ioa : Int
  typeId : Int
  cause : Int
  value : K

structure IecParameterValue (K : Type) where
  commonAddress : Int
  ioa : Int
  typeId : Int
  cause : Int
  qualifier : Int
  value : K

structure IecProtectionEvent where
  commonAddress : Int
  ioa : Int
  typeId : Int
  cause : Int
  eventState : Int
  elapsedTimeMs : Int
  relayDurationMs : Int

structure IecFileSegment where
  commonAddress : Int
  ioa : Int
  cause : Int
  nameOfFile : Int
  nameOfSection : Int
  qualifier : Int
  lastSectionOrSegment : Int
  data : List UInt8

structure IecAsdu (K : Type) where
  typeId : Int
  cause : Int
  commonAddress : Int
  values : List (IecDataValue K) := []
  parameters : List (IecParameterValue K) := []
  protectionEvents : List IecProtectionEvent := []
  fileSegments : List IecFileSegment := []

def typePayloadSize : Nat → Nat
  | 1 | 3 | 20 | 45 | 46 => 1
  | 21 => 2
  | 5 | 9 | 11 | 48 | 49 => 3
  | 2 | 4 => 4
  | 7 | 13 | 15 | 50 => 5
  | 6 | 10 | 12 | 17 => 6
  | 18 | 19 => 7
  | 8 | 14 | 16 | 30 | 31 => 8
  | 32 | 34 | 35 | 38 => 10
  | 39 | 40 => 11
  | 33 | 36 | 37 => 12
  | _ => 0

def isParameterType (typeId : Nat) : Bool := decide (110 ≤ typeId ∧ typeId ≤ 113)

def isFileType (typeId : Nat) : Bool := decide (120 ≤ typeId ∧ typeId ≤ 126)

def isProtectionType (typeId : Nat) : Bool := decide (17 ≤ typeId ∧ typeId ≤ 19 ∨ 38 ≤ typeId ∧ typeId ≤ 40)

section Decode

variable {K : Type} [Field K] (platform : Platform K)

def elementValue (bytes : List UInt8) (offset typeId : Nat) : Except String K :=
  match typeId with
  | 1 | 2 | 30 | 45 => .ok ((byteAt bytes offset &&& 0x01).toNat : K)
  | 3 | 4 | 31 | 46 => .ok ((byteAt bytes offset &&& 0x03).toNat : K)
  | 5 | 6 | 32 | 11 | 12 | 35 | 49 => .ok (readInt16Le bytes offset : K)
  | 7 | 8 | 33 | 15 | 16 | 37 => .ok (readInt32Le bytes offset : K)
  | 9 | 10 | 34 | 21 | 48 => .ok ((readInt16Le bytes offset : K) / 32768)
  | 13 | 14 | 36 | 50 => .ok (platform.ofFloatBits (readUInt32Le bytes offset))
  | 20 => .ok ((byteAt bytes offset).toNat : K)
  | _ => .error ("unsupported IEC ASDU typeId: " ++ toString typeId)

def decodeInformationObject (bytes : List UInt8) (payloadOffset typeId : Nat) (cause commonAddress ioa : Int) :
    Except String (IecDataValue K) :=
  if typePayloadSize typeId = 0 ∨ bytes.length < payloadOffset + typePayloadSize typeId then
    .error ("unsupported IEC ASDU typeId: " ++ toString typeId)
  else
    (elementValue platform bytes payloadOffset typeId).map fun value => ⟨commonAddress, ioa, typeId, cause, value⟩

def decodeProtectionEvent (bytes : List UInt8) (payloadOffset typeId : Nat) (cause commonAddress ioa : Int) :
    Except String IecProtectionEvent :=
  if bytes.length < payloadOffset + typePayloadSize typeId then .error "IEC protection ASDU too short"
  else do
    let elapsedTimeMs ← readLe bytes (payloadOffset + 1) 2
    let relayDurationMs ← readLe bytes (payloadOffset + 3) 2
    return ⟨commonAddress, ioa, typeId, cause, (byteAt bytes payloadOffset &&& 0x03).toNat, elapsedTimeMs, relayDurationMs⟩

def parameterSize (typeId : Nat) : Nat := if typeId = 112 then 5 else if typeId = 113 then 1 else 3

def decodeParameterObject (bytes : List UInt8) (offset typeId : Nat) (cause commonAddress ioa : Int) :
    Except String (IecParameterValue K) :=
  match typeId with
  | 110 =>
    if bytes.length < offset + 3 then .error "IEC normalized parameter too short"
    else .ok ⟨commonAddress, ioa, typeId, cause, (byteAt bytes (offset + 2)).toNat, (readInt16Le bytes offset : K) / 32768⟩
  | 111 =>
    if bytes.length < offset + 3 then .error "IEC scaled parameter too short"
    else .ok ⟨commonAddress, ioa, typeId, cause, (byteAt bytes (offset + 2)).toNat, (readInt16Le bytes offset : K)⟩
  | 112 =>
    if bytes.length < offset + 5 then .error "IEC float parameter too short"
    else
      .ok ⟨commonAddress, ioa, typeId, cause, (byteAt bytes (offset + 4)).toNat,
        platform.ofFloatBits (readUInt32Le bytes offset)⟩
  | 113 =>
    if bytes.length < offset + 1 then .error "IEC parameter activation too short"
    else .ok ⟨commonAddress, ioa, typeId, cause, (byteAt bytes offset).toNat, 0⟩
  | _ => .error ("unsupported IEC parameter typeId: " ++ toString typeId)

def decodeFileObject (bytes : List UInt8) (offset typeId : Nat) (cause commonAddress ioa : Int) :
    Except String (IecFileSegment × Nat) :=
  let name : Int := wordAt bytes offset
  let byteOf (i : Nat) : Int := (byteAt bytes (offset + i)).toNat
  match typeId with
  | 120 =>
    if bytes.length < offset + 5 then .error "IEC file ready ASDU too short"
    else .ok (⟨commonAddress, ioa, cause, name, 0, byteOf 4, 0, []⟩, 5)
  | 121 =>
    if bytes.length < offset + 6 then .error "IEC section ready ASDU too short"
    else .ok (⟨commonAddress, ioa, cause, name, byteOf 2, byteOf 5, 0, []⟩, 6)
  | 122 | 124 =>
    if bytes.length < offset + 4 then .error "IEC file command ASDU too short"
    else .ok (⟨commonAddress, ioa, cause, name, byteOf 2, byteOf 3, 0, []⟩, 4)
  | 123 =>
    if bytes.length < offset + 4 then .error "IEC last section ASDU too short"
    else .ok (⟨commonAddress, ioa, cause, name, byteOf 2, 0, byteOf 3, []⟩, 4)
  | 125 =>
    if bytes.length < offset + 5 then .error "IEC file segment ASDU too short"
    else
      let length := (byteAt bytes (offset + 4)).toNat
      if bytes.length < offset + 5 + length then .error "IEC file segment data out of range"
      else
        .ok (⟨commonAddress, ioa, cause, name, byteOf 2, byteOf 3, 0, (bytes.drop (offset + 5)).take length⟩,
          5 + length)
  | 126 =>
    if bytes.length < offset + 4 then .error "IEC file directory ASDU too short"
    else .ok (⟨commonAddress, ioa, cause, name, 0, byteOf 2, 0, []⟩, 4)
  | _ => .error ("unsupported IEC file typeId: " ++ toString typeId)

/-- `object i offset` decodes the `i`-th object and says where the next one starts, or `none` where the loop
    breaks off. -/
def decodeObjects {ε α : Type} (object : Nat → Nat → Except ε (Option (α × Nat))) :
    Nat → Nat → Nat → Except ε (List α)
  | 0, _, _ => .ok []
  | count + 1, i, offset =>
    match object i offset with
    | .error fault => .error fault
    | .ok none => .ok []
    | .ok (some (value, next)) => (decodeObjects object count (i + 1) next).map (value :: ·)

def addressedObject {α : Type} (bytes : List UInt8) (ioaSize room : Nat)
    (decode : Nat → Int → Except String (α × Nat)) (_ offset : Nat) : Except String (Option (α × Nat)) :=
  if bytes.length < offset + ioaSize + room then .ok none
  else do
    let ioa ← readLe bytes offset ioaSize
    let (value, size) ← decode (offset + ioaSize) ioa
    return some (value, offset + ioaSize + size)

def sequentialObject {α : Type} (bytes : List UInt8) (baseIoa : Int) (room : Nat)
    (decode : Nat → Int → Except String (α × Nat)) (i offset : Nat) : Except String (Option (α × Nat)) :=
  if bytes.length < offset + room then .ok none
  else do
    let (value, size) ← decode offset (baseIoa + i)
    return some (value, offset + size)

def decodeElements {α : Type} (bytes : List UInt8) (config : IecProtocolConfig) (sequential : Bool)
    (count offset room : Nat) (decode : Nat → Int → Except String α) : Except String (List α) :=
  let sized (place : Nat) (ioa : Int) := (decode place ioa).map fun value => (value, room)
  if sequential then do
    let baseIoa ← readLe bytes offset config.ioaSize
    decodeObjects (sequentialObject bytes baseIoa room sized) count 0 (offset + config.ioaSize)
  else decodeObjects (addressedObject bytes config.ioaSize room sized) count 0 offset

def decodeAsdu (config : IecProtocolConfig) (bytes : List UInt8) : Except String (IecAsdu K) :=
  if bytes.length < 2 + config.cotSize + config.caSize then .error "IEC ASDU too short"
  else do
    let typeId := (byteAt bytes 0).toNat
    let vsq := (byteAt bytes 1).toNat
    let count := vsq % 128
    let cause := (← readLe bytes 2 config.cotSize) % 64
    let commonAddress ← readLe bytes (2 + config.cotSize) config.caSize
    let offset := 2 + config.cotSize + config.caSize
    let asdu : IecAsdu K := { typeId, cause, commonAddress }
    if isParameterType typeId then
      let decode (place : Nat) (ioa : Int) :=
        (decodeParameterObject platform bytes place typeId cause commonAddress ioa).map
          fun value => (value, parameterSize typeId)
      let parameters ← decodeObjects (addressedObject bytes config.ioaSize 0 decode) count 0 offset
      return { asdu with parameters }
    else if isFileType typeId then
      let decode (place : Nat) (ioa : Int) := decodeFileObject bytes place typeId cause commonAddress ioa
      let fileSegments ← decodeObjects (addressedObject bytes config.ioaSize 0 decode) count 0 offset
      return { asdu with fileSegments }
    else if typePayloadSize typeId = 0 ∨ count = 0 then return asdu
    else if isProtectionType typeId then
      let decode (place : Nat) (ioa : Int) := decodeProtectionEvent bytes place typeId cause commonAddress ioa
      let protectionEvents ← decodeElements bytes config (128 ≤ vsq) count offset (typePayloadSize typeId) decode
      return { asdu with protectionEvents }
    else
      let decode (place : Nat) (ioa : Int) := decodeInformationObject platform bytes place typeId cause commonAddress ioa
      let values ← decodeElements bytes config (128 ≤ vsq) count offset (typePayloadSize typeId) decode
      return { asdu with values }

end Decode

end EdgeGateway.Iec
