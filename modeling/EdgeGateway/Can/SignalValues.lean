import EdgeGateway.Can.SignalCodec
import EdgeGateway.Foundation.Numerals
import EdgeGateway.Foundation.Rounding

/-! # Decoding and encoding values of signals

What an `int` operation makes of its result is a parameter, and a byte is read or written only where
the payload has one. A `double` is a number of an ordered field.
-/

namespace EdgeGateway.Can

open Rounding

inductive Fault where
  | thrown (message : StdString)
  /-- Signed overflow. -/
  | undefined
  | outside
deriving DecidableEq, Repr

def invalid {α : Type} (message : String) : Except Fault α := .error (.thrown message.toList)

/-- What an `int` operation makes of the number it should give. -/
abbrev IntArithmetic := Int → Except Fault Int

def modular : IntArithmetic := fun x => .ok (Int.bmod x (2 ^ 32))

/-- Results that an `int` cannot hold are undefined. -/
def strict : IntArithmetic := fun x => if -2 ^ 31 ≤ x ∧ x < 2 ^ 31 then .ok x else .error .undefined

def defaultBitLength (dataType : StdString) : Int :=
  let type := normalizeType dataType
  if type = "bool".toList ∨ type = "bit".toList then 1
  else if type = "uint8".toList ∨ type = "int8".toList ∨ type = "byte".toList then 8
  else if type = "uint16".toList ∨ type = "int16".toList then 16
  else if type = "uint32".toList ∨ type = "int32".toList ∨ type = "float32".toList ∨ type = "float".toList then 32
  else if type = "uint64".toList ∨ type = "int64".toList ∨ type = "double".toList then 64
  else 16

def signalBitLength (can : CanSignalSpec) (dataType : StdString) : Int :=
  if can.bitLength > 0 then can.bitLength else defaultBitLength dataType

namespace Machine

variable (int : IntArithmetic) (payload : List (BitVec 8)) (can : CanSignalSpec)

def validateSignalBounds (bitLength : Int) : Except Fault Unit :=
  if can.byteOffset < 0 ∨ can.bitOffset < 0 ∨ can.bitOffset > 7 ∨ bitLength ≤ 0 ∨ bitLength > 64 then
    invalid "invalid CAN signal bit range"
  else do
    let startBit ← int ((← int (can.byteOffset * 8)) + can.bitOffset)
    let endBit ← int (startBit + bitLength)
    if endBit > Int.bmod (payload.length * 8) (2 ^ 32) then invalid "CAN payload shorter than signal range" else .ok ()

def physicalBitIndex (signalBit : Int) : Except Fault Int := do
  let baseBit ← int ((← int (can.byteOffset * 8)) + can.bitOffset)
  let logicalBit ← int (baseBit + signalBit)
  if normalizeType can.bitOrder = "msb0".toList then int (logicalBit.tdiv 8 * 8 + (7 - logicalBit.tmod 8))
  else .ok logicalBit

def InPayload (index : Int) : Prop := 0 ≤ index ∧ index < payload.length

instance decidableInPayload (index : Int) : Decidable (InPayload payload index) :=
  inferInstanceAs (Decidable (_ ∧ _))

def readByte (index : Int) : Except Fault (BitVec 8) :=
  if InPayload payload index then .ok (payload.getD index.toNat 0) else .error .outside

/-- The count of a shift is taken modulo 32. -/
def bitOf (byte : BitVec 8) (bitIndex : Int) : BitVec 8 := byte >>> (bitIndex % 32).toNat &&& 0x01

def extractUnsignedBits (bitLength : Int) : Except Fault (BitVec 64) :=
  if byteAligned can bitLength then
    (List.range (bitLength.tdiv 8).toNat).foldlM (fun value (i : Nat) => do
      let byte ← readByte payload (← int (can.byteOffset + i))
      return if bigEndian can then value <<< 8 ||| byte.setWidth 64 else value ||| byte.setWidth 64 <<< (8 * i)) 0
  else
    (List.range bitLength.toNat).foldlM (fun value (i : Nat) => do
      let targetBit := if bigEndian can then bitLength.toNat - 1 - i else i
      let physical ← physicalBitIndex int can i
      let byte ← readByte payload (physical.tdiv 8)
      return if bitOf byte (physical.tmod 8) ≠ 0 then value ||| 1#64 <<< targetBit else value) 0

def writeUnsignedBits (bitLength : Int) (value : BitVec 64) : Except Fault (List (BitVec 8)) :=
  if byteAligned can bitLength then
    let byteCount := (bitLength.tdiv 8).toNat
    (List.range byteCount).foldlM (fun payload (i : Nat) => do
      let shift := if bigEndian can then 8 * (byteCount - 1 - i) else 8 * i
      let index ← int (can.byteOffset + i)
      let _ ← readByte payload index
      return payload.set index.toNat ((value >>> shift &&& 0xFF).setWidth 8)) payload
  else
    (List.range bitLength.toNat).foldlM (fun payload (i : Nat) => do
      let sourceBit := if bigEndian can then bitLength.toNat - 1 - i else i
      let physical ← physicalBitIndex int can i
      let byteIndex := physical.tdiv 8
      let byte ← readByte payload byteIndex
      let mask := 1#8 <<< (physical.tmod 8 % 32).toNat
      return payload.set byteIndex.toNat (if value >>> sourceBit &&& 0x01 ≠ 0 then byte ||| mask else byte &&& ~~~mask))
      payload

end Machine

structure Platform (K : Type) where
  floatBits : K → BitVec 32
  floatValue : BitVec 32 → K
  llroundBeyond : K → BitVec 64
  formatDouble : K → StdString

structure ReadSpec (K : Type) where
  dataType : StdString
  scale : K
  offset : K
  signedFlag : Bool
  can : CanSignalSpec

structure WriteSpec (K : Type) where
  dataType : StdString
  scale : K
  offset : K
  can : CanSignalSpec

structure CanEncodedFrame where
  frameId : Nat
  extended : Bool
  remoteRequest : Bool
  payload : List (BitVec 8)

def hexDigit (n : Nat) : Char := if n < 10 then Char.ofNat (48 + n) else Char.ofNat (55 + n)

def selectedRawHex (payload : List (BitVec 8)) (can : CanSignalSpec) (bitLength : Int) : StdString :=
  ((payload.drop can.byteOffset.toNat).take ((can.bitOffset + bitLength + 7).tdiv 8).toNat).flatMap
    fun byte => [hexDigit (byte.toNat / 16), hexDigit (byte.toNat % 16)]

def isBoolType (type : StdString) : Bool := type = "bool".toList ∨ type = "bit".toList

def isFloatType (type : StdString) : Bool := type = "float32".toList ∨ type = "float".toList

def isSignedType (type : StdString) : Bool :=
  type = "int8".toList ∨ type = "int16".toList ∨ type = "int32".toList ∨ type = "int64".toList

/-- `std::stoul` of a text that starts with `0x`, given without it. -/
def stoulHex (x : Char) (text : StdString) : Option (Nat × StdString) :=
  let digits := text.takeWhile Numerals.isHexDigit
  let n := digits.foldl (fun n c => 16 * n + Numerals.hexValue c) 0
  if digits = [] then some (0, x :: text)
  else if 2 ^ 64 ≤ n then none
  else some (n, text.dropWhile Numerals.isHexDigit)

def stoul (value : StdString) : Option (Nat × StdString) :=
  match value with
  | '0' :: x :: c :: text => if x = 'x' ∨ x = 'X' then stoulHex x (c :: text) else Numerals.stoull value
  | _ => Numerals.stoull value

namespace CanSignalCodec

def parseFrameId (value : StdString) : Except Fault Nat :=
  if value = [] then invalid "CAN frameId is required"
  else
    match stoul value with
    | none => invalid "stoul"
    | some (parsed, rest) =>
      if rest ≠ [] then .error (.thrown ("invalid CAN frameId: ".toList ++ value))
      else if 0x1FFFFFFF < parsed then .error (.thrown ("CAN frameId out of range: ".toList ++ value))
      else .ok parsed

section Values

variable {K : Type} [Field K] [LinearOrder K] [FloorRing K]

def applyScale (raw scale offset : K) : K := raw * scale + offset

def toRawInteger (platform : Platform K) (value scale offset : K) : Except Fault (BitVec 64) :=
  if |scale| < 1 / 10 ^ 12 then invalid "CAN write scale must not be zero"
  else .ok (llround platform.llroundBeyond ((value - offset) / scale))

def rawValue (platform : Platform K) (type : StdString) (signedFlag : Bool) (bitLength : Int) (raw : BitVec 64) :
    Except Fault K :=
  if isFloatType type then
    if bitLength ≠ 32 then invalid "float32 CAN signal requires 32 bits" else .ok (platform.floatValue (raw.setWidth 32))
  else if isSignedType type || signedFlag then .ok (signExtend raw bitLength : Int)
  else .ok (raw.toNat : K)

def decode (int : IntArithmetic) (platform : Platform K) (payload : List (BitVec 8)) (spec : ReadSpec K) :
    Except Fault (DecodedValue K) := do
  let bitLength := signalBitLength spec.can spec.dataType
  Machine.validateSignalBounds int payload spec.can bitLength
  let rawHex := selectedRawHex payload spec.can bitLength
  let type := normalizeType spec.dataType
  let raw ← Machine.extractUnsignedBits int payload spec.can bitLength
  if isBoolType type then
    let value : K := if raw = 0 then 0 else 1
    return { value, text := if value > 0 then "1".toList else "0".toList, rawHex }
  else
    let value := applyScale (← rawValue platform type spec.signedFlag bitLength raw) spec.scale spec.offset
    return { value, text := platform.formatDouble value, rawHex }

def rawBits (platform : Platform K) (type : StdString) (bitLength : Int) (value : K) (spec : WriteSpec K) :
    Except Fault (BitVec 64) :=
  if isFloatType type then
    if bitLength ≠ 32 then invalid "float32 CAN write requires 32 bits"
    else .ok ((platform.floatBits ((value - spec.offset) / spec.scale)).setWidth 64)
  else if isBoolType type then .ok (if value = 0 then 0 else 1)
  else toRawInteger platform value spec.scale spec.offset

def encode (int : IntArithmetic) (platform : Platform K) (value : K) (spec : WriteSpec K) :
    Except Fault CanEncodedFrame := do
  let frameId ← parseFrameId spec.can.frameId
  let dlc := if spec.can.dlc > 0 then spec.can.dlc else 8
  if dlc > 64 then invalid "CAN dlc must be <= 64"
  else
    let payload := List.replicate dlc.toNat 0
    let bitLength := signalBitLength spec.can spec.dataType
    Machine.validateSignalBounds int payload spec.can bitLength
    let raw ← rawBits platform (normalizeType spec.dataType) bitLength value spec
    let payload ← Machine.writeUnsignedBits int payload spec.can bitLength raw
    return { frameId, extended := spec.can.extended, remoteRequest := spec.can.remoteRequest, payload }

end Values

end CanSignalCodec

end EdgeGateway.Can
