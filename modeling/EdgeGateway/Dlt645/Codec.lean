import EdgeGateway.Foundation.FixedDigits
import EdgeGateway.Foundation.Numerals
import EdgeGateway.Foundation.Rounding
import EdgeGateway.Models

/-! # The DL/T645 codec

Frames of DL/T645-2007 and the values in them. A `double` is a number of an
ordered field; every failure is an exception with its text.
-/

namespace EdgeGateway.Dlt645

open FixedDigits Rounding QuotedText

structure Platform (K : Type) where
  llroundBeyond : K → BitVec 64
  formatDouble : K → StdString

structure Dlt645WriteSpec where
  dataType : StdString := []
  byteCount : Int := 0
  unit : Int := 2
  fixedDataHex : StdString := []

structure WriteSpec (K : Type) where
  dataType : StdString
  scale : K
  offset : K
  dlt645 : Dlt645WriteSpec

structure ReadSpec (K : Type) where
  dataType : StdString
  scale : K
  offset : K
  bit : Int := -1
  dlt645Di : StdString
  dlt645ByteCount : Int := 0

def throwText {α : Type} (message : String) : Except StdString α := .error message.toList

def hexNibble (ch : Char) : Except StdString UInt8 :=
  if '0' ≤ ch ∧ ch ≤ '9' then .ok (UInt8.ofNat (ch.toNat - '0'.toNat))
  else if 'a' ≤ ch ∧ ch ≤ 'f' then .ok (UInt8.ofNat (10 + ch.toNat - 'a'.toNat))
  else if 'A' ≤ ch ∧ ch ≤ 'F' then .ok (UInt8.ofNat (10 + ch.toNat - 'A'.toNat))
  else throwText "invalid hex character"

def hexDigit (n : Nat) : Char := if n < 10 then Char.ofNat (48 + n) else Char.ofNat (55 + n)

def byteToHex (byte : UInt8) : StdString := [hexDigit (byte.toNat / 16), hexDigit (byte.toNat % 16)]

def bytesToHex (bytes : List UInt8) : StdString := bytes.flatMap byteToHex

def hexByte (high low : Char) : Except StdString UInt8 := do
  return (← hexNibble high) <<< 4 ||| (← hexNibble low)

def hexPairs : StdString → Except StdString (List UInt8)
  | high :: low :: text => do
    let byte ← hexByte high low
    return byte :: (← hexPairs text)
  | _ => .ok []

def checksum (bytes : List UInt8) : UInt8 :=
  (bytes.foldl (fun (sum : UInt32) byte => sum + byte.toUInt32) 0 &&& 0xFF).toUInt8

def parseHexBytes (text : StdString) (expectedBytes : Nat) (fieldName : String) : Except StdString (List UInt8) :=
  let hex := text.filter fun ch => !(isSpace ch || ch == '-' || ch == ':')
  if hex.length ≠ expectedBytes * 2 then
    .error (fieldName.toList ++ " must contain exactly ".toList ++ Numerals.decimal (expectedBytes * 2) ++
      " hex characters".toList)
  else hexPairs hex

def hexPairsBackward : StdString → Except StdString (List UInt8)
  | low :: high :: text => do
    let byte ← hexByte high low
    return byte :: (← hexPairsBackward text)
  | _ => .ok []

def encodeAddress (normalizedAddress : StdString) : Except StdString (List UInt8) :=
  hexPairsBackward normalizedAddress.reverse

def encodeBcdByte (value : Int) : Except StdString UInt8 :=
  if value < 0 ∨ 99 < value then throwText "DLT645 BCD byte must be between 0 and 99"
  else .ok (UInt8.ofNat ((value.toNat / 10) <<< 4 ||| value.toNat % 10))

namespace Dlt645Codec

def normalizeAddress (meterAddress : StdString) : Except StdString StdString :=
  let digits := meterAddress.filter Char.isDigit
  if digits = [] ∨ 12 < digits.length then throwText "DLT645 address must contain 1..12 digits"
  else .ok (List.replicate (12 - digits.length) '0' ++ digits)

def parseDataId (dataIdHex : StdString) : Except StdString (List UInt8) :=
  let hex := dataIdHex.filter fun ch => !isSpace ch
  if hex.length ≠ 8 then throwText "DLT645 data id must be 8 hex chars"
  else do return (← hexPairs hex).reverse

def sealFrame (frame : List UInt8) : List UInt8 := frame ++ [checksum frame, 0x16]

def buildReadFrame (meterAddress dataIdHex : StdString) : Except StdString (List UInt8) := do
  let normalizedAddress ← normalizeAddress meterAddress
  let dataId ← parseDataId dataIdHex
  let address ← encodeAddress normalizedAddress
  return sealFrame ([0x68] ++ address ++ [0x68, 0x11, 0x04] ++ dataId.map (· + 0x33))

def validateWriteResponse (frame : List UInt8) (meterAddress : StdString) : Except StdString Unit :=
  if frame.length < 12 ∨ frame.getD 0 0 ≠ 0x68 ∨ frame.getD 7 0 ≠ 0x68 ∨ frame.getD (frame.length - 1) 0 ≠ 0x16 then
    throwText "DLT645 write response frame marker invalid"
  else if frame.length ≠ (frame.getD 9 0).toNat + 12 then throwText "DLT645 write response length mismatch"
  else if checksum (frame.take (frame.length - 2)) ≠ frame.getD (frame.length - 2) 0 then
    throwText "DLT645 write response checksum mismatch"
  else do
    let expectedAddress ← encodeAddress (← normalizeAddress meterAddress)
    if expectedAddress ≠ (frame.drop 1).take expectedAddress.length then throwText "DLT645 write response address mismatch"
    else if frame.getD 8 0 = 0xD4 then
      if frame.getD 9 0 ≠ 1 then throwText "DLT645 write exception response length mismatch"
      else .error ("DLT645 write rejected ERR=0x".toList ++ byteToHex (frame.getD 10 0 - 0x33))
    else if frame.getD 8 0 ≠ 0x94 ∨ frame.getD 9 0 ≠ 0 then throwText "DLT645 write response control code invalid"
    else .ok ()

def decodeFrameData (frame expectedDataId : List UInt8) : Except StdString (List UInt8) :=
  if frame.length < 16 then
    if 13 ≤ frame.length ∧ frame.length = (frame.getD 9 0).toNat + 12 ∧ frame.getD 0 0 = 0x68 ∧ frame.getD 7 0 = 0x68 ∧
        frame.getD (frame.length - 1) 0 = 0x16 ∧ frame.getD 8 0 &&& 0x40 ≠ 0 then
      .error ("DLT645 exception response code=0x".toList ++ byteToHex (frame.getD 10 0 - 0x33))
    else throwText "DLT645 response too short"
  else if frame.getD 0 0 ≠ 0x68 ∨ frame.getD 7 0 ≠ 0x68 ∨ frame.getD (frame.length - 1) 0 ≠ 0x16 then
    throwText "DLT645 frame marker invalid"
  else if checksum (frame.take (frame.length - 2)) ≠ frame.getD (frame.length - 2) 0 then
    throwText "DLT645 checksum mismatch"
  else if frame.getD 8 0 &&& 0x80 = 0 then throwText "DLT645 response control code invalid"
  else if frame.length ≠ (frame.getD 9 0).toNat + 12 then throwText "DLT645 response length mismatch"
  else if frame.getD 9 0 < 4 then throwText "DLT645 response data too short"
  else
    let data := ((frame.drop 10).take (frame.getD 9 0).toNat).map (· - 0x33)
    if expectedDataId ≠ data.take expectedDataId.length then throwText "DLT645 response data id mismatch"
    else .ok (data.drop 4)

end Dlt645Codec

section Values

variable {K : Type} [Field K] [LinearOrder K] [FloorRing K]

/-- `std::stod` of a text of digits; what rounds to infinity is out of range. -/
def stod (digits : StdString) : Except StdString K :=
  if 2 ^ 1024 - 2 ^ 970 ≤ Nat.ofDigitChars 10 digits 0 then throwText "stod"
  else .ok (Nat.ofDigitChars 10 digits 0 : K)

def digitChar (nibble : UInt8) : Char := Char.ofNat ('0'.toNat + nibble.toNat)

def bcdDigits : List UInt8 → Except StdString StdString
  | [] => .ok []
  | byte :: bytes =>
    if (9 : UInt8) < byte >>> 4 ∨ 9 < byte &&& 0x0F then throwText "invalid DLT645 BCD digit"
    else do return digitChar (byte >>> 4) :: digitChar (byte &&& 0x0F) :: (← bcdDigits bytes)

/-- The high nibble of the highest byte is a sign where it is no digit. -/
def splitSign : List UInt8 → Bool × List UInt8
  | [] => (false, [])
  | top :: bytes =>
    if (0x0A : UInt8) ≤ top >>> 4 then (top >>> 4 = 0x0A ∨ top >>> 4 = 0x0B, (top &&& 0x0F) :: bytes) else (false, top :: bytes)

def decodeBcdLittleEndian (bytes : List UInt8) (scale : K) : Except StdString K := do
  let (negative, unsigned) := splitSign bytes.reverse
  let digits := (← bcdDigits unsigned).dropWhile (· = '0')
  let value := (← stod (if digits = [] then ['0'] else digits)) * scale
  return if negative then -value else value

def orBytes : Nat → List UInt8 → BitVec 64 → BitVec 64
  | _, [], value => value
  | i, byte :: bytes, value => orBytes (i + 1) bytes (value ||| byte.toBitVec.setWidth 64 <<< (i * 8))

def decodeUnsignedLittleEndian (bytes : List UInt8) : Except StdString K :=
  if 8 < bytes.length then throwText "DLT645 unsigned payload exceeds 64 bits"
  else .ok ((orBytes 0 bytes 0).toNat : K)

variable (platform : Platform K)

def scaledInteger (value : K) (spec : WriteSpec K) : Except StdString (BitVec 64) :=
  if |spec.scale| < 1 / 10 ^ 12 then throwText "DLT645 write scale cannot be zero"
  else
    let raw := (value - spec.offset) / spec.scale
    if raw < 0 ∨ 1 / 10 ^ 9 < |raw - roundAway raw| then
      throwText "DLT645 write value cannot be represented as an unsigned integer"
    else .ok (llround platform.llroundBeyond raw)

namespace Dlt645Codec

/-- The digits of a number in the given base, each written as one byte. -/
def peelBytes (base : Nat) (encodeDigit : Nat → Except StdString UInt8) (byteCount raw : Nat) :
    Except StdString (List UInt8) := do
  let payload ← (peel base byteCount raw).1.mapM encodeDigit
  if (peel base byteCount raw).2 ≠ 0 then throwText "DLT645 write value exceeds configured byteCount" else return payload

def numericPayload (dataType : StdString) (byteCount raw : Nat) : Except StdString (List UInt8) :=
  if dataType = "dlt645_uint_le".toList then peelBytes 256 (fun digit => .ok (UInt8.ofNat digit)) byteCount raw
  else if dataType = "dlt645_bcd".toList then peelBytes 100 (fun digit => encodeBcdByte digit) byteCount raw
  else .error ("unsupported DLT645 write dataType: ".toList ++ dataType)

def payloadType (spec : WriteSpec K) : StdString :=
  if spec.dlt645.dataType = [] then spec.dataType else spec.dlt645.dataType

def encodeWritePayload (value : K) (spec : WriteSpec K) : Except StdString (List UInt8) :=
  let dataType := payloadType spec
  if dataType = "dlt645_none".toList then .ok []
  else if dataType = "dlt645_scheduled_control".toList then
    if value < 0 ∨ 99 < value ∨ 1 / 10 ^ 9 < |value - roundAway value| then
      throwText "DLT645 scheduled control delay must be an integer from 0 to 99"
    else if spec.dlt645.unit ≠ 2 ∧ spec.dlt645.unit ≠ 3 then
      throwText "DLT645 scheduled control unit must be 2 (minutes) or 3 (hours)"
    else do return [← encodeBcdByte (roundAway value), ← encodeBcdByte spec.dlt645.unit]
  else if dataType = "dlt645_fixed_hex".toList then
    if spec.dlt645.byteCount < 0 then throwText "DLT645 fixed payload byteCount cannot be negative"
    else parseHexBytes spec.dlt645.fixedDataHex spec.dlt645.byteCount.toNat "DLT645 fixed payload"
  else if spec.dlt645.byteCount ≤ 0 ∨ 8 < spec.dlt645.byteCount then
    throwText "DLT645 numeric write byteCount must be between 1 and 8"
  else (scaledInteger platform value spec).bind fun raw =>
    numericPayload dataType spec.dlt645.byteCount.toNat raw.toNat

def decodeValueBytes (valueBytes : List UInt8) (point : ReadSpec K) : Except StdString (DecodedValue K) :=
  let rawHex := bytesToHex valueBytes
  if point.dataType = "dlt645_ascii".toList then
    .ok { value := 0, text := valueBytes.map fun byte => Char.ofNat byte.toNat, rawHex }
  else if point.dataType = "dlt645_datetime".toList then .ok { value := 0, text := bytesToHex valueBytes, rawHex }
  else if point.dataType = "dlt645_hex".toList then .ok { value := 0, text := rawHex, rawHex }
  else if point.dataType = "dlt645_uint_le".toList ∨ point.dataType = "dlt645_bitfield_le".toList then
    if 0 ≤ point.bit then
      if valueBytes.length ≤ point.bit.toNat / 8 then throwText "DLT645 bit index exceeds payload length"
      else
        let value : K := ((valueBytes.getD (point.bit.toNat / 8) 0).toNat >>> (point.bit.toNat % 8) &&& 0x01 : Nat)
        .ok { value, text := platform.formatDouble value, rawHex }
    else do
      let value := (← decodeUnsignedLittleEndian valueBytes) * point.scale + point.offset
      return { value, text := platform.formatDouble value, rawHex }
  else do
    let value := (← decodeBcdLittleEndian valueBytes point.scale) + point.offset
    return { value, text := platform.formatDouble value, rawHex }

def decodeReadResponse (frame : List UInt8) (point : ReadSpec K) : Except StdString (DecodedValue K) := do
  let expectedDataId ← parseDataId point.dlt645Di
  let payload ← decodeFrameData frame expectedDataId
  if 0 < point.dlt645ByteCount ∧ payload.length < point.dlt645ByteCount.toNat then
    throwText "DLT645 payload shorter than expected byteCount"
  else decodeValueBytes platform (if 0 < point.dlt645ByteCount then payload.take point.dlt645ByteCount.toNat else payload) point

end Dlt645Codec

end Values

end EdgeGateway.Dlt645
