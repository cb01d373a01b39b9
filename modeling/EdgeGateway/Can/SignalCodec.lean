import EdgeGateway.Foundation.BitField
import EdgeGateway.Models

/-! # The CAN signal codec

A signal is a run of bits in the payload of a frame. Signals that are whole bytes
take a path of their own, in which the order of the bytes and not of the bits
follows the endian.
-/

namespace EdgeGateway.Can

structure CanSignalSpec where
  frameId : StdString := []
  extended : Bool := false
  dlc : Int := 8
  byteOffset : Int := 0
  bitOffset : Int := 0
  bitLength : Int := 0
  bitOrder : StdString := "lsb0".toList
  endian : StdString := "little".toList
  remoteRequest : Bool := false
deriving DecidableEq, Repr

def normalizeType (value : StdString) : StdString := value.map Char.toLower

def validateSignalBounds (payload : List (BitVec 8)) (can : CanSignalSpec) (bitLength : Int) : Except String Unit :=
  if can.byteOffset < 0 ∨ can.bitOffset < 0 ∨ can.bitOffset > 7 ∨ bitLength ≤ 0 ∨ bitLength > 64 then
    .error "invalid CAN signal bit range"
  else
    let startBit := can.byteOffset * 8 + can.bitOffset
    let endBit := startBit + bitLength
    if endBit > payload.length * 8 then .error "CAN payload shorter than signal range" else .ok ()

def physicalBitIndex (can : CanSignalSpec) (signalBit : Int) : Int :=
  let bitOrder := normalizeType can.bitOrder
  let baseBit := can.byteOffset * 8 + can.bitOffset
  if bitOrder = "msb0".toList then
    let logicalBit := baseBit + signalBit
    let byteIndex := logicalBit.tdiv 8
    let bitInByte := logicalBit.tmod 8
    byteIndex * 8 + (7 - bitInByte)
  else
    baseBit + signalBit

def bigEndian (can : CanSignalSpec) : Bool :=
  let endian := normalizeType can.endian
  endian = "big".toList ∨ endian = "be".toList

def byteAligned (can : CanSignalSpec) (bitLength : Int) : Bool :=
  can.bitOffset = 0 ∧ bitLength.tmod 8 = 0 ∧ normalizeType can.bitOrder = "lsb0".toList

def extractUnsignedBits (payload : List (BitVec 8)) (can : CanSignalSpec) (bitLength : Int) : BitVec 64 :=
  if byteAligned can bitLength then
    (List.range (bitLength.tdiv 8).toNat).foldl (fun value (i : Nat) =>
      let byte := payload.getD (can.byteOffset + i).toNat 0
      if bigEndian can then value <<< 8 ||| byte.setWidth 64 else value ||| byte.setWidth 64 <<< (8 * i)) 0
  else
    (List.range bitLength.toNat).foldl (fun value i =>
      let targetBit := if bigEndian can then bitLength.toNat - 1 - i else i
      let physical := physicalBitIndex can i
      let byteIndex := (physical.tdiv 8).toNat
      let bitIndex := (physical.tmod 8).toNat
      if payload.getD byteIndex 0 >>> bitIndex &&& 0x01 ≠ 0 then value ||| 1#64 <<< targetBit else value) 0

def writeUnsignedBits (payload : List (BitVec 8)) (can : CanSignalSpec) (bitLength : Int) (value : BitVec 64) :
    List (BitVec 8) :=
  if byteAligned can bitLength then
    let byteCount := (bitLength.tdiv 8).toNat
    (List.range byteCount).foldl (fun payload (i : Nat) =>
      let shift := if bigEndian can then 8 * (byteCount - 1 - i) else 8 * i
      payload.set (can.byteOffset + i).toNat ((value >>> shift &&& 0xFF).setWidth 8)) payload
  else
    (List.range bitLength.toNat).foldl (fun payload i =>
      let sourceBit := if bigEndian can then bitLength.toNat - 1 - i else i
      let physical := physicalBitIndex can i
      let byteIndex := (physical.tdiv 8).toNat
      let bitIndex := (physical.tmod 8).toNat
      let mask := 1#8 <<< bitIndex
      if value >>> sourceBit &&& 0x01 ≠ 0 then payload.set byteIndex (payload.getD byteIndex 0 ||| mask)
      else payload.set byteIndex (payload.getD byteIndex 0 &&& ~~~mask)) payload

def extractBitByBit (payload : List (BitVec 8)) (can : CanSignalSpec) (bitLength : Int) : BitVec 64 :=
  (List.range bitLength.toNat).foldl (fun value i =>
    let targetBit := if bigEndian can then bitLength.toNat - 1 - i else i
    let physical := physicalBitIndex can i
    let byteIndex := (physical.tdiv 8).toNat
    let bitIndex := (physical.tmod 8).toNat
    if payload.getD byteIndex 0 >>> bitIndex &&& 0x01 ≠ 0 then value ||| 1#64 <<< targetBit else value) 0

def writeBitByBit (payload : List (BitVec 8)) (can : CanSignalSpec) (bitLength : Int) (value : BitVec 64) :
    List (BitVec 8) :=
  (List.range bitLength.toNat).foldl (fun payload i =>
    let sourceBit := if bigEndian can then bitLength.toNat - 1 - i else i
    let physical := physicalBitIndex can i
    let byteIndex := (physical.tdiv 8).toNat
    let bitIndex := (physical.tmod 8).toNat
    let mask := 1#8 <<< bitIndex
    if value >>> sourceBit &&& 0x01 ≠ 0 then payload.set byteIndex (payload.getD byteIndex 0 ||| mask)
    else payload.set byteIndex (payload.getD byteIndex 0 &&& ~~~mask)) payload

theorem extractUnsignedBits_of_unaligned {payload : List (BitVec 8)} {can : CanSignalSpec} {bitLength : Int}
    (hAligned : byteAligned can bitLength = false) :
    extractUnsignedBits payload can bitLength = extractBitByBit payload can bitLength := by
  rw [extractUnsignedBits, hAligned, if_neg Bool.false_ne_true]
  rfl

theorem writeUnsignedBits_of_unaligned {payload : List (BitVec 8)} {can : CanSignalSpec} {bitLength : Int}
    (hAligned : byteAligned can bitLength = false) (value : BitVec 64) :
    writeUnsignedBits payload can bitLength value = writeBitByBit payload can bitLength value := by
  rw [writeUnsignedBits, hAligned, if_neg Bool.false_ne_true]
  rfl

def signExtend (value : BitVec 64) (bitLength : Int) : Int :=
  if bitLength ≤ 0 ∨ bitLength ≥ 64 then value.toInt
  else
    let signBit := 1#64 <<< (bitLength.toNat - 1)
    if value &&& signBit = 0 then value.toInt
    else
      let mask := ~~~0#64 <<< bitLength.toNat
      (value ||| mask).toInt

end EdgeGateway.Can
