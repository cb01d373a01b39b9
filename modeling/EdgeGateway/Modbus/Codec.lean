import EdgeGateway.Foundation.Rounding
import EdgeGateway.Models

/-! # The Modbus records and the register codec

A `double` is a number of an ordered field; its bits, its text and its rounding beyond `long long`
are the platform's. An access outside a vector is a fault of its own.
-/

namespace EdgeGateway.Modbus

structure ReadSpec (K : Type) where
  enable : Bool := false
  function : Int := 3
  length : Int := 1
  dataType : StdString := []
  scale : K
  offset : K
  byteOrder : StdString := "AB".toList
  bit : Int := -1
  gpio : Int := -1
  activeHigh : Bool := true
  intervalMs : Int := 500
  storeLatest : Bool := true
  ttlMs : Int := 600000

structure WriteSpec (K : Type) where
  enable : Bool := false
  address : Int := -1
  function : Int := 6
  dataType : StdString := []
  scale : K
  offset : K
  byteOrder : StdString := "AB".toList
  minValue : Option K := none
  maxValue : Option K := none
  step : K
  allowedValues : List K := []
  verifyAfterWrite : Bool := false
  verifyByRead : Bool := true

structure PointDefinition (K : Type) extends EdgeGateway.PointDefinition where
  address : Int := 0
  collectPriority : Int := 0
  read : ReadSpec K
  write : WriteSpec K
  valueMap : List (StdString × StdString) := []

structure ProtocolConfig where
  type : StdString := "modbus_rtu".toList
  slave : Int := 1

structure CollectConfig where
  defaultIntervalMs : Int := 500
  batchOptimize : Bool := true
  maxBatchRegisters : Int := 120
  offlineFailureThreshold : Int := 3
  recoverySuccessThreshold : Int := 1
  slaveFailureBackoffThreshold : Int := 3
  cycleBackoffEnabled : Bool := true
  slaveFailureBackoffCycles : Int := 1
  slaveFailureBackoffMs : Int := 30000
  taskFailureBackoffThreshold : Int := 1
  taskFailureBackoffCycles : Int := 1
  taskFailureBackoffMaxCycles : Int := 4
  taskFailureBackoffMs : Int := 180000
  taskFailureBackoffMaxMs : Int := 900000
  realtimeTaskFailureBackoffCycles : Int := 1
  realtimeTaskFailureBackoffMaxCycles : Int := 2
  realtimeTaskFailureBackoffMs : Int := 5000
  realtimeTaskFailureBackoffMaxMs : Int := 30000
  failureGoodValueGraceMs : Int := 0
  failureBadQualityThreshold : Int := 3
  adaptiveSplitOnFailure : Bool := true
  adaptiveSplitMaxRegisters : Int := 1
  adaptiveSplitMaxDepth : Int := 2
  adaptiveSplitLeafProbeBudget : Int := 3
  offlineProbeOnly : Bool := true
  offlineProbeTaskCount : Int := 2
  maxTasksPerMeterPerCycle : Int := 2
  realtimeMaxTasksPerMeterPerCycle : Int := 6
  backgroundTaskIntervalMs : Int := 5000
  maxBackgroundTasksPerMeterPerCycle : Int := 1
  realtimeMaxBackgroundTasksPerMeterPerCycle : Int := 4
  realtimeAdaptiveSplitLeafProbeBudget : Int := 12

structure DeviceConfig (K : Type) where
  machineCode : StdString
  meterCode : StdString
  protocol : ProtocolConfig := {}
  collect : CollectConfig := {}
  points : List (PointDefinition K)

def DeviceConfig.registered {K : Type} (config : DeviceConfig K) : EdgeGateway.DeviceConfig where
  machineCode := config.machineCode
  meterCode := config.meterCode
  points := config.points.map PointDefinition.toPointDefinition

structure ReadTaskPoint (K : Type) where
  definition : PointDefinition K
  offset : Int

structure ReadTask (K : Type) where
  function : Int
  start : Int
  count : Int
  points : List (ReadTaskPoint K)

inductive CodecFault where
  | invalidArgument (message : StdString)
  | outOfBounds
deriving DecidableEq, Repr

structure Platform (K : Type) where
  floatBits : K → BitVec 32
  floatValue : BitVec 32 → K
  llroundBeyond : K → BitVec 64
  formatDouble : K → StdString

structure DecodedValue (K : Type) where
  value : K
  text : StdString
  rawHex : StdString

structure WriteValidationResult where
  ok : Bool
  message : StdString
deriving DecidableEq

namespace ModbusCodec

def invalid {α : Type} (message : String) : Except CodecFault α := .error (.invalidArgument message.toList)

def readUint16BigEndian : List (BitVec 8) → Except CodecFault (BitVec 16)
  | [b₀, b₁] => .ok (b₀.setWidth 16 <<< 8 ||| b₁.setWidth 16)
  | _ => invalid "unexpected byte width"

def readUint32BigEndian : List (BitVec 8) → Except CodecFault (BitVec 32)
  | [b₀, b₁, b₂, b₃] =>
    .ok (b₀.setWidth 32 <<< 24 ||| b₁.setWidth 32 <<< 16 ||| b₂.setWidth 32 <<< 8 ||| b₃.setWidth 32)
  | _ => invalid "unexpected byte width"

def writeUint16BigEndian (value : BitVec 16) : List (BitVec 8) :=
  [(value >>> 8 &&& 0xFF).setWidth 8, (value &&& 0xFF).setWidth 8]

def writeUint32BigEndian (value : BitVec 32) : List (BitVec 8) :=
  [(value >>> 24 &&& 0xFF).setWidth 8, (value >>> 16 &&& 0xFF).setWidth 8, (value >>> 8 &&& 0xFF).setWidth 8,
    (value &&& 0xFF).setWidth 8]

def flattenRegisters (registers : List (BitVec 16)) : List (BitVec 8) :=
  registers.flatMap fun (reg : BitVec 16) => [(reg >>> 8 &&& 0xFF).setWidth 8, (reg &&& 0xFF).setWidth 8]

def placeOf (size : Nat) (token : Char) : Option Nat :=
  if token < 'A' ∨ size ≤ token.toNat - 'A'.toNat then none else some (token.toNat - 'A'.toNat)

def encodeLoop (canonicalBytes : List (BitVec 8)) : Nat → StdString → List (BitVec 8) →
    Except CodecFault (List (BitVec 8))
  | _, [], reordered => .ok reordered
  | i, token :: rest, reordered =>
    match placeOf canonicalBytes.length token with
    | none => invalid "invalid byteOrder token"
    | some place =>
      match canonicalBytes[i]? with
      | none => .error .outOfBounds
      | some byte =>
        if place < reordered.length then encodeLoop canonicalBytes (i + 1) rest (reordered.set place byte)
        else .error .outOfBounds

def applyByteOrderForEncode (canonicalBytes : List (BitVec 8)) (byteOrder : StdString) :
    Except CodecFault (List (BitVec 8)) :=
  if byteOrder = [] then .ok canonicalBytes
  else encodeLoop canonicalBytes 0 byteOrder (List.replicate byteOrder.length 0)

def byteAt (bytes : List (BitVec 8)) (token : Char) : Except CodecFault (BitVec 8) :=
  match placeOf bytes.length token with
  | none => invalid "invalid byteOrder token"
  | some place => .ok (bytes.getD place 0)

def reorderBytes (bytes : List (BitVec 8)) (byteOrder : StdString) : Except CodecFault (List (BitVec 8)) :=
  if byteOrder = [] then .ok bytes
  else if byteOrder.length ≠ bytes.length then invalid "byteOrder size does not match byte length"
  else byteOrder.mapM (byteAt bytes)

def hexDigit (n : Nat) : Char := if n < 10 then Char.ofNat (48 + n) else Char.ofNat (55 + n)

def bytesToHex (bytes : List (BitVec 8)) : StdString :=
  bytes.flatMap fun byte => [hexDigit (byte.toNat / 16), hexDigit (byte.toNat % 16)]

section Values

variable {K : Type} [Field K] [LinearOrder K] [FloorRing K]

def roundAway (x : K) : Int := if 0 ≤ x then ⌊x + 1 / 2⌋ else ⌈x - 1 / 2⌉

def llround (platform : Platform K) (x : K) : BitVec 64 :=
  if -2 ^ 63 ≤ roundAway x ∧ roundAway x < 2 ^ 63 then BitVec.ofInt 64 (roundAway x) else platform.llroundBeyond x

def applyReadScale (rawValue : K) (spec : ReadSpec K) : K := rawValue * spec.scale + spec.offset

def removeWriteScale (businessValue : K) (spec : WriteSpec K) : Except CodecFault K :=
  if |spec.scale| < 1 / 2 ^ 52 then invalid "write.scale must not be zero"
  else .ok ((businessValue - spec.offset) / spec.scale)

def validateWriteValue (businessValue : K) (point : PointDefinition K) : WriteValidationResult :=
  if point.write.enable = false then ⟨false, "point write is disabled".toList⟩
  else if point.write.minValue.any (businessValue < ·) then ⟨false, "value below min".toList⟩
  else if point.write.maxValue.any (· < businessValue) then ⟨false, "value above max".toList⟩
  else if 0 < point.write.step ∧ point.write.minValue.any (fun minValue =>
      let ratio := (businessValue - minValue) / point.write.step
      1 / 10 ^ 9 < |ratio - roundAway ratio|) then ⟨false, "value does not match step".toList⟩
  else if point.write.allowedValues ≠ [] ∧
      point.write.allowedValues.all (fun candidate => 1 / 10 ^ 9 < |candidate - businessValue|) then
    ⟨false, "value is not in allowedValues".toList⟩
  else ⟨true, "ok".toList⟩

def canonicalBytes (platform : Platform K) (dataType : StdString) (rawValue : K) :
    Except CodecFault (List (BitVec 8)) :=
  if dataType = "bit".toList ∨ dataType = "bool".toList then
    .ok (writeUint16BigEndian (if 0 < |rawValue| then 1 else 0))
  else if dataType = "uint16".toList then .ok (writeUint16BigEndian ((llround platform rawValue).setWidth 16))
  else if dataType = "int16".toList then .ok (writeUint16BigEndian ((llround platform rawValue).setWidth 16))
  else if dataType = "uint32".toList then .ok (writeUint32BigEndian ((llround platform rawValue).setWidth 32))
  else if dataType = "int32".toList then .ok (writeUint32BigEndian ((llround platform rawValue).setWidth 32))
  else if dataType = "float32".toList then .ok (writeUint32BigEndian (platform.floatBits rawValue))
  else .error (.invalidArgument ("unsupported write.dataType: ".toList ++ dataType))

def packRegisters : List (BitVec 8) → Except CodecFault (List (BitVec 16))
  | [] => .ok []
  | [_] => .error .outOfBounds
  | hi :: lo :: rest => (packRegisters rest).map fun registers => (hi.setWidth 16 <<< 8 ||| lo.setWidth 16) :: registers

def encodeWriteValue (platform : Platform K) (businessValue : K) (point : PointDefinition K) :
    Except CodecFault (List (BitVec 16)) := do
  if point.write.enable = false then invalid "point write is disabled"
  let validation := validateWriteValue businessValue point
  if validation.ok = false then .error (.invalidArgument validation.message)
  let rawValue ← removeWriteScale businessValue point.write
  let canonicalBytes ← canonicalBytes platform point.write.dataType rawValue
  let deviceBytes ← applyByteOrderForEncode canonicalBytes point.write.byteOrder
  packRegisters deviceBytes

def toSize (n : Int) : Nat := (BitVec.ofInt 64 n).toNat

theorem toSize_natCast {k : Nat} (hk : k < 2 ^ 64) : toSize (k : Int) = k := by
  rw [toSize, BitVec.ofInt_natCast, BitVec.toNat_ofNat, Nat.mod_eq_of_lt hk]

def orderedValue (platform : Platform K) (dataType : StdString) (orderedBytes : List (BitVec 8)) :
    Except CodecFault K :=
  if dataType = "uint16".toList then (readUint16BigEndian orderedBytes).map fun raw => (raw.toNat : K)
  else if dataType = "int16".toList then (readUint16BigEndian orderedBytes).map fun raw => (raw.toInt : K)
  else if dataType = "uint32".toList then (readUint32BigEndian orderedBytes).map fun raw => (raw.toNat : K)
  else if dataType = "int32".toList then (readUint32BigEndian orderedBytes).map fun raw => (raw.toInt : K)
  else if dataType = "float32".toList then (readUint32BigEndian orderedBytes).map platform.floatValue
  else .error (.invalidArgument ("unsupported read.dataType: ".toList ++ dataType))

def rawBytesOf (registers : List (BitVec 16)) (read : ReadSpec K) : List (BitVec 8) :=
  (flattenRegisters registers).take (toSize read.length * 2)

def decodeRawValue (platform : Platform K) (registers : List (BitVec 16)) (read : ReadSpec K) :
    Except CodecFault (K × List (BitVec 8)) := do
  if read.enable = false then invalid "point read is disabled"
  if registers.length < toSize read.length then invalid "not enough registers"
  if read.dataType = "bit".toList then
    if read.function = 1 ∨ read.function = 2 then
      let on := !(registers.isEmpty || registers.headD 0 == 0)
      .ok (if on then 1 else 0, [if on then 1 else 0])
    else
      let orderedBytes ← reorderBytes (rawBytesOf registers read) read.byteOrder
      if read.bit < 0 ∨ 15 < read.bit then
        invalid "bit dataType requires read.bit between 0 and 15 for register reads"
      let word ← readUint16BigEndian orderedBytes
      .ok (((word >>> read.bit.toNat &&& 0x1).toNat : K), rawBytesOf registers read)
  else
    let orderedBytes ← reorderBytes (rawBytesOf registers read) read.byteOrder
    let rawValue ← orderedValue platform read.dataType orderedBytes
    .ok (rawValue, rawBytesOf registers read)

def mappedText (platform : Platform K) (point : PointDefinition K) (rawValue : K) : StdString :=
  match point.valueMap.lookup (platform.formatDouble rawValue) with
  | some text => text
  | none =>
    (point.valueMap.lookup (toString (llround platform rawValue).toInt).toList).getD
      (platform.formatDouble (applyReadScale rawValue point.read))

def decodeReadValue (platform : Platform K) (registers : List (BitVec 16)) (point : PointDefinition K) :
    Except CodecFault (DecodedValue K) :=
  (decodeRawValue platform registers point.read).map fun (rawValue, rawBytes) =>
    { value := applyReadScale rawValue point.read
      text := mappedText platform point rawValue
      rawHex := bytesToHex rawBytes }

end Values

end ModbusCodec

end EdgeGateway.Modbus
