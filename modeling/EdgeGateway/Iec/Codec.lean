import EdgeGateway.Foundation.Rounding
import EdgeGateway.Foundation.Bytes
import EdgeGateway.Models

/-! # The IEC 60870-5-104 codec

The frames and application data units of the client. A `double` is a number of an ordered field; its
single precision bits and the local time are what the platform makes of them.
-/

namespace EdgeGateway.Iec

structure IecProtocolConfig where
  commonAddress : Int := 1
  originatorAddress : Int := 0
  cotSize : Nat := 2
  caSize : Nat := 2
  ioaSize : Nat := 3
  interrogationQualifier : Int := 20
  interrogationCot : Int := 6
  activationTerminationCot : Int := 10
  pollTimeoutMs : Int := 1000
  pollOnCollect : Bool := true
  kWindow : Int := 12
  wAck : Int := 8
  backgroundReceive : Bool := true
  sendSFrameAck : Bool := true

structure IecPointSpec where
  ioa : Int := -1
  typeId : Int := 0
  commonAddress : Int := 0
  selectBeforeExecute : Bool := false
  waitActivationTermination : Bool := false
  qualifier : Int := 0

structure WriteSpec (K : Type) where
  enable : Bool
  address : Int
  dataType : StdString
  scale : K
  offset : K
  minValue : Option K
  maxValue : Option K
  allowedValues : List K
  iec : IecPointSpec

structure ReadSpec where
  dataType : StdString
  iec : IecPointSpec

structure IecPoint (K : Type) where
  address : Int
  read : ReadSpec
  write : WriteSpec K

structure LocalTime where
  min : Int
  hour : Int
  wday : Int
  mday : Int
  mon : Int
  year : Int

structure Platform (K : Type) where
  floatBits : K → Nat
  ofFloatBits : Nat → K
  localTime : Int → LocalTime

def byte (value : Int) : UInt8 := UInt8.ofNat (value % 256).toNat

def appendLe (value : Int) (width : Nat) : List UInt8 := Bytes.littleEndian width (value % 2 ^ 32).toNat

def readLe (bytes : List UInt8) (offset width : Nat) : Except String Int :=
  if 4 < width ∨ bytes.length < offset + width then .error "iec field out of range"
  else .ok (Int.bmod (Bytes.ofLittleEndian ((bytes.drop offset).take width)) (2 ^ 32))

def byteAt (bytes : List UInt8) (offset : Nat) : UInt8 := bytes.getD offset 0

def wordAt (bytes : List UInt8) (offset : Nat) : Nat := Bytes.ofLittleEndian ((bytes.drop offset).take 2)

def readInt16Le (bytes : List UInt8) (offset : Nat) : Int := Int.bmod (wordAt bytes offset) (2 ^ 16)

def readUInt32Le (bytes : List UInt8) (offset : Nat) : Nat := Bytes.ofLittleEndian ((bytes.drop offset).take 4)

def readInt32Le (bytes : List UInt8) (offset : Nat) : Int := Int.bmod (readUInt32Le bytes offset) (2 ^ 32)

def appendCot (cause : Int) (config : IecProtocolConfig) : List UInt8 :=
  if config.cotSize ≤ 1 then appendLe (cause % 64) 1
  else appendLe (cause % 64 + config.originatorAddress % 256 * 256) config.cotSize

def asduHeader (config : IecProtocolConfig) (typeId cause commonAddress ioa : Int) : List UInt8 :=
  [byte typeId, 1] ++ appendCot cause config ++ appendLe commonAddress config.caSize ++ appendLe ioa config.ioaSize

def isIec104Frame (frame : List UInt8) : Bool :=
  decide (6 ≤ frame.length) && byteAt frame 0 == 0x68 && (byteAt frame 1).toNat == frame.length - 2

def isIec104IFrame (frame : List UInt8) : Bool := isIec104Frame frame && byteAt frame 2 &&& 0x01 == 0

def isIec104SFrame (frame : List UInt8) : Bool :=
  isIec104Frame frame && frame.length == 6 && byteAt frame 2 &&& 0x03 == 0x01

def iec104StartDtAct : List UInt8 := [0x68, 0x04, 0x07, 0x00, 0x00, 0x00]

def iec104StartDtCon : List UInt8 := [0x68, 0x04, 0x0B, 0x00, 0x00, 0x00]

def iec104StopDtCon : List UInt8 := [0x68, 0x04, 0x23, 0x00, 0x00, 0x00]

def iec104TestFrAct : List UInt8 := [0x68, 0x04, 0x43, 0x00, 0x00, 0x00]

def iec104TestFrCon : List UInt8 := [0x68, 0x04, 0x83, 0x00, 0x00, 0x00]

def buildIec104SFrame (receiveSequence : Nat) : List UInt8 :=
  [0x68, 0x04, 0x01, 0x00] ++ Bytes.littleEndian 2 (receiveSequence * 2)

def buildIec104IFrame (asdu : List UInt8) (sendSequence receiveSequence : Nat) : Except String (List UInt8) :=
  if 249 < asdu.length then .error "IEC104 ASDU too large"
  else
    .ok ([0x68, UInt8.ofNat (4 + asdu.length)] ++ Bytes.littleEndian 2 (sendSequence * 2) ++
      Bytes.littleEndian 2 (receiveSequence * 2) ++ asdu)

def iec104SendSequence (frame : List UInt8) : Nat :=
  if isIec104IFrame frame then wordAt frame 2 / 2 % 2 ^ 15 else 0

def iec104ReceiveSequence (frame : List UInt8) : Nat :=
  if isIec104IFrame frame || isIec104SFrame frame then wordAt frame 4 / 2 % 2 ^ 15 else 0

def iec104AsduPayload (frame : List UInt8) : List UInt8 :=
  if isIec104IFrame frame && decide (6 < frame.length) then frame.drop 6 else []

theorem buildIec104IFrame_spec {asdu frame : List UInt8} {sendSequence receiveSequence : Nat}
    (h : buildIec104IFrame asdu sendSequence receiveSequence = .ok frame) :
    isIec104IFrame frame = true ∧ iec104SendSequence frame = sendSequence % 2 ^ 15 := by
  rw [buildIec104IFrame] at h
  split at h
  · cases h
  · rename_i hShort
    cases h
    have hIFrame : isIec104IFrame ([0x68, UInt8.ofNat (4 + asdu.length)] ++ Bytes.littleEndian 2 (sendSequence * 2) ++
        Bytes.littleEndian 2 (receiveSequence * 2) ++ asdu) = true := by
      have hEven : UInt8.ofNat (sendSequence * 2 % 256) &&& 1 = 0 := by
        apply UInt8.toNat_inj.mp
        rw [UInt8.toNat_and, UInt8.toNat_ofNat']
        change _ &&& 1 = 0
        rw [Nat.and_one_is_mod]
        omega
      simp [isIec104IFrame, isIec104Frame, byteAt, Bytes.littleEndian, hEven]
      omega
    refine ⟨hIFrame, ?_⟩
    rw [iec104SendSequence, if_pos hIFrame, wordAt]
    have hWord : ([0x68, UInt8.ofNat (4 + asdu.length)] ++ Bytes.littleEndian 2 (sendSequence * 2) ++
        Bytes.littleEndian 2 (receiveSequence * 2) ++ asdu).drop 2 =
        Bytes.littleEndian 2 (sendSequence * 2) ++ (Bytes.littleEndian 2 (receiveSequence * 2) ++ asdu) := by
      simp
    rw [hWord, List.take_left' (Bytes.length_littleEndian _ _), Bytes.ofLittleEndian_littleEndian]
    omega

theorem buildIec104IFrame_contents {asdu frame : List UInt8} {sendSequence receiveSequence : Nat}
    (h : buildIec104IFrame asdu sendSequence receiveSequence = .ok frame) :
    iec104ReceiveSequence frame = receiveSequence % 2 ^ 15 ∧ iec104AsduPayload frame = asdu := by
  obtain ⟨hIFrame, -⟩ := buildIec104IFrame_spec h
  rw [buildIec104IFrame] at h
  split at h
  · cases h
  · cases h
    have hHead : ([0x68, UInt8.ofNat (4 + asdu.length)] ++ Bytes.littleEndian 2 (sendSequence * 2)).length = 4 := by
      simp
    have hSplit : [0x68, UInt8.ofNat (4 + asdu.length)] ++ Bytes.littleEndian 2 (sendSequence * 2) ++
        Bytes.littleEndian 2 (receiveSequence * 2) ++ asdu =
        ([0x68, UInt8.ofNat (4 + asdu.length)] ++ Bytes.littleEndian 2 (sendSequence * 2)) ++
          (Bytes.littleEndian 2 (receiveSequence * 2) ++ asdu) := List.append_assoc _ _ _
    constructor
    · rw [iec104ReceiveSequence, hIFrame, Bool.true_or, if_pos rfl, wordAt, hSplit, List.drop_left' hHead,
        List.take_left' (Bytes.length_littleEndian _ _), Bytes.ofLittleEndian_littleEndian]
      omega
    · have hFull : ([0x68, UInt8.ofNat (4 + asdu.length)] ++ Bytes.littleEndian 2 (sendSequence * 2) ++
          Bytes.littleEndian 2 (receiveSequence * 2)).length = 6 := by simp
      rw [iec104AsduPayload, hIFrame, Bool.true_and]
      split
      · exact List.drop_left' hFull
      · next hShort =>
        rw [decide_eq_true_iff, List.length_append, hFull] at hShort
        exact (List.length_eq_zero_iff.mp (by omega)).symm

theorem not_iFrame_sFrame (receiveSequence : Nat) : isIec104IFrame (buildIec104SFrame receiveSequence) = false := by
  simp [isIec104IFrame, buildIec104SFrame, byteAt]

section Commands

variable {K : Type} [Field K] [LinearOrder K] [FloorRing K]

def roundAway (x : K) : Int := if 0 ≤ x then ⌊x + 1 / 2⌋ else ⌈x - 1 / 2⌉

def clampInt16 (raw : Int) : Int := max (-32768) (min 32767 raw)

def commandIoaOf (point : IecPoint K) : Int :=
  if 0 ≤ point.write.iec.ioa then point.write.iec.ioa
  else if 0 ≤ point.read.iec.ioa then point.read.iec.ioa
  else if 0 ≤ point.write.address then point.write.address
  else point.address

def commandCommonAddressOf (config : IecProtocolConfig) (point : IecPoint K) : Int :=
  if 0 < point.write.iec.commonAddress then point.write.iec.commonAddress
  else if 0 < point.read.iec.commonAddress then point.read.iec.commonAddress
  else config.commonAddress

def typeOfDataType (dataType : StdString) : Int :=
  if dataType ∈ ["single_command".toList, "single_point".toList, "bool".toList, "bit".toList] then 45
  else if dataType ∈ ["double_command".toList, "double_point".toList] then 46
  else if dataType = "setpoint_normalized".toList then 48
  else if dataType ∈ ["setpoint_float".toList, "float".toList, "float32".toList] then 50
  else 49

def commandTypeOf (point : IecPoint K) : Int :=
  if 0 < point.write.iec.typeId then point.write.iec.typeId
  else
    typeOfDataType
      ((if point.write.dataType = [] then point.read.dataType else point.write.dataType).map Char.toLower)

def buildQualifier (point : IecPoint K) (select : Bool) (lowBits : UInt8) : UInt8 :=
  let qualifier := byte point.write.iec.qualifier &&& 0x7C ||| lowBits
  if select then qualifier ||| 0x80 else qualifier

def commandElement (platform : Platform K) (point : IecPoint K) (requestedValue : K) (select : Bool) :
    Except String (List UInt8) :=
  let scale := if 1 / 10 ^ 12 < |point.write.scale| then point.write.scale else 1
  let rawValue := (requestedValue - point.write.offset) / scale
  let typeId := commandTypeOf point
  if typeId = 45 then .ok [buildQualifier point select (if 1 / 10 ^ 9 < |requestedValue| then 1 else 0)]
  else if typeId = 46 then
    let state := roundAway requestedValue
    if state < 0 ∨ 3 < state then .error "IEC double command value must be 0..3"
    else .ok [buildQualifier point select (byte state)]
  else if typeId = 48 then .ok (appendLe (clampInt16 (roundAway (rawValue * 32768))) 2 ++ [buildQualifier point select 0])
  else if typeId = 49 then .ok (appendLe (clampInt16 (roundAway rawValue)) 2 ++ [buildQualifier point select 0])
  else if typeId = 50 then .ok (appendLe (platform.floatBits rawValue) 4 ++ [buildQualifier point select 0])
  else .error ("unsupported IEC104 write typeId: " ++ toString typeId)

def controlAsdu (platform : Platform K) (config : IecProtocolConfig) (point : IecPoint K) (requestedValue : K)
    (select cancel : Bool) : Except String (List UInt8) :=
  if point.write.enable = false then .error "IEC point write is disabled"
  else if commandIoaOf point < 0 then .error "IEC write point missing IOA"
  else
    (commandElement platform point requestedValue select).map fun element =>
      asduHeader config (commandTypeOf point) (if cancel then 8 else 6) (commandCommonAddressOf config point)
        (commandIoaOf point) ++ element

def appendCp56Time2a (platform : Platform K) (unixTimeMs : Int) : List UInt8 :=
  let tm := platform.localTime unixTimeMs
  appendLe (unixTimeMs % 60000) 2 ++
    [byte (tm.min % 64), byte (tm.hour % 32), byte ((if tm.wday = 0 then 7 else tm.wday) * 32 + tm.mday % 32),
      byte ((tm.mon + 1) % 16), byte (tm.year.tmod 100 % 128)]

def parameterElement (platform : Platform K) (typeId : Int) (value : K) (qualifier : UInt8) : List UInt8 :=
  if typeId = 110 then appendLe (clampInt16 (roundAway (value * 32768))) 2 ++ [qualifier]
  else if typeId = 111 then appendLe (clampInt16 (roundAway value)) 2 ++ [qualifier]
  else appendLe (platform.floatBits value) 4 ++ [qualifier]

/-- What the client sends in an I-frame; each is one of the builders of the codec. -/
inductive Command (K : Type) where
  | interrogation
  | clockSync (unixTimeMs : Int)
  | control (point : IecPoint K) (requestedValue : K) (select : Bool)
  | parameter (ioa typeId : Int) (value : K) (qualifier : UInt8) (cause : Int)
  | parameterActivation (ioa : Int) (qualifier : UInt8)
  | fileCall (ioa nameOfFile nameOfSection : Int) (qualifier : UInt8)

def Command.asdu (platform : Platform K) (config : IecProtocolConfig) : Command K → Except String (List UInt8)
  | interrogation =>
    .ok (asduHeader config 100 config.interrogationCot config.commonAddress 0 ++ [byte config.interrogationQualifier])
  | clockSync unixTimeMs =>
    .ok (asduHeader config 103 6 config.commonAddress 0 ++ appendCp56Time2a platform unixTimeMs)
  | control point requestedValue select => controlAsdu platform config point requestedValue select false
  | parameter ioa typeId value qualifier cause =>
    if typeId < 110 ∨ 112 < typeId then .error "IEC104 parameter typeId must be 110, 111 or 112"
    else
      .ok (asduHeader config typeId cause config.commonAddress ioa ++
        parameterElement platform typeId value qualifier)
  | parameterActivation ioa qualifier => .ok (asduHeader config 113 6 config.commonAddress ioa ++ [qualifier])
  | fileCall ioa nameOfFile nameOfSection qualifier =>
    .ok (asduHeader config 122 13 config.commonAddress ioa ++ appendLe nameOfFile 2 ++
      [byte nameOfSection, qualifier])

def Command.build (platform : Platform K) (config : IecProtocolConfig) (command : Command K)
    (sendSequence receiveSequence : Nat) : Except String (List UInt8) :=
  (command.asdu platform config).bind fun asdu => buildIec104IFrame asdu sendSequence receiveSequence

end Commands

end EdgeGateway.Iec
