import EdgeGateway.Iec.Codec

/-! # The IEC 60870-5-103 codec -/

namespace EdgeGateway.Iec

/-- The loader bounds the size of the link address. -/
structure Iec103Config where
  commonAddress : Int := 1
  linkAddress : Int := 1
  linkAddressSize : Nat := 1
  interrogationCot : Int := 6
  maxPollFrames : Nat := 64
  returnInformationIdentifier : Int := 0xE9
  deviceFunctionType : Int := 0
  recordingMaxFileBytes : Nat := 64 * 1024 * 1024
  linkAddressSize_le : linkAddressSize ≤ 2 := by decide

/-- `toText` is `std::to_string` of a `double`, `mktime` the C function on local time. -/
structure Iec103Platform (K : Type) extends Platform K where
  toText : K → StdString
  mktime : (sec min hour mday mon year : Int) → Int

def ft12Checksum (bytes : List UInt8) : UInt8 := UInt8.ofNat ((bytes.map UInt8.toNat).sum % 256)

def appendFt12VariableFrame (userData : List UInt8) : Except String (List UInt8) :=
  if 255 < userData.length then .error "iec ft1.2 frame too large"
  else
    let length := UInt8.ofNat userData.length
    .ok ([0x68, length, length, 0x68] ++ userData ++ [ft12Checksum userData, 0x16])

def buildFt12FixedFrame (control : UInt8) (config : Iec103Config) : List UInt8 :=
  let body := control :: appendLe config.linkAddress config.linkAddressSize
  0x10 :: body ++ [ft12Checksum body, 0x16]

def isFt12FixedFrame (frame : List UInt8) (linkAddressSize : Nat) : Bool :=
  frame.length == 4 + linkAddressSize && byteAt frame 0 == 0x10 && frame.getLast? == some 0x16 &&
    byteAt frame (frame.length - 2) == ft12Checksum ((frame.drop 1).take (frame.length - 3))

def isFt12VariableFrame (frame : List UInt8) : Bool :=
  decide (6 ≤ frame.length) && byteAt frame 0 == 0x68 && frame.getLast? == some 0x16 &&
    byteAt frame 1 == byteAt frame 2 && byteAt frame 3 == 0x68 && frame.length == (byteAt frame 1).toNat + 6 &&
    byteAt frame (frame.length - 2) == ft12Checksum ((frame.drop 4).take (frame.length - 6))

def ft12Control (frame : List UInt8) : Except String UInt8 :=
  if frame.length < 2 then .error "IEC FT1.2 frame is too short"
  else if byteAt frame 0 = 0x10 then .ok (byteAt frame 1)
  else if byteAt frame 0 = 0x68 ∧ 5 ≤ frame.length then .ok (byteAt frame 4)
  else .error "unsupported IEC FT1.2 frame start"

def ft12AccessDemand (frame : List UInt8) : Except String Bool :=
  (ft12Control frame).map fun control => control &&& 0x20 != 0

def ft12UserData (frame : List UInt8) (linkAddressSize : Nat) : Except String (List UInt8) :=
  if isFt12VariableFrame frame = false then .error "invalid IEC FT1.2 variable frame"
  else if frame.length - 2 ≤ 4 + (1 + linkAddressSize) then .ok []
  else .ok ((frame.drop 4).take (frame.length - 6))

def isFt12Frame (config : Iec103Config) (frame : List UInt8) : Bool :=
  isFt12FixedFrame frame config.linkAddressSize || isFt12VariableFrame frame

inductive Iec103Request where
  | resetCommunication
  | generalInterrogation
  | classData (dataClass : Nat) (frameCountBit : Bool)
  | recordingDirectory (frameCountBit : Bool)
  | comtradeFileCall (fan : Int) (fileType : UInt8) (frameCountBit : Bool)
deriving DecidableEq, Repr

namespace Iec103Request

def countBit (frameCountBit : Bool) : UInt8 := if frameCountBit then 0x20 else 0x00

/-- Each request is one of the builders of the codec. -/
def build (config : Iec103Config) : Iec103Request → Except String (List UInt8)
  | resetCommunication => .ok (buildFt12FixedFrame 0x40 config)
  | generalInterrogation =>
    appendFt12VariableFrame ([0x73] ++ appendLe config.linkAddress config.linkAddressSize ++ [7, 0x81] ++
      appendLe config.interrogationCot 1 ++ appendLe config.commonAddress 1 ++
      [0xFF, 0x00, byte config.returnInformationIdentifier])
  | classData dataClass frameCountBit =>
    if dataClass ≠ 1 ∧ dataClass ≠ 2 then .error "IEC103 data class must be 1 or 2"
    else .ok (buildFt12FixedFrame (0x40 ||| 0x10 ||| countBit frameCountBit ||| if dataClass = 1 then 10 else 11) config)
  | recordingDirectory frameCountBit =>
    appendFt12VariableFrame ([0x53 ||| countBit frameCountBit] ++
      appendLe config.linkAddress config.linkAddressSize ++
      [0x18, 0x81, 0x1F, byte config.commonAddress, 0xFF, 0x00, 0x18, 0x01, 0x00, 0x00, 0x00])
  | comtradeFileCall fan fileType frameCountBit =>
    if fan < 0 ∨ 0xFFFF < fan then .error "IEC103 disturbance FAN must be between 0 and 65535"
    else if fileType ≠ 0x51 ∧ fileType ≠ 0x52 then .error "IEC103 COMTRADE file type must be 0x51 or 0x52"
    else
      appendFt12VariableFrame ([0x53 ||| countBit frameCountBit] ++
        appendLe config.linkAddress config.linkAddressSize ++
        [0x44, 0x81, 0x00, byte config.commonAddress, 0xFF, fileType] ++ appendLe fan 2)

end Iec103Request

structure Iec103DataValue (K : Type) where
  commonAddress : Int
  ioa : Int
  typeId : Nat
  cause : Int
  functionType : Int
  informationNumber : Int
  value : K
  text : StdString
  rawHex : StdString
deriving DecidableEq

def hexDigit (n : Nat) : Char := if n < 10 then Char.ofNat (48 + n) else Char.ofNat (87 + n)

def toHex (bytes : List UInt8) : StdString := bytes.flatMap fun b => [hexDigit (b.toNat / 16), hexDigit (b.toNat % 16)]

def unsignedAt (bytes : List UInt8) (offset : Nat) : Int := (byteAt bytes offset).toNat

structure Iec103Header where
  typeId : Nat
  count : Nat
  cause : Int
  commonAddress : Int

section Decode

variable {K : Type} [Field K] (platform : Iec103Platform K) (config : Iec103Config)

def Iec103Header.value (header : Iec103Header) (userData : List UInt8) (functionType informationNumber : Int) (value : K)
    (text : StdString) : Iec103DataValue K where
  commonAddress := header.commonAddress
  ioa := functionType * 256 + informationNumber
  typeId := header.typeId
  cause := header.cause
  functionType := functionType
  informationNumber := informationNumber
  value := value
  text := text
  rawHex := toHex userData

def decodeGenericValue (bytes : List UInt8) (offset dataType dataSize : Nat) : Except String K :=
  if dataSize = 0 ∨ 8 < dataSize ∨ bytes.length < offset + dataSize then .error "IEC103 generic value is truncated"
  else if dataType = 7 ∧ dataSize = 4 then .ok (platform.ofFloatBits (readUInt32Le bytes offset))
  else if dataType = 3 ∧ dataSize = 1 then .ok (Int.bmod (unsignedAt bytes offset) (2 ^ 8) : Int)
  else if dataType = 3 ∧ dataSize = 2 then .ok (readInt16Le bytes offset : Int)
  else if dataType = 3 ∧ dataSize = 4 then .ok (readInt32Le bytes offset : Int)
  else (readLe bytes offset (min dataSize 4)).map fun value => (value : K)

/-- ASDU 44: blocks of sixteen states, the first of them at `baseInformationNumber`. -/
def decodeStates (header : Iec103Header) (userData : List UInt8) (functionType baseInformationNumber : Int) :
    Nat → Nat → Nat → Except String (List (Iec103DataValue K))
  | 0, _, _ => .ok []
  | blocks + 1, block, offset =>
    if userData.length < offset + 5 then .error "IEC103 ASDU44 information element is truncated"
    else
      let states := wordAt userData offset
      let values := (List.range 16).map fun bit =>
        let on := states.testBit bit
        header.value userData functionType (baseInformationNumber + block * 16 + bit) (if on then 1 else 0)
          (if on then "1".toList else "0".toList)
      (decodeStates header userData functionType baseInformationNumber blocks (block + 1) (offset + 5)).map
        (values ++ ·)

/-- ASDU 10: generic data, of which only the entries of group 0 are points. -/
def decodeGenerics (header : Iec103Header) (userData : List UInt8) :
    Nat → Nat → Except String (List (Iec103DataValue K))
  | 0, _ => .ok []
  | count + 1, offset =>
    if userData.length < offset + 6 then .error "IEC103 ASDU10 generic identifier is truncated"
    else do
      let at' (i : Nat) := (byteAt userData (offset + i)).toNat
      let entry := at' 1
      let payloadBytes := at' 4 * at' 5
      if at' 5 = 0 ∨ userData.length < offset + 6 + payloadBytes then .error "IEC103 ASDU10 generic value is truncated"
      else do
        let here ← if at' 0 = 0 ∧ 0 < entry then
            (decodeGenericValue platform userData (offset + 6) (at' 3) (at' 4)).map fun value =>
              [header.value userData config.deviceFunctionType (139 + entry) value (platform.toText value)]
          else .ok []
        let more ← decodeGenerics header userData count (offset + 6 + payloadBytes)
        return here ++ more

def decodeElement (typeId : Nat) (userData : List UInt8) (offset : Nat) : K × Nat :=
  if userData.length ≤ offset then (0, offset)
  else if typeId = 9 ∧ offset + 5 ≤ userData.length then
    let exponent := (byteAt userData (offset + 2) &&& 0x7F).toNat
    ((readInt16Le userData offset : K) / (if 0 < exponent then 10 ^ exponent else 1), offset + 5)
  else if typeId = 1 ∨ typeId = 2 ∨ typeId = 6 then
    (((byteAt userData offset &&& 0x03).toNat : K), offset + 1)
  else if offset + 2 ≤ userData.length then ((readInt16Le userData offset : K), offset + 2)
  else (0, offset)

def decodeSignals (header : Iec103Header) (userData : List UInt8) : Nat → Nat → List (Iec103DataValue K)
  | 0, _ => []
  | count + 1, offset =>
    if userData.length < offset + 2 then []
    else
      let (value, next) := decodeElement header.typeId userData (offset + 2)
      header.value userData (unsignedAt userData offset) (unsignedAt userData (offset + 1)) value
        (platform.toText value) :: decodeSignals header userData count next

def decodeIec103Data (userData : List UInt8) : Except String (List (Iec103DataValue K)) :=
  let headerSize := 1 + config.linkAddressSize
  if userData.length ≤ headerSize + 4 then .ok []
  else
    let typeId := (byteAt userData headerSize).toNat
    let header : Iec103Header := {
      typeId
      count := max 1 ((byteAt userData (headerSize + 1)).toNat % 128)
      cause := unsignedAt userData (headerSize + 2)
      commonAddress := unsignedAt userData (headerSize + 3) }
    let offset := headerSize + 4
    if typeId = 44 then
      if userData.length < offset + 2 then .ok []
      else
        decodeStates header userData (unsignedAt userData offset) (unsignedAt userData (offset + 1)) header.count 0
          (offset + 2)
    else if typeId = 10 then
      if userData.length < offset + 4 then .ok []
      else decodeGenerics platform config header userData ((byteAt userData (offset + 3)).toNat % 64) (offset + 4)
    else if typeId = 23 ∨ typeId = 50 then .ok []
    else .ok (decodeSignals platform header userData header.count offset)

end Decode

structure DisturbanceRecord where
  fan : Int
  state : Int
  timestampMs : Int
  rawTimeHex : StdString
deriving DecidableEq, Repr

structure ComtradeChunk where
  fileType : Int
  packetNumber : Int
  lastPacket : Bool
  data : List UInt8
deriving DecidableEq, Repr

section Recordings

variable {K : Type} (platform : Iec103Platform K) (config : Iec103Config)

def decodeCp56Time2a (bytes : List UInt8) (offset : Nat) : Except String Int :=
  if bytes.length < offset + 7 then .error "IEC103 CP56Time2a is truncated"
  else
    let masked (i : Nat) (mask : UInt8) : Int := (byteAt bytes (offset + i) &&& mask).toNat
    let msOfMinute : Int := wordAt bytes offset
    let seconds := platform.mktime (msOfMinute / 1000) (masked 2 0x3F) (masked 3 0x1F) (masked 4 0x1F)
      (masked 5 0x0F - 1) (masked 6 0x7F + 100)
    .ok (if seconds < 0 then 0 else seconds * 1000 + msOfMinute % 1000)

def decodeDirectoryEntries (userData : List UInt8) : Nat → Nat → Except String (List DisturbanceRecord)
  | 0, _ => .ok []
  | count + 1, offset =>
    if userData.length < offset + 10 then .error "IEC103 ASDU23 directory entry is truncated"
    else do
      let timestampMs ← decodeCp56Time2a platform userData (offset + 3)
      let record : DisturbanceRecord := {
        fan := wordAt userData offset, state := unsignedAt userData (offset + 2), timestampMs,
        rawTimeHex := toHex ((userData.drop (offset + 3)).take 7) }
      let more ← decodeDirectoryEntries userData count (offset + 10)
      return record :: more

def decodeIec103RecordingDirectory (userData : List UInt8) : Except String (List DisturbanceRecord) :=
  let headerSize := 1 + config.linkAddressSize
  if userData.length < headerSize + 6 ∨ byteAt userData headerSize ≠ 0x17 then .ok []
  else if byteAt userData (headerSize + 2) &&& 0x3F ≠ 0x1F then .ok []
  else decodeDirectoryEntries platform userData ((byteAt userData (headerSize + 1)).toNat % 128) (headerSize + 6)

def decodeIec103ComtradeChunk (userData : List UInt8) : Except String ComtradeChunk :=
  let headerSize := 1 + config.linkAddressSize
  if userData.length < headerSize + 8 ∨ byteAt userData headerSize ≠ 0x50 then
    .error "IEC103 response is not an ASDU80 COMTRADE packet"
  else
    let cause := (byteAt userData (headerSize + 2) &&& 0x3F).toNat
    if cause ≠ 0x14 then .error ("IEC103 ASDU80 has unexpected cause " ++ toString cause)
    else
      let sequenceHigh := (byteAt userData (headerSize + 7)).toNat
      let data := userData.drop (headerSize + 8)
      if 240 < data.length then .error "IEC103 ASDU80 payload exceeds 240 bytes"
      else .ok {
        fileType := (byteAt userData (headerSize + 5)).toNat
        packetNumber := (byteAt userData (headerSize + 6)).toNat + sequenceHigh % 128 * 256
        lastPacket := decide (128 ≤ sequenceHigh)
        data }

end Recordings

structure ComtradeAssembler where
  maxBytes : Nat
  fileType : Int := 0
  nextPacketNumber : Nat := 0
  complete : Bool := false
  packets : List (List UInt8) := []
  bytes : List UInt8 := []
deriving DecidableEq, Repr

namespace ComtradeAssembler

def new (maxBytes : Nat) : ComtradeAssembler := { maxBytes := max 1 maxBytes }

/-- `add` from the check of the packet number on; the file type is stored by then. -/
def takePacket (assembler : ComtradeAssembler) (chunk : ComtradeChunk) : Except String ComtradeAssembler :=
  if chunk.packetNumber < 0 then .error "IEC103 COMTRADE packet number is negative"
  else if chunk.packetNumber < assembler.nextPacketNumber then
    if assembler.packets[chunk.packetNumber.toNat]? ≠ some chunk.data then
      .error "IEC103 COMTRADE conflicting duplicate packet"
    else .ok assembler
  else if assembler.complete then .error "IEC103 COMTRADE packet received after final packet"
  else if chunk.packetNumber ≠ assembler.nextPacketNumber then
    .error ("IEC103 COMTRADE packet gap: expected " ++ toString assembler.nextPacketNumber ++ " but received " ++
      toString chunk.packetNumber)
  else if assembler.maxBytes - min assembler.maxBytes assembler.bytes.length < chunk.data.length then
    .error "IEC103 COMTRADE file exceeds configured size limit"
  else .ok {
    maxBytes := assembler.maxBytes
    fileType := assembler.fileType
    nextPacketNumber := assembler.nextPacketNumber + 1
    complete := chunk.lastPacket
    packets := assembler.packets ++ [chunk.data]
    bytes := assembler.bytes ++ chunk.data }

/-- The assembler after the call, and what the call throws. -/
def add (assembler : ComtradeAssembler) (chunk : ComtradeChunk) : ComtradeAssembler × Except String Unit :=
  if chunk.fileType ≠ 0x51 ∧ chunk.fileType ≠ 0x52 then
    (assembler, .error "IEC103 COMTRADE file type must be 0x51 or 0x52")
  else if assembler.fileType ≠ 0 ∧ assembler.fileType ≠ chunk.fileType then
    (assembler, .error "IEC103 COMTRADE file type changed during transfer")
  else
    let typed := { assembler with fileType := chunk.fileType }
    match typed.takePacket chunk with
    | .ok after => (after, .ok ())
    | .error message => (typed, .error message)

end ComtradeAssembler

/-- `assembler.add(decodeIec103ComtradeChunk(userData, config_))`. -/
def addDecoded (config : Iec103Config) (assembler : ComtradeAssembler) (userData : List UInt8) :
    Except String ComtradeAssembler := do
  let chunk ← decodeIec103ComtradeChunk config userData
  let (after, result) := assembler.add chunk
  result.map fun _ => after

section Frames

variable {config : Iec103Config} {frame : List UInt8}

theorem ft12Control_of_frame (h : isFt12Frame config frame = true) : ∃ control, ft12Control frame = .ok control := by
  rw [isFt12Frame, Bool.or_eq_true] at h
  rcases h with hFixed | hVariable
  · simp only [isFt12FixedFrame, Bool.and_eq_true, beq_iff_eq] at hFixed
    refine ⟨byteAt frame 1, ?_⟩
    rw [ft12Control, if_neg (by omega), if_pos hFixed.1.1.2]
  · simp only [isFt12VariableFrame, Bool.and_eq_true, decide_eq_true_eq, beq_iff_eq] at hVariable
    refine ⟨byteAt frame 4, ?_⟩
    have hStart : byteAt frame 0 = 0x68 := hVariable.1.1.1.1.1.2
    rw [ft12Control, if_neg (by omega), if_neg (by rw [hStart]; decide), if_pos ⟨hStart, by omega⟩]

theorem ft12AccessDemand_of_frame (h : isFt12Frame config frame = true) :
    ∃ demand, ft12AccessDemand frame = .ok demand := by
  obtain ⟨control, hControl⟩ := ft12Control_of_frame h
  exact ⟨_, by rw [ft12AccessDemand, hControl]; rfl⟩

theorem ft12UserData_of_variable (h : isFt12VariableFrame frame = true) (linkAddressSize : Nat) :
    ∃ userData, ft12UserData frame linkAddressSize = .ok userData := by
  rw [ft12UserData, if_neg (by rw [h]; decide)]
  split
  · exact ⟨_, rfl⟩
  · exact ⟨_, rfl⟩

end Frames

end EdgeGateway.Iec
