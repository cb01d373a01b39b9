import EdgeGateway.Foundation.Bytes

/-! # The realtime ring of the MQTT publisher

A file of fixed size: a header, then records one after another, with a wrap marker where the next
did not fit before the end. Each call opens the file anew.
-/

namespace EdgeGateway.Mqtt

open Bytes

def kHeaderSize : Nat := 4096
def kRecordMagic : Nat := 0x4D515452
def kWrapMagic : Nat := 0x4D515457

def kRingMagic : List UInt8 := [0x4D, 0x51, 0x54, 0x52, 0x49, 0x4E, 0x47]

/-- `sizeof(Header)` and `sizeof(RecordHeader)`. -/
def sizeofHeader : Nat := 64
def sizeofRecordHeader : Nat := 32

def add64 (a b : Nat) : Nat := (a + b) % 2 ^ 64
def sub64 (a b : Nat) : Nat := (a + (2 ^ 64 - b)) % 2 ^ 64

structure Message where
  topic : List UInt8
  payload : List UInt8
deriving DecidableEq, Repr

def Message.totalLen (message : Message) : Nat :=
  sizeofRecordHeader + message.topic.length + message.payload.length

structure Header where
  magic : List UInt8
  version : Nat
  headerSize : Nat
  fileSize : Nat
  readOffset : Nat
  writeOffset : Nat
  usedBytes : Nat
  recordCount : Nat
  nextSeq : Nat
deriving DecidableEq, Repr

structure RecordHeader where
  magic : Nat
  totalLen : Nat
  topicLen : Nat
  payloadLen : Nat
  seq : Nat
  createdAt : Nat
deriving DecidableEq, Repr

def Header.fields (h : Header) : List (Nat × Nat) :=
  [(4, h.version), (4, h.headerSize), (8, h.fileSize), (8, h.readOffset), (8, h.writeOffset),
   (8, h.usedBytes), (8, h.recordCount), (8, h.nextSeq)]

def Header.bytes (h : Header) : List UInt8 := h.magic ++ pack h.fields

def Header.ofBytes (bytes : List UInt8) : Header :=
  let fields := unpack [4, 4, 8, 8, 8, 8, 8, 8] (bytes.drop 8)
  { magic := bytes.take 8
    version := fields.getD 0 0
    headerSize := fields.getD 1 0
    fileSize := fields.getD 2 0
    readOffset := fields.getD 3 0
    writeOffset := fields.getD 4 0
    usedBytes := fields.getD 5 0
    recordCount := fields.getD 6 0
    nextSeq := fields.getD 7 0 }

def RecordHeader.bytes (r : RecordHeader) : List UInt8 :=
  pack [(4, r.magic), (4, r.totalLen), (4, r.topicLen), (4, r.payloadLen), (8, r.seq), (8, r.createdAt)]

def RecordHeader.ofBytes (bytes : List UInt8) : RecordHeader :=
  let fields := unpack [4, 4, 4, 4, 8, 8] bytes
  { magic := fields.getD 0 0
    totalLen := fields.getD 1 0
    topicLen := fields.getD 2 0
    payloadLen := fields.getD 3 0
    seq := fields.getD 4 0
    createdAt := fields.getD 5 0 }

/-- The members that the constructor sets, with the bounds it gives them. -/
structure MqttRealtimeRingBuffer where
  fileSizeBytes : Nat
  maxMessageBytes : Nat
  replayBatchSize : Nat
  fileSize_ge : 16 * 1024 * 1024 ≤ fileSizeBytes
  fileSize_lt : fileSizeBytes < 2 ^ 64
  maxMessage_lt : maxMessageBytes < 2 ^ 32
  batch_pos : 1 ≤ replayBatchSize

namespace MqttRealtimeRingBuffer

def make (fileSizeBytes : UInt64) (maxMessageBytes : UInt32) (replayBatchSize : UInt64) :
    MqttRealtimeRingBuffer where
  fileSizeBytes := max fileSizeBytes.toNat (16 * 1024 * 1024)
  maxMessageBytes := max maxMessageBytes.toNat (1024 * 1024)
  replayBatchSize := max 1 replayBatchSize.toNat
  fileSize_ge := Nat.le_max_right _ _
  fileSize_lt := Nat.max_lt.mpr ⟨fileSizeBytes.toNat_lt, by decide⟩
  maxMessage_lt := Nat.max_lt.mpr ⟨maxMessageBytes.toNat_lt, by decide⟩
  batch_pos := Nat.le_max_left _ _

variable (ring : MqttRealtimeRingBuffer)

def dataBegin : Nat := kHeaderSize

def dataCapacity : Nat := ring.fileSizeBytes - kHeaderSize

def cleanHeader : Header where
  magic := kRingMagic ++ [0]
  version := 1
  headerSize := kHeaderSize
  fileSize := ring.fileSizeBytes
  readOffset := kHeaderSize
  writeOffset := kHeaderSize
  usedBytes := 0
  recordCount := 0
  nextSeq := 0

def cleanFile : ByteFile :=
  ((ByteFile.empty.write 0 ring.cleanHeader.bytes).write sizeofHeader
    (List.replicate (kHeaderSize - sizeofHeader) 0)).write (ring.fileSizeBytes - 1) [0]

def readHeader (file : ByteFile) : Option Header := (file.read 0 sizeofHeader).map Header.ofBytes

def writeHeader (file : ByteFile) (h : Header) : ByteFile := file.write 0 h.bytes

/-- A missing file has size zero; without a result the header could not be read. -/
def ensureInitialized (file : ByteFile) : Option ByteFile :=
  if file.size ≠ ring.fileSizeBytes then
    some ring.cleanFile
  else
    (readHeader file).map fun h =>
      if h.magic.take 7 ≠ kRingMagic ∨ h.fileSize ≠ ring.fileSizeBytes then ring.cleanFile else file

def contiguousFreeAtEnd (h : Header) : Nat :=
  if h.writeOffset ≥ h.readOffset then sub64 ring.fileSizeBytes h.writeOffset
  else h.readOffset - h.writeOffset

def readRecordHeader (file : ByteFile) (offset : Nat) : Option RecordHeader :=
  (file.read offset sizeofRecordHeader).map RecordHeader.ofBytes

def writeWrapMarker (file : ByteFile) (h : Header) : ByteFile × Header :=
  let marker : RecordHeader :=
    { magic := kWrapMagic, totalLen := sub64 ring.fileSizeBytes h.writeOffset % 2 ^ 32,
      topicLen := 0, payloadLen := 0, seq := 0, createdAt := 0 }
  (file.write h.writeOffset marker.bytes,
    { h with usedBytes := add64 h.usedBytes marker.totalLen, writeOffset := dataBegin })

def dropOldest (file : ByteFile) (h : Header) : Header :=
  if h.recordCount = 0 ∨ h.usedBytes = 0 then
    { h with readOffset := dataBegin, writeOffset := dataBegin, usedBytes := 0 }
  else
    match readRecordHeader file h.readOffset with
    | none => { h with readOffset := dataBegin, writeOffset := dataBegin, usedBytes := 0, recordCount := 0 }
    | some record =>
      if record.totalLen = 0 ∨ record.totalLen > ring.dataCapacity then
        { h with readOffset := dataBegin, writeOffset := dataBegin, usedBytes := 0, recordCount := 0 }
      else
        { h with
          usedBytes := h.usedBytes - min h.usedBytes record.totalLen
          readOffset := if add64 h.readOffset record.totalLen ≥ ring.fileSizeBytes then dataBegin
            else add64 h.readOffset record.totalLen
          recordCount := if record.magic = kRecordMagic ∧ h.recordCount > 0 then h.recordCount - 1
            else h.recordCount }

def readRecord (file : ByteFile) (h : Header) : Option Message :=
  if h.recordCount = 0 ∨ h.usedBytes = 0 then none
  else
    match readRecordHeader file h.readOffset with
    | none => none
    | some record =>
      if record.totalLen = 0 ∨ record.magic = kWrapMagic then none
      else if record.magic ≠ kRecordMagic ∨
          (record.topicLen + record.payloadLen) % 2 ^ 32 + sizeofRecordHeader ≠ record.totalLen then none
      else
        match file.read (h.readOffset + sizeofRecordHeader) record.topicLen,
          file.read (h.readOffset + sizeofRecordHeader + record.topicLen) record.payloadLen with
        | some topic, some payload => some ⟨topic, payload⟩
        | _, _ => none

/-- A round lowers the 64-bit `usedBytes` or finds it zero, so a loop that outlasts these rounds never ends.
    -/
def rounds : Nat := 2 ^ 64 + 1

/-- The eviction loop of `writeRecord`, with the messages at the read offset of each `dropOldest`. -/
def evict (file : ByteFile) (totalLen : Nat) : Nat → Header → List Message → Option (Header × List Message)
  | 0, _, _ => none
  | fuel + 1, h, dropped =>
    if sub64 ring.dataCapacity h.usedBytes < totalLen + sizeofRecordHeader then
      evict file totalLen fuel (ring.dropOldest file h) (dropped ++ (readRecord file h).toList)
    else
      some (h, dropped)

def appendRecord (file : ByteFile) (h : Header) (message : Message) (currentTimeMs : Int) : ByteFile × Header :=
  let record : RecordHeader :=
    { magic := kRecordMagic, totalLen := message.totalLen % 2 ^ 32, topicLen := message.topic.length % 2 ^ 32,
      payloadLen := message.payload.length % 2 ^ 32, seq := h.nextSeq,
      createdAt := (currentTimeMs % 2 ^ 64).toNat }
  (((file.write h.writeOffset record.bytes).write (h.writeOffset + sizeofRecordHeader) message.topic).write
      (h.writeOffset + sizeofRecordHeader + message.topic.length) message.payload,
    { h with
      nextSeq := add64 h.nextSeq 1
      writeOffset := if add64 h.writeOffset message.totalLen ≥ ring.fileSizeBytes then dataBegin
        else add64 h.writeOffset message.totalLen
      usedBytes := add64 h.usedBytes message.totalLen
      recordCount := add64 h.recordCount 1 })

structure Written where
  file : ByteFile
  header : Header
  dropped : List Message

def writeRecord (fuel : Nat) (file : ByteFile) (h : Header) (message : Message) (currentTimeMs : Int) :
    Option Written :=
  if message.totalLen > ring.maxMessageBytes ∨ message.totalLen ≥ ring.dataCapacity then
    some ⟨file, h, []⟩
  else do
    let (h, dropped) ← ring.evict file message.totalLen fuel h []
    if ring.contiguousFreeAtEnd h < message.totalLen then
      let (file, h) := ring.writeWrapMarker file h
      let (h, dropped) ← ring.evict file message.totalLen fuel h dropped
      let (file, h) := ring.appendRecord file h message currentTimeMs
      return ⟨file, h, dropped⟩
    else
      let (file, h) := ring.appendRecord file h message currentTimeMs
      return ⟨file, h, dropped⟩

/-- The file after the call and the messages evicted by it; no result if it does not return. -/
def enqueue (file : ByteFile) (message : Message) (currentTimeMs : Int) : Option (ByteFile × List Message) := do
  let h ← readHeader file
  let written ← ring.writeRecord rounds file h message currentTimeMs
  return (writeHeader written.file written.header, written.dropped)

/-- The loop of `replay`: the messages handed to `send`, and the header unless a `send` threw. -/
def replayLoop (file : ByteFile) (limit : Nat) (throwsAt : Option Nat) :
    Nat → Header → List Message → Option (List Message × Option Header)
  | 0, _, _ => none
  | fuel + 1, h, sent =>
    if sent.length < limit ∧ h.recordCount > 0 then
      match readRecord file h with
      | none => replayLoop file limit throwsAt fuel (ring.dropOldest file h) sent
      | some message =>
        if throwsAt = some sent.length then
          some (sent ++ [message], none)
        else
          replayLoop file limit throwsAt fuel (ring.dropOldest file h) (sent ++ [message])
    else
      some (sent, some h)

def replay (file : ByteFile) (throwsAt : Option Nat) : Option (ByteFile × List Message) := do
  let h ← readHeader file
  let (sent, ended) ← ring.replayLoop file ring.replayBatchSize throwsAt rounds h []
  match ended with
  | none => return (file, sent)
  | some h => return (writeHeader file h, sent)

/-- The messages still stored: what `replay` without a batch limit would hand to `send`. -/
def storedMessages (file : ByteFile) : Option (List Message) := do
  let h ← readHeader file
  let (sent, _) ← ring.replayLoop file ring.fileSizeBytes none rounds h []
  return sent

end MqttRealtimeRingBuffer

end EdgeGateway.Mqtt
