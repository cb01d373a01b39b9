import EdgeGateway.Mqtt.RealtimeRingBuffer

/-! # How the ring lies in its file

The stored records are one chain from the read to the write offset, or a chain to the end or a wrap
marker, continued by one from the start of the data area.
-/

namespace EdgeGateway.Mqtt

open Bytes

variable {ring : MqttRealtimeRingBuffer} {file : ByteFile} {h : Header} {message : Message}

theorem RecordHeader.ofBytes_bytes (r : RecordHeader) :
    RecordHeader.ofBytes r.bytes =
      ⟨r.magic % 2 ^ 32, r.totalLen % 2 ^ 32, r.topicLen % 2 ^ 32, r.payloadLen % 2 ^ 32,
        r.seq % 2 ^ 64, r.createdAt % 2 ^ 64⟩ := by
  have hFields := unpack_pack [(4, r.magic), (4, r.totalLen), (4, r.topicLen), (4, r.payloadLen),
    (8, r.seq), (8, r.createdAt)]
  simp only [List.map_cons, List.map_nil] at hFields
  rw [RecordHeader.ofBytes, RecordHeader.bytes, hFields]
  rfl

@[simp] theorem RecordHeader.length_bytes (r : RecordHeader) : r.bytes.length = sizeofRecordHeader := by
  simp [RecordHeader.bytes, sizeofRecordHeader]

theorem readRecordHeader_of_holds {r : RecordHeader} {offset : Nat} (hHolds : file.Holds offset r.bytes) :
    MqttRealtimeRingBuffer.readRecordHeader file offset = some (RecordHeader.ofBytes r.bytes) := by
  have hRead := hHolds.read
  rw [RecordHeader.length_bytes] at hRead
  rw [MqttRealtimeRingBuffer.readRecordHeader, hRead]
  rfl

def recordHeader (message : Message) (seq createdAt : Nat) : RecordHeader where
  magic := kRecordMagic
  totalLen := message.totalLen
  topicLen := message.topic.length
  payloadLen := message.payload.length
  seq := seq
  createdAt := createdAt

def wrapMarker (totalLen : Nat) : RecordHeader where
  magic := kWrapMagic
  totalLen := totalLen
  topicLen := 0
  payloadLen := 0
  seq := 0
  createdAt := 0

structure RecordAt (file : ByteFile) (offset : Nat) (message : Message) : Prop where
  short : message.totalLen < 2 ^ 32
  held : ∃ seq createdAt,
    file.Holds offset ((recordHeader message seq createdAt).bytes ++ (message.topic ++ message.payload))

structure MarkerAt (ring : MqttRealtimeRingBuffer) (file : ByteFile) (offset : Nat) : Prop where
  inside : offset < ring.fileSizeBytes
  short : ring.fileSizeBytes - offset < 2 ^ 32
  held : file.Holds offset (wrapMarker (ring.fileSizeBytes - offset)).bytes

inductive Chain (file : ByteFile) : Nat → Nat → List Message → Prop where
  | nil (offset : Nat) : Chain file offset offset []
  | cons {offset stop : Nat} {message : Message} {messages : List Message} (head : RecordAt file offset message)
      (tail : Chain file (offset + message.totalLen) stop messages) : Chain file offset stop (message :: messages)

theorem Message.totalLen_eq (message : Message) :
    message.totalLen = 32 + message.topic.length + message.payload.length := rfl

namespace Chain

variable {start stop : Nat} {messages : List Message}

theorem eq_of_nil (chain : Chain file start stop []) : start = stop := by
  cases chain
  rfl

theorem head_tail (chain : Chain file start stop (message :: messages)) :
    RecordAt file start message ∧ Chain file (start + message.totalLen) stop messages := by
  cases chain with
  | cons head tail => exact ⟨head, tail⟩

theorem length_le (chain : Chain file start stop messages) : start + 32 * messages.length ≤ stop := by
  induction chain with
  | nil offset => simp
  | @cons offset stop message messages head tail ih =>
    have hTotal := message.totalLen_eq
    rw [List.length_cons]
    omega

theorem le (chain : Chain file start stop messages) : start ≤ stop :=
  Nat.le_trans (Nat.le_add_right _ _) chain.length_le

theorem snoc (chain : Chain file start stop messages) (last : RecordAt file stop message) :
    Chain file start (stop + message.totalLen) (messages ++ [message]) := by
  induction chain with
  | nil offset => exact .cons last (.nil _)
  | cons head tail ih => exact .cons head (ih last)

theorem write (chain : Chain file start stop messages) {place : Nat} {data : List UInt8}
    (hApart : stop ≤ place ∨ place + data.length ≤ start) : Chain (file.write place data) start stop messages := by
  induction chain with
  | nil offset => exact .nil offset
  | @cons offset stop message messages head tail ih =>
    have hStop := tail.le
    have hLen : ∀ seq createdAt,
        ((recordHeader message seq createdAt).bytes ++ (message.topic ++ message.payload)).length =
          message.totalLen := by
      intro seq createdAt
      simp only [List.length_append, RecordHeader.length_bytes, Message.totalLen]
      omega
    obtain ⟨seq, createdAt, hHeld⟩ := head.held
    refine .cons ⟨head.short, seq, createdAt, hHeld.write ?_⟩ (ih ?_)
    · rw [hLen]
      omega
    · omega

end Chain

section Drop

open MqttRealtimeRingBuffer

theorem add64_eq {a b : Nat} (hSum : a + b < 2 ^ 64) : add64 a b = a + b := Nat.mod_eq_of_lt hSum

theorem sub64_eq {a b : Nat} (hLe : b ≤ a) (hLt : a < 2 ^ 64) : sub64 a b = a - b := by
  unfold sub64
  omega

theorem kHeaderSize_lt (ring : MqttRealtimeRingBuffer) : kHeaderSize + 64 < ring.fileSizeBytes := by
  have hLarge := ring.fileSize_ge
  unfold kHeaderSize
  omega

theorem readRecordHeader_record {offset : Nat} (record : RecordAt file offset message) :
    ∃ r, readRecordHeader file offset = some r ∧ r.magic = kRecordMagic ∧ r.totalLen = message.totalLen ∧
      r.topicLen = message.topic.length ∧ r.payloadLen = message.payload.length := by
  obtain ⟨seq, createdAt, hHeld⟩ := record.held
  have hShort := record.short
  have hTotal := message.totalLen_eq
  refine ⟨_, readRecordHeader_of_holds (ByteFile.holds_append.mp hHeld).1, ?_⟩
  rw [RecordHeader.ofBytes_bytes]
  refine ⟨rfl, Nat.mod_eq_of_lt hShort, Nat.mod_eq_of_lt ?_, Nat.mod_eq_of_lt ?_⟩
  · simp only [recordHeader]
    omega
  · simp only [recordHeader]
    omega

theorem readRecord_record (record : RecordAt file h.readOffset message) (hCount : h.recordCount ≠ 0)
    (hUsed : h.usedBytes ≠ 0) : readRecord file h = some message := by
  obtain ⟨r, hRecord, hMagic, hLen, hTopicLen, hPayloadLen⟩ := readRecordHeader_record record
  obtain ⟨_, _, hHeld⟩ := record.held
  obtain ⟨-, hBody⟩ := ByteFile.holds_append.mp hHeld
  rw [RecordHeader.length_bytes] at hBody
  obtain ⟨hTopic, hPayload⟩ := ByteFile.holds_append.mp hBody
  have hShort := record.short
  have hTotal := message.totalLen_eq
  have hRead : ¬ (r.totalLen = 0 ∨ r.magic = kWrapMagic) := by
    rw [hMagic, hLen]
    simp only [kRecordMagic, kWrapMagic]
    omega
  have hLens : ¬ (r.magic ≠ kRecordMagic ∨
      (r.topicLen + r.payloadLen) % 2 ^ 32 + sizeofRecordHeader ≠ r.totalLen) := by
    rw [hMagic, hLen, hTopicLen, hPayloadLen, sizeofRecordHeader]
    omega
  rw [readRecord, if_neg (by simp [hCount, hUsed]), hRecord]
  simp only [if_neg hRead, if_neg hLens]
  rw [hTopicLen, hPayloadLen, hTopic.read, hPayload.read]

theorem dropOldest_record (record : RecordAt file h.readOffset message) (hCount : h.recordCount ≠ 0)
    (hUsed : message.totalLen ≤ h.usedBytes) (hBegin : kHeaderSize ≤ h.readOffset)
    (hEnd : h.readOffset + message.totalLen ≤ ring.fileSizeBytes) :
    ring.dropOldest file h =
      { h with
        usedBytes := h.usedBytes - message.totalLen
        readOffset := if h.readOffset + message.totalLen = ring.fileSizeBytes then kHeaderSize
          else h.readOffset + message.totalLen
        recordCount := h.recordCount - 1 } := by
  obtain ⟨r, hRecord, hMagic, hLen, -, -⟩ := readRecordHeader_record record
  have hTotal := message.totalLen_eq
  have hLt := ring.fileSize_lt
  have hNotEmpty : ¬ (h.recordCount = 0 ∨ h.usedBytes = 0) := by omega
  have hValid : ¬ (message.totalLen = 0 ∨ message.totalLen > ring.dataCapacity) := by
    rw [dataCapacity]
    omega
  have hNext : add64 h.readOffset message.totalLen = h.readOffset + message.totalLen := add64_eq (by omega)
  have hWrap : (h.readOffset + message.totalLen ≥ ring.fileSizeBytes) =
      (h.readOffset + message.totalLen = ring.fileSizeBytes) := by
    apply propext
    omega
  rw [dropOldest, if_neg hNotEmpty, hRecord]
  simp only [hMagic, hLen, if_neg hValid, hNext, hWrap, Nat.min_eq_right hUsed,
    if_pos (And.intro trivial (Nat.pos_of_ne_zero hCount))]
  rfl

theorem readRecordHeader_marker {offset : Nat} (marker : MarkerAt ring file offset) :
    ∃ r, readRecordHeader file offset = some r ∧ r.magic = kWrapMagic ∧
      r.totalLen = ring.fileSizeBytes - offset := by
  refine ⟨_, readRecordHeader_of_holds marker.held, ?_⟩
  rw [RecordHeader.ofBytes_bytes]
  exact ⟨rfl, Nat.mod_eq_of_lt marker.short⟩

theorem readRecord_marker (marker : MarkerAt ring file h.readOffset) : readRecord file h = none := by
  obtain ⟨r, hRecord, hMagic, -⟩ := readRecordHeader_marker marker
  rw [readRecord, hRecord]
  simp [hMagic]

theorem dropOldest_marker (marker : MarkerAt ring file h.readOffset) (hCount : h.recordCount ≠ 0)
    (hUsed : ring.fileSizeBytes - h.readOffset ≤ h.usedBytes) (hBegin : kHeaderSize ≤ h.readOffset) :
    ring.dropOldest file h =
      { h with
        usedBytes := h.usedBytes - (ring.fileSizeBytes - h.readOffset)
        readOffset := kHeaderSize } := by
  obtain ⟨r, hRecord, hMagic, hLen⟩ := readRecordHeader_marker marker
  have hInside := marker.inside
  have hLt := ring.fileSize_lt
  have hNotEmpty : ¬ (h.recordCount = 0 ∨ h.usedBytes = 0) := by omega
  have hValid : ¬ (ring.fileSizeBytes - h.readOffset = 0 ∨
      ring.fileSizeBytes - h.readOffset > ring.dataCapacity) := by
    rw [dataCapacity]
    omega
  have hNext : add64 h.readOffset (ring.fileSizeBytes - h.readOffset) = ring.fileSizeBytes := by
    rw [add64_eq (by omega)]
    omega
  have hMarker : ¬ (kWrapMagic = kRecordMagic ∧ h.recordCount > 0) := fun hBoth => absurd hBoth.1 (by decide)
  rw [dropOldest, if_neg hNotEmpty, hRecord]
  simp only [hMagic, hLen, if_neg hValid, hNext, if_pos (Nat.le_refl ring.fileSizeBytes), if_neg hMarker,
    Nat.min_eq_right hUsed, ge_iff_le]
  rfl

theorem dropOldest_empty (hCount : h.recordCount = 0) :
    ring.dropOldest file h =
      { h with readOffset := kHeaderSize, writeOffset := kHeaderSize, usedBytes := 0 } := by
  rw [dropOldest, if_pos (Or.inl hCount)]
  rfl

end Drop

structure Linear (ring : MqttRealtimeRingBuffer) (file : ByteFile) (h : Header) (messages : List Message) :
    Prop where
  begin_le : kHeaderSize ≤ h.readOffset
  write_lt : h.writeOffset < ring.fileSizeBytes
  chain : Chain file h.readOffset h.writeOffset messages
  used : h.readOffset + h.usedBytes = h.writeOffset
  count : h.recordCount = messages.length

structure Wrapped (ring : MqttRealtimeRingBuffer) (file : ByteFile) (h : Header) (front back : List Message) :
    Prop where
  read_lt : h.readOffset < ring.fileSizeBytes
  write_le : h.writeOffset ≤ h.readOffset
  turn : ∃ offset, Chain file h.readOffset offset front ∧
    (offset = ring.fileSizeBytes ∨ MarkerAt ring file offset)
  chain : Chain file kHeaderSize h.writeOffset back
  used : h.readOffset + h.usedBytes + kHeaderSize = ring.fileSizeBytes + h.writeOffset
  count : h.recordCount = front.length + back.length

inductive Stores (ring : MqttRealtimeRingBuffer) (file : ByteFile) (h : Header) : List Message → Prop where
  | linear {messages : List Message} (shape : Linear ring file h messages) : Stores ring file h messages
  | wrapped {front back : List Message} (shape : Wrapped ring file h front back) :
      Stores ring file h (front ++ back)

structure Dropped (ring : MqttRealtimeRingBuffer) (file : ByteFile) (h : Header) (messages rest : List Message) :
    Prop where
  messages_eq : messages = (MqttRealtimeRingBuffer.readRecord file h).toList ++ rest
  write_eq : (ring.dropOldest file h).writeOffset = h.writeOffset
  used_lt : (ring.dropOldest file h).usedBytes < h.usedBytes

open MqttRealtimeRingBuffer

theorem Linear.drop {messages : List Message} (shape : Linear ring file h messages) (hUsed : 0 < h.usedBytes) :
    ∃ rest, Linear ring file (ring.dropOldest file h) rest ∧ Dropped ring file h messages rest := by
  obtain ⟨hBegin, hWrite, hChain, hUsedEq, hCount⟩ := shape
  cases messages with
  | nil =>
    have hSame := hChain.eq_of_nil
    omega
  | cons message rest =>
    obtain ⟨head, tail⟩ := hChain.head_tail
    have hTotal := message.totalLen_eq
    have hLe := tail.le
    rw [List.length_cons] at hCount
    have hRead := readRecord_record head (by omega) (by omega)
    have hDrop := @dropOldest_record ring file h _ head (by omega) (by omega) hBegin (by omega)
    rw [if_neg (by omega)] at hDrop
    refine ⟨rest, ?_, ?_, ?_, ?_⟩
    · rw [hDrop]
      exact ⟨by simp only; omega, hWrite, tail, by simp only; omega, by simp only; omega⟩
    · rw [hRead]
      rfl
    · rw [hDrop]
    · rw [hDrop]
      simp only
      omega

theorem Wrapped.drop {front back : List Message} (shape : Wrapped ring file h front back) :
    ∃ rest, Stores ring file (ring.dropOldest file h) rest ∧ Dropped ring file h (front ++ back) rest := by
  obtain ⟨hRead, hWrite, ⟨turn, hFront, hTurn⟩, hBack, hUsed, hCount⟩ := shape
  have hBegin := hBack.le
  have hTurnLe : turn ≤ ring.fileSizeBytes := by
    obtain hTurn | marker := hTurn
    · exact hTurn.le
    · exact marker.inside.le
  cases front with
  | cons message front =>
    obtain ⟨head, tail⟩ := hFront.head_tail
    have hTotal := message.totalLen_eq
    have hLe := tail.le
    rw [List.length_cons] at hCount
    have hOldest := readRecord_record head (by omega) (by omega)
    have hDrop := @dropOldest_record ring file h _ head (by omega) (by omega) (by omega) (by omega)
    have hDropped : Dropped ring file h (message :: front ++ back) (front ++ back) := by
      refine ⟨?_, ?_, ?_⟩
      · rw [hOldest]
        rfl
      · rw [hDrop]
      · rw [hDrop]
        simp only
        omega
    refine ⟨front ++ back, ?_, hDropped⟩
    by_cases hEnd : h.readOffset + message.totalLen = ring.fileSizeBytes
    · -- The last record before the end: what is left is the chain from the start.
      rw [if_pos hEnd] at hDrop
      have hLast := tail.length_le
      have hEmpty : front = [] := List.eq_nil_of_length_eq_zero (by omega)
      subst hEmpty
      rw [hDrop]
      refine .linear ⟨Nat.le_refl _, ?_, hBack, ?_, ?_⟩
      · simp only
        omega
      · simp only
        omega
      · simp only [List.nil_append, List.length_nil] at hCount ⊢
        omega
    · rw [if_neg hEnd] at hDrop
      rw [hDrop]
      refine .wrapped ⟨?_, ?_, ⟨turn, tail, hTurn⟩, hBack, ?_, ?_⟩
      · simp only
        omega
      · simp only
        omega
      · simp only
        omega
      · simp only
        omega
  | nil =>
    obtain rfl := hFront.eq_of_nil
    have marker := hTurn.resolve_left (by omega)
    rw [List.length_nil, Nat.zero_add] at hCount
    have hOldest := readRecord_marker marker
    cases back with
    | nil =>
      have hDrop := @dropOldest_empty ring file h hCount
      have hStart := hBack.eq_of_nil
      refine ⟨[], ?_, ?_, ?_, ?_⟩
      · rw [hDrop]
        have hLt := kHeaderSize_lt ring
        exact .linear ⟨Nat.le_refl _, by simp only; omega, .nil _, rfl, hCount⟩
      · rw [hOldest]
        rfl
      · rw [hDrop, ← hStart]
      · rw [hDrop]
        simp only
        omega
    | cons message back =>
      rw [List.length_cons] at hCount
      have hDrop := @dropOldest_marker ring file h marker (by omega) (by omega) (by omega)
      refine ⟨message :: back, ?_, ?_, ?_, ?_⟩
      · rw [hDrop]
        refine .linear ⟨Nat.le_refl _, ?_, hBack, ?_, ?_⟩
        · simp only
          omega
        · simp only
          omega
        · simpa using hCount
      · rw [hOldest]
        rfl
      · rw [hDrop]
      · rw [hDrop]
        simp only
        omega

theorem Stores.drop {messages : List Message} (stores : Stores ring file h messages) (hUsed : 0 < h.usedBytes) :
    ∃ rest, Stores ring file (ring.dropOldest file h) rest ∧ Dropped ring file h messages rest := by
  cases stores with
  | linear shape =>
    obtain ⟨rest, hShape, hDropped⟩ := shape.drop hUsed
    exact ⟨rest, .linear hShape, hDropped⟩
  | wrapped shape => exact shape.drop

theorem Stores.count_eq {messages : List Message} (stores : Stores ring file h messages) :
    h.recordCount = messages.length := by
  cases stores with
  | linear shape => exact shape.count
  | wrapped shape => rw [shape.count, List.length_append]

theorem Stores.used_bounds {messages : List Message} (stores : Stores ring file h messages) :
    32 * messages.length ≤ h.usedBytes ∧ h.usedBytes ≤ ring.dataCapacity := by
  have hLt := kHeaderSize_lt ring
  rw [dataCapacity]
  cases stores with
  | linear shape =>
    have hLength := shape.chain.length_le
    have hUsed := shape.used
    have hBegin := shape.begin_le
    have hWrite := shape.write_lt
    omega
  | wrapped shape =>
    obtain ⟨hRead, hWrite, ⟨turn, hFront, hTurn⟩, hBack, hUsed, hCount⟩ := shape
    have hFrontLe := hFront.length_le
    have hBackLe := hBack.length_le
    have hTurnLe : turn ≤ ring.fileSizeBytes := by
      obtain hTurn | marker := hTurn
      · exact hTurn.le
      · exact marker.inside.le
    rw [List.length_append]
    omega

end EdgeGateway.Mqtt
