import EdgeGateway.Mqtt.RingLayout

/-! # What the operations do to the stored messages -/

namespace EdgeGateway.Mqtt

open MqttRealtimeRingBuffer

variable {ring : MqttRealtimeRingBuffer} {file : ByteFile} {h : Header} {message : Message}

structure Header.Proper (ring : MqttRealtimeRingBuffer) (h : Header) : Prop where
  magic : h.magic = kRingMagic ++ [0]
  version : h.version = 1
  headerSize : h.headerSize = kHeaderSize
  fileSize : h.fileSize = ring.fileSizeBytes
  nextSeq : h.nextSeq < 2 ^ 64

theorem Header.Proper.dropOldest (proper : h.Proper ring) : (ring.dropOldest file h).Proper ring := by
  obtain ⟨hMagic, hVersion, hHeaderSize, hFileSize, hSeq⟩ := proper
  unfold MqttRealtimeRingBuffer.dropOldest
  split
  · exact ⟨hMagic, hVersion, hHeaderSize, hFileSize, hSeq⟩
  · split
    · exact ⟨hMagic, hVersion, hHeaderSize, hFileSize, hSeq⟩
    · split
      · exact ⟨hMagic, hVersion, hHeaderSize, hFileSize, hSeq⟩
      · exact ⟨hMagic, hVersion, hHeaderSize, hFileSize, hSeq⟩

structure Shrinks (ring : MqttRealtimeRingBuffer) (file : ByteFile) (Shape : Header → List Message → Prop) :
    Prop where
  used_le : ∀ h messages, Shape h messages → h.usedBytes ≤ ring.dataCapacity
  drop : ∀ h messages, Shape h messages → 0 < h.usedBytes →
    ∃ rest, Shape (ring.dropOldest file h) rest ∧ Dropped ring file h messages rest

theorem shrinks_stores (ring : MqttRealtimeRingBuffer) (file : ByteFile) :
    Shrinks ring file (Stores ring file) where
  used_le _ _ stores := stores.used_bounds.2
  drop _ _ stores hUsed := stores.drop hUsed

theorem shrinks_linear (ring : MqttRealtimeRingBuffer) (file : ByteFile) :
    Shrinks ring file (Linear ring file) where
  used_le _ _ shape := (Stores.linear shape).used_bounds.2
  drop _ _ shape hUsed := shape.drop hUsed

theorem dataCapacity_lt (ring : MqttRealtimeRingBuffer) : ring.dataCapacity < 2 ^ 64 :=
  Nat.lt_of_le_of_lt (Nat.sub_le _ _) ring.fileSize_lt

structure Evicted (ring : MqttRealtimeRingBuffer) (totalLen : Nat) (h h' : Header)
    (messages gone rest : List Message) : Prop where
  room : h'.usedBytes + totalLen + 32 ≤ ring.dataCapacity
  messages_eq : messages = gone ++ rest
  write_eq : h'.writeOffset = h.writeOffset
  proper : h.Proper ring → h'.Proper ring

theorem evict_spec {Shape : Header → List Message → Prop} (hShrinks : Shrinks ring file Shape) {totalLen : Nat}
    (hNeed : totalLen + 32 ≤ ring.dataCapacity) (fuel : Nat) (h : Header) (messages dropped : List Message)
    (shape : Shape h messages) (hFuel : h.usedBytes < fuel) :
    ∃ h' gone rest, ring.evict file totalLen fuel h dropped = some (h', dropped ++ gone) ∧ Shape h' rest ∧
      Evicted ring totalLen h h' messages gone rest := by
  induction fuel generalizing h messages dropped with
  | zero => omega
  | succ fuel ih =>
    have hUsed := hShrinks.used_le h messages shape
    have hFree := sub64_eq hUsed (dataCapacity_lt ring)
    rw [evict, hFree, sizeofRecordHeader]
    by_cases hFull : ring.dataCapacity - h.usedBytes < totalLen + 32
    · rw [if_pos hFull]
      obtain ⟨rest, hShape, hDropped⟩ := hShrinks.drop h messages shape (by omega)
      have hLess := hDropped.used_lt
      obtain ⟨h', gone, rest', hEvict, hShape', hEvicted⟩ :=
        ih (ring.dropOldest file h) rest (dropped ++ (readRecord file h).toList) hShape (by omega)
      refine ⟨h', (readRecord file h).toList ++ gone, rest', ?_, hShape', hEvicted.room, ?_, ?_, ?_⟩
      · rw [hEvict, List.append_assoc]
      · rw [hDropped.messages_eq, hEvicted.messages_eq, List.append_assoc]
      · rw [hEvicted.write_eq, hDropped.write_eq]
      · intro proper
        exact hEvicted.proper proper.dropOldest
    · rw [if_neg hFull]
      refine ⟨h, [], messages, by rw [List.append_nil], shape, by omega, rfl, rfl, fun proper => proper⟩

section Append

variable {currentTimeMs : Int}

theorem appendRecord_holds {offset : Nat} {data : List UInt8} (held : file.Holds offset data)
    (hApart : offset + data.length ≤ h.writeOffset ∨ h.writeOffset + message.totalLen ≤ offset) :
    (ring.appendRecord file h message currentTimeMs).1.Holds offset data := by
  have hTotal := message.totalLen_eq
  refine ((held.write ?_).write ?_).write ?_
  · rw [RecordHeader.length_bytes, sizeofRecordHeader]
    omega
  · rw [sizeofRecordHeader]
    omega
  · rw [sizeofRecordHeader]
    omega

theorem appendRecord_chain {start stop : Nat} {messages : List Message} (chain : Chain file start stop messages)
    (hApart : stop ≤ h.writeOffset ∨ h.writeOffset + message.totalLen ≤ start) :
    Chain (ring.appendRecord file h message currentTimeMs).1 start stop messages := by
  have hTotal := message.totalLen_eq
  refine ((chain.write ?_).write ?_).write ?_
  · rw [RecordHeader.length_bytes, sizeofRecordHeader]
    omega
  · rw [sizeofRecordHeader]
    omega
  · rw [sizeofRecordHeader]
    omega

theorem appendRecord_recordAt (hShort : message.totalLen < 2 ^ 32) (hWrite : h.writeOffset ≤ file.size) :
    RecordAt (ring.appendRecord file h message currentTimeMs).1 h.writeOffset message := by
  have hTotal := message.totalLen_eq
  refine ⟨hShort, h.nextSeq, (currentTimeMs % 2 ^ 64).toNat, ?_⟩
  have hLens : recordHeader message h.nextSeq (currentTimeMs % 2 ^ 64).toNat =
      { magic := kRecordMagic, totalLen := message.totalLen % 2 ^ 32, topicLen := message.topic.length % 2 ^ 32,
        payloadLen := message.payload.length % 2 ^ 32, seq := h.nextSeq,
        createdAt := (currentTimeMs % 2 ^ 64).toNat } := by
    rw [recordHeader, Nat.mod_eq_of_lt hShort, Nat.mod_eq_of_lt (by omega : message.topic.length < 2 ^ 32),
      Nat.mod_eq_of_lt (by omega : message.payload.length < 2 ^ 32)]
  rw [appendRecord, ← hLens]
  simp only
  generalize hRecord : recordHeader message h.nextSeq (currentTimeMs % 2 ^ 64).toNat = record
  have hHead : (file.write h.writeOffset record.bytes).Holds h.writeOffset record.bytes :=
    ByteFile.holds_write hWrite
  have hTopic := @ByteFile.holds_write (file.write h.writeOffset record.bytes)
    (h.writeOffset + sizeofRecordHeader) message.topic (by
      have hSize := hHead.1
      rw [RecordHeader.length_bytes] at hSize
      exact hSize)
  have hPayload := @ByteFile.holds_write ((file.write h.writeOffset record.bytes).write
    (h.writeOffset + sizeofRecordHeader) message.topic)
    (h.writeOffset + sizeofRecordHeader + message.topic.length) message.payload hTopic.1
  rw [ByteFile.holds_append, ByteFile.holds_append, RecordHeader.length_bytes]
  refine ⟨(hHead.write (Or.inl ?_)).write (Or.inl ?_), hTopic.write (Or.inl (Nat.le_refl _)), hPayload⟩
  · rw [RecordHeader.length_bytes]
  · rw [RecordHeader.length_bytes]
    omega

theorem appendRecord_size (hInside : h.writeOffset + message.totalLen ≤ file.size) :
    (ring.appendRecord file h message currentTimeMs).1.size = file.size := by
  have hTotal := message.totalLen_eq
  have hHead : ∀ r : RecordHeader, (file.write h.writeOffset r.bytes).size = file.size := by
    intro r
    apply ByteFile.size_write_inside
    rw [RecordHeader.length_bytes, sizeofRecordHeader]
    omega
  simp only [appendRecord]
  rw [ByteFile.size_write_inside, ByteFile.size_write_inside, hHead]
  · rw [hHead, sizeofRecordHeader]
    omega
  · rw [ByteFile.size_write_inside, hHead, sizeofRecordHeader]
    · omega
    · rw [hHead, sizeofRecordHeader]
      omega

theorem size_le_appendRecord : file.size ≤ (ring.appendRecord file h message currentTimeMs).1.size :=
  ((ByteFile.size_le_write.trans ByteFile.size_le_write).trans ByteFile.size_le_write)

theorem Header.Proper.appendRecord (proper : h.Proper ring) (file : ByteFile) (message : Message)
    (currentTimeMs : Int) : (ring.appendRecord file h message currentTimeMs).2.Proper ring where
  magic := proper.magic
  version := proper.version
  headerSize := proper.headerSize
  fileSize := proper.fileSize
  nextSeq := Nat.mod_lt _ (by decide)

theorem appendRecord_header {messages : List Message} (stores : Stores ring file h messages)
    (hRoom : h.usedBytes + message.totalLen + 32 ≤ ring.dataCapacity)
    (hEnd : h.writeOffset + message.totalLen ≤ ring.fileSizeBytes) :
    (ring.appendRecord file h message currentTimeMs).2 =
      { h with
        nextSeq := add64 h.nextSeq 1
        writeOffset := if h.writeOffset + message.totalLen = ring.fileSizeBytes then kHeaderSize
          else h.writeOffset + message.totalLen
        usedBytes := h.usedBytes + message.totalLen
        recordCount := messages.length + 1 } := by
  have hLt := ring.fileSize_lt
  have hCapacity := dataCapacity_lt ring
  have hBounds := stores.used_bounds
  have hNext : add64 h.writeOffset message.totalLen = h.writeOffset + message.totalLen := add64_eq (by omega)
  have hUsed : add64 h.usedBytes message.totalLen = h.usedBytes + message.totalLen := add64_eq (by omega)
  have hCount : add64 h.recordCount 1 = messages.length + 1 := by
    rw [stores.count_eq]
    exact add64_eq (by omega)
  have hWrap : (h.writeOffset + message.totalLen ≥ ring.fileSizeBytes) =
      (h.writeOffset + message.totalLen = ring.fileSizeBytes) := by
    apply propext
    omega
  simp only [appendRecord, hNext, hUsed, hCount, hWrap]
  rfl

theorem Linear.append_before_end {messages : List Message} (shape : Linear ring file h messages)
    (hShort : message.totalLen < 2 ^ 32) (hFile : ring.fileSizeBytes ≤ file.size)
    (hRoom : h.usedBytes + message.totalLen + 32 ≤ ring.dataCapacity)
    (hEnd : h.writeOffset + message.totalLen < ring.fileSizeBytes) :
    Linear ring (ring.appendRecord file h message currentTimeMs).1
        (ring.appendRecord file h message currentTimeMs).2 (messages ++ [message]) ∧
      (ring.appendRecord file h message currentTimeMs).2.writeOffset = h.writeOffset + message.totalLen := by
  have hHeader := @appendRecord_header _ _ _ _ currentTimeMs _ (.linear shape) hRoom hEnd.le
  have hRecord := @appendRecord_recordAt ring file h _ currentTimeMs hShort (shape.write_lt.le.trans hFile)
  obtain ⟨hBegin, hWrite, hChain, hUsed, hCount⟩ := shape
  have hKept := (@appendRecord_chain ring file h message currentTimeMs _ _ _ hChain
    (Or.inl (Nat.le_refl _))).snoc hRecord
  rw [if_neg hEnd.ne] at hHeader
  rw [hHeader]
  refine ⟨⟨hBegin, hEnd, hKept, ?_, ?_⟩, rfl⟩
  · simp only
    omega
  · simp

theorem Linear.append {messages : List Message} (shape : Linear ring file h messages)
    (hShort : message.totalLen < 2 ^ 32) (hFile : ring.fileSizeBytes ≤ file.size)
    (hRoom : h.usedBytes + message.totalLen + 32 ≤ ring.dataCapacity)
    (hEnd : h.writeOffset + message.totalLen ≤ ring.fileSizeBytes) :
    Stores ring (ring.appendRecord file h message currentTimeMs).1
      (ring.appendRecord file h message currentTimeMs).2 (messages ++ [message]) := by
  obtain hBefore | hFull := hEnd.lt_or_eq
  · exact .linear (shape.append_before_end hShort hFile hRoom hBefore).1
  · have hHeader := @appendRecord_header _ _ _ _ currentTimeMs _ (.linear shape) hRoom hEnd
    have hRecord := @appendRecord_recordAt ring file h _ currentTimeMs hShort (shape.write_lt.le.trans hFile)
    obtain ⟨hBegin, hWrite, hChain, hUsed, hCount⟩ := shape
    have hKept := (@appendRecord_chain ring file h message currentTimeMs _ _ _ hChain
      (Or.inl (Nat.le_refl _))).snoc hRecord
    have hLe := hChain.le
    rw [hHeader, if_pos hFull, ← List.append_nil (messages ++ [message])]
    refine .wrapped ⟨?_, hBegin, ⟨_, hKept, Or.inl hFull⟩, .nil _, ?_, ?_⟩
    · simp only
      omega
    · simp only
      omega
    · simp

theorem Wrapped.append {front back : List Message} (shape : Wrapped ring file h front back)
    (hShort : message.totalLen < 2 ^ 32) (hFile : ring.fileSizeBytes ≤ file.size)
    (hRoom : h.usedBytes + message.totalLen + 32 ≤ ring.dataCapacity) :
    Stores ring (ring.appendRecord file h message currentTimeMs).1
      (ring.appendRecord file h message currentTimeMs).2 (front ++ back ++ [message]) := by
  have hBefore : h.writeOffset + message.totalLen + 32 ≤ h.readOffset := by
    have hUsed := shape.used
    rw [dataCapacity] at hRoom
    omega
  have hInside := shape.read_lt
  have hHeader := @appendRecord_header _ _ _ message currentTimeMs _ (.wrapped shape) hRoom (by omega)
  have hRecord := @appendRecord_recordAt ring file h _ currentTimeMs hShort
    ((shape.write_le.trans shape.read_lt.le).trans hFile)
  obtain ⟨hRead, hWrite, ⟨turn, hFront, hTurn⟩, hBack, hUsed, hCount⟩ := shape
  have hLe := hFront.le
  have hFront' := @appendRecord_chain ring file h message currentTimeMs _ _ _ hFront (Or.inr (by omega))
  have hBack' := (@appendRecord_chain ring file h message currentTimeMs _ _ _ hBack
    (Or.inl (Nat.le_refl _))).snoc hRecord
  rw [hHeader, if_neg (by omega), List.append_assoc]
  refine .wrapped ⟨hRead, ?_, ⟨turn, hFront', ?_⟩, hBack', ?_, ?_⟩
  · simp only
    omega
  · obtain hEnd | ⟨hInside, hMarker, hHeld⟩ := hTurn
    · exact Or.inl hEnd
    · exact Or.inr ⟨hInside, hMarker, appendRecord_holds hHeld (Or.inr (by omega))⟩
  · simp only
    omega
  · simp only [List.length_append, List.length_singleton]
    omega

end Append

theorem contiguous_linear {messages : List Message} (shape : Linear ring file h messages) :
    ring.contiguousFreeAtEnd h = ring.fileSizeBytes - h.writeOffset := by
  have hLe := shape.chain.le
  rw [contiguousFreeAtEnd, if_pos hLe, sub64_eq shape.write_lt.le ring.fileSize_lt]

theorem contiguous_wrapped {front back : List Message} (shape : Wrapped ring file h front back)
    (hRoom : h.usedBytes + message.totalLen + 32 ≤ ring.dataCapacity) :
    message.totalLen ≤ ring.contiguousFreeAtEnd h := by
  have hUsed := shape.used
  rw [dataCapacity] at hRoom
  rw [contiguousFreeAtEnd, if_neg (by omega)]
  omega

theorem Linear.mark {messages : List Message} (shape : Linear ring file h messages)
    (hShort : message.totalLen < 2 ^ 32) (hFile : ring.fileSizeBytes ≤ file.size)
    (hFree : ring.contiguousFreeAtEnd h < message.totalLen) :
    Wrapped ring (ring.writeWrapMarker file h).1 (ring.writeWrapMarker file h).2 messages [] := by
  have hMarker : sub64 ring.fileSizeBytes h.writeOffset % 2 ^ 32 = ring.fileSizeBytes - h.writeOffset := by
    rw [sub64_eq shape.write_lt.le ring.fileSize_lt]
    rw [contiguous_linear shape] at hFree
    exact Nat.mod_eq_of_lt (by omega)
  rw [contiguous_linear shape] at hFree
  obtain ⟨hBegin, hWrite, hChain, hUsed, hCount⟩ := shape
  have hLt := ring.fileSize_lt
  have hLe := hChain.le
  have hFile' : (ring.writeWrapMarker file h).1 =
      file.write h.writeOffset (wrapMarker (ring.fileSizeBytes - h.writeOffset)).bytes := by
    rw [writeWrapMarker, hMarker]
    rfl
  have hHeader : (ring.writeWrapMarker file h).2 =
      { h with usedBytes := h.usedBytes + (ring.fileSizeBytes - h.writeOffset), writeOffset := kHeaderSize } := by
    rw [writeWrapMarker, hMarker, ← add64_eq (by omega : h.usedBytes + (ring.fileSizeBytes - h.writeOffset) < 2 ^ 64)]
    rfl
  rw [hFile', hHeader]
  refine ⟨?_, hBegin, ⟨h.writeOffset, hChain.write (Or.inl (Nat.le_refl _)), Or.inr ⟨hWrite, ?_, ?_⟩⟩,
    .nil _, ?_, ?_⟩
  · simp only
    omega
  · omega
  · exact ByteFile.holds_write (by omega)
  · simp only
    omega
  · exact hCount

theorem writeWrapMarker_proper (proper : h.Proper ring) : (ring.writeWrapMarker file h).2.Proper ring :=
  ⟨proper.magic, proper.version, proper.headerSize, proper.fileSize, proper.nextSeq⟩

section Write

variable {messages : List Message} {currentTimeMs : Int}

theorem Stores.append (stores : Stores ring file h messages) (hShort : message.totalLen < 2 ^ 32)
    (hFile : ring.fileSizeBytes ≤ file.size) (hRoom : h.usedBytes + message.totalLen + 32 ≤ ring.dataCapacity)
    (hFree : message.totalLen ≤ ring.contiguousFreeAtEnd h) :
    Stores ring (ring.appendRecord file h message currentTimeMs).1
        (ring.appendRecord file h message currentTimeMs).2 (messages ++ [message]) ∧
      (ring.appendRecord file h message currentTimeMs).2.usedBytes = h.usedBytes + message.totalLen ∧
      (ring.appendRecord file h message currentTimeMs).1.size = file.size := by
  have hEnd : h.writeOffset + message.totalLen ≤ ring.fileSizeBytes := by
    cases stores with
    | linear shape =>
      rw [contiguous_linear shape] at hFree
      have hWrite := shape.write_lt
      omega
    | wrapped shape =>
      have hUsed := shape.used
      have hRead := shape.read_lt
      rw [dataCapacity] at hRoom
      omega
  refine ⟨?_, ?_, appendRecord_size (by omega)⟩
  · cases stores with
    | linear shape => exact shape.append hShort hFile hRoom hEnd
    | wrapped shape => exact shape.append hShort hFile hRoom
  · rw [appendRecord_header stores hRoom hEnd]

structure Appended (ring : MqttRealtimeRingBuffer) (file : ByteFile) (h : Header) (messages : List Message)
    (message : Message) (written : Written) (rest : List Message) : Prop where
  messages_eq : messages = written.dropped ++ rest
  stores : Stores ring written.file written.header (rest ++ [message])
  proper : h.Proper ring → written.header.Proper ring
  used_le : written.header.usedBytes + 32 ≤ ring.dataCapacity
  size_le : file.size ≤ written.file.size
  inside : h.writeOffset + 32 ≤ ring.fileSizeBytes → written.file.size = file.size

structure Message.Fits (ring : MqttRealtimeRingBuffer) (message : Message) : Prop where
  max_le : message.totalLen ≤ ring.maxMessageBytes
  room : message.totalLen + 32 ≤ ring.dataCapacity

theorem Message.Fits.short (fits : message.Fits ring) : message.totalLen < 2 ^ 32 :=
  Nat.lt_of_le_of_lt fits.max_le ring.maxMessage_lt

theorem Message.Fits.accepted (fits : message.Fits ring) :
    ¬ (message.totalLen > ring.maxMessageBytes ∨ message.totalLen ≥ ring.dataCapacity) := by
  obtain ⟨hMax, hRoom⟩ := fits
  omega

theorem dataCapacity_lt_rounds (ring : MqttRealtimeRingBuffer) : ring.dataCapacity < rounds :=
  Nat.lt_succ_of_lt (dataCapacity_lt ring)

theorem writeRecord_spec (stores : Stores ring file h messages) (hFile : ring.fileSizeBytes ≤ file.size)
    (fits : message.Fits ring) {fuel : Nat} (hFuel : ring.dataCapacity < fuel) :
    ∃ written rest, ring.writeRecord fuel file h message currentTimeMs = some written ∧
      Appended ring file h messages message written rest := by
  obtain ⟨h₁, gone, rest, hEvict, stores₁, hEvicted⟩ := evict_spec (shrinks_stores ring file) fits.room fuel h
    messages [] stores (stores.used_bounds.2.trans_lt hFuel)
  rw [List.nil_append] at hEvict
  by_cases hFree : ring.contiguousFreeAtEnd h₁ < message.totalLen
  · -- The record does not fit before the end, so the ring is linear and gets a marker.
    have shape : Linear ring file h₁ rest := by
      cases stores₁ with
      | linear shape => exact shape
      | wrapped shape => exact absurd (contiguous_wrapped shape hEvicted.room) (Nat.not_le.mpr hFree)
    have marked : Stores ring (ring.writeWrapMarker file h₁).1 (ring.writeWrapMarker file h₁).2 rest := by
      have hMarked := Stores.wrapped (shape.mark fits.short hFile hFree)
      rwa [List.append_nil] at hMarked
    have hGrown : file.size ≤ (ring.writeWrapMarker file h₁).1.size := ByteFile.size_le_write
    obtain ⟨h₂, gone', rest', hEvict', stores₂, hEvicted'⟩ := evict_spec
      (shrinks_stores ring (ring.writeWrapMarker file h₁).1) fits.room fuel (ring.writeWrapMarker file h₁).2
      rest gone marked (marked.used_bounds.2.trans_lt hFuel)
    have hBegin : h₂.writeOffset = kHeaderSize := hEvicted'.write_eq
    have hFree' : message.totalLen ≤ ring.contiguousFreeAtEnd h₂ := by
      cases stores₂ with
      | linear shape =>
        have hRoom := fits.room
        rw [dataCapacity] at hRoom
        rw [contiguous_linear shape, hBegin]
        omega
      | wrapped shape => exact contiguous_wrapped shape hEvicted'.room
    obtain ⟨hStores, hUsed, hSize⟩ := @Stores.append _ _ _ _ _ currentTimeMs stores₂ fits.short
      (hFile.trans hGrown) hEvicted'.room hFree'
    refine ⟨⟨(ring.appendRecord (ring.writeWrapMarker file h₁).1 h₂ message currentTimeMs).1,
      (ring.appendRecord (ring.writeWrapMarker file h₁).1 h₂ message currentTimeMs).2, gone ++ gone'⟩,
      rest', ?_, ?_⟩
    · rw [writeRecord, if_neg fits.accepted, hEvict]
      simp only [bind, Option.bind, pure, if_pos hFree, hEvict']
    · refine ⟨?_, hStores, ?_, ?_, ?_, ?_⟩
      · rw [hEvicted.messages_eq, hEvicted'.messages_eq, List.append_assoc]
      · intro proper
        exact (hEvicted'.proper (writeWrapMarker_proper (hEvicted.proper proper))).appendRecord
          (ring.writeWrapMarker file h₁).1 message currentTimeMs
      · have hRoom := hEvicted'.room
        simp only
        omega
      · rw [hSize]
        exact hGrown
      · intro hInside
        rw [hSize]
        apply ByteFile.size_write_inside
        rw [RecordHeader.length_bytes, hEvicted.write_eq, sizeofRecordHeader]
        omega
  · obtain ⟨hStores, hUsed, hSize⟩ := @Stores.append _ _ _ _ _ currentTimeMs stores₁ fits.short hFile
      hEvicted.room (Nat.not_lt.mp hFree)
    refine ⟨⟨(ring.appendRecord file h₁ message currentTimeMs).1,
      (ring.appendRecord file h₁ message currentTimeMs).2, gone⟩, rest, ?_, ?_⟩
    · rw [writeRecord, if_neg fits.accepted, hEvict]
      simp only [bind, Option.bind, pure, if_neg hFree]
    · refine ⟨hEvicted.messages_eq, hStores, ?_, ?_, hSize.ge, fun _ => hSize⟩
      · intro proper
        exact (hEvicted.proper proper).appendRecord file message currentTimeMs
      · have hRoom := hEvicted.room
        simp only
        omega

theorem writeRecord_advances (shape : Linear ring file h messages) (hFile : ring.fileSizeBytes ≤ file.size)
    (fits : message.Fits ring) {fuel : Nat} (hFuel : ring.dataCapacity < fuel)
    (hEnd : h.writeOffset + message.totalLen < ring.fileSizeBytes) {written : Written}
    (hWritten : ring.writeRecord fuel file h message currentTimeMs = some written) :
    (∃ stored, Linear ring written.file written.header stored) ∧
      written.header.writeOffset = h.writeOffset + message.totalLen := by
  obtain ⟨h₁, gone, rest, hEvict, shape₁, hEvicted⟩ := evict_spec (shrinks_linear ring file) fits.room fuel h
    messages [] shape ((Stores.linear shape).used_bounds.2.trans_lt hFuel)
  have hFree : ¬ ring.contiguousFreeAtEnd h₁ < message.totalLen := by
    rw [contiguous_linear shape₁, hEvicted.write_eq]
    omega
  rw [writeRecord, if_neg fits.accepted, hEvict] at hWritten
  simp only [bind, Option.bind, pure, if_neg hFree] at hWritten
  obtain rfl := Option.some.inj hWritten
  obtain ⟨hShape, hNext⟩ := @Linear.append_before_end _ _ _ _ currentTimeMs _ shape₁ fits.short hFile
    hEvicted.room (by rw [hEvicted.write_eq]; exact hEnd)
  exact ⟨⟨_, hShape⟩, by rw [hNext, hEvicted.write_eq]⟩

/-- A linear ring that ends less than a marker before the end gets a marker past the end. -/
theorem writeRecord_grows (shape : Linear ring file h messages) (hFile : ring.fileSizeBytes ≤ file.size)
    (fits : message.Fits ring) {fuel : Nat} (hFuel : ring.dataCapacity < fuel)
    (hNear : ring.fileSizeBytes < h.writeOffset + 32) {written : Written}
    (hWritten : ring.writeRecord fuel file h message currentTimeMs = some written) :
    ring.fileSizeBytes < written.file.size := by
  obtain ⟨h₁, gone, rest, hEvict, shape₁, hEvicted⟩ := evict_spec (shrinks_linear ring file) fits.room fuel h
    messages [] shape ((Stores.linear shape).used_bounds.2.trans_lt hFuel)
  have hTotal := message.totalLen_eq
  have hFree : ring.contiguousFreeAtEnd h₁ < message.totalLen := by
    rw [contiguous_linear shape₁, hEvicted.write_eq]
    omega
  have hGrown : ring.fileSizeBytes < (ring.writeWrapMarker file h₁).1.size := by
    have hMarker := (@ByteFile.holds_write file h₁.writeOffset
      (RecordHeader.bytes ⟨kWrapMagic, sub64 ring.fileSizeBytes h₁.writeOffset % 2 ^ 32, 0, 0, 0, 0⟩)
      (shape₁.write_lt.le.trans hFile)).1
    rw [RecordHeader.length_bytes, sizeofRecordHeader, hEvicted.write_eq] at hMarker
    rw [writeWrapMarker, hEvicted.write_eq]
    exact Nat.lt_of_lt_of_le hNear hMarker
  rw [writeRecord, if_neg fits.accepted, hEvict] at hWritten
  simp only [bind, Option.bind, pure, if_pos hFree] at hWritten
  split at hWritten
  · cases hWritten
  · obtain rfl := Option.some.inj hWritten
    exact Nat.lt_of_lt_of_le hGrown (@size_le_appendRecord ring _ _ _ _)

end Write

section Refused

variable {currentTimeMs : Int}

theorem dropOldest_used_le : (ring.dropOldest file h).usedBytes ≤ h.usedBytes := by
  unfold dropOldest
  split
  · exact Nat.zero_le _
  · split
    · exact Nat.zero_le _
    · split
      · exact Nat.zero_le _
      · exact Nat.sub_le _ _

theorem evict_never {totalLen : Nat} (hNeed : ring.dataCapacity < totalLen + 32) (fuel : Nat) (h : Header)
    (dropped : List Message) (hUsed : h.usedBytes ≤ ring.dataCapacity) :
    ring.evict file totalLen fuel h dropped = none := by
  induction fuel generalizing h dropped with
  | zero => rfl
  | succ fuel ih =>
    rw [evict, sub64_eq hUsed (dataCapacity_lt ring), if_pos (by rw [sizeofRecordHeader]; omega)]
    exact ih _ _ (dropOldest_used_le.trans hUsed)

theorem writeRecord_not_fits (hFits : ¬ message.Fits ring) (hUsed : h.usedBytes ≤ ring.dataCapacity) (fuel : Nat) :
    ring.writeRecord fuel file h message currentTimeMs = some ⟨file, h, []⟩ ∨
      ring.writeRecord fuel file h message currentTimeMs = none := by
  by_cases hRefused : message.totalLen > ring.maxMessageBytes ∨ message.totalLen ≥ ring.dataCapacity
  · exact Or.inl (by rw [writeRecord, if_pos hRefused])
  · refine Or.inr ?_
    have hNeed : ring.dataCapacity < message.totalLen + 32 := by
      by_contra hRoom
      exact hFits ⟨by omega, by omega⟩
    rw [writeRecord, if_neg hRefused, evict_never hNeed fuel h [] hUsed]
    rfl

end Refused

section Replay

variable {messages : List Message}

theorem replayLoop_spec (limit fuel : Nat) (throwsAt : Option Nat) (h : Header) (messages sent : List Message)
    (stores : Stores ring file h messages) (hFuel : h.usedBytes < fuel) :
    (throwsAt ≠ none ∧ ∃ handed, ring.replayLoop file limit throwsAt fuel h sent = some (handed, none)) ∨
    ∃ h' now rest, ring.replayLoop file limit throwsAt fuel h sent = some (sent ++ now, some h') ∧
      messages = now ++ rest ∧ Stores ring file h' rest ∧ (h.Proper ring → h'.Proper ring) ∧
      h'.usedBytes ≤ h.usedBytes ∧ (limit ≤ sent.length + now.length ∨ rest = []) := by
  induction fuel generalizing h messages sent with
  | zero => omega
  | succ fuel ih =>
    rw [replayLoop]
    by_cases hMore : sent.length < limit ∧ h.recordCount > 0
    · rw [if_pos hMore]
      have hPositive : 0 < h.usedBytes := by
        have hBounds := stores.used_bounds
        rw [← stores.count_eq] at hBounds
        omega
      obtain ⟨rest, hRest, hDropped⟩ := stores.drop hPositive
      have hLess := hDropped.used_lt
      have hFirst := hDropped.messages_eq
      cases hRead : readRecord file h with
      | none =>
        rw [hRead, Option.toList_none, List.nil_append] at hFirst
        rcases ih (ring.dropOldest file h) rest sent hRest (by omega) with
          hThrown | ⟨h', now, rest', hLoop, hEq, hStores, hProper, hUsed, hEnd⟩
        · exact Or.inl hThrown
        · exact Or.inr ⟨h', now, rest', hLoop, hFirst.trans hEq, hStores,
            fun proper => hProper proper.dropOldest, by omega, hEnd⟩
      | some oldest =>
        rw [hRead, Option.toList_some] at hFirst
        by_cases hThrows : throwsAt = some sent.length
        · refine Or.inl ⟨by rw [hThrows]; exact Option.some_ne_none _, sent ++ [oldest], ?_⟩
          simp only [if_pos hThrows]
        · simp only [if_neg hThrows]
          rcases ih (ring.dropOldest file h) rest (sent ++ [oldest]) hRest (by omega) with
            hThrown | ⟨h', now, rest', hLoop, hEq, hStores, hProper, hUsed, hEnd⟩
          · exact Or.inl hThrown
          · refine Or.inr ⟨h', oldest :: now, rest', ?_, ?_, hStores, fun proper => hProper proper.dropOldest,
              by omega, ?_⟩
            · rw [hLoop, List.append_assoc]
              rfl
            · rw [hFirst, hEq]
              rfl
            · rw [List.length_append, List.length_singleton] at hEnd
              rw [List.length_cons]
              exact hEnd.imp (fun hLimit => by omega) id
    · rw [if_neg hMore]
      refine Or.inr ⟨h, [], messages, by rw [List.append_nil], rfl, stores, fun proper => proper,
        Nat.le_refl _, ?_⟩
      have hCount := stores.count_eq
      obtain hLimit | hLimit := Nat.lt_or_ge sent.length limit
      · exact Or.inr (List.eq_nil_of_length_eq_zero (by omega))
      · exact Or.inl (by simpa using hLimit)

end Replay

end EdgeGateway.Mqtt
