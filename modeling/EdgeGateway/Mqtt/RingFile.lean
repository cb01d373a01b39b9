import EdgeGateway.Foundation.Run
import EdgeGateway.Mqtt.RingOperations

/-! # The ring across calls -/

namespace EdgeGateway.Mqtt

open Bytes MqttRealtimeRingBuffer

section AcrossCalls

variable {ring : MqttRealtimeRingBuffer} {file : ByteFile} {h : Header} {messages : List Message}
  {message : Message}

theorem Header.length_bytes (hMagic : h.magic.length = 8) : h.bytes.length = sizeofHeader := by
  simp [Header.bytes, Header.fields, hMagic, sizeofHeader]

theorem Header.ofBytes_bytes (hMagic : h.magic.length = 8)
    (hFields : h.fields.map (fun field => field.2 % 256 ^ field.1) = h.fields.map Prod.snd) :
    Header.ofBytes h.bytes = h := by
  have hUnpack := unpack_pack h.fields
  rw [hFields] at hUnpack
  have hTake : h.bytes.take 8 = h.magic := by
    rw [Header.bytes, List.take_append_of_le_length hMagic.ge, List.take_of_length_le hMagic.le]
  have hDrop : h.bytes.drop 8 = pack h.fields := by
    rw [Header.bytes, List.drop_left' hMagic]
  have hWidths : h.fields.map Prod.fst = [4, 4, 8, 8, 8, 8, 8, 8] := rfl
  rw [Header.ofBytes, hTake, hDrop, ← hWidths, hUnpack]
  rfl

theorem Header.Proper.length_magic (proper : h.Proper ring) : h.magic.length = 8 := by
  rw [proper.magic]
  rfl

theorem Stores.offsets_lt (stores : Stores ring file h messages) :
    h.readOffset < ring.fileSizeBytes ∧ h.writeOffset < ring.fileSizeBytes := by
  cases stores with
  | linear shape =>
    have hLe := shape.chain.le
    have hWrite := shape.write_lt
    omega
  | wrapped shape =>
    have hRead := shape.read_lt
    have hWrite := shape.write_le
    omega

theorem Header.Proper.ofBytes_bytes (proper : h.Proper ring) (stores : Stores ring file h messages) :
    Header.ofBytes h.bytes = h := by
  apply Header.ofBytes_bytes proper.length_magic
  have hLt := ring.fileSize_lt
  have hCapacity := dataCapacity_lt ring
  have hBounds := stores.used_bounds
  have hCount := stores.count_eq
  have hOffsets := stores.offsets_lt
  have hFileSize := proper.fileSize
  have hSeq := proper.nextSeq
  have hLong : ∀ value, value < 2 ^ 64 → value % 256 ^ 8 = value := fun value hValue =>
    Nat.mod_eq_of_lt hValue
  have hVersion : h.version % 256 ^ 4 = h.version := by
    rw [proper.version]
    rfl
  have hHeaderSize : h.headerSize % 256 ^ 4 = h.headerSize := by
    rw [proper.headerSize]
    rfl
  simp only [Header.fields, List.map_cons, List.map_nil, hVersion, hHeaderSize]
  rw [hLong h.fileSize (by omega), hLong h.readOffset (by omega), hLong h.writeOffset (by omega),
    hLong h.usedBytes (by omega), hLong h.recordCount (by omega), hLong h.nextSeq hSeq]

theorem readHeader_of_holds (proper : h.Proper ring) (stores : Stores ring file h messages)
    (held : file.Holds 0 h.bytes) : readHeader file = some h := by
  have hRead := held.read
  rw [Header.length_bytes proper.length_magic] at hRead
  rw [readHeader, hRead, Option.map_some, proper.ofBytes_bytes stores]

structure Intact (ring : MqttRealtimeRingBuffer) (file : ByteFile) (h : Header) (messages : List Message) :
    Prop where
  header : readHeader file = some h
  proper : h.Proper ring
  stores : Stores ring file h messages
  used_le : h.usedBytes + 32 ≤ ring.dataCapacity
  size_ge : ring.fileSizeBytes ≤ file.size

theorem Chain.writeHeader {start stop : Nat} (chain : Chain file start stop messages) (hMagic : h.magic.length = 8)
    (hStart : kHeaderSize ≤ start) : Chain (writeHeader file h) start stop messages := by
  refine chain.write (Or.inr ?_)
  rw [Header.length_bytes hMagic, sizeofHeader]
  rw [kHeaderSize] at hStart
  omega

theorem Linear.writeHeader (shape : Linear ring file h messages) (hMagic : h.magic.length = 8) :
    Linear ring (writeHeader file h) h messages :=
  ⟨shape.begin_le, shape.write_lt, shape.chain.writeHeader hMagic shape.begin_le, shape.used, shape.count⟩

theorem Stores.writeHeader (stores : Stores ring file h messages) (hMagic : h.magic.length = 8) :
    Stores ring (writeHeader file h) h messages := by
  cases stores with
  | linear shape => exact .linear (shape.writeHeader hMagic)
  | wrapped shape =>
    obtain ⟨hRead, hWrite, ⟨turn, hFront, hTurn⟩, hBack, hUsed, hCount⟩ := shape
    have hBegin := hBack.le.trans hWrite
    refine .wrapped ⟨hRead, hWrite, ⟨turn, hFront.writeHeader hMagic hBegin, ?_⟩,
      hBack.writeHeader hMagic (Nat.le_refl _), hUsed, hCount⟩
    obtain hEnd | ⟨hInside, hShort, hHeld⟩ := hTurn
    · exact Or.inl hEnd
    · refine Or.inr ⟨hInside, hShort, hHeld.write (Or.inr ?_)⟩
      have hLe := hFront.le
      rw [Header.length_bytes hMagic, sizeofHeader]
      rw [kHeaderSize] at hBegin
      omega

theorem size_writeHeader (hMagic : h.magic.length = 8) (hFile : ring.fileSizeBytes ≤ file.size) :
    (writeHeader file h).size = file.size := by
  have hLt := kHeaderSize_lt ring
  apply ByteFile.size_write_inside
  rw [Header.length_bytes hMagic, sizeofHeader]
  omega

theorem intact_writeHeader (proper : h.Proper ring) (stores : Stores ring file h messages)
    (hUsed : h.usedBytes + 32 ≤ ring.dataCapacity) (hFile : ring.fileSizeBytes ≤ file.size) :
    Intact ring (writeHeader file h) h messages := by
  have hStores := stores.writeHeader proper.length_magic
  refine ⟨readHeader_of_holds proper hStores ?_, proper, hStores, hUsed, ?_⟩
  · exact ByteFile.holds_write (Nat.zero_le _)
  · rw [size_writeHeader proper.length_magic hFile]
    exact hFile

section Calls

variable {currentTimeMs : Int}

theorem Intact.enqueue (intact : Intact ring file h messages) (fits : message.Fits ring) :
    ∃ file' h' dropped rest, ring.enqueue file message currentTimeMs = some (file', dropped) ∧
      messages = dropped ++ rest ∧ Intact ring file' h' (rest ++ [message]) ∧
      (h.writeOffset + 32 ≤ ring.fileSizeBytes → file'.size = file.size) := by
  obtain ⟨hHeader, hProper, hStores, hUsed, hFile⟩ := intact
  obtain ⟨written, rest, hWritten, hAppended⟩ := @writeRecord_spec _ _ _ _ _ currentTimeMs hStores hFile fits _
    (dataCapacity_lt_rounds ring)
  have hProper' := hAppended.proper hProper
  have hFile' := hFile.trans hAppended.size_le
  refine ⟨writeHeader written.file written.header, written.header, written.dropped, rest, ?_,
    hAppended.messages_eq, intact_writeHeader hProper' hAppended.stores hAppended.used_le hFile', ?_⟩
  · rw [MqttRealtimeRingBuffer.enqueue, hHeader]
    simp only [bind, Option.bind, hWritten, pure]
  · intro hClear
    rw [size_writeHeader hProper'.length_magic hFile', hAppended.inside hClear]

theorem Intact.replay (intact : Intact ring file h messages) (throwsAt : Option Nat) :
    (throwsAt ≠ none ∧ ∃ handed, ring.replay file throwsAt = some (file, handed)) ∨
    ∃ file' h' sent rest, ring.replay file throwsAt = some (file', sent) ∧ messages = sent ++ rest ∧
      Intact ring file' h' rest ∧ file'.size = file.size := by
  obtain ⟨hHeader, hProper, hStores, hUsed, hFile⟩ := intact
  rcases replayLoop_spec ring.replayBatchSize rounds throwsAt h messages [] hStores
      (hStores.used_bounds.2.trans_lt (dataCapacity_lt_rounds ring)) with
    ⟨hThrows, handed, hLoop⟩ | ⟨h', sent, rest, hLoop, hEq, hStores', hKeeps, hLess, -⟩
  · refine Or.inl ⟨hThrows, handed, ?_⟩
    rw [MqttRealtimeRingBuffer.replay, hHeader]
    simp only [bind, Option.bind, hLoop, pure]
  · rw [List.nil_append] at hLoop
    have hProper' := hKeeps hProper
    refine Or.inr ⟨writeHeader file h', h', sent, rest, ?_, hEq,
      intact_writeHeader hProper' hStores' (by omega) hFile, size_writeHeader hProper'.length_magic hFile⟩
    rw [MqttRealtimeRingBuffer.replay, hHeader]
    simp only [bind, Option.bind, hLoop, pure]

theorem Intact.storedMessages (intact : Intact ring file h messages) : ring.storedMessages file = some messages := by
  obtain ⟨hHeader, hProper, hStores, hUsed, hFile⟩ := intact
  have hBounds := hStores.used_bounds
  have hCapacity : ring.dataCapacity ≤ ring.fileSizeBytes := Nat.sub_le _ _
  rcases replayLoop_spec ring.fileSizeBytes rounds none h messages [] hStores
      (hBounds.2.trans_lt (dataCapacity_lt_rounds ring)) with
    ⟨hThrows, -⟩ | ⟨h', sent, rest, hLoop, hEq, -, -, -, hEnd⟩
  · exact absurd rfl hThrows
  · have hAll : rest = [] := by
      refine hEnd.resolve_left fun hLimit => ?_
      rw [hEq, List.length_append] at hBounds
      rw [List.length_nil] at hLimit
      have hLarge := ring.fileSize_ge
      omega
    rw [hAll, List.append_nil] at hEq
    rw [List.nil_append, ← hEq] at hLoop
    rw [MqttRealtimeRingBuffer.storedMessages, hHeader]
    simp only [bind, Option.bind, hLoop, pure]

end Calls

theorem cleanHeader_proper (ring : MqttRealtimeRingBuffer) : ring.cleanHeader.Proper ring :=
  ⟨rfl, rfl, rfl, rfl, Nat.two_pow_pos 64⟩

theorem size_cleanFile (ring : MqttRealtimeRingBuffer) : ring.cleanFile.size = ring.fileSizeBytes := by
  have hLt := kHeaderSize_lt ring
  have hHead := Header.length_bytes (cleanHeader_proper ring).length_magic
  rw [sizeofHeader] at hHead
  rw [kHeaderSize] at hLt
  have hZeros : (List.replicate (kHeaderSize - sizeofHeader) (0 : UInt8)).length = 4032 := List.length_replicate
  rw [cleanFile, ByteFile.size_write (by simp), ByteFile.size_write (by rw [hZeros]; decide),
    ByteFile.size_write (by rw [hHead]; decide), hHead, hZeros, List.length_singleton, ByteFile.empty, sizeofHeader]
  simp only
  omega

theorem intact_cleanFile (ring : MqttRealtimeRingBuffer) : Intact ring ring.cleanFile ring.cleanHeader [] := by
  have hLt := kHeaderSize_lt ring
  have hProper := cleanHeader_proper ring
  have hHead := Header.length_bytes hProper.length_magic
  have hStores : Stores ring ring.cleanFile ring.cleanHeader [] :=
    .linear ⟨Nat.le_refl _, by simp only [cleanHeader]; omega, .nil _, rfl, rfl⟩
  refine ⟨readHeader_of_holds hProper hStores ?_, hProper, hStores, ?_, (size_cleanFile ring).ge⟩
  · have hHeld : (ByteFile.empty.write 0 ring.cleanHeader.bytes).Holds 0 ring.cleanHeader.bytes :=
      ByteFile.holds_write (Nat.zero_le _)
    rw [kHeaderSize] at hLt
    refine (hHeld.write (Or.inl ?_)).write (Or.inl ?_)
    · rw [hHead, Nat.zero_add]
    · rw [hHead, sizeofHeader]
      omega
  · rw [dataCapacity]
    simp only [cleanHeader]
    omega

end AcrossCalls

/-! ## First in, first out

A history keeps the messages enqueued and a log of how messages left the ring: handed to `send`, or
evicted by `dropOldest`. The log followed by what is stored is the enqueued sequence.
-/

inductive Departure where
  | sent (message : Message)
  | evicted (message : Message)
deriving DecidableEq, Repr

namespace Departure

def message : Departure → Message
  | .sent message => message
  | .evicted message => message

def handed : Departure → Option Message
  | .sent message => some message
  | .evicted _ => none

end Departure

inductive RingCall where
  | enqueue (message : Message) (currentTimeMs : Int)
  | replay (throwsAt : Option Nat)
deriving DecidableEq, Repr

structure RingHistory where
  file : ByteFile
  enqueued : List Message
  log : List Departure

namespace RingHistory

def handed (s : RingHistory) : List Message := s.log.filterMap Departure.handed

def start (ring : MqttRealtimeRingBuffer) : RingHistory := ⟨ring.cleanFile, [], []⟩

def step (ring : MqttRealtimeRingBuffer) (s : RingHistory) : RingCall → Option RingHistory
  | .enqueue message currentTimeMs => do
    let (file, dropped) ← ring.enqueue s.file message currentTimeMs
    return ⟨file, s.enqueued ++ [message], s.log ++ dropped.map .evicted⟩
  | .replay throwsAt => do
    let (file, sent) ← ring.replay s.file throwsAt
    return ⟨file, s.enqueued, s.log ++ sent.map .sent⟩

end RingHistory

def RingCall.Admissible (ring : MqttRealtimeRingBuffer) : RingCall → Prop
  | .enqueue message _ => message.Fits ring
  | .replay throwsAt => throwsAt = none

theorem handed_sublist (log : List Departure) : (log.filterMap Departure.handed).Sublist (log.map Departure.message) := by
  induction log with
  | nil => exact List.Sublist.slnil
  | cons departure log ih =>
    cases departure with
    | sent message => exact ih.cons_cons message
    | evicted message => exact ih.cons message

theorem map_message_evicted (messages : List Message) :
    (messages.map Departure.evicted).map Departure.message = messages := by
  simp [Departure.message, Function.comp_def]

theorem map_message_sent (messages : List Message) :
    (messages.map Departure.sent).map Departure.message = messages := by
  simp [Departure.message, Function.comp_def]

namespace RingHistory

variable {ring : MqttRealtimeRingBuffer}

theorem step_enqueue (s : RingHistory) {message : Message} {currentTimeMs : Int} {file : ByteFile}
    {dropped : List Message} (hEnqueue : ring.enqueue s.file message currentTimeMs = some (file, dropped)) :
    step ring s (.enqueue message currentTimeMs) =
      some ⟨file, s.enqueued ++ [message], s.log ++ dropped.map .evicted⟩ := by
  simp only [step, hEnqueue, bind, Option.bind, pure]

/-- What is accounted for: the log and the stored messages are the enqueued ones, in order. -/
def Accounted (ring : MqttRealtimeRingBuffer) (s : RingHistory) : Prop :=
  ∃ h stored, Intact ring s.file h stored ∧ s.log.map Departure.message ++ stored = s.enqueued

theorem Accounted.step {s : RingHistory} {call : RingCall} (accounted : s.Accounted ring)
    (admissible : call.Admissible ring) : ∃ t, RingHistory.step ring s call = some t ∧ t.Accounted ring := by
  obtain ⟨h, stored, intact, hLog⟩ := accounted
  cases call with
  | enqueue message currentTimeMs =>
    obtain ⟨file, h', dropped, rest, hEnqueue, hEq, intact', -⟩ :=
      @Intact.enqueue _ _ _ _ _ currentTimeMs intact admissible
    refine ⟨_, step_enqueue s hEnqueue, h', rest ++ [message], intact', ?_⟩
    · rw [List.map_append, map_message_evicted, List.append_assoc, ← List.append_assoc dropped, ← hEq,
        ← List.append_assoc, hLog]
  | replay throwsAt =>
    obtain ⟨hThrows, -⟩ | ⟨file, h', sent, rest, hReplay, hEq, intact', -⟩ := intact.replay throwsAt
    · exact absurd admissible hThrows
    · refine ⟨⟨file, s.enqueued, s.log ++ sent.map .sent⟩, ?_, h', rest, intact', ?_⟩
      · simp only [RingHistory.step, hReplay, bind, Option.bind, pure]
      · rw [List.map_append, map_message_sent, List.append_assoc, ← hEq, hLog]

theorem start_accounted (ring : MqttRealtimeRingBuffer) : (start ring).Accounted ring :=
  ⟨ring.cleanHeader, [], intact_cleanFile ring, rfl⟩

/-- Messages leave the ring in the order they came in, each once, sent or evicted; the others are stored and
    counted. -/
structure Fifo (ring : MqttRealtimeRingBuffer) (s : RingHistory) (stored : List Message) : Prop where
  readable : ring.storedMessages s.file = some stored
  accounted : s.log.map Departure.message ++ stored = s.enqueued
  order : (s.handed ++ stored).Sublist s.enqueued
  count : (readHeader s.file).map Header.recordCount = some stored.length

/-- Every sequence of admissible calls returns and leaves the ring in order, also on a file left by others. -/
theorem fifo_of_admissible (ring : MqttRealtimeRingBuffer) (calls : List RingCall)
    (hAdmissible : ∀ call ∈ calls, call.Admissible ring) :
    ∃ s, Run.reach (step ring) (start ring) calls = some s ∧ ∃ stored, s.Fifo ring stored := by
  obtain ⟨s, hReach, h, stored, intact, hLog⟩ := Run.reach_total (step ring) (Accounted ring)
    (start_accounted ring) (fun _ _ accounted admissible => accounted.step admissible) hAdmissible
  refine ⟨s, hReach, stored, intact.storedMessages, hLog, ?_, ?_⟩
  · rw [← hLog]
    exact (handed_sublist s.log).append (List.Sublist.refl stored)
  · rw [intact.header, Option.map_some, intact.stores.count_eq]

theorem fifo_of_one_message :
    (⟨[1], [2]⟩ : Message).Fits (.make 0 0 0) ∧
      ∃ s, Run.reach (step (.make 0 0 0)) (start (.make 0 0 0)) [.enqueue ⟨[1], [2]⟩ 1000, .replay none] = some s ∧
        ∃ stored, s.Fifo (.make 0 0 0) stored := by
  have fits : (⟨[1], [2]⟩ : Message).Fits (.make 0 0 0) := ⟨by decide, by decide⟩
  refine ⟨fits, fifo_of_admissible _ _ ?_⟩
  intro call hCall
  obtain rfl | hCall := List.mem_cons.mp hCall
  · exact fits
  · obtain rfl := List.mem_singleton.mp hCall
    rfl

end RingHistory

end EdgeGateway.Mqtt
