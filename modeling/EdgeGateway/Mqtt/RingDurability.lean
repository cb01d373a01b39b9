import EdgeGateway.Mqtt.RingFile

/-! # Durability -/

namespace EdgeGateway.Mqtt

open MqttRealtimeRingBuffer

variable {ring : MqttRealtimeRingBuffer} {file : ByteFile} {h : Header} {messages : List Message}
  {message : Message} {currentTimeMs : Int}

theorem Intact.ensureInitialized (intact : Intact ring file h messages) (hSize : file.size = ring.fileSizeBytes) :
    ring.ensureInitialized file = some file := by
  have hMagic : h.magic.take 7 = kRingMagic := by
    rw [intact.proper.magic]
    rfl
  rw [MqttRealtimeRingBuffer.ensureInitialized, if_neg (by simp [hSize]), intact.header, Option.map_some,
    if_neg (by simp [hMagic, intact.proper.fileSize])]

theorem ensureInitialized_foreign (hSize : file.size ≠ ring.fileSizeBytes) :
    ring.ensureInitialized file = some ring.cleanFile := by
  rw [MqttRealtimeRingBuffer.ensureInitialized, if_pos hSize]

theorem Intact.enqueue_not_fits (intact : Intact ring file h messages) (hFits : ¬ message.Fits ring) :
    ring.enqueue file message currentTimeMs = none ∨
      ring.enqueue file message currentTimeMs = some (writeHeader file h, []) := by
  rcases @writeRecord_not_fits _ file h _ currentTimeMs hFits intact.stores.used_bounds.2 rounds with
    hWritten | hWritten
  · refine Or.inr ?_
    rw [MqttRealtimeRingBuffer.enqueue, intact.header]
    simp only [bind, Option.bind, hWritten, pure]
  · refine Or.inl ?_
    rw [MqttRealtimeRingBuffer.enqueue, intact.header]
    simp only [bind, Option.bind, hWritten]

theorem Intact.linear_of_near (intact : Intact ring file h messages)
    (hNear : ring.fileSizeBytes < h.writeOffset + 32) : Linear ring file h messages := by
  have hUsed := intact.used_le
  have hStores := intact.stores
  cases hStores with
  | linear shape => exact shape
  | wrapped shape =>
    have hRead := shape.read_lt
    have hUsedEq := shape.used
    rw [dataCapacity] at hUsed
    omega

theorem Intact.enqueue_returns (intact : Intact ring file h messages) {file' : ByteFile} {dropped : List Message}
    (hEnqueue : ring.enqueue file message currentTimeMs = some (file', dropped)) :
    ∃ written, ring.writeRecord rounds file h message currentTimeMs = some written ∧
      file' = writeHeader written.file written.header := by
  rw [MqttRealtimeRingBuffer.enqueue, intact.header] at hEnqueue
  obtain ⟨h', hHeader, hWrite⟩ := Option.bind_eq_some_iff.mp hEnqueue
  obtain ⟨written, hWritten, hReturn⟩ := Option.bind_eq_some_iff.mp hWrite
  obtain rfl := Option.some.inj hHeader
  obtain ⟨hFile, -⟩ := Prod.mk.inj (Option.some.inj hReturn)
  exact ⟨written, hWritten, hFile.symm⟩

theorem Intact.enqueue_grows (intact : Intact ring file h messages) (fits : message.Fits ring)
    (hNear : ring.fileSizeBytes < h.writeOffset + 32) {file' : ByteFile} {dropped : List Message}
    (hEnqueue : ring.enqueue file message currentTimeMs = some (file', dropped)) :
    ring.fileSizeBytes < file'.size := by
  obtain ⟨written, hWritten, rfl⟩ := intact.enqueue_returns hEnqueue
  exact Nat.lt_of_lt_of_le
    (writeRecord_grows (intact.linear_of_near hNear) intact.size_ge fits (dataCapacity_lt_rounds ring) hNear hWritten)
    ByteFile.size_le_write

namespace RingHistory

structure Durable (ring : MqttRealtimeRingBuffer) (s : RingHistory) : Prop where
  size_eq : s.file.size = ring.fileSizeBytes
  reopened : ∃ stored, ring.storedMessages s.file = some stored ∧
    (ring.ensureInitialized s.file).bind ring.storedMessages = some stored

/-- An enqueue of a record that fits finds a marker's length before the end of the file. -/
def EndsClear (ring : MqttRealtimeRingBuffer) (s : RingHistory) : RingCall → Prop
  | .enqueue message _ => message.Fits ring →
      ∀ h, readHeader s.file = some h → h.writeOffset + sizeofRecordHeader ≤ ring.fileSizeBytes
  | .replay _ => True

theorem durable_of_intact {s : RingHistory} (intact : Intact ring s.file h messages)
    (hSize : s.file.size = ring.fileSizeBytes) : s.Durable ring := by
  refine ⟨hSize, messages, intact.storedMessages, ?_⟩
  rw [intact.ensureInitialized hSize]
  exact intact.storedMessages

theorem step_intact {s t : RingHistory} {call : RingCall} (intact : Intact ring s.file h messages)
    (hStep : step ring s call = some t) :
    (∃ h' stored, Intact ring t.file h' stored) ∧ (s.EndsClear ring call → t.file.size = s.file.size) := by
  cases call with
  | enqueue message currentTimeMs =>
    obtain ⟨⟨file, dropped⟩, hEnqueue, hReturn⟩ := Option.bind_eq_some_iff.mp hStep
    obtain rfl := Option.some.inj hReturn
    by_cases fits : message.Fits ring
    · obtain ⟨file', h', dropped', rest, hEnqueue', -, intact', hSize⟩ :=
        @Intact.enqueue _ _ _ _ _ currentTimeMs intact fits
      obtain ⟨rfl, -⟩ := Prod.mk.inj (Option.some.inj (hEnqueue.symm.trans hEnqueue'))
      exact ⟨⟨h', _, intact'⟩, fun hClear => hSize (hClear fits h intact.header)⟩
    · obtain hNone | hSame := @Intact.enqueue_not_fits _ _ _ _ _ currentTimeMs intact fits
      · rw [hNone] at hEnqueue
        cases hEnqueue
      · obtain ⟨rfl, -⟩ := Prod.mk.inj (Option.some.inj (hEnqueue.symm.trans hSame))
        exact ⟨⟨h, messages, intact_writeHeader intact.proper intact.stores intact.used_le intact.size_ge⟩,
          fun _ => size_writeHeader intact.proper.length_magic intact.size_ge⟩
  | replay throwsAt =>
    obtain ⟨⟨file, sent⟩, hReplay, hReturn⟩ := Option.bind_eq_some_iff.mp hStep
    obtain rfl := Option.some.inj hReturn
    obtain ⟨-, handed, hThrown⟩ | ⟨file', h', sent', rest, hReturned, -, intact', hSize⟩ := intact.replay throwsAt
    · obtain ⟨rfl, -⟩ := Prod.mk.inj (Option.some.inj (hReplay.symm.trans hThrown))
      exact ⟨⟨h, messages, intact⟩, fun _ => rfl⟩
    · obtain ⟨rfl, -⟩ := Prod.mk.inj (Option.some.inj (hReplay.symm.trans hReturned))
      exact ⟨⟨h', rest, intact'⟩, fun _ => hSize⟩

theorem endsClear_of_size {s : RingHistory} {call : RingCall} (intact : Intact ring s.file h messages)
    (hSize : ∀ t, step ring s call = some t → t.file.size = ring.fileSizeBytes) : s.EndsClear ring call := by
  cases call with
  | replay throwsAt => trivial
  | enqueue message currentTimeMs =>
    intro fits h' hHeader
    obtain rfl := Option.some.inj (intact.header.symm.trans hHeader)
    by_contra hNear
    rw [sizeofRecordHeader] at hNear
    obtain ⟨file, h₁, dropped, rest, hEnqueue, -, -, -⟩ := @Intact.enqueue _ _ _ _ _ currentTimeMs intact fits
    have hGrows := intact.enqueue_grows fits (Nat.lt_of_not_le hNear) hEnqueue
    exact absurd (hSize _ (step_enqueue s hEnqueue)) hGrows.ne'

theorem start_intact (ring : MqttRealtimeRingBuffer) :
    Intact ring (start ring).file ring.cleanHeader [] := intact_cleanFile ring

/-- In every run, the ring is durable in all states exactly when every enqueue ends clear. -/
theorem durable_throughout_iff (ring : MqttRealtimeRingBuffer) (calls : List RingCall) :
    (∀ done, done <+: calls → ∀ s, Run.reach (step ring) (start ring) done = some s → s.Durable ring) ↔
      Run.Met (step ring) (EndsClear ring) (start ring) calls := by
  constructor
  · intro hDurable done call hDone s hReach
    obtain ⟨h, stored, intact⟩ := Run.invariant_reach (step ring) (fun _ _ => True)
      (fun s => ∃ h stored, Intact ring s.file h stored) ⟨_, _, start_intact ring⟩
      (fun _ _ _ ⟨_, _, intact⟩ _ hStep => (step_intact intact hStep).1) (fun _ _ _ _ _ => trivial) done
      (List.prefix_refl done) s hReach
    apply endsClear_of_size intact
    intro t hStep
    refine (hDurable _ hDone t ?_).size_eq
    rw [Run.reach_snoc, hReach]
    exact hStep
  · intro hMet done hDone s hReach
    obtain ⟨⟨h, stored, intact⟩, hSize⟩ := Run.invariant_reach (step ring) (EndsClear ring)
      (fun s => (∃ h stored, Intact ring s.file h stored) ∧ s.file.size = ring.fileSizeBytes)
      ⟨⟨_, _, start_intact ring⟩, size_cleanFile ring⟩
      (fun _ _ _ ⟨⟨_, _, intact⟩, hSize⟩ hClear hStep =>
        ⟨(step_intact intact hStep).1, ((step_intact intact hStep).2 hClear).trans hSize⟩)
      hMet done hDone s hReach
    exact durable_of_intact intact hSize

end RingHistory

def smallRing : MqttRealtimeRingBuffer := .make 0 0x1000000 1

def filler (length : Nat) : Message := ⟨[], List.replicate length 0⟩

theorem filler_totalLen (length : Nat) : (filler length).totalLen = 32 + length := by
  rw [Message.totalLen_eq, filler, List.length_replicate, List.length_nil]

theorem filler_fits {length : Nat} (hLength : length ≤ 16773056) : (filler length).Fits smallRing := by
  constructor
  · rw [filler_totalLen]
    exact (by omega : 32 + length ≤ 16777216)
  · rw [filler_totalLen]
    exact (by omega : 32 + length + 32 ≤ 16773120)

/-- An enqueue on a linear ring that ends before the end of the file only moves the write offset. -/
theorem Intact.enqueue_advances (intact : Intact ring file h messages) (shape : Linear ring file h messages)
    (fits : message.Fits ring) (hEnd : h.writeOffset + message.totalLen < ring.fileSizeBytes)
    (currentTimeMs : Int) :
    ∃ file' h' dropped stored, ring.enqueue file message currentTimeMs = some (file', dropped) ∧
      Intact ring file' h' stored ∧ Linear ring file' h' stored ∧
      h'.writeOffset = h.writeOffset + message.totalLen := by
  obtain ⟨written, rest, hWritten, hAppended⟩ := @writeRecord_spec _ _ _ _ _ currentTimeMs intact.stores
    intact.size_ge fits _ (dataCapacity_lt_rounds ring)
  obtain ⟨⟨stored, hShape⟩, hNext⟩ := writeRecord_advances shape intact.size_ge fits
    (dataCapacity_lt_rounds ring) hEnd hWritten
  have hProper := hAppended.proper intact.proper
  refine ⟨writeHeader written.file written.header, written.header, written.dropped, stored, ?_, ?_, ?_, hNext⟩
  · rw [MqttRealtimeRingBuffer.enqueue, intact.header]
    simp only [bind, Option.bind, hWritten, pure]
  · exact intact_writeHeader hProper (.linear hShape) hAppended.used_le (intact.size_ge.trans hAppended.size_le)
  · exact hShape.writeHeader hProper.length_magic

def nearEnd : List RingCall :=
  [.enqueue (filler 0) 1, .enqueue (filler 16773048) 2, .enqueue (filler 0) 3]

/-- The file has grown, and a new buffer on it has lost the stored message. -/
theorem nearEnd_not_durable :
    ∃ s, Run.reach (RingHistory.step smallRing) (RingHistory.start smallRing) nearEnd = some s ∧
      ¬ s.Durable smallRing ∧ smallRing.storedMessages s.file ≠ some [] ∧
      (smallRing.ensureInitialized s.file).bind smallRing.storedMessages = some [] := by
  have hSize : smallRing.fileSizeBytes = 16777216 := rfl
  have hClean := intact_cleanFile smallRing
  have hStart : Linear smallRing smallRing.cleanFile smallRing.cleanHeader [] :=
    ⟨Nat.le_refl _, by rw [hSize]; decide, .nil _, rfl, rfl⟩
  have hBegin : smallRing.cleanHeader.writeOffset = 4096 := rfl
  obtain ⟨file₁, h₁, dropped₁, stored₁, hFirst, intact₁, shape₁, hWrite₁⟩ := hClean.enqueue_advances hStart
    (filler_fits (Nat.zero_le _)) (by rw [filler_totalLen, hBegin, hSize]; decide) 1
  rw [filler_totalLen, hBegin] at hWrite₁
  obtain ⟨file₂, h₂, dropped₂, stored₂, hSecond, intact₂, -, hWrite₂⟩ := intact₁.enqueue_advances shape₁
    (filler_fits (by decide : 16773048 ≤ 16773056)) (by rw [filler_totalLen, hWrite₁, hSize]; decide) 2
  rw [filler_totalLen, hWrite₁] at hWrite₂
  obtain ⟨file₃, h₃, dropped₃, rest₃, hThird, -, intact₃, -⟩ :=
    @Intact.enqueue _ _ _ _ _ 3 intact₂ (filler_fits (Nat.zero_le 16773056))
  have hGrows := intact₂.enqueue_grows (filler_fits (Nat.zero_le _)) (by rw [hWrite₂, hSize]; decide) hThird
  refine ⟨⟨file₃, (RingHistory.start smallRing).enqueued ++ [filler 0] ++ [filler 16773048] ++ [filler 0],
    (RingHistory.start smallRing).log ++ dropped₁.map .evicted ++ dropped₂.map .evicted ++
      dropped₃.map .evicted⟩, ?_, ?_, ?_, ?_⟩
  · rw [nearEnd, Run.reach_cons, RingHistory.step_enqueue (.start smallRing) hFirst, Option.bind_some,
      Run.reach_cons, RingHistory.step_enqueue ⟨file₁, _, _⟩ hSecond, Option.bind_some, Run.reach_cons,
      RingHistory.step_enqueue ⟨file₂, _, _⟩ hThird, Option.bind_some]
    rfl
  · intro durable
    exact absurd durable.size_eq hGrows.ne'
  · rw [intact₃.storedMessages]
    simp
  · rw [ensureInitialized_foreign hGrows.ne', Option.bind_some]
    exact hClean.storedMessages

/-! ## When an enqueue returns

The eviction loops ask for room for the record and a marker, the guard only for the record. A record
in between is accepted and its loop waits for ever.
-/

open Bytes

def Message.Oversized (ring : MqttRealtimeRingBuffer) (message : Message) : Prop :=
  message.totalLen > ring.maxMessageBytes ∨ message.totalLen ≥ ring.dataCapacity

instance : Decidable (message.Oversized ring) := inferInstanceAs (Decidable (_ ∨ _))

structure Message.Tight (ring : MqttRealtimeRingBuffer) (message : Message) : Prop where
  max_le : message.totalLen ≤ ring.maxMessageBytes
  lt : message.totalLen < ring.dataCapacity
  no_room : ring.dataCapacity < message.totalLen + sizeofRecordHeader

theorem Message.fits_of_not_tight (hTight : ¬message.Tight ring) (hAccepted : ¬message.Oversized ring) :
    message.Fits ring := by
  rw [Message.Oversized, not_or] at hAccepted
  refine ⟨Nat.not_lt.mp hAccepted.1, ?_⟩
  by_contra hRoom
  exact hTight ⟨Nat.not_lt.mp hAccepted.1, Nat.not_le.mp hAccepted.2, Nat.not_le.mp hRoom⟩

theorem Message.Tight.not_oversized (tight : message.Tight ring) : ¬message.Oversized ring := by
  rintro (hMax | hCapacity)
  · exact absurd tight.max_le (Nat.not_le.mpr hMax)
  · exact absurd tight.lt (Nat.not_lt.mpr hCapacity)

/-- Every call of `dropOldest` frees something while something is in use, whatever the file holds at
the read offset. -/
theorem dropOldest_used_lt (hUsed : 0 < h.usedBytes) : (ring.dropOldest file h).usedBytes < h.usedBytes := by
  rw [dropOldest]
  split
  · exact hUsed
  · split
    · exact hUsed
    · next record _ =>
      split
      · exact hUsed
      · next hRecord =>
        obtain ⟨hLength, -⟩ := not_or.mp hRecord
        show h.usedBytes - min h.usedBytes record.totalLen < h.usedBytes
        omega

theorem evict_ends {totalLen : Nat} (hRoom : totalLen + sizeofRecordHeader ≤ ring.dataCapacity) (fuel : Nat) (h : Header)
    (dropped : List Message) (hUsed : h.usedBytes < fuel) :
    ∃ h' dropped', ring.evict file totalLen fuel h dropped = some (h', dropped') ∧ h'.usedBytes ≤ h.usedBytes := by
  induction fuel generalizing h dropped with
  | zero => exact absurd hUsed (Nat.not_lt_zero _)
  | succ fuel ih =>
    rw [evict]
    split
    · next hFull =>
      have hPos : 0 < h.usedBytes := by
        rw [Nat.pos_iff_ne_zero]
        intro hZero
        rw [hZero, sub64_eq (Nat.zero_le _) (dataCapacity_lt ring), Nat.sub_zero] at hFull
        omega
      have hLess := @dropOldest_used_lt ring file h hPos
      obtain ⟨h', dropped', hEvict, hLe⟩ := ih (ring.dropOldest file h) _ (by omega)
      exact ⟨h', dropped', hEvict, hLe.trans hLess.le⟩
    · exact ⟨h, dropped, rfl, Nat.le_refl _⟩

theorem add64_lt (a b : Nat) : add64 a b < 2 ^ 64 := Nat.mod_lt _ (by decide)

theorem writeRecord_ends (hUsed : h.usedBytes < 2 ^ 64) (hTight : ¬message.Tight ring) :
    ∃ written, ring.writeRecord rounds file h message currentTimeMs = some written := by
  rw [writeRecord]
  split
  · exact ⟨_, rfl⟩
  · next hAccepted =>
    have fits := Message.fits_of_not_tight hTight hAccepted
    obtain ⟨h₁, dropped₁, hFirst, -⟩ := @evict_ends ring file _ fits.room rounds h [] (Nat.lt_succ_of_lt hUsed)
    rw [hFirst, Option.bind_eq_bind, Option.bind_some]
    dsimp only
    split
    · obtain ⟨h₂, dropped₂, hSecond, -⟩ := @evict_ends ring (ring.writeWrapMarker file h₁).1 _ fits.room rounds
        (ring.writeWrapMarker file h₁).2 dropped₁ (Nat.lt_succ_of_lt (add64_lt _ _))
      rw [hSecond]
      exact ⟨_, rfl⟩
    · exact ⟨_, rfl⟩

theorem ofLittleEndian_lt (bytes : List UInt8) : ofLittleEndian bytes < 256 ^ bytes.length := by
  induction bytes with
  | nil => exact Nat.one_pos
  | cons byte bytes ih =>
    have hByte := byte.toNat_lt
    rw [ofLittleEndian, List.length_cons, Nat.pow_succ]
    omega

theorem readHeader_used_lt (hHeader : readHeader file = some h) : h.usedBytes < 2 ^ 64 := by
  obtain ⟨bytes, -, rfl⟩ := Option.map_eq_some_iff.mp hHeader
  refine (ofLittleEndian_lt _).trans_le ?_
  exact Nat.pow_le_pow_right (by decide) (List.length_take_le 8 _)

namespace RingHistory

/-- The call has stored the record behind what it has not evicted, or has rejected it as oversized. -/
def Served (ring : MqttRealtimeRingBuffer) (file : ByteFile) (message : Message) (currentTimeMs : Int) : Prop :=
  ∃ h fuel written, readHeader file = some h ∧ ring.writeRecord fuel file h message currentTimeMs = some written ∧
    ((message.Oversized ring ∧ ring.storedMessages (writeHeader written.file written.header) = ring.storedMessages file) ∨
      (¬message.Oversized ring ∧ ∃ rest, ring.storedMessages file = some (written.dropped ++ rest) ∧
        ring.storedMessages (writeHeader written.file written.header) = some (rest ++ [message])))

theorem Served.of_intact {messages : List Message} (intact : Intact ring file h messages)
    (hTight : ¬message.Tight ring) : Served ring file message currentTimeMs := by
  by_cases hOversized : message.Oversized ring
  · refine ⟨h, 0, ⟨file, h, []⟩, intact.header, ?_, .inl ⟨hOversized, ?_⟩⟩
    · rw [writeRecord]
      exact if_pos hOversized
    · have intact' := intact_writeHeader intact.proper intact.stores intact.used_le intact.size_ge
      rw [intact.storedMessages, intact'.storedMessages]
  · have fits := Message.fits_of_not_tight hTight hOversized
    obtain ⟨written, rest, hWritten, hAppended⟩ :=
      @writeRecord_spec _ _ _ _ _ currentTimeMs intact.stores intact.size_ge fits _ (dataCapacity_lt_rounds ring)
    have intact' := intact_writeHeader (hAppended.proper intact.proper) hAppended.stores hAppended.used_le
      (intact.size_ge.trans hAppended.size_le)
    refine ⟨h, rounds, written, intact.header, hWritten, .inr ⟨hOversized, rest, ?_, intact'.storedMessages⟩⟩
    rw [intact.storedMessages, hAppended.messages_eq]

theorem Served.not_tight {messages : List Message} (intact : Intact ring file h messages)
    (hServed : Served ring file message currentTimeMs) : ¬message.Tight ring := by
  intro tight
  obtain ⟨h', fuel, written, hHeader, hWritten, -⟩ := hServed
  obtain rfl := Option.some.inj (intact.header.symm.trans hHeader)
  have hNever := @evict_never ring file _ tight.no_room fuel h [] intact.stores.used_bounds.2
  have hAccepted : ¬(message.totalLen > ring.maxMessageBytes ∨ message.totalLen ≥ ring.dataCapacity) := tight.not_oversized
  rw [writeRecord, if_neg hAccepted, hNever] at hWritten
  cases hWritten

theorem intact_of_reach {calls : List RingCall} {s : RingHistory}
    (hReach : Run.reach (step ring) (start ring) calls = some s) : ∃ h stored, Intact ring s.file h stored :=
  Run.invariant_reach (step ring) (fun _ _ => True) (fun s => ∃ h stored, Intact ring s.file h stored)
    ⟨_, _, start_intact ring⟩ (fun _ _ _ ⟨_, _, intact⟩ _ hStep => (step_intact intact hStep).1)
    (fun _ _ _ _ _ => trivial) calls (List.prefix_refl calls) s hReach

/-- An enqueue is served exactly when its record is not tight; only a tight one can keep a call from
    returning. -/
theorem served_iff_not_tight (ring : MqttRealtimeRingBuffer) (message : Message) (currentTimeMs : Int) :
    (∀ calls s, Run.reach (step ring) (start ring) calls = some s →
      (Served ring s.file message currentTimeMs ↔ ¬message.Tight ring)) ∧
    (¬message.Tight ring → ∀ file, (readHeader file).isSome → (ring.enqueue file message currentTimeMs).isSome) := by
  constructor
  · intro calls s hReach
    obtain ⟨h, stored, intact⟩ := intact_of_reach hReach
    exact ⟨Served.not_tight intact, Served.of_intact intact⟩
  · intro hTight file hReadable
    obtain ⟨h, hHeader⟩ := Option.isSome_iff_exists.mp hReadable
    obtain ⟨written, hWritten⟩ := @writeRecord_ends ring file h message currentTimeMs (readHeader_used_lt hHeader) hTight
    rw [enqueue, hHeader, Option.bind_eq_bind, Option.bind_some, hWritten]
    rfl

/-- A record of one byte less than the data area, on an empty ring whose messages may be as long as its file. -/
theorem last_byte_never_served :
    Run.reach (step smallRing) (start smallRing) [] = some (start smallRing) ∧
      ¬Served smallRing (start smallRing).file (filler 16773087) 0 := by
  refine ⟨rfl, fun hServed => hServed.not_tight (start_intact smallRing) ?_⟩
  constructor
  · rw [filler_totalLen]
    exact (by decide : 32 + 16773087 ≤ 16777216)
  · rw [filler_totalLen]
    exact (by decide : 32 + 16773087 < 16773120)
  · rw [filler_totalLen]
    exact (by decide : 16773120 < 32 + 16773087 + 32)

end RingHistory

end EdgeGateway.Mqtt
