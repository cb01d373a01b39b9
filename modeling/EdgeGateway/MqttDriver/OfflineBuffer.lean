import EdgeGateway.Foundation.Run
import EdgeGateway.Foundation.Splitting

/-! # The offline buffer of the MQTT driver

Messages that cannot be sent wait in memory and in a text file, the older ones in the file.
-/

namespace EdgeGateway.MqttDriver.OfflineQueue

open Splitting

abbrev ByteString := List UInt8

structure OfflineMessage where
  topic : ByteString
  payload : ByteString
deriving DecidableEq, Repr

structure OfflineBufferConfig where
  offlineBufferEnabled : Bool := true
  offlineBufferMaxMemoryMessages : Nat := 200
  offlineBufferFlushBatchSize : Nat := 50
  offlineBufferFlushIntervalMs : Int := 5000
  offlineBufferReplayBatchSize : Nat := 100
  offlineBufferMaxDiskBytes : Nat := 32 * 1024 * 1024

def newline : UInt8 := 0x0A

def tab : UInt8 := 0x09

def hexDigit (value : Nat) : UInt8 := if value < 10 then UInt8.ofNat (48 + value) else UInt8.ofNat (55 + value)

def hexEncode (value : ByteString) : ByteString :=
  value.flatMap fun ch => [hexDigit (ch.toNat / 16), hexDigit (ch.toNat % 16)]

def hexValue (ch : UInt8) : Option Nat :=
  if 48 ≤ ch ∧ ch ≤ 57 then some (ch.toNat - 48)
  else if 97 ≤ ch ∧ ch ≤ 102 then some (ch.toNat - 87)
  else if 65 ≤ ch ∧ ch ≤ 70 then some (ch.toNat - 55)
  else none

def hexDecode : ByteString → Option ByteString
  | [] => some []
  | [_] => none
  | first :: second :: rest =>
    match hexValue first, hexValue second with
    | some high, some low => (hexDecode rest).map (UInt8.ofNat (16 * high + low) :: ·)
    | _, _ => none

def validOfflineTopic (topic : ByteString) : Bool :=
  !topic.isEmpty && topic.all fun ch => !(ch < 0x20 || ch == 0x7F)

def offlineLine (message : OfflineMessage) : ByteString := hexEncode message.topic ++ tab :: hexEncode message.payload

def parseOfflineLine (line : ByteString) : Option OfflineMessage :=
  if tab ∉ line then none
  else
    match hexDecode (line.takeWhile (· ≠ tab)), hexDecode ((line.dropWhile (· ≠ tab)).drop 1) with
    | some topic, some payload => if validOfflineTopic topic then some ⟨topic, payload⟩ else none
    | _, _ => none

def trimFileToMaxBytes (content : ByteString) (maxBytes : Nat) : ByteString :=
  if maxBytes = 0 ∨ content.length ≤ maxBytes then content
  else ended newline (pieces newline (((content.drop (content.length - maxBytes)).dropWhile (· ≠ newline)).drop 1))

structure OfflineBuffer where
  offlineMessages : List OfflineMessage := []
  file : Option ByteString := none
  lastOfflineFlushMs : Int := 0

def flushOfflineBuffer (config : OfflineBufferConfig) (now : Int) (accessible force : Bool) (buffer : OfflineBuffer) :
    OfflineBuffer :=
  if !config.offlineBufferEnabled ∨ buffer.offlineMessages = [] then buffer
  else
    let flushBatch := max 1 config.offlineBufferFlushBatchSize
    if !force ∧ buffer.offlineMessages.length < flushBatch ∧
        now - buffer.lastOfflineFlushMs < config.offlineBufferFlushIntervalMs then buffer
    else if !accessible then buffer
    else
      let count := if force then buffer.offlineMessages.length else min flushBatch buffer.offlineMessages.length
      let content := buffer.file.getD [] ++ ended newline ((buffer.offlineMessages.take count).map offlineLine)
      { offlineMessages := buffer.offlineMessages.drop count
        file := some (trimFileToMaxBytes content config.offlineBufferMaxDiskBytes)
        lastOfflineFlushMs := now }

theorem length_flushOfflineBuffer_le (config : OfflineBufferConfig) (now : Int) (accessible force : Bool)
    (buffer : OfflineBuffer) :
    (flushOfflineBuffer config now accessible force buffer).offlineMessages.length ≤ buffer.offlineMessages.length := by
  unfold flushOfflineBuffer
  split
  · exact Nat.le_refl _
  · dsimp only
    split
    · exact Nat.le_refl _
    · split
      · exact Nat.le_refl _
      · rw [List.length_drop]
        exact Nat.sub_le _ _

/-- The loop of `enqueueOffline`: what the file does not take is dropped from the front. -/
def makeRoom (config : OfflineBufferConfig) (now : Int) (accessible : Bool) (buffer : OfflineBuffer) : OfflineBuffer :=
  if config.offlineBufferMaxMemoryMessages < buffer.offlineMessages.length ∧
      config.offlineBufferFlushBatchSize < buffer.offlineMessages.length then
    let flushed := flushOfflineBuffer config now accessible true buffer
    if flushed.offlineMessages.length ≤ config.offlineBufferMaxMemoryMessages then flushed
    else makeRoom config now accessible { flushed with offlineMessages := flushed.offlineMessages.tail }
  else buffer
termination_by buffer.offlineMessages.length
decreasing_by
  have hFlushed := length_flushOfflineBuffer_le config now accessible true buffer
  rw [List.length_tail]
  omega

def enqueueOffline (config : OfflineBufferConfig) (now : Int) (accessible : Bool) (message : OfflineMessage)
    (buffer : OfflineBuffer) : OfflineBuffer :=
  if !config.offlineBufferEnabled then buffer
  else
    flushOfflineBuffer config now accessible false
      (makeRoom config now accessible { buffer with offlineMessages := buffer.offlineMessages ++ [message] })

/-- The loop over the lines of the queue file. A message of the temporary file is a line that stays. -/
structure ReplayScan where
  output : List ByteString := []
  sent : List OfflineMessage := []
  skippedMalformed : Nat := 0
  replayFailed : Bool := false
  wroteRemaining : Bool := false

def replayLine (replayBatch : Nat) (sends : Nat → Bool) (scan : ReplayScan) (line : ByteString) : ReplayScan :=
  if replayBatch ≤ scan.sent.length ∨ scan.replayFailed then
    { scan with output := scan.output ++ [line], wroteRemaining := true }
  else
    match parseOfflineLine line with
    | none => { scan with skippedMalformed := scan.skippedMalformed + 1 }
    | some message =>
      if sends scan.sent.length then { scan with sent := scan.sent ++ [message] }
      else { scan with output := scan.output ++ [line], replayFailed := true, wroteRemaining := true }

def sentMemory (sends : Nat → Bool) : Nat → Nat → List OfflineMessage → Nat
  | 0, _, _ => 0
  | _, _, [] => 0
  | limit + 1, attempt, _ :: rest => if sends attempt then sentMemory sends limit (attempt + 1) rest + 1 else 0

def replayedFile (content : ByteString) (scan : ReplayScan) : Option ByteString :=
  if 0 < scan.sent.length ∨ 0 < scan.skippedMalformed then
    if scan.wroteRemaining then some (ended newline scan.output) else none
  else some content

def replayMemory (sends : Nat → Bool) (replayBatch attempt : Nat) (buffer : OfflineBuffer) :
    OfflineBuffer × List OfflineMessage :=
  let count := sentMemory sends replayBatch attempt buffer.offlineMessages
  ({ buffer with offlineMessages := buffer.offlineMessages.drop count }, buffer.offlineMessages.take count)

/-- Also the messages that were sent. -/
def replayOfflineBuffer (config : OfflineBufferConfig) (accessible : Bool) (sends : Nat → Bool) (buffer : OfflineBuffer) :
    OfflineBuffer × List OfflineMessage :=
  if !config.offlineBufferEnabled ∨ !accessible then (buffer, [])
  else
    let replayBatch := max 1 config.offlineBufferReplayBatchSize
    match buffer.file with
    | none => replayMemory sends replayBatch 0 buffer
    | some content =>
      let scan := (pieces newline content).foldl (replayLine replayBatch sends) {}
      let buffer := { buffer with file := replayedFile content scan }
      if scan.replayFailed ∨ scan.wroteRemaining then (buffer, scan.sent)
      else
        let replayed := replayMemory sends replayBatch scan.sent.length buffer
        (replayed.1, scan.sent ++ replayed.2)

section Lines

variable {value : ByteString} {message : OfflineMessage}

theorem hexValue_hexDigit {n : Nat} (h : n < 16) : hexValue (hexDigit n) = some n := by
  have hAll : ∀ n : Fin 16, hexValue (hexDigit n) = some n.val := by decide
  exact hAll ⟨n, h⟩

theorem hexDigit_ne {n : Nat} (h : n < 16) : hexDigit n ≠ tab ∧ hexDigit n ≠ newline := by
  have hAll : ∀ n : Fin 16, hexDigit n ≠ tab ∧ hexDigit n ≠ newline := by decide
  exact hAll ⟨n, h⟩

theorem hexEncode_cons (ch : UInt8) (value : ByteString) :
    hexEncode (ch :: value) = hexDigit (ch.toNat / 16) :: hexDigit (ch.toNat % 16) :: hexEncode value := rfl

theorem hexDecode_hexEncode (value : ByteString) : hexDecode (hexEncode value) = some value := by
  induction value with
  | nil => rfl
  | cons ch value ih =>
    have hByte : ch.toNat < 256 := ch.toNat_lt
    have hWhole : UInt8.ofNat (16 * (ch.toNat / 16) + ch.toNat % 16) = ch := by
      rw [Nat.div_add_mod, UInt8.ofNat_toNat]
    rw [hexEncode_cons, hexDecode, hexValue_hexDigit (by omega), hexValue_hexDigit (by omega)]
    dsimp only
    rw [ih, Option.map_some, hWhole]

theorem exists_hexDigit {ch : UInt8} (h : ch ∈ hexEncode value) : ∃ n < 16, ch = hexDigit n := by
  obtain ⟨byte, -, hDigit⟩ := List.mem_flatMap.mp h
  have hByte : byte.toNat < 256 := byte.toNat_lt
  obtain rfl | hDigit := List.mem_cons.mp hDigit
  · exact ⟨_, by omega, rfl⟩
  · exact ⟨_, by omega, List.mem_singleton.mp hDigit⟩

theorem tab_not_mem_hexEncode : tab ∉ hexEncode value := by
  intro h
  obtain ⟨n, hn, hTab⟩ := exists_hexDigit h
  exact (hexDigit_ne hn).1 hTab.symm

theorem newline_not_mem_offlineLine : newline ∉ offlineLine message := by
  have hHex : ∀ value : ByteString, newline ∉ hexEncode value := by
    intro value h
    obtain ⟨n, hn, hNewline⟩ := exists_hexDigit h
    exact (hexDigit_ne hn).2 hNewline.symm
  rw [offlineLine, List.mem_append, List.mem_cons, not_or, not_or]
  exact ⟨hHex _, by decide, hHex _⟩

theorem parseOfflineLine_offlineLine (h : validOfflineTopic message.topic = true) :
    parseOfflineLine (offlineLine message) = some message := by
  have hTab : ¬ tab ∉ offlineLine message := fun hNone => hNone (by simp [offlineLine])
  rw [parseOfflineLine, if_neg hTab, offlineLine, takeWhile_ne_append tab_not_mem_hexEncode,
    dropWhile_ne_append tab_not_mem_hexEncode, List.drop_one, List.tail_cons, hexDecode_hexEncode, hexDecode_hexEncode]
  dsimp only
  rw [if_pos h]

end Lines

def Valid (messages : List OfflineMessage) : Prop := ∀ message ∈ messages, validOfflineTopic message.topic = true

structure Holds (file : Option ByteString) (queued : List OfflineMessage) : Prop where
  content : file.getD [] = ended newline (queued.map offlineLine)
  valid : Valid queued

def fileMessages (file : Option ByteString) : List (Option OfflineMessage) :=
  (pieces newline (file.getD [])).map parseOfflineLine

section File

variable {file : Option ByteString} {queued messages : List OfflineMessage}

theorem pieces_lines (messages : List OfflineMessage) :
    pieces newline (ended newline (messages.map offlineLine)) = messages.map offlineLine := by
  apply pieces_ended
  intro line hLine
  obtain ⟨message, -, rfl⟩ := List.mem_map.mp hLine
  exact newline_not_mem_offlineLine

theorem Holds.fileMessages (h : Holds file queued) : fileMessages file = queued.map some := by
  rw [OfflineQueue.fileMessages, h.content, pieces_lines, List.map_map]
  exact List.map_congr_left fun message hMessage => parseOfflineLine_offlineLine (h.valid message hMessage)

theorem ended_append (lines more : List ByteString) :
    ended newline (lines ++ more) = ended newline lines ++ ended newline more :=
  List.flatMap_append

theorem Holds.append (h : Holds file queued) (hMessages : Valid messages) :
    Holds (some (file.getD [] ++ ended newline (messages.map offlineLine))) (queued ++ messages) := by
  constructor
  · rw [Option.getD_some, h.content, List.map_append, ended_append]
  · exact List.forall_mem_append.mpr ⟨h.valid, hMessages⟩

theorem trimFileToMaxBytes_zero (content : ByteString) : trimFileToMaxBytes content 0 = content := by
  rw [trimFileToMaxBytes, if_pos (.inl rfl)]

end File

structure Stores (buffer : OfflineBuffer) (queued : List OfflineMessage) : Prop where
  holds : Holds buffer.file queued
  valid : Valid buffer.offlineMessages

def Keeps (before after : OfflineBuffer) (sent : List OfflineMessage) : Prop :=
  ∀ queued, Stores before queued → ∃ remaining, Stores after remaining ∧
    sent ++ remaining ++ after.offlineMessages = queued ++ before.offlineMessages

section Calls

variable {config : OfflineBufferConfig} {buffer : OfflineBuffer}

theorem keeps_refl (buffer : OfflineBuffer) : Keeps buffer buffer [] := fun queued h => ⟨queued, h, rfl⟩

theorem Keeps.trans {middle after : OfflineBuffer} (h : Keeps buffer middle []) (h' : Keeps middle after []) :
    Keeps buffer after [] := by
  intro queued hStores
  obtain ⟨between, hMiddle, hFirst⟩ := h queued hStores
  obtain ⟨remaining, hAfter, hSecond⟩ := h' between hMiddle
  exact ⟨remaining, hAfter, hSecond.trans hFirst⟩

theorem keeps_flush (hDisk : config.offlineBufferMaxDiskBytes = 0) (now : Int) (accessible force : Bool)
    (buffer : OfflineBuffer) : Keeps buffer (flushOfflineBuffer config now accessible force buffer) [] := by
  unfold flushOfflineBuffer
  split
  · exact keeps_refl buffer
  · dsimp only
    split
    · exact keeps_refl buffer
    · split
      · exact keeps_refl buffer
      · intro queued hStores
        rw [hDisk, trimFileToMaxBytes_zero]
        refine ⟨_, ⟨hStores.holds.append fun m hm => hStores.valid m (List.mem_of_mem_take hm),
          fun m hm => hStores.valid m (List.mem_of_mem_drop hm)⟩, ?_⟩
        rw [List.nil_append, List.append_assoc, List.take_append_drop]

theorem flushOfflineBuffer_force (hEnabled : config.offlineBufferEnabled = true) (now : Int) :
    (flushOfflineBuffer config now true true buffer).offlineMessages = [] := by
  unfold flushOfflineBuffer
  split
  · rename_i hNone
    simpa [hEnabled] using hNone
  · simp

theorem makeRoom_accessible (hEnabled : config.offlineBufferEnabled = true) (now : Int) :
    makeRoom config now true buffer = buffer ∨
      makeRoom config now true buffer = flushOfflineBuffer config now true true buffer := by
  unfold makeRoom
  split
  · dsimp only
    rw [flushOfflineBuffer_force hEnabled, List.length_nil, if_pos (Nat.zero_le _)]
    exact .inr rfl
  · exact .inl rfl

theorem keeps_enqueue (hDisk : config.offlineBufferMaxDiskBytes = 0) (hEnabled : config.offlineBufferEnabled = true)
    (now : Int) (message : OfflineMessage) (buffer : OfflineBuffer) :
    Keeps { buffer with offlineMessages := buffer.offlineMessages ++ [message] }
      (enqueueOffline config now true message buffer) [] := by
  rw [enqueueOffline, hEnabled]
  refine Keeps.trans ?_ (keeps_flush hDisk now true false _)
  generalize { buffer with offlineMessages := buffer.offlineMessages ++ [message] } = grown
  obtain hRoom | hRoom : makeRoom config now true grown = grown ∨ _ := makeRoom_accessible hEnabled now
  · rw [hRoom]
    exact keeps_refl grown
  · rw [hRoom]
    exact keeps_flush hDisk now true true grown

theorem replayLine_stopped {replayBatch : Nat} {sends : Nat → Bool} {scan : ReplayScan}
    (hStopped : replayBatch ≤ scan.sent.length ∨ scan.replayFailed = true) (messages : List OfflineMessage) :
    (messages.map offlineLine).foldl (replayLine replayBatch sends) scan =
      { scan with
        output := scan.output ++ messages.map offlineLine
        wroteRemaining := scan.wroteRemaining || !messages.isEmpty } := by
  induction messages generalizing scan with
  | nil => simp
  | cons message messages ih =>
    rw [List.map_cons, List.foldl_cons, replayLine, if_pos hStopped]
    have hRest := @ih { scan with output := scan.output ++ [offlineLine message], wroteRemaining := true } hStopped
    refine hRest.trans ?_
    simp

structure Splits (before after : ReplayScan) (messages done rest : List OfflineMessage) : Prop where
  split : messages = done ++ rest
  sent : after.sent = before.sent ++ done
  output : after.output = before.output ++ rest.map offlineLine
  skipped : after.skippedMalformed = before.skippedMalformed
  wrote : after.wroteRemaining = (before.wroteRemaining || !rest.isEmpty)
  failed : after.replayFailed = true → before.replayFailed = true ∨ rest ≠ []

theorem exists_splits (replayBatch : Nat) (sends : Nat → Bool) {messages : List OfflineMessage}
    (hValid : Valid messages) (scan : ReplayScan) :
    ∃ done rest, Splits scan ((messages.map offlineLine).foldl (replayLine replayBatch sends) scan) messages done rest := by
  induction messages generalizing scan with
  | nil => exact ⟨[], [], rfl, by simp, by simp, rfl, by simp, fun h => .inl h⟩
  | cons message messages ih =>
    obtain ⟨hMessage, hMessages⟩ := List.forall_mem_cons.mp hValid
    by_cases hStopped : replayBatch ≤ scan.sent.length ∨ scan.replayFailed = true
    · rw [replayLine_stopped hStopped]
      exact ⟨[], message :: messages, rfl, (List.append_nil _).symm, rfl, rfl, rfl, fun h => .inl h⟩
    · rw [List.map_cons, List.foldl_cons, replayLine, if_neg hStopped, parseOfflineLine_offlineLine hMessage]
      dsimp only
      split
      · obtain ⟨done, rest, hSplits⟩ := ih hMessages { scan with sent := scan.sent ++ [message] }
        refine ⟨message :: done, rest, by rw [hSplits.split, List.cons_append], ?_, hSplits.output, hSplits.skipped,
          hSplits.wrote, hSplits.failed⟩
        rw [hSplits.sent, List.append_assoc, List.singleton_append]
      · rw [replayLine_stopped (.inr rfl)]
        refine ⟨[], message :: messages, rfl, (List.append_nil _).symm, ?_, rfl, ?_,
          fun _ => .inr (List.cons_ne_nil _ _)⟩
        · rw [List.append_assoc, List.singleton_append, List.map_cons]
        · simp

theorem keeps_replayMemory (sends : Nat → Bool) (replayBatch attempt : Nat) (h : Stores buffer []) :
    Stores (replayMemory sends replayBatch attempt buffer).1 [] ∧
      (replayMemory sends replayBatch attempt buffer).2 ++
        (replayMemory sends replayBatch attempt buffer).1.offlineMessages = buffer.offlineMessages :=
  ⟨⟨h.holds, fun m hm => h.valid m (List.mem_of_mem_drop hm)⟩, List.take_append_drop ..⟩

theorem Holds.eq_nil_of_content {file : Option ByteString} {queued : List OfflineMessage} (h : Holds file queued)
    (hEmpty : file.getD [] = []) : queued = [] := by
  cases queued with
  | nil => rfl
  | cons message queued =>
    have hContent := h.content
    rw [hEmpty, List.map_cons, ended, List.flatMap_cons] at hContent
    simp at hContent

theorem holds_replayedFile {content : ByteString} {scan : ReplayScan} {queued done rest : List OfflineMessage}
    (h : Holds (some content) queued) (hScan : Splits {} scan queued done rest) :
    Holds (replayedFile content scan) rest := by
  have hValid : Valid rest := fun m hm => h.valid m (hScan.split ▸ List.mem_append_right done hm)
  have hSent : scan.sent = done := hScan.sent
  have hSkipped : scan.skippedMalformed = 0 := hScan.skipped
  have hWrote : scan.wroteRemaining = !rest.isEmpty := hScan.wrote
  have hOutput : scan.output = rest.map offlineLine := hScan.output
  rw [replayedFile, hSent, hSkipped, hWrote, hOutput]
  split
  · cases rest with
    | nil => exact ⟨rfl, hValid⟩
    | cons message rest => exact ⟨rfl, hValid⟩
  · rename_i hNone
    have hDone : done = [] := by
      rw [not_or, List.length_pos_iff, not_not] at hNone
      exact hNone.1
    have hAll := hScan.split
    rw [hDone, List.nil_append] at hAll
    rwa [← hAll]

theorem keeps_replay (config : OfflineBufferConfig) (accessible : Bool) (sends : Nat → Bool) (buffer : OfflineBuffer) :
    Keeps buffer (replayOfflineBuffer config accessible sends buffer).1
      (replayOfflineBuffer config accessible sends buffer).2 := by
  intro queued h
  unfold replayOfflineBuffer
  split
  · exact ⟨queued, h, rfl⟩
  · dsimp only
    cases hFile : buffer.file with
    | none =>
      have hHolds := h.holds
      rw [hFile] at hHolds
      obtain rfl := hHolds.eq_nil_of_content rfl
      dsimp only
      obtain ⟨hStores, hMemory⟩ := keeps_replayMemory sends (max 1 config.offlineBufferReplayBatchSize) 0 h
      exact ⟨[], hStores, by rw [List.append_nil, hMemory, List.nil_append]⟩
    | some content =>
      have hHolds := h.holds
      rw [hFile] at hHolds
      have hPieces : pieces newline content = queued.map offlineLine := by
        rw [← pieces_lines queued, ← hHolds.content, Option.getD_some]
      obtain ⟨done, rest, hScan⟩ :=
        exists_splits (max 1 config.offlineBufferReplayBatchSize) sends hHolds.valid {}
      rw [← hPieces] at hScan
      dsimp only
      generalize (pieces newline content).foldl (replayLine (max 1 config.offlineBufferReplayBatchSize) sends) {} = scan
        at hScan ⊢
      have hRest : Stores { buffer with file := replayedFile content scan } rest :=
        ⟨holds_replayedFile hHolds hScan, h.valid⟩
      have hSent : scan.sent = done := hScan.sent
      split
      · exact ⟨rest, hRest, by rw [hSent, hScan.split]⟩
      · rename_i hAll
        obtain rfl : rest = [] := by
          have hWrote := hScan.wrote
          rw [not_or] at hAll
          simpa [hAll.2] using hWrote.symm
        obtain ⟨hStores, hMemory⟩ :=
          keeps_replayMemory sends (max 1 config.offlineBufferReplayBatchSize) scan.sent.length hRest
        refine ⟨[], hStores, ?_⟩
        rw [List.append_nil, List.append_assoc, hMemory, hScan.split, List.append_nil, hSent]

end Calls

inductive OfflineCall where
  | enqueue (now : Int) (accessible : Bool) (message : OfflineMessage)
  | flush (now : Int) (accessible force : Bool)
  | replay (accessible : Bool) (sends : Nat → Bool)

structure OfflineHistory where
  buffer : OfflineBuffer := {}
  enqueued : List OfflineMessage := []
  sent : List OfflineMessage := []

namespace OfflineHistory

/-- A buffer that is switched off takes up no message. -/
def step (config : OfflineBufferConfig) (history : OfflineHistory) : OfflineCall → OfflineHistory
  | .enqueue now accessible message =>
    { history with
      buffer := enqueueOffline config now accessible message history.buffer
      enqueued := if config.offlineBufferEnabled then history.enqueued ++ [message] else history.enqueued }
  | .flush now accessible force =>
    { history with buffer := flushOfflineBuffer config now accessible force history.buffer }
  | .replay accessible sends =>
    let replayed := replayOfflineBuffer config accessible sends history.buffer
    { history with buffer := replayed.1, sent := history.sent ++ replayed.2 }

end OfflineHistory

def OfflineCall.Proper : OfflineCall → Prop
  | .enqueue _ accessible message => accessible = true ∧ validOfflineTopic message.topic = true
  | .flush _ accessible _ => accessible = true
  | .replay accessible _ => accessible = true

def Conserved (history : OfflineHistory) : Prop :=
  ∃ queued, Stores history.buffer queued ∧ history.sent ++ queued ++ history.buffer.offlineMessages = history.enqueued

section Runs

variable {config : OfflineBufferConfig} {history : OfflineHistory}

theorem Conserved.step (hDisk : config.offlineBufferMaxDiskBytes = 0) (h : Conserved history) {call : OfflineCall}
    (hCall : call.Proper) : Conserved (history.step config call) := by
  obtain ⟨queued, hStores, hEnqueued⟩ := h
  cases call with
  | enqueue now accessible message =>
    obtain ⟨rfl, hTopic⟩ := hCall
    cases hEnabled : config.offlineBufferEnabled with
    | false =>
      refine ⟨queued, ?_, ?_⟩
      · simpa [OfflineHistory.step, enqueueOffline, hEnabled] using hStores
      · simpa [OfflineHistory.step, enqueueOffline, hEnabled] using hEnqueued
    | true =>
      have hGrown : Stores { history.buffer with offlineMessages := history.buffer.offlineMessages ++ [message] } queued :=
        ⟨hStores.holds, List.forall_mem_append.mpr ⟨hStores.valid, List.forall_mem_singleton.mpr hTopic⟩⟩
      obtain ⟨remaining, hAfter, hMessages⟩ := keeps_enqueue hDisk hEnabled now message history.buffer queued hGrown
      refine ⟨remaining, hAfter, ?_⟩
      rw [List.nil_append] at hMessages
      rw [OfflineHistory.step, if_pos hEnabled, ← hEnqueued, List.append_assoc, hMessages]
      simp
  | flush now accessible force =>
    obtain ⟨remaining, hAfter, hMessages⟩ := keeps_flush hDisk now accessible force history.buffer queued hStores
    refine ⟨remaining, hAfter, ?_⟩
    rw [List.nil_append] at hMessages
    rw [OfflineHistory.step, List.append_assoc, hMessages, ← List.append_assoc, hEnqueued]
  | replay accessible sends =>
    obtain ⟨remaining, hAfter, hMessages⟩ := keeps_replay config accessible sends history.buffer queued hStores
    refine ⟨remaining, hAfter, ?_⟩
    rw [OfflineHistory.step, ← hEnqueued]
    simpa using hMessages

/-- What was sent, what stands in the file and what is in memory are the messages taken up, in their order. -/
def OfflineHistory.Accounted (history : OfflineHistory) : Prop :=
  history.sent.map some ++ fileMessages history.buffer.file ++ history.buffer.offlineMessages.map some =
    history.enqueued.map some

theorem Conserved.accounted (h : Conserved history) : history.Accounted := by
  obtain ⟨queued, hStores, hEnqueued⟩ := h
  rw [OfflineHistory.Accounted, hStores.holds.fileMessages, ← hEnqueued, List.map_append, List.map_append]

/-- A run may start with a file that an earlier one left behind. -/
theorem offline_buffer_conserves (config : OfflineBufferConfig) (hDisk : config.offlineBufferMaxDiskBytes = 0)
    {file : Option ByteString} {left : List OfflineMessage} (hFile : Holds file left) (calls : List OfflineCall)
    (hCalls : ∀ call ∈ calls, call.Proper) :
    (Run.after (OfflineHistory.step config) ⟨{ file := file }, left, []⟩ calls).Accounted := by
  have hStart : Conserved ⟨{ file := file }, left, []⟩ :=
    ⟨left, ⟨hFile, fun _ hm => absurd hm List.not_mem_nil⟩, List.append_nil left⟩
  have hRun : Conserved (Run.after (OfflineHistory.step config) ⟨{ file := file }, left, []⟩ calls) :=
    Run.invariant_along _ Conserved hStart
      (fun done call hDone hConserved =>
        hConserved.step hDisk (hCalls call (hDone.subset (List.mem_append_right done List.mem_cons_self))))
      calls (List.prefix_refl calls)
  exact hRun.accounted

def alarmMessage (payload : UInt8) : OfflineMessage := ⟨[0x61], [payload]⟩

def interruptedReplay : List OfflineCall :=
  [.enqueue 0 true (alarmMessage 1), .enqueue 1 true (alarmMessage 2), .flush 2 true true,
    .replay true (fun attempt => attempt == 0), .enqueue 3 true (alarmMessage 3)]

theorem interrupted_replay_conserves :
    (Run.after (OfflineHistory.step { offlineBufferMaxDiskBytes := 0 }) ⟨{ file := none }, [], []⟩
      interruptedReplay).Accounted :=
  offline_buffer_conserves { offlineBufferMaxDiskBytes := 0 } rfl ⟨rfl, fun _ hm => absurd hm List.not_mem_nil⟩
    interruptedReplay (by
      intro call hCall
      simp only [interruptedReplay, List.mem_cons, List.not_mem_nil, or_false] at hCall
      obtain rfl | rfl | rfl | rfl | rfl := hCall
      · exact ⟨rfl, by decide⟩
      · exact ⟨rfl, by decide⟩
      · exact rfl
      · exact rfl
      · exact ⟨rfl, by decide⟩)

end Runs

end EdgeGateway.MqttDriver.OfflineQueue
