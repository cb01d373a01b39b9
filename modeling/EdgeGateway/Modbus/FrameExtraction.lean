import EdgeGateway.Modbus.RtuClient

/-! # Frames taken from a byte stream

The loop over the buffer is a scanner: what it drops it would drop whatever came next.
-/

namespace EdgeGateway.Modbus.ModbusRtuClient

/-- What a call of `transact` waits for. The size of a read response counts its header, its
byte count and its checksum. -/
structure Expectation where
  slave : UInt8
  function : UInt8
  minResponseSize : Nat
  slave_pos : 1 ≤ slave
  slave_le : slave ≤ 247
  known : isReadFunction function ∨ isWriteFunction function
  size_ge : isReadFunction function → 5 ≤ minResponseSize

namespace Expectation

section Calls

variable (slave : UInt8) (slave_pos : 1 ≤ slave) (slave_le : slave ≤ 247)

def ofRegisterRead (count : Nat) (holding : Bool) : Expectation where
  slave := slave
  function := if holding then 0x03 else 0x04
  minResponseSize := registerReadSize count
  slave_pos := slave_pos
  slave_le := slave_le
  known := .inl (by cases holding <;> rfl)
  size_ge _ := Nat.le_add_right 5 _

def ofWrite (function : UInt8) (known : isWriteFunction function) : Expectation where
  slave := slave
  function := function
  minResponseSize := writeSize
  slave_pos := slave_pos
  slave_le := slave_le
  known := .inr known
  size_ge _ := by decide

end Calls

variable (e : Expectation)

def tryExtract (buffer : List UInt8) : Option Extraction :=
  tryExtractResponseFrame e.slave e.function e.minResponseSize buffer

def receive (chunks : List (List UInt8)) : Option Extraction :=
  receiveLoop e.slave e.function e.minResponseSize chunks []

def normalSize : Nat := if isReadFunction e.function then e.minResponseSize else 8

/-- A valid checksum, and an exception or a normal response of the expected size and byte count. -/
structure IsResponse (frame : List UInt8) : Prop where
  valid : hasValidCrc frame = true
  slave : frame[0]? = some e.slave
  function : (frame[1]? = some (e.function ||| 0x80) ∧ frame.length = 5) ∨
    (frame[1]? = some e.function ∧ frame.length = e.normalSize ∧
      (isReadFunction e.function → frame[2]?.map (fun count => count.toNat + 5) = some e.minResponseSize))

def judge (buffer : List UInt8) (responseFunction : UInt8) : Verdict :=
  if responseFunction ≠ e.function ∧ responseFunction ≠ e.function ||| 0x80 then .drop
  else if buffer.length < expectedResponseSize e.function buffer e.minResponseSize then .wait
  else if isReadFunction e.function ∧ responseFunction &&& 0x80 = 0 ∧
      expectedResponseSize e.function buffer e.minResponseSize ≠ e.minResponseSize then .drop
  else if hasValidCrc (buffer.take (expectedResponseSize e.function buffer e.minResponseSize)) then
    .frame (expectedResponseSize e.function buffer e.minResponseSize)
  else .drop

def verdict : List UInt8 → Verdict
  | [] => .wait
  | [start] => if start ≠ e.slave then .drop else .wait
  | start :: responseFunction :: more =>
    if start ≠ e.slave then .drop else e.judge (start :: responseFunction :: more) responseFunction

variable {e}

theorem function_bit : e.function &&& 0x80 = 0 ∧ (e.function ||| 0x80) &&& 0x80 ≠ 0 := by
  have hKnown := e.known
  simp only [isReadFunction, isWriteFunction, Bool.decide_or, Bool.or_eq_true, decide_eq_true_eq] at hKnown
  obtain (h | h | h | h) | (h | h | h) := hKnown <;> rw [h] <;> decide

theorem read_or_write : isReadFunction e.function = true ∨ isReadFunction e.function = false ∧ isWriteFunction e.function = true := by
  cases hRead : isReadFunction e.function with
  | true => exact .inl rfl
  | false => exact .inr ⟨rfl, (e.known.resolve_left (by rw [hRead]; exact Bool.false_ne_true))⟩

section Size

variable {buffer : List UInt8}

theorem size_of_exception (hFunction : buffer[1]? = some (e.function ||| 0x80)) :
    expectedResponseSize e.function buffer e.minResponseSize = 5 := by
  obtain ⟨hLength, hByte⟩ := List.getElem?_eq_some_iff.mp hFunction
  rw [expectedResponseSize, if_pos]
  rw [List.getD_eq_getElem?_getD, hFunction]
  exact ⟨hLength, function_bit.2⟩

theorem size_of_normal (hFunction : buffer[1]? = some e.function) :
    expectedResponseSize e.function buffer e.minResponseSize =
      if isReadFunction e.function then (buffer[2]?.map fun count => count.toNat + 5).getD e.minResponseSize else 8 := by
  have hBit : ¬(buffer.length ≥ 2 ∧ buffer.getD 1 0 &&& 0x80 ≠ 0) := by
    rw [List.getD_eq_getElem?_getD, hFunction]
    exact fun h => h.2 function_bit.1
  rw [expectedResponseSize, if_neg hBit]
  obtain hRead | ⟨hRead, hWrite⟩ := @read_or_write e
  · have hWrite : isWriteFunction e.function = false := by
      simp only [isReadFunction, Bool.decide_or, Bool.or_eq_true, decide_eq_true_eq] at hRead
      obtain h | h | h | h := hRead <;> rw [h] <;> decide
    rw [hRead, hWrite, if_pos rfl, if_neg Bool.false_ne_true]
    by_cases hThird : 2 < buffer.length
    · rw [if_pos ⟨rfl, hThird⟩, List.getD_eq_getElem?_getD, List.getElem?_eq_getElem hThird]
      rfl
    · rw [if_neg fun h => hThird h.2, List.getElem?_eq_none (Nat.not_lt.mp hThird)]
      rfl
  · rw [hRead, hWrite, if_neg fun h => Bool.false_ne_true h.1, if_neg Bool.false_ne_true]
    rfl

theorem size_ge_five (hFunction : buffer[1]? = some e.function ∨ buffer[1]? = some (e.function ||| 0x80)) :
    5 ≤ expectedResponseSize e.function buffer e.minResponseSize := by
  obtain hNormal | hException := hFunction
  · rw [size_of_normal hNormal]
    split
    · next hRead =>
      cases buffer[2]? with
      | none => exact e.size_ge hRead
      | some count => exact Nat.le_add_left 5 _
    · decide
  · exact (size_of_exception hException).ge

theorem size_append (more : List UInt8) (hLength : 3 ≤ buffer.length) :
    expectedResponseSize e.function (buffer ++ more) e.minResponseSize =
      expectedResponseSize e.function buffer e.minResponseSize := by
  rw [expectedResponseSize, expectedResponseSize, List.length_append]
  have hOne : (buffer ++ more).getD 1 0 = buffer.getD 1 0 := List.getD_append _ _ _ _ (by omega)
  have hTwo : (buffer ++ more).getD 2 0 = buffer.getD 2 0 := List.getD_append _ _ _ _ (by omega)
  rw [hOne, hTwo]
  have hBoth : 2 ≤ buffer.length + more.length ↔ 2 ≤ buffer.length := by omega
  have hThree : 3 ≤ buffer.length + more.length ↔ 3 ≤ buffer.length := by omega
  simp only [ge_iff_le, hBoth, hThree]

end Size

section Verdict

variable {buffer : List UInt8} {responseFunction : UInt8}

theorem matches_iff : ¬(responseFunction ≠ e.function ∧ responseFunction ≠ e.function ||| 0x80) ↔
    responseFunction = e.function ∨ responseFunction = e.function ||| 0x80 := by
  rw [not_and_or, not_not, not_not]

theorem judge_append (more : List UInt8) (hFunction : buffer[1]? = some responseFunction)
    (hJudged : e.judge buffer responseFunction ≠ .wait) :
    e.judge (buffer ++ more) responseFunction = e.judge buffer responseFunction := by
  rw [judge] at hJudged ⊢
  rw [judge]
  split
  · rfl
  · next hMatches =>
    rw [if_neg hMatches] at hJudged
    have hMatch : buffer[1]? = some e.function ∨ buffer[1]? = some (e.function ||| 0x80) := by
      obtain rfl | rfl := matches_iff.mp hMatches
      · exact .inl hFunction
      · exact .inr hFunction
    have hGe := size_ge_five hMatch
    have hEnough : ¬buffer.length < expectedResponseSize e.function buffer e.minResponseSize := by
      intro hShort
      rw [if_pos hShort] at hJudged
      exact hJudged rfl
    have hLonger : ¬(buffer ++ more).length < expectedResponseSize e.function buffer e.minResponseSize := by
      rw [List.length_append]
      omega
    rw [size_append more (by omega), if_neg hLonger, if_neg hEnough,
      List.take_append_of_le_length (Nat.not_lt.mp hEnough)]

theorem judge_frame {length : Nat} (hJudged : e.judge buffer responseFunction = .frame length) :
    (responseFunction = e.function ∨ responseFunction = e.function ||| 0x80) ∧
      length = expectedResponseSize e.function buffer e.minResponseSize ∧ length ≤ buffer.length ∧
      ¬(isReadFunction e.function ∧ responseFunction &&& 0x80 = 0 ∧ length ≠ e.minResponseSize) ∧
      hasValidCrc (buffer.take length) = true := by
  rw [judge] at hJudged
  split at hJudged
  · cases hJudged
  · next hMatches =>
    split at hJudged
    · cases hJudged
    · next hEnough =>
      split at hJudged
      · cases hJudged
      · next hSize =>
        split at hJudged
        · next hValid =>
          obtain rfl := Verdict.frame.inj hJudged
          exact ⟨matches_iff.mp hMatches, rfl, Nat.not_lt.mp hEnough, hSize, hValid⟩
        · cases hJudged

end Verdict

theorem verdict_other {start : UInt8} (hStart : start ≠ e.slave) (rest : List UInt8) :
    e.verdict (start :: rest) = .drop := by
  cases rest with
  | nil => rw [verdict, if_pos hStart]
  | cons responseFunction rest => rw [verdict, if_pos hStart]

theorem verdict_single : e.verdict [e.slave] = .wait := by
  rw [verdict, if_neg (not_not.mpr rfl)]

theorem verdict_slave (responseFunction : UInt8) (rest : List UInt8) :
    e.verdict (e.slave :: responseFunction :: rest) = e.judge (e.slave :: responseFunction :: rest) responseFunction := by
  rw [verdict, if_neg (not_not.mpr rfl)]

theorem verdict_append (symbols more : List UInt8) (hSettled : e.verdict symbols ≠ .wait) :
    e.verdict (symbols ++ more) = e.verdict symbols := by
  cases symbols with
  | nil => exact absurd rfl hSettled
  | cons start rest =>
    by_cases hStart : start = e.slave
    · subst hStart
      cases rest with
      | nil => exact absurd verdict_single hSettled
      | cons responseFunction rest =>
        rw [verdict_slave] at hSettled ⊢
        rw [List.cons_append, List.cons_append, verdict_slave]
        exact judge_append more rfl hSettled
    · rw [List.cons_append, verdict_other hStart, verdict_other hStart]

theorem verdict_frame {symbols : List UInt8} {length : Nat} (hFrame : e.verdict symbols = .frame length) :
    ∃ responseFunction rest, symbols = e.slave :: responseFunction :: rest ∧
      e.judge symbols responseFunction = .frame length := by
  cases symbols with
  | nil => cases hFrame
  | cons start rest =>
    by_cases hStart : start = e.slave
    · subst hStart
      cases rest with
      | nil =>
        rw [verdict_single] at hFrame
        cases hFrame
      | cons responseFunction rest =>
        rw [verdict_slave] at hFrame
        exact ⟨responseFunction, rest, rfl, hFrame⟩
    · rw [verdict_other hStart] at hFrame
      cases hFrame

variable (e) in
def scanner : Scanner UInt8 where
  verdict := e.verdict
  settled := verdict_append
  inside symbols length hFrame := by
    obtain ⟨responseFunction, rest, -, hJudged⟩ := verdict_frame hFrame
    exact (judge_frame hJudged).2.2.1

/-- What the loop returns is what the scanner finds, and the scanner goes on from what the loop has left. -/
structure Follows (e : Expectation) (buffer : List UInt8) (extraction : Extraction) : Prop where
  found : ∀ frame, extraction.frame = some frame → e.scanner.scan buffer = (some frame, extraction.buffer)
  waiting : extraction.frame = none → (e.scanner.scan buffer).1 = none ∧
    ∀ more, e.scanner.scan (extraction.buffer ++ more) = e.scanner.scan (buffer ++ more)

theorem Follows.dropped {first : UInt8} {rest : List UInt8} {extraction : Extraction}
    (hDrop : e.verdict (first :: rest) = .drop) (h : Follows e rest extraction) : Follows e (first :: rest) extraction := by
  constructor
  · intro frame hFrame
    rw [Scanner.scan_drop hDrop]
    exact h.found frame hFrame
  · intro hNone
    rw [Scanner.scan_drop hDrop]
    refine ⟨(h.waiting hNone).1, fun more => ?_⟩
    have hStill := verdict_append (first :: rest) more (by rw [hDrop]; exact Verdict.noConfusion)
    rw [hDrop, List.cons_append] at hStill
    rw [(h.waiting hNone).2 more, List.cons_append]
    exact (Scanner.scan_drop hStill).symm

theorem Follows.skipped {before rest : List UInt8} {extraction : Extraction} (hOther : ∀ byte ∈ before, byte ≠ e.slave)
    (h : Follows e rest extraction) : Follows e (before ++ rest) extraction := by
  induction before with
  | nil => exact h
  | cons byte before ih =>
    exact (ih fun b hb => hOther b (List.mem_cons_of_mem _ hb)).dropped
      (verdict_other (hOther byte List.mem_cons_self) _)

theorem Follows.stopped {buffer : List UInt8} (hNone : (e.scanner.scan buffer).1 = none) :
    Follows e buffer ⟨none, buffer⟩ :=
  ⟨nofun, fun _ => ⟨hNone, fun _ => rfl⟩⟩

theorem Follows.waits {buffer : List UInt8} (hWait : e.verdict buffer = .wait) : Follows e buffer ⟨none, buffer⟩ :=
  .stopped (by rw [Scanner.scan_wait hWait])

theorem scan_single (byte : UInt8) : (e.scanner.scan [byte]).1 = none := by
  by_cases hSlave : byte = e.slave
  · rw [hSlave, Scanner.scan_wait verdict_single]
  · rw [Scanner.scan_drop (verdict_other hSlave [])]
    rfl

theorem extractLoop_follows (rounds : Nat) (buffer : List UInt8) (hRounds : buffer.length < rounds) :
    ∃ extraction, extractLoop e.slave e.function e.minResponseSize rounds buffer = some extraction ∧
      Follows e buffer extraction := by
  induction rounds generalizing buffer with
  | zero => exact absurd hRounds (Nat.not_lt_zero _)
  | succ rounds ih =>
    rw [extractLoop]
    split
    · refine ⟨_, rfl, .stopped ?_⟩
      match buffer with
      | [] => rfl
      | [byte] => exact scan_single byte
    · have hOther : ∀ byte ∈ buffer.takeWhile (· ≠ e.slave), byte ≠ e.slave := by
        intro byte hByte
        have hAll := List.all_takeWhile (p := (· ≠ e.slave)) (l := buffer)
        simpa using List.all_eq_true.mp hAll byte hByte
      have hSplit : buffer.takeWhile (· ≠ e.slave) ++ buffer.dropWhile (· ≠ e.slave) = buffer :=
        List.takeWhile_append_dropWhile
      have hLess : (buffer.dropWhile (· ≠ e.slave)).length ≤ buffer.length := (List.dropWhile_sublist _).length_le
      have hHead : ∀ start rest, buffer.dropWhile (· ≠ e.slave) = start :: rest → start = e.slave := by
        intro start rest hCons
        have hNot := List.head?_dropWhile_not (· ≠ e.slave) buffer
        rw [hCons] at hNot
        simpa using hNot
      split
      · next hNil =>
        refine ⟨_, rfl, ?_⟩
        rw [← hSplit, hNil]
        exact Follows.skipped hOther (.stopped rfl)
      · next start hOne =>
        obtain rfl := hHead start [] hOne
        refine ⟨_, rfl, ?_⟩
        rw [← hSplit, hOne]
        exact Follows.skipped hOther (.waits verdict_single)
      · next start responseFunction rest hCons =>
        obtain rfl := hHead start _ hCons
        have hNext : (responseFunction :: rest).length < rounds := by
          rw [hCons, List.length_cons] at hLess
          omega
        have hVerdict := @verdict_slave e responseFunction rest
        rw [judge] at hVerdict
        -- In the rounds that go on, the first byte is dropped.
        have hGoesOn : e.verdict (e.slave :: responseFunction :: rest) = .drop →
            ∃ extraction, extractLoop e.slave e.function e.minResponseSize rounds (responseFunction :: rest) =
              some extraction ∧ Follows e buffer extraction := by
          intro hDrop
          obtain ⟨extraction, hLoop, hFollows⟩ := ih _ hNext
          refine ⟨extraction, hLoop, ?_⟩
          rw [← hSplit, hCons]
          exact Follows.skipped hOther (hFollows.dropped hDrop)
        dsimp only
        split
        · next hOdd =>
          rw [if_pos hOdd] at hVerdict
          exact hGoesOn hVerdict
        · next hMatches =>
          rw [if_neg hMatches] at hVerdict
          split
          · next hShort =>
            rw [if_pos hShort] at hVerdict
            refine ⟨_, rfl, ?_⟩
            rw [← hSplit, hCons]
            exact Follows.skipped hOther (.waits hVerdict)
          · next hEnough =>
            rw [if_neg hEnough] at hVerdict
            split
            · next hSize =>
              rw [if_pos hSize] at hVerdict
              exact hGoesOn hVerdict
            · next hSize =>
              rw [if_neg hSize] at hVerdict
              split
              · next hValid =>
                rw [if_pos hValid] at hVerdict
                refine ⟨_, rfl, ?_⟩
                rw [← hSplit, hCons]
                refine Follows.skipped hOther ⟨?_, nofun⟩
                rintro frame ⟨⟩
                exact Scanner.scan_frame hVerdict
              · next hInvalid =>
                rw [if_neg hInvalid] at hVerdict
                exact hGoesOn hVerdict

theorem tryExtract_follows (buffer : List UInt8) :
    ∃ extraction, e.tryExtract buffer = some extraction ∧ Follows e buffer extraction :=
  extractLoop_follows _ buffer (Nat.lt_succ_self _)

theorem receiveLoop_found (chunks : List (List UInt8)) (buffer : List UInt8)
    (hWaiting : (e.scanner.scan buffer).1 = none) :
    ∃ extraction, receiveLoop e.slave e.function e.minResponseSize chunks buffer = some extraction ∧
      extraction.frame = (e.scanner.scan (buffer ++ chunks.flatten)).1 := by
  induction chunks generalizing buffer with
  | nil =>
    refine ⟨_, rfl, ?_⟩
    rw [List.flatten_nil, List.append_nil, hWaiting]
  | cons chunk chunks ih =>
    rw [receiveLoop, List.flatten_cons, ← List.append_assoc]
    split
    · next hEmpty =>
      rw [hEmpty, List.append_nil]
      exact ih buffer hWaiting
    · obtain ⟨⟨found, rest⟩, hExtract, hFollows⟩ := @tryExtract_follows e (buffer ++ chunk)
      rw [tryExtract] at hExtract
      rw [hExtract]
      cases found with
      | some frame =>
        refine ⟨_, rfl, ?_⟩
        rw [Scanner.scan_append (buffer ++ chunk), hFollows.found frame rfl]
      | none =>
        obtain ⟨hNone, hMore⟩ := hFollows.waiting rfl
        have hRest := hMore []
        rw [List.append_nil, List.append_nil] at hRest
        obtain ⟨extraction, hLoop, hFound⟩ := ih rest (by rw [hRest]; exact hNone)
        exact ⟨extraction, hLoop, by rw [hFound, hMore]⟩

theorem isResponse_of_verdict {frame rest : List UInt8} (hVerdict : e.verdict (frame ++ rest) = .frame frame.length) :
    e.IsResponse frame := by
  obtain ⟨responseFunction, more, hBuffer, hJudged⟩ := verdict_frame hVerdict
  obtain ⟨hMatches, hLength, -, hSize, hValid⟩ := judge_frame hJudged
  rw [List.take_left] at hValid
  have hLong : 4 ≤ frame.length := by
    by_contra hShort
    rw [hasValidCrc, if_pos (Nat.not_le.mp hShort)] at hValid
    cases hValid
  have hAt : ∀ i, i < 4 → frame[i]? = (frame ++ rest)[i]? := by
    intro i hi
    rw [List.getElem?_append_left (by omega)]
  have hFunction : frame[1]? = some responseFunction := by
    rw [hAt 1 (by decide), hBuffer]
    rfl
  refine ⟨hValid, ?_, ?_⟩
  · rw [hAt 0 (by decide), hBuffer]
    rfl
  · obtain rfl | rfl := hMatches
    · right
      have hNormal : (frame ++ rest)[1]? = some e.function := by rw [← hAt 1 (by decide), hFunction]
      rw [size_of_normal hNormal, ← hAt 2 (by decide)] at hLength
      refine ⟨hFunction, ?_, ?_⟩
      · rw [normalSize]
        split
        · next hRead =>
          by_contra hOther
          exact hSize ⟨hRead, function_bit.1, hOther⟩
        · next hRead => rw [hLength, if_neg hRead]
      · intro hRead
        have hExpected : frame.length = e.minResponseSize := by
          by_contra hOther
          exact hSize ⟨hRead, function_bit.1, hOther⟩
        obtain ⟨count, hCount⟩ : ∃ count, frame[2]? = some count := ⟨_, List.getElem?_eq_getElem (by omega)⟩
        rw [if_pos hRead, hCount, Option.map_some, Option.getD_some, hExpected] at hLength
        rw [hCount, Option.map_some, hLength]
    · left
      have hException : (frame ++ rest)[1]? = some (e.function ||| 0x80) := by rw [← hAt 1 (by decide), hFunction]
      rw [size_of_exception hException] at hLength
      exact ⟨hFunction, hLength⟩

end Expectation

/-- However the stream is cut, the search finds what one search in the whole finds, a response frame in it. -/
theorem extraction_chunk_independent (e : Expectation) (chunks : List (List UInt8)) :
    ∃ received whole, e.receive chunks = some received ∧ e.tryExtract chunks.flatten = some whole ∧
      received.frame = whole.frame ∧
      ∀ frame, received.frame = some frame →
        e.IsResponse frame ∧ ∃ before after, chunks.flatten = before ++ frame ++ after := by
  obtain ⟨received, hReceive, hReceived⟩ := @Expectation.receiveLoop_found e chunks [] rfl
  obtain ⟨whole, hWhole, hFollows⟩ := @Expectation.tryExtract_follows e chunks.flatten
  rw [List.nil_append] at hReceived
  refine ⟨received, whole, hReceive, hWhole, ?_, ?_⟩
  · rw [hReceived]
    cases hFrame : whole.frame with
    | none => exact (hFollows.waiting hFrame).1
    | some frame => rw [hFollows.found frame hFrame]
  · intro frame hFrame
    have hScan : e.scanner.scan chunks.flatten = (some frame, (e.scanner.scan chunks.flatten).2) :=
      Prod.ext (hReceived.symm.trans hFrame) rfl
    obtain ⟨before, tail, hSplit, rfl, hVerdict, -⟩ := Scanner.scan_some hScan
    refine ⟨Expectation.isResponse_of_verdict hVerdict, before, (e.scanner.scan chunks.flatten).2, ?_⟩
    rw [List.append_assoc]
    exact hSplit

namespace Expectation

variable (e : Expectation)

/-- What a transaction answers to the bytes of its attempts: the first frame found in them decides. -/
def answer (received : Bool) (streams : List (List UInt8)) : Except String (List UInt8) :=
  match streams.findSome? fun stream => (e.scanner.scan stream).1 with
  | some frame =>
    if frame[1]? = some e.function then .ok frame
    else .error ("modbus exception code " ++ toString (frame.getD 2 0).toNat)
  | none => .error (if received || streams.any (· ≠ []) then "modbus response too short" else "modbus response timeout")

def streams (readRetryCount : Int) (replies : Nat → List (List UInt8)) : List (List UInt8) :=
  (List.range (maxAttempts e.function readRetryCount)).map fun i => (replies i).flatten

variable {e}

theorem IsResponse.checked {frame : List UInt8} (h : e.IsResponse frame) :
    checkResponse e.slave e.function frame =
      if frame[1]? = some e.function then .ok frame
      else .error ("modbus exception code " ++ toString (frame.getD 2 0).toNat) := by
  obtain ⟨hValid, hSlave, hFunction⟩ := h
  have hCrc : validateCrc frame = .ok () := by
    rw [hasValidCrc] at hValid
    rw [validateCrc]
    split at hValid
    · cases hValid
    · rename_i hLong
      have hSame : crc16 (frame.take (frame.length - 2)) = receivedCrc frame := beq_iff_eq.mp hValid
      rw [if_neg hLong, if_neg (not_not.mpr hSame)]
  have hOther : e.function ≠ e.function ||| 0x80 := by
    intro h
    have hBit := @function_bit e
    exact hBit.2 (h ▸ hBit.1)
  have hFirst : frame.getD 0 0 = e.slave := by rw [List.getD_eq_getElem?_getD, hSlave, Option.getD_some]
  rw [checkResponse, hCrc]
  dsimp only
  rw [hFirst, if_neg (not_not.mpr rfl), List.getD_eq_getElem?_getD]
  obtain ⟨hException, -⟩ | ⟨hNormal, -⟩ := hFunction
  · rw [hException, Option.getD_some, if_pos rfl, if_neg (by simpa using hOther.symm)]
  · rw [hNormal, Option.getD_some, if_neg hOther, if_neg (not_not.mpr rfl), if_pos rfl]

theorem IsResponse.complete {frame : List UInt8} (h : e.IsResponse frame) (hSize : e.minResponseSize = e.normalSize) :
    isCompleteResponse frame e.function e.minResponseSize = true := by
  rw [isCompleteResponse, decide_eq_true_iff, isExceptionResponse, decide_eq_true_iff]
  obtain ⟨hException, hLength⟩ | ⟨-, hLength, -⟩ := h.function
  · exact .inr ⟨hLength, by rw [List.getD_eq_getElem?_getD, hException, Option.getD_some]⟩
  · exact .inl (by omega)

end Expectation

end EdgeGateway.Modbus.ModbusRtuClient
