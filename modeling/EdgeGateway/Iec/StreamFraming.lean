import EdgeGateway.Foundation.Frames
import EdgeGateway.Iec.Iec103Codec

/-! # Frames out of a received stream -/

namespace EdgeGateway.Iec

/-- A well-formed frame begins with 0x68 and is recognised, with its size, by its header alone. -/
structure StreamFormat where
  header : Nat
  malformed : List UInt8 → Bool
  frameSize : List UInt8 → Nat
  accepts : List UInt8 → Bool
  header_pos : 0 < header
  frameSize_pos : ∀ rxBuffer, 0 < frameSize rxBuffer
  starts : ∀ frame, accepts frame = true → frame.head? = some 0x68
  header_le : ∀ frame, accepts frame = true → header ≤ frame.length
  recognised : ∀ frame rxBuffer, accepts frame = true → rxBuffer.take header = frame.take header →
    malformed rxBuffer = false ∧ frameSize rxBuffer = frame.length

theorem byteAt_of_take {header offset : Nat} {bytes others : List UInt8} (h : bytes.take header = others.take header)
    (hOffset : offset < header) : byteAt bytes offset = byteAt others offset := by
  have hSame := congrArg (fun bytes => bytes[offset]?) h
  rw [List.getElem?_take_of_lt hOffset, List.getElem?_take_of_lt hOffset] at hSame
  rw [byteAt, byteAt, List.getD_eq_getElem?_getD, List.getD_eq_getElem?_getD, hSame]

theorem head_of_byteAt {bytes : List UInt8} {byte : UInt8} (hLength : 0 < bytes.length) (hByte : byteAt bytes 0 = byte) :
    bytes.head? = some byte := by
  cases bytes with
  | nil => cases hLength
  | cons first bytes => exact congrArg some hByte

section Formats

variable {frame rxBuffer : List UInt8}

theorem iec104_starts (h : isIec104Frame frame = true) : frame.head? = some 0x68 := by
  simp only [isIec104Frame, Bool.and_eq_true, decide_eq_true_eq, beq_iff_eq] at h
  exact head_of_byteAt (by omega) h.1.2

theorem iec104_header_le (h : isIec104Frame frame = true) : 2 ≤ frame.length := by
  simp only [isIec104Frame, Bool.and_eq_true, decide_eq_true_eq, beq_iff_eq] at h
  omega

theorem iec104_recognised (h : isIec104Frame frame = true) (hHeader : rxBuffer.take 2 = frame.take 2) :
    decide ((byteAt rxBuffer 1).toNat + 2 < 6) = false ∧ (byteAt rxBuffer 1).toNat + 2 = frame.length := by
  simp only [isIec104Frame, Bool.and_eq_true, decide_eq_true_eq, beq_iff_eq] at h
  rw [byteAt_of_take hHeader (Nat.lt_succ_self 1), decide_eq_false_iff_not]
  omega

theorem ft12_starts (h : isFt12VariableFrame frame = true) : frame.head? = some 0x68 := by
  simp only [isFt12VariableFrame, Bool.and_eq_true, decide_eq_true_eq, beq_iff_eq] at h
  exact head_of_byteAt (by omega) h.1.1.1.1.1.2

theorem ft12_header_le (h : isFt12VariableFrame frame = true) : 6 ≤ frame.length := by
  simp only [isFt12VariableFrame, Bool.and_eq_true, decide_eq_true_eq, beq_iff_eq] at h
  omega

def ft12Malformed (rxBuffer : List UInt8) : Bool :=
  byteAt rxBuffer 2 != byteAt rxBuffer 1 || byteAt rxBuffer 3 != 0x68 || decide ((byteAt rxBuffer 1).toNat + 6 < 6)

theorem ft12_recognised (h : isFt12VariableFrame frame = true) (hHeader : rxBuffer.take 6 = frame.take 6) :
    ft12Malformed rxBuffer = false ∧ (byteAt rxBuffer 1).toNat + 6 = frame.length := by
  simp only [isFt12VariableFrame, Bool.and_eq_true, decide_eq_true_eq, beq_iff_eq] at h
  obtain ⟨⟨⟨-, hLengths⟩, hSecond⟩, hSize⟩ := h.1
  have hByte : ∀ offset < 4, byteAt rxBuffer offset = byteAt frame offset :=
    fun offset hOffset => byteAt_of_take hHeader (by omega)
  rw [ft12Malformed, hByte 1 (by omega), hByte 2 (by omega), hByte 3 (by omega), hLengths, hSecond, hSize, hLengths]
  simp

end Formats

def iec104Stream : StreamFormat where
  header := 2
  malformed rxBuffer := decide ((byteAt rxBuffer 1).toNat + 2 < 6)
  frameSize rxBuffer := (byteAt rxBuffer 1).toNat + 2
  accepts := isIec104Frame
  header_pos := Nat.succ_pos 1
  frameSize_pos _ := Nat.succ_pos _
  starts _ := iec104_starts
  header_le _ := iec104_header_le
  recognised _ _ := iec104_recognised

def ft12Stream : StreamFormat where
  header := 6
  malformed := ft12Malformed
  frameSize rxBuffer := (byteAt rxBuffer 1).toNat + 6
  accepts := isFt12VariableFrame
  header_pos := Nat.succ_pos 5
  frameSize_pos _ := Nat.succ_pos _
  starts _ := ft12_starts
  header_le _ := ft12_header_le
  recognised _ _ := ft12_recognised

/-- What the inner loop leaves; `full` when it returned for the whole call. -/
structure Drained where
  frames : List (List UInt8)
  rxBuffer : List UInt8
  full : Bool

/-- `rxBuffer_` and what `readSome` will give, an empty chunk where it waited in vain. -/
structure Receiving where
  rxBuffer : List UInt8
  incoming : List (List UInt8)

def Receiving.stream (s : Receiving) : List UInt8 := s.rxBuffer ++ s.incoming.flatten

section Drain

variable (format : StreamFormat)

def eraseToStart (rxBuffer : List UInt8) : List UInt8 := rxBuffer.dropWhile (· ≠ 0x68)

theorem length_eraseToStart_le (rxBuffer : List UInt8) : (eraseToStart rxBuffer).length ≤ rxBuffer.length :=
  List.length_dropWhile_le _ _

def takeFrames (maxFrames : Int) (frames : List (List UInt8)) (rxBuffer : List UInt8) : Drained :=
  if rxBuffer.length < format.header then ⟨frames, rxBuffer, false⟩
  else if (eraseToStart rxBuffer).length < format.header then ⟨frames, eraseToStart rxBuffer, false⟩
  else if format.malformed (eraseToStart rxBuffer) then takeFrames maxFrames frames ((eraseToStart rxBuffer).drop 1)
  else if (eraseToStart rxBuffer).length < format.frameSize (eraseToStart rxBuffer) then
    ⟨frames, eraseToStart rxBuffer, false⟩
  else
    let frame := (eraseToStart rxBuffer).take (format.frameSize (eraseToStart rxBuffer))
    let rest := (eraseToStart rxBuffer).drop (format.frameSize (eraseToStart rxBuffer))
    if format.accepts frame then
      if maxFrames ≤ (frames ++ [frame]).length then ⟨frames ++ [frame], rest, true⟩
      else takeFrames maxFrames (frames ++ [frame]) rest
    else takeFrames maxFrames frames rest
termination_by rxBuffer.length
decreasing_by
  all_goals
    have hErased := length_eraseToStart_le rxBuffer
    have hHeaderPos := format.header_pos
    have hSizePos := format.frameSize_pos (eraseToStart rxBuffer)
    rw [List.length_drop]
    omega

def drainAttempts (maxFrames : Int) : Nat → List (List UInt8) → Receiving → List (List UInt8) × Receiving
  | 0, frames, s => (frames, s)
  | attempts + 1, frames, s =>
    let chunk := s.incoming.headD []
    let incoming := s.incoming.tail
    if chunk = [] ∧ s.rxBuffer = [] then (frames, ⟨s.rxBuffer, incoming⟩)
    else
      let drained := takeFrames format maxFrames frames (s.rxBuffer ++ chunk)
      if drained.full then (drained.frames, ⟨drained.rxBuffer, incoming⟩)
      else if drained.frames ≠ [] ∧ chunk = [] then (drained.frames, ⟨drained.rxBuffer, incoming⟩)
      else drainAttempts maxFrames attempts drained.frames ⟨drained.rxBuffer, incoming⟩

def drainFrames (maxFrames : Int) (s : Receiving) : List (List UInt8) × Receiving :=
  drainAttempts format maxFrames (max 1 maxFrames).toNat [] s

end Drain

def drainIec104Frames (maxFrames : Int) (s : Receiving) : List (List UInt8) × Receiving :=
  drainFrames iec104Stream maxFrames s

def drainFt12Frames (maxFrames : Int) (s : Receiving) : List (List UInt8) × Receiving :=
  drainFrames ft12Stream maxFrames s

def drainCalls (drain : Int → Receiving → List (List UInt8) × Receiving) : List Int → Receiving → List (List UInt8)
  | [], _ => []
  | maxFrames :: calls, s => (drain maxFrames s).1 ++ drainCalls drain calls (drain maxFrames s).2

/-- The header decides on its own what the buffer shows of a frame. -/
structure StreamFormat.ReadsHeader (format : StreamFormat) : Prop where
  malformed : ∀ rxBuffer others, rxBuffer.take format.header = others.take format.header →
    format.malformed rxBuffer = format.malformed others
  frameSize : ∀ rxBuffer others, rxBuffer.take format.header = others.take format.header →
    format.frameSize rxBuffer = format.frameSize others

theorem iec104_readsHeader : iec104Stream.ReadsHeader where
  malformed rxBuffer others h := by
    have hSize : byteAt rxBuffer 1 = byteAt others 1 := byteAt_of_take h (Nat.lt_succ_self 1)
    exact congrArg (fun size : UInt8 => decide (size.toNat + 2 < 6)) hSize
  frameSize rxBuffer others h := by
    have hSize : byteAt rxBuffer 1 = byteAt others 1 := byteAt_of_take h (Nat.lt_succ_self 1)
    exact congrArg (fun size : UInt8 => size.toNat + 2) hSize

theorem ft12_readsHeader : ft12Stream.ReadsHeader where
  malformed rxBuffer others h := by
    have hByte (offset : Nat) (hOffset : offset < 6) : byteAt rxBuffer offset = byteAt others offset :=
      byteAt_of_take h hOffset
    change ft12Malformed rxBuffer = ft12Malformed others
    rw [ft12Malformed, ft12Malformed, hByte 1 (by decide), hByte 2 (by decide), hByte 3 (by decide)]
  frameSize rxBuffer others h := by
    have hSize : byteAt rxBuffer 1 = byteAt others 1 := byteAt_of_take h (by decide : 1 < 6)
    exact congrArg (fun size : UInt8 => size.toNat + 6) hSize

/-- What the inner loop would take of a stream that is there at once, without a limit. -/
def found (format : StreamFormat) (stream : List UInt8) : List (List UInt8) :=
  if (eraseToStart stream).length < format.header then []
  else if format.malformed (eraseToStart stream) then found format ((eraseToStart stream).drop 1)
  else if (eraseToStart stream).length < format.frameSize (eraseToStart stream) then []
  else
    let frame := (eraseToStart stream).take (format.frameSize (eraseToStart stream))
    let rest := (eraseToStart stream).drop (format.frameSize (eraseToStart stream))
    if format.accepts frame then frame :: found format rest else found format rest
termination_by stream.length
decreasing_by
  all_goals
    have hErased := length_eraseToStart_le stream
    have hHeaderPos := format.header_pos
    have hSizePos := format.frameSize_pos (eraseToStart stream)
    rw [List.length_drop]
    omega

section Found

variable {format : StreamFormat} {rxBuffer unread stream : List UInt8}

theorem eraseToStart_start (bytes : List UInt8) : eraseToStart (0x68 :: bytes) = 0x68 :: bytes :=
  List.dropWhile_cons_of_neg (by decide)

theorem eraseToStart_skip {byte : UInt8} (hOther : byte ≠ 0x68) (bytes : List UInt8) :
    eraseToStart (byte :: bytes) = eraseToStart bytes := List.dropWhile_cons_of_pos (decide_eq_true hOther)

theorem eraseToStart_cases (bytes : List UInt8) : eraseToStart bytes = [] ∨ ∃ rest, eraseToStart bytes = 0x68 :: rest := by
  induction bytes with
  | nil => exact .inl rfl
  | cons byte bytes ih =>
    obtain rfl | hOther := eq_or_ne byte 0x68
    · exact .inr ⟨bytes, eraseToStart_start bytes⟩
    · rw [eraseToStart_skip hOther]
      exact ih

theorem eraseToStart_gap {gap : List UInt8} (hGap : 0x68 ∉ gap) : eraseToStart gap = [] := dropWhile_gap hGap

theorem eraseToStart_append (rxBuffer unread : List UInt8) :
    eraseToStart (eraseToStart rxBuffer ++ unread) = eraseToStart (rxBuffer ++ unread) := by
  induction rxBuffer with
  | nil => rfl
  | cons byte rxBuffer ih =>
    obtain rfl | hOther := eq_or_ne byte 0x68
    · rw [eraseToStart_start]
    · rw [eraseToStart_skip hOther, List.cons_append, eraseToStart_skip hOther, ih]

theorem found_erased (format : StreamFormat) (rxBuffer unread : List UInt8) :
    found format (eraseToStart rxBuffer ++ unread) = found format (rxBuffer ++ unread) := by
  rw [found, eraseToStart_append, ← found]

theorem found_short (hShort : (eraseToStart stream).length < format.header) : found format stream = [] := by
  rw [found, if_pos hShort]

theorem start_of_header (hHeader : format.header ≤ (eraseToStart rxBuffer).length) :
    ∃ rest, eraseToStart rxBuffer = 0x68 :: rest := by
  obtain hNone | hStart := eraseToStart_cases rxBuffer
  · have hPos := format.header_pos
    rw [hNone, List.length_nil] at hHeader
    omega
  · exact hStart

section Front

variable {front : List UInt8} (hStart : ∃ rest, front = 0x68 :: rest)

include hStart

theorem eraseToStart_front (unread : List UInt8) : eraseToStart (front ++ unread) = front ++ unread := by
  obtain ⟨rest, rfl⟩ := hStart
  exact eraseToStart_start _

theorem found_malformed (hReads : format.ReadsHeader) (hHeader : format.header ≤ front.length)
    (hMalformed : format.malformed front = true) (unread : List UInt8) :
    found format (front ++ unread) = found format (front.drop 1 ++ unread) := by
  have hPos := format.header_pos
  have hSame : format.malformed (front ++ unread) = true :=
    (hReads.malformed _ _ (List.take_append_of_le_length hHeader)).trans hMalformed
  rw [found, eraseToStart_front hStart, if_neg, if_pos hSame, List.drop_append_of_le_length (by omega)]
  rw [List.length_append]
  omega

theorem found_incomplete (hHeader : format.header ≤ front.length) (hWell : format.malformed front = false)
    (hShort : front.length < format.frameSize front) : found format front = [] := by
  have hFront := eraseToStart_front hStart []
  rw [List.append_nil] at hFront
  rw [found, hFront, if_neg (Nat.not_lt.mpr hHeader), if_neg (Bool.eq_false_iff.mp hWell), if_pos hShort]

/-- A complete span is a frame, or it is passed as a whole. -/
theorem found_complete (hReads : format.ReadsHeader) (hHeader : format.header ≤ front.length)
    (hWell : format.malformed front = false) (hComplete : format.frameSize front ≤ front.length) (unread : List UInt8) :
    found format (front ++ unread) =
      (if format.accepts (front.take (format.frameSize front)) then [front.take (format.frameSize front)] else []) ++
        found format (front.drop (format.frameSize front) ++ unread) := by
  have hTake : (front ++ unread).take format.header = front.take format.header := List.take_append_of_le_length hHeader
  have hSame : ¬format.malformed (front ++ unread) = true := by
    rw [hReads.malformed _ _ hTake, hWell]
    exact Bool.false_ne_true
  have hLong : ¬(front ++ unread).length < format.header := by
    rw [List.length_append]
    omega
  have hThere : ¬(front ++ unread).length < format.frameSize front := by
    rw [List.length_append]
    omega
  rw [found, eraseToStart_front hStart, if_neg hLong, if_neg hSame, hReads.frameSize _ _ hTake, if_neg hThere,
    List.take_append_of_le_length hComplete, List.drop_append_of_le_length hComplete]
  dsimp only
  split
  · rw [List.singleton_append]
  · rw [List.nil_append]

end Front

theorem found_of_spaced (hReads : format.ReadsHeader) {frames : List (List UInt8)}
    (h : Spaced 0x68 format.accepts frames stream) : found format stream = frames := by
  induction h with
  | @gap gap hGap =>
    apply found_short
    rw [eraseToStart_gap hGap]
    exact format.header_pos
  | @frame gap frame symbols frames hGap hAccepts hLater ih =>
    have hSkip : found format (gap ++ (frame ++ symbols)) = found format (frame ++ symbols) := by
      rw [← found_erased, eraseToStart_gap hGap, List.nil_append]
    obtain ⟨hWell, hSize⟩ := format.recognised frame frame hAccepts rfl
    have hStart : ∃ rest, frame = 0x68 :: rest := List.head?_eq_some_iff.mp (format.starts frame hAccepts)
    rw [hSkip, found_complete hStart hReads (format.header_le frame hAccepts) hWell (Nat.le_of_eq hSize), hSize,
      List.take_length, if_pos hAccepts, List.drop_length, List.nil_append, ih, List.singleton_append]

end Found

section Taking

variable {format : StreamFormat} (hReads : format.ReadsHeader)

include hReads

/-- The inner loop takes the next frames that the stream shows, and stops for want of bytes or with a frame taken. -/
theorem takeFrames_spec (maxFrames : Int) (frames : List (List UInt8)) (rxBuffer unread : List UInt8) :
    ∃ taken, (takeFrames format maxFrames frames rxBuffer).frames = frames ++ taken ∧
      found format (rxBuffer ++ unread) =
        taken ++ found format ((takeFrames format maxFrames frames rxBuffer).rxBuffer ++ unread) ∧
      ((takeFrames format maxFrames frames rxBuffer).full = true → taken ≠ []) ∧
      ((takeFrames format maxFrames frames rxBuffer).full = false →
        found format (takeFrames format maxFrames frames rxBuffer).rxBuffer = []) := by
  fun_induction takeFrames format maxFrames frames rxBuffer with
  | case1 frames rxBuffer hShort =>
    refine ⟨[], (List.append_nil frames).symm, rfl, Bool.false_ne_true.elim, fun _ => ?_⟩
    exact found_short (Nat.lt_of_le_of_lt (length_eraseToStart_le rxBuffer) hShort)
  | case2 frames rxBuffer hEnough hShort =>
    refine ⟨[], (List.append_nil frames).symm, (found_erased format rxBuffer unread).symm, Bool.false_ne_true.elim,
      fun _ => ?_⟩
    have hErased := found_erased format rxBuffer []
    rw [List.append_nil, List.append_nil] at hErased
    exact hErased.trans (found_short hShort)
  | case3 frames rxBuffer hEnough hHeader hMalformed ih =>
    obtain ⟨taken, hFrames, hFound, hFull, hDone⟩ := ih
    have hStart := start_of_header (Nat.le_of_not_lt hHeader)
    refine ⟨taken, hFrames, ?_, hFull, hDone⟩
    rw [← hFound, ← found_erased, found_malformed hStart hReads (Nat.le_of_not_lt hHeader) hMalformed]
  | case4 frames rxBuffer hEnough hHeader hMalformed hShort =>
    refine ⟨[], (List.append_nil frames).symm, (found_erased format rxBuffer unread).symm, Bool.false_ne_true.elim,
      fun _ => ?_⟩
    exact found_incomplete (start_of_header (Nat.le_of_not_lt hHeader)) (Nat.le_of_not_lt hHeader)
      (Bool.eq_false_iff.mpr hMalformed) hShort
  | case5 frames rxBuffer hEnough hHeader hMalformed hComplete frame rest hAccepts =>
    refine ⟨[frame], rfl, ?_, fun _ => List.cons_ne_nil _ _, fun hFull => Bool.noConfusion hFull⟩
    rw [← found_erased, found_complete (start_of_header (Nat.le_of_not_lt hHeader)) hReads (Nat.le_of_not_lt hHeader)
      (Bool.eq_false_iff.mpr hMalformed) (Nat.le_of_not_lt hComplete), if_pos hAccepts]
  | case6 frames rxBuffer hEnough hHeader hMalformed hComplete frame rest hAccepts hMore =>
    rename_i ih
    obtain ⟨taken, hFrames, hFound, hFull, hDone⟩ := ih
    refine ⟨frame :: taken, ?_, ?_, fun _ => List.cons_ne_nil _ _, hDone⟩
    · rw [hFrames, List.append_assoc, List.singleton_append]
    · rw [← found_erased, found_complete (start_of_header (Nat.le_of_not_lt hHeader)) hReads
        (Nat.le_of_not_lt hHeader) (Bool.eq_false_iff.mpr hMalformed) (Nat.le_of_not_lt hComplete), if_pos hAccepts,
        hFound]
      rfl
  | case7 frames rxBuffer hEnough hHeader hMalformed hComplete frame rest hRefused =>
    rename_i ih
    obtain ⟨taken, hFrames, hFound, hFull, hDone⟩ := ih
    refine ⟨taken, hFrames, ?_, hFull, hDone⟩
    rw [← hFound, ← found_erased, found_complete (start_of_header (Nat.le_of_not_lt hHeader)) hReads
      (Nat.le_of_not_lt hHeader) (Bool.eq_false_iff.mpr hMalformed) (Nat.le_of_not_lt hComplete), if_neg hRefused,
      List.nil_append]

/-- What reading once and taking frames leaves: fewer chunks or frames, unless no frame is left. -/
theorem attempt_spec (maxFrames : Int) (frames : List (List UInt8)) (s : Receiving) : ∃ taken after,
    (takeFrames format maxFrames frames (s.rxBuffer ++ s.incoming.headD [])).frames = frames ++ taken ∧
      found format s.stream = taken ++ after ∧
      found format ((takeFrames format maxFrames frames (s.rxBuffer ++ s.incoming.headD [])).rxBuffer ++
        s.incoming.tail.flatten) = after ∧
      (after = [] ∨ s.incoming.tail.length + after.length < s.incoming.length + (taken ++ after).length) := by
  obtain ⟨rxBuffer, incoming⟩ := s
  have hStream : rxBuffer ++ incoming.flatten = (rxBuffer ++ incoming.headD []) ++ incoming.tail.flatten := by
    cases incoming with
    | nil => simp
    | cons chunk later => simp
  obtain ⟨taken, hFrames, hFound, hFull, hDone⟩ :=
    takeFrames_spec hReads maxFrames frames (rxBuffer ++ incoming.headD []) incoming.tail.flatten
  rw [Receiving.stream, hStream]
  refine ⟨taken, _, hFrames, hFound, rfl, ?_⟩
  rw [List.length_append]
  cases incoming with
  | cons chunk later =>
    rw [List.tail_cons, List.length_cons]
    omega
  | nil =>
    -- nothing was read: a frame was taken, or the loop ran out of bytes with no more to come
    cases hReturned : (takeFrames format maxFrames frames (rxBuffer ++ List.headD [] [])).full with
    | true =>
      have hTaken := List.length_pos_iff.mpr (hFull hReturned)
      right
      dsimp only
      rw [List.tail_nil, List.length_nil]
      omega
    | false =>
      have hNone := hDone hReturned
      dsimp only at hNone ⊢
      rw [List.tail_nil, List.flatten_nil, List.append_nil]
      exact .inl hNone

/-- Attempts take the next frames of the stream, in order. From the first one on something is read or taken, or nothing
    is left. -/
theorem drainAttempts_spec (maxFrames : Int) (attempts : Nat) (frames : List (List UInt8)) (s : Receiving) :
    ∃ taken after, (drainAttempts format maxFrames attempts frames s).1 = frames ++ taken ∧
      found format s.stream = taken ++ after ∧
      found format (drainAttempts format maxFrames attempts frames s).2.stream = after ∧
      (drainAttempts format maxFrames attempts frames s).2.incoming.length ≤ s.incoming.length ∧
      (0 < attempts → after = [] ∨ (drainAttempts format maxFrames attempts frames s).2.incoming.length + after.length <
        s.incoming.length + (taken ++ after).length) := by
  induction attempts generalizing frames s with
  | zero => exact ⟨[], _, (List.append_nil frames).symm, rfl, rfl, le_rfl, fun hPos => absurd hPos (Nat.lt_irrefl 0)⟩
  | succ attempts ih =>
    have hTail : s.incoming.tail.length ≤ s.incoming.length := by
      rw [List.length_tail]
      omega
    obtain ⟨taken, after, hFrames, hFound, hAfter, hProgress⟩ := attempt_spec hReads maxFrames frames s
    rw [drainAttempts]
    dsimp only
    split
    · next hNothing =>
      -- on an empty buffer the loop would have taken nothing either
      have hSame : takeFrames format maxFrames frames (s.rxBuffer ++ s.incoming.headD []) = ⟨frames, s.rxBuffer, false⟩ := by
        rw [hNothing.1, hNothing.2, List.append_nil, takeFrames]
        exact if_pos format.header_pos
      rw [hSame] at hFrames hAfter
      exact ⟨taken, after, hFrames, hFound, hAfter, hTail, fun _ => hProgress⟩
    · split
      · exact ⟨taken, after, hFrames, hFound, hAfter, hTail, fun _ => hProgress⟩
      · split
        · exact ⟨taken, after, hFrames, hFound, hAfter, hTail, fun _ => hProgress⟩
        · obtain ⟨more, others, hMore, hFoundMore, hOthers, hRead, -⟩ :=
            ih (takeFrames format maxFrames frames (s.rxBuffer ++ s.incoming.headD [])).frames
              ⟨(takeFrames format maxFrames frames (s.rxBuffer ++ s.incoming.headD [])).rxBuffer, s.incoming.tail⟩
          rw [Receiving.stream, hAfter] at hFoundMore
          refine ⟨taken ++ more, others, ?_, ?_, hOthers, hRead.trans hTail, fun _ => ?_⟩
          · rw [hMore, hFrames, List.append_assoc]
          · rw [hFound, hFoundMore, List.append_assoc]
          · cases others with
            | nil => exact .inl rfl
            | cons frame others =>
              right
              dsimp only at hRead
              rw [hFoundMore] at hProgress
              obtain hNone | hLess := hProgress
              · exact absurd hNone (List.append_ne_nil_of_right_ne_nil more (List.cons_ne_nil frame others))
              · simp only [List.length_append, List.length_cons] at hLess ⊢
                omega

theorem drainFrames_spec (maxFrames : Int) (s : Receiving) : ∃ taken after,
    (drainFrames format maxFrames s).1 = taken ∧ found format s.stream = taken ++ after ∧
      found format (drainFrames format maxFrames s).2.stream = after ∧
      (after = [] ∨ (drainFrames format maxFrames s).2.incoming.length + after.length <
        s.incoming.length + (taken ++ after).length) := by
  have hAttempts : 0 < (max 1 maxFrames).toNat := by omega
  obtain ⟨taken, after, hFrames, hFound, hAfter, -, hProgress⟩ :=
    drainAttempts_spec hReads maxFrames (max 1 maxFrames).toNat [] s
  exact ⟨taken, after, hFrames, hFound, hAfter, hProgress hAttempts⟩

end Taking

def Delivers (drain : Int → Receiving → List (List UInt8) × Receiving) (chunks : List (List UInt8)) (calls : List Int)
    (frames : List (List UInt8)) : Prop :=
  drainCalls drain calls ⟨[], chunks⟩ <+: frames ∧
    (chunks.length + frames.length ≤ calls.length → drainCalls drain calls ⟨[], chunks⟩ = frames)

theorem drainCalls_nothing {format : StreamFormat} (hReads : format.ReadsHeader) (calls : List Int) (s : Receiving)
    (h : found format s.stream = []) : drainCalls (drainFrames format) calls s = [] := by
  induction calls generalizing s with
  | nil => rfl
  | cons maxFrames calls ih =>
    obtain ⟨taken, after, hFrames, hFound, hAfter, -⟩ := drainFrames_spec hReads maxFrames s
    obtain ⟨rfl, rfl⟩ := List.append_eq_nil_iff.mp (hFound.symm.trans h)
    rw [drainCalls, hFrames, List.nil_append]
    exact ih _ hAfter

theorem drainCalls_spec {format : StreamFormat} (hReads : format.ReadsHeader) (calls : List Int) (s : Receiving) :
    drainCalls (drainFrames format) calls s <+: found format s.stream ∧
      (s.incoming.length + (found format s.stream).length ≤ calls.length →
        drainCalls (drainFrames format) calls s = found format s.stream) := by
  induction calls generalizing s with
  | nil =>
    refine ⟨List.nil_prefix, fun hEnough => ?_⟩
    rw [List.length_nil] at hEnough
    exact (List.length_eq_zero_iff.mp (by omega)).symm
  | cons maxFrames calls ih =>
    obtain ⟨taken, after, hFrames, hFound, hAfter, hProgress⟩ := drainFrames_spec hReads maxFrames s
    obtain ⟨hPrefix, hAll⟩ := ih (drainFrames format maxFrames s).2
    rw [hAfter] at hPrefix hAll
    rw [drainCalls, hFrames, hFound]
    refine ⟨(List.prefix_append_right_inj taken).mpr hPrefix, fun hEnough => congrArg (taken ++ ·) ?_⟩
    obtain rfl | hLess := hProgress
    · exact drainCalls_nothing hReads calls _ hAfter
    · rw [List.length_cons] at hEnough
      exact hAll (by omega)

theorem delivers_found {format : StreamFormat} (hReads : format.ReadsHeader) {frames chunks : List (List UInt8)}
    (hFound : found format chunks.flatten = frames) (calls : List Int) :
    Delivers (drainFrames format) chunks calls frames := by
  have hSpec := drainCalls_spec hReads calls ⟨[], chunks⟩
  rw [Receiving.stream, List.nil_append, hFound] at hSpec
  exact hSpec

/-- Whatever pieces a stream of well-formed frames comes in and however many frames each call may take. -/
theorem stream_framing_loses_nothing {apdus telegrams chunks pieces : List (List UInt8)}
    (hApdus : Spaced 0x68 isIec104Frame apdus chunks.flatten)
    (hTelegrams : Spaced 0x68 isFt12VariableFrame telegrams pieces.flatten) (calls : List Int) :
    Delivers drainIec104Frames chunks calls apdus ∧ Delivers drainFt12Frames pieces calls telegrams := by
  constructor
  · exact delivers_found iec104_readsHeader (found_of_spaced iec104_readsHeader hApdus) calls
  · exact delivers_found ft12_readsHeader (found_of_spaced ft12_readsHeader hTelegrams) calls

/-- A supervisory and a starting frame behind two stray bytes, cut inside the second; a telegram cut inside its header. -/
theorem two_links_delivered :
    Delivers drainIec104Frames [[0x16, 0x00, 0x68, 4, 1, 0, 2, 0, 0x68], [4, 0x07, 0, 0], [], [0]] [1, 1, 5, 2]
      [[0x68, 4, 1, 0, 2, 0], [0x68, 4, 0x07, 0, 0, 0]] ∧
    Delivers drainFt12Frames [[0x68, 2, 2], [0x68, 0x08, 0x01, 0x09, 0x16, 0xE5]] [1, 1, 5, 2]
      [[0x68, 2, 2, 0x68, 0x08, 0x01, 0x09, 0x16]] :=
  stream_framing_loses_nothing
    (@Spaced.frame _ _ _ [0x16, 0x00] [0x68, 4, 1, 0, 2, 0] _ _ (by decide) (by decide)
      (@Spaced.frame _ _ _ [] [0x68, 4, 0x07, 0, 0, 0] _ _ (by decide) (by decide) (@Spaced.gap _ _ _ [] (by decide))))
    (@Spaced.frame _ _ _ [] [0x68, 2, 2, 0x68, 0x08, 0x01, 0x09, 0x16] _ _ (by decide) (by decide)
      (@Spaced.gap _ _ _ [0xE5] (by decide))) _

end EdgeGateway.Iec
