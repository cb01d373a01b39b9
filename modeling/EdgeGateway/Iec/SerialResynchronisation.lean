import EdgeGateway.Iec.StreamFraming

/-! # Finding a frame behind noise -/

namespace EdgeGateway.Iec

def ShowsHeader (format : StreamFormat) (stream : List UInt8) : Prop :=
  stream.head? = some 0x68 ∧ format.header ≤ stream.length ∧ format.malformed stream = false

/-- Scanning the bytes, with `after` behind them, ends at the first byte of `after`. -/
inductive Passed (format : StreamFormat) (after : List UInt8) : List UInt8 → Prop
  | here : Passed format after []
  | byte {b : UInt8} {before : List UInt8} : ¬ShowsHeader format (b :: (before ++ after)) →
      Passed format after before → Passed format after (b :: before)
  | span {span before : List UInt8} : ShowsHeader format (span ++ (before ++ after)) →
      format.frameSize (span ++ (before ++ after)) = span.length → Passed format after before →
      Passed format after (span ++ before)

section Scan

variable {format : StreamFormat} {stream frame before after : List UInt8}

theorem eraseToStart_split (stream : List UInt8) : ∃ gap, stream = gap ++ eraseToStart stream ∧ 0x68 ∉ gap := by
  refine ⟨stream.takeWhile (· ≠ 0x68), List.takeWhile_append_dropWhile.symm, fun hStart => ?_⟩
  have hOther := List.mem_takeWhile_imp hStart
  exact of_decide_eq_true hOther rfl

theorem Passed.gap (h : Passed format after before) {gap : List UInt8} (hGap : 0x68 ∉ gap) :
    Passed format after (gap ++ before) := by
  induction gap with
  | nil => exact h
  | cons b gap ih =>
    refine .byte (fun hShows => hGap ?_) (ih (List.not_mem_of_not_mem_cons hGap))
    have hByte : b = 0x68 := Option.some.inj hShows.1
    rw [hByte]
    exact List.mem_cons_self

theorem found_byte (hReads : format.ReadsHeader) {b : UInt8} (hNone : ¬ShowsHeader format (b :: stream))
    (hLength : format.header ≤ stream.length) : found format (b :: stream) = found format stream := by
  obtain rfl | hOther := eq_or_ne b 0x68
  · have hHeader : format.header ≤ (0x68 :: stream).length := by
      rw [List.length_cons]
      omega
    have hMalformed : format.malformed (0x68 :: stream) = true := by
      rw [← Bool.not_eq_false]
      exact fun hWell => hNone ⟨rfl, hHeader, hWell⟩
    have hPassed := found_malformed ⟨stream, rfl⟩ hReads hHeader hMalformed []
    rw [List.append_nil, List.append_nil] at hPassed
    exact hPassed
  · rw [← List.append_nil (b :: stream), ← found_erased, eraseToStart_skip hOther, found_erased, List.append_nil]

theorem found_span (hReads : format.ReadsHeader) {span : List UInt8} (hShows : ShowsHeader format (span ++ stream))
    (hSize : format.frameSize (span ++ stream) = span.length) :
    found format (span ++ stream) = (if format.accepts span then [span] else []) ++ found format stream := by
  have hComplete : format.frameSize (span ++ stream) ≤ (span ++ stream).length := by
    rw [hSize, List.length_append]
    omega
  have hFound := found_complete (List.head?_eq_some_iff.mp hShows.1) hReads hShows.2.1 hShows.2.2 hComplete []
  rw [List.append_nil, List.append_nil, hSize, List.take_left, List.drop_left] at hFound
  exact hFound

theorem found_frame (hReads : format.ReadsHeader) (hFrame : format.accepts frame = true) (rest : List UInt8) :
    found format (frame ++ rest) = frame :: found format rest := by
  have hHeader := format.header_le frame hFrame
  obtain ⟨hWell, hSize⟩ := format.recognised frame (frame ++ rest) hFrame (List.take_append_of_le_length hHeader)
  have hShows : ShowsHeader format (frame ++ rest) := by
    refine ⟨?_, ?_, hWell⟩
    · rw [List.head?_append, format.starts frame hFrame]
      rfl
    · rw [List.length_append]
      omega
  rw [found_span hReads hShows hSize, if_pos hFrame, List.singleton_append]

theorem found_of_passed (hReads : format.ReadsHeader) (hFrame : format.accepts frame = true) {rest : List UInt8}
    (h : Passed format (frame ++ rest) before) : frame ∈ found format (before ++ (frame ++ rest)) := by
  have hHeader := format.header_le frame hFrame
  induction h with
  | here =>
    rw [List.nil_append, found_frame hReads hFrame]
    exact List.mem_cons_self
  | @byte b before hNone hPassed ih =>
    rw [List.cons_append, found_byte hReads hNone]
    · exact ih
    · rw [List.length_append, List.length_append]
      omega
  | @span span before hShows hSize hPassed ih =>
    rw [List.append_assoc, found_span hReads hShows hSize]
    exact List.mem_append_right _ ih

/-- Where a header stands behind a gap, its whole span is passed or taken. -/
theorem Passed.jump (hHeader : format.header ≤ (eraseToStart stream).length)
    (hWell : format.malformed (eraseToStart stream) = false)
    (hComplete : format.frameSize (eraseToStart stream) ≤ (eraseToStart stream).length)
    (hRest : (eraseToStart stream).drop (format.frameSize (eraseToStart stream)) = before ++ after)
    (h : Passed format after before) :
    ∃ passed, stream = passed ++ after ∧ Passed format after passed := by
  obtain ⟨gap, hSplit, hGap⟩ := eraseToStart_split stream
  have hSpan : (eraseToStart stream).take (format.frameSize (eraseToStart stream)) ++ (before ++ after) =
      eraseToStart stream := by
    rw [← hRest, List.take_append_drop]
  refine ⟨gap ++ ((eraseToStart stream).take (format.frameSize (eraseToStart stream)) ++ before), ?_, Passed.gap ?_ hGap⟩
  · rw [List.append_assoc, List.append_assoc, hSpan]
    exact hSplit
  · refine .span ?_ ?_ h
    · rw [hSpan]
      obtain ⟨first, hStart⟩ := start_of_header hHeader
      exact ⟨by rw [hStart, List.head?_cons], hHeader, hWell⟩
    · rw [hSpan, List.length_take, Nat.min_eq_left hComplete]

theorem passed_of_found (h : frame ∈ found format stream) :
    ∃ before rest, stream = before ++ (frame ++ rest) ∧ Passed format (frame ++ rest) before := by
  fun_induction found format stream with
  | case1 stream hShort => cases h
  | case2 stream hHeader hMalformed ih =>
    obtain ⟨gap, hSplit, hGap⟩ := eraseToStart_split stream
    obtain ⟨first, hStart⟩ := start_of_header (Nat.le_of_not_lt hHeader)
    obtain ⟨before, rest, hRest, hPassed⟩ := ih h
    rw [hStart, List.drop_one, List.tail_cons] at hRest
    refine ⟨gap ++ 0x68 :: before, rest, ?_, Passed.gap (.byte (fun hShows => ?_) hPassed) hGap⟩
    · rw [List.append_assoc, List.cons_append, ← hRest, ← hStart]
      exact hSplit
    · rw [← hRest, ← hStart] at hShows
      exact Bool.false_ne_true (hShows.2.2.symm.trans hMalformed)
  | case3 stream hHeader hMalformed hShort => cases h
  | case4 stream hHeader hMalformed hComplete span rest hAccepts ih =>
    have hWell := Bool.eq_false_iff.mpr hMalformed
    obtain rfl | hLater := List.mem_cons.mp h
    · obtain ⟨gap, hSplit, hGap⟩ := eraseToStart_split stream
      refine ⟨gap, rest, ?_, ?_⟩
      · rw [List.take_append_drop]
        exact hSplit
      · rw [← List.append_nil gap]
        exact Passed.here.gap hGap
    · obtain ⟨before, later, hRest, hPassed⟩ := ih hLater
      obtain ⟨passed, hStream, hAll⟩ :=
        hPassed.jump (Nat.le_of_not_lt hHeader) hWell (Nat.le_of_not_lt hComplete) hRest
      exact ⟨passed, later, hStream, hAll⟩
  | case5 stream hHeader hMalformed hComplete span rest hRefused ih =>
    obtain ⟨before, later, hRest, hPassed⟩ := ih h
    obtain ⟨passed, hStream, hAll⟩ := hPassed.jump (Nat.le_of_not_lt hHeader) (Bool.eq_false_iff.mpr hMalformed)
      (Nat.le_of_not_lt hComplete) hRest
    exact ⟨passed, later, hStream, hAll⟩

theorem length_found_le (format : StreamFormat) (stream : List UInt8) : (found format stream).length ≤ stream.length := by
  have hPos := format.header_pos
  fun_induction found format stream with
  | case1 stream hShort => exact Nat.zero_le _
  | case2 stream hHeader hMalformed ih =>
    have hErased := length_eraseToStart_le stream
    rw [List.length_drop] at ih
    omega
  | case3 stream hHeader hMalformed hShort => exact Nat.zero_le _
  | case4 stream hHeader hMalformed hComplete span rest hAccepts ih =>
    have hErased := length_eraseToStart_le stream
    have hSize := format.frameSize_pos (eraseToStart stream)
    rw [List.length_drop] at ih
    rw [List.length_cons]
    omega
  | case5 stream hHeader hMalformed hComplete span rest hRefused ih =>
    have hErased := length_eraseToStart_le stream
    rw [List.length_drop] at ih
    omega

end Scan

/-- The frame behind the noise is returned iff the scan of what was received arrives at a copy of it. -/
theorem frame_behind_noise_iff {noise frame : List UInt8} {chunks : List (List UInt8)}
    (hFrame : isFt12VariableFrame frame = true) (hStream : chunks.flatten = noise ++ frame) (calls : List Int)
    (hEnough : chunks.length + (noise ++ frame).length ≤ calls.length) :
    frame ∈ drainCalls drainFt12Frames calls ⟨[], chunks⟩ ↔
      ∃ before rest, noise ++ frame = before ++ (frame ++ rest) ∧ Passed ft12Stream (frame ++ rest) before := by
  obtain ⟨-, hAll⟩ := delivers_found ft12_readsHeader (congrArg (found ft12Stream) hStream) calls
  have hFound : drainCalls drainFt12Frames calls ⟨[], chunks⟩ = found ft12Stream (noise ++ frame) := by
    apply hAll
    have hLength := length_found_le ft12Stream (noise ++ frame)
    omega
  rw [hFound]
  constructor
  · exact passed_of_found
  · rintro ⟨before, rest, hSplit, hPassed⟩
    rw [hSplit]
    exact found_of_passed ft12_readsHeader hFrame hPassed

def classTwoRequest : List UInt8 := [0x68, 2, 2, 0x68, 0x08, 0x01, 0x09, 0x16]

/-- A stray end byte before the frame is passed. -/
theorem frame_behind_end_byte :
    classTwoRequest ∈ drainCalls drainFt12Frames (List.replicate 11 4) ⟨[], [[0x16], classTwoRequest]⟩ :=
  (@frame_behind_noise_iff [0x16] classTwoRequest [[0x16], classTwoRequest] (by decide) rfl (List.replicate 11 4)
    (by decide)).mpr ⟨[0x16], [], rfl, .byte (fun hShows => absurd hShows.1 (by decide)) .here⟩

def cutHeader : List UInt8 := [0x68, 4, 4, 0x68]

theorem cutHeader_found : found ft12Stream (cutHeader ++ classTwoRequest) = [] := by
  have hShows : ShowsHeader ft12Stream ([0x68, 4, 4, 0x68, 0x68, 2, 2, 0x68, 0x08, 0x01] ++ [0x09, 0x16]) :=
    ⟨by decide, by decide, by decide⟩
  have hRest : found ft12Stream [0x09, 0x16] = [] := found_short (by decide)
  have hFound := found_span ft12_readsHeader hShows (by decide)
  rw [if_neg (by decide), List.nil_append, hRest] at hFound
  exact hFound

/-- Four bytes of noise hold no frame, and the request behind them is never returned. -/
theorem request_swallowed :
    ¬∀ (noise frame : List UInt8) (chunks : List (List UInt8)) (calls : List Int),
      (∀ part, part <:+: noise → isFt12VariableFrame part = false) → isFt12VariableFrame frame = true →
      chunks.flatten = noise ++ frame → chunks.length + (noise ++ frame).length ≤ calls.length →
        frame ∈ drainCalls drainFt12Frames calls ⟨[], chunks⟩ := by
  intro hAll
  have hQuiet : ∀ part, part <:+: cutHeader → isFt12VariableFrame part = false := by
    intro part hPart
    rw [Bool.eq_false_iff]
    intro hFrame
    have hLong := ft12_header_le hFrame
    have hShort : part.length ≤ 4 := hPart.length_le
    omega
  have hReturned := hAll cutHeader classTwoRequest [cutHeader ++ classTwoRequest] (List.replicate 13 1) hQuiet
    (by decide) (List.append_nil _) (by decide)
  have hPrefix := (delivers_found ft12_readsHeader (congrArg (found ft12Stream) (List.append_nil _))
    (List.replicate 13 1)).1.subset hReturned
  rw [cutHeader_found] at hPrefix
  cases hPrefix

end EdgeGateway.Iec
