import EdgeGateway.Foundation.Run
import EdgeGateway.Iec.StreamFraming

/-! # How the AM5SE client reads frames -/

namespace EdgeGateway.Iec

def findStart (rxBuffer : List UInt8) : List UInt8 := rxBuffer.dropWhile fun byte => byte ≠ 0x10 && byte ≠ 0x68

def sized (rxBuffer : List UInt8) (frameSize : Nat) : Verdict :=
  if rxBuffer.length < frameSize then .wait else .frame frameSize

def frontVerdict (config : Iec103Config) (rxBuffer : List UInt8) : Verdict :=
  if byteAt rxBuffer 0 = 0x10 then sized rxBuffer (4 + config.linkAddressSize)
  else if rxBuffer.length < 4 then .wait
  else if byteAt rxBuffer 1 ≠ byteAt rxBuffer 2 ∨ byteAt rxBuffer 3 ≠ 0x68 then .drop
  else sized rxBuffer ((byteAt rxBuffer 1).toNat + 6)

theorem frontVerdict_frame_pos {config : Iec103Config} {rxBuffer : List UInt8} {size : Nat}
    (h : frontVerdict config rxBuffer = .frame size) : 0 < size := by
  rw [frontVerdict] at h
  simp only [sized] at h
  grind

def validFrame (config : Iec103Config) (frame : List UInt8) : Bool :=
  if byteAt frame 0 = 0x10 then isFt12FixedFrame frame config.linkAddressSize else isFt12VariableFrame frame

def extractFrames (config : Iec103Config) (maxFrames : Nat) (frames : List (List UInt8)) (rxBuffer : List UInt8) :
    List (List UInt8) × List UInt8 :=
  if maxFrames ≤ frames.length then (frames, rxBuffer)
  else
    match hStart : findStart rxBuffer with
    | [] => (frames, [])
    | first :: rest =>
      match hVerdict : frontVerdict config (first :: rest) with
      | .wait => (frames, first :: rest)
      | .drop => extractFrames config maxFrames frames rest
      | .frame frameSize =>
        let frame := (first :: rest).take frameSize
        extractFrames config maxFrames (if validFrame config frame then frames ++ [frame] else frames)
          ((first :: rest).drop frameSize)
termination_by rxBuffer.length
decreasing_by
  all_goals
    have hErased : (findStart rxBuffer).length ≤ rxBuffer.length := List.length_dropWhile_le _ _
    rw [hStart, List.length_cons] at hErased
  · omega
  · have hPos := frontVerdict_frame_pos hVerdict
    rw [List.length_drop, List.length_cons]
    omega

/-- One turn of the outer loop. `recv` fills a chunk of 1024 bytes at most; nothing is readable where no byte
    arrives. -/
inductive Turn where
  | arrives (size : Nat)
  | closed
deriving DecidableEq, Repr

structure Reading where
  frames : List (List UInt8) := []
  rxBuffer : List UInt8 := []
  unread : List UInt8

structure ReadCall where
  maxFrames : Nat
  turns : List Turn
  maxFrames_pos : 0 < maxFrames

/-- Without a result where the end of the connection makes the call throw. -/
def readTurns (config : Iec103Config) (maxFrames : Nat) : List Turn → Reading → Option Reading
  | [], s => some s
  | turn :: turns, s =>
    if maxFrames ≤ s.frames.length then some s
    else
      match turn with
      | .closed => none
      | .arrives size =>
        let chunk := s.unread.take (min size 1024)
        if chunk = [] then if s.frames = [] then readTurns config maxFrames turns s else some s
        else
          let extracted := extractFrames config maxFrames s.frames (s.rxBuffer ++ chunk)
          readTurns config maxFrames turns ⟨extracted.1, extracted.2, s.unread.drop (min size 1024)⟩

def readFrames (config : Iec103Config) (call : ReadCall) (s : Reading) : Option Reading :=
  readTurns config call.maxFrames call.turns { s with frames := [] }

def callFrames (config : Iec103Config) (s : Reading) (call : ReadCall) : Option Reading :=
  (readFrames config call s).map fun t => { t with frames := s.frames ++ t.frames }

def Turn.heard (unread : List UInt8) : Turn → Prop
  | arrives size => 0 < size ∧ unread ≠ []
  | closed => True

def HoldsFrame (config : Iec103Config) (rxBuffer : List UInt8) : Prop :=
  ∃ frame, isFt12Frame config frame = true ∧ frame <+: rxBuffer

section WellFormed

variable {config : Iec103Config} {frame rxBuffer missing : List UInt8}

theorem byteAt_front {xs : List UInt8} {offset : Nat} (h : offset < xs.length) (ys : List UInt8) :
    byteAt (xs ++ ys) offset = byteAt xs offset := List.getD_append xs ys 0 offset h

theorem findStart_of_byteAt (hLength : 0 < rxBuffer.length)
    (hStart : byteAt rxBuffer 0 = 0x10 ∨ byteAt rxBuffer 0 = 0x68) : findStart rxBuffer = rxBuffer := by
  cases rxBuffer with
  | nil => cases hLength
  | cons first rest =>
    refine List.dropWhile_cons_of_neg ?_
    change first = 0x10 ∨ first = 0x68 at hStart
    obtain rfl | rfl := hStart <;> decide

/-- A frame shows itself and its length as soon as its header is there. -/
structure Recognised (config : Iec103Config) (frame : List UInt8) : Prop where
  valid : validFrame config frame = true
  four_le : 4 ≤ frame.length
  start : byteAt frame 0 = 0x10 ∨ byteAt frame 0 = 0x68
  fixed : byteAt frame 0 = 0x10 → frame.length = 4 + config.linkAddressSize
  sizes : byteAt frame 0 = 0x68 →
    byteAt frame 1 = byteAt frame 2 ∧ byteAt frame 3 = 0x68 ∧ frame.length = (byteAt frame 1).toNat + 6

theorem recognised (h : isFt12Frame config frame = true) : Recognised config frame := by
  rw [isFt12Frame, Bool.or_eq_true] at h
  obtain hFixed | hVariable := h
  · have hParts := hFixed
    simp only [isFt12FixedFrame, Bool.and_eq_true, beq_iff_eq] at hParts
    obtain ⟨⟨⟨hLength, hStart⟩, -⟩, -⟩ := hParts
    refine ⟨by rw [validFrame, if_pos hStart, hFixed], by omega, .inl hStart, fun _ => hLength, fun hOther => ?_⟩
    rw [hStart] at hOther
    exact absurd hOther (by decide)
  · have hParts := hVariable
    simp only [isFt12VariableFrame, Bool.and_eq_true, decide_eq_true_eq, beq_iff_eq] at hParts
    obtain ⟨⟨⟨⟨⟨⟨hLong, hStart⟩, -⟩, hLengths⟩, hSecond⟩, hSize⟩, -⟩ := hParts
    have hOther : byteAt frame 0 ≠ 0x10 := by
      rw [hStart]
      decide
    exact ⟨by rw [validFrame, if_neg hOther, hVariable], by omega, .inr hStart, fun hFixed => absurd hFixed hOther,
      fun _ => ⟨hLengths, hSecond, hSize⟩⟩

theorem Recognised.findStart_part (h : Recognised config frame) (hSome : rxBuffer ≠ []) (hPart : rxBuffer ++ missing = frame) :
    findStart rxBuffer = rxBuffer := by
  have hLength := List.length_pos_iff.mpr hSome
  refine findStart_of_byteAt hLength ?_
  rw [← byteAt_front hLength missing, hPart]
  exact h.start

theorem Recognised.verdict_part (h : Recognised config frame) (hSome : rxBuffer ≠ []) (hMissing : missing ≠ [])
    (hPart : rxBuffer ++ missing = frame) : frontVerdict config rxBuffer = .wait := by
  have hLength := List.length_pos_iff.mpr hSome
  have hShort := congrArg List.length hPart
  rw [List.length_append] at hShort
  have hLater := List.length_pos_iff.mpr hMissing
  have hByte : ∀ offset < rxBuffer.length, byteAt rxBuffer offset = byteAt frame offset := by
    intro offset hOffset
    rw [← hPart, byteAt_front hOffset]
  rw [frontVerdict, hByte 0 hLength]
  obtain hFixed | hVariable := h.start
  · have hSize := h.fixed hFixed
    rw [if_pos hFixed, sized, if_pos (by omega)]
  · obtain ⟨hLengths, hSecond, hSize⟩ := h.sizes hVariable
    rw [if_neg (by rw [hVariable]; decide)]
    split
    · rfl
    · rename_i hHeader
      rw [hByte 1 (by omega), hByte 2 (by omega), hByte 3 (by omega), if_neg (by simp [hLengths, hSecond]), sized,
        if_pos (by omega)]

theorem Recognised.verdict_whole (h : Recognised config frame) (more : List UInt8) :
    frontVerdict config (frame ++ more) = .frame frame.length := by
  have hFour := h.four_le
  have hLength : (frame ++ more).length = frame.length + more.length := List.length_append
  rw [frontVerdict, byteAt_front (by omega), byteAt_front (by omega), byteAt_front (by omega), byteAt_front (by omega)]
  obtain hFixed | hVariable := h.start
  · have hSize := h.fixed hFixed
    rw [if_pos hFixed, sized, if_neg (by omega), hSize]
  · obtain ⟨hLengths, hSecond, hSize⟩ := h.sizes hVariable
    rw [if_neg (by rw [hVariable]; decide), if_neg (by omega), if_neg (by simp [hLengths, hSecond]), sized,
      if_neg (by omega), hSize]

end WellFormed

section Extraction

variable {config : Iec103Config} {maxFrames : Nat} {taken pending : List (List UInt8)} {frame rxBuffer unread : List UInt8}

theorem extractFrames_full (h : maxFrames ≤ taken.length) :
    extractFrames config maxFrames taken rxBuffer = (taken, rxBuffer) := by
  rw [extractFrames, if_pos h]

theorem extractFrames_nil (config : Iec103Config) (maxFrames : Nat) (taken : List (List UInt8)) :
    extractFrames config maxFrames taken [] = (taken, []) := by
  rw [extractFrames]
  split
  · rfl
  · rfl

theorem extractFrames_frame (hFrame : isFt12Frame config frame = true) (hRoom : taken.length < maxFrames)
    (rxBuffer : List UInt8) :
    extractFrames config maxFrames taken (frame ++ rxBuffer) = extractFrames config maxFrames (taken ++ [frame]) rxBuffer := by
  have h := recognised hFrame
  have hFour := h.four_le
  cases frame with
  | nil => cases hFour
  | cons first rest =>
    have hStart : findStart (first :: rest ++ rxBuffer) = first :: (rest ++ rxBuffer) := by
      refine findStart_of_byteAt (Nat.succ_pos _) ?_
      rw [byteAt_front (by omega)]
      exact h.start
    have hVerdict := h.verdict_whole rxBuffer
    rw [List.cons_append] at hVerdict
    rw [extractFrames, if_neg (by omega)]
    split
    · rename_i hEmpty
      rw [hStart] at hEmpty
      cases hEmpty
    · rename_i hCons
      rw [hStart] at hCons
      obtain ⟨rfl, rfl⟩ := List.cons.inj hCons
      split
      · rename_i hOther
        cases hVerdict.symm.trans hOther
      · rename_i hOther
        cases hVerdict.symm.trans hOther
      · rename_i hSize
        obtain rfl := Verdict.frame.inj (hVerdict.symm.trans hSize)
        rw [← List.cons_append, List.take_left, List.drop_left]
        exact congrArg (extractFrames config maxFrames · rxBuffer) (if_pos h.valid)

theorem extractFrames_part {missing : List UInt8} (hFrame : isFt12Frame config frame = true) (hSome : rxBuffer ≠ [])
    (hMissing : missing ≠ []) (hPart : rxBuffer ++ missing = frame) :
    extractFrames config maxFrames taken rxBuffer = (taken, rxBuffer) := by
  have hStart := (recognised hFrame).findStart_part hSome hPart
  have hVerdict := (recognised hFrame).verdict_part hSome hMissing hPart
  rw [extractFrames]
  split
  · rfl
  · split
    · rename_i hEmpty
      rw [hStart] at hEmpty
      rw [hEmpty]
    · rename_i hCons
      rw [hStart] at hCons
      subst hCons
      split
      · rfl
      · rename_i hOther
        cases hVerdict.symm.trans hOther
      · rename_i hOther
        cases hVerdict.symm.trans hOther

theorem extractFrames_grows (config : Iec103Config) (maxFrames : Nat) (taken : List (List UInt8)) (rxBuffer : List UInt8) :
    taken <+: (extractFrames config maxFrames taken rxBuffer).1 := by
  fun_induction extractFrames config maxFrames taken rxBuffer with
  | case1 => exact List.prefix_refl _
  | case2 => exact List.prefix_refl _
  | case3 => exact List.prefix_refl _
  | case4 _ _ _ _ _ _ _ ih => exact ih
  | case5 _ _ _ _ _ _ _ _ _ ih =>
    refine List.IsPrefix.trans ?_ ih
    split
    · exact List.prefix_append _ _
    · exact List.prefix_refl _

theorem extractFrames_stream (hFrames : ∀ frame ∈ pending, isFt12Frame config frame = true)
    (hStream : rxBuffer ++ unread = pending.flatten) :
    ∃ past rest, pending = past ++ rest ∧ (extractFrames config maxFrames taken rxBuffer).1 = taken ++ past ∧
      (extractFrames config maxFrames taken rxBuffer).2 ++ unread = rest.flatten := by
  induction pending generalizing taken rxBuffer with
  | nil =>
    obtain ⟨rfl, rfl⟩ := List.append_eq_nil_iff.mp hStream
    rw [extractFrames_nil]
    exact ⟨[], [], rfl, (List.append_nil _).symm, rfl⟩
  | cons frame pending ih =>
    have hFrame := hFrames frame List.mem_cons_self
    by_cases hFull : maxFrames ≤ taken.length
    · rw [extractFrames_full hFull]
      exact ⟨[], frame :: pending, rfl, (List.append_nil _).symm, hStream⟩
    rw [List.flatten_cons] at hStream
    by_cases hWhole : frame <+: rxBuffer
    · obtain ⟨later, rfl⟩ := hWhole
      rw [List.append_assoc] at hStream
      obtain ⟨past, rest, rfl, hTaken, hLeft⟩ := @ih (taken ++ [frame]) later
        (fun other hOther => hFrames other (List.mem_cons_of_mem _ hOther)) (List.append_cancel_left hStream)
      rw [extractFrames_frame hFrame (by omega)]
      refine ⟨frame :: past, rest, rfl, ?_, hLeft⟩
      rw [hTaken, List.append_assoc, List.singleton_append]
    · have hKept : extractFrames config maxFrames taken rxBuffer = (taken, rxBuffer) := by
        obtain ⟨missing, hPart, -⟩ | ⟨later, hLater, -⟩ := List.append_eq_append_iff.mp hStream
        · obtain rfl | hSome := eq_or_ne rxBuffer []
          · exact extractFrames_nil config maxFrames taken
          refine extractFrames_part hFrame hSome ?_ hPart.symm
          rintro rfl
          exact hWhole ⟨[], by rw [hPart, List.append_nil, List.append_nil]⟩
        · exact absurd ⟨later, hLater.symm⟩ hWhole
      rw [hKept]
      exact ⟨[], frame :: pending, rfl, (List.append_nil _).symm, hStream⟩

end Extraction

section Calls

variable {config : Iec103Config} {maxFrames : Nat} {frames pending : List (List UInt8)} {s t : Reading}

theorem arrived_nil_iff (unread : List UInt8) (size : Nat) :
    unread.take (min size 1024) = [] ↔ ¬ (Turn.arrives size).heard unread := by
  rw [List.take_eq_nil_iff, Turn.heard]
  grind

theorem readTurns_stream {turns : List Turn} (hFrames : ∀ frame ∈ pending, isFt12Frame config frame = true)
    (hStream : s.rxBuffer ++ s.unread = pending.flatten) (hRead : readTurns config maxFrames turns s = some t) :
    ∃ past rest, pending = past ++ rest ∧ t.frames = s.frames ++ past ∧ t.rxBuffer ++ t.unread = rest.flatten := by
  have hNothing : ∃ past rest, pending = past ++ rest ∧ s.frames = s.frames ++ past ∧
      s.rxBuffer ++ s.unread = rest.flatten := ⟨[], pending, rfl, (List.append_nil _).symm, hStream⟩
  induction turns generalizing s pending with
  | nil =>
    obtain rfl := Option.some.inj hRead
    exact hNothing
  | cons turn turns ih =>
    rw [readTurns.eq_def] at hRead
    dsimp only at hRead
    split at hRead
    · obtain rfl := Option.some.inj hRead
      exact hNothing
    cases turn with
    | closed => cases hRead
    | arrives size =>
      dsimp only at hRead
      split at hRead
      · split at hRead
        · exact ih hFrames hStream hRead hNothing
        · obtain rfl := Option.some.inj hRead
          exact hNothing
      · have hArrived : s.rxBuffer ++ s.unread.take (min size 1024) ++ s.unread.drop (min size 1024) = pending.flatten := by
          rw [List.append_assoc, List.take_append_drop, hStream]
        obtain ⟨past, rest, rfl, hTaken, hLeft⟩ :=
          @extractFrames_stream config maxFrames s.frames pending _ _ hFrames hArrived
        obtain ⟨later, rest, rfl, hLater, hEnd⟩ := ih (fun frame hFrame => hFrames frame (List.mem_append_right _ hFrame))
          hLeft hRead ⟨[], rest, rfl, (List.append_nil _).symm, hLeft⟩
        refine ⟨past ++ later, rest, (List.append_assoc _ _ _).symm, ?_, hEnd⟩
        rw [hLater, ← List.append_assoc]
        exact congrArg (· ++ later) hTaken

theorem readTurns_grows {turns : List Turn} (hRead : readTurns config maxFrames turns s = some t) : s.frames <+: t.frames := by
  induction turns generalizing s with
  | nil =>
    obtain rfl := Option.some.inj hRead
    exact List.prefix_refl _
  | cons turn turns ih =>
    rw [readTurns.eq_def] at hRead
    dsimp only at hRead
    split at hRead
    · obtain rfl := Option.some.inj hRead
      exact List.prefix_refl _
    cases turn with
    | closed => cases hRead
    | arrives size =>
      dsimp only at hRead
      split at hRead
      · split at hRead
        · exact ih hRead
        · obtain rfl := Option.some.inj hRead
          exact List.prefix_refl _
      · exact (extractFrames_grows config maxFrames s.frames _).trans (ih hRead)

/-- Without a byte the buffer is not looked at. -/
theorem readTurns_unheard {turns : List Turn} (hEmpty : s.frames = []) (hUnheard : ∀ turn ∈ turns, ¬ turn.heard s.unread) :
    readTurns config maxFrames turns s = some s := by
  induction turns with
  | nil => rfl
  | cons turn turns ih =>
    have hTurn := hUnheard turn List.mem_cons_self
    cases turn with
    | closed => exact absurd trivial hTurn
    | arrives size =>
      rw [readTurns, if_pos ((arrived_nil_iff s.unread size).mpr hTurn), if_pos hEmpty,
        ih fun turn hMem => hUnheard turn (List.mem_cons_of_mem _ hMem), ite_self]

theorem readTurns_heard {turns : List Turn} (hEmpty : s.frames = []) (hMax : 0 < maxFrames)
    (hHolds : HoldsFrame config s.rxBuffer) (hHeard : ∃ turn ∈ turns, turn.heard s.unread)
    (hRead : readTurns config maxFrames turns s = some t) : t.frames ≠ [] := by
  induction turns with
  | nil =>
    obtain ⟨_, hMem, -⟩ := hHeard
    cases hMem
  | cons turn turns ih =>
    have hRoom : ¬ maxFrames ≤ s.frames.length := by
      rw [hEmpty]
      exact Nat.not_le.mpr hMax
    rw [readTurns.eq_def] at hRead
    dsimp only at hRead
    rw [if_neg hRoom] at hRead
    cases turn with
    | closed => cases hRead
    | arrives size =>
      dsimp only at hRead
      split at hRead
      · rename_i hNone
        obtain ⟨turn, hMem, hTurn⟩ := hHeard
        obtain rfl | hLater := List.mem_cons.mp hMem
        · exact absurd hTurn ((arrived_nil_iff s.unread size).mp hNone)
        · exact ih ⟨turn, hLater, hTurn⟩ hRead
      · obtain ⟨frame, hFrame, later, hBuffer⟩ := hHolds
        rw [← hBuffer, List.append_assoc, extractFrames_frame hFrame (by rw [hEmpty]; exact hMax)] at hRead
        have hKept := (extractFrames_grows config maxFrames _ _).trans (readTurns_grows hRead)
        intro hNil
        rw [hNil, List.prefix_nil] at hKept
        exact List.append_ne_nil_of_right_ne_nil _ (List.cons_ne_nil _ _) hKept

def InOrder (frames : List (List UInt8)) (s : Reading) : Prop :=
  ∃ rest, frames = s.frames ++ rest ∧ s.rxBuffer ++ s.unread = rest.flatten

theorem callFrames_inOrder {call : ReadCall} (hFrames : ∀ frame ∈ frames, isFt12Frame config frame = true)
    (hOrder : InOrder frames s) (hCall : callFrames config s call = some t) : InOrder frames t := by
  obtain ⟨pending, rfl, hStream⟩ := hOrder
  obtain ⟨u, hRead, rfl⟩ := Option.map_eq_some_iff.mp hCall
  obtain ⟨past, rest, rfl, hTaken, hLeft⟩ :=
    readTurns_stream (s := { s with frames := [] }) (fun frame hFrame => hFrames frame (List.mem_append_right _ hFrame))
      hStream hRead
  refine ⟨rest, ?_, hLeft⟩
  rw [hTaken, List.nil_append, List.append_assoc]

theorem callFrames_returns_iff (call : ReadCall) (hHolds : HoldsFrame config s.rxBuffer) :
    (∀ t, callFrames config s call = some t → t.frames ≠ s.frames) ↔ ∃ turn ∈ call.turns, turn.heard s.unread := by
  constructor
  · intro hReturns
    by_contra hUnheard
    push Not at hUnheard
    have hRead : readFrames config call s = some { s with frames := [] } := readTurns_unheard rfl hUnheard
    refine hReturns { s with frames := s.frames ++ [] } ?_ (List.append_nil _)
    rw [callFrames, hRead]
    rfl
  · intro hHeard t hCall hSame
    obtain ⟨u, hRead, rfl⟩ := Option.map_eq_some_iff.mp hCall
    exact readTurns_heard (s := { s with frames := [] }) rfl call.maxFrames_pos hHolds hHeard hRead
      (List.append_right_eq_self.mp hSame)

end Calls

section Sequences

variable (config : Iec103Config) (frames : List (List UInt8)) (calls : List ReadCall)

def callsReach (done : List ReadCall) : Option Reading :=
  Run.reach (callFrames config) { unread := frames.flatten } done

/-- A call that the end of the connection makes throw returns nothing. -/
structure Delivered : Prop where
  inOrder : ∀ done s, done <+: calls → callsReach config frames done = some s → s.frames <+: frames
  returns : ∀ done call s, done ++ [call] <+: calls → callsReach config frames done = some s →
    HoldsFrame config s.rxBuffer → ∀ t, callFrames config s call = some t → t.frames ≠ s.frames

/-- A complete frame that waits in the buffer is returned as soon as one more byte arrives. -/
theorem frames_delivered_iff {frames : List (List UInt8)} (hFrames : ∀ frame ∈ frames, isFt12Frame config frame = true)
    (calls : List ReadCall) :
    Delivered config frames calls ↔
      ∀ done call s, done ++ [call] <+: calls → callsReach config frames done = some s →
        HoldsFrame config s.rxBuffer → ∃ turn ∈ call.turns, turn.heard s.unread := by
  constructor
  · intro h done call s hDone hReach hHolds
    exact (callFrames_returns_iff call hHolds).mp (h.returns done call s hDone hReach hHolds)
  · intro hHeard
    refine ⟨fun done s hDone hReach => ?_, fun done call s hDone hReach hHolds => ?_⟩
    · have hOrder : InOrder frames s := Run.invariant_reach (callFrames config) (fun _ _ => True) (InOrder frames)
        ⟨frames, rfl, rfl⟩ (fun _ _ _ hInv _ hCall => callFrames_inOrder hFrames hInv hCall)
        (fun _ _ _ _ _ => trivial) done hDone s hReach
      obtain ⟨rest, hSplit, -⟩ := hOrder
      exact ⟨rest, hSplit.symm⟩
    · exact (callFrames_returns_iff call hHolds).mpr (hHeard done call s hDone hReach hHolds)

end Sequences

/-! The answer that there is no data is five bytes. -/

def noData : List UInt8 := buildFt12FixedFrame 0x09 { linkAddressSize_le := Nat.two_pos }

theorem noData_ok : ∀ frame ∈ [noData, noData], isFt12Frame {} frame = true :=
  List.all_eq_true.mp rfl

theorem noData_delivered_iff :
    Delivered {} [noData, noData] [⟨1, [.arrives 10], by decide⟩, ⟨1, [.arrives 0], by decide⟩] ↔
      ∀ done call s, done ++ [call] <+: [⟨1, [.arrives 10], by decide⟩, ⟨1, [.arrives 0], by decide⟩] →
        callsReach {} [noData, noData] done = some s → HoldsFrame {} s.rxBuffer →
        ∃ turn ∈ call.turns, turn.heard s.unread :=
  frames_delivered_iff {} noData_ok _

/-- Two frames come in one segment, the first call takes one, and the second finds nothing to wait for. -/
theorem waiting_frame_withheld :
    ¬ Delivered {} [noData, noData] [⟨1, [.arrives 10], by decide⟩, ⟨1, [.arrives 0], by decide⟩] := by
  intro h
  have hFrame := noData_ok noData List.mem_cons_self
  have hFirst : callsReach {} [noData, noData] [⟨1, [.arrives 10], by decide⟩] = some ⟨[noData], noData, []⟩ := by
    have hBoth : extractFrames {} 1 [] (noData ++ noData) = ([noData], noData) := by
      rw [extractFrames_frame hFrame (by decide), extractFrames_full (by decide)]
      rfl
    change (readTurns {} 1 [] ⟨(extractFrames {} 1 [] (noData ++ noData)).1,
      (extractFrames {} 1 [] (noData ++ noData)).2, []⟩).map _ >>= _ = _
    rw [hBoth]
    rfl
  refine h.returns [⟨1, [.arrives 10], by decide⟩] ⟨1, [.arrives 0], by decide⟩ _ (List.prefix_refl _) hFirst
    ⟨noData, hFrame, List.prefix_refl _⟩ ⟨[noData], noData, []⟩ rfl rfl

end EdgeGateway.Iec
