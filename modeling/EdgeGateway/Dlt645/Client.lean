import EdgeGateway.Dlt645.Codec
import Mathlib.Data.List.GetD

/-! # The DL/T645 client

A transaction sends a request and collects what the bus brings until a whole frame stands at the
first start byte. It is given the chunks that come before its deadline.
-/

namespace EdgeGateway.Dlt645

def fromStart (bytes : List UInt8) : List UInt8 := bytes.dropWhile (· ≠ 0x68)

namespace Dlt645Client

def trimToFrameStart (bytes : List UInt8) : List UInt8 :=
  if fromStart bytes = [] then if 32 < bytes.length then [] else bytes else fromStart bytes

def expectedDlt645FrameSize (bytes : List UInt8) : Nat :=
  if bytes.length < 10 then 0
  else if bytes.getD 0 0 ≠ 0x68 ∨ bytes.getD 7 0 ≠ 0x68 then 0
  else (bytes.getD 9 0).toNat + 12

def HasFrame (response : List UInt8) : Prop :=
  0 < expectedDlt645FrameSize response ∧ expectedDlt645FrameSize response ≤ response.length ∧
    response.getD (expectedDlt645FrameSize response - 1) 0 = 0x16

instance decidableHasFrame (response : List UInt8) : Decidable (HasFrame response) :=
  inferInstanceAs (Decidable (_ ∧ _))

def receiveLoop : List (List UInt8) → List UInt8 → List UInt8
  | [], response => response
  | chunk :: chunks, response =>
    if chunk = [] then receiveLoop chunks response
    else
      let response := trimToFrameStart (response ++ chunk)
      if HasFrame response then response.take (expectedDlt645FrameSize response) else receiveLoop chunks response

structure Exchange where
  sent : List UInt8
  response : Except StdString (List UInt8)

def exchange (wakeupBytes : Nat) (frame : List UInt8) (chunks : List (List UInt8)) : Exchange where
  sent := List.replicate wakeupBytes 0xFE ++ frame
  response := if receiveLoop chunks [] = [] then throwText "DLT645 response timeout" else .ok (receiveLoop chunks [])

def readRequest (meterAddress dataIdHex : StdString) : Except StdString (List UInt8) := do
  let normalizedAddress ← Dlt645Codec.normalizeAddress meterAddress
  Dlt645Codec.buildReadFrame normalizedAddress dataIdHex

def readData (wakeupBytes : Nat) (meterAddress dataIdHex : StdString) (chunks : List (List UInt8)) : Exchange :=
  match readRequest meterAddress dataIdHex with
  | .error message => ⟨[], .error message⟩
  | .ok frame => exchange wakeupBytes frame chunks

def cut (response : List UInt8) : List UInt8 :=
  if HasFrame response then response.take (expectedDlt645FrameSize response) else response

theorem fromStart_cons {start : UInt8} {bytes rest : List UInt8} (h : fromStart bytes = start :: rest) : start = 0x68 := by
  have hHead := @List.head_dropWhile_not _ (fun b : UInt8 => decide (b ≠ 0x68)) bytes
    (by rw [show bytes.dropWhile _ = _ from h]; exact List.cons_ne_nil _ _)
  simp only [show bytes.dropWhile (fun b => decide (b ≠ 0x68)) = start :: rest from h] at hHead
  exact not_not.mp (of_decide_eq_false hHead)

theorem fromStart_append (bytes more : List UInt8) :
    fromStart (bytes ++ more) = if fromStart bytes = [] then fromStart more else fromStart bytes ++ more := by
  rw [fromStart, List.dropWhile_append]
  simp only [List.isEmpty_iff]
  rfl

theorem fromStart_eq_nil_iff {bytes : List UInt8} : fromStart bytes = [] ↔ 0x68 ∉ bytes := by
  rw [fromStart, List.dropWhile_eq_nil_iff]
  constructor
  · intro hAll hMem
    exact absurd (hAll _ hMem) (by decide)
  · intro hNone b hb
    refine decide_eq_true fun hStart => hNone (hStart ▸ hb)

theorem fromStart_idem (bytes : List UInt8) : fromStart (fromStart bytes) = fromStart bytes := by
  cases hStart : fromStart bytes with
  | nil => rfl
  | cons start rest =>
    have hByte := fromStart_cons hStart
    subst hByte
    rw [fromStart, List.dropWhile_cons_of_neg (by decide)]

theorem fromStart_trim (bytes more : List UInt8) : fromStart (trimToFrameStart bytes ++ more) = fromStart (bytes ++ more) := by
  rw [trimToFrameStart]
  by_cases hNone : fromStart bytes = []
  · rw [if_pos hNone]
    split
    · rw [fromStart_append bytes, if_pos hNone, List.nil_append]
    · rfl
  · rw [if_neg hNone, fromStart_append, fromStart_append, fromStart_idem, if_neg hNone]

theorem trim_of_start {bytes : List UInt8} (h : fromStart bytes ≠ []) : trimToFrameStart bytes = fromStart bytes :=
  if_neg h

theorem trim_idem (bytes : List UInt8) : trimToFrameStart (trimToFrameStart bytes) = trimToFrameStart bytes := by
  obtain hNone | hSome := eq_or_ne (fromStart bytes) []
  · rw [trimToFrameStart, trimToFrameStart, if_pos hNone]
    split
    · rfl
    · rfl
  · rw [trim_of_start hSome, trim_of_start (by rw [fromStart_idem]; exact hSome), fromStart_idem]

theorem hasFrame_start {response : List UInt8} (h : HasFrame response) : response.getD 0 0 = 0x68 := by
  obtain ⟨hPos, -, -⟩ := h
  rw [expectedDlt645FrameSize] at hPos
  split_ifs at hPos with hShort hMarks
  · exact absurd hPos (Nat.lt_irrefl 0)
  · exact absurd hPos (Nat.lt_irrefl 0)
  · by_contra hStart
    exact hMarks (.inl hStart)

theorem fromStart_of_frame {response : List UInt8} (h : HasFrame response) : fromStart response = response := by
  have hByte := hasFrame_start h
  cases response with
  | nil => exact absurd hByte (by decide)
  | cons start rest =>
    rw [List.getD_cons_zero] at hByte
    subst hByte
    rw [fromStart, List.dropWhile_cons_of_neg (by decide)]

theorem ne_nil_of_frame {response : List UInt8} (h : HasFrame response) : response ≠ [] := by
  rintro rfl
  exact absurd (hasFrame_start h) (by decide)

theorem hasFrame_append {response : List UInt8} (h : HasFrame response) (more : List UInt8) :
    expectedDlt645FrameSize (response ++ more) = expectedDlt645FrameSize response ∧ HasFrame (response ++ more) := by
  obtain ⟨hPos, hSize, hEnd⟩ := h
  have hLong : ¬response.length < 10 := by
    intro hShort
    rw [expectedDlt645FrameSize, if_pos hShort] at hPos
    exact absurd hPos (Nat.lt_irrefl 0)
  have hSame : expectedDlt645FrameSize (response ++ more) = expectedDlt645FrameSize response := by
    rw [expectedDlt645FrameSize, expectedDlt645FrameSize, if_neg hLong,
      if_neg (by rw [List.length_append]; omega), List.getD_append _ _ _ _ (by omega),
      List.getD_append _ _ _ _ (by omega), List.getD_append _ _ _ _ (by omega)]
  refine ⟨hSame, ?_⟩
  rw [HasFrame, hSame, List.length_append, List.getD_append _ _ _ _ (by omega)]
  exact ⟨hPos, by omega, hEnd⟩

theorem cut_append {response : List UInt8} (h : HasFrame response) (more : List UInt8) :
    cut (response ++ more) = response.take (expectedDlt645FrameSize response) := by
  obtain ⟨hSame, hFrame⟩ := hasFrame_append h more
  rw [cut, if_pos hFrame, hSame, List.take_append_of_le_length h.2.1]

theorem receiveLoop_eq {chunks : List (List UInt8)} {response : List UInt8} (hTrimmed : trimToFrameStart response = response)
    (hOpen : ¬HasFrame response) :
    if fromStart (response ++ chunks.flatten) = [] then fromStart (receiveLoop chunks response) = []
    else receiveLoop chunks response = cut (fromStart (response ++ chunks.flatten)) := by
  induction chunks generalizing response with
  | nil =>
    rw [List.flatten_nil, List.append_nil, receiveLoop]
    split
    · assumption
    · next hStart =>
      rw [trim_of_start hStart] at hTrimmed
      rw [hTrimmed, cut, if_neg hOpen]
  | cons chunk chunks ih =>
    rw [receiveLoop, List.flatten_cons]
    by_cases hEmpty : chunk = []
    · rw [if_pos hEmpty, hEmpty, List.nil_append]
      exact ih hTrimmed hOpen
    · rw [if_neg hEmpty, ← List.append_assoc, ← fromStart_trim]
      by_cases hFrame : HasFrame (trimToFrameStart (response ++ chunk))
      · have hStart := fromStart_of_frame hFrame
        have hSome := ne_nil_of_frame hFrame
        rw [fromStart_append, hStart, if_neg hSome, if_neg (by simp [hSome]), cut_append hFrame]
        exact if_pos hFrame
      · have hRest := ih (trim_idem _) hFrame
        rw [if_neg hFrame]
        exact hRest

theorem exchange_response {wakeupBytes : Nat} {request : List UInt8} {chunks : List (List UInt8)} :
    if fromStart chunks.flatten = [] then
      ∀ response, (exchange wakeupBytes request chunks).response = .ok response → fromStart response = []
    else (exchange wakeupBytes request chunks).response = .ok (cut (fromStart chunks.flatten)) := by
  have hLoop := @receiveLoop_eq chunks [] rfl (by decide)
  rw [List.nil_append] at hLoop
  rw [exchange]
  split
  · next hNone =>
    rw [if_pos hNone] at hLoop
    intro response hResponse
    split at hResponse
    · cases hResponse
    · cases hResponse
      exact hLoop
  · next hSome =>
    rw [if_neg hSome] at hLoop
    have hFull : cut (fromStart chunks.flatten) ≠ [] := by
      rw [cut]
      split
      · next hFrame =>
        intro hNone
        have hLength := congrArg List.length hNone
        rw [List.length_take, List.length_nil] at hLength
        have hPos := hFrame.1
        have hSize := hFrame.2.1
        omega
      · exact hSome
    rw [hLoop]
    exact if_neg hFull

end Dlt645Client

/-! ## A response behind noise

A transaction trusts the first start byte it sees. A frame behind noise is found
exactly when it also stands at the first start byte of the noise.
-/

open Dlt645Client

structure WellFormed (frame : List UInt8) : Prop where
  start : frame.getD 0 0 = 0x68
  second : frame.getD 7 0 = 0x68
  size : frame.length = (frame.getD 9 0).toNat + 12
  stop : frame.getD (frame.length - 1) 0 = 0x16
  sum : checksum (frame.take (frame.length - 2)) = frame.getD (frame.length - 2) 0

namespace WellFormed

variable {frame : List UInt8}

theorem expectedSize (h : WellFormed frame) : expectedDlt645FrameSize frame = frame.length := by
  have hLong := h.size
  rw [expectedDlt645FrameSize, if_neg (by omega), if_neg (not_or.mpr ⟨not_not.mpr h.start, not_not.mpr h.second⟩), h.size]

theorem hasFrame (h : WellFormed frame) : HasFrame frame := by
  have hLong := h.size
  rw [HasFrame, h.expectedSize]
  exact ⟨by omega, Nat.le_refl _, h.stop⟩

theorem fromStart_append (h : WellFormed frame) (more : List UInt8) : fromStart (frame ++ more) = frame ++ more := by
  rw [Dlt645Client.fromStart_append, fromStart_of_frame h.hasFrame, if_neg (ne_nil_of_frame h.hasFrame)]

theorem cut_append (h : WellFormed frame) (more : List UInt8) : cut (frame ++ more) = frame := by
  rw [Dlt645Client.cut_append h.hasFrame, h.expectedSize, List.take_length]

end WellFormed

theorem cut_isPrefix (response : List UInt8) : cut response <+: response := by
  rw [cut]
  split
  · exact List.take_prefix _ _
  · exact List.prefix_rfl

section Noise

variable {answer noise : List UInt8} {chunks : List (List UInt8)}

theorem response_behind_noise (hAnswer : WellFormed answer) (hReceived : chunks.flatten = noise ++ answer)
    (wakeupBytes : Nat) (request : List UInt8) :
    (exchange wakeupBytes request chunks).response = .ok (cut (fromStart (noise ++ answer))) := by
  have hStart : fromStart (noise ++ answer) ≠ [] := by
    have hMem : 0x68 ∈ answer := by
      by_contra hNone
      have hSelf := fromStart_of_frame hAnswer.hasFrame
      rw [fromStart_eq_nil_iff.mpr hNone] at hSelf
      exact ne_nil_of_frame hAnswer.hasFrame hSelf.symm
    rw [ne_eq, fromStart_eq_nil_iff, not_not]
    exact List.mem_append_right _ hMem
  have hResponse := @exchange_response wakeupBytes request chunks
  rw [hReceived, if_neg hStart] at hResponse
  exact hResponse

/-- The frame is returned exactly when the bytes from the first start byte on begin with it. -/
theorem exchange_returns_answer_iff (hAnswer : WellFormed answer) (hReceived : chunks.flatten = noise ++ answer)
    (wakeupBytes : Nat) (request : List UInt8) :
    (exchange wakeupBytes request chunks).response = .ok answer ↔ answer <+: fromStart (noise ++ answer) := by
  rw [response_behind_noise hAnswer hReceived]
  constructor
  · intro hSame
    have hCut := cut_isPrefix (fromStart (noise ++ answer))
    rwa [Except.ok.inj hSame] at hCut
  · rintro ⟨more, hMore⟩
    rw [← hMore, hAnswer.cut_append]

end Noise

def voltageAnswer : List UInt8 :=
  [0x68, 0x01, 0x00, 0x00, 0x00, 0x00, 0x00, 0x68, 0x91, 0x06, 0x33, 0x34, 0x34, 0x35, 0x38, 0x55, 0xC5, 0x16]

theorem wellFormed_voltageAnswer : WellFormed voltageAnswer := ⟨by decide, by decide, by decide, by decide, by decide⟩

theorem preamble_is_skipped :
    (exchange 4 [] [[0xFE, 0xFE], [0xFE, 0x68, 0x01], voltageAnswer.drop 2]).response = .ok voltageAnswer ↔
      voltageAnswer <+: fromStart ([0xFE, 0xFE, 0xFE] ++ voltageAnswer) :=
  exchange_returns_answer_iff wellFormed_voltageAnswer (by decide) 4 []

/-- One stray start byte hides the answer. -/
theorem stray_start_hides_answer : (∀ frame, frame <:+: [0x68] → ¬WellFormed frame) ∧
    (exchange 4 [] [[0x68], voltageAnswer]).response ≠ .ok voltageAnswer := by
  constructor
  · intro frame hInside hFrame
    have hLength := hInside.length_le
    rw [List.length_singleton] at hLength
    have hLong := hFrame.size
    omega
  · have hResponse := @exchange_response 4 [] [[0x68], voltageAnswer]
    rw [if_neg (by decide)] at hResponse
    rw [hResponse]
    intro hSame
    exact absurd (Except.ok.inj hSame) (by decide)

end EdgeGateway.Dlt645
