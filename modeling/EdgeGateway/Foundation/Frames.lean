import Mathlib.Data.List.Basic
import Mathlib.Data.List.TakeWhile

/-! # Streams of frames

A position in a stream is a boundary when whole frames end there, and inside a frame otherwise.
Between gaps, no frame starts with a symbol of a gap.
-/

namespace EdgeGateway.Frames

universe u v

variable {φ : Type u} {β : Type v} (bytes : φ → List β)

def stream (frames : List φ) : List β := frames.flatMap bytes

def Boundary (frames : List φ) (position : Nat) : Prop :=
  ∃ past rest, frames = past ++ rest ∧ position = (stream bytes past).length

def Starts (frames : List φ) (position : Nat) (frame : φ) : Prop :=
  ∃ past rest, frames = past ++ frame :: rest ∧ position = (stream bytes past).length

@[simp] theorem stream_append (past rest : List φ) :
    stream bytes (past ++ rest) = stream bytes past ++ stream bytes rest := List.flatMap_append

@[simp] theorem stream_cons (frame : φ) (rest : List φ) :
    stream bytes (frame :: rest) = bytes frame ++ stream bytes rest := List.flatMap_cons

variable {bytes} {frames : List φ} {position : Nat} {frame : φ}

theorem boundary_zero (frames : List φ) : Boundary bytes frames 0 := ⟨[], frames, rfl, rfl⟩

theorem Boundary.start_or_end (h : Boundary bytes frames position) :
    (stream bytes frames).drop position = [] ∨ ∃ frame, Starts bytes frames position frame := by
  obtain ⟨past, rest, rfl, rfl⟩ := h
  cases rest with
  | nil =>
    left
    simp
  | cons frame rest =>
    right
    exact ⟨frame, past, rest, rfl, rfl⟩

theorem Starts.drop (h : Starts bytes frames position frame) :
    ∃ later, (stream bytes frames).drop position = bytes frame ++ later := by
  obtain ⟨past, rest, rfl, rfl⟩ := h
  refine ⟨stream bytes rest, ?_⟩
  rw [stream_append, stream_cons, List.drop_left]

theorem Starts.boundary (h : Starts bytes frames position frame) :
    Boundary bytes frames (position + (bytes frame).length) := by
  obtain ⟨past, rest, rfl, rfl⟩ := h
  refine ⟨past ++ [frame], rest, by simp, ?_⟩
  rw [stream_append, List.length_append]
  simp [stream]

theorem Starts.inside {offset : Nat} (h : Starts bytes frames position frame) (hLow : 0 < offset)
    (hHigh : offset < (bytes frame).length) : ¬ Boundary bytes frames (position + offset) := by
  obtain ⟨past, rest, rfl, rfl⟩ := h
  rintro ⟨before, behind, hSplit, hLength⟩
  obtain ⟨middle, rfl, hMiddle⟩ | ⟨middle, rfl, -⟩ := List.append_eq_append_iff.mp hSplit
  · rw [stream_append, List.length_append] at hLength
    cases middle with
    | nil =>
      simp only [stream, List.flatMap_nil, List.length_nil] at hLength
      omega
    | cons first middle =>
      obtain ⟨rfl, -⟩ := List.cons.inj hMiddle
      rw [stream_cons, List.length_append] at hLength
      omega
  · rw [stream_append, List.length_append] at hLength
    omega

end EdgeGateway.Frames

/-! # Scanning a buffer for frames

A scanner waits for more, drops the first symbol or takes a frame. When no verdict but waiting
changes as more symbols arrive, it finds the same frames in whatever pieces the stream comes.
-/

namespace EdgeGateway

universe u

inductive Spaced {α : Type u} (start : α) (accepts : List α → Bool) : List (List α) → List α → Prop where
  | gap {gap : List α} : start ∉ gap → Spaced start accepts [] gap
  | frame {gap frame symbols : List α} {frames : List (List α)} : start ∉ gap → accepts frame = true →
      Spaced start accepts frames symbols → Spaced start accepts (frame :: frames) (gap ++ (frame ++ symbols))

theorem dropWhile_gap {α : Type u} [DecidableEq α] {start : α} {gap : List α} (hGap : start ∉ gap) :
    gap.dropWhile (· ≠ start) = [] := by
  rw [List.dropWhile_eq_nil_iff]
  intro symbol hSymbol
  exact decide_eq_true fun hStart => hGap (hStart ▸ hSymbol)

end EdgeGateway

namespace EdgeGateway

universe u

inductive Verdict where
  | wait
  | drop
  | frame (length : Nat)
deriving DecidableEq, Repr

structure Scanner (α : Type u) where
  verdict : List α → Verdict
  settled : ∀ symbols more, verdict symbols ≠ .wait → verdict (symbols ++ more) = verdict symbols
  inside : ∀ symbols length, verdict symbols = .frame length → length ≤ symbols.length

namespace Scanner

variable {α : Type u} (scanner : Scanner α)

def scan : List α → Option (List α) × List α
  | [] => (none, [])
  | x :: xs =>
    match scanner.verdict (x :: xs) with
    | .wait => (none, x :: xs)
    | .drop => scan xs
    | .frame length => (some ((x :: xs).take length), (x :: xs).drop length)

variable {scanner}

theorem scan_wait {symbols : List α} (h : scanner.verdict symbols = .wait) : scanner.scan symbols = (none, symbols) := by
  cases symbols with
  | nil => rfl
  | cons x xs => rw [scan, h]

theorem scan_drop {x : α} {xs : List α} (h : scanner.verdict (x :: xs) = .drop) :
    scanner.scan (x :: xs) = scanner.scan xs := by
  rw [scan, h]

theorem scan_frame {x : α} {xs : List α} {length : Nat} (h : scanner.verdict (x :: xs) = .frame length) :
    scanner.scan (x :: xs) = (some ((x :: xs).take length), (x :: xs).drop length) := by
  rw [scan, h]

theorem scan_append (symbols more : List α) : scanner.scan (symbols ++ more) =
    match scanner.scan symbols with
    | (some frame, rest) => (some frame, rest ++ more)
    | (none, rest) => scanner.scan (rest ++ more) := by
  induction symbols with
  | nil => rfl
  | cons x xs ih =>
    cases hVerdict : scanner.verdict (x :: xs) with
    | wait => rw [scan_wait hVerdict]
    | drop =>
      have hMore := scanner.settled (x :: xs) more (by rw [hVerdict]; exact Verdict.noConfusion)
      rw [List.cons_append, hVerdict] at hMore
      rw [List.cons_append, scan_drop hMore, scan_drop hVerdict]
      exact ih
    | frame length =>
      have hMore := scanner.settled (x :: xs) more (by rw [hVerdict]; exact Verdict.noConfusion)
      rw [List.cons_append, hVerdict] at hMore
      have hInside := scanner.inside _ _ hVerdict
      rw [List.cons_append, scan_frame hMore, scan_frame hVerdict]
      dsimp only
      rw [← List.cons_append, List.take_append_of_le_length hInside, List.drop_append_of_le_length hInside]

theorem scan_some {symbols frame rest : List α} (h : scanner.scan symbols = (some frame, rest)) :
    ∃ before tail, symbols = before ++ tail ∧ tail = frame ++ rest ∧ scanner.verdict tail = .frame frame.length ∧
      ∀ dropped later, before = dropped ++ later → later ≠ [] → scanner.verdict (later ++ tail) = .drop := by
  induction symbols with
  | nil => cases h
  | cons x xs ih =>
    cases hVerdict : scanner.verdict (x :: xs) with
    | wait =>
      rw [scan_wait hVerdict] at h
      cases h
    | drop =>
      rw [scan_drop hVerdict] at h
      obtain ⟨before, tail, rfl, hTail, hFrame, hDropped⟩ := ih h
      refine ⟨x :: before, tail, rfl, hTail, hFrame, fun dropped later hSplit hLater => ?_⟩
      obtain ⟨rfl, rfl⟩ | ⟨more, rfl, rfl⟩ := List.cons_eq_append_iff.mp hSplit
      · exact hVerdict
      · exact hDropped more later rfl hLater
    | frame length =>
      rw [scan_frame hVerdict] at h
      obtain ⟨hFound, rfl⟩ := Prod.mk.inj h
      obtain rfl := Option.some.inj hFound
      refine ⟨[], x :: xs, rfl, (List.take_append_drop length _).symm, ?_, fun dropped later hSplit hLater => ?_⟩
      · rw [List.length_take, Nat.min_eq_left (scanner.inside _ _ hVerdict)]
        exact hVerdict
      · exact absurd (List.append_eq_nil_iff.mp hSplit.symm).2 hLater

theorem scan_of_dropped {before tail : List α}
    (hDropped : ∀ dropped later, before = dropped ++ later → later ≠ [] → scanner.verdict (later ++ tail) = .drop) :
    scanner.scan (before ++ tail) = scanner.scan tail := by
  induction before with
  | nil => rfl
  | cons x before ih =>
    have hFirst := hDropped [] (x :: before) rfl (List.cons_ne_nil x before)
    rw [List.cons_append] at hFirst ⊢
    rw [scan_drop hFirst]
    exact ih fun dropped later hSplit => hDropped (x :: dropped) later (by rw [hSplit, List.cons_append])

theorem scan_last_iff {before frame : List α} (hFrame : scanner.verdict frame = .frame frame.length) (hSome : frame ≠ []) :
    scanner.scan (before ++ frame) = (some frame, []) ↔
      ∀ dropped later, before = dropped ++ later → later ≠ [] → scanner.verdict (later ++ frame) = .drop := by
  constructor
  · intro hScan
    obtain ⟨passed, tail, hSplit, hTail, -, hDropped⟩ := scan_some hScan
    rw [List.append_nil] at hTail
    subst hTail
    rwa [List.append_cancel_right hSplit]
  · intro hDropped
    rw [scan_of_dropped hDropped]
    cases frame with
    | nil => exact absurd rfl hSome
    | cons x xs => rw [scan_frame hFrame, List.take_length, List.drop_length]

end Scanner

end EdgeGateway
