import Mathlib

/-! # Counting by periods

Ticks come one after the other and belong to periods that follow each other.
-/

namespace EdgeGateway.Periods

/-- A count over ticks that can be kept one tick at a time. -/
structure Counting (α : Type) where
  zero : α
  add : ℤ → α → α
  total : Finset ℤ → α
  total_empty : total ∅ = zero
  total_insert : ∀ {tick : ℤ} {ticks : Finset ℤ}, tick ∉ ticks → total (insert tick ticks) = add tick (total ticks)

structure Book (κ α : Type) where
  current : Option (κ × α) := none
  last : Option (κ × α) := none

section Operations

variable {κ α : Type} [DecidableEq κ]

def Book.turn (book : Book κ α) (period : κ) (zero : α) : Book κ α :=
  match book.current with
  | none => book
  | some (key, count) => if key = period then book else { current := some (period, zero), last := some (key, count) }

def Book.record (book : Book κ α) (period : κ) (zero : α) (add : α → α) : Book κ α :=
  let turned := book.turn period zero
  { turned with current := some (period, add ((turned.current.map Prod.snd).getD zero)) }

end Operations

section Accounts

variable {κ α : Type} [LinearOrder κ] (counting : Counting α) (period : ℤ → κ)

noncomputable def ticksIn (first upto : ℤ) (key : κ) : Finset ℤ := (Finset.Ico first upto).filter fun tick => period tick = key

def LastBefore (first upto : ℤ) (today : κ) : Option (κ × α) → Prop
  | none => ∀ tick ∈ Finset.Ico first upto, ¬ period tick < today
  | some (key, count) => key < today ∧ (∃ tick ∈ Finset.Ico first upto, period tick = key) ∧
      (∀ tick ∈ Finset.Ico first upto, period tick < today → period tick ≤ key) ∧
      count = counting.total (ticksIn period first upto key)

structure Accounts (first upto : ℤ) (today : κ) (book : Book κ α) : Prop where
  current : (first < upto ∧ book.current = some (today, counting.total (ticksIn period first upto today))) ∨
    (first = upto ∧ book.current = none)
  last : LastBefore counting period first upto today book.last
  passed : ∀ tick ∈ Finset.Ico first upto, period tick ≤ today

variable {counting period} {first upto : ℤ} {today : κ} {book : Book κ α}

theorem mem_Ico_succ {tick : ℤ} : tick ∈ Finset.Ico first (upto + 1) ↔ tick ∈ Finset.Ico first upto ∨
    tick = upto ∧ first ≤ upto := by
  rw [Finset.mem_Ico, Finset.mem_Ico]
  omega

theorem ticksIn_succ (h : first ≤ upto) (key : κ) : ticksIn period first (upto + 1) key =
    if period upto = key then insert upto (ticksIn period first upto key) else ticksIn period first upto key := by
  ext tick
  split
  · rename_i hKey
    rw [Finset.mem_insert, ticksIn, ticksIn, Finset.mem_filter, Finset.mem_filter, mem_Ico_succ]
    constructor
    · rintro ⟨hOld | ⟨rfl, -⟩, hTick⟩
      · exact .inr ⟨hOld, hTick⟩
      · exact .inl rfl
    · rintro (rfl | ⟨hOld, hTick⟩)
      · exact ⟨.inr ⟨rfl, h⟩, hKey⟩
      · exact ⟨.inl hOld, hTick⟩
  · rename_i hKey
    rw [ticksIn, ticksIn, Finset.mem_filter, Finset.mem_filter, mem_Ico_succ]
    constructor
    · rintro ⟨hOld | ⟨rfl, -⟩, hTick⟩
      · exact ⟨hOld, hTick⟩
      · exact absurd hTick hKey
    · rintro ⟨hOld, hTick⟩
      exact ⟨.inl hOld, hTick⟩

theorem ticksIn_empty {key : κ} (h : ∀ tick ∈ Finset.Ico first upto, period tick ≠ key) :
    ticksIn period first upto key = ∅ := Finset.filter_eq_empty_iff.mpr fun tick hTick => h tick hTick

theorem total_record (h : first ≤ upto) : counting.total (ticksIn period first (upto + 1) (period upto)) =
    counting.add upto (counting.total (ticksIn period first upto (period upto))) := by
  rw [ticksIn_succ h, if_pos rfl]
  refine counting.total_insert fun hMem => ?_
  have hBefore := (Finset.mem_Ico.mp (Finset.mem_filter.mp hMem).1).2
  omega

theorem LastBefore.succ {closed : Option (κ × α)} (h : LastBefore counting period first upto today closed)
    (hBounds : first ≤ upto) (hToday : period upto = today) : LastBefore counting period first (upto + 1) today closed := by
  cases closed with
  | none =>
    intro tick hTick
    rcases mem_Ico_succ.mp hTick with hOld | ⟨rfl, -⟩
    · exact h tick hOld
    · rw [hToday]
      exact lt_irrefl today
  | some entry =>
    obtain ⟨hKey, ⟨tick, hTick, hPeriod⟩, hGreatest, hCount⟩ := h
    refine ⟨hKey, ⟨tick, mem_Ico_succ.mpr (.inl hTick), hPeriod⟩, fun other hOther hBefore => ?_, ?_⟩
    · rcases mem_Ico_succ.mp hOther with hOld | ⟨rfl, -⟩
      · exact hGreatest other hOld hBefore
      · exact absurd (hToday ▸ hBefore) (lt_irrefl today)
    · rw [ticksIn_succ hBounds, if_neg (by rw [hToday]; exact hKey.ne'), hCount]

theorem Accounts.lastBefore {next : κ} (h : Accounts counting period first upto today book) (hNext : today < next)
    (hTick : ∃ tick ∈ Finset.Ico first upto, period tick = today) :
    LastBefore counting period first upto next (some (today, counting.total (ticksIn period first upto today))) :=
  ⟨hNext, hTick, fun tick hMem _ => h.passed tick hMem, rfl⟩

theorem Accounts.le (h : Accounts counting period first upto today book) : first ≤ upto := by
  rcases h.current with ⟨hLess, -⟩ | ⟨hSame, -⟩
  · omega
  · omega

theorem Accounts.turn {next : κ} (h : Accounts counting period first upto today book) (hNext : today ≤ next)
    (hTick : today < next → first < upto → ∃ tick ∈ Finset.Ico first upto, period tick = today) :
    Accounts counting period first upto next (book.turn next counting.zero) := by
  have hPassed : ∀ tick ∈ Finset.Ico first upto, period tick ≤ next := fun tick hMem => (h.passed tick hMem).trans hNext
  rcases h.current with ⟨hLess, hCurrent⟩ | ⟨rfl, hCurrent⟩
  · rw [Book.turn, hCurrent]
    dsimp only
    by_cases hSame : today = next
    · rw [if_pos hSame]
      exact hSame ▸ h
    · rw [if_neg hSame]
      have hLater : today < next := lt_of_le_of_ne hNext hSame
      have hEmpty : ticksIn period first upto next = ∅ :=
        ticksIn_empty fun tick hMem hKey => absurd (h.passed tick hMem) (by rw [hKey]; exact not_le.mpr hLater)
      refine ⟨.inl ⟨hLess, ?_⟩, h.lastBefore hLater (hTick hLater hLess), hPassed⟩
      rw [hEmpty, counting.total_empty]
  · rw [Book.turn, hCurrent]
    refine ⟨.inr ⟨rfl, hCurrent⟩, ?_, hPassed⟩
    have hLast := h.last
    cases hClosed : book.last with
    | none =>
      intro tick hMem
      rw [Finset.Ico_self] at hMem
      cases hMem
    | some entry =>
      rw [hClosed] at hLast
      obtain ⟨-, ⟨tick, hMem, -⟩, -, -⟩ := hLast
      rw [Finset.Ico_self] at hMem
      cases hMem

theorem Accounts.add (h : Accounts counting period first upto (period upto) book) :
    Accounts counting period first (upto + 1) (period upto) { book with
      current := some (period upto, counting.add upto ((book.current.map Prod.snd).getD counting.zero)) } := by
  have hLess : first < upto + 1 := by
    have hLe := h.le
    omega
  refine ⟨.inl ⟨hLess, ?_⟩, h.last.succ h.le rfl, fun tick hMem => ?_⟩
  · rw [total_record h.le]
    rcases h.current with ⟨-, hCurrent⟩ | ⟨hSame, hCurrent⟩
    · rw [hCurrent]
      rfl
    · rw [hCurrent, ticksIn_empty, counting.total_empty]
      · rfl
      · intro tick hMem
        rw [hSame, Finset.Ico_self] at hMem
        cases hMem
  · rcases mem_Ico_succ.mp hMem with hOld | ⟨rfl, -⟩
    · exact h.passed tick hOld
    · exact le_refl _

theorem Accounts.record (h : Accounts counting period first upto today book) (hNext : today ≤ period upto)
    (hTick : today < period upto → first < upto → ∃ tick ∈ Finset.Ico first upto, period tick = today) :
    Accounts counting period first (upto + 1) (period upto)
      (book.record (period upto) counting.zero (counting.add upto)) :=
  (h.turn hNext hTick).add

theorem LastBefore.congr {counting' : Counting α} {closed : Option (κ × α)}
    (h : LastBefore counting period first upto today closed)
    (hSame : ∀ key, counting.total (ticksIn period first upto key) = counting'.total (ticksIn period first upto key)) :
    LastBefore counting' period first upto today closed := by
  cases closed with
  | none => exact h
  | some entry =>
    obtain ⟨hKey, hTick, hGreatest, hCount⟩ := h
    exact ⟨hKey, hTick, hGreatest, hCount.trans (hSame entry.1)⟩

theorem Accounts.congr {counting' : Counting α} (h : Accounts counting period first upto today book)
    (hSame : ∀ key, counting.total (ticksIn period first upto key) = counting'.total (ticksIn period first upto key)) :
    Accounts counting' period first upto today book := by
  refine ⟨?_, h.last.congr hSame, h.passed⟩
  rcases h.current with ⟨hLess, hCurrent⟩ | hNone
  · exact .inl ⟨hLess, by rw [hCurrent, hSame]⟩
  · exact .inr hNone

end Accounts

end EdgeGateway.Periods
