import EdgeGateway.Foundation.Run

/-! # Exchanges along a log

Some entries of a log open an exchange under a key, others close it; to open one that is open is a
repetition.
-/

namespace EdgeGateway.Exchange

universe u v

variable {ε : Type u} {κ : Type v} (opens closes : κ → ε → Prop)

def Open (log : List ε) (key : κ) : Prop :=
  ∃ before entry later, log = before ++ entry :: later ∧ opens key entry ∧ ∀ x ∈ later, ¬ closes key x

/-- Between two openings under one key there is a closing. -/
def Once (log : List ε) : Prop :=
  ∀ before first between second later key, log = before ++ first :: (between ++ second :: later) →
    opens key first → opens key second → ∃ x ∈ between, closes key x

variable {opens closes} {log : List ε}

theorem once_nil : Once opens closes [] := by
  rintro before first between second later key h
  simp at h

theorem once_snoc (entry : ε) :
    Once opens closes (log ++ [entry]) ↔
      Once opens closes log ∧ ∀ key, opens key entry → ¬ Open opens closes log key := by
  constructor
  · intro h
    constructor
    · rintro before first between second later key rfl hFirst hSecond
      exact h before first between second (later ++ [entry]) key (by simp) hFirst hSecond
    · rintro key hEntry ⟨before, first, later, rfl, hFirst, hLater⟩
      obtain ⟨x, hx, hCloses⟩ := h before first later entry [] key (by simp) hFirst hEntry
      exact hLater x hx hCloses
  · rintro ⟨hLog, hEntry⟩ before first between second later key hSplit hFirst hSecond
    -- the second opening is either the new entry or lies in the old log
    obtain rfl | ⟨later, last, rfl⟩ := List.eq_nil_or_concat later
    · have hParts : log = before ++ first :: between ∧ entry = second := by
        have : log ++ [entry] = (before ++ first :: between) ++ [second] := by simpa using hSplit
        simpa using List.append_inj' this rfl
      obtain ⟨rfl, rfl⟩ := hParts
      by_contra hNone
      push Not at hNone
      exact hEntry key hSecond ⟨before, first, between, rfl, hFirst, hNone⟩
    · have hParts : log = before ++ first :: (between ++ second :: later) ∧ entry = last := by
        have : log ++ [entry] = (before ++ first :: (between ++ second :: later)) ++ [last] := by
          simpa using hSplit
        simpa using List.append_inj' this rfl
      exact hLog before first between second later key hParts.1 hFirst hSecond

theorem once_append (more : List ε) :
    Once opens closes (log ++ more) ↔ Once opens closes log ∧
      ∀ done entry rest, more = done ++ entry :: rest → ∀ key, opens key entry →
        ¬ Open opens closes (log ++ done) key := by
  induction more using List.reverseRecOn with
  | nil => simp
  | append_singleton more last ih =>
    rw [← List.append_assoc, once_snoc, ih]
    constructor
    · rintro ⟨⟨hLog, hMore⟩, hLast⟩
      refine ⟨hLog, fun done entry rest hSplit key hOpens => ?_⟩
      obtain rfl | ⟨rest, final, rfl⟩ := List.eq_nil_or_concat rest
      · obtain ⟨rfl, hSame⟩ := List.append_inj' hSplit rfl
        obtain rfl : last = entry := by simpa using hSame
        exact hLast key hOpens
      · have hParts : more = done ++ entry :: rest := by
          have : more ++ [last] = (done ++ entry :: rest) ++ [final] := by simpa using hSplit
          exact (List.append_inj' this rfl).1
        exact hMore done entry rest hParts key hOpens
    · rintro ⟨hLog, hMore⟩
      refine ⟨⟨hLog, ?_⟩, fun key hOpens => hMore more last [] rfl key hOpens⟩
      rintro done entry rest rfl key hOpens
      exact hMore done entry (rest ++ [last]) (by simp) key hOpens

end EdgeGateway.Exchange

namespace EdgeGateway.WriteLedger

universe u v

variable {ι : Type u} {α : Type v} [DecidableEq ι]

inductive Entry (ι : Type u) (α : Type v) where
  | issued (key : ι) (time spacing : Int) (value : α)
  | settled (key : ι)
  | forgotten (key : ι)
deriving DecidableEq

structure Ledger (ι : Type u) (α : Type v) where
  out : ι → Bool
  lastAt : ι → Option Int
  lastValue : ι → Option α

namespace Ledger

def empty : Ledger ι α := ⟨fun _ => false, fun _ => none, fun _ => none⟩

def record (ledger : Ledger ι α) : Entry ι α → Ledger ι α
  | .issued key time _ value =>
    ⟨Function.update ledger.out key true, Function.update ledger.lastAt key (some time),
      Function.update ledger.lastValue key (some value)⟩
  | .settled key => { ledger with out := Function.update ledger.out key false }
  | .forgotten key =>
    { ledger with
      lastAt := Function.update ledger.lastAt key none
      lastValue := Function.update ledger.lastValue key none }

def Permits (ledger : Ledger ι α) : Entry ι α → Prop
  | .issued key time spacing _ => ledger.out key = false ∧ ∀ last, ledger.lastAt key = some last → spacing ≤ time - last
  | .settled key => ledger.out key = true
  | .forgotten _ => True

end Ledger

abbrev Keeps (ledger : Ledger ι α) (entries : List (Entry ι α)) (after : Ledger ι α) : Prop :=
  Run.Leads Ledger.record Ledger.Permits ledger entries after

def isIssued (key : ι) : Entry ι α → Bool
  | .issued other _ _ _ => decide (other = key)
  | _ => false

def isSettled (key : ι) : Entry ι α → Bool
  | .settled other => decide (other = key)
  | _ => false

theorem issued_count (key : ι) (entries : List (Entry ι α))
    (h : Run.Guarded Ledger.record Ledger.Permits Ledger.empty entries) :
    entries.countP (isIssued key) = entries.countP (isSettled key) +
      if (Run.after Ledger.record Ledger.empty entries).out key then 1 else 0 := by
  induction entries using List.reverseRecOn with
  | nil => rfl
  | append_singleton entries entry ih =>
    obtain ⟨hBefore, hEntry⟩ := (Run.guarded_append _ _ _ _ _).mp h
    have hPermits := ((Run.guarded_cons _ _ _ _ _).mp hEntry).1
    have hCount := ih hBefore
    rw [Run.after_snoc, List.countP_append, List.countP_append, hCount]
    cases entry with
    | issued other time spacing value =>
      obtain rfl | hNe := eq_or_ne other key
      · simp [isIssued, isSettled, Ledger.record, hPermits.1]
      · simp [isIssued, isSettled, Ledger.record, hNe, Function.update_of_ne hNe.symm]
    | settled other =>
      obtain rfl | hNe := eq_or_ne other key
      · have hOut : (Run.after Ledger.record Ledger.empty entries).out other = true := hPermits
        simp [isIssued, isSettled, Ledger.record, hOut]
      · simp [isIssued, isSettled, Ledger.record, hNe, Function.update_of_ne hNe.symm]
    | forgotten other =>
      simp only [List.countP_singleton, isIssued, isSettled, Bool.false_eq_true, if_false, Nat.add_zero]
      rfl

theorem one_out (key : ι) {entries : List (Entry ι α)} {ledger : Ledger ι α} (h : Keeps Ledger.empty entries ledger)
    (done : List (Entry ι α)) (hDone : done <+: entries) :
    done.countP (isIssued key) ≤ done.countP (isSettled key) + 1 := by
  rw [issued_count key done (h.1.before _ hDone)]
  split <;> omega

def InOrder (entries : List (Entry ι α)) : Prop :=
  entries.Pairwise fun first second => ∀ key time spacing value key' time' spacing' value',
    first = .issued key time spacing value → second = .issued key' time' spacing' value' → time ≤ time'

theorem lastAt_of_issued {key : ι} {time spacing : Int} {value : α} (ledger : Ledger ι α) (later : List (Entry ι α))
    (hOrder : InOrder (.issued key time spacing value :: later)) (hKept : .forgotten key ∉ later) :
    ∃ last, (Run.after Ledger.record ledger (.issued key time spacing value :: later)).lastAt key = some last ∧
      time ≤ last := by
  induction later using List.reverseRecOn with
  | nil => exact ⟨time, by simp [Ledger.record], Int.le_refl time⟩
  | append_singleton later entry ih =>
    rw [← List.cons_append] at hOrder ⊢
    rw [Run.after_snoc]
    have hFirst : InOrder (.issued key time spacing value :: later) := (List.pairwise_append.mp hOrder).1
    obtain ⟨last, hLast, hLe⟩ := ih hFirst fun h => hKept (List.mem_append_left _ h)
    cases entry with
    | issued other time' spacing' value' =>
      obtain rfl | hNe := eq_or_ne other key
      · refine ⟨time', by simp [Ledger.record], ?_⟩
        exact (List.pairwise_append.mp hOrder).2.2 _ List.mem_cons_self _ (List.mem_singleton_self _) _ _ _ _ _ _ _ _
          rfl rfl
      · exact ⟨last, by simpa [Ledger.record, Function.update_of_ne hNe.symm] using hLast, hLe⟩
    | settled other => exact ⟨last, hLast, hLe⟩
    | forgotten other =>
      have hNe : key ≠ other := by
        rintro rfl
        exact hKept (List.mem_append_right _ (List.mem_singleton_self _))
      exact ⟨last, by simpa [Ledger.record, Function.update_of_ne hNe] using hLast, hLe⟩

/-- Two issues of a key keep the spacing of the second unless the first was forgotten in between. -/
theorem spaced {entries : List (Entry ι α)} {ledger : Ledger ι α} (h : Keeps Ledger.empty entries ledger)
    (hOrder : InOrder entries) {before between after : List (Entry ι α)} {key : ι} {time spacing time' spacing' : Int}
    {value value' : α}
    (hSplit : entries = before ++ .issued key time spacing value :: (between ++ .issued key time' spacing' value' :: after))
    (hKept : .forgotten key ∉ between) : spacing' ≤ time' - time := by
  have hRegroup : entries = (before ++ .issued key time spacing value :: between) ++ .issued key time' spacing' value' :: after := by
    rw [hSplit]
    simp
  have hGuard := h.1
  rw [hRegroup, Run.guarded_append, Run.guarded_cons] at hGuard
  have hTail : InOrder (.issued key time spacing value :: between) := by
    rw [hRegroup, List.append_assoc, List.cons_append] at hOrder
    have hInner := (List.pairwise_append.mp hOrder).2.1
    rw [← List.cons_append] at hInner
    exact (List.pairwise_append.mp hInner).1
  obtain ⟨last, hLast, hLe⟩ := lastAt_of_issued (Run.after Ledger.record Ledger.empty before) between hTail hKept
  rw [← Run.after_append] at hLast
  have hSpacing := hGuard.2.1.2 last hLast
  omega

end EdgeGateway.WriteLedger
