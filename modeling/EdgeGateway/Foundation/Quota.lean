import Mathlib.Data.List.Basic
import Mathlib.Data.List.Induction

/-! # A scan that takes the first few ready items -/

namespace EdgeGateway.Quota

universe u v

variable {σ : Type u} {ι : Type v} (ready : σ → ι → Bool) (act : σ → ι → σ) (quota : Nat)

structure Progress (σ : Type u) (ι : Type v) where
  state : σ
  taken : List ι

def scan : List ι → Progress σ ι → Progress σ ι
  | [], p => p
  | item :: rest, p =>
    if quota ≤ p.taken.length then p
    else if ready p.state item then scan rest ⟨act p.state item, p.taken ++ [item]⟩
    else scan rest p

def readyAfter (before : List ι) (p : Progress σ ι) (item : ι) : Bool :=
  ready (scan ready act quota before p).state item

def readyCount (items : List ι) (p : Progress σ ι) : Nat :=
  ((List.range items.length).filter fun k =>
    items[k]?.any fun item => readyAfter ready act quota (items.take k) p item).length

variable {ready act quota} {p : Progress σ ι} {items past later : List ι} {item : ι}

theorem scan_full (h : quota ≤ p.taken.length) (items : List ι) : scan ready act quota items p = p := by
  cases items with
  | nil => rfl
  | cons item rest => rw [scan, if_pos h]

theorem scan_append (past later : List ι) (p : Progress σ ι) :
    scan ready act quota (past ++ later) p = scan ready act quota later (scan ready act quota past p) := by
  induction past generalizing p with
  | nil => rfl
  | cons item past ih =>
    rw [List.cons_append, scan, scan]
    split
    · rename_i hFull
      exact (scan_full hFull later).symm
    · split
      · exact ih _
      · exact ih _

theorem scan_singleton (item : ι) (p : Progress σ ι) :
    scan ready act quota [item] p =
      if ¬ quota ≤ p.taken.length ∧ ready p.state item = true then ⟨act p.state item, p.taken ++ [item]⟩ else p := by
  rw [scan]
  split
  · rename_i hFull
    rw [if_neg (fun h => h.1 hFull)]
  · rename_i hRoom
    split
    · rename_i hReady
      rw [if_pos ⟨hRoom, hReady⟩]
      rfl
    · rename_i hReady
      rw [if_neg (fun h => hReady h.2)]
      rfl

theorem readyCount_snoc (items : List ι) (item : ι) (p : Progress σ ι) :
    readyCount ready act quota (items ++ [item]) p =
      readyCount ready act quota items p + (readyAfter ready act quota items p item).toNat := by
  rw [readyCount, readyCount, List.length_append, List.length_singleton, List.range_succ, List.filter_append,
    List.length_append]
  congr 1
  · congr 1
    apply List.filter_congr
    intro k hk
    have hk := List.mem_range.mp hk
    rw [List.getElem?_append_left hk, List.take_append_of_le_length (Nat.le_of_lt hk)]
  · cases hReady : readyAfter ready act quota items p item <;> simp [hReady]

variable (ready act quota) in
theorem length_taken (items : List ι) (state : σ) :
    (scan ready act quota items ⟨state, []⟩).taken.length = min quota (readyCount ready act quota items ⟨state, []⟩) := by
  induction items using List.reverseRecOn with
  | nil => simp [scan, readyCount]
  | append_singleton items item ih =>
    rw [scan_append, scan_singleton, readyCount_snoc, readyAfter]
    generalize scan ready act quota items ⟨state, []⟩ = q at ih ⊢
    split
    · rename_i h
      rw [List.length_append, List.length_singleton, h.2, Bool.toNat_true]
      omega
    · rename_i h
      cases hReady : ready q.state item with
      | false => rw [Bool.toNat_false, Nat.add_zero, ih]
      | true =>
        have hFull : quota ≤ q.taken.length := by
          apply Decidable.byContradiction
          intro hRoom
          exact h ⟨hRoom, hReady⟩
        rw [Bool.toNat_true]
        omega

theorem mem_taken (h : item ∈ (scan ready act quota items p).taken) : item ∈ p.taken ∨ item ∈ items := by
  induction items generalizing p with
  | nil => exact .inl h
  | cons first rest ih =>
    rw [scan] at h
    split at h
    · exact .inl h
    · split at h
      · obtain hTaken | hRest := ih h
        · obtain hOld | hNow := List.mem_append.mp hTaken
          · exact .inl hOld
          · obtain rfl := List.mem_singleton.mp hNow
            exact .inr List.mem_cons_self
        · exact .inr (List.mem_cons_of_mem _ hRest)
      · obtain hOld | hRest := ih h
        · exact .inl hOld
        · exact .inr (List.mem_cons_of_mem _ hRest)

theorem taken_subset (h : item ∈ p.taken) : item ∈ (scan ready act quota items p).taken := by
  induction items generalizing p with
  | nil => exact h
  | cons first rest ih =>
    rw [scan]
    split
    · exact h
    · split
      · exact ih (List.mem_append_left _ h)
      · exact ih h

theorem mem_taken_iff (state : σ) (hPast : item ∉ past) (hLater : item ∉ later) :
    item ∈ (scan ready act quota (past ++ item :: later) ⟨state, []⟩).taken ↔
      readyAfter ready act quota past ⟨state, []⟩ item = true ∧ readyCount ready act quota past ⟨state, []⟩ < quota := by
  have hLength := length_taken ready act quota past state
  have hFresh : item ∉ (scan ready act quota past ⟨state, []⟩).taken := by
    intro h
    obtain hNil | hIn := mem_taken h
    · cases hNil
    · exact hPast hIn
  rw [scan_append, readyAfter]
  generalize scan ready act quota past ⟨state, []⟩ = q at hLength hFresh ⊢
  rw [scan]
  split
  · constructor
    · intro h
      exact absurd h hFresh
    · rintro ⟨-, hRoom⟩
      omega
  · rename_i hRoom
    split
    · rename_i hReady
      refine ⟨fun _ => ⟨hReady, by omega⟩, fun _ => taken_subset (List.mem_append_right _ List.mem_cons_self)⟩
    · rename_i hReady
      constructor
      · intro h
        obtain hOld | hIn := mem_taken h
        · exact absurd hOld hFresh
        · exact absurd hIn hLater
      · rintro ⟨h, -⟩
        exact absurd h hReady

end EdgeGateway.Quota
