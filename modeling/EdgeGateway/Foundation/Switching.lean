import Mathlib.Data.List.Chain

/-! # A state with two values

It is set again and again, mostly to what it is.
-/

namespace EdgeGateway.Switching

variable {state : Bool} {l : List Bool}

def final (state : Bool) (l : List Bool) : Bool := l.getLast?.getD state

def changes (state : Bool) : List Bool → List Bool
  | [] => []
  | next :: l => if next = state then changes state l else next :: changes next l

def Alternating (state : Bool) : List Bool → Prop
  | [] => True
  | change :: l => change ≠ state ∧ Alternating change l

instance decidableAlternating (state : Bool) (l : List Bool) : Decidable (Alternating state l) := by
  induction l generalizing state with
  | nil => exact inferInstanceAs (Decidable True)
  | cons change l ih => exact @instDecidableAnd _ _ _ (ih change)

/-- What is seen of a state tells how it moved: it starts opposite to the state before, alternates and
    ends with the state after. -/
structure Tells (before after : Bool) (l : List Bool) : Prop where
  alternating : Alternating before l
  last : ∀ last ∈ l.getLast?, last = after

@[simp] theorem final_nil : final state [] = state := rfl

@[simp] theorem final_snoc (last : Bool) : final state (l ++ [last]) = last := by
  rw [final, List.getLast?_concat, Option.getD_some]

theorem final_cons (next : Bool) : final state (next :: l) = final next l := by
  obtain rfl | ⟨l, last, rfl⟩ := List.eq_nil_or_concat l
  · rfl
  · rw [List.concat_eq_append, ← List.cons_append, final_snoc, final_snoc]

theorem changes_self : changes state (state :: l) = changes state l := by
  rw [changes, if_pos rfl]

theorem changes_of_ne {next : Bool} (h : next ≠ state) : changes state (next :: l) = next :: changes next l := by
  rw [changes, if_neg h]

theorem changes_snoc (last : Bool) :
    changes state (l ++ [last]) = changes state l ++ if last = final state l then [] else [last] := by
  induction l generalizing state with
  | nil => rfl
  | cons next l ih =>
    rw [List.cons_append, final_cons]
    obtain rfl | hNext := eq_or_ne next state
    · rw [changes_self, changes_self, ih]
    · rw [changes_of_ne hNext, changes_of_ne hNext, ih, List.cons_append]

theorem alternating_changes : Alternating state (changes state l) := by
  induction l generalizing state with
  | nil => trivial
  | cons next l ih =>
    obtain rfl | hNext := eq_or_ne next state
    · rw [changes_self]
      exact ih
    · rw [changes_of_ne hNext]
      exact ⟨hNext, ih⟩

theorem final_changes : final state (changes state l) = final state l := by
  induction l generalizing state with
  | nil => rfl
  | cons next l ih =>
    obtain rfl | hNext := eq_or_ne next state
    · rw [changes_self, ih, final_cons]
    · rw [changes_of_ne hNext, final_cons, final_cons, ih]

theorem changes_eq_nil_iff : changes state l = [] ↔ ∀ next ∈ l, next = state := by
  induction l with
  | nil => simp [changes]
  | cons next l ih =>
    obtain rfl | hNext := eq_or_ne next state
    · rw [changes_self, ih, List.forall_mem_cons, and_iff_right rfl]
    · rw [changes_of_ne hNext, List.forall_mem_cons]
      simp [hNext]

theorem final_again : final (final state l) l = final state l := by
  obtain rfl | ⟨l, last, rfl⟩ := List.eq_nil_or_concat l
  · rfl
  · rw [List.concat_eq_append, final_snoc, final_snoc]

theorem changes_again_eq_nil_iff :
    changes (final state l) l = [] ↔ ∀ next ∈ l, ∀ other ∈ l, next = other := by
  rw [changes_eq_nil_iff]
  constructor
  · intro h next hNext other hOther
    rw [h next hNext, h other hOther]
  · intro h next hNext
    obtain rfl | ⟨l, last, rfl⟩ := List.eq_nil_or_concat l
    · cases hNext
    · rw [List.concat_eq_append] at h hNext ⊢
      rw [final_snoc]
      exact h next hNext last (by simp)

theorem exists_on_of_changes {state : Bool} {l : List Bool} (hBack : final state l = state)
    (hSome : changes state l ≠ []) : true ∈ changes state l := by
  have hAlternating : Alternating state (changes state l) := alternating_changes
  have hFinal : final state (changes state l) = state := final_changes.trans hBack
  generalize changes state l = seen at hAlternating hFinal hSome ⊢
  cases state with
  | false =>
    cases seen with
    | nil => exact absurd rfl hSome
    | cons change seen =>
      obtain rfl : change = true := by simpa using hAlternating.1
      exact List.mem_cons_self
  | true =>
    obtain rfl | ⟨seen, last, rfl⟩ := List.eq_nil_or_concat seen
    · exact absurd rfl hSome
    · rw [List.concat_eq_append] at hFinal ⊢
      rw [final_snoc] at hFinal
      rw [hFinal]
      exact List.mem_append_right _ List.mem_cons_self

/-! ## A swing

The state is off, on and off again.
-/

def Swings (state : Bool) (l : List Bool) : Prop := [false, true, false].Sublist (state :: l)

instance (state : Bool) (l : List Bool) : Decidable (Swings state l) :=
  inferInstanceAs (Decidable (List.Sublist _ _))

theorem sublist_repeat_iff {pattern : List Bool} (hPattern : pattern.IsChain (· ≠ ·)) :
    pattern.Sublist (state :: state :: l) ↔ pattern.Sublist (state :: l) := by
  constructor
  · intro h
    cases h with
    | cons _ h => exact h
    | cons_cons _ h =>
      cases h with
      | cons _ h => exact h.cons_cons _
      | cons_cons _ h =>
        cases hPattern with
        | cons_cons hNe _ => exact absurd rfl hNe
  · exact fun h => h.trans (List.sublist_cons_self _ _)

theorem sublist_changes_iff {pattern : List Bool} (hPattern : pattern.IsChain (· ≠ ·)) :
    pattern.Sublist (state :: changes state l) ↔ pattern.Sublist (state :: l) := by
  induction l generalizing state pattern with
  | nil => rfl
  | cons next l ih =>
    obtain rfl | hNext := eq_or_ne next state
    · rw [changes_self, ih hPattern, sublist_repeat_iff hPattern]
    · rw [changes_of_ne hNext]
      constructor
      · intro h
        cases h with
        | cons _ h => exact ((ih hPattern).mp h).cons _
        | cons_cons _ h => exact ((ih hPattern.of_cons).mp h).cons_cons _
      · intro h
        cases h with
        | cons _ h => exact ((ih hPattern).mpr h).cons _
        | cons_cons _ h => exact ((ih hPattern.of_cons).mpr h).cons_cons _

theorem swings_changes_iff : Swings state (changes state l) ↔ Swings state l :=
  sublist_changes_iff (by decide)

def offsFirst (l : List Bool) : List Bool := l.filter (!·) ++ l.filter (·)

theorem tells_offsFirst_iff {after : Bool} (hAlternating : Alternating state l) (hAfter : final state l = after) :
    Tells state after (offsFirst l) ↔ ¬ Swings state l := by
  subst hAfter
  cases state with
  | false =>
    cases l with
    | nil => exact iff_of_true ⟨trivial, by simp [offsFirst]⟩ (by decide)
    | cons first l =>
      obtain rfl : first = true := by simpa using hAlternating.1
      cases l with
      | nil => exact iff_of_true ⟨by decide, by simp [offsFirst, final]⟩ (by decide)
      | cons second l =>
        obtain rfl : second = false := by simpa using hAlternating.2.1
        refine iff_of_false (fun h => h.alternating.1 rfl) (fun h => h ?_)
        exact (List.nil_sublist l).cons_cons _ |>.cons_cons _ |>.cons_cons _
  | true =>
    cases l with
    | nil => exact iff_of_true ⟨trivial, by simp [offsFirst]⟩ (by decide)
    | cons first l =>
      obtain rfl : first = false := by simpa using hAlternating.1
      cases l with
      | nil => exact iff_of_true ⟨by decide, by simp [offsFirst, final]⟩ (by decide)
      | cons second l =>
        obtain rfl : second = true := by simpa using hAlternating.2.1
        cases l with
        | nil => exact iff_of_true ⟨by decide, by simp [offsFirst, final]⟩ (by decide)
        | cons third l =>
          obtain rfl : third = false := by simpa using hAlternating.2.2.1
          refine iff_of_false (fun h => h.alternating.2.1 rfl) (fun h => h ?_)
          exact (((List.nil_sublist l).cons_cons _ |>.cons_cons _ |>.cons_cons _).cons _)

end EdgeGateway.Switching
