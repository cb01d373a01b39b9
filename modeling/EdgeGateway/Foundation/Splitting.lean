import Mathlib.Data.List.TakeWhile

/-! # Splitting at a separator -/

namespace EdgeGateway.Splitting

universe u

variable {α : Type u} [DecidableEq α] {sep : α} {front : List α}

theorem takeWhile_ne_of_not_mem (h : sep ∉ front) : front.takeWhile (· ≠ sep) = front :=
  List.takeWhile_eq_self_iff.mpr fun _ hc => decide_eq_true (ne_of_mem_of_not_mem hc h)

theorem dropWhile_ne_of_not_mem (h : sep ∉ front) : front.dropWhile (· ≠ sep) = [] :=
  List.dropWhile_eq_nil_iff.mpr fun _ hc => decide_eq_true (ne_of_mem_of_not_mem hc h)

theorem takeWhile_ne_append (h : sep ∉ front) (rest : List α) :
    (front ++ sep :: rest).takeWhile (· ≠ sep) = front := by
  rw [List.takeWhile_append_of_pos fun c hc => decide_eq_true (ne_of_mem_of_not_mem hc h),
    List.takeWhile_cons_of_neg (by simp), List.append_nil]

theorem dropWhile_ne_append (h : sep ∉ front) (rest : List α) :
    (front ++ sep :: rest).dropWhile (· ≠ sep) = sep :: rest := by
  rw [List.dropWhile_append_of_pos fun c hc => decide_eq_true (ne_of_mem_of_not_mem hc h),
    List.dropWhile_cons_of_neg (by simp)]

section Pieces

variable (sep)

def pieces : List α → List (List α)
  | [] => []
  | a :: rest =>
    if a = sep then [] :: pieces rest
    else
      match pieces rest with
      | [] => [[a]]
      | piece :: more => (a :: piece) :: more

def ended (pieces : List (List α)) : List α := pieces.flatMap fun piece => piece ++ [sep]

variable {sep}

theorem pieces_append (h : sep ∉ front) (rest : List α) : pieces sep (front ++ sep :: rest) = front :: pieces sep rest := by
  induction front with
  | nil => rw [List.nil_append, pieces, if_pos rfl]
  | cons a front ih =>
    rw [List.mem_cons, not_or] at h
    rw [List.cons_append, pieces, if_neg (Ne.symm h.1), ih h.2]

theorem pieces_ended {lines : List (List α)} (h : ∀ line ∈ lines, sep ∉ line) : pieces sep (ended sep lines) = lines := by
  induction lines with
  | nil => rfl
  | cons line lines ih =>
    obtain ⟨hLine, hLines⟩ := List.forall_mem_cons.mp h
    rw [ended, List.flatMap_cons, List.append_assoc, List.singleton_append, pieces_append hLine]
    exact congrArg (line :: ·) (ih hLines)

end Pieces

end EdgeGateway.Splitting
