import Mathlib.Algebra.Ring.Nat
import Mathlib.Data.List.Flatten
import Mathlib.Data.List.Perm.Subperm
import Mathlib.Data.List.Rotate

/-! # Selections -/

namespace EdgeGateway.Selection

variable {α β σ : Type}

theorem subperm_flatMap {l₁ l₂ : List α} (hSelected : l₁.Subperm l₂) (f : α → List β) :
    (l₁.flatMap f).Subperm (l₂.flatMap f) := by
  obtain ⟨l, hPerm, hSublist⟩ := hSelected
  exact (hPerm.symm.flatMap_right f).subperm.trans (hSublist.flatMap f).subperm

theorem filterMap_range (l : List α) (n : Nat) : (List.range n).filterMap (l[·]?) = l.take n := by
  induction n with
  | zero => rfl
  | succ n ih =>
    have hLast : [n].filterMap (l[·]?) = l[n]?.toList := by
      rw [List.filterMap_cons]
      cases l[n]? <;> rfl
    rw [List.range_succ, List.filterMap_append, ih, hLast, List.take_add_one]

theorem subperm_around {l : List α} {n : Nat} (start : Nat) (hEnough : n ≤ l.length) :
    ((List.range n).filterMap fun i => l[(start + i) % l.length]?).Subperm l := by
  have hRotated : ((List.range n).filterMap fun i => l[(start + i) % l.length]?) = (l.rotate start).take n := by
    rw [← filterMap_range]
    apply List.filterMap_congr
    intro i hi
    rw [List.getElem?_rotate (Nat.lt_of_lt_of_le (List.mem_range.mp hi) hEnough), Nat.add_comm]
  rw [hRotated]
  exact (List.take_sublist _ _).subperm.trans (List.rotate_perm l start).subperm

theorem perm_filter_or {p q : α → Bool} {l : List α} (hEither : ∀ a, q a = !p a) :
    (l.filter p ++ l.filter q).Perm l := by
  rw [show q = fun a => !p a from funext hEither]
  exact List.filter_append_perm p l

section Budgets

variable (size : α → Nat)

def total (l : List α) : Nat := (l.map size).sum

def fitting (budget : Nat) : List α → List α
  | [] => []
  | a :: l => if total size (a :: l) ≤ budget then a :: l else fitting budget l

def gather (amount : Nat) : Nat → List α → List α
  | _, [] => []
  | gathered, a :: l => a :: if amount ≤ gathered + size a then [] else gather amount (gathered + size a) l

variable {size} {budget : Nat} {l s : List α}

theorem total_cons (a : α) (l : List α) : total size (a :: l) = size a + total size l := by
  rw [total, total, List.map_cons, List.sum_cons]

theorem total_append (l s : List α) : total size (l ++ s) = total size l + total size s := by
  rw [total, total, total, List.map_append, List.sum_append]

theorem total_le_of_suffix (h : s <:+ l) : total size s ≤ total size l := by
  obtain ⟨front, rfl⟩ := h
  rw [total_append]
  exact Nat.le_add_left _ _

theorem total_perm (h : l.Perm s) : total size l = total size s := (h.map size).sum_nat

theorem fitting_suffix (budget : Nat) (l : List α) : fitting size budget l <:+ l := by
  induction l with
  | nil => exact List.suffix_refl []
  | cons a l ih =>
    rw [fitting]
    split
    · exact List.suffix_refl _
    · exact ih.trans (List.suffix_cons a l)

theorem total_fitting_le (budget : Nat) (l : List α) : total size (fitting size budget l) ≤ budget := by
  induction l with
  | nil => exact Nat.zero_le budget
  | cons a l ih =>
    rw [fitting]
    split
    · assumption
    · exact ih

theorem fitting_eq_self (h : total size l ≤ budget) : fitting size budget l = l := by
  cases l with
  | nil => rfl
  | cons a l => rw [fitting, if_pos h]

theorem suffix_fitting (h : s <:+ l) (hBudget : total size s ≤ budget) : s <:+ fitting size budget l := by
  induction l with
  | nil => exact h
  | cons a l ih =>
    rw [fitting]
    split
    · exact h
    · rename_i hOver
      obtain rfl | hRest := List.suffix_cons_iff.mp h
      · exact absurd hBudget hOver
      · exact ih hRest

theorem gather_append_fitting (hOver : budget < total size l) (gathered : Nat) :
    gather size (gathered + (total size l - budget)) gathered l ++ fitting size budget l = l := by
  induction l generalizing gathered with
  | nil => exact absurd hOver (Nat.not_lt_zero budget)
  | cons a l ih =>
    rw [fitting, if_neg (Nat.not_le.mpr hOver), gather]
    rw [total_cons] at hOver ⊢
    split
    · rw [fitting_eq_self (by omega)]
      rfl
    · have hAmount : gathered + (size a + total size l - budget) = gathered + size a + (total size l - budget) := by
        omega
      rw [hAmount, List.cons_append, ih (by omega)]

end Budgets

section Logs

variable (log : σ → List β)

def Logs (items : List β) (s s' : σ) : Prop := (log s').Subperm (log s ++ items)

variable {log} {items more : List β} {s s' s'' : σ}

theorem logs_of_eq (hEqual : log s' = log s) : Logs log items s s' := by
  rw [Logs, hEqual]
  exact (List.sublist_append_left _ _).subperm

theorem Logs.mono (hLogs : Logs log items s s') (hItems : items.Subperm more) : Logs log more s s' :=
  List.Subperm.trans hLogs ((List.subperm_append_left _).mpr hItems)

theorem Logs.trans (hFirst : Logs log items s s') (hSecond : Logs log more s' s'') :
    Logs log (items ++ more) s s'' := by
  rw [Logs, ← List.append_assoc]
  exact List.Subperm.trans hSecond ((List.subperm_append_right _).mpr hFirst)

end Logs

end EdgeGateway.Selection
