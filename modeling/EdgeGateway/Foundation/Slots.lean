import Mathlib.Data.List.FinRange

/-! # Scans over a fixed slot array -/

namespace EdgeGateway.Slots

universe u v

variable {α : Type u} {n : Nat}

def firstSlot (p : α → Bool) (slots : Fin n → α) : Option (Fin n) :=
  (List.finRange n).find? fun i => p (slots i)

def anySlot (p : α → Bool) (slots : Fin n → α) : Bool :=
  (List.finRange n).any fun i => p (slots i)

def resetWhere (p : α → Bool) (blank : α) (slots : Fin n → α) : Fin n → α :=
  fun i => if p (slots i) then blank else slots i

theorem firstSlot_some {p : α → Bool} {slots : Fin n → α} {i : Fin n}
    (h : firstSlot p slots = some i) : p (slots i) = true :=
  List.find?_some (p := fun i => p (slots i)) h

theorem firstSlot_eq_none {p : α → Bool} {slots : Fin n → α} :
    firstSlot p slots = none ↔ ∀ i, p (slots i) = false := by
  simp [firstSlot]

theorem firstSlot_exists {p : α → Bool} {slots : Fin n → α} {i : Fin n}
    (h : p (slots i) = true) : ∃ j, firstSlot p slots = some j := by
  cases hFirst : firstSlot p slots with
  | none => simp [firstSlot_eq_none.mp hFirst i] at h
  | some j => exact ⟨j, rfl⟩

theorem firstSlot_eq_of_unique {p : α → Bool} {slots : Fin n → α} {i : Fin n}
    (h : p (slots i) = true) (hUnique : ∀ j, p (slots j) = true → j = i) :
    firstSlot p slots = some i := by
  obtain ⟨j, hj⟩ := firstSlot_exists h
  rw [hj, hUnique j (firstSlot_some hj)]

theorem firstSlot_const (h : 0 < n) (p : α → Bool) (x : α) (hx : p x = true) :
    firstSlot p (fun _ : Fin n => x) = some ⟨0, h⟩ := by
  cases n with
  | zero => omega
  | succ n => simp [firstSlot, List.finRange_succ, hx]

theorem take_one_finRange (h : 0 < n) : (List.finRange n).take 1 = [⟨0, h⟩] := by
  cases n with
  | zero => omega
  | succ n => simp [List.finRange_succ]

theorem filter_finRange {p : α → Bool} {slots : Fin n → α}
    (hUnique : ∀ i j, p (slots i) = true → p (slots j) = true → i = j) :
    ((List.finRange n).filter fun i => p (slots i)) = (firstSlot p slots).toList := by
  have hList : ∀ visits : List (Fin n), visits.Nodup →
      (visits.filter fun i => p (slots i)) = (visits.find? fun i => p (slots i)).toList := by
    intro visits hNodup
    induction visits with
    | nil => rfl
    | cons i visits ih =>
      obtain ⟨hFresh, hNodup⟩ := List.nodup_cons.mp hNodup
      cases hi : p (slots i) with
      | false => simpa [hi] using ih hNodup
      | true =>
        have hRest : (visits.filter fun j => p (slots j)) = [] := by
          rw [List.filter_eq_nil_iff]
          intro j hj hjp
          obtain rfl := hUnique i j hi hjp
          exact hFresh hj
        simp [hi, hRest]
  exact hList _ (List.nodup_finRange n)

@[simp] theorem anySlot_eq_true {p : α → Bool} {slots : Fin n → α} :
    anySlot p slots = true ↔ ∃ i, p (slots i) = true := by
  simp [anySlot]

theorem anySlot_eq_false {p : α → Bool} {slots : Fin n → α} :
    anySlot p slots = false ↔ ∀ i, p (slots i) = false := by
  simp [anySlot]

section Tally

variable {p : α → Bool}

def tally (p : α → Bool) (slots : Fin n → α) : Nat := (List.finRange n).countP fun i => p (slots i)

theorem countP_update_of_not_mem {visits : List (Fin n)} {k : Fin n} (hk : k ∉ visits) (slots : Fin n → α) (x : α) :
    (visits.countP fun i => p (Function.update slots k x i)) = visits.countP fun i => p (slots i) := by
  apply List.countP_congr
  intro i hi
  have hne : i ≠ k := fun hEq => hk (hEq ▸ hi)
  rw [Function.update_of_ne hne]

theorem tally_update (slots : Fin n → α) (k : Fin n) (x : α) :
    tally p (Function.update slots k x) + (p (slots k)).toNat = tally p slots + (p x).toNat := by
  have hVisits : ∀ visits : List (Fin n), visits.Nodup → k ∈ visits →
      (visits.countP fun i => p (Function.update slots k x i)) + (p (slots k)).toNat =
        (visits.countP fun i => p (slots i)) + (p x).toNat := by
    intro visits hNodup hk
    induction visits with
    | nil => cases hk
    | cons i visits ih =>
      obtain ⟨hFresh, hNodup⟩ := List.nodup_cons.mp hNodup
      rw [List.countP_cons, List.countP_cons]
      obtain rfl | hk := List.mem_cons.mp hk
      · rw [countP_update_of_not_mem hFresh, Function.update_self]
        cases p (slots k) <;> cases p x <;> simp
      · have hne : i ≠ k := fun hEq => hFresh (hEq ▸ hk)
        rw [Function.update_of_ne hne]
        have hRest := ih hNodup hk
        omega
  exact hVisits _ (List.nodup_finRange n) (List.mem_finRange k)

theorem tally_eq_zero {slots : Fin n → α} (h : ∀ i, p (slots i) = false) : tally p slots = 0 := by
  rw [tally, List.countP_eq_zero]
  intro i _
  rw [h i]
  exact Bool.false_ne_true

end Tally

end EdgeGateway.Slots
