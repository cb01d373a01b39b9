import Mathlib.Data.List.Dedup
import Mathlib.Data.List.Induction

/-! # Picking from a list

`pick` takes the first matching elements up to a budget and keeps the others in their order;
`lastMatch` is a scan that remembers the last match.
-/

namespace EdgeGateway.Picking

universe u v

variable {α : Type u} {β : Type v}

def pick (p : α → Bool) : Nat → List α → List α × List α
  | 0, xs => ([], xs)
  | _, [] => ([], [])
  | n + 1, x :: xs =>
    if p x then (x :: (pick p n xs).1, (pick p n xs).2) else ((pick p (n + 1) xs).1, x :: (pick p (n + 1) xs).2)

theorem pick_zero (p : α → Bool) (xs : List α) : pick p 0 xs = ([], xs) := by
  cases xs <;> rfl

theorem pick_nil (p : α → Bool) (n : Nat) : pick p n [] = ([], []) := by
  cases n <;> rfl

theorem pick_pos {p : α → Bool} {x : α} (hx : p x = true) (n : Nat) (xs : List α) :
    pick p (n + 1) (x :: xs) = (x :: (pick p n xs).1, (pick p n xs).2) := by
  rw [pick, if_pos hx]

theorem pick_neg {p : α → Bool} {x : α} (hx : ¬p x = true) (n : Nat) (xs : List α) :
    pick p n (x :: xs) = ((pick p n xs).1, x :: (pick p n xs).2) := by
  cases n with
  | zero => rw [pick_zero, pick_zero]
  | succ n => rw [pick, if_neg hx]

theorem pick_taken (p : α → Bool) (n : Nat) (xs : List α) : (pick p n xs).1 = (xs.filter p).take n := by
  induction xs generalizing n with
  | nil => rw [pick_nil, List.filter_nil, List.take_nil]
  | cons x xs ih =>
    obtain hx | hx := Decidable.em (p x = true)
    · rw [List.filter_cons_of_pos hx]
      cases n with
      | zero => rw [pick_zero, List.take_zero]
      | succ n => rw [pick_pos hx, List.take_succ_cons, ← ih]
    · rw [pick_neg hx, List.filter_cons_of_neg hx]
      exact ih n

theorem pick_kept_sublist (p : α → Bool) (n : Nat) (xs : List α) : (pick p n xs).2.Sublist xs := by
  induction xs generalizing n with
  | nil => rw [pick_nil]
  | cons x xs ih =>
    obtain hx | hx := Decidable.em (p x = true)
    · cases n with
      | zero =>
        rw [pick_zero]
      | succ n =>
        rw [pick_pos hx]
        exact (ih n).cons x
    · rw [pick_neg hx]
      exact (ih n).cons_cons x

theorem pick_none {p : α → Bool} {xs : List α} (h : ∀ x ∈ xs, ¬p x = true) (n : Nat) : pick p n xs = ([], xs) := by
  induction xs with
  | nil => rw [pick_nil]
  | cons x xs ih =>
    obtain ⟨hx, hRest⟩ := List.forall_mem_cons.mp h
    rw [pick_neg hx, ih hRest]

theorem pick_map (f : α → β) (p : β → Bool) (n : Nat) (xs : List α) :
    pick p n (xs.map f) = ((pick (fun x => p (f x)) n xs).1.map f, (pick (fun x => p (f x)) n xs).2.map f) := by
  induction xs generalizing n with
  | nil => rw [List.map_nil, pick_nil, pick_nil, List.map_nil]
  | cons x xs ih =>
    rw [List.map_cons]
    obtain hx | hx := Decidable.em (p (f x) = true)
    · cases n with
      | zero =>
        rw [pick_zero, pick_zero]
        rfl
      | succ n =>
        rw [pick_pos hx, pick_pos (p := fun x => p (f x)) hx, ih]
        rfl
    · rw [pick_neg hx, pick_neg (p := fun x => p (f x)) hx, ih]
      rfl

theorem pick_congr {p q : α → Bool} {xs : List α} (h : ∀ x ∈ xs, p x = q x) (n : Nat) : pick p n xs = pick q n xs := by
  induction xs generalizing n with
  | nil => rw [pick_nil, pick_nil]
  | cons x xs ih =>
    obtain ⟨hx, hRest⟩ := List.forall_mem_cons.mp h
    obtain hp | hp := Decidable.em (p x = true)
    · cases n with
      | zero => rw [pick_zero, pick_zero]
      | succ n => rw [pick_pos hp, pick_pos (hx ▸ hp), ih hRest]
    · rw [pick_neg hp, pick_neg (hx ▸ hp), ih hRest]

def lastMatch (p : α → Bool) (xs : List α) : Option α := xs.foldl (fun found x => if p x then some x else found) none

theorem lastMatch_concat (p : α → Bool) (xs : List α) (x : α) :
    lastMatch p (xs ++ [x]) = if p x then some x else lastMatch p xs := by
  rw [lastMatch, List.foldl_append]
  rfl

theorem lastMatch_append_of_none {p : α → Bool} (xs : List α) {ys : List α} (h : ∀ y ∈ ys, ¬p y = true) :
    lastMatch p (xs ++ ys) = lastMatch p xs := by
  induction ys using List.reverseRecOn with
  | nil => rw [List.append_nil]
  | append_singleton ys y ih =>
    obtain ⟨hBefore, hLast⟩ := List.forall_mem_append.mp h
    rw [← List.append_assoc, lastMatch_concat, if_neg (hLast y List.mem_cons_self), ih hBefore]

theorem lastMatch_mem {p : α → Bool} {xs : List α} {x : α} (h : lastMatch p xs = some x) : x ∈ xs ∧ p x = true := by
  induction xs using List.reverseRecOn with
  | nil => cases h
  | append_singleton xs y ih =>
    rw [lastMatch_concat] at h
    split at h
    · rename_i hy
      obtain rfl := Option.some.inj h
      exact ⟨List.mem_append_right xs List.mem_cons_self, hy⟩
    · obtain ⟨hMem, hx⟩ := ih h
      exact ⟨List.mem_append_left _ hMem, hx⟩

theorem lastMatch_congr {p q : α → Bool} {xs : List α} (h : ∀ x ∈ xs, p x = q x) : lastMatch p xs = lastMatch q xs := by
  induction xs using List.reverseRecOn with
  | nil => rfl
  | append_singleton xs x ih =>
    obtain ⟨hBefore, hLast⟩ := List.forall_mem_append.mp h
    rw [lastMatch_concat, lastMatch_concat, hLast x List.mem_cons_self, ih hBefore]

theorem lastMatch_map (f : α → β) (p : β → Bool) (xs : List α) :
    lastMatch p (xs.map f) = (lastMatch (fun x => p (f x)) xs).map f := by
  induction xs using List.reverseRecOn with
  | nil => rfl
  | append_singleton xs x ih =>
    rw [List.map_append, List.map_singleton, lastMatch_concat, lastMatch_concat, ih]
    split <;> rfl

theorem lastMatch_recent {p : α → Bool} {older newer : List α} {x : α} (hx : p x = true)
    (hNewer : ∀ y ∈ newer, ¬p y = true) {k : Nat} (hRecent : newer.length < k) :
    lastMatch p ((older ++ x :: newer).drop ((older ++ x :: newer).length - k)) = some x := by
  have hStart : (older ++ x :: newer).length - k ≤ older.length := by
    rw [List.length_append, List.length_cons]
    omega
  rw [List.drop_append_of_le_length hStart, ← List.singleton_append, ← List.append_assoc,
    lastMatch_append_of_none _ hNewer, lastMatch_concat, if_pos hx]

section Groups

variable [DecidableEq β] {key : α → Option β} {xs : List α}

theorem flatMap_groups_listed (key : α → Option β) (xs : List α) {names : List β} (hNames : names.Nodup) :
    (names.flatMap fun name => xs.filter fun x => key x = some name).Perm
      (xs.filter fun x => ∃ name ∈ names, key x = some name) := by
  induction names with
  | nil =>
    rw [List.flatMap_nil, List.filter_eq_nil_iff.mpr]
    intro x _ hKey
    obtain ⟨name, hName, -⟩ := of_decide_eq_true hKey
    cases hName
  | cons name names ih =>
    obtain ⟨hFresh, hNames⟩ := List.nodup_cons.mp hNames
    have hSplit := List.filter_append_perm (fun x => decide (key x = some name))
      (xs.filter fun x => ∃ other ∈ name :: names, key x = some other)
    have hFirst : (xs.filter fun x => ∃ other ∈ name :: names, key x = some other).filter
        (fun x => decide (key x = some name)) = xs.filter fun x => key x = some name := by
      rw [List.filter_filter]
      apply List.filter_congr
      intro x _
      rw [← Bool.decide_and, decide_eq_decide]
      exact ⟨fun h => h.1, fun h => ⟨h, name, List.mem_cons_self, h⟩⟩
    have hRest : (xs.filter fun x => ∃ other ∈ name :: names, key x = some other).filter
        (fun x => !decide (key x = some name)) = xs.filter fun x => ∃ other ∈ names, key x = some other := by
      rw [List.filter_filter]
      apply List.filter_congr
      intro x _
      rw [← decide_not, ← Bool.decide_and, decide_eq_decide]
      constructor
      · rintro ⟨hOther, other, hMem, hKey⟩
        obtain rfl | hMem := List.mem_cons.mp hMem
        · exact absurd hKey hOther
        · exact ⟨other, hMem, hKey⟩
      · rintro ⟨other, hMem, hKey⟩
        refine ⟨fun hSame => ?_, other, List.mem_cons_of_mem name hMem, hKey⟩
        rw [hKey, Option.some_inj] at hSame
        exact hFresh (hSame ▸ hMem)
    rw [hFirst, hRest] at hSplit
    rw [List.flatMap_cons]
    exact ((ih hNames).append_left _).trans hSplit

theorem flatMap_groups {names : List β} (hNames : names.Perm (xs.filterMap key).dedup) :
    (names.flatMap fun name => xs.filter fun x => key x = some name).Perm (xs.filter fun x => (key x).isSome) := by
  refine (flatMap_groups_listed key xs (hNames.nodup_iff.mpr (List.nodup_dedup _))).trans (List.Perm.of_eq ?_)
  apply List.filter_congr
  intro x hx
  cases hKey : key x with
  | none =>
    rw [Option.isSome_none, decide_eq_false_iff_not]
    rintro ⟨name, -, hName⟩
    cases hName
  | some name =>
    rw [Option.isSome_some, decide_eq_true_eq]
    exact ⟨name, hNames.mem_iff.mpr (List.mem_dedup.mpr (List.mem_filterMap.mpr ⟨x, hx, hKey⟩)), rfl⟩

end Groups

theorem lastMatch_stale {p : α → Bool} {older newer : List α} {x : α} (hNewer : ∀ y ∈ newer, ¬p y = true) {k : Nat}
    (hStale : k ≤ newer.length) : lastMatch p ((older ++ x :: newer).drop ((older ++ x :: newer).length - k)) = none := by
  have hStart : (older ++ x :: newer).length - k = (older ++ [x]).length + (newer.length - k) := by
    rw [List.length_append, List.length_append, List.length_cons, List.length_singleton]
    omega
  have hWindow : (older ++ x :: newer).drop ((older ++ x :: newer).length - k) = newer.drop (newer.length - k) := by
    have hJoin : older ++ x :: newer = (older ++ [x]) ++ newer := by rw [List.append_assoc, List.singleton_append]
    rw [hStart, ← List.drop_drop, hJoin, List.drop_left]
  rw [hWindow, Option.eq_none_iff_forall_ne_some]
  intro y hFound
  obtain ⟨hMem, hy⟩ := lastMatch_mem hFound
  exact hNewer y (List.mem_of_mem_drop hMem) hy

theorem exists_last {p : α → Bool} {xs : List α} (h : ∃ x ∈ xs, p x = true) :
    ∃ older x newer, xs = older ++ x :: newer ∧ p x = true ∧ ∀ y ∈ newer, ¬p y = true := by
  induction xs using List.reverseRecOn with
  | nil =>
    obtain ⟨x, hx, -⟩ := h
    cases hx
  | append_singleton xs y ih =>
    obtain hy | hy := Decidable.em (p y = true)
    · exact ⟨xs, y, [], rfl, hy, List.forall_mem_nil _⟩
    · obtain ⟨x, hx, hMatch⟩ := h
      obtain hBefore | hLast := List.mem_append.mp hx
      · obtain ⟨older, last, newer, rfl, hLast, hNewer⟩ := ih ⟨x, hBefore, hMatch⟩
        refine ⟨older, last, newer ++ [y], by rw [List.append_assoc, List.cons_append], hLast, ?_⟩
        exact List.forall_mem_append.mpr ⟨hNewer, List.forall_mem_singleton.mpr hy⟩
      · rw [List.mem_singleton.mp hLast] at hMatch
        exact absurd hMatch hy

end EdgeGateway.Picking
