import Mathlib.Data.List.Basic

/-! # Head/tail rings over a fixed slot array

A ring keeps one slot free: `head = tail` means empty, so `cap` slots store at most `cap - 1`
elements. Pushing onto a full ring makes it read as empty; both facts are stated, because a caller's
limit decides which applies.
-/

namespace EdgeGateway

universe u v

structure Ring (α : Type u) (cap : Nat) where
  slots : Fin cap → α
  head : Fin cap
  tail : Fin cap

namespace Ring

variable {α : Type u} {β : Type v} {cap : Nat}

def next (i : Fin cap) : Fin cap := ⟨(i.val + 1) % cap, Nat.mod_lt _ i.pos⟩

def distance (i j : Fin cap) : Nat := (j.val + cap - i.val) % cap

def count (r : Ring α cap) : Nat := distance r.head r.tail

/-- Slots met from `i` on until `stop`; the fuel bounds the number of visits. -/
def walk (slots : Fin cap → α) (stop : Fin cap) : Nat → Fin cap → List α
  | 0, _ => []
  | n + 1, i => if i = stop then [] else slots i :: walk slots stop n (next i)

def contents (r : Ring α cap) : List α := walk r.slots r.tail cap r.head

def push (r : Ring α cap) (x : α) : Ring α cap :=
  { r with slots := Function.update r.slots r.tail x, tail := next r.tail }

def cleared (blank : α) (first : Fin cap) : Ring α cap :=
  { slots := fun _ => blank, head := first, tail := first }

theorem next_val (i : Fin cap) : (next i).val = if i.val + 1 = cap then 0 else i.val + 1 := by
  have hi := i.isLt
  unfold next
  split
  · next h => simp [h]
  · next h => exact Nat.mod_eq_of_lt (by omega)

theorem distance_eq (i j : Fin cap) :
    distance i j = if i.val ≤ j.val then j.val - i.val else j.val + cap - i.val := by
  have hi := i.isLt
  have hj := j.isLt
  unfold distance
  split
  · next h =>
    have hsum : j.val + cap - i.val = (j.val - i.val) + cap := by omega
    rw [hsum, Nat.add_mod_right]
    exact Nat.mod_eq_of_lt (by omega)
  · next h => exact Nat.mod_eq_of_lt (by omega)

theorem distance_lt (i j : Fin cap) : distance i j < cap := Nat.mod_lt _ i.pos

theorem distance_self (i : Fin cap) : distance i i = 0 := by
  rw [distance_eq]
  simp

theorem distance_next_left {i j : Fin cap} (h : i ≠ j) : distance (next i) j + 1 = distance i j := by
  have hi := i.isLt
  have hj := j.isLt
  have hne : i.val ≠ j.val := fun he => h (Fin.ext he)
  simp only [distance_eq, next_val]
  split_ifs <;> omega

theorem distance_next_right {i j : Fin cap} (h : distance i j + 1 < cap) :
    distance i (next j) = distance i j + 1 := by
  have hi := i.isLt
  have hj := j.isLt
  rw [distance_eq] at h
  simp only [distance_eq, next_val]
  split_ifs at h ⊢ <;> omega

theorem next_eq_of_full {i j : Fin cap} (h : distance i j + 1 = cap) : next j = i := by
  have hi := i.isLt
  have hj := j.isLt
  rw [distance_eq] at h
  apply Fin.ext
  rw [next_val]
  split_ifs at h ⊢ <;> omega

theorem walk_stop (slots : Fin cap → α) (stop : Fin cap) (n : Nat) : walk slots stop n stop = [] := by
  cases n <;> simp [walk]

theorem length_walk (slots : Fin cap → α) (stop : Fin cap) (n : Nat) (i : Fin cap)
    (h : distance i stop ≤ n) : (walk slots stop n i).length = distance i stop := by
  induction n generalizing i with
  | zero => simp [walk, Nat.le_zero.mp h]
  | succ n ih =>
    unfold walk
    split
    · next hStop => simp [hStop, distance_self]
    · next hStop =>
      have hNext := distance_next_left hStop
      rw [List.length_cons, ih (next i) (by omega)]
      omega

/-- One more element at `stop` is met last, as long as the walk does not start
on the slot that becomes the new end. -/
theorem walk_push (slots : Fin cap → α) (stop : Fin cap) (x : α) (n : Nat) (i : Fin cap)
    (hFuel : distance i stop < n) (hRoom : distance i stop + 1 < cap) :
    walk (Function.update slots stop x) (next stop) n i = walk slots stop n i ++ [x] := by
  induction n generalizing i with
  | zero => omega
  | succ n ih =>
    have hEnd : i ≠ next stop := by
      intro h
      have hRight := distance_next_right hRoom
      rw [← h, distance_self] at hRight
      omega
    by_cases hStop : i = stop
    · subst hStop
      simp only [walk, if_neg hEnd, if_true, Function.update_self, List.nil_append]
      rw [walk_stop]
    · have hNext := distance_next_left hStop
      simp only [walk, if_neg hEnd, if_neg hStop, Function.update_of_ne hStop, List.cons_append]
      rw [ih (next i) (by omega) (by omega)]

theorem length_contents (r : Ring α cap) : r.contents.length = r.count :=
  length_walk _ _ _ _ (Nat.le_of_lt (distance_lt _ _))

theorem count_lt (r : Ring α cap) : r.count < cap := distance_lt _ _

theorem contents_push (r : Ring α cap) (x : α) (h : r.count + 1 < cap) :
    (r.push x).contents = r.contents ++ [x] :=
  walk_push r.slots r.tail x cap r.head (distance_lt _ _) h

theorem contents_push_full (r : Ring α cap) (x : α) (h : r.count + 1 = cap) :
    (r.push x).contents = [] := by
  have hHead : (r.push x).tail = (r.push x).head := next_eq_of_full h
  unfold contents
  rw [hHead]
  exact walk_stop _ _ _

@[simp] theorem contents_cleared (blank : α) (first : Fin cap) : (cleared blank first).contents = [] :=
  walk_stop _ _ _

theorem contents_foldl_push (xs : List α) (r : Ring α cap) (h : r.count + xs.length < cap) :
    (xs.foldl push r).contents = r.contents ++ xs := by
  induction xs generalizing r with
  | nil => simp
  | cons x xs ih =>
    simp only [List.length_cons] at h
    have hPush := contents_push r x (by omega)
    have hCount : (r.push x).count = r.count + 1 := by
      rw [← length_contents, ← length_contents, hPush]
      simp
    rw [List.foldl_cons, ih (r.push x) (by omega), hPush]
    simp

theorem count_push (r : Ring α cap) (x : α) (h : r.count + 1 < cap) : (r.push x).count = r.count + 1 := by
  rw [← length_contents, ← length_contents, contents_push r x h, List.length_append]
  rfl

theorem walk_fuel (slots : Fin cap → α) (stop : Fin cap) {n m : Nat} {i : Fin cap} (hn : distance i stop ≤ n)
    (hm : distance i stop ≤ m) : walk slots stop n i = walk slots stop m i := by
  induction n generalizing m i with
  | zero =>
    have hLength := length_walk slots stop m i hm
    rw [walk, List.eq_nil_of_length_eq_zero (hLength.trans (Nat.le_zero.mp hn))]
  | succ n ih =>
    obtain rfl | hStop := eq_or_ne i stop
    · rw [walk_stop, walk_stop]
    · have hNext := distance_next_left hStop
      cases m with
      | zero => omega
      | succ m =>
        rw [walk, walk, if_neg hStop, if_neg hStop]
        have hRest : walk slots stop n (next i) = walk slots stop m (next i) := ih (by omega) (by omega)
        rw [hRest]

theorem walk_update (slots : Fin cap → α) (stop i : Fin cap) (x : α) (n : Nat) (j : Fin cap)
    (h : distance j stop < distance i stop) :
    walk (Function.update slots i x) stop n j = walk slots stop n j := by
  induction n generalizing j with
  | zero => rfl
  | succ n ih =>
    obtain rfl | hStop := eq_or_ne j stop
    · rw [walk_stop, walk_stop]
    · have hNext := distance_next_left hStop
      have hne : j ≠ i := by
        rintro rfl
        exact Nat.lt_irrefl _ h
      rw [walk, walk, if_neg hStop, if_neg hStop, Function.update_of_ne hne, ih (next j) (by omega)]

/-- The ring without the slot at its head. -/
def pop (r : Ring α cap) (blank : α) : Ring α cap :=
  { r with slots := Function.update r.slots r.head blank, head := next r.head }

theorem contents_eq_nil (r : Ring α cap) : r.contents = [] ↔ r.head = r.tail := by
  constructor
  · intro h
    by_contra hne
    have hNext := distance_next_left hne
    have hLength := length_contents r
    rw [h, List.length_nil, count] at hLength
    omega
  · intro h
    rw [contents, h]
    exact walk_stop _ _ _

theorem contents_eq_cons (r : Ring α cap) (h : r.head ≠ r.tail) :
    r.contents = r.slots r.head :: walk r.slots r.tail cap (next r.head) := by
  have hNext := distance_next_left h
  have hLess := distance_lt r.head r.tail
  rw [contents, walk_fuel r.slots r.tail (Nat.le_of_lt hLess) (show distance r.head r.tail ≤ cap + 1 by omega), walk, if_neg h]

theorem contents_pop (r : Ring α cap) (blank : α) (h : r.head ≠ r.tail) :
    r.contents = r.slots r.head :: (r.pop blank).contents := by
  have hNext := distance_next_left h
  rw [contents_eq_cons r h]
  congr 1
  exact (walk_update r.slots r.tail r.head blank cap (next r.head) (by omega)).symm

theorem count_pop (r : Ring α cap) (blank : α) (h : r.head ≠ r.tail) : (r.pop blank).count + 1 = r.count := by
  rw [← length_contents, ← length_contents, contents_pop r blank h]
  rfl

/-- A push that moves the head on when it would meet the tail. -/
def pushOver (r : Ring α cap) (x : α) : Ring α cap :=
  if (r.push x).tail = (r.push x).head then { r.push x with head := next (r.push x).head } else r.push x

theorem contents_pushOver (r : Ring α cap) (x : α) (hCap : 1 < cap) :
    (r.pushOver x).contents = (r.contents ++ [x]).drop (r.contents.length + 2 - cap) := by
  have hCount := count_lt r
  rw [pushOver, length_contents]
  obtain hRoom | hFull := Nat.lt_or_eq_of_le (Nat.succ_le_of_lt hCount)
  · have hPush := contents_push r x hRoom
    rw [if_neg, hPush, Nat.sub_eq_zero_of_le (by omega)]
    · rfl
    · intro hMet
      rw [(contents_eq_nil _).mpr hMet.symm] at hPush
      exact List.cons_ne_nil _ _ (List.append_eq_nil_iff.mp hPush.symm).2
  · have hMet : (r.push x).tail = (r.push x).head := next_eq_of_full hFull
    have hne : r.head ≠ r.tail := by
      intro hEq
      rw [count, hEq, distance_self] at hFull
      omega
    have hNext := distance_next_left hne
    have hDistance : distance r.head r.tail = r.count := rfl
    rw [if_pos hMet, show r.count + 2 - cap = 1 by omega, contents_eq_cons r hne]
    exact walk_push r.slots r.tail x cap (next r.head) (by omega) (by omega)

theorem contents_pushOver_last {r : Ring α cap} {f : α → β} {xs : List β} (x : α) (hCap : 1 < cap)
    (h : r.contents.map f = xs.drop (xs.length - (cap - 1))) :
    (r.pushOver x).contents.map f = (xs ++ [f x]).drop ((xs ++ [f x]).length - (cap - 1)) := by
  have hLength : r.contents.length = xs.length - (xs.length - (cap - 1)) := by
    rw [← List.length_map, h, List.length_drop]
  rw [contents_pushOver r x hCap, List.map_drop, List.map_append, h, hLength, List.map_singleton,
    ← List.drop_append_of_le_length (Nat.sub_le _ _), List.drop_drop, List.length_append, List.length_singleton]
  congr 1
  omega

end Ring

end EdgeGateway
