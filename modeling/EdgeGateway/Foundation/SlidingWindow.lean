import Mathlib.Algebra.Order.Group.Basic
import Mathlib.Data.List.Basic

/-! # Sliding windows over a sequence of times

A window drops from its front what is older than its width.
-/

namespace EdgeGateway.SlidingWindow

universe u

variable {τ : Type u} [AddCommGroup τ] [LinearOrder τ] {width now later start time : τ} {times : List τ}
  {bound : Nat}

def slide (width now : τ) (times : List τ) : List τ := times.dropWhile fun time => decide (width < now - time)

def recent (width now : τ) (times : List τ) : List τ := times.filter fun time => decide (now - time ≤ width)

def inside (width start : τ) (times : List τ) : List τ :=
  times.filter fun time => decide (start ≤ time ∧ time ≤ start + width)

def Paced (width : τ) (bound : Nat) (times : List τ) : Prop := ∀ start, (inside width start times).length ≤ bound

@[simp] theorem slide_nil : slide width now [] = [] := rfl

theorem slide_cons : slide width now (time :: times) = if width < now - time then slide width now times
    else time :: times := by
  rw [slide, List.dropWhile_cons]
  simp only [decide_eq_true_eq]
  rfl

theorem paced_nil : Paced width bound [] := fun _ => Nat.zero_le bound

theorem slide_snoc_now (hWidth : 0 ≤ width) : slide width now (times ++ [now]) = slide width now times ++ [now] := by
  induction times with
  | nil => rw [List.nil_append, slide_cons, sub_self, if_neg (not_lt.mpr hWidth), slide_nil, List.nil_append]
  | cons time times ih =>
    rw [List.cons_append, slide_cons, slide_cons]
    split
    · exact ih
    · rfl

variable [IsOrderedAddMonoid τ]

theorem slide_slide (hLater : now ≤ later) : slide width later (slide width now times) = slide width later times := by
  induction times with
  | nil => rfl
  | cons time times ih =>
    rw [slide_cons]
    split
    case isTrue hOld =>
      have hOlder : width < later - time := hOld.trans_le (sub_le_sub_right hLater time)
      rw [ih, slide_cons, if_pos hOlder]
    case isFalse => rfl

theorem slide_append_slide (hLater : now ≤ later) (rest : List τ) :
    slide width later (slide width now times ++ rest) = slide width later (times ++ rest) := by
  induction times with
  | nil => rfl
  | cons time times ih =>
    rw [slide_cons]
    split
    case isTrue hOld =>
      have hOlder : width < later - time := hOld.trans_le (sub_le_sub_right hLater time)
      rw [ih, List.cons_append, slide_cons, if_pos hOlder]
    case isFalse => rfl

theorem slide_eq_recent (hOrder : times.Pairwise (· ≤ ·)) : slide width now times = recent width now times := by
  induction times with
  | nil => rfl
  | cons time times ih =>
    obtain ⟨hFirst, hRest⟩ := List.pairwise_cons.mp hOrder
    rw [slide_cons]
    split
    case isTrue hOld =>
      rw [ih hRest, recent, recent, List.filter_cons_of_neg]
      exact fun hKept => absurd (of_decide_eq_true hKept) (not_le.mpr hOld)
    case isFalse hYoung =>
      apply Eq.symm
      apply List.filter_eq_self.mpr
      intro other hOther
      have hAge : now - other ≤ now - time := by
        obtain rfl | hOther := List.mem_cons.mp hOther
        · exact le_rfl
        · exact sub_le_sub_left (hFirst other hOther) now
      exact decide_eq_true (hAge.trans (not_lt.mp hYoung))

theorem paced_snoc (h : Paced width bound times) (hRoom : (recent width now times).length < bound) :
    Paced width bound (times ++ [now]) := by
  intro start
  rw [inside, List.filter_append]
  by_cases hInside : start ≤ now ∧ now ≤ start + width
  · rw [List.filter_singleton, decide_eq_true hInside, cond_true, List.length_append]
    have hKept : (inside width start times).length ≤ (recent width now times).length := by
      apply List.Sublist.length_le
      apply List.monotone_filter_right
      intro time hTime
      obtain ⟨hStart, -⟩ := of_decide_eq_true hTime
      apply decide_eq_true
      exact sub_le_iff_le_add'.mpr (hInside.2.trans (add_le_add_left hStart width))
    exact Nat.lt_of_le_of_lt hKept hRoom
  · rw [List.filter_singleton, decide_eq_false hInside, cond_false, List.append_nil]
    exact h start

end EdgeGateway.SlidingWindow
