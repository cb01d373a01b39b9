import Mathlib.Data.List.GetD

/-! # Scattering a list over places -/

namespace EdgeGateway.Scatter

variable {α : Type} {places : List Nat} {data into : List α}

def scatter : List Nat → List α → List α → List α
  | place :: places, a :: data, into => scatter places data (into.set place a)
  | _, _, into => into

@[simp] theorem length_scatter (places : List Nat) (data into : List α) :
    (scatter places data into).length = into.length := by
  induction places generalizing data into with
  | nil => rfl
  | cons place places ih =>
    cases data with
    | nil => rfl
    | cons a data => rw [scatter, ih, List.length_set]

theorem scatter_unchanged {k : Nat} (hOther : k ∉ places) : (scatter places data into)[k]? = into[k]? := by
  induction places generalizing data into with
  | nil => rfl
  | cons place places ih =>
    cases data with
    | nil => rfl
    | cons a data =>
      rw [List.mem_cons, not_or] at hOther
      rw [scatter, ih hOther.2, List.getElem?_set_ne (Ne.symm hOther.1)]

theorem scatter_written {k : Nat} (hLength : places.length = data.length) (hInside : k < into.length)
    (hNamed : k ∈ places) : ∃ i : Nat, places[i]? = some k ∧ (scatter places data into)[k]? = data[i]? := by
  induction places generalizing data into with
  | nil => cases hNamed
  | cons place places ih =>
    cases data with
    | nil => cases hLength
    | cons a data =>
      rw [scatter]
      by_cases hLater : k ∈ places
      · obtain ⟨i, hPlace, hValue⟩ := @ih data (into.set place a) (Nat.succ.inj hLength)
          (by rwa [List.length_set]) hLater
        exact ⟨i + 1, hPlace, hValue⟩
      · obtain rfl : k = place := (List.mem_cons.mp hNamed).resolve_right hLater
        refine ⟨0, rfl, ?_⟩
        rw [scatter_unchanged hLater, List.getElem?_set_self hInside]
        rfl

def Consistent (places : List Nat) (data : List α) : Prop :=
  ∀ i j k : Nat, places[i]? = some k → places[j]? = some k → data[i]? = data[j]?

theorem gather_scatter_iff (hLength : places.length = data.length) (hInside : ∀ k ∈ places, k < into.length) :
    (∀ i k : Nat, places[i]? = some k → (scatter places data into)[k]? = data[i]?) ↔ Consistent places data := by
  constructor
  · intro hGather i j k hi hj
    rw [← hGather i k hi, hGather j k hj]
  · intro hConsistent i k hi
    have hNamed := List.mem_of_getElem? hi
    obtain ⟨j, hj, hValue⟩ := scatter_written hLength (hInside k hNamed) hNamed
    rw [hValue]
    exact hConsistent j i k hj hi

end EdgeGateway.Scatter
