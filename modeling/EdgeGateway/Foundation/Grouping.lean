import Mathlib.Data.List.Nodup

/-! # Grouping

A list is passed once; each element joins the group that is open or opens the
next one.
-/

namespace EdgeGateway

structure Grouping (α γ : Type) where
  joins : γ → α → Bool
  join : γ → α → γ
  single : α → γ

namespace Grouping

variable {α β γ : Type} (grouping : Grouping α γ)

def groupsFrom (group : γ) : List α → List γ
  | [] => [group]
  | a :: rest =>
    if grouping.joins group a then groupsFrom (grouping.join group a) rest
    else group :: groupsFrom (grouping.single a) rest

def groups : List α → List γ
  | [] => []
  | a :: rest => grouping.groupsFrom (grouping.single a) rest

variable {grouping} {members : γ → List β} {member : α → β}

section Members

variable (hSingle : ∀ a, members (grouping.single a) = [member a])
  (hJoin : ∀ group a, members (grouping.join group a) = members group ++ [member a])
include hSingle hJoin

theorem members_groupsFrom (group : γ) (l : List α) :
    (grouping.groupsFrom group l).flatMap members = members group ++ l.map member := by
  induction l generalizing group with
  | nil => rw [groupsFrom, List.flatMap_singleton, List.map_nil, List.append_nil]
  | cons a rest ih =>
    rw [groupsFrom, List.map_cons]
    split
    · rw [ih, hJoin, List.append_assoc, List.singleton_append]
    · rw [List.flatMap_cons, ih, hSingle, List.singleton_append]

theorem members_groups (l : List α) : (grouping.groups l).flatMap members = l.map member := by
  cases l with
  | nil => rfl
  | cons a rest => rw [groups, members_groupsFrom hSingle hJoin, hSingle, List.map_cons, List.singleton_append]

end Members

section Keeps

variable {P : γ → Prop} {Before : γ → α → Prop} {R : α → α → Prop}
  (hJoin : ∀ group a, P group → Before group a → grouping.joins group a = true → P (grouping.join group a))
  (hStart : ∀ a b, R a b → Before (grouping.single a) b)
  (hBefore : ∀ group a b, Before group b → Before (grouping.join group a) b)
include hJoin hStart hBefore

theorem groupsFrom_keep (group : γ) (l : List α) (hGroup : P group) (hNext : ∀ a ∈ l, Before group a)
    (hSingle : ∀ a ∈ l, P (grouping.single a)) (hOrdered : l.Pairwise R) : ∀ g ∈ grouping.groupsFrom group l, P g := by
  induction l generalizing group with
  | nil =>
    intro g hg
    rw [groupsFrom, List.mem_singleton] at hg
    rwa [hg]
  | cons a rest ih =>
    obtain ⟨hFirst, hRest⟩ := List.pairwise_cons.mp hOrdered
    have hLater : ∀ b ∈ rest, P (grouping.single b) := fun b hb => hSingle b (List.mem_cons_of_mem _ hb)
    intro g hg
    rw [groupsFrom] at hg
    split at hg
    · next hJoins =>
      refine ih _ (hJoin group a hGroup (hNext a List.mem_cons_self) hJoins) (fun b hb => ?_) hLater hRest g hg
      exact hBefore group a b (hNext b (List.mem_cons_of_mem _ hb))
    · obtain rfl | hg := List.mem_cons.mp hg
      · exact hGroup
      · exact ih _ (hSingle a List.mem_cons_self) (fun b hb => hStart a b (hFirst b hb)) hLater hRest g hg

theorem groups_keep (l : List α) (hSingle : ∀ a ∈ l, P (grouping.single a)) (hOrdered : l.Pairwise R) :
    ∀ g ∈ grouping.groups l, P g := by
  cases l with
  | nil => exact nofun
  | cons a rest =>
    obtain ⟨hFirst, hRest⟩ := List.pairwise_cons.mp hOrdered
    exact groupsFrom_keep hJoin hStart hBefore _ rest (hSingle a List.mem_cons_self)
      (fun b hb => hStart a b (hFirst b hb)) (fun b hb => hSingle b (List.mem_cons_of_mem _ hb)) hRest

end Keeps

end Grouping

/-! ## Groups by key

An element goes to the back of the group with its key, or opens one behind the
others, so the groups stand in the order of their first elements and each keeps
the order of its own.
-/

namespace KeyedGroups

universe u v

variable {α : Type u} {κ : Type v} [DecidableEq κ] (key : α → κ)

def put (a : α) : List (κ × List α) → List (κ × List α)
  | [] => [(key a, [a])]
  | group :: groups =>
    if group.1 = key a then (group.1, group.2 ++ [a]) :: groups else group :: put a groups

def groups (l : List α) : List (κ × List α) := l.foldl (fun done a => put key a done) []

def elements (done : List (κ × List α)) : List α := done.flatMap Prod.snd

structure Keyed (done : List (κ × List α)) : Prop where
  nodup : (done.map Prod.fst).Nodup
  inGroup : ∀ group ∈ done, group.2 ≠ [] ∧ ∀ a ∈ group.2, key a = group.1

variable {key} {done : List (κ × List α)} {a : α}

theorem keys_put (a : α) (done : List (κ × List α)) :
    (put key a done).map Prod.fst = done.map Prod.fst ∧ key a ∈ done.map Prod.fst ∨
      (put key a done).map Prod.fst = done.map Prod.fst ++ [key a] ∧ key a ∉ done.map Prod.fst := by
  induction done with
  | nil => exact .inr ⟨rfl, List.not_mem_nil⟩
  | cons group done ih =>
    rw [put, List.map_cons, List.mem_cons]
    split
    · rename_i hKey
      exact .inl ⟨rfl, .inl hKey.symm⟩
    · rename_i hOther
      obtain ⟨hKeys, hIn⟩ | ⟨hKeys, hNew⟩ := ih
      · left
        rw [List.map_cons, hKeys]
        exact ⟨rfl, .inr hIn⟩
      · right
        rw [List.map_cons, hKeys, List.cons_append]
        refine ⟨rfl, ?_⟩
        rintro (hKey | hIn)
        · exact hOther hKey.symm
        · exact hNew hIn

theorem Keyed.put (h : Keyed key done) (a : α) : Keyed key (put key a done) := by
  constructor
  · obtain ⟨hKeys, -⟩ | ⟨hKeys, hNew⟩ := @keys_put α κ _ key a done
    · rw [hKeys]
      exact h.nodup
    · rw [hKeys, List.nodup_append]
      refine ⟨h.nodup, List.nodup_singleton _, ?_⟩
      rintro k hIn other hOther rfl
      exact hNew (List.mem_singleton.mp hOther ▸ hIn)
  · have hGroups := h.inGroup
    clear h
    induction done with
    | nil =>
      intro group hGroup
      rw [List.mem_singleton.mp hGroup]
      exact ⟨List.cons_ne_nil _ _, fun b hb => congrArg key (List.mem_singleton.mp hb)⟩
    | cons first done ih =>
      obtain ⟨hFirst, hRest⟩ := List.forall_mem_cons.mp hGroups
      rw [KeyedGroups.put]
      split
      · rename_i hKey
        refine List.forall_mem_cons.mpr ⟨⟨List.append_ne_nil_of_right_ne_nil _ (List.cons_ne_nil _ _), ?_⟩, hRest⟩
        intro b hb
        obtain hb | hb := List.mem_append.mp hb
        · exact hFirst.2 b hb
        · rw [List.mem_singleton.mp hb]
          exact hKey.symm
      · exact List.forall_mem_cons.mpr ⟨hFirst, ih hRest⟩

theorem keyed_groups (l : List α) : Keyed key (groups key l) := by
  have hFold : ∀ done, Keyed key done → Keyed key (l.foldl (fun done a => put key a done) done) := by
    induction l with
    | nil => exact fun _ h => h
    | cons a l ih => exact fun _ h => ih _ (h.put a)
  exact hFold [] ⟨List.nodup_nil, fun _ h => nomatch h⟩

end KeyedGroups

end EdgeGateway
