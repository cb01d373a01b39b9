import Mathlib.Data.List.Induction

/-! # A register of owners

The first entry of a key is its owner, and every later one is compared with the owner only.
-/

namespace EdgeGateway.Registry

variable {α κ : Type} (key : α → Option κ) (shares : α → Bool)

def Tolerates (a b : α) : Prop := ∀ k, key a = some k → key b = some k → shares a = true ∧ shares b = true

/-- The first entry that one before it does not tolerate is under this key. -/
def ClashesFirstAt (all : List α) (k : κ) : Prop :=
  ∃ done entry rest, all = done ++ entry :: rest ∧ done.Pairwise (Tolerates key shares) ∧
    (∃ earlier ∈ done, ¬ Tolerates key shares earlier entry) ∧ key entry = some k

section Clashes

variable {key shares} {all : List α} {k : κ}

theorem ClashesFirstAt.not_pairwise (h : ClashesFirstAt key shares all k) :
    ¬ all.Pairwise (Tolerates key shares) := by
  obtain ⟨done, entry, rest, rfl, -, ⟨earlier, hEarlier, hClash⟩, -⟩ := h
  intro hPairwise
  rw [List.pairwise_append] at hPairwise
  exact hClash (hPairwise.2.2 earlier hEarlier entry List.mem_cons_self)

theorem clashesFirstAt_map {β : Type} (f : β → α) {l : List β} :
    ClashesFirstAt key shares (l.map f) k ↔ ClashesFirstAt (key ∘ f) (shares ∘ f) l k := by
  constructor
  · rintro ⟨done, entry, rest, hSplit, hDone, ⟨earlier, hEarlier, hClash⟩, hKey⟩
    obtain ⟨done', rest', rfl, rfl, hRest⟩ := List.map_eq_append_iff.mp hSplit
    obtain ⟨entry', rest, rfl, rfl, rfl⟩ := List.map_eq_cons_iff.mp hRest
    obtain ⟨earlier', hEarlier', rfl⟩ := List.mem_map.mp hEarlier
    rw [List.pairwise_map] at hDone
    exact ⟨done', entry', rest, rfl, hDone, ⟨earlier', hEarlier', hClash⟩, hKey⟩
  · rintro ⟨done, entry, rest, rfl, hDone, ⟨earlier, hEarlier, hClash⟩, hKey⟩
    refine ⟨done.map f, f entry, rest.map f, ?_, List.pairwise_map.mpr hDone,
      ⟨f earlier, List.mem_map_of_mem hEarlier, hClash⟩, hKey⟩
    rw [List.map_append, List.map_cons]

end Clashes

section Registering

variable [DecidableEq κ]

def register (owners : List α) (entry : α) : Except (α × α) (List α) :=
  match key entry with
  | none => .ok owners
  | some k => match owners.find? fun owner => key owner == some k with
    | none => .ok (owners ++ [entry])
    | some owner => if shares owner && shares entry then .ok owners else .error (owner, entry)

structure Registers (done owners : List α) : Prop where
  owned : ∀ entry ∈ done, ∀ k, key entry = some k → ∃ owner,
    owners.find? (fun owner => key owner == some k) = some owner ∧
      (entry = owner ∨ shares owner = true ∧ shares entry = true)
  entered : ∀ owner ∈ owners, owner ∈ done
  tolerated : done.Pairwise (Tolerates key shares)

variable {key shares} {done owners owners' all : List α} {entry : α}

theorem Registers.empty : Registers key shares [] [] := by
  constructor
  · intro entry hEntry
    cases hEntry
  · intro owner hOwner
    cases hOwner
  · exact .nil

theorem find_owner {k : κ} {owner : α} (h : owners.find? (fun owner => key owner == some k) = some owner) :
    key owner = some k := by
  simpa using List.find?_some h

theorem Registers.tolerates (h : Registers key shares done owners)
    (hRegister : register key shares owners entry = .ok owners') :
    ∀ earlier ∈ done, Tolerates key shares earlier entry := by
  intro earlier hEarlier k hKey hEntry
  obtain ⟨owner, hFind, hOwner⟩ := h.owned earlier hEarlier k hKey
  unfold register at hRegister
  simp only [hEntry, hFind] at hRegister
  split at hRegister
  · rename_i hShared
    rw [Bool.and_eq_true] at hShared
    refine ⟨?_, hShared.2⟩
    cases hOwner with
    | inl hSame =>
      rw [hSame]
      exact hShared.1
    | inr hBoth => exact hBoth.2
  · cases hRegister

theorem Registers.step (h : Registers key shares done owners)
    (hRegister : register key shares owners entry = .ok owners') : Registers key shares (done ++ [entry]) owners' := by
  have hTolerated : (done ++ [entry]).Pairwise (Tolerates key shares) := by
    rw [List.pairwise_append]
    refine ⟨h.tolerated, List.pairwise_singleton _ _, ?_⟩
    intro earlier hEarlier other hOther
    rw [List.mem_singleton.mp hOther]
    exact h.tolerates hRegister earlier hEarlier
  unfold register at hRegister
  cases hKey : key entry with
  | none =>
    simp only [hKey] at hRegister
    cases hRegister
    refine ⟨?_, fun owner hOwner => List.mem_append_left _ (h.entered owner hOwner), hTolerated⟩
    intro other hOther k hk
    cases List.mem_append.mp hOther with
    | inl hOld => exact h.owned other hOld k hk
    | inr hNew =>
      rw [List.mem_singleton.mp hNew, hKey] at hk
      cases hk
  | some k =>
    simp only [hKey] at hRegister
    split at hRegister
    · -- a new key: its owner is the last of the list
      rename_i hFind
      cases hRegister
      refine ⟨?_, ?_, hTolerated⟩
      · intro other hOther k' hk'
        cases List.mem_append.mp hOther with
        | inl hOld =>
          obtain ⟨owner, hOwner, hSame⟩ := h.owned other hOld k' hk'
          refine ⟨owner, ?_, hSame⟩
          rw [List.find?_append, hOwner]
          rfl
        | inr hNew =>
          obtain rfl := List.mem_singleton.mp hNew
          obtain rfl : k = k' := Option.some.inj (hKey.symm.trans hk')
          refine ⟨other, ?_, .inl rfl⟩
          rw [List.find?_append, hFind, List.find?_singleton, hKey, if_pos (beq_self_eq_true _)]
          rfl
      · intro owner hOwner
        cases List.mem_append.mp hOwner with
        | inl hOld => exact List.mem_append_left _ (h.entered owner hOld)
        | inr hNew => exact List.mem_append_right _ hNew
    · rename_i owner hFind
      split at hRegister
      · rename_i hShared
        cases hRegister
        rw [Bool.and_eq_true] at hShared
        refine ⟨?_, fun owner hOwner => List.mem_append_left _ (h.entered owner hOwner), hTolerated⟩
        intro other hOther k' hk'
        cases List.mem_append.mp hOther with
        | inl hOld => exact h.owned other hOld k' hk'
        | inr hNew =>
          obtain rfl := List.mem_singleton.mp hNew
          obtain rfl : k = k' := Option.some.inj (hKey.symm.trans hk')
          exact ⟨owner, hFind, .inr hShared⟩
      · cases hRegister

theorem Registers.refused (h : Registers key shares done owners) {first duplicate : α}
    (hRegister : register key shares owners entry = .error (first, duplicate)) :
    duplicate = entry ∧ first ∈ done ∧ (∃ k, key entry = some k) ∧ ¬ Tolerates key shares first entry := by
  unfold register at hRegister
  split at hRegister
  · cases hRegister
  · rename_i k hKey
    split at hRegister
    · cases hRegister
    · rename_i owner hFind
      split at hRegister
      · cases hRegister
      · rename_i hShared
        cases hRegister
        refine ⟨rfl, h.entered _ (List.mem_of_find?_eq_some hFind), ⟨k, hKey⟩, fun hTolerates => hShared ?_⟩
        rw [Bool.and_eq_true]
        exact hTolerates k (find_owner hFind) hKey

theorem registers_or_clashes (key : α → Option κ) (shares : α → Bool) (all : List α) :
    (∃ owners, all.foldlM (register key shares) [] = .ok owners ∧ Registers key shares all owners) ∨
      ∃ first duplicate k, all.foldlM (register key shares) [] = .error (first, duplicate) ∧
        key duplicate = some k ∧ ClashesFirstAt key shares all k := by
  induction all using List.reverseRecOn with
  | nil => exact .inl ⟨[], rfl, .empty⟩
  | append_singleton done entry ih =>
    rw [List.foldlM_append]
    obtain ⟨owners, hDone, hRegisters⟩ | ⟨first, duplicate, k, hDone, hKey, earlier, clash, rest, hSplit, hClash⟩ := ih
    · rw [hDone]
      cases hEntry : register key shares owners entry with
      | ok owners' =>
        refine .inl ⟨owners', ?_, hRegisters.step hEntry⟩
        change [entry].foldlM (register key shares) owners = _
        rw [List.foldlM_cons, hEntry]
        rfl
      | error clash =>
        obtain ⟨first, duplicate⟩ := clash
        obtain ⟨rfl, hFirst, ⟨k, hKey⟩, hClash⟩ := hRegisters.refused hEntry
        refine .inr ⟨first, duplicate, k, ?_, hKey, done, duplicate, [], rfl, hRegisters.tolerated, ⟨first, hFirst, hClash⟩,
          hKey⟩
        change [duplicate].foldlM (register key shares) owners = _
        rw [List.foldlM_cons, hEntry]
        rfl
    · rw [hDone]
      refine .inr ⟨first, duplicate, k, rfl, hKey, earlier, clash, rest ++ [entry], ?_, hClash⟩
      rw [hSplit, List.append_assoc]
      rfl

theorem refused_of_clashesFirstAt {k : κ} (h : ClashesFirstAt key shares all k) :
    ∃ first duplicate, all.foldlM (register key shares) [] = .error (first, duplicate) ∧ key duplicate = some k := by
  obtain ⟨done, entry, rest, rfl, hDone, ⟨earlier, hEarlier, hClash⟩, hKey⟩ := h
  obtain ⟨owners, hRun, hRegisters⟩ | ⟨_, _, _, -, -, hEarlierClash⟩ := registers_or_clashes key shares done
  · cases hEntry : register key shares owners entry with
    | ok owners' => exact absurd (hRegisters.tolerates hEntry earlier hEarlier) hClash
    | error clash =>
      obtain ⟨first, duplicate⟩ := clash
      obtain ⟨rfl, -⟩ := hRegisters.refused hEntry
      refine ⟨first, duplicate, ?_, hKey⟩
      rw [List.foldlM_append, hRun]
      change (duplicate :: rest).foldlM (register key shares) owners = _
      rw [List.foldlM_cons, hEntry]
      rfl
  · exact absurd hDone hEarlierClash.not_pairwise

theorem clashes_or_pairwise (key : α → Option κ) (shares : α → Bool) (all : List α) :
    (∃ k, ClashesFirstAt key shares all k) ∨ all.Pairwise (Tolerates key shares) := by
  obtain ⟨owners, -, hRegisters⟩ | ⟨_, _, k, -, -, hClash⟩ := registers_or_clashes key shares all
  · exact .inr hRegisters.tolerated
  · exact .inl ⟨k, hClash⟩

end Registering

end EdgeGateway.Registry
