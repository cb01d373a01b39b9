import Mathlib.Data.List.Basic

/-! # Computations that can stop with an error -/

namespace EdgeGateway.Fallible

universe u v w

variable {ε : Type u} {α : Type v} {β : Type v} {σ : Type v} {γ : Type w}

theorem bind_ok_iff {x : Except ε α} {f : α → Except ε β} {b : β} :
    (x >>= f) = .ok b ↔ ∃ a, x = .ok a ∧ f a = .ok b := by
  cases x with
  | error e =>
    constructor
    · intro h
      cases h
    · rintro ⟨a, h, -⟩
      cases h
  | ok a =>
    constructor
    · intro h
      exact ⟨a, rfl, h⟩
    · rintro ⟨a', ha, hb⟩
      cases ha
      exact hb

theorem pure_ok_iff {a b : α} : (pure a : Except ε α) = .ok b ↔ a = b :=
  ⟨fun h => Except.ok.inj h, fun h => congrArg Except.ok h⟩

theorem map_ok_iff {x : Except ε α} {f : α → β} {b : β} : x.map f = .ok b ↔ ∃ a, x = .ok a ∧ f a = b := by
  cases x with
  | error e =>
    constructor
    · intro h
      cases h
    · rintro ⟨a, h, -⟩
      cases h
  | ok a =>
    constructor
    · intro h
      exact ⟨a, rfl, Except.ok.inj h⟩
    · rintro ⟨a', ha, hb⟩
      cases ha
      exact congrArg Except.ok hb

theorem foldlM_rule {f : σ → γ → Except ε σ} (P : List γ → σ → Prop) {l : List γ} {s s' : σ}
    (hStep : ∀ passed x s s', P passed s → f s x = .ok s' → P (passed ++ [x]) s') (hStart : P [] s)
    (h : l.foldlM f s = .ok s') : P l s' := by
  have hGeneral : ∀ rest passed s, P passed s → rest.foldlM f s = .ok s' → P (passed ++ rest) s' := by
    intro rest
    induction rest with
    | nil =>
      intro passed s hs h
      rw [List.foldlM_nil, pure_ok_iff] at h
      rw [List.append_nil, ← h]
      exact hs
    | cons x rest ih =>
      intro passed s hs h
      rw [List.foldlM_cons, bind_ok_iff] at h
      obtain ⟨next, hNext, hRest⟩ := h
      have hDone := ih (passed ++ [x]) next (hStep passed x s next hs hNext) hRest
      rwa [List.append_assoc] at hDone
  exact hGeneral l [] s hStart h

theorem foldlM_keeps {f : σ → γ → Except ε σ} (P : σ → Prop) {l : List γ} {s s' : σ}
    (hStep : ∀ x s s', P s → f s x = .ok s' → P s') (hStart : P s) (h : l.foldlM f s = .ok s') : P s' :=
  foldlM_rule (fun _ => P) (fun _ x s s' => hStep x s s') hStart h

theorem foldlM_mapError {ε' : Type u} (rename : ε → ε') (f : σ → γ → Except ε σ) (l : List γ) (s : σ) :
    l.foldlM (fun s x => (f s x).mapError rename) s = (l.foldlM f s).mapError rename := by
  induction l generalizing s with
  | nil => rfl
  | cons x l ih =>
    rw [List.foldlM_cons, List.foldlM_cons]
    cases f s x with
    | error e => rfl
    | ok next => exact ih next

theorem mapError_error_iff {ε' : Type u} {rename : ε → ε'} {x : Except ε α} {e' : ε'} :
    x.mapError rename = .error e' ↔ ∃ e, x = .error e ∧ rename e = e' := by
  cases x with
  | error e =>
    constructor
    · intro h
      exact ⟨e, rfl, Except.error.inj h⟩
    · rintro ⟨e, he, hRename⟩
      cases he
      exact congrArg Except.error hRename
  | ok a =>
    constructor
    · intro h
      cases h
    · rintro ⟨e, he, -⟩
      cases he

theorem foldlM_ok {f : σ → γ → Except ε σ} {g : σ → γ → σ} (P : σ → Prop) {l : List γ} {s : σ} (hStart : P s)
    (hStep : ∀ x ∈ l, ∀ s, P s → f s x = .ok (g s x) ∧ P (g s x)) : l.foldlM f s = .ok (l.foldl g s) := by
  induction l generalizing s with
  | nil => rfl
  | cons x l ih =>
    obtain ⟨hRound, hNext⟩ := hStep x List.mem_cons_self s hStart
    rw [List.foldlM_cons, hRound]
    exact ih hNext fun y hy => hStep y (List.mem_cons_of_mem x hy)

theorem foldlM_error_iff {f : σ → γ → Except ε σ} {e : ε} {passes : γ → Prop} {l : List γ} {s : σ}
    (hPass : ∀ x ∈ l, passes x → ∀ s, ∃ s', f s x = .ok s') (hFail : ∀ x ∈ l, ¬passes x → ∀ s, f s x = .error e) :
    l.foldlM f s = .error e ↔ ∃ x ∈ l, ¬passes x := by
  induction l generalizing s with
  | nil =>
    constructor
    · intro h
      cases h
    · rintro ⟨x, hx, -⟩
      cases hx
  | cons x l ih =>
    have hRest : ∀ s, l.foldlM f s = .error e ↔ ∃ x ∈ l, ¬passes x := fun s =>
      ih (fun y hy => hPass y (List.mem_cons_of_mem x hy)) (fun y hy => hFail y (List.mem_cons_of_mem x hy))
    rw [List.foldlM_cons, List.exists_mem_cons_iff]
    by_cases hx : passes x
    · obtain ⟨s', hRound⟩ := hPass x List.mem_cons_self hx s
      rw [hRound, or_iff_right (not_not.mpr hx)]
      exact hRest s'
    · rw [hFail x List.mem_cons_self hx s]
      exact iff_of_true rfl (.inl hx)

theorem foldlM_ok_iff_rounds {f : σ → γ → Except ε σ} {l : List γ} {s : σ} :
    (∃ t, l.foldlM f s = .ok t) ↔
      ∀ done x, done ++ [x] <+: l → ∀ u, done.foldlM f s = .ok u → ∃ v, f u x = .ok v := by
  induction l generalizing s with
  | nil =>
    refine iff_of_true ⟨s, rfl⟩ ?_
    intro done x hPrefix
    simpa using hPrefix.length_le
  | cons a l ih =>
    constructor
    · rintro ⟨t, hRun⟩ done x hPrefix u hDone
      rw [List.foldlM_cons] at hRun
      obtain ⟨next, hFirst, hRest⟩ := bind_ok_iff.mp hRun
      cases done with
      | nil =>
        obtain ⟨rfl, -⟩ := List.cons_prefix_cons.mp hPrefix
        obtain rfl := pure_ok_iff.mp hDone
        exact ⟨next, hFirst⟩
      | cons d done =>
        obtain ⟨rfl, hTail⟩ := List.cons_prefix_cons.mp hPrefix
        rw [List.foldlM_cons] at hDone
        obtain ⟨same, hSame, hDone⟩ := bind_ok_iff.mp hDone
        obtain rfl := Except.ok.inj (hFirst.symm.trans hSame)
        exact ih.mp ⟨t, hRest⟩ done x hTail u hDone
    · intro h
      obtain ⟨next, hFirst⟩ := h [] a (by simp) s rfl
      have hRest : ∃ t, l.foldlM f next = .ok t := by
        refine ih.mpr ?_
        intro done x hPrefix u hDone
        refine h (a :: done) x (List.cons_prefix_cons.mpr ⟨rfl, hPrefix⟩) u ?_
        rw [List.foldlM_cons]
        exact bind_ok_iff.mpr ⟨next, hFirst, hDone⟩
      obtain ⟨t, hRest⟩ := hRest
      refine ⟨t, ?_⟩
      rw [List.foldlM_cons]
      exact bind_ok_iff.mpr ⟨next, hFirst, hRest⟩

theorem forM_ok_iff {f : γ → Except ε PUnit} {l : List γ} : l.forM f = .ok () ↔ ∀ x ∈ l, f x = .ok () := by
  induction l with
  | nil => exact ⟨fun _ _ h => absurd h List.not_mem_nil, fun _ => rfl⟩
  | cons x l ih =>
    rw [List.forM_eq_forM, List.forM_cons, bind_ok_iff, List.forall_mem_cons]
    constructor
    · rintro ⟨⟨⟩, hx, hl⟩
      exact ⟨hx, ih.mp hl⟩
    · rintro ⟨hx, hl⟩
      exact ⟨(), hx, ih.mpr hl⟩

theorem mapM_ok {f : γ → Except ε β} {l : List γ} {l' : List β} (h : l.mapM f = .ok l') :
    List.Forall₂ (fun x y => f x = .ok y) l l' := by
  induction l generalizing l' with
  | nil =>
    rw [List.mapM_nil, pure_ok_iff] at h
    rw [← h]
    exact .nil
  | cons x l ih =>
    rw [List.mapM_cons, bind_ok_iff] at h
    obtain ⟨y, hy, h⟩ := h
    obtain ⟨ys, hys, h⟩ := bind_ok_iff.mp h
    rw [pure_ok_iff] at h
    rw [← h]
    exact .cons hy (ih hys)

theorem mapM_ok_iff {f : γ → Except ε β} {l : List γ} {l' : List β} :
    l.mapM f = .ok l' ↔ List.Forall₂ (fun x y => f x = .ok y) l l' := by
  constructor
  · exact mapM_ok
  · intro h
    induction h with
    | nil => rfl
    | cons hFirst _ ih =>
      rw [List.mapM_cons, bind_ok_iff]
      exact ⟨_, hFirst, bind_ok_iff.mpr ⟨_, ih, rfl⟩⟩

def selectM {α : Type v} (test : α → Except ε Bool) : List α → Except ε (List α)
  | [] => .ok []
  | x :: l => (test x).bind fun passes => (selectM test l).map fun rest => if passes then x :: rest else rest

theorem mem_selectM {α : Type v} {test : α → Except ε Bool} {l l' : List α} (h : selectM test l = .ok l') {x : α} :
    x ∈ l' ↔ x ∈ l ∧ test x = .ok true := by
  induction l generalizing l' with
  | nil =>
    cases h
    simp
  | cons a l ih =>
    unfold selectM at h
    cases hTest : test a with
    | error e =>
      rw [hTest] at h
      cases h
    | ok passes =>
      rw [hTest] at h
      obtain ⟨rest, hRest, hList⟩ := map_ok_iff.mp h
      have hMem := ih hRest
      rw [← hList]
      cases passes with
      | true =>
        rw [if_pos rfl, List.mem_cons, List.mem_cons, hMem]
        constructor
        · rintro (rfl | ⟨hOld, hTrue⟩)
          · exact ⟨.inl rfl, hTest⟩
          · exact ⟨.inr hOld, hTrue⟩
        · rintro ⟨rfl | hOld, hTrue⟩
          · exact .inl rfl
          · exact .inr ⟨hOld, hTrue⟩
      | false =>
        rw [if_neg (by decide), List.mem_cons, hMem]
        constructor
        · rintro ⟨hOld, hTrue⟩
          exact ⟨.inr hOld, hTrue⟩
        · rintro ⟨rfl | hOld, hTrue⟩
          · rw [hTest] at hTrue
            cases hTrue
          · exact ⟨hOld, hTrue⟩

theorem exists_right_of_forall₂ {α : Type v} {β : Type w} {r : α → β → Prop} {l : List α} {l' : List β}
    (h : List.Forall₂ r l l') {x : α} (hx : x ∈ l) : ∃ y ∈ l', r x y := by
  induction h with
  | nil => cases hx
  | cons hHead _ ih =>
    obtain rfl | hx := List.mem_cons.mp hx
    · exact ⟨_, List.mem_cons_self, hHead⟩
    · obtain ⟨y, hy, hr⟩ := ih hx
      exact ⟨y, List.mem_cons_of_mem _ hy, hr⟩

end EdgeGateway.Fallible
