import Mathlib.Data.List.Basic
import Mathlib.Data.List.Induction

/-! # Runs of a deterministic machine

The events of a run carry every choice of the environment, so a run is a fold. A guard is asked of
each event in the state it is taken in.
-/

namespace EdgeGateway.Run

universe u v w

variable {σ : Type u} {ε : Type v} (step : σ → ε → σ)

def after (s : σ) (events : List ε) : σ := events.foldl step s

def Guarded (guard : σ → ε → Prop) (s : σ) (events : List ε) : Prop :=
  ∀ done event, done ++ [event] <+: events → guard (after step s done) event

@[simp] theorem after_nil (s : σ) : after step s [] = s := rfl

@[simp] theorem after_cons (s : σ) (event : ε) (rest : List ε) :
    after step s (event :: rest) = after step (step s event) rest := rfl

@[simp] theorem after_snoc (s : σ) (events : List ε) (event : ε) :
    after step s (events ++ [event]) = step (after step s events) event := by
  simp [after]

theorem Guarded.before {guard : σ → ε → Prop} {s : σ} {events done : List ε}
    (h : Guarded step guard s events) (hDone : done <+: events) : Guarded step guard s done :=
  fun pre event hPre => h pre event (hPre.trans hDone)

theorem guarded_nil (guard : σ → ε → Prop) (s : σ) : Guarded step guard s [] := by
  intro done event h
  simpa using h.length_le

theorem guarded_cons (guard : σ → ε → Prop) (s : σ) (event : ε) (rest : List ε) :
    Guarded step guard s (event :: rest) ↔ guard s event ∧ Guarded step guard (step s event) rest := by
  constructor
  · intro h
    refine ⟨h [] event (by simp), fun done e hDone => ?_⟩
    exact h (event :: done) e (by simpa using hDone)
  · rintro ⟨hHead, hRest⟩ done e hDone
    cases done with
    | nil =>
      obtain ⟨rfl, -⟩ := List.cons_prefix_cons.mp hDone
      exact hHead
    | cons d done =>
      obtain ⟨rfl, hTail⟩ := List.cons_prefix_cons.mp hDone
      exact hRest done e hTail

theorem invariant_along {s : σ} {events : List ε} (inv : σ → Prop) (hStart : inv s)
    (hStep : ∀ done event, done ++ [event] <+: events → inv (after step s done) →
      inv (step (after step s done) event))
    (done : List ε) (hDone : done <+: events) : inv (after step s done) := by
  induction done using List.reverseRecOn with
  | nil => exact hStart
  | append_singleton done event ih =>
    rw [after_snoc]
    exact hStep done event hDone (ih ((List.prefix_append done [event]).trans hDone))

theorem invariant {guard : σ → ε → Prop} (inv : σ → Prop) {s : σ} {events : List ε}
    (hStart : inv s) (hStep : ∀ s event, inv s → guard s event → inv (step s event))
    (hRun : Guarded step guard s events) : inv (after step s events) :=
  invariant_along step inv hStart (fun done event hDone hInv => hStep _ event hInv (hRun done event hDone))
    events (List.prefix_refl events)

theorem after_append (s : σ) (xs ys : List ε) : after step s (xs ++ ys) = after step (after step s xs) ys :=
  List.foldl_append

theorem guarded_append (guard : σ → ε → Prop) (s : σ) (xs ys : List ε) :
    Guarded step guard s (xs ++ ys) ↔ Guarded step guard s xs ∧ Guarded step guard (after step s xs) ys := by
  induction xs generalizing s with
  | nil => simp [guarded_nil]
  | cons x xs ih => rw [List.cons_append, guarded_cons, ih, guarded_cons, after_cons, and_assoc]

theorem forall_step_snoc {γ : Type w} (kind : γ → ε) (P : List ε → γ → Prop) (events : List ε) (last : ε) :
    (∀ done c, done ++ [kind c] <+: events ++ [last] → P done c) ↔
      (∀ done c, done ++ [kind c] <+: events → P done c) ∧ ∀ c, last = kind c → P events c := by
  constructor
  · intro h
    refine ⟨fun done c hDone => h done c (hDone.trans (List.prefix_append _ _)), ?_⟩
    rintro c rfl
    exact h events c (List.prefix_refl _)
  · rintro ⟨hBefore, hLast⟩ done c hDone
    obtain hSame | hEarlier := List.prefix_concat_iff.mp hDone
    · obtain ⟨rfl, hCall⟩ := List.append_inj' hSame rfl
      exact hLast c (by simpa using hCall.symm)
    · exact hBefore done c hEarlier

theorem forall_step_nil {γ : Type w} (kind : γ → ε) (P : List ε → γ → Prop) :
    ∀ done c, done ++ [kind c] <+: [] → P done c := by
  intro done c hPrefix
  simpa using hPrefix.length_le

def Leads (guard : σ → ε → Prop) (s : σ) (events : List ε) (t : σ) : Prop :=
  Guarded step guard s events ∧ after step s events = t

namespace Leads

variable {step} {guard : σ → ε → Prop} {s t u : σ} {xs ys : List ε}

theorem nil (s : σ) : Leads step guard s [] s := ⟨guarded_nil step guard s, rfl⟩

theorem single {event : ε} (h : guard s event) : Leads step guard s [event] (step s event) :=
  ⟨(guarded_cons step guard s event []).mpr ⟨h, guarded_nil step guard _⟩, rfl⟩

theorem append (hx : Leads step guard s xs t) (hy : Leads step guard t ys u) : Leads step guard s (xs ++ ys) u := by
  obtain ⟨hx, rfl⟩ := hx
  exact ⟨(guarded_append step guard s xs ys).mpr ⟨hx, hy.1⟩, (after_append step s xs ys).trans hy.2⟩

end Leads

section Trace

variable {α : Type w} (emit : σ → ε → List α)

/-- What the steps of a run put out, in order. -/
def trace (s : σ) : List ε → List α
  | [] => []
  | event :: rest => emit s event ++ trace (step s event) rest

theorem trace_snoc (s : σ) (events : List ε) (event : ε) :
    trace step emit s (events ++ [event]) = trace step emit s events ++ emit (after step s events) event := by
  induction events generalizing s with
  | nil => simp [trace]
  | cons first rest ih => simp [trace, ih]

theorem trace_invariant (inv : σ → List α → Prop) {s : σ} (hStart : inv s [])
    (hStep : ∀ s log event, inv s log → inv (step s event) (log ++ emit s event)) (events : List ε) :
    inv (after step s events) (trace step emit s events) := by
  induction events using List.reverseRecOn with
  | nil => exact hStart
  | append_singleton events event ih =>
    rw [after_snoc, trace_snoc]
    exact hStep _ _ event ih

end Trace

section Partial

variable (move : σ → ε → Option σ)

/-- A run of steps that may not return; the run stops at the first that does not. -/
def reach (s : σ) (events : List ε) : Option σ := events.foldlM move s

def Met (guard : σ → ε → Prop) (s : σ) (events : List ε) : Prop :=
  ∀ done event, done ++ [event] <+: events → ∀ t, reach move s done = some t → guard t event

theorem reach_snoc (s : σ) (events : List ε) (event : ε) :
    reach move s (events ++ [event]) = (reach move s events).bind fun t => move t event := by
  simp [reach, List.foldlM_append]

theorem reach_cons (s : σ) (event : ε) (events : List ε) :
    reach move s (event :: events) = (move s event).bind fun t => reach move t events := rfl

theorem invariant_reach (guard : σ → ε → Prop) (inv : σ → Prop) {s : σ} {events : List ε} (hStart : inv s)
    (hStep : ∀ s event t, inv s → guard s event → move s event = some t → inv t)
    (hMet : Met move guard s events) (done : List ε) (hDone : done <+: events) :
    ∀ t, reach move s done = some t → inv t := by
  induction done using List.reverseRecOn with
  | nil =>
    intro t hReach
    obtain rfl := Option.some.inj hReach
    exact hStart
  | append_singleton done event ih =>
    intro t hReach
    rw [reach_snoc] at hReach
    obtain ⟨u, hBefore, hMove⟩ := Option.bind_eq_some_iff.mp hReach
    exact hStep u event t (ih ((List.prefix_append done [event]).trans hDone) u hBefore)
      (hMet done event hDone u hBefore) hMove

theorem reach_total {allowed : ε → Prop} (inv : σ → Prop) {s : σ} {events : List ε} (hStart : inv s)
    (hStep : ∀ s event, inv s → allowed event → ∃ t, move s event = some t ∧ inv t)
    (hAllowed : ∀ event ∈ events, allowed event) : ∃ t, reach move s events = some t ∧ inv t := by
  induction events generalizing s with
  | nil => exact ⟨s, rfl, hStart⟩
  | cons event events ih =>
    obtain ⟨t, hMove, hInv⟩ := hStep s event hStart (hAllowed event List.mem_cons_self)
    obtain ⟨u, hReach, hEnd⟩ := ih hInv fun e he => hAllowed e (List.mem_cons_of_mem _ he)
    refine ⟨u, ?_, hEnd⟩
    rw [reach_cons, hMove]
    exact hReach

end Partial

section Flags

variable {step} {raises keeps : ε → Prop}

/-- An event has raised the flag and all later ones keep it, or it was up and all of them keep it. -/
def Since (raises keeps : ε → Prop) (start : Prop) (events : List ε) : Prop :=
  (∃ before first block, events = before ++ first :: block ∧ raises first ∧ ∀ event ∈ block, keeps event) ∨
    start ∧ ∀ event ∈ events, keeps event

theorem since_snoc {start : Prop} {events : List ε} {event : ε} :
    Since raises keeps start (events ++ [event]) ↔ raises event ∨ keeps event ∧ Since raises keeps start events := by
  constructor
  · rintro (⟨before, first, block, hEvents, hFirst, hBlock⟩ | ⟨hStart, hAll⟩)
    · obtain rfl | ⟨block, last, rfl⟩ := block.eq_nil_or_concat'
      · obtain ⟨-, hLast⟩ := List.append_inj' hEvents rfl
        exact .inl ((List.cons.inj hLast).1 ▸ hFirst)
      · rw [← List.cons_append, ← List.append_assoc] at hEvents
        obtain ⟨rfl, hLast⟩ := List.append_inj' hEvents rfl
        obtain rfl := (List.cons.inj hLast).1
        exact .inr ⟨hBlock event (by simp), .inl ⟨before, first, block, rfl, hFirst, fun e he => hBlock e (by simp [he])⟩⟩
    · exact .inr ⟨hAll event (by simp), .inr ⟨hStart, fun e he => hAll e (by simp [he])⟩⟩
  · rintro (hRaises | ⟨hKeeps, ⟨before, first, block, rfl, hFirst, hBlock⟩ | ⟨hStart, hAll⟩⟩)
    · exact .inl ⟨events, event, [], rfl, hRaises, by simp⟩
    · refine .inl ⟨before, first, block ++ [event], by simp, hFirst, ?_⟩
      exact List.forall_mem_append.mpr ⟨hBlock, List.forall_mem_singleton.mpr hKeeps⟩
    · exact .inr ⟨hStart, List.forall_mem_append.mpr ⟨hAll, List.forall_mem_singleton.mpr hKeeps⟩⟩

/-- The flag over a run, from what one step does to it. -/
theorem flag_iff_since (inv flag : σ → Prop) (hInv : ∀ s event, inv s → inv (step s event))
    (hStep : ∀ s event, inv s → (flag (step s event) ↔ raises event ∨ keeps event ∧ flag s)) {s : σ} (hStart : inv s)
    (events : List ε) : inv (after step s events) ∧ (flag (after step s events) ↔ Since raises keeps (flag s) events) := by
  induction events using List.reverseRecOn with
  | nil => simp [Since, hStart]
  | append_singleton events event ih =>
    rw [after_snoc, hStep _ event ih.1, ih.2, since_snoc]
    exact ⟨hInv _ event ih.1, Iff.rfl⟩

end Flags

end EdgeGateway.Run
