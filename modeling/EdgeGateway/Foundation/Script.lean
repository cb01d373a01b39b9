import EdgeGateway.Foundation.Run

/-! # Threads that share a state

A thread is a tree of calls, each answered on the state as the other threads have left it. What a
thread relies on and what it guarantees are enough to follow any interleaving.
-/

namespace EdgeGateway

inductive Script (ω : Type) (ρ : ω → Type) (ε α : Type) : Type where
  | done (result : Except ε α)
  | call (op : ω) (next : Except ε (ρ op) → Script ω ρ ε α)

namespace Script

variable {ω : Type} {ρ : ω → Type} {ε α β : Type}

protected def bind : Script ω ρ ε α → (α → Script ω ρ ε β) → Script ω ρ ε β
  | done (.ok a), f => f a
  | done (.error e), _ => done (.error e)
  | call op next, f => call op fun answer => (next answer).bind f

protected def handle : Script ω ρ ε α → (ε → Script ω ρ ε α) → Script ω ρ ε α
  | done (.ok a), _ => done (.ok a)
  | done (.error e), handler => handler e
  | call op next, handler => call op fun answer => (next answer).handle handler

instance : Monad (Script ω ρ ε) where
  pure a := done (.ok a)
  bind := Script.bind

instance : MonadExceptOf ε (Script ω ρ ε) where
  throw e := done (.error e)
  tryCatch := Script.handle

def perform (op : ω) : Script ω ρ ε (ρ op) := call op done

def lift (result : Except ε α) : Script ω ρ ε α := done result

def Only (P : ω → Prop) : Script ω ρ ε α → Prop
  | done _ => True
  | call op next => P op ∧ ∀ answer, (next answer).Only P

section Only

variable {P P' : ω → Prop}

theorem Only.pure (a : α) : Only P (pure a : Script ω ρ ε α) := trivial

theorem Only.throw (e : ε) : Only P (throw e : Script ω ρ ε α) := trivial

theorem Only.perform {op : ω} (h : P op) : Only P (perform op : Script ω ρ ε (ρ op)) := ⟨h, fun _ => trivial⟩

theorem Only.lift (result : Except ε α) : Only P (lift result : Script ω ρ ε α) := trivial

theorem Only.bind {x : Script ω ρ ε α} {f : α → Script ω ρ ε β} (hx : x.Only P) (hf : ∀ a, (f a).Only P) :
    (x >>= f).Only P := by
  change (x.bind f).Only P
  induction x with
  | done result =>
    cases result with
    | ok a => exact hf a
    | error e => trivial
  | call op next ih => exact ⟨hx.1, fun answer => ih answer (hx.2 answer)⟩

theorem Only.tryCatch {x : Script ω ρ ε α} {handler : ε → Script ω ρ ε α} (hx : x.Only P)
    (hHandler : ∀ e, (handler e).Only P) : (tryCatch x handler).Only P := by
  change (x.handle handler).Only P
  induction x with
  | done result =>
    cases result with
    | ok a => trivial
    | error e => exact hHandler e
  | call op next ih => exact ⟨hx.1, fun answer => ih answer (hx.2 answer)⟩

theorem Only.weaken {x : Script ω ρ ε α} (hx : x.Only P) (h : ∀ op, P op → P' op) : x.Only P' := by
  induction x with
  | done result => trivial
  | call op next ih => exact ⟨h op hx.1, fun answer => ih answer (hx.2 answer)⟩

theorem Only.of_forall (x : Script ω ρ ε α) (h : ∀ op, P op) : x.Only P := by
  induction x with
  | done result => trivial
  | call op next ih => exact ⟨h op, ih⟩

end Only

end Script

/-- What each thread `i` relies on between its calls, guarantees by each of them, and may do at all. -/
structure Contract (ι ω : Type) (ρ : ω → Type) (ε σ : Type) where
  inv : σ → Prop
  allowed : ι → (op : ω) → Except ε (ρ op) → σ → Prop
  rely : ι → σ → σ → Prop
  guarantee : ι → ω → σ → σ → Prop
  rely_refl : ∀ i s, rely i s s
  rely_trans : ∀ {i s t u}, rely i s t → rely i t u → rely i s u
  compatible : ∀ {i j op s t}, i ≠ j → inv s → inv t → guarantee j op s t → rely i s t

namespace Script

variable {ι ω : Type} {ρ : ω → Type} {ε σ α β : Type}
variable (act : ι → (op : ω) → Except ε (ρ op) → σ → Except ε (ρ op) × σ) (c : Contract ι ω ρ ε σ)

/-- From `s` on, whatever the others do that `i` relies on, each call of the thread keeps the
contract, and the thread ends as `Q` says. -/
def Safe (i : ι) (Q : Except ε α → σ → Prop) : Script ω ρ ε α → σ → Prop
  | done result, s => ∀ t, c.rely i s t → c.inv t → Q result t
  | call op next, s => ∀ t, c.rely i s t → c.inv t → ∀ answer, c.allowed i op answer t →
      c.inv (act i op answer t).2 ∧ c.guarantee i op t (act i op answer t).2 ∧
        (next (act i op answer t).1).Safe i Q (act i op answer t).2

section Safe

variable {act c} {i : ι} {Q Q' : Except ε α → σ → Prop} {R : Except ε β → σ → Prop} {s t : σ}

theorem Safe.later {x : Script ω ρ ε α} (h : x.Safe act c i Q s) (hRely : c.rely i s t) :
    x.Safe act c i Q t := by
  cases x with
  | done result => exact fun u hu => h u (c.rely_trans hRely hu)
  | call op next => exact fun u hu => h u (c.rely_trans hRely hu)

theorem Safe.of_later {x : Script ω ρ ε α} (h : ∀ t, c.rely i s t → c.inv t → x.Safe act c i Q t) :
    x.Safe act c i Q s := by
  cases x with
  | done result => exact fun t hst ht => h t hst ht t (c.rely_refl i t) ht
  | call op next => exact fun t hst ht => h t hst ht t (c.rely_refl i t) ht

theorem Safe.pure {a : α} (h : ∀ t, c.rely i s t → c.inv t → Q (.ok a) t) :
    Safe act c i Q (pure a : Script ω ρ ε α) s := h

theorem Safe.throw {e : ε} (h : ∀ t, c.rely i s t → c.inv t → Q (.error e) t) :
    Safe act c i Q (throw e : Script ω ρ ε α) s := h

theorem Safe.bind {x : Script ω ρ ε α} {f : α → Script ω ρ ε β} (hx : x.Safe act c i Q s)
    (hOk : ∀ a t, c.inv t → Q (.ok a) t → (f a).Safe act c i R t)
    (hError : ∀ e t, c.inv t → Q (.error e) t → R (.error e) t) : (x >>= f).Safe act c i R s := by
  change (x.bind f).Safe act c i R s
  induction x generalizing s with
  | done result =>
    cases result with
    | ok a => exact Safe.of_later fun t hst ht => hOk a t ht (hx t hst ht)
    | error e => exact fun t hst ht => hError e t ht (hx t hst ht)
  | call op next ih =>
    intro t hst ht answer hAllowed
    obtain ⟨hInv, hGuarantee, hNext⟩ := hx t hst ht answer hAllowed
    exact ⟨hInv, hGuarantee, ih _ hNext⟩

theorem Safe.tryCatch {x : Script ω ρ ε α} {handler : ε → Script ω ρ ε α} (hx : x.Safe act c i Q s)
    (hOk : ∀ a t, c.inv t → Q (.ok a) t → Q' (.ok a) t)
    (hHandler : ∀ e t, c.inv t → Q (.error e) t → (handler e).Safe act c i Q' t) :
    (tryCatch x handler).Safe act c i Q' s := by
  change (x.handle handler).Safe act c i Q' s
  induction x generalizing s with
  | done result =>
    cases result with
    | ok a => exact fun t hst ht => hOk a t ht (hx t hst ht)
    | error e => exact Safe.of_later fun t hst ht => hHandler e t ht (hx t hst ht)
  | call op next ih =>
    intro t hst ht answer hAllowed
    obtain ⟨hInv, hGuarantee, hNext⟩ := hx t hst ht answer hAllowed
    exact ⟨hInv, hGuarantee, ih _ hNext⟩

theorem Safe.perform_bind {op : ω} {f : ρ op → Script ω ρ ε β}
    (h : ∀ t, c.rely i s t → c.inv t → ∀ answer, c.allowed i op answer t →
      c.inv (act i op answer t).2 ∧ c.guarantee i op t (act i op answer t).2 ∧
      (∀ a, (act i op answer t).1 = .ok a → (f a).Safe act c i R (act i op answer t).2) ∧
      ∀ e, (act i op answer t).1 = .error e →
        ∀ u, c.rely i (act i op answer t).2 u → c.inv u → R (.error e) u) :
    (perform op >>= f).Safe act c i R s := by
  intro t hst ht answer hAllowed
  obtain ⟨hInv, hGuarantee, hOk, hError⟩ := h t hst ht answer hAllowed
  refine ⟨hInv, hGuarantee, ?_⟩
  cases hAnswer : (act i op answer t).1 with
  | ok a => exact hOk a hAnswer
  | error e => exact hError e hAnswer

theorem Safe.perform {op : ω} {Q : Except ε (ρ op) → σ → Prop}
    (h : ∀ t, c.rely i s t → c.inv t → ∀ answer, c.allowed i op answer t →
      c.inv (act i op answer t).2 ∧ c.guarantee i op t (act i op answer t).2 ∧
        ∀ u, c.rely i (act i op answer t).2 u → c.inv u → Q (act i op answer t).1 u) :
    (perform op : Script ω ρ ε (ρ op)).Safe act c i Q s := h

/-- Calls that keep the contract under one assertion, and keep the assertion too. -/
theorem Safe.of_only {P : ω → Prop} (A : σ → Prop) {x : Script ω ρ ε α} (hx : x.Only P)
    (hStable : ∀ s t, c.rely i s t → A s → A t)
    (hCall : ∀ op t answer, P op → A t → c.inv t → c.allowed i op answer t →
      c.inv (act i op answer t).2 ∧ c.guarantee i op t (act i op answer t).2 ∧ A (act i op answer t).2)
    (hs : A s) : x.Safe act c i (fun _ => A) s := by
  induction x generalizing s with
  | done result => exact fun t hst _ => hStable s t hst hs
  | call op next ih =>
    intro t hst ht answer hAllowed
    obtain ⟨hInv, hGuarantee, hA⟩ := hCall op t answer hx.1 (hStable s t hst hs) ht hAllowed
    exact ⟨hInv, hGuarantee, ih _ (hx.2 _) hA⟩

theorem Safe.weaken {x : Script ω ρ ε α} (hx : x.Safe act c i Q s) (h : ∀ r t, c.inv t → Q r t → Q' r t) :
    x.Safe act c i Q' s := by
  induction x generalizing s with
  | done result => exact fun t hst ht => h result t ht (hx t hst ht)
  | call op next ih =>
    intro t hst ht answer hAllowed
    obtain ⟨hInv, hGuarantee, hNext⟩ := hx t hst ht answer hAllowed
    exact ⟨hInv, hGuarantee, ih _ hNext⟩

end Safe

end Script

/-- The threads of a program and the state they share. -/
structure Pool (ι ω : Type) (ρ : ω → Type) (ε σ : Type) where
  threads : ι → Script ω ρ ε Unit
  shared : σ

namespace Pool

open Run

variable {ι ω : Type} {ρ : ω → Type} {ε σ β : Type}

/-- A thread that is done starts on new work, or a thread makes its next call, with an answer ready
for the calls that the rest of the world answers. -/
inductive Event (ι ω : Type) (ρ : ω → Type) (ε β : Type) where
  | start (i : ι) (work : β)
  | run (i : ι) (answers : (op : ω) → Except ε (ρ op))

section Step

variable [DecidableEq ι] (act : ι → (op : ω) → Except ε (ρ op) → σ → Except ε (ρ op) × σ)
  (program : ι → β → Script ω ρ ε Unit)

def step (p : Pool ι ω ρ ε σ) : Event ι ω ρ ε β → Pool ι ω ρ ε σ
  | .start i work => match p.threads i with
    | .done _ => { p with threads := Function.update p.threads i (program i work) }
    | .call _ _ => p
  | .run i answers => match p.threads i with
    | .done _ => p
    | .call op next =>
      let outcome := act i op (answers op) p.shared
      { threads := Function.update p.threads i (next outcome.1), shared := outcome.2 }

def Makes (p : Pool ι ω ρ ε σ) (event : Event ι ω ρ ε β) (i : ι) (op : ω) (answer : Except ε (ρ op)) : Prop :=
  ∃ answers next, event = .run i answers ∧ p.threads i = .call op next ∧ answer = answers op

variable {act program}

theorem step_shared (p : Pool ι ω ρ ε σ) (event : Event ι ω ρ ε β) :
    (step act program p event).shared = p.shared ∨ ∃ i op answer, Makes p event i op answer ∧
      (step act program p event).shared = (act i op answer p.shared).2 := by
  cases event with
  | start i work =>
    left
    rw [step]
    split <;> rfl
  | run i answers =>
    rw [step]
    cases hThread : p.threads i with
    | done result => exact .inl rfl
    | call op next => exact .inr ⟨i, op, answers op, ⟨answers, next, rfl, hThread, rfl⟩, rfl⟩

theorem step_makes {p : Pool ι ω ρ ε σ} {event : Event ι ω ρ ε β} {i : ι} {op : ω} {answer : Except ε (ρ op)}
    (h : Makes p event i op answer) :
    (step act program p event).shared = (act i op answer p.shared).2 := by
  obtain ⟨answers, next, rfl, hThread, rfl⟩ := h
  rw [step, hThread]

theorem threads_start_self {p : Pool ι ω ρ ε σ} {i : ι} {work : β} {result : Except ε Unit}
    (h : p.threads i = .done result) : (step act program p (.start i work)).threads i = program i work := by
  rw [step, h]
  exact Function.update_self i (program i work) p.threads

theorem threads_start_of_ne {p : Pool ι ω ρ ε σ} {i j : ι} {work : β} (h : j ≠ i) :
    (step act program p (.start i work)).threads j = p.threads j := by
  rw [step]
  cases p.threads i with
  | done result => exact Function.update_of_ne h (program i work) p.threads
  | call op next => rfl

theorem threads_run_self {p : Pool ι ω ρ ε σ} {i : ι} {answers : (op : ω) → Except ε (ρ op)} {op : ω}
    {next : Except ε (ρ op) → Script ω ρ ε Unit} (h : p.threads i = .call op next) :
    (step act program p (.run i answers)).threads i = next (act i op (answers op) p.shared).1 := by
  rw [step, h]
  exact Function.update_self i (next (act i op (answers op) p.shared).1) p.threads

theorem threads_run_of_ne {p : Pool ι ω ρ ε σ} {i j : ι} {answers : (op : ω) → Except ε (ρ op)} (h : j ≠ i) :
    (step act program p (.run i answers)).threads j = p.threads j := by
  rw [step]
  cases p.threads i with
  | done result => rfl
  | call op next => exact Function.update_of_ne h (next (act i op (answers op) p.shared).1) p.threads

theorem shared_start {p : Pool ι ω ρ ε σ} {i : ι} {work : β} :
    (step act program p (.start i work)).shared = p.shared := by
  rw [step]
  cases p.threads i <;> rfl

theorem step_run_done {p : Pool ι ω ρ ε σ} {i : ι} {answers : (op : ω) → Except ε (ρ op)} {result : Except ε Unit}
    (h : p.threads i = .done result) : step act program p (.run i answers) = p := by
  rw [step, h]

def Confined (P : ι → ω → Prop) (p : Pool ι ω ρ ε σ) : Prop := ∀ i, (p.threads i).Only (P i)

omit [DecidableEq ι] in
theorem Confined.makes {P : ι → ω → Prop} {p : Pool ι ω ρ ε σ} {event : Event ι ω ρ ε β} {i : ι} {op : ω}
    {answer : Except ε (ρ op)} (h : Confined P p) (hMakes : Makes p event i op answer) : P i op := by
  obtain ⟨answers, next, -, hThread, -⟩ := hMakes
  have hOnly := h i
  rw [hThread] at hOnly
  exact hOnly.1

theorem Confined.step {P : ι → ω → Prop} {p : Pool ι ω ρ ε σ} {event : Event ι ω ρ ε β} (h : Confined P p)
    (hStart : ∀ i work, event = .start i work → (program i work).Only (P i)) :
    Confined P (step act program p event) := by
  intro j
  cases event with
  | start i work =>
    by_cases hj : j = i
    · subst hj
      cases hThread : p.threads j with
      | done result =>
        rw [threads_start_self hThread]
        exact hStart j work rfl
      | call op next =>
        rw [Pool.step, hThread]
        exact h j
    · rw [threads_start_of_ne hj]
      exact h j
  | run i answers =>
    by_cases hj : j = i
    · subst hj
      have hOnly := h j
      rw [Pool.step]
      cases hThread : p.threads j with
      | done result => exact h j
      | call op next =>
        rw [hThread] at hOnly
        change (Function.update p.threads j (next (act j op (answers op) p.shared).1) j).Only (P j)
        rw [Function.update_self]
        exact hOnly.2 _
    · rw [threads_run_of_ne hj]
      exact h j

variable (c : Contract ι ω ρ ε σ)

/-- Each thread that starts and each call that is made is one the contract allows. -/
def Admits (mayStart : ι → β → Prop) (p : Pool ι ω ρ ε σ) (event : Event ι ω ρ ε β) : Prop :=
  (∀ i work, event = .start i work → mayStart i work) ∧
    ∀ i op answer, Makes p event i op answer → c.allowed i op answer p.shared

/-- The state is sound, and every thread keeps the contract from here on and ends as `Q` says. -/
def Settled (act : ι → (op : ω) → Except ε (ρ op) → σ → Except ε (ρ op) × σ) (Q : ι → σ → Prop)
    (p : Pool ι ω ρ ε σ) : Prop :=
  c.inv p.shared ∧ ∀ i, (p.threads i).Safe act c i (fun _ => Q i) p.shared

def Healthy (act : ι → (op : ω) → Except ε (ρ op) → σ → Except ε (ρ op) × σ) (p : Pool ι ω ρ ε σ) : Prop :=
  c.inv p.shared ∧ ∀ i, (p.threads i).Safe act c i (fun _ _ => True) p.shared

variable {c} {mayStart : ι → β → Prop} {Q : ι → σ → Prop}

omit [DecidableEq ι] in
theorem Settled.done {p : Pool ι ω ρ ε σ} (h : Settled c act Q p) {i : ι} {result : Except ε Unit}
    (hDone : p.threads i = .done result) : Q i p.shared := by
  have hSafe := h.2 i
  rw [hDone] at hSafe
  exact hSafe p.shared (c.rely_refl i p.shared) h.1

theorem Settled.step {p : Pool ι ω ρ ε σ} {event : Event ι ω ρ ε β} (h : Settled c act Q p)
    (hStart : ∀ i work s, mayStart i work → c.inv s → Q i s →
      (program i work).Safe act c i (fun _ => Q i) s)
    (hAdmits : Admits c mayStart p event) : Settled c act Q (step act program p event) := by
  have hDone : ∀ {i result}, p.threads i = .done result → Q i p.shared := h.done
  obtain ⟨hInv, hThreads⟩ := h
  cases event with
  | start i work =>
    rw [Pool.step]
    cases hThread : p.threads i with
    | call op next => exact ⟨hInv, hThreads⟩
    | done result =>
      refine ⟨hInv, fun j => ?_⟩
      by_cases hj : j = i
      · subst hj
        change (Function.update p.threads j (program j work) j).Safe act c j (fun _ => Q j) p.shared
        rw [Function.update_self]
        exact hStart j work p.shared (hAdmits.1 j work rfl) hInv (hDone hThread)
      · change (Function.update p.threads i (program i work) j).Safe act c j (fun _ => Q j) p.shared
        rw [Function.update_of_ne hj]
        exact hThreads j
  | run i answers =>
    rw [Pool.step]
    cases hThread : p.threads i with
    | done result => exact ⟨hInv, hThreads⟩
    | call op next =>
      have hCall := hThreads i
      rw [hThread] at hCall
      obtain ⟨hInv', hGuarantee, hNext⟩ := hCall p.shared (c.rely_refl i _) hInv (answers op)
        (hAdmits.2 i op (answers op) ⟨answers, next, rfl, hThread, rfl⟩)
      refine ⟨hInv', fun j => ?_⟩
      by_cases hj : j = i
      · subst hj
        change (Function.update p.threads j _ j).Safe act c j (fun _ => Q j) _
        rw [Function.update_self]
        exact hNext
      · change (Function.update p.threads i _ j).Safe act c j (fun _ => Q j) _
        rw [Function.update_of_ne hj]
        exact (hThreads j).later (c.compatible hj hInv hInv' hGuarantee)

/-- A run from idle threads settles them, when every step of it is admitted. -/
theorem settled_of_run {s : σ} {events : List (Event ι ω ρ ε β)} (hInv : c.inv s)
    (hIdle : ∀ i t, c.rely i s t → c.inv t → Q i t)
    (hStart : ∀ i work s, mayStart i work → c.inv s → Q i s →
      (program i work).Safe act c i (fun _ => Q i) s)
    (hRun : Guarded (Pool.step act program) (Admits c mayStart) ⟨fun _ => .done (.ok ()), s⟩ events) :
    Settled c act Q (after (Pool.step act program) ⟨fun _ => .done (.ok ()), s⟩ events) :=
  invariant (Pool.step act program) (Settled c act Q) ⟨hInv, hIdle⟩
    (fun _ _ hSettled hAdmits => hSettled.step hStart hAdmits) hRun

theorem Healthy.step {p : Pool ι ω ρ ε σ} {event : Event ι ω ρ ε β} (h : Healthy c act p)
    (hStart : ∀ i work s, mayStart i work → c.inv s →
      (program i work).Safe act c i (fun _ _ => True) s)
    (hAdmits : Admits c mayStart p event) : Healthy c act (step act program p event) := by
  have hSettled : Settled c act (fun _ _ => True) p := h
  exact hSettled.step (fun i work s hMay hInv _ => hStart i work s hMay hInv) hAdmits

theorem Healthy.guarantee {p : Pool ι ω ρ ε σ} {event : Event ι ω ρ ε β} (h : Healthy c act p)
    (hAdmits : Admits c mayStart p event) {i : ι} {op : ω} {answer : Except ε (ρ op)}
    (hMakes : Makes p event i op answer) :
    c.guarantee i op p.shared (Pool.step act program p event).shared := by
  rw [step_makes hMakes]
  have hAllowed := hAdmits.2 i op answer hMakes
  obtain ⟨answers, next, rfl, hThread, rfl⟩ := hMakes
  have hCall := h.2 i
  rw [hThread] at hCall
  exact (hCall p.shared (c.rely_refl i _) h.1 (answers op) hAllowed).2.1

/-- A run from idle threads keeps the invariant, when every step of it is admitted. -/
theorem healthy_of_run {s : σ} {events : List (Event ι ω ρ ε β)} (hInv : c.inv s)
    (hStart : ∀ i work s, mayStart i work → c.inv s →
      (program i work).Safe act c i (fun _ _ => True) s)
    (hRun : Guarded (Pool.step act program) (Admits c mayStart) ⟨fun _ => .done (.ok ()), s⟩ events) :
    Healthy c act (after (Pool.step act program) ⟨fun _ => .done (.ok ()), s⟩ events) :=
  invariant (Pool.step act program) (Healthy c act) ⟨hInv, fun _ _ _ _ => trivial⟩
    (fun _ _ hHealthy hAdmits => hHealthy.step hStart hAdmits) hRun

end Step

end Pool

end EdgeGateway
