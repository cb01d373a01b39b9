import Mathlib.Tactic.Common

/-! # Procedures that can stop with an exception

A procedure works on a state and ends with a value or an exception; what it did to
the state before an exception stays done. A triple says what holds at either end.
-/

namespace EdgeGateway

abbrev Procedure (σ ε α : Type) := ExceptT ε (StateM σ) α

namespace Procedure

variable {σ ε α β : Type}

def exec (x : Procedure σ ε α) (s : σ) : Except ε α × σ := x s

@[simp] theorem exec_pure (a : α) (s : σ) : exec (pure a : Procedure σ ε α) s = (.ok a, s) := rfl

@[simp] theorem exec_throw (e : ε) (s : σ) : exec (throw e : Procedure σ ε α) s = (.error e, s) := rfl

@[simp] theorem exec_get (s : σ) : exec (get : Procedure σ ε σ) s = (.ok s, s) := rfl

@[simp] theorem exec_modify (f : σ → σ) (s : σ) : exec (modify f : Procedure σ ε Unit) s = (.ok (), f s) := rfl

theorem exec_bind (x : Procedure σ ε α) (f : α → Procedure σ ε β) (s : σ) :
    exec (x >>= f) s = match exec x s with
      | (.ok a, t) => exec (f a) t
      | (.error e, t) => (.error e, t) := by
  change (match x s with | (r, t) => ExceptT.bindCont f r t) = _
  rw [exec]
  cases x s with
  | mk result t => cases result <;> rfl

theorem exec_tryCatch (x : Procedure σ ε α) (handler : ε → Procedure σ ε α) (s : σ) :
    exec (tryCatch x handler) s = match exec x s with
      | (.ok a, t) => (.ok a, t)
      | (.error e, t) => exec (handler e) t := by
  change (match x s with
    | (r, t) => (match r with
      | .ok a => pure (.ok a)
      | .error e => handler e : StateM σ (Except ε α)) t) = _
  rw [exec]
  cases x s with
  | mk result t => cases result <;> rfl

def require (condition : Bool) (e : ε) : Procedure σ ε Unit := if condition then pure () else throw e

def lift (result : Except ε α) : Procedure σ ε α :=
  match result with
  | .ok a => pure a
  | .error e => throw e

/-- From a state with `P` the procedure returns into `Q` or throws into `E`. -/
def Triple (P : σ → Prop) (x : Procedure σ ε α) (Q : α → σ → Prop) (E : ε → σ → Prop) : Prop :=
  ∀ s, P s → match exec x s with
    | (.ok a, t) => Q a t
    | (.error e, t) => E e t

def Keeps (P : σ → Prop) (x : Procedure σ ε α) : Prop := Triple P x (fun _ => P) fun _ => P

def Runs (P : σ → Prop) (x : Procedure σ ε α) : Prop := Triple P x (fun _ => P) fun _ _ => False

section Rules

variable {P P' : σ → Prop} {Q Q' : α → σ → Prop} {R : β → σ → Prop} {E E' : ε → σ → Prop}

theorem Triple.pure {a : α} (h : ∀ s, P s → Q a s) : Triple P (pure a : Procedure σ ε α) Q E := h

theorem Triple.throw {e : ε} (h : ∀ s, P s → E e s) : Triple P (throw e : Procedure σ ε α) Q E := h

theorem Triple.get {Q : σ → σ → Prop} (h : ∀ s, P s → Q s s) : Triple P (get : Procedure σ ε σ) Q E := h

theorem Triple.modify {f : σ → σ} {Q : Unit → σ → Prop} (h : ∀ s, P s → Q () (f s)) :
    Triple P (modify f : Procedure σ ε Unit) Q E := h

theorem Triple.bind {x : Procedure σ ε α} {f : α → Procedure σ ε β} (hx : Triple P x Q E)
    (hf : ∀ a, Triple (Q a) (f a) R E) : Triple P (x >>= f) R E := by
  intro s hs
  have h := hx s hs
  rw [exec_bind]
  cases hRun : exec x s with
  | mk result t =>
    rw [hRun] at h
    cases result with
    | ok a => exact hf a t h
    | error e => exact h

theorem Triple.tryCatch {x : Procedure σ ε α} {handler : ε → Procedure σ ε α} (hx : Triple P x Q E)
    (hHandler : ∀ e, Triple (E e) (handler e) Q E') : Triple P (tryCatch x handler) Q E' := by
  intro s hs
  have h := hx s hs
  rw [exec_tryCatch]
  cases hRun : exec x s with
  | mk result t =>
    rw [hRun] at h
    cases result with
    | ok a => exact h
    | error e => exact hHandler e t h

theorem Triple.weaken {x : Procedure σ ε α} (h : Triple P x Q E) (hPre : ∀ s, P' s → P s)
    (hOk : ∀ a s, Q a s → Q' a s) (hError : ∀ e s, E e s → E' e s) : Triple P' x Q' E' := by
  intro s hs
  have hx := h s (hPre s hs)
  cases hRun : exec x s with
  | mk result t =>
    rw [hRun] at hx
    cases result with
    | ok a => exact hOk a t hx
    | error e => exact hError e t hx

theorem Triple.require_bind {condition : Bool} {e : ε} {f : Unit → Procedure σ ε β}
    (hOk : condition = true → Triple P (f ()) R E) (hError : ∀ s, P s → E e s) :
    Triple P (require condition e >>= f) R E := by
  cases condition with
  | true => exact hOk rfl
  | false => exact hError

theorem Triple.lift_bind {result : Except ε α} {f : α → Procedure σ ε β}
    (hOk : ∀ a, result = .ok a → Triple P (f a) R E) (hError : ∀ e s, P s → E e s) :
    Triple P (lift result >>= f) R E := by
  cases result with
  | ok a => exact hOk a rfl
  | error e => exact hError e

theorem Triple.require {condition : Bool} {e : ε} {Q : Unit → σ → Prop}
    (hOk : condition = true → ∀ s, P s → Q () s) (hError : ∀ s, P s → E e s) :
    Triple P (require condition e : Procedure σ ε Unit) Q E := by
  cases condition with
  | true => exact hOk rfl
  | false => exact hError

theorem Keeps.require (condition : Bool) (e : ε) : Keeps P (require condition e : Procedure σ ε Unit) := by
  cases condition with
  | true => exact fun _ => id
  | false => exact fun _ => id

theorem Keeps.lift (result : Except ε α) : Keeps P (lift result : Procedure σ ε α) := by
  cases result with
  | ok a => exact fun _ => id
  | error e => exact fun _ => id

theorem Keeps.pure (a : α) : Keeps P (pure a : Procedure σ ε α) := Triple.pure fun _ => id

theorem Keeps.throw (e : ε) : Keeps P (throw e : Procedure σ ε α) := Triple.throw fun _ => id

theorem Keeps.modify {f : σ → σ} (h : ∀ s, P s → P (f s)) : Keeps P (modify f : Procedure σ ε Unit) := Triple.modify h

theorem Keeps.bind {x : Procedure σ ε α} {f : α → Procedure σ ε β} (hx : Keeps P x) (hf : ∀ a, Keeps P (f a)) :
    Keeps P (x >>= f) := Triple.bind hx hf

theorem Keeps.tryCatch {x : Procedure σ ε α} {handler : ε → Procedure σ ε α} (hx : Keeps P x)
    (hHandler : ∀ e, Keeps P (handler e)) : Keeps P (tryCatch x handler) := Triple.tryCatch hx hHandler

theorem Keeps.exec {x : Procedure σ ε α} (h : Keeps P x) {s : σ} (hs : P s) : P (exec x s).2 := by
  have hx := h s hs
  cases hRun : Procedure.exec x s with
  | mk result t =>
    rw [hRun] at hx
    cases result with
    | ok a => exact hx
    | error e => exact hx

theorem Runs.pure (a : α) : Runs P (pure a : Procedure σ ε α) := Triple.pure fun _ => id

theorem Runs.modify {f : σ → σ} (h : ∀ s, P s → P (f s)) : Runs P (modify f : Procedure σ ε Unit) := Triple.modify h

theorem Runs.bind {x : Procedure σ ε α} {f : α → Procedure σ ε β} (hx : Runs P x) (hf : ∀ a, Runs P (f a)) :
    Runs P (x >>= f) := Triple.bind hx hf

theorem Runs.require {condition : Bool} (h : condition = true) (e : ε) :
    Runs P (require condition e : Procedure σ ε Unit) := by
  subst h
  exact fun _ => id

theorem Runs.lift {result : Except ε α} {a : α} (h : result = .ok a) : Runs P (lift result : Procedure σ ε α) := by
  subst h
  exact fun _ => id

theorem Runs.tryCatch {x : Procedure σ ε α} {handler : ε → Procedure σ ε α} (hx : Runs P x) :
    Runs P (tryCatch x handler) := Triple.tryCatch hx fun _ _ hFalse => hFalse.elim

end Rules

end Procedure

end EdgeGateway
