import EdgeGateway.Foundation.Run
import EdgeGateway.PowerControl.RoundTrip

/-! # One power controller at a time -/

namespace EdgeGateway.PowerControl

structure Contender where
  owner : StdString
  sessionId : StdString
deriving DecidableEq, Repr

inductive Call where
  | acquire (scope sessionId : StdString) (targetIndexes : List UInt32) (nowMs ttlMs : Int)
  | renew (sessionId : StdString) (nowMs ttlMs : Int)
  | release (sessionId : StdString)
deriving DecidableEq, Repr

/-- A call under the lock, by the handle of one owner. -/
structure Event where
  owner : StdString
  io : Outcome
  call : Call
deriving DecidableEq, Repr

structure LeaseSystem where
  file : Option StdString
  written : Option (Contender × Int)
  granted : Contender → Option Int
  now : Int

namespace LeaseSystem

def start (file : Option StdString) (now : Int) : LeaseSystem where
  file := file
  written := none
  granted := fun _ => none
  now := now

def afterAsk (s : LeaseSystem) (answer : Except ParseError Bool × Option StdString) (asker : Contender)
    (nowMs ttlMs : Int) : LeaseSystem :=
  if answer.1 = .ok true then
    { file := answer.2
      written := some (asker, nowMs + max 1 ttlMs)
      granted := Function.update s.granted asker (some (nowMs + max 1 ttlMs))
      now := nowMs }
  else { s with file := answer.2, now := nowMs }

/-- The grants of the owner end only if the file is gone. -/
def afterRelease (s : LeaseSystem) (file : Option StdString) (owner sessionId : StdString) : LeaseSystem :=
  if file = none then
    { s with
      file := none
      written := none
      granted := fun pair =>
        if pair.owner = owner ∧ (sessionId = [] ∨ pair.sessionId = sessionId) then none else s.granted pair }
  else { s with file := file }

def step (path : StdString) (s : LeaseSystem) (event : Event) : LeaseSystem :=
  match event.call with
  | .acquire scope sessionId targetIndexes nowMs ttlMs =>
    s.afterAsk (PowerControlOwnership.acquire ⟨path, event.owner⟩ event.io s.file scope sessionId targetIndexes nowMs
      ttlMs) ⟨event.owner, sessionId⟩ nowMs ttlMs
  | .renew sessionId nowMs ttlMs =>
    s.afterAsk (PowerControlOwnership.renew ⟨path, event.owner⟩ event.io s.file sessionId nowMs ttlMs)
      ⟨event.owner, sessionId⟩ nowMs ttlMs
  | .release sessionId =>
    s.afterRelease (PowerControlOwnership.release ⟨path, event.owner⟩ event.io s.file sessionId).2 event.owner sessionId

def ClockKept (s : LeaseSystem) (event : Event) : Prop :=
  match event.call with
  | .acquire _ _ _ nowMs _ => s.now ≤ nowMs
  | .renew _ nowMs _ => s.now ≤ nowMs
  | .release _ => True

/-- A lease file that some call wrote is read back with its owner, session and expiry. -/
def ReadsBack (s : LeaseSystem) : Prop :=
  ∀ pair expireAtMs, s.written = some (pair, expireAtMs) → ∀ t,
    (expireAtMs ≤ t → parseState (readText s.file) t = .ok none) ∧
      (t < expireAtMs → ∃ state, parseState (readText s.file) t = .ok (some state) ∧
        Contender.mk state.owner state.sessionId = pair)

def Grants (path : StdString) (s : LeaseSystem) (event : Event) (asker : Contender) (nowMs : Int) : Prop :=
  match event.call with
  | .acquire scope sessionId targetIndexes now ttlMs =>
    (PowerControlOwnership.acquire ⟨path, event.owner⟩ event.io s.file scope sessionId targetIndexes now ttlMs).1 =
      .ok true ∧ asker = ⟨event.owner, sessionId⟩ ∧ nowMs = now
  | .renew sessionId now ttlMs =>
    (PowerControlOwnership.renew ⟨path, event.owner⟩ event.io s.file sessionId now ttlMs).1 = .ok true ∧
      asker = ⟨event.owner, sessionId⟩ ∧ nowMs = now
  | .release _ => False

/-- From the last call on, no two contenders count on an unexpired lease. -/
def Exclusive (s : LeaseSystem) : Prop :=
  ∀ t, s.now ≤ t → ∀ pair other expireAtMs otherExpireAtMs,
    s.granted pair = some expireAtMs → t < expireAtMs →
    s.granted other = some otherExpireAtMs → t < otherExpireAtMs → pair = other

def Accounted (s : LeaseSystem) : Prop :=
  ∀ pair expireAtMs, s.granted pair = some expireAtMs → s.now < expireAtMs → s.written = some (pair, expireAtMs)

theorem exclusive_of_accounted {s : LeaseSystem} (h : s.Accounted) : s.Exclusive := by
  intro t ht pair other expireAtMs otherExpireAtMs hPair hLeft hOther hRight
  have hWritten := h pair expireAtMs hPair (lt_of_le_of_lt ht hLeft)
  rw [h other otherExpireAtMs hOther (lt_of_le_of_lt ht hRight)] at hWritten
  exact (Prod.mk.inj (Option.some.inj hWritten)).1.symm

end LeaseSystem

section Answers

variable {self : PowerControlOwnership} {io : Outcome} {file : Option StdString} {scope sessionId : StdString}
  {targetIndexes : List UInt32} {nowMs ttlMs : Int}

theorem acquire_true (hPath : self.path ≠ [])
    (h : (self.acquire io file scope sessionId targetIndexes nowMs ttlMs).1 = .ok true) :
    ∃ current, parseState (readText file) nowMs = .ok current ∧
      ∀ state, current = some state → state.owner = self.owner ∧ state.sessionId = sessionId := by
  have hEnabled : self.enabled = true := by simpa [PowerControlOwnership.enabled] using hPath
  unfold PowerControlOwnership.acquire at h
  rw [hEnabled] at h
  cases hLocked : io.locked with
  | false =>
    rw [hLocked] at h
    cases h
  | true =>
    rw [hLocked] at h
    cases hParse : parseState (readText file) nowMs with
    | error error =>
      rw [hParse] at h
      cases h
    | ok current =>
      refine ⟨current, rfl, ?_⟩
      rintro state rfl
      rw [hParse] at h
      by_contra hSame
      have hOther : ¬ state.owner = self.owner ∨ ¬ state.sessionId = sessionId := not_and_or.mp hSame
      simp [hOther] at h

theorem acquire_of_free (hPath : self.path ≠ []) (hIo : io = ⟨true, true, true, true, true⟩)
    (hFree : parseState (readText file) nowMs = .ok none) :
    self.acquire io file scope sessionId targetIndexes nowMs ttlMs =
      (.ok true, some (stateText (grantedState scope self.owner sessionId targetIndexes nowMs ttlMs))) := by
  have hEnabled : self.enabled = true := by simpa [PowerControlOwnership.enabled] using hPath
  subst hIo
  unfold PowerControlOwnership.acquire
  rw [hEnabled, hFree]
  rfl

theorem renew_true (hPath : self.path ≠ []) (h : (self.renew io file sessionId nowMs ttlMs).1 = .ok true) :
    ∃ state, parseState (readText file) nowMs = .ok (some state) ∧
      state.owner = self.owner ∧ state.sessionId = sessionId := by
  have hEnabled : self.enabled = true := by simpa [PowerControlOwnership.enabled] using hPath
  unfold PowerControlOwnership.renew at h
  rw [hEnabled] at h
  cases hLocked : io.locked with
  | false =>
    rw [hLocked] at h
    cases h
  | true =>
    rw [hLocked] at h
    rcases hParse : parseState (readText file) nowMs with error | _ | state
    · rw [hParse] at h
      cases h
    · rw [hParse] at h
      cases h
    · rw [hParse] at h
      refine ⟨state, rfl, ?_⟩
      by_contra hSame
      simp [hSame] at h

theorem release_removes (hPath : self.path ≠ []) {text : StdString}
    (h : (self.release io (some text) sessionId).2 = none) :
    ∃ state, parseState (readText (some text)) 0 = .ok (some state) ∧ state.owner = self.owner ∧
      (sessionId = [] ∨ state.sessionId = sessionId) := by
  have hEnabled : self.enabled = true := by simpa [PowerControlOwnership.enabled] using hPath
  unfold PowerControlOwnership.release at h
  rw [hEnabled] at h
  cases hLocked : io.locked with
  | false =>
    rw [hLocked] at h
    cases h
  | true =>
    rw [hLocked] at h
    rcases hParse : parseState (readText (some text)) 0 with error | _ | state
    · rw [hParse] at h
      cases h
    · rw [hParse] at h
      cases h
    · rw [hParse] at h
      refine ⟨state, rfl, ?_⟩
      by_contra hOther
      simp [hOther] at h

end Answers

namespace LeaseSystem

variable {path : StdString} {s : LeaseSystem}

theorem rivals_expired {asker : Contender} {nowMs : Int} {current : Option PowerControlOwnershipState}
    (hAccounted : s.Accounted) (hReads : s.ReadsBack) (hClock : s.now ≤ nowMs)
    (hParse : parseState (readText s.file) nowMs = .ok current)
    (hOwn : ∀ state, current = some state → Contender.mk state.owner state.sessionId = asker) :
    ∀ other, other ≠ asker → ∀ expireAtMs, s.granted other = some expireAtMs → expireAtMs ≤ nowMs := by
  intro other hOther expireAtMs hGranted
  by_contra hAhead
  rw [not_le] at hAhead
  have hWritten := hAccounted other expireAtMs hGranted (lt_of_le_of_lt hClock hAhead)
  obtain ⟨state, hState, hPair⟩ := (hReads other expireAtMs hWritten nowMs).2 hAhead
  rw [hParse] at hState
  exact hOther (hPair.symm.trans (hOwn state (Except.ok.inj hState)))

theorem rivals_expired_of_grants {event : Event} {asker : Contender} {nowMs : Int} (hPath : path ≠ [])
    (hAccounted : s.Accounted) (hReads : s.ReadsBack) (hClock : s.ClockKept event)
    (hGrants : s.Grants path event asker nowMs) :
    ∀ other, other ≠ asker → ∀ expireAtMs, s.granted other = some expireAtMs → expireAtMs ≤ nowMs := by
  obtain ⟨owner, io, call⟩ := event
  cases call with
  | acquire scope sessionId targetIndexes now ttlMs =>
    obtain ⟨hTrue, rfl, rfl⟩ := hGrants
    obtain ⟨current, hParse, hOwn⟩ := acquire_true hPath hTrue
    apply rivals_expired hAccounted hReads hClock hParse
    intro state hState
    obtain ⟨hOwner, hSession⟩ := hOwn state hState
    rw [hOwner, hSession]
  | renew sessionId now ttlMs =>
    obtain ⟨hTrue, rfl, rfl⟩ := hGrants
    obtain ⟨current, hParse, hOwner, hSession⟩ := renew_true hPath hTrue
    apply rivals_expired hAccounted hReads hClock hParse
    rintro state hState
    obtain rfl := Option.some.inj hState
    rw [hOwner, hSession]
  | release sessionId => exact hGrants.elim

theorem accounted_afterAsk {answer : Except ParseError Bool × Option StdString} {asker : Contender}
    {nowMs ttlMs : Int} (hAccounted : s.Accounted) (hClock : s.now ≤ nowMs)
    (hRivals : answer.1 = .ok true →
      ∀ other, other ≠ asker → ∀ expireAtMs, s.granted other = some expireAtMs → expireAtMs ≤ nowMs) :
    (s.afterAsk answer asker nowMs ttlMs).Accounted := by
  intro pair expireAtMs hGranted hAhead
  unfold afterAsk at hGranted hAhead ⊢
  split at hGranted
  · rename_i hTrue
    rw [if_pos hTrue] at hAhead ⊢
    dsimp only at hGranted ⊢
    by_cases hPair : pair = asker
    · subst hPair
      rw [Function.update_self] at hGranted
      rw [Option.some.inj hGranted]
    · rw [Function.update_of_ne hPair] at hGranted
      exact absurd (hRivals hTrue pair hPair expireAtMs hGranted) (not_le.mpr hAhead)
  · rename_i hFalse
    rw [if_neg hFalse] at hAhead ⊢
    exact hAccounted pair expireAtMs hGranted (lt_of_le_of_lt hClock hAhead)

theorem accounted_afterRelease {owner sessionId : StdString} {io : Outcome} (hPath : path ≠ [])
    (hAccounted : s.Accounted) (hReads : s.ReadsBack) :
    (s.afterRelease (PowerControlOwnership.release ⟨path, owner⟩ io s.file sessionId).2 owner sessionId).Accounted := by
  intro pair expireAtMs hGranted hAhead
  unfold afterRelease at hGranted hAhead ⊢
  split at hGranted
  · rename_i hGone
    exfalso
    rw [if_pos hGone] at hAhead
    dsimp only at hGranted
    split at hGranted
    · cases hGranted
    · rename_i hForeign
      have hWritten := hAccounted pair expireAtMs hGranted hAhead
      cases hFile : s.file with
      | none =>
        obtain ⟨state, hState, -⟩ := (hReads pair expireAtMs hWritten (expireAtMs - 1)).2 (by omega)
        rw [hFile] at hState
        cases hState
      | some text =>
        rw [hFile] at hGone
        obtain ⟨state, hState, hOwner, hSession⟩ := release_removes hPath hGone
        rw [← hFile] at hState
        obtain hExpired | hValid := le_or_gt expireAtMs 0
        · rw [(hReads pair expireAtMs hWritten 0).1 hExpired] at hState
          cases hState
        · obtain ⟨found, hFound, rfl⟩ := (hReads pair expireAtMs hWritten 0).2 hValid
          rw [hState] at hFound
          obtain rfl := Option.some.inj (Except.ok.inj hFound)
          exact hForeign ⟨hOwner, hSession⟩
  · rename_i hKept
    rw [if_neg hKept] at hAhead ⊢
    exact hAccounted pair expireAtMs hGranted hAhead

theorem accounted_step {event : Event} (hPath : path ≠ []) (hAccounted : s.Accounted) (hReads : s.ReadsBack)
    (hClock : s.ClockKept event) : (s.step path event).Accounted := by
  have hRivals := @rivals_expired_of_grants path s event
  obtain ⟨owner, io, call⟩ := event
  cases call with
  | acquire scope sessionId targetIndexes nowMs ttlMs =>
    exact accounted_afterAsk hAccounted hClock fun hTrue =>
      hRivals hPath hAccounted hReads hClock ⟨hTrue, rfl, rfl⟩
  | renew sessionId nowMs ttlMs =>
    exact accounted_afterAsk hAccounted hClock fun hTrue =>
      hRivals hPath hAccounted hReads hClock ⟨hTrue, rfl, rfl⟩
  | release sessionId => exact accounted_afterRelease hPath hAccounted hReads

theorem readsBack_of_legible {state : PowerControlOwnershipState} (hLegible : state.Legible)
    (hNow : QuotedText.IsInt64 state.heartbeatAtMs) (hExpire : QuotedText.IsInt64 state.expireAtMs) (hOwner : state.owner ≠ [])
    (hFile : s.file = some (stateText state))
    (hWritten : s.written = some (⟨state.owner, state.sessionId⟩, state.expireAtMs)) : s.ReadsBack := by
  intro pair expireAtMs hPair t
  rw [hWritten] at hPair
  obtain ⟨rfl, rfl⟩ := Prod.mk.inj (Option.some.inj hPair)
  rw [hFile, state.parseState_of_legible hLegible hNow hExpire t]
  constructor
  · intro hExpired
    rw [if_pos (.inr hExpired)]
  · intro hAhead
    refine ⟨state, ?_, rfl⟩
    rw [if_neg (not_or.mpr ⟨hOwner, not_le.mpr hAhead⟩)]

theorem step_acquire_of_free {owner scope sessionId : StdString} {targetIndexes : List UInt32} {nowMs ttlMs : Int}
    (hPath : path ≠ []) (hFree : parseState (readText s.file) nowMs = .ok none) :
    ∃ granted, s.step path ⟨owner, ⟨true, true, true, true, true⟩, .acquire scope sessionId targetIndexes nowMs ttlMs⟩ =
      { file := some (stateText (grantedState scope owner sessionId targetIndexes nowMs ttlMs))
        written := some (⟨owner, sessionId⟩, nowMs + max 1 ttlMs)
        granted := granted
        now := nowMs } := by
  have hAnswer := @acquire_of_free ⟨path, owner⟩ _ s.file scope sessionId targetIndexes nowMs ttlMs hPath rfl hFree
  refine ⟨Function.update s.granted ⟨owner, sessionId⟩ (some (nowMs + max 1 ttlMs)), ?_⟩
  change s.afterAsk (PowerControlOwnership.acquire ⟨path, owner⟩ _ s.file scope sessionId targetIndexes nowMs ttlMs)
    ⟨owner, sessionId⟩ nowMs ttlMs = _
  rw [hAnswer, afterAsk, if_pos rfl]

theorem accounted_start (file : Option StdString) (now : Int) : (start file now).Accounted := by
  intro pair expireAtMs hGranted
  cases hGranted

end LeaseSystem

/-- At most one contender counts on an unexpired lease, and whoever is told `true` has no rival left. -/
theorem LeaseSystem.exclusive_throughout (path : StdString) (hPath : path ≠ []) (file : Option StdString) (now : Int)
    (events : List Event)
    (hClock : Run.Guarded (LeaseSystem.step path) LeaseSystem.ClockKept (LeaseSystem.start file now) events)
    (hReads : ∀ done, done <+: events → (Run.after (LeaseSystem.step path) (LeaseSystem.start file now) done).ReadsBack) :
    (∀ done, done <+: events → (Run.after (LeaseSystem.step path) (LeaseSystem.start file now) done).Exclusive) ∧
      ∀ done event, done ++ [event] <+: events → ∀ asker nowMs,
        (Run.after (LeaseSystem.step path) (LeaseSystem.start file now) done).Grants path event asker nowMs →
        ∀ other, other ≠ asker → ∀ expireAtMs,
          (Run.after (LeaseSystem.step path) (LeaseSystem.start file now) done).granted other = some expireAtMs →
          expireAtMs ≤ nowMs := by
  have hAccounted := Run.invariant_along (LeaseSystem.step path) LeaseSystem.Accounted
    (LeaseSystem.accounted_start file now) fun done event hDone hInv =>
      LeaseSystem.accounted_step hPath hInv (hReads done ((List.prefix_append done [event]).trans hDone))
        (hClock done event hDone)
  constructor
  · intro done hDone
    exact LeaseSystem.exclusive_of_accounted (hAccounted done hDone)
  · intro done event hDone asker nowMs hGrants
    have hBefore := (List.prefix_append done [event]).trans hDone
    exact LeaseSystem.rivals_expired_of_grants hPath (hAccounted done hBefore) (hReads done hBefore)
      (hClock done event hDone) hGrants

theorem legible_next_lease : (grantedState "ess".toList "avc".toList "s2".toList [7] 6000 3000).Legible where
  size := by decide
  owner := by decide
  sessionId := fun hShadow => absurd hShadow (by decide)
  heartbeatAtMs := fun hShadow => absurd hShadow (by decide)
  expireAtMs := by decide
  targetIndexes := by
    intro list hStray
    cases hStray

def handover : List Event :=
  [⟨"agc".toList, ⟨true, true, true, true, true⟩, .acquire "ess".toList "s1".toList [7, 12] 1000 5000⟩,
    ⟨"avc".toList, ⟨true, true, true, true, true⟩, .acquire "ess".toList "s2".toList [7] 6000 3000⟩]

theorem exclusive_in_handover :
    (Run.after (LeaseSystem.step "lease".toList) (LeaseSystem.start none 0) handover).Exclusive := by
  have hPath : "lease".toList ≠ [] := by decide
  obtain ⟨told, hFirst⟩ := @LeaseSystem.step_acquire_of_free "lease".toList (LeaseSystem.start none 0) "agc".toList
    "ess".toList "s1".toList [7, 12] 1000 5000 hPath rfl
  have hExpired : parseState (readText (some (stateText
      (grantedState "ess".toList "agc".toList "s1".toList [7, 12] 1000 5000)))) 6000 = .ok none := by
    rw [PowerControlOwnershipState.parseState_of_legible _ legible_session_lease (by decide) (by decide), if_pos]
    exact .inr (by decide)
  obtain ⟨toldNext, hSecond⟩ := @LeaseSystem.step_acquire_of_free "lease".toList
    ⟨some (stateText (grantedState "ess".toList "agc".toList "s1".toList [7, 12] 1000 5000)),
      some (⟨"agc".toList, "s1".toList⟩, 1000 + max 1 5000), told, 1000⟩ "avc".toList "ess".toList "s2".toList [7]
    6000 3000 hPath hExpired
  refine (LeaseSystem.exclusive_throughout _ hPath none 0 handover ?_ ?_).1 handover (List.prefix_refl _)
  · rw [handover, Run.guarded_cons, hFirst, Run.guarded_cons]
    have hClock : (0 : Int) ≤ 1000 := by decide
    have hNext : (1000 : Int) ≤ 6000 := by decide
    exact ⟨hClock, hNext, Run.guarded_nil _ _ _⟩
  · intro done hDone
    obtain rfl | ⟨rest, rfl, hRest⟩ := List.prefix_cons_iff.mp hDone
    · intro pair expireAtMs hWritten
      cases hWritten
    · rw [Run.after_cons, hFirst]
      obtain rfl | ⟨last, rfl, hLast⟩ := List.prefix_cons_iff.mp hRest
      · exact LeaseSystem.readsBack_of_legible legible_session_lease (by decide) (by decide) (by decide) rfl rfl
      · obtain rfl := List.prefix_nil.mp hLast
        rw [Run.after_cons, hSecond]
        exact LeaseSystem.readsBack_of_legible legible_next_lease (by decide) (by decide) (by decide) rfl rfl

end EdgeGateway.PowerControl
