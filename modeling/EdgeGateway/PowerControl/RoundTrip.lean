import EdgeGateway.PowerControl.LeaseText

/-! # The lease file round trip -/

namespace EdgeGateway.PowerControl

open QuotedText

def escapedSize (value : StdString) : Nat := value.length + value.count '\\' + value.count '"'

theorem length_escapeJson (value : StdString) : (escapeJson value).length = escapedSize value := by
  induction value with
  | nil => rfl
  | cons c value ih =>
    have hCons : escapeJson (c :: value) = (if c = '\\' ∨ c = '"' then ['\\', c] else [c]) ++ escapeJson value := rfl
    rw [hCons, List.length_append, ih, escapedSize, escapedSize, List.length_cons, List.count_cons, List.count_cons]
    by_cases hSlash : c = '\\'
    · subst hSlash
      simp
      omega
    · by_cases hQuote : c = '"'
      · subst hQuote
        simp
        omega
      · simp [hSlash, hQuote]
        omega

namespace PowerControlOwnershipState

variable (state : PowerControlOwnershipState)

def writtenSize : Nat :=
  88 + escapedSize state.scope + escapedSize state.owner + escapedSize state.sessionId +
    (intText state.heartbeatAtMs).length + (intText state.expireAtMs).length +
    (indexesText state.targetIndexes).length

theorem length_stateText : (stateText state).length = state.writtenSize := by
  unfold stateText
  simp only [List.length_append, length_escapeJson, writtenSize, String.length_toList]
  change 10 + _ + 11 + _ + 15 + _ + 18 + _ + 14 + _ + 18 + _ + 2 = _
  omega

theorem stateText_ne_nil : stateText state ≠ [] := by
  intro hNil
  have hLength := state.length_stateText
  rw [hNil, writtenSize, List.length_nil] at hLength
  omega

def readAs (targetIndexes : List UInt32) : PowerControlOwnershipState where
  scope := state.scope
  owner := if Shadows "owner".toList state.scope then [] else state.owner
  sessionId :=
    if Shadows "sessionId".toList state.scope ∨ Shadows "sessionId".toList state.owner then [] else state.sessionId
  targetIndexes := targetIndexes
  heartbeatAtMs :=
    if Shadows "heartbeatAtMs".toList state.scope ∨ Shadows "heartbeatAtMs".toList state.owner then 0
    else state.heartbeatAtMs
  expireAtMs :=
    if Shadows "expireAtMs".toList state.scope ∨ Shadows "expireAtMs".toList state.owner then 0
    else if Shadows "expireAtMs".toList state.sessionId then state.heartbeatAtMs
    else state.expireAtMs

def readTargets : Except ParseError (List UInt32) :=
  match state.strayList with
  | some list => readIndexes list
  | none => .ok state.targetIndexes

theorem parseState_stateText (hNow : IsInt64 state.heartbeatAtMs) (hExpire : IsInt64 state.expireAtMs) (t : Int) :
    parseState (stateText state) t = do
      let targetIndexes ← state.readTargets
      return if (state.readAs targetIndexes).owner = [] ∨ (state.readAs targetIndexes).expireAtMs ≤ t then none
        else some (state.readAs targetIndexes) := by
  rw [parseState, if_neg state.stateText_ne_nil, indexArray_stateText, stringField_scope, stringField_owner,
    stringField_sessionId, intField_heartbeatAtMs _ hNow, intField_expireAtMs _ hNow hExpire]
  rfl

/-- No value of the state is in the way of another. -/
structure Legible : Prop where
  size : state.writtenSize ≤ 64 * 1024
  owner : ¬ Shadows "owner".toList state.scope
  sessionId : Shadows "sessionId".toList state.scope ∨ Shadows "sessionId".toList state.owner → state.sessionId = []
  heartbeatAtMs :
    Shadows "heartbeatAtMs".toList state.scope ∨ Shadows "heartbeatAtMs".toList state.owner → state.heartbeatAtMs = 0
  expireAtMs :
    if Shadows "expireAtMs".toList state.scope ∨ Shadows "expireAtMs".toList state.owner then state.expireAtMs = 0
    else ¬ Shadows "expireAtMs".toList state.sessionId
  targetIndexes : ∀ list, state.strayList = some list → readIndexes list = .ok state.targetIndexes

theorem readTargets_of_legible (hLegible : state.Legible) : state.readTargets = .ok state.targetIndexes := by
  unfold readTargets
  cases hStray : state.strayList with
  | some list => exact hLegible.targetIndexes list hStray
  | none => rfl

theorem readAs_of_legible (hLegible : state.Legible) : state.readAs state.targetIndexes = state := by
  have hSession := hLegible.sessionId
  have hHeartbeat := hLegible.heartbeatAtMs
  have hExpire := hLegible.expireAtMs
  obtain ⟨scope, owner, sessionId, targetIndexes, heartbeatAtMs, expireAtMs⟩ := state
  rw [readAs, PowerControlOwnershipState.mk.injEq]
  refine ⟨rfl, if_neg hLegible.owner, ?_, rfl, ?_, ?_⟩
  · split
    · rename_i hShadow
      exact (hSession hShadow).symm
    · rfl
  · split
    · rename_i hShadow
      exact (hHeartbeat hShadow).symm
    · rfl
  · split
    · rename_i hShadow
      rw [if_pos hShadow] at hExpire
      exact hExpire.symm
    · rename_i hClear
      rw [if_neg hClear] at hExpire
      exact if_neg hExpire

theorem legible_of_readAs (hSize : state.writtenSize ≤ 64 * 1024) (hOwner : state.owner ≠ [])
    (hDiffer : state.heartbeatAtMs ≠ state.expireAtMs) (hTargets : state.readTargets = .ok state.targetIndexes)
    (hRead : state.readAs state.targetIndexes = state) : state.Legible where
  size := hSize
  owner := by
    intro hShadow
    have hField := congrArg PowerControlOwnershipState.owner hRead
    rw [readAs, if_pos hShadow] at hField
    exact hOwner hField.symm
  sessionId := by
    intro hShadow
    have hField := congrArg PowerControlOwnershipState.sessionId hRead
    rw [readAs, if_pos hShadow] at hField
    exact hField.symm
  heartbeatAtMs := by
    intro hShadow
    have hField := congrArg PowerControlOwnershipState.heartbeatAtMs hRead
    rw [readAs, if_pos hShadow] at hField
    exact hField.symm
  expireAtMs := by
    have hField := congrArg PowerControlOwnershipState.expireAtMs hRead
    rw [readAs] at hField
    split
    · rename_i hShadow
      rw [if_pos hShadow] at hField
      exact hField.symm
    · rename_i hClear
      intro hSession
      rw [if_neg hClear, if_pos hSession] at hField
      exact hDiffer hField
  targetIndexes := by
    intro list hStray
    rw [readTargets, hStray] at hTargets
    exact hTargets

theorem parseState_of_legible (hLegible : state.Legible) (hNow : IsInt64 state.heartbeatAtMs)
    (hExpire : IsInt64 state.expireAtMs) (t : Int) :
    parseState (readText (some (stateText state))) t =
      .ok (if state.owner = [] ∨ state.expireAtMs ≤ t then none else some state) := by
  have hText : readText (some (stateText state)) = stateText state :=
    if_pos (by rw [length_stateText]; exact hLegible.size)
  rw [hText, parseState_stateText state hNow hExpire, readTargets_of_legible state hLegible]
  change Except.ok _ = _
  rw [readAs_of_legible state hLegible]

theorem legible_of_parseState (hNow : IsInt64 state.heartbeatAtMs) (hExpire : IsInt64 state.expireAtMs)
    (hOwner : state.owner ≠ []) (hDiffer : state.heartbeatAtMs ≠ state.expireAtMs) {t : Int}
    (hRead : parseState (readText (some (stateText state))) t = .ok (some state)) : state.Legible := by
  have hSize : state.writtenSize ≤ 64 * 1024 := by
    rw [← length_stateText]
    by_contra hLarge
    rw [readText, if_neg hLarge] at hRead
    cases hRead
  have hText : readText (some (stateText state)) = stateText state :=
    if_pos (by rw [length_stateText]; exact hSize)
  rw [hText, parseState_stateText state hNow hExpire] at hRead
  cases hTargets : state.readTargets with
  | error error =>
    rw [hTargets] at hRead
    cases hRead
  | ok indexes =>
    rw [hTargets] at hRead
    change Except.ok (if (state.readAs indexes).owner = [] ∨ (state.readAs indexes).expireAtMs ≤ t then none
      else some (state.readAs indexes)) = Except.ok (some state) at hRead
    split at hRead
    · cases hRead
    · have hAs : state.readAs indexes = state := Option.some.inj (Except.ok.inj hRead)
      have hIndexes : indexes = state.targetIndexes := congrArg PowerControlOwnershipState.targetIndexes hAs
      subst hIndexes
      exact state.legible_of_readAs hSize hOwner hDiffer hTargets hAs

end PowerControlOwnershipState

theorem writeState_eq_true {io : Outcome} {file written : Option StdString} {scope owner sessionId : StdString}
    {indexes : List UInt32} {nowMs ttlMs : Int}
    (hWrite : writeState io file scope owner sessionId indexes nowMs ttlMs = (true, written)) :
    written = some (stateText (grantedState scope owner sessionId indexes nowMs ttlMs)) := by
  unfold writeState at hWrite
  split at hWrite
  · cases hWrite
  · split at hWrite
    · cases hWrite
    · exact (Prod.mk.inj hWrite).2.symm

/-- What `writeState` wrote is read back before its expiry exactly when it is legible. -/
theorem parseState_writeState_iff (io : Outcome) (file written : Option StdString) (scope owner sessionId : StdString)
    (indexes : List UInt32) (nowMs ttlMs t : Int) (hOwner : owner ≠ []) (hNow : IsInt64 nowMs)
    (hExpire : IsInt64 (nowMs + max 1 ttlMs)) (ht : t < nowMs + max 1 ttlMs)
    (hWrite : writeState io file scope owner sessionId indexes nowMs ttlMs = (true, written)) :
    parseState (readText written) t = .ok (some (grantedState scope owner sessionId indexes nowMs ttlMs)) ↔
      (grantedState scope owner sessionId indexes nowMs ttlMs).Legible := by
  obtain rfl := writeState_eq_true hWrite
  constructor
  · intro hRead
    apply PowerControlOwnershipState.legible_of_parseState _ hNow hExpire hOwner _ hRead
    have hDelay : (1 : Int) ≤ max 1 ttlMs := le_max_left 1 ttlMs
    change nowMs ≠ nowMs + max 1 ttlMs
    omega
  · intro hLegible
    rw [PowerControlOwnershipState.parseState_of_legible _ hLegible hNow hExpire, if_neg]
    rintro (hNameless | hExpired)
    · exact hOwner hNameless
    · exact absurd hExpired (not_le.mpr ht)

theorem legible_session_lease :
    (grantedState "ess".toList "agc".toList "s1".toList [7, 12] 1000 5000).Legible where
  size := by decide
  owner := by decide
  sessionId := fun hShadow => absurd hShadow (by decide)
  heartbeatAtMs := fun hShadow => absurd hShadow (by decide)
  expireAtMs := by decide
  targetIndexes := by
    intro list hStray
    cases hStray

theorem session_lease_read_back :
    parseState (readText (some (stateText (grantedState "ess".toList "agc".toList "s1".toList [7, 12] 1000 5000))))
      2000 = .ok (some (grantedState "ess".toList "agc".toList "s1".toList [7, 12] 1000 5000)) :=
  (parseState_writeState_iff ⟨true, true, true, true, true⟩ none _ "ess".toList "agc".toList "s1".toList [7, 12]
    1000 5000 2000 (by decide) (by decide) (by decide) (by decide) rfl).mpr legible_session_lease

/-- A scope that reads like the key of the owner leaves a lease without an owner. -/
theorem scope_hides_owner :
    "agc".toList ≠ [] ∧ IsInt64 1000 ∧ IsInt64 (1000 + max 1 5000) ∧ (2000 : Int) < 1000 + max 1 5000 ∧
      ∃ written, writeState ⟨true, true, true, true, true⟩ none "owner".toList "agc".toList "s1".toList [7, 12] 1000
          5000 = (true, written) ∧
        parseState (readText written) 2000 ≠
          .ok (some (grantedState "owner".toList "agc".toList "s1".toList [7, 12] 1000 5000)) := by
  refine ⟨by decide, by decide, by decide, by decide, _, rfl, ?_⟩
  intro hRead
  have hLegible := PowerControlOwnershipState.legible_of_parseState _ (by decide) (by decide) (by decide) (by decide) hRead
  exact hLegible.owner (by decide)

end EdgeGateway.PowerControl
