import EdgeGateway.PointStore.System
import EdgeGateway.Router.PointStoreRouter

/-! # What the ownership gate stops -/

namespace EdgeGateway.Router

open PointStore PowerControl

namespace PointStoreRouter

variable (router : PointStoreRouter) (io : Outcome) (file : Option StdString) (segments : Segments)
  (command : PendingWriteCommand)

def OwnedByOther (t : Int) : Prop :=
  router.powerControlOwnership ≠ none ∧
    ∃ state, parseState (readText file) t = .ok (some state) ∧ state.owner ≠ command.source ∧
      command.index ∈ state.targetIndexes

/-- Accepted only if the target is free, and the gate takes nothing else away. -/
def GateHolds : Prop :=
  (router.OwnedByOther file command command.acceptedAt →
    ∀ result after, router.submitWriteCommand io file segments command = .ok (result, after) →
      result.accepted = false) ∧
  (¬ router.OwnedByOther file command command.acceptedAt →
    router.submitWriteCommand io file segments command = router.ungated.submitWriteCommand io file segments command)

def Admits (route : PointStoreRoute) : Prop :=
  route.writable = true ∧ command.index ≠ 0 ∧
    ∃ store, router.storeForRoute route = some store ∧
      (segments route.sharedMemoryName).pendingWrites.count < store.opening.maxPendingWrites

structure TimesAgree (route : PointStoreRoute) : Prop where
  parsed : io.locked = true → router.powerControlOwnership ≠ none →
    ∀ error, parseState (readText file) (commandTime command) ≠ .error error
  stopped : router.OwnedByOther file command command.acceptedAt → router.Admits segments command route →
    io.locked = true ∧ router.OwnedByOther file command (commandTime command)
  passed : io.locked = true → router.OwnedByOther file command (commandTime command) →
    router.OwnedByOther file command command.acceptedAt

end PointStoreRouter

section Gate

variable {router : PointStoreRouter} {io : Outcome} {file : Option StdString} {segments : Segments}
  {command : PendingWriteCommand} {route : PointStoreRoute}

theorem submitToStore_accepted :
    (router.submitToStore segments route command).1.accepted = true ↔ router.Admits segments command route := by
  unfold PointStoreRouter.submitToStore PointStoreRouter.Admits
  cases hWritable : route.writable with
  | false => simp
  | true =>
    cases hStore : router.storeForRoute route with
    | none => simp
    | some store =>
      have hSubmit : store.submitWriteCommand (segments route.sharedMemoryName) command =
          if command.index = 0 then .error .pendingWriteIndexZero
          else if (segments route.sharedMemoryName).pendingWrites.count ≥ store.opening.maxPendingWrites then
            .error .pendingWriteQueueFull
          else _ := rfl
      simp only [Bool.not_true, Bool.false_eq_true, if_false, hSubmit]
      obtain hZero | hIndex := eq_or_ne command.index 0
      · simp [hZero]
      · rcases Nat.lt_or_ge (segments route.sharedMemoryName).pendingWrites.count store.opening.maxPendingWrites
          with hRoom | hFull
        · simp [hIndex, hRoom, Nat.not_le.mpr hRoom]
        · simp [hIndex, hFull, Nat.not_lt.mpr hFull]

theorem submitToStore_message :
    (router.submitToStore segments route command).1.message ≠
      "power control target is owned by another controller".toList := by
  have hWhat : ∀ error : StoreError,
      error.what.toList ≠ "power control target is owned by another controller".toList := by
    intro error
    cases error <;> decide
  unfold PointStoreRouter.submitToStore
  split
  · change "point write is disabled".toList ≠ _
    decide
  · split
    · intro hMessage
      exact absurd (congrArg List.head? hMessage) (by simp)
    · split
      · exact hWhat _
      · change "write command routed".toList ≠ _
        decide

theorem submitWriteCommand_ungated (hRoute : router.routes command.index = some route) :
    router.ungated.submitWriteCommand io file segments command = .ok (router.submitToStore segments route command) := by
  unfold PointStoreRouter.submitWriteCommand
  rw [show router.ungated.routeByIndex command.index = some route from hRoute]
  rfl

theorem ownershipBlocks_open (hOpen : router.powerControlOwnership = none ∨ io.locked = false) :
    router.ownershipBlocks io file command = .ok false := by
  unfold PointStoreRouter.ownershipBlocks
  split
  · rfl
  · rename_i ownership hOwnership
    obtain hNone | hLocked := hOpen
    · rw [hNone] at hOwnership
      cases hOwnership
    · split
      · rfl
      · unfold PowerControlOwnership.isBlocked PowerControlOwnership.active
        rw [hLocked]
        cases ownership.enabled <;> rfl

theorem ownershipBlocks_locked (hLow : command.highPriority = false) (hLocked : io.locked = true)
    {ownership : PowerControlOwnership} (hOwnership : router.powerControlOwnership = some ownership) :
    router.ownershipBlocks io file command =
      (parseState (readText file) (PointStoreRouter.commandTime command)).map fun state =>
        state.any fun state => state.owner ≠ command.source && state.targetIndexes.contains command.index := by
  have hEnabled : ownership.enabled = true := by
    simpa [PowerControlOwnership.enabled] using router.path_ne ownership hOwnership
  unfold PointStoreRouter.ownershipBlocks
  rw [hOwnership]
  simp only [hLow, Bool.false_eq_true, if_false, PowerControlOwnership.isBlocked, PowerControlOwnership.active,
    hEnabled, hLocked, Bool.not_true, if_true]
  cases parseState (readText file) (PointStoreRouter.commandTime command) <;> rfl

theorem ownershipBlocks_parsed (hLow : command.highPriority = false) (hLocked : io.locked = true)
    (hOwnership : router.powerControlOwnership ≠ none) {current : Option PowerControlOwnershipState}
    (hParse : parseState (readText file) (PointStoreRouter.commandTime command) = .ok current) :
    ∃ blocked, router.ownershipBlocks io file command = .ok blocked ∧
      (blocked = true ↔ router.OwnedByOther file command (PointStoreRouter.commandTime command)) := by
  obtain ⟨ownership, hSome⟩ := Option.ne_none_iff_exists'.mp hOwnership
  refine ⟨_, (ownershipBlocks_locked hLow hLocked hSome).trans (by rw [hParse]; rfl), ?_⟩
  unfold PointStoreRouter.OwnedByOther
  rw [hParse]
  cases current with
  | none => simp
  | some state => simp [hOwnership]

theorem submitWriteCommand_of_blocks (segments : Segments) (hRoute : router.routes command.index = some route) {blocked : Bool}
    (hBlocks : router.ownershipBlocks io file command = .ok blocked) :
    router.submitWriteCommand io file segments command = .ok
      (if blocked then (⟨false, "power control target is owned by another controller".toList, some route⟩, segments)
        else router.submitToStore segments route command) := by
  unfold PointStoreRouter.submitWriteCommand
  rw [show router.routeByIndex command.index = some route from hRoute]
  change (router.ownershipBlocks io file command >>= _) = _
  rw [hBlocks]
  cases blocked <;> rfl

theorem parseState_error {text : StdString} {t : Int} {error : ParseError} (h : parseState text t = .error error)
    (other : Int) : parseState text other = .error error := by
  unfold parseState at h ⊢
  split at h
  · cases h
  · rename_i hText
    rw [if_neg hText]
    cases hIndexes : indexArray text with
    | error e =>
      rw [hIndexes] at h
      exact h
    | ok indexes =>
      rw [hIndexes] at h
      cases h

theorem gateHolds_of_open (hRoute : router.routes command.index = some route)
    (hBlocks : router.ownershipBlocks io file command = .ok false) :
    router.GateHolds io file segments command ↔
      (router.OwnedByOther file command command.acceptedAt → ¬ router.Admits segments command route) := by
  have hSubmit := submitWriteCommand_of_blocks segments hRoute hBlocks
  rw [if_neg (by decide)] at hSubmit
  unfold PointStoreRouter.GateHolds
  rw [hSubmit, submitWriteCommand_ungated hRoute, ← submitToStore_accepted]
  constructor
  · rintro ⟨hStopped, -⟩ hOwned
    have hRejected := hStopped hOwned (router.submitToStore segments route command).1
      (router.submitToStore segments route command).2 rfl
    rw [hRejected]
    decide
  · intro hStopped
    refine ⟨?_, fun _ => rfl⟩
    intro hOwned result after hResult
    have hFirst := congrArg Prod.fst (Except.ok.inj hResult)
    rw [← show (router.submitToStore segments route command).1 = result from hFirst]
    exact Bool.eq_false_iff.mpr (hStopped hOwned)

theorem gateHolds_of_blocked (hRoute : router.routes command.index = some route)
    (hBlocks : router.ownershipBlocks io file command = .ok true) :
    router.GateHolds io file segments command ↔ router.OwnedByOther file command command.acceptedAt := by
  have hSubmit := submitWriteCommand_of_blocks segments hRoute hBlocks
  rw [if_pos rfl] at hSubmit
  unfold PointStoreRouter.GateHolds
  rw [hSubmit, submitWriteCommand_ungated hRoute]
  constructor
  · rintro ⟨-, hPassed⟩
    by_contra hFree
    have hFirst := congrArg Prod.fst (Except.ok.inj (hPassed hFree))
    exact submitToStore_message (congrArg CommandSubmitResult.message hFirst).symm
  · intro hOwned
    refine ⟨?_, fun hFree => absurd hOwned hFree⟩
    intro _ result after hResult
    have hFirst := congrArg Prod.fst (Except.ok.inj hResult)
    exact (congrArg CommandSubmitResult.accepted hFirst).symm

theorem gateHolds_of_thrown (hRoute : router.routes command.index = some route) {error : ParseError}
    (hBlocks : router.ownershipBlocks io file command = .error error)
    (hFree : ¬ router.OwnedByOther file command command.acceptedAt) :
    ¬ router.GateHolds io file segments command := by
  rintro ⟨-, hPassed⟩
  have hSame := hPassed hFree
  rw [submitWriteCommand_ungated hRoute] at hSame
  unfold PointStoreRouter.submitWriteCommand at hSame
  rw [show router.routeByIndex command.index = some route from hRoute] at hSame
  change (router.ownershipBlocks io file command >>= _) = _ at hSame
  rw [hBlocks] at hSame
  cases hSame

theorem timesAgree_of_open (hOpen : router.powerControlOwnership = none ∨ io.locked = false) :
    router.TimesAgree io file segments command route ↔
      (router.OwnedByOther file command command.acceptedAt → ¬ router.Admits segments command route) := by
  constructor
  · intro hAgree hOwned hAdmits
    obtain ⟨hLocked, hLater⟩ := hAgree.stopped hOwned hAdmits
    obtain hNone | hUnlocked := hOpen
    · exact hLater.1 hNone
    · rw [hLocked] at hUnlocked
      cases hUnlocked
  · intro hStopped
    refine ⟨?_, fun hOwned hAdmits => absurd hAdmits (hStopped hOwned), ?_⟩
    · intro hLocked hSet
      obtain hNone | hUnlocked := hOpen
      · exact absurd hNone hSet
      · rw [hLocked] at hUnlocked
        cases hUnlocked
    · intro hLocked hLater
      obtain hNone | hUnlocked := hOpen
      · exact absurd hNone hLater.1
      · rw [hLocked] at hUnlocked
        cases hUnlocked

theorem timesAgree_of_parsed (hLocked : io.locked = true) {current : Option PowerControlOwnershipState}
    (hParse : parseState (readText file) (PointStoreRouter.commandTime command) = .ok current) :
    router.TimesAgree io file segments command route ↔
      (router.OwnedByOther file command command.acceptedAt → router.Admits segments command route →
        router.OwnedByOther file command (PointStoreRouter.commandTime command)) ∧
      (router.OwnedByOther file command (PointStoreRouter.commandTime command) →
        router.OwnedByOther file command command.acceptedAt) := by
  constructor
  · intro hAgree
    exact ⟨fun hOwned hAdmits => (hAgree.stopped hOwned hAdmits).2, hAgree.passed hLocked⟩
  · rintro ⟨hStopped, hPassed⟩
    refine ⟨?_, fun hOwned hAdmits => ⟨hLocked, hStopped hOwned hAdmits⟩, fun _ => hPassed⟩
    intro _ _ error hError
    rw [hParse] at hError
    cases hError

theorem gateHolds_iff_timesAgree (hLow : command.highPriority = false)
    (hRoute : router.routes command.index = some route) :
    router.GateHolds io file segments command ↔ router.TimesAgree io file segments command route := by
  by_cases hOpen : router.powerControlOwnership = none ∨ io.locked = false
  · rw [gateHolds_of_open hRoute (ownershipBlocks_open hOpen), timesAgree_of_open hOpen]
  · rw [not_or, Bool.not_eq_false] at hOpen
    obtain ⟨hSet, hLocked⟩ := hOpen
    cases hParse : parseState (readText file) (PointStoreRouter.commandTime command) with
    | error error =>
      obtain ⟨ownership, hSome⟩ := Option.ne_none_iff_exists'.mp hSet
      have hBlocks := @ownershipBlocks_locked router io file command hLow hLocked ownership hSome
      rw [hParse] at hBlocks
      have hFree : ¬ router.OwnedByOther file command command.acceptedAt := by
        rintro ⟨-, state, hState, -⟩
        rw [parseState_error hParse] at hState
        cases hState
      constructor
      · intro hGate
        exact absurd hGate (gateHolds_of_thrown hRoute hBlocks hFree)
      · intro hAgree
        exact absurd hParse (hAgree.parsed hLocked hSet error)
    | ok current =>
      obtain ⟨blocked, hBlocks, hOwned⟩ := ownershipBlocks_parsed hLow hLocked hSet hParse
      rw [timesAgree_of_parsed hLocked hParse, ← hOwned]
      cases blocked with
      | false => simp [gateHolds_of_open hRoute hBlocks]
      | true => simp [gateHolds_of_blocked hRoute hBlocks]

end Gate

/-- It stops just these exactly when the lease reads the same at the command's time and at its acceptance. -/
theorem gateHolds_iff (router : PointStoreRouter) (io : Outcome) (file : Option StdString) (segments : Segments)
    (command : PendingWriteCommand) (hLow : command.highPriority = false) :
    router.GateHolds io file segments command ↔
      ∀ route, router.routes command.index = some route → router.TimesAgree io file segments command route := by
  cases hRoute : router.routes command.index with
  | none =>
    have hMissing : ∀ gated : PointStoreRouter, gated.routes = router.routes →
        gated.submitWriteCommand io file segments command =
          .ok (⟨false, "command index not found".toList, none⟩, segments) := by
      intro gated hRoutes
      unfold PointStoreRouter.submitWriteCommand PointStoreRouter.routeByIndex
      rw [hRoutes, hRoute]
    unfold PointStoreRouter.GateHolds
    rw [hMissing router rfl, hMissing router.ungated rfl]
    constructor
    · intro _ route hSome
      cases hSome
    · intro _
      refine ⟨?_, fun _ => rfl⟩
      intro _ result after hResult
      exact (congrArg (fun answer => answer.1.accepted) (Except.ok.inj hResult)).symm
  | some route =>
    rw [gateHolds_iff_timesAgree hLow hRoute]
    constructor
    · intro hAgree other hOther
      rw [← Option.some.inj hOther]
      exact hAgree
    · intro hAgree
      exact hAgree route rfl

def gatedRouter : PointStoreRouter where
  routes := fun index => if index = 7 then some ⟨7, "mem".toList, true⟩ else none
  stores := fun _ => some (.opened .segmentName 1 [] .initial)
  powerControlOwnership := some ⟨"lease".toList, "gateway".toList⟩
  path_ne := by
    rintro ownership ⟨⟩
    decide

def sessionLease : PowerControlOwnershipState := grantedState "ess".toList "agc".toList "s1".toList [7, 12] 1000 5000

def mqttCommand (ts : Int) : PendingWriteCommand where
  cmdId := "cmd-1".toList
  index := 7
  value := 0
  source := "mqtt".toList
  ts := ts
  acceptedAt := 2000
  highPriority := false

theorem parse_sessionLease (t : Int) :
    parseState (readText (some (stateText sessionLease))) t = .ok (if 6000 ≤ t then none else some sessionLease) := by
  rw [sessionLease.parseState_of_legible legible_session_lease (by decide) (by decide)]
  have hOwner : ¬ sessionLease.owner = [] := by decide
  have hExpire : sessionLease.expireAtMs = 6000 := by decide
  simp only [hOwner, hExpire, false_or]

theorem sessionLease_owned (ts : Int) :
    gatedRouter.OwnedByOther (some (stateText sessionLease)) (mqttCommand ts) 2000 :=
  ⟨Option.some_ne_none _, sessionLease, parse_sessionLease 2000, (by decide : "agc".toList ≠ "mqtt".toList),
    (by decide : (7 : UInt32) ∈ [7, 12])⟩

theorem gateHolds_without_timestamp :
    gatedRouter.GateHolds ⟨true, true, true, true, true⟩ (some (stateText sessionLease)) (fun _ => .initial)
      (mqttCommand 0) := by
  refine (gateHolds_iff gatedRouter _ _ _ (mqttCommand 0) rfl).mpr ?_
  intro route _
  refine ⟨?_, fun hOwned _ => ⟨rfl, hOwned⟩, fun _ hOwned => hOwned⟩
  intro _ _ error hError
  rw [parse_sessionLease] at hError
  cases hError

/-- A command that carries a time behind the lease's expiry passes the gate while the lease is held. -/
theorem later_timestamp_passes :
    ¬ gatedRouter.GateHolds ⟨true, true, true, true, true⟩ (some (stateText sessionLease)) (fun _ => .initial)
      (mqttCommand 9000) := by
  intro hGate
  have hAgree := (@gateHolds_iff_timesAgree _ _ _ _ _ ⟨7, "mem".toList, true⟩ rfl rfl).mp hGate
  have hAdmits : gatedRouter.Admits (fun _ => .initial) (mqttCommand 9000) ⟨7, "mem".toList, true⟩ :=
    ⟨rfl, by decide, _, rfl, by decide⟩
  obtain ⟨-, state, hState, -⟩ := (hAgree.stopped (sessionLease_owned 9000) hAdmits).2
  rw [parse_sessionLease] at hState
  cases hState

end EdgeGateway.Router
