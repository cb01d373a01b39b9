import EdgeGateway.PointStore.ClaimSpec

/-! # What a registration that throws leaves behind -/

namespace EdgeGateway.PointStore

open Slots

namespace ClaimRegistry

section Assign

variable {claims : Fin kMaxClaimSlots → SharedClaimSlot} {ts : Int} {ownerId : UInt64}
  {own : UInt32 → Option (Fin kMaxClaimSlots)} {points : List UInt32} {free : List (Fin kMaxClaimSlots)}

def unclaimed (own : UInt32 → Option (Fin kMaxClaimSlots)) (points : List UInt32) : List UInt32 :=
  points.filter fun index => (own index).isNone

theorem unclaimed_cons_some {point : UInt32} {k : Fin kMaxClaimSlots} (hOwn : own point = some k) :
    unclaimed own (point :: points) = unclaimed own points := by
  simp [unclaimed, hOwn]

theorem unclaimed_cons_none {point : UInt32} (hOwn : own point = none) :
    unclaimed own (point :: points) = point :: unclaimed own points := by
  simp [unclaimed, hOwn]

theorem assignClaims_ok_iff :
    (assignClaims ownerId ts own points free claims).2 = none ↔ (unclaimed own points).length ≤ free.length := by
  induction points generalizing free claims with
  | nil => simp [assignClaims, unclaimed]
  | cons point rest ih =>
    unfold assignClaims
    cases hOwn : own point with
    | some k =>
      rw [unclaimed_cons_some hOwn]
      exact ih
    | none =>
      rw [unclaimed_cons_none hOwn, List.length_cons]
      cases free with
      | nil => simp
      | cons k free =>
        rw [List.length_cons, Nat.add_le_add_iff_right]
        exact ih

theorem claimedIn_assignClaims_iff (hFree : FreeSlots claims free) {index : UInt32} :
    ClaimedIn (assignClaims ownerId ts own points free claims).1 index ownerId ↔
      ClaimedIn claims index ownerId ∨ index ∈ (unclaimed own points).take free.length := by
  induction points generalizing free claims with
  | nil => simp [assignClaims, unclaimed]
  | cons point rest ih =>
    unfold assignClaims
    cases hOwn : own point with
    | some k =>
      rw [unclaimed_cons_some hOwn, ← @claimedIn_refreshClaim claims k ts]
      exact ih hFree.refreshed
    | none =>
      rw [unclaimed_cons_none hOwn]
      cases free with
      | nil => simp
      | cons k free =>
        rw [List.length_cons, List.take_succ_cons, List.mem_cons]
        refine (ih hFree.taken).trans ?_
        constructor
        · rintro (hClaimed | hTaken)
          · obtain hBefore | ⟨-, rfl⟩ := claimedIn_takeClaim hClaimed
            · exact .inl hBefore
            · exact .inr (.inl rfl)
          · exact .inr (.inr hTaken)
        · rintro (hBefore | rfl | hTaken)
          · exact .inl (hBefore.takeClaim (hFree.blank k List.mem_cons_self))
          · exact .inl claimedIn_takeClaim_self
          · exact .inr hTaken

end Assign

section Registration

variable {registry : ClaimRegistry} {ownerId : UInt64} {source : StdString} {newPoints : List UInt32} {ts : Int}

def Expired (registry : ClaimRegistry) (ownerId : UInt64) (ts : Int) : Prop :=
  ∃ k, registry.Stale ts k ∧ (registry.owners k).ownerId = ownerId

def HasOwnerSlot (registry : ClaimRegistry) (ownerId : UInt64) (ts : Int) : Prop :=
  ∃ k, (registry.owners k).occupied = false ∨ registry.Stale ts k ∨ (registry.owners k).ownerId = ownerId

theorem claimed_cleanup_of_not_expired (hLive : ¬registry.Expired ownerId ts) {index : UInt32} :
    (registry.cleanupStaleOwnersAndClaims ts).Claimed index ownerId ↔ registry.Claimed index ownerId := by
  rw [claimed_cleanup_iff]
  refine and_iff_left fun k hStale hId => ?_
  exact hLive ⟨k, hStale, hId⟩

theorem not_claimed_cleanup_of_expired (hExpired : registry.Expired ownerId ts) {index : UInt32} :
    ¬(registry.cleanupStaleOwnersAndClaims ts).Claimed index ownerId := by
  obtain ⟨k, hStale, hId⟩ := hExpired
  rw [claimed_cleanup_iff]
  rintro ⟨-, hLive⟩
  exact hLive k hStale hId

theorem ownClaim_isNone_iff {index : UInt32} :
    (registry.ownClaim ownerId index).isNone = true ↔ ¬registry.Claimed index ownerId := by
  rw [Option.isNone_iff_eq_none, ownClaim, firstSlot_eq_none]
  constructor
  · rintro hNone ⟨c, hOccupied, hIndex, hId⟩
    have hSlot := hNone c
    simp [hOccupied, hIndex, hId] at hSlot
  · intro hNone c
    rw [Bool.eq_false_iff]
    intro hSlot
    simp only [Bool.and_eq_true, beq_iff_eq] at hSlot
    exact hNone ⟨c, hSlot.1.1, hSlot.2, hSlot.1.2⟩

theorem unclaimed_of_none_claimed (hNone : ∀ index, ¬registry.Claimed index ownerId) :
    unclaimed (registry.ownClaim ownerId) newPoints = newPoints :=
  List.filter_eq_self.mpr fun index _ => ownClaim_isNone_iff.mpr (hNone index)

theorem freeSlots_freeClaims (count : Nat) : FreeSlots registry.claims (registry.freeClaims.take count) := by
  constructor
  · intro k hk
    have hFree := (List.mem_filter.mp (List.mem_of_mem_take hk)).2
    simpa using hFree
  · exact ((List.nodup_finRange _).filter _).sublist (List.take_sublist _ _)

theorem touchOwnerSlot_isOk_iff :
    (∃ touched, (registry.cleanupStaleOwnersAndClaims ts).touchOwnerSlot ownerId source ts = .ok touched) ↔
      registry.HasOwnerSlot ownerId ts := by
  constructor
  · rintro ⟨touched, hTouch⟩
    obtain ⟨-, k, -, -, -, -, hSame⟩ := touchOwnerSlot_ok hTouch
    refine ⟨k, ?_⟩
    rw [cleanup_owners] at hSame
    by_cases hStale : registry.Stale ts k
    · exact .inr (.inl hStale)
    · rw [if_neg hStale] at hSame
      cases hOccupied : (registry.owners k).occupied with
      | false => exact .inl rfl
      | true => exact .inr (.inr (hSame hOccupied))
  · rintro ⟨k, hSlot⟩
    by_cases hBlank : ((registry.cleanupStaleOwnersAndClaims ts).owners k).occupied = false
    · exact touchOwnerSlot_exists hBlank
    · rw [cleanup_owners] at hBlank
      split at hBlank
      · exact absurd rfl hBlank
      · next hLive =>
        have hId := (hSlot.resolve_left hBlank).resolve_left hLive
        rw [touchOwnerSlot, allocateOwnerSlot]
        obtain ⟨i, hi⟩ := @firstSlot_exists _ _ (fun slot : SharedOwnerSlot => slot.occupied && slot.ownerId == ownerId)
          (registry.cleanupStaleOwnersAndClaims ts).owners k (by
            rw [cleanup_owners, if_neg hLive, Bool.eq_true_of_not_eq_false hBlank, hId]
            simp)
        rw [findOwnerSlot, hi]
        exact ⟨_, rfl⟩

theorem not_expired_of_no_slot (hFull : ¬registry.HasOwnerSlot ownerId ts) : ¬registry.Expired ownerId ts := by
  rintro ⟨k, hStale, -⟩
  exact hFull ⟨k, .inr (.inl hStale)⟩

/-- What the claims of the owner are after the part under the lock, and whether it has thrown. -/
theorem claimNewPoints_touched
    (hFree : newPoints.any ((registry.cleanupStaleOwnersAndClaims ts).claimedByOtherOwners ownerId ts) = false)
    (hSlot : registry.HasOwnerSlot ownerId ts) :
    ((registry.claimNewPoints ownerId source newPoints ts).2 = none ↔
      (unclaimed ((registry.cleanupStaleOwnersAndClaims ts).ownClaim ownerId) newPoints).length ≤
        (registry.cleanupStaleOwnersAndClaims ts).freeClaims.length) ∧
    ∀ index, (registry.claimNewPoints ownerId source newPoints ts).1.Claimed index ownerId ↔
      (registry.cleanupStaleOwnersAndClaims ts).Claimed index ownerId ∨
        index ∈ (unclaimed ((registry.cleanupStaleOwnersAndClaims ts).ownClaim ownerId) newPoints).take
          (registry.cleanupStaleOwnersAndClaims ts).freeClaims.length := by
  obtain ⟨touched, hTouch⟩ := (@touchOwnerSlot_isOk_iff registry ownerId source ts).mpr hSlot
  have hClaims := (touchOwnerSlot_ok hTouch).1
  have hOwn : touched.ownClaim ownerId = (registry.cleanupStaleOwnersAndClaims ts).ownClaim ownerId := by
    funext index
    rw [ownClaim, ownClaim, hClaims]
  have hFreeClaims : touched.freeClaims = (registry.cleanupStaleOwnersAndClaims ts).freeClaims := by
    rw [freeClaims, freeClaims, hClaims]
  have hUnclaimed : (unclaimed ((registry.cleanupStaleOwnersAndClaims ts).ownClaim ownerId) newPoints).length ≤
      newPoints.length := List.length_filter_le _ _
  rw [claimNewPoints]
  dsimp only
  rw [hFree, if_neg Bool.false_ne_true, hTouch]
  dsimp only
  rw [hOwn, hFreeClaims, assignClaims_ok_iff, List.length_take]
  refine ⟨by omega, fun index => ?_⟩
  have hFreeSlots := @freeSlots_freeClaims (registry.cleanupStaleOwnersAndClaims ts) newPoints.length
  rw [← hClaims] at hFreeSlots
  rw [Claimed, claimedIn_assignClaims_iff hFreeSlots, hClaims, List.length_take, Nat.min_comm, ← List.take_take,
    List.take_of_length_le hUnclaimed]
  rfl

/-- The owner keeps the claims it had: on a foreign claim, its lease runs or it had none; when the slots run
    out, its lease runs and none was taken, or its lapsed claims are just what it was given. -/
structure Undisturbed (registry : ClaimRegistry) (ownerId : UInt64) (newPoints : List UInt32) (ts : Int) : Prop where
  refused : newPoints.any ((registry.cleanupStaleOwnersAndClaims ts).claimedByOtherOwners ownerId ts) = true →
    registry.Expired ownerId ts → ∀ index, ¬registry.Claimed index ownerId
  cut : newPoints.any ((registry.cleanupStaleOwnersAndClaims ts).claimedByOtherOwners ownerId ts) = false →
    registry.HasOwnerSlot ownerId ts →
    (registry.cleanupStaleOwnersAndClaims ts).freeClaims.length <
      (unclaimed ((registry.cleanupStaleOwnersAndClaims ts).ownClaim ownerId) newPoints).length →
    (¬registry.Expired ownerId ts ∧ (registry.cleanupStaleOwnersAndClaims ts).freeClaims = []) ∨
      (registry.Expired ownerId ts ∧ ∀ index, registry.Claimed index ownerId ↔
        index ∈ newPoints.take (registry.cleanupStaleOwnersAndClaims ts).freeClaims.length)

theorem claimNewPoints_refused
    (hForeign : newPoints.any ((registry.cleanupStaleOwnersAndClaims ts).claimedByOtherOwners ownerId ts) = true) :
    registry.claimNewPoints ownerId source newPoints ts =
      (registry.cleanupStaleOwnersAndClaims ts, some .pointClaimedByAnotherProcess) := by
  rw [claimNewPoints]
  exact if_pos hForeign

theorem claimNewPoints_no_slot
    (hFree : newPoints.any ((registry.cleanupStaleOwnersAndClaims ts).claimedByOtherOwners ownerId ts) = false)
    (hFull : ¬registry.HasOwnerSlot ownerId ts) :
    (registry.claimNewPoints ownerId source newPoints ts).1 = registry.cleanupStaleOwnersAndClaims ts := by
  rw [claimNewPoints]
  dsimp only
  rw [hFree, if_neg Bool.false_ne_true]
  cases hTouch : (registry.cleanupStaleOwnersAndClaims ts).touchOwnerSlot ownerId source ts with
  | error e => rfl
  | ok touched => exact absurd (touchOwnerSlot_isOk_iff.mp ⟨touched, hTouch⟩) hFull

theorem claimed_cleanup_same_iff :
    (∀ index, (registry.cleanupStaleOwnersAndClaims ts).Claimed index ownerId ↔ registry.Claimed index ownerId) ↔
      (registry.Expired ownerId ts → ∀ index, ¬registry.Claimed index ownerId) := by
  constructor
  · intro hSame hExpired index hClaimed
    exact not_claimed_cleanup_of_expired hExpired ((hSame index).mpr hClaimed)
  · intro hNone index
    by_cases hExpired : registry.Expired ownerId ts
    · exact iff_of_false (not_claimed_cleanup_of_expired hExpired) (hNone hExpired index)
    · exact claimed_cleanup_of_not_expired hExpired

/-- The claims after the free slots have run out are those before exactly in the two cases of `Undisturbed`. -/
theorem cut_same_iff
    (hCut : (registry.cleanupStaleOwnersAndClaims ts).freeClaims.length <
      (unclaimed ((registry.cleanupStaleOwnersAndClaims ts).ownClaim ownerId) newPoints).length) :
    (∀ index, (registry.cleanupStaleOwnersAndClaims ts).Claimed index ownerId ∨
        index ∈ (unclaimed ((registry.cleanupStaleOwnersAndClaims ts).ownClaim ownerId) newPoints).take
          (registry.cleanupStaleOwnersAndClaims ts).freeClaims.length ↔ registry.Claimed index ownerId) ↔
      (¬registry.Expired ownerId ts ∧ (registry.cleanupStaleOwnersAndClaims ts).freeClaims = []) ∨
        (registry.Expired ownerId ts ∧ ∀ index, registry.Claimed index ownerId ↔
          index ∈ newPoints.take (registry.cleanupStaleOwnersAndClaims ts).freeClaims.length) := by
  by_cases hExpired : registry.Expired ownerId ts
  · have hNone : ∀ index, ¬(registry.cleanupStaleOwnersAndClaims ts).Claimed index ownerId :=
      fun index => not_claimed_cleanup_of_expired hExpired
    rw [unclaimed_of_none_claimed hNone]
    simp only [hNone, false_or, hExpired, not_true_eq_false, false_and, true_and]
    exact forall_congr' fun index => Iff.comm
  · simp only [claimed_cleanup_of_not_expired hExpired, hExpired, not_false_eq_true, true_and, false_and, or_false]
    constructor
    · intro hSame
      rw [List.eq_nil_iff_length_eq_zero]
      by_contra hSome
      -- The first point without a claim has been given a slot.
      obtain ⟨first, rest, hUnclaimed⟩ := List.exists_cons_of_length_pos (Nat.zero_lt_of_lt hCut)
      obtain ⟨count, hCount⟩ := Nat.exists_eq_succ_of_ne_zero hSome
      have hFirst : first ∈ unclaimed ((registry.cleanupStaleOwnersAndClaims ts).ownClaim ownerId) newPoints := by
        rw [hUnclaimed]
        exact List.mem_cons_self
      have hOpen := ownClaim_isNone_iff.mp (List.mem_filter.mp hFirst).2
      rw [claimed_cleanup_of_not_expired hExpired] at hOpen
      apply hOpen
      rw [← hSame first, hUnclaimed, hCount, List.take_succ_cons]
      exact .inr List.mem_cons_self
    · intro hEmpty index
      rw [hEmpty, List.length_nil, List.take_zero]
      exact or_iff_left List.not_mem_nil

theorem claimNewPoints_same_iff :
    (∀ e, (registry.claimNewPoints ownerId source newPoints ts).2 = some e → ∀ index,
      ((registry.claimNewPoints ownerId source newPoints ts).1.Claimed index ownerId ↔ registry.Claimed index ownerId)) ↔
      registry.Undisturbed ownerId newPoints ts := by
  cases hForeign : newPoints.any ((registry.cleanupStaleOwnersAndClaims ts).claimedByOtherOwners ownerId ts) with
  | true =>
    rw [claimNewPoints_refused hForeign]
    constructor
    · intro hSame
      refine ⟨fun _ => claimed_cleanup_same_iff.mp (hSame _ rfl), fun hFree => ?_⟩
      rw [hForeign] at hFree
      cases hFree
    · intro hUndisturbed _ _
      exact claimed_cleanup_same_iff.mpr (hUndisturbed.refused hForeign)
  | false =>
    by_cases hSlot : registry.HasOwnerSlot ownerId ts
    · obtain ⟨hOk, hClaims⟩ := @claimNewPoints_touched registry ownerId source newPoints ts hForeign hSlot
      constructor
      · intro hSame
        refine ⟨fun hTaken => ?_, fun _ _ hCut => ?_⟩
        · rw [hForeign] at hTaken
          cases hTaken
        · have hThrows := mt hOk.mp (Nat.not_le.mpr hCut)
          obtain ⟨e, he⟩ := Option.ne_none_iff_exists'.mp hThrows
          exact (cut_same_iff hCut).mp fun index => (hClaims index).symm.trans (hSame e he index)
      · intro hUndisturbed e he index
        have hCut := Nat.not_le.mp (mt hOk.mpr (by rw [he]; exact Option.some_ne_none e))
        exact (hClaims index).trans ((cut_same_iff hCut).mpr (hUndisturbed.cut hForeign hSlot hCut) index)
    · rw [claimNewPoints_no_slot hForeign hSlot]
      constructor
      · intro _
        refine ⟨fun hTaken => ?_, fun _ hFound => absurd hFound hSlot⟩
        rw [hForeign] at hTaken
        cases hTaken
      · intro _ _ _ index
        exact claimed_cleanup_of_not_expired (not_expired_of_no_slot hSlot)

end Registration

end ClaimRegistry

namespace MemoryPointStore

variable {store : MemoryPointStore} {registry : ClaimRegistry} {configs : List DeviceConfig} {ts : Int}

/-- If the call throws, the owner holds the claims it held before and the handle is as it was. -/
def RegistrationAtomic (store : MemoryPointStore) (registry : ClaimRegistry) (configs : List DeviceConfig) (ts : Int) :
    Prop :=
  ∀ e, (store.registerDevicePoints registry configs ts).2.2 = some e →
    (∀ index, (store.registerDevicePoints registry configs ts).2.1.Claimed index store.ownerId ↔
      registry.Claimed index store.ownerId) ∧
    (store.registerDevicePoints registry configs ts).1 = store

theorem registerDevicePoints_of_collected {pending : PendingRegistrations}
    (hCollected : store.collectRegistrations configs = .ok pending) (hNew : pending.newPoints ≠ []) :
    (store.registerDevicePoints registry configs ts).2 =
        registry.claimNewPoints store.ownerId store.ownerSource pending.newPoints ts ∧
      ∀ e, (store.registerDevicePoints registry configs ts).2.2 = some e →
        (store.registerDevicePoints registry configs ts).1 = store := by
  rw [registerDevicePoints, hCollected]
  dsimp only
  rw [if_neg hNew]
  obtain ⟨claimed, thrown⟩ := registry.claimNewPoints store.ownerId store.ownerSource pending.newPoints ts
  cases thrown with
  | none => exact ⟨rfl, nofun⟩
  | some e => exact ⟨rfl, fun _ _ => rfl⟩

/-- A registration is atomic exactly when the new points of its configurations leave the owner undisturbed. -/
theorem registration_atomic_iff (store : MemoryPointStore) (registry : ClaimRegistry) (configs : List DeviceConfig)
    (ts : Int) : store.RegistrationAtomic registry configs ts ↔
      ∀ pending, store.collectRegistrations configs = .ok pending →
        registry.Undisturbed store.ownerId pending.newPoints ts := by
  cases hCollected : store.collectRegistrations configs with
  | error e =>
    refine iff_of_true (fun _ _ => ?_) nofun
    rw [registerDevicePoints, hCollected]
    exact ⟨fun _ => Iff.rfl, rfl⟩
  | ok pending =>
    by_cases hNew : pending.newPoints = []
    · refine iff_of_true (fun e hThrows => ?_) ?_
      · rw [registerDevicePoints, hCollected] at hThrows
        dsimp only at hThrows
        rw [if_pos hNew] at hThrows
        cases hThrows
      · rintro _ ⟨⟩
        rw [hNew]
        exact ⟨nofun, fun _ _ hCut => absurd hCut (Nat.not_lt_zero _)⟩
    · obtain ⟨hOutcome, hStore⟩ := @registerDevicePoints_of_collected store registry configs ts _ hCollected hNew
      have hSame := @ClaimRegistry.claimNewPoints_same_iff registry store.ownerId store.ownerSource pending.newPoints ts
      rw [← hOutcome] at hSame
      constructor
      · rintro hAtomic _ ⟨⟩
        exact hSame.mp fun e hThrows => (hAtomic e hThrows).1
      · intro hUndisturbed e hThrows
        exact ⟨hSame.mpr (hUndisturbed pending rfl) e hThrows, hStore e hThrows⟩

def firstOwnerSlot : Fin kMaxOwnerSlots := ⟨0, kMaxOwnerSlots_pos⟩

def nextOwnerSlot : Fin kMaxOwnerSlots := ⟨1, one_lt_kMaxOwnerSlots⟩

def lastFreeSlot : Fin kMaxClaimSlots := ⟨99999, by unfold kMaxClaimSlots; decide⟩

def crowded : ClaimRegistry where
  owners k := if k = firstOwnerSlot then { ownerId := 9, heartbeatMs := 1000, occupied := true } else {}
  claims c := if c = lastFreeSlot then {}
    else { index := UInt32.ofNat (c.val + 3), ownerId := 9, heartbeatMs := 1000, occupied := true }

def newcomer : MemoryPointStore where
  opening := .config {}
  ownerId := 1
  ownerSource := []
  keyToIndex := fun _ => none
  bindings := fun _ => none
  latestSlotByIndex := fun _ => none
  lastPersistentSampleTs := fun _ => none
  persistentDropped := 0
  registeredIndexes := ∅

def twoPoints : List DeviceConfig := [⟨['m'], ['d'], [⟨1, ['a'], true⟩, ⟨2, ['b'], true⟩]⟩]

theorem crowded_not_stale (k : Fin kMaxOwnerSlots) : ¬crowded.Stale 1000 k := by
  rintro ⟨hOccupied, hDead⟩
  rw [crowded] at hOccupied hDead
  dsimp only at hOccupied hDead
  split at hDead
  · exact absurd hDead (by decide)
  · next hOther =>
    rw [if_neg hOther] at hOccupied
    cases hOccupied

theorem crowded_claims : (crowded.cleanupStaleOwnersAndClaims 1000).claims = crowded.claims := by
  funext c
  exact ClaimRegistry.cleanup_claims_kept c fun _ k hStale => absurd hStale (crowded_not_stale k)

theorem crowded_claim_index {c : Fin kMaxClaimSlots} (hOccupied : (crowded.claims c).occupied = true) :
    2 < (crowded.claims c).index ∧ (crowded.claims c).ownerId = 9 := by
  have hBound : kMaxClaimSlots = 100000 := by unfold kMaxClaimSlots; rfl
  have hLt := c.isLt
  rw [crowded] at hOccupied ⊢
  dsimp only at hOccupied ⊢
  split at hOccupied
  · cases hOccupied
  · next hTaken =>
    rw [if_neg hTaken]
    refine ⟨UInt32.lt_iff_toNat_lt.mpr ?_, rfl⟩
    rw [UInt32.toNat_ofNat', Nat.mod_eq_of_lt (by omega)]
    show 2 < c.val + 3
    omega

theorem crowded_freeClaims : (crowded.cleanupStaleOwnersAndClaims 1000).freeClaims = [lastFreeSlot] := by
  have hOnly : ∀ c, (!(crowded.claims c).occupied) = true → c = lastFreeSlot := by
    intro c hBlank
    by_contra hTaken
    rw [crowded] at hBlank
    dsimp only at hBlank
    rw [if_neg hTaken] at hBlank
    cases hBlank
  have hLast : (!(crowded.claims lastFreeSlot).occupied) = true := by
    rw [crowded]
    dsimp only
    rw [if_pos rfl]
    rfl
  rw [ClaimRegistry.freeClaims, crowded_claims]
  refine (@filter_finRange _ _ (fun claim : SharedClaimSlot => !claim.occupied) crowded.claims ?_).trans ?_
  · intro i j hi hj
    rw [hOnly i hi, hOnly j hj]
  · rw [@firstSlot_eq_of_unique _ _ (fun claim : SharedClaimSlot => !claim.occupied) _ _ hLast hOnly]
    rfl

theorem crowded_not_claimed (index : UInt32) : ¬(crowded.cleanupStaleOwnersAndClaims 1000).Claimed index 1 := by
  rintro ⟨c, hOccupied, -, hId⟩
  rw [crowded_claims] at hOccupied hId
  rw [(crowded_claim_index hOccupied).2] at hId
  cases hId

theorem crowded_no_conflict :
    ([1, 2] : List UInt32).any ((crowded.cleanupStaleOwnersAndClaims 1000).claimedByOtherOwners 1 1000) = false := by
  rw [List.any_eq_false]
  intro index hIndex hClaimed
  rw [ClaimRegistry.claimedByOtherOwners, anySlot_eq_true] at hClaimed
  obtain ⟨c, hClaim⟩ := hClaimed
  rw [crowded_claims, Bool.and_eq_true, Bool.and_eq_true, beq_iff_eq] at hClaim
  have hAbove := (crowded_claim_index hClaim.1.1).1
  rw [hClaim.2] at hAbove
  obtain rfl | hIndex := List.mem_cons.mp hIndex
  · exact absurd hAbove (by decide)
  · rw [List.mem_singleton.mp hIndex] at hAbove
    exact absurd hAbove (by decide)

/-- The second of two new points finds no free slot, and the first stays claimed. -/
theorem last_slot_stays_claimed :
    ¬newcomer.RegistrationAtomic crowded twoPoints 1000 := by
  intro hAtomic
  obtain ⟨pending, hCollected, hNew⟩ :
      ∃ pending, newcomer.collectRegistrations twoPoints = .ok pending ∧ pending.newPoints = [1, 2] := ⟨_, rfl, rfl⟩
  obtain ⟨hOutcome, -⟩ := @registerDevicePoints_of_collected newcomer crowded twoPoints 1000 _ hCollected
    (by rw [hNew]; exact List.cons_ne_nil _ _)
  have hSlot : crowded.HasOwnerSlot 1 1000 := ⟨nextOwnerSlot, .inl rfl⟩
  obtain ⟨hOk, hClaims⟩ := @ClaimRegistry.claimNewPoints_touched crowded 1 [] [1, 2] 1000 crowded_no_conflict hSlot
  rw [ClaimRegistry.unclaimed_of_none_claimed crowded_not_claimed, crowded_freeClaims] at hOk hClaims
  obtain ⟨e, hThrows⟩ := Option.ne_none_iff_exists'.mp (mt hOk.mp (by decide))
  obtain ⟨hSame, -⟩ := hAtomic e (by rw [hOutcome, hNew]; exact hThrows)
  rw [hOutcome, hNew] at hSame
  have hBefore := (hSame 1).mp ((hClaims 1).mpr (.inr List.mem_cons_self))
  obtain ⟨c, hOccupied, -, hId⟩ := hBefore
  rw [(crowded_claim_index hOccupied).2] at hId
  cases hId

end MemoryPointStore

end EdgeGateway.PointStore
