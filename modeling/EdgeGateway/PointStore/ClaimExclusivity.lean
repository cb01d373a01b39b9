import EdgeGateway.PointStore.ClaimSpec
import EdgeGateway.PointStore.System
import Mathlib.Data.Finset.Sort

/-! # Exclusivity of claims

Two owners that are both alive never hold claims on one index, as long as no heartbeat re-registers
what another active owner has taken over: `heartbeatRegisteredPoints` does not ask.
-/

namespace EdgeGateway.PointStore

open Slots

universe u

namespace ClaimRegistry

def ExclusiveAt (r : ClaimRegistry) (t : Int) : Prop :=
  ∀ index a b, r.Claimed index a → r.Claimed index b → r.OwnerAlive a t → r.OwnerAlive b t → a = b

structure Exclusive (r : ClaimRegistry) (now : Int) : Prop where
  owned : ∀ index ownerId, r.Claimed index ownerId → r.Present ownerId
  exclusive : r.ExclusiveAt now

theorem ExclusiveAt.later {r : ClaimRegistry} {now t : Int} (h : r.ExclusiveAt now) (ht : now ≤ t) :
    r.ExclusiveAt t :=
  fun index a b ha hb hAliveA hAliveB => h index a b ha hb (hAliveA.earlier ht) (hAliveB.earlier ht)

theorem Exclusive.cleanup {r : ClaimRegistry} {now t : Int} (h : r.Exclusive now) (ht : now ≤ t) :
    (r.cleanupStaleOwnersAndClaims t).Exclusive t where
  owned index ownerId hClaimed := by
    obtain ⟨hBefore, hNotStale⟩ := claimed_cleanup_iff.mp hClaimed
    obtain ⟨k, hOccupied, hId⟩ := h.owned index ownerId hBefore
    refine ⟨k, ?_⟩
    rw [cleanup_owners, if_neg fun hStale => hNotStale k hStale hId]
    exact ⟨hOccupied, hId⟩
  exclusive index a b ha hb hAliveA hAliveB :=
    h.exclusive.later ht index a b (claimed_cleanup_iff.mp ha).1 (claimed_cleanup_iff.mp hb).1
      hAliveA.of_cleanup hAliveB.of_cleanup

/-- A grant keeps exclusivity if none of its points is claimed by another active owner. -/
theorem Exclusive.granted {r r' : ClaimRegistry} {now t : Int} {ownerId : UInt64} {points : UInt32 → Prop}
    (h : r.Exclusive now) (ht : now ≤ t) (hGrant : Granted r ownerId t points r')
    (hFree : ∀ index, points index →
      (r.cleanupStaleOwnersAndClaims t).isIndexClaimedByOtherActiveOwner index ownerId t = false) :
    r'.Exclusive t := by
  have hClean := h.cleanup ht
  cases hGrant with
  | cleaned => exact hClean
  | touched hTouch hOwners hClaims =>
    have hOwned : ∀ index other, r'.Claimed index other → r'.Present other := by
      intro index other hClaimed
      rw [Present, hOwners]
      obtain hBefore | ⟨rfl, -⟩ := hClaims index other hClaimed
      · exact (hClean.owned index other hBefore).touch hTouch
      · exact present_touch hTouch
    have hAlive : ∀ other, other ≠ ownerId → r'.OwnerAlive other t →
        (r.cleanupStaleOwnersAndClaims t).OwnerAlive other t := by
      intro other hOther hAlive
      rw [OwnerAlive, hOwners] at hAlive
      exact OwnerAlive.of_touch hTouch hOther hAlive
    -- A claim of the stamped owner against one of another owner is the only new case.
    have hAgainst : ∀ index other, r'.Claimed index ownerId → r'.Claimed index other →
        r'.OwnerAlive other t → other = ownerId := by
      intro index other hMine hTheirs hTheirsAlive
      by_contra hOther
      have hBefore : (r.cleanupStaleOwnersAndClaims t).Claimed index other := by
        obtain hBefore | ⟨hEq, -⟩ := hClaims index other hTheirs
        · exact hBefore
        · exact absurd hEq hOther
      obtain hMineBefore | ⟨-, hPoint⟩ := hClaims index ownerId hMine
      · exact hOther (hClean.exclusive index other ownerId hBefore hMineBefore
          (hAlive other hOther hTheirsAlive) (alive_of_present_cleanup (hClean.owned index ownerId hMineBefore)))
      · have hTaken := (isIndexClaimedByOtherActiveOwner_iff _ index ownerId t).mpr
          ⟨other, hOther, hBefore, hAlive other hOther hTheirsAlive⟩
        rw [hFree index hPoint] at hTaken
        cases hTaken
    refine ⟨hOwned, fun index a b ha hb hAliveA hAliveB => ?_⟩
    by_cases hA : a = ownerId
    · subst hA
      exact (hAgainst index b ha hb hAliveB).symm
    · by_cases hB : b = ownerId
      · subst hB
        exact hAgainst index a hb ha hAliveA
      · have haBefore := (hClaims index a ha).resolve_right fun hEq => hA hEq.1
        have hbBefore := (hClaims index b hb).resolve_right fun hEq => hB hEq.1
        exact hClean.exclusive index a b haBefore hbBefore (hAlive a hA hAliveA) (hAlive b hB hAliveB)

theorem Exclusive.released {r : ClaimRegistry} {now t : Int} (h : r.Exclusive now) (ht : now ≤ t)
    (ownerId : UInt64) : (r.releaseOwnerClaims ownerId t).Exclusive t := by
  have hClean := h.cleanup ht
  have hDropped : ((r.cleanupStaleOwnersAndClaims t).dropOwner ownerId).Exclusive t := by
    constructor
    · intro index other hClaimed
      obtain ⟨hBefore, hOther⟩ := claimed_dropOwner_iff.mp hClaimed
      obtain ⟨k, hOccupied, hId⟩ := hClean.owned index other hBefore
      exact ⟨k, by rw [dropOwner_owners_of_ne (hId ▸ hOther)]; exact ⟨hOccupied, hId⟩⟩
    · intro index a b ha hb hAliveA hAliveB
      exact hClean.exclusive index a b (claimed_dropOwner_iff.mp ha).1 (claimed_dropOwner_iff.mp hb).1
        hAliveA.of_dropOwner hAliveB.of_dropOwner
  exact hDropped.cleanup le_rfl

end ClaimRegistry

namespace System

variable {H : Type u} [DecidableEq H]

def HeartbeatUncontested (s : System H) : StoreEvent H → Prop
  | .heartbeatRegisteredPoints h _ nowMs => ∀ store, s.stores h = some store →
      ∀ index ∈ store.registeredIndexes,
        s.layout.registry.isIndexClaimedByOtherActiveOwner index store.ownerId nowMs = false
  | _ => True

def ClaimGuard (s : System H) (event : StoreEvent H) : Prop := s.Timely event ∧ s.HeartbeatUncontested event

theorem putLatest_registry (store : MemoryPointStore) (layout : SharedStoreLayout) (value : PointValue) :
    (store.putLatest layout value).2.1.registry = layout.registry := by
  unfold MemoryPointStore.putLatest
  simp only
  split
  · rfl
  · simp only [MemoryPointStore.publishUpdate]
    split <;> rfl

open ClaimRegistry in
theorem step_exclusive (ownerId : H → UInt64) {s : System H} {event : StoreEvent H}
    (h : s.layout.registry.Exclusive s.now) (hGuard : s.ClaimGuard event) :
    (s.step ownerId event).layout.registry.Exclusive (s.step ownerId event).now := by
  obtain ⟨hTimely, hUncontested⟩ := hGuard
  cases event with
  | openStore h' opening ownerSource =>
    simp only [step, System.opening]
    split <;> exact h
  | registerDevicePoints p configs ts =>
    have ht : s.now ≤ ts := hTimely ts rfl
    simp only [step]
    cases hStore : s.stores p with
    | none => rw [through_none _ _ hStore]; exact h
    | some store =>
      rw [through_some _ _ hStore]
      simp only [MemoryPointStore.registerDevicePoints, Option.getD_some]
      cases store.collectRegistrations configs with
      | error e => exact ⟨h.owned, h.exclusive.later ht⟩
      | ok pending =>
        by_cases hNew : pending.newPoints = []
        · simp only [hNew, if_true]
          exact ⟨h.owned, h.exclusive.later ht⟩
        · have hGrant := claimNewPoints_granted s.layout.registry store.ownerId store.ownerSource ts
            pending.newPoints
          have hExclusive := h.granted ht hGrant fun _ hFree => hFree
          simp only [if_neg hNew]
          split <;> next hClaim => simpa only [hClaim] using hExclusive
  | heartbeatRegisteredPoints p order nowMs =>
    have ht : s.now ≤ nowMs := hTimely nowMs rfl
    simp only [step]
    cases hStore : s.stores p with
    | none => rw [through_none _ _ hStore]; exact h
    | some store =>
      rw [through_some _ _ hStore]
      refine h.granted ht (heartbeatRegisteredPoints_granted _ _ _ _ _ _) fun index hIndex => ?_
      rw [Bool.eq_false_iff]
      intro hTaken
      obtain ⟨other, hOther, hClaimed, hAlive⟩ := (isIndexClaimedByOtherActiveOwner_iff _ _ _ _).mp hTaken
      have hBefore := (isIndexClaimedByOtherActiveOwner_iff s.layout.registry index store.ownerId nowMs).mpr
        ⟨other, hOther, (claimed_cleanup_iff.mp hClaimed).1, hAlive.of_cleanup⟩
      rw [hUncontested store hStore index hIndex] at hBefore
      cases hBefore
  | removeExpired p nowMs =>
    have ht : s.now ≤ nowMs := hTimely nowMs rfl
    simp only [step]
    cases hStore : s.stores p with
    | none => rw [through_none _ _ hStore]; exact h
    | some store =>
      rw [through_some _ _ hStore]
      exact h.cleanup ht
  | releaseOwnerClaims p ts =>
    have ht : s.now ≤ ts := hTimely ts rfl
    simp only [step]
    cases hStore : s.stores p with
    | none => rw [through_none _ _ hStore]; exact h
    | some store =>
      rw [through_some _ _ hStore]
      exact h.released ht store.ownerId
  | putLatest p value =>
    simp only [step]
    cases hStore : s.stores p with
    | none => rw [through_none _ _ hStore]; exact h
    | some store =>
      rw [through_some _ _ hStore]
      simp only [putLatest_registry, Option.getD_none]
      exact h

omit [DecidableEq H] in
theorem start_exclusive (startMs : Int) : (start startMs : System H).layout.registry.Exclusive startMs where
  owned := by
    rintro index ownerId ⟨c, hOccupied, -⟩
    cases hOccupied
  exclusive := by
    rintro index a b ⟨c, hOccupied, -⟩
    cases hOccupied

/-- With a monotone clock and uncontested heartbeats, no index has claims of two owners that are alive. -/
theorem claims_exclusive_of_uncontested (ownerId : H → UInt64) (startMs : Int) (events : List (StoreEvent H))
    (hRun : Run.Guarded (step ownerId) ClaimGuard (start startMs) events) (done : List (StoreEvent H))
    (hDone : done <+: events) (t : Int) (ht : (Run.after (step ownerId) (start startMs) done).now ≤ t) :
    (Run.after (step ownerId) (start startMs) done).layout.registry.ExclusiveAt t := by
  have hInvariant := Run.invariant (step ownerId)
    (fun s : System H => s.layout.registry.Exclusive s.now) (start_exclusive startMs)
    (fun _ _ hExclusive hGuard => step_exclusive ownerId hExclusive hGuard) (hRun.before _ hDone)
  exact hInvariant.exclusive.later ht

end System

section Takeover

instance isTrans_uint32 : IsTrans UInt32 (· ≤ ·) := ⟨fun _ _ _ => UInt32.le_trans⟩

instance antisymm_uint32 : Std.Antisymm (α := UInt32) (· ≤ ·) := ⟨fun _ _ => UInt32.le_antisymm⟩

def HashOrder.ascending : HashOrder where
  arrange indexes := indexes.sort (· ≤ ·)
  mem_arrange _ _ := Finset.mem_sort _
  nodup_arrange _ := Finset.sort_nodup _ _

namespace ClaimRegistry

def firstOwner : Fin kMaxOwnerSlots := ⟨0, kMaxOwnerSlots_pos⟩
def firstClaim : Fin kMaxClaimSlots := ⟨0, by unfold kMaxClaimSlots; decide⟩

def secondOwner : Fin kMaxOwnerSlots := ⟨1, one_lt_kMaxOwnerSlots⟩
def secondClaim : Fin kMaxClaimSlots := ⟨1, by unfold kMaxClaimSlots; decide⟩

theorem secondOwner_ne : secondOwner ≠ firstOwner := fun h => Nat.one_ne_zero (Fin.val_eq_of_eq h)

theorem secondClaim_ne : secondClaim ≠ firstClaim := fun h => Nat.one_ne_zero (Fin.val_eq_of_eq h)

def blank : ClaimRegistry := ⟨fun _ => {}, fun _ => {}⟩

def soleClaim (ownerId : UInt64) (source : StdString) (point : UInt32) (t : Int) : ClaimRegistry where
  owners := Function.update (fun _ => {}) firstOwner
    { ownerId := ownerId, heartbeatMs := t, source := copyString kSourceSize source, occupied := true }
  claims := takeClaim (fun _ => {}) firstClaim point ownerId t

theorem claimNewPoints_blank {r : ClaimRegistry} {ownerId : UInt64} {source : StdString} {point : UInt32}
    {t : Int} (h : r.cleanupStaleOwnersAndClaims t = blank) :
    r.claimNewPoints ownerId source [point] t = (soleClaim ownerId source point t, none) := by
  have hOwner : findOwnerSlot blank ownerId = none := firstSlot_eq_none.mpr fun _ => rfl
  have hFree : firstSlot (fun slot : SharedOwnerSlot => !slot.occupied) blank.owners = some firstOwner :=
    firstSlot_const _ _ _ rfl
  have hTouch : blank.touchOwnerSlot ownerId source t =
      .ok { soleClaim ownerId source point t with claims := fun _ => {} } := by
    simp only [touchOwnerSlot, allocateOwnerSlot, hOwner, hFree]
    simp [soleClaim, blank]
  have hOther : claimedByOtherOwners blank ownerId t point = false := anySlot_eq_false.mpr fun _ => rfl
  have hOwn : ownClaim { soleClaim ownerId source point t with claims := fun _ => {} } ownerId point = none :=
    firstSlot_eq_none.mpr fun _ => rfl
  have hSlots : (freeClaims { soleClaim ownerId source point t with claims := fun _ => {} }).take 1 = [firstClaim] := by
    simp only [freeClaims, Bool.not_false, List.filter_true]
    exact take_one_finRange _
  have hAssigned : assignClaims ownerId t
      (ownClaim { soleClaim ownerId source point t with claims := fun _ => {} } ownerId) [point] [firstClaim]
      (fun _ => {}) = (takeClaim (fun _ => {}) firstClaim point ownerId t, none) := by
    rw [assignClaims, hOwn]
    rfl
  rw [claimNewPoints, h]
  simp only [List.any_cons, List.any_nil, Bool.or_false]
  rw [if_neg (by rw [hOther]; exact Bool.false_ne_true), hTouch]
  simp only [List.length_singleton]
  rw [hSlots, hAssigned]
  rfl

theorem cleanup_eq_self {r : ClaimRegistry} {t : Int} (h : ∀ k, ¬ r.Stale t k) :
    r.cleanupStaleOwnersAndClaims t = r := by
  have hOwners : (r.cleanupStaleOwnersAndClaims t).owners = r.owners := by
    funext k
    rw [cleanup_owners, if_neg (h k)]
  have hClaims : (r.cleanupStaleOwnersAndClaims t).claims = r.claims := by
    funext c
    exact cleanup_claims_kept c fun _ k hk => absurd hk (h k)
  cases hr : r.cleanupStaleOwnersAndClaims t
  cases r
  simp_all

theorem cleanup_blank (t : Int) : blank.cleanupStaleOwnersAndClaims t = blank :=
  cleanup_eq_self fun _ h => by cases h.1

theorem cleanup_soleClaim_expired {ownerId : UInt64} {source : StdString} {point : UInt32} {t t' : Int}
    (h : t + kOwnerLeaseMs < t') : (soleClaim ownerId source point t).cleanupStaleOwnersAndClaims t' = blank := by
  have hStale : (soleClaim ownerId source point t).Stale t' firstOwner := by
    refine ⟨by simp [soleClaim], ?_⟩
    simp only [isOwnerAlive, soleClaim, Function.update_self, Bool.true_and, Bool.and_eq_false_imp,
      decide_eq_true_eq, decide_eq_false_iff_not]
    omega
  have hOwners : ((soleClaim ownerId source point t).cleanupStaleOwnersAndClaims t').owners = fun _ => {} := by
    funext k
    rw [cleanup_owners]
    by_cases hk : k = firstOwner
    · rw [if_pos (hk ▸ hStale)]
    · rw [if_neg]
      · simp [soleClaim, hk]
      · rintro ⟨hOccupied, -⟩
        simp [soleClaim, hk] at hOccupied
  have hClaims : ((soleClaim ownerId source point t).cleanupStaleOwnersAndClaims t').claims = fun _ => {} := by
    funext c
    by_cases hc : c = firstClaim
    · subst hc
      exact cleanup_claims_cleared _ (by simp [soleClaim, takeClaim]) firstOwner hStale
        (by simp [soleClaim, takeClaim])
    · have hBlank : (soleClaim ownerId source point t).claims c = {} := by simp [soleClaim, takeClaim, hc]
      rw [cleanup_claims_kept _ (by simp [hBlank]), hBlank]
  cases hr : (soleClaim ownerId source point t).cleanupStaleOwnersAndClaims t'
  simp_all [blank]

end ClaimRegistry

open ClaimRegistry

def sharedPoint : DeviceConfig where
  machineCode := ['g']
  meterCode := ['m']
  points := [{ index := 5, pointCode := ['p'], enabled := true }]

def takeover : List (StoreEvent Bool) :=
  [.openStore false .segmentName [], .openStore true .segmentName [],
   .registerDevicePoints false [sharedPoint] 1000,
   .registerDevicePoints true [sharedPoint] 50000,
   .heartbeatRegisteredPoints false .ascending 50001]

def registeredRival (h : Bool) : MemoryPointStore :=
  (rival h).recordRegistrations
    [(buildKey ['g'] ['m'] ['p'], { index := 5, machineCode := ['g'], meterCode := ['m'], pointCode := ['p'] })]

theorem register_rival {s : System Bool} {h : Bool} {ts : Int} (hOpen : s.stores h = some (rival h))
    (hBlank : s.layout.registry.cleanupStaleOwnersAndClaims ts = blank) :
    s.step rivalId (.registerDevicePoints h [sharedPoint] ts) =
      { layout := { s.layout with registry := soleClaim (rivalId h) [] 5 ts }
        stores := Function.update s.stores h (some (registeredRival h))
        now := ts } := by
  have hCollect : (rival h).collectRegistrations [sharedPoint] = .ok
      { registrations := [(buildKey ['g'] ['m'] ['p'],
          { index := 5, machineCode := ['g'], meterCode := ['m'], pointCode := ['p'] })]
        newPoints := [5]
        pendingKeys := Function.update (fun _ => none) (buildKey ['g'] ['m'] ['p']) (some 5)
        pendingBindings := Function.update (fun _ => none) 5
          (some { index := 5, machineCode := ['g'], meterCode := ['m'], pointCode := ['p'] }) } := rfl
  have hClaim : s.layout.registry.claimNewPoints (rival h).ownerId (rival h).ownerSource [5] ts =
      (soleClaim (rivalId h) [] 5 ts, none) := claimNewPoints_blank hBlank
  have hRegister : (rival h).registerDevicePoints s.layout.registry [sharedPoint] ts =
      (registeredRival h, soleClaim (rivalId h) [] 5 ts, none) := by
    rw [MemoryPointStore.registerDevicePoints, hCollect]
    simp only
    rw [if_neg (List.cons_ne_nil _ _), hClaim]
    rfl
  rw [System.step, System.through_some _ _ hOpen, hRegister]
  rfl

def firstRegistered : System Bool where
  layout := { SharedStoreLayout.initial with registry := soleClaim 1 [] 5 1000 }
  stores := Function.update bothOpen.stores false (some (registeredRival false))
  now := 1000

def takenOver : System Bool where
  layout := { SharedStoreLayout.initial with registry := soleClaim 2 [] 5 50000 }
  stores := Function.update firstRegistered.stores true (some (registeredRival true))
  now := 50000

theorem step_firstRegistered :
    bothOpen.step rivalId (.registerDevicePoints false [sharedPoint] 1000) = firstRegistered :=
  register_rival (by simp [bothOpen]) (cleanup_blank 1000)

theorem step_takenOver :
    firstRegistered.step rivalId (.registerDevicePoints true [sharedPoint] 50000) = takenOver :=
  register_rival (by simp [firstRegistered, bothOpen]) (cleanup_soleClaim_expired (by decide))

theorem after_takeover : Run.after (System.step rivalId) (System.start 0) takeover =
    takenOver.step rivalId (.heartbeatRegisteredPoints false .ascending 50001) := by
  simp only [takeover, Run.after_cons, Run.after_nil]
  rw [step_bothOpen, step_firstRegistered, step_takenOver]

theorem takeover_timely : Run.Guarded (System.step rivalId) System.Timely (System.start 0) takeover := by
  simp only [takeover, Run.guarded_cons, step_bothOpen, step_firstRegistered, step_takenOver]
  refine ⟨?_, ?_, ?_, ?_, ?_, Run.guarded_nil _ _ _⟩ <;>
    rintro t ⟨⟩
  · exact (by decide : (0 : Int) ≤ 1000)
  · exact (by decide : (1000 : Int) ≤ 50000)
  · exact (by decide : (50000 : Int) ≤ 50001)

/-- Both processes are alive and hold a claim on the point after the heartbeat. -/
theorem takeover_breaks_exclusivity :
    Run.Guarded (System.step rivalId) System.Timely (System.start 0) takeover ∧
      ¬ (Run.after (System.step rivalId) (System.start 0) takeover).layout.registry.ExclusiveAt 50001 := by
  refine ⟨takeover_timely, fun hExclusive => ?_⟩
  have hNotStale : ∀ k, ¬ (soleClaim 2 [] 5 50000).Stale 50001 k := by
    rintro k ⟨hOccupied, hDead⟩
    by_cases hk : k = firstOwner
    · subst hk
      simp [soleClaim, isOwnerAlive, kOwnerLeaseMs] at hDead
    · simp [soleClaim, hk] at hOccupied
  have hClean := cleanup_eq_self hNotStale
  have hClaimB : (soleClaim 2 [] 5 50000).Claimed 5 2 := claimedIn_takeClaim_self
  have hAliveB : (soleClaim 2 [] 5 50000).OwnerAlive 2 50001 :=
    ⟨firstOwner, by simp [soleClaim], by simp [soleClaim, isOwnerAlive, kOwnerLeaseMs]⟩
  obtain ⟨touched, hTouch⟩ := @touchOwnerSlot_exists (soleClaim 2 [] 5 50000) 1 [] 50001 secondOwner
    (by simp [soleClaim, secondOwner_ne])
  have hRoom : ({5} : Finset UInt32).card ≤ blankCount touched.claims (List.finRange kMaxClaimSlots) := by
    rw [(touchOwnerSlot_ok hTouch).1, Finset.card_singleton]
    refine List.countP_pos_iff.mpr ⟨secondClaim, List.mem_finRange _, ?_⟩
    simp [soleClaim, takeClaim_of_ne secondClaim_ne]
  rw [← hClean] at hTouch
  obtain ⟨hOwners, hMine, hKept⟩ := heartbeatRegisteredPoints_ok (soleClaim 2 [] 5 50000) 1 [] 50001 {5}
    .ascending hTouch hRoom
  have hStep : (takenOver.step rivalId (.heartbeatRegisteredPoints false .ascending 50001)).layout.registry =
      ((soleClaim 2 [] 5 50000).heartbeatRegisteredPoints 1 [] {5} .ascending 50001).1 := by
    have hOpen : takenOver.stores false = some (registeredRival false) := by
      simp [takenOver, firstRegistered]
    rw [System.step, System.through_some _ _ hOpen]
    rfl
  rw [after_takeover, hStep] at hExclusive
  have hAliveA := alive_touch hTouch (by decide)
  have hAliveB := OwnerAlive.touch hTouch (by decide : (2 : UInt64) ≠ 1) (hClean.symm ▸ hAliveB)
  rw [OwnerAlive, ← hOwners] at hAliveA hAliveB
  have hSame := hExclusive 5 1 2 (hMine 5 (Finset.mem_singleton_self 5)) (hKept 5 2 (hClean.symm ▸ hClaimB))
    hAliveA hAliveB
  exact absurd hSame (by decide)

def handover : List (StoreEvent Bool) :=
  [.openStore false .segmentName [], .openStore true .segmentName [],
   .registerDevicePoints false [sharedPoint] 1000,
   .registerDevicePoints true [sharedPoint] 50000,
   .heartbeatRegisteredPoints true .ascending 50001]

theorem takenOver_uncontested (index : UInt32) :
    takenOver.layout.registry.isIndexClaimedByOtherActiveOwner index 2 50001 = false := by
  rw [Bool.eq_false_iff]
  intro hTaken
  obtain ⟨other, hOther, ⟨c, hOccupied, -, hId⟩, -⟩ :=
    (isIndexClaimedByOtherActiveOwner_iff _ _ _ _).mp hTaken
  apply hOther
  by_cases hc : c = firstClaim
  · subst hc
    simpa [takenOver, soleClaim, takeClaim] using hId.symm
  · simp [takenOver, soleClaim, takeClaim, hc] at hOccupied

theorem handover_guarded :
    Run.Guarded (System.step rivalId) System.ClaimGuard (System.start 0) handover := by
  simp only [handover, Run.guarded_cons, step_bothOpen, step_firstRegistered, step_takenOver]
  refine ⟨⟨?_, trivial⟩, ⟨?_, trivial⟩, ⟨?_, trivial⟩, ⟨?_, trivial⟩, ⟨?_, ?_⟩, Run.guarded_nil _ _ _⟩
  · rintro t ⟨⟩
  · rintro t ⟨⟩
  · rintro t ⟨⟩
    exact (by decide : (0 : Int) ≤ 1000)
  · rintro t ⟨⟩
    exact (by decide : (1000 : Int) ≤ 50000)
  · rintro t ⟨⟩
    exact (by decide : (50000 : Int) ≤ 50001)
  · intro store hStore index _
    have hOpen : takenOver.stores true = some (registeredRival true) := by simp [takenOver]
    obtain rfl := Option.some.inj (hOpen.symm.trans hStore)
    exact takenOver_uncontested index

theorem handover_exclusive :
    (Run.after (System.step rivalId) (System.start 0) (handover.take 4)).layout.registry.ExclusiveAt 50001 := by
  refine System.claims_exclusive_of_uncontested rivalId 0 handover handover_guarded (handover.take 4)
    (List.take_prefix 4 handover) 50001 ?_
  simp only [handover, List.take_succ_cons, List.take_zero, Run.after_cons, Run.after_nil]
  rw [step_bothOpen, step_firstRegistered, step_takenOver]
  exact (by decide : (50000 : Int) ≤ 50001)

end Takeover

end EdgeGateway.PointStore
