import EdgeGateway.PointStore.Claims

/-! # What the claim operations do -/

namespace EdgeGateway.PointStore

open Slots

theorem isOwnerAlive_of_later {slot : SharedOwnerSlot} {t t' : Int} (ht : t ≤ t')
    (h : isOwnerAlive slot t' = true) : isOwnerAlive slot t = true := by
  simp only [isOwnerAlive, Bool.and_eq_true, decide_eq_true_eq] at h ⊢
  exact ⟨h.1, by omega⟩

theorem occupied_of_alive {slot : SharedOwnerSlot} {t : Int} (h : isOwnerAlive slot t = true) :
    slot.occupied = true := by
  simp only [isOwnerAlive, Bool.and_eq_true] at h
  exact h.1.1

theorem isOwnerAlive_stamped {slot : SharedOwnerSlot} {t : Int} (hOccupied : slot.occupied = true)
    (hStamp : slot.heartbeatMs = t) (ht : 0 < t) : isOwnerAlive slot t = true := by
  simp [isOwnerAlive, hOccupied, hStamp, ht, kOwnerLeaseMs]

namespace ClaimRegistry

def Present (r : ClaimRegistry) (ownerId : UInt64) : Prop :=
  ∃ k, (r.owners k).occupied = true ∧ (r.owners k).ownerId = ownerId

def OwnerAlive (r : ClaimRegistry) (ownerId : UInt64) (t : Int) : Prop :=
  ∃ k, (r.owners k).ownerId = ownerId ∧ isOwnerAlive (r.owners k) t = true

def ClaimedIn (claims : Fin kMaxClaimSlots → SharedClaimSlot) (index : UInt32) (ownerId : UInt64) : Prop :=
  ∃ c, (claims c).occupied = true ∧ (claims c).index = index ∧ (claims c).ownerId = ownerId

def Claimed (r : ClaimRegistry) (index : UInt32) (ownerId : UInt64) : Prop := ClaimedIn r.claims index ownerId

def Stale (r : ClaimRegistry) (t : Int) (k : Fin kMaxOwnerSlots) : Prop :=
  (r.owners k).occupied = true ∧ isOwnerAlive (r.owners k) t = false

instance (r : ClaimRegistry) (t : Int) (k : Fin kMaxOwnerSlots) : Decidable (r.Stale t k) :=
  inferInstanceAs (Decidable (_ ∧ _))

theorem OwnerAlive.earlier {r : ClaimRegistry} {ownerId : UInt64} {t t' : Int} (ht : t ≤ t')
    (h : r.OwnerAlive ownerId t') : r.OwnerAlive ownerId t := by
  obtain ⟨k, hId, hAlive⟩ := h
  exact ⟨k, hId, isOwnerAlive_of_later ht hAlive⟩

theorem isIndexClaimedByOtherActiveOwner_iff (r : ClaimRegistry) (index : UInt32) (ownerId : UInt64)
    (t : Int) : r.isIndexClaimedByOtherActiveOwner index ownerId t = true ↔
      ∃ other, other ≠ ownerId ∧ r.Claimed index other ∧ r.OwnerAlive other t := by
  simp only [isIndexClaimedByOtherActiveOwner, anySlot_eq_true, Bool.and_eq_true, beq_iff_eq,
    bne_iff_ne]
  constructor
  · rintro ⟨c, ⟨⟨hOccupied, hIndex⟩, hOther⟩, k, ⟨_, hId⟩, hAlive⟩
    exact ⟨_, hOther, ⟨c, hOccupied, hIndex, rfl⟩, k, hId, hAlive⟩
  · rintro ⟨other, hOther, ⟨c, hOccupied, hIndex, rfl⟩, k, hId, hAlive⟩
    exact ⟨c, ⟨⟨hOccupied, hIndex⟩, hOther⟩, k, ⟨occupied_of_alive hAlive, hId⟩, hAlive⟩

theorem claimedByOtherOwners_eq (r : ClaimRegistry) (ownerId : UInt64) (t : Int) (index : UInt32) :
    r.claimedByOtherOwners ownerId t index = r.isIndexClaimedByOtherActiveOwner index ownerId t := by
  rw [Bool.eq_iff_iff, isIndexClaimedByOtherActiveOwner_iff]
  simp only [claimedByOtherOwners, activeOtherOwner, anySlot_eq_true, Bool.and_eq_true, beq_iff_eq,
    bne_iff_ne]
  constructor
  · rintro ⟨c, ⟨hOccupied, k, ⟨hOther, hAlive⟩, hId⟩, hIndex⟩
    exact ⟨_, hId ▸ hOther, ⟨c, hOccupied, hIndex, rfl⟩, k, hId, hAlive⟩
  · rintro ⟨other, hOther, ⟨c, hOccupied, hIndex, rfl⟩, k, hId, hAlive⟩
    exact ⟨c, ⟨hOccupied, k, ⟨hId ▸ hOther, hAlive⟩, hId⟩, hIndex⟩

section Cleanup

theorem cleanupOwner_eq (r : ClaimRegistry) (t : Int) (i : Fin kMaxOwnerSlots) :
    cleanupOwner t r i = if r.Stale t i then
      { owners := Function.update r.owners i {}
        claims := resetWhere (fun claim => claim.occupied && claim.ownerId == (r.owners i).ownerId) {} r.claims }
      else r := by
  unfold cleanupOwner
  by_cases hStale : r.Stale t i
  · simp [hStale, hStale.1, hStale.2]
  · have hKept : (!(r.owners i).occupied || isOwnerAlive (r.owners i) t) = true := by
      rw [Stale] at hStale
      cases hOccupied : (r.owners i).occupied <;> simp_all
    simp only [hKept, if_true, if_neg hStale]

theorem cleanupOwner_owners (r : ClaimRegistry) (t : Int) (i k : Fin kMaxOwnerSlots) :
    (cleanupOwner t r i).owners k = if k = i ∧ r.Stale t k then {} else r.owners k := by
  rw [cleanupOwner_eq]
  by_cases hk : k = i
  · subst hk
    by_cases hStale : r.Stale t k <;> simp [hStale]
  · by_cases hStale : r.Stale t i <;> simp [hStale, hk]

theorem cleanupOwner_claims (r : ClaimRegistry) (t : Int) (i : Fin kMaxOwnerSlots) (c : Fin kMaxClaimSlots) :
    (cleanupOwner t r i).claims c =
      if r.Stale t i ∧ (r.claims c).occupied = true ∧ (r.claims c).ownerId = (r.owners i).ownerId then {}
      else r.claims c := by
  rw [cleanupOwner_eq]
  by_cases hStale : r.Stale t i <;> simp [hStale, resetWhere]

theorem foldl_cleanupOwner_owners (t : Int) (visited : List (Fin kMaxOwnerSlots)) (hNodup : visited.Nodup)
    (r : ClaimRegistry) (k : Fin kMaxOwnerSlots) :
    (visited.foldl (cleanupOwner t) r).owners k =
      if k ∈ visited ∧ r.Stale t k then {} else r.owners k := by
  induction visited generalizing r with
  | nil => simp
  | cons i rest ih =>
    obtain ⟨hNotMem, hRest⟩ := List.nodup_cons.mp hNodup
    rw [List.foldl_cons, ih hRest]
    by_cases hk : k = i
    · subst hk
      simp [hNotMem, cleanupOwner_owners]
    · have hSame : (cleanupOwner t r i).owners k = r.owners k := by simp [cleanupOwner_owners, hk]
      simp [Stale, hSame, hk]

theorem foldl_cleanupOwner_claims_kept (t : Int) (visited : List (Fin kMaxOwnerSlots)) (hNodup : visited.Nodup)
    (r : ClaimRegistry) (c : Fin kMaxClaimSlots)
    (h : (r.claims c).occupied = true → ∀ i ∈ visited, r.Stale t i → (r.owners i).ownerId ≠ (r.claims c).ownerId) :
    (visited.foldl (cleanupOwner t) r).claims c = r.claims c := by
  induction visited generalizing r with
  | nil => rfl
  | cons i rest ih =>
    obtain ⟨hNotMem, hRest⟩ := List.nodup_cons.mp hNodup
    have hFirst : (cleanupOwner t r i).claims c = r.claims c := by
      rw [cleanupOwner_claims, if_neg]
      rintro ⟨hStale, hOccupied, hId⟩
      exact h hOccupied i List.mem_cons_self hStale hId.symm
    rw [List.foldl_cons, ih hRest, hFirst]
    intro hOccupied k hk hStale
    rw [hFirst] at hOccupied ⊢
    have hSame : (cleanupOwner t r i).owners k = r.owners k := by
      have hne : k ≠ i := fun hEq => hNotMem (hEq ▸ hk)
      simp [cleanupOwner_owners, hne]
    rw [Stale, hSame] at hStale
    rw [hSame]
    exact h hOccupied k (List.mem_cons_of_mem _ hk) hStale

theorem foldl_cleanupOwner_claims_cleared (t : Int) (visited : List (Fin kMaxOwnerSlots)) (hNodup : visited.Nodup)
    (r : ClaimRegistry) (c : Fin kMaxClaimSlots) (hOccupied : (r.claims c).occupied = true)
    (i : Fin kMaxOwnerSlots) (hi : i ∈ visited) (hStale : r.Stale t i)
    (hId : (r.owners i).ownerId = (r.claims c).ownerId) :
    (visited.foldl (cleanupOwner t) r).claims c = {} := by
  induction visited generalizing r with
  | nil => cases hi
  | cons k rest ih =>
    obtain ⟨hNotMem, hRest⟩ := List.nodup_cons.mp hNodup
    rw [List.foldl_cons]
    by_cases hCleared : r.Stale t k ∧ (r.claims c).occupied = true ∧ (r.claims c).ownerId = (r.owners k).ownerId
    · have hBlank : (cleanupOwner t r k).claims c = {} := by rw [cleanupOwner_claims, if_pos hCleared]
      rw [foldl_cleanupOwner_claims_kept t rest hRest _ _ (by simp [hBlank]), hBlank]
    · have hKept : (cleanupOwner t r k).claims c = r.claims c := by rw [cleanupOwner_claims, if_neg hCleared]
      obtain rfl | hi := List.mem_cons.mp hi
      · exact absurd ⟨hStale, hOccupied, hId.symm⟩ hCleared
      · have hSame : (cleanupOwner t r k).owners i = r.owners i := by
          have hne : i ≠ k := fun hEq => hNotMem (hEq ▸ hi)
          simp [cleanupOwner_owners, hne]
        apply ih hRest (cleanupOwner t r k) (hKept ▸ hOccupied) hi
        · rwa [Stale, hSame]
        · rw [hSame, hKept, hId]

variable {r : ClaimRegistry} {t : Int}

theorem cleanup_owners (k : Fin kMaxOwnerSlots) : (r.cleanupStaleOwnersAndClaims t).owners k =
    if r.Stale t k then {} else r.owners k := by
  rw [cleanupStaleOwnersAndClaims, foldl_cleanupOwner_owners t _ (List.nodup_finRange _)]
  simp

theorem alive_of_present_cleanup {ownerId : UInt64}
    (h : (r.cleanupStaleOwnersAndClaims t).Present ownerId) :
    (r.cleanupStaleOwnersAndClaims t).OwnerAlive ownerId t := by
  obtain ⟨k, hOccupied, hId⟩ := h
  refine ⟨k, hId, ?_⟩
  rw [cleanup_owners] at hOccupied ⊢
  split at hOccupied
  · cases hOccupied
  · next hKept =>
    rw [if_neg hKept]
    exact Bool.eq_true_of_not_eq_false fun hDead => hKept ⟨hOccupied, hDead⟩

theorem OwnerAlive.of_cleanup {ownerId : UInt64} {t' : Int}
    (h : (r.cleanupStaleOwnersAndClaims t).OwnerAlive ownerId t') : r.OwnerAlive ownerId t' := by
  obtain ⟨k, hId, hAlive⟩ := h
  rw [cleanup_owners] at hId hAlive
  split at hAlive
  · cases occupied_of_alive hAlive
  · next hKept =>
    rw [if_neg hKept] at hId
    exact ⟨k, hId, hAlive⟩

theorem cleanup_claims_kept (c : Fin kMaxClaimSlots)
    (h : (r.claims c).occupied = true → ∀ k, r.Stale t k → (r.owners k).ownerId ≠ (r.claims c).ownerId) :
    (r.cleanupStaleOwnersAndClaims t).claims c = r.claims c := by
  rw [cleanupStaleOwnersAndClaims]
  exact foldl_cleanupOwner_claims_kept t _ (List.nodup_finRange _) r c fun hOccupied k _ => h hOccupied k

theorem cleanup_claims_cleared (c : Fin kMaxClaimSlots) (hOccupied : (r.claims c).occupied = true)
    (k : Fin kMaxOwnerSlots) (hStale : r.Stale t k) (hId : (r.owners k).ownerId = (r.claims c).ownerId) :
    (r.cleanupStaleOwnersAndClaims t).claims c = {} := by
  rw [cleanupStaleOwnersAndClaims]
  exact foldl_cleanupOwner_claims_cleared t _ (List.nodup_finRange _) r c hOccupied k (List.mem_finRange k)
    hStale hId

theorem claimed_cleanup_iff {index : UInt32} {ownerId : UInt64} :
    (r.cleanupStaleOwnersAndClaims t).Claimed index ownerId ↔
      r.Claimed index ownerId ∧ ∀ k, r.Stale t k → (r.owners k).ownerId ≠ ownerId := by
  constructor
  · rintro ⟨c, hOccupied, hIndex, hId⟩
    by_cases hHeld : (r.claims c).occupied = true → ∀ k, r.Stale t k → (r.owners k).ownerId ≠ (r.claims c).ownerId
    · rw [cleanup_claims_kept c hHeld] at hOccupied hIndex hId
      exact ⟨⟨c, hOccupied, hIndex, hId⟩, fun k hk => hId ▸ hHeld hOccupied k hk⟩
    · push Not at hHeld
      obtain ⟨hBefore, k, hStale, hEq⟩ := hHeld
      rw [cleanup_claims_cleared c hBefore k hStale hEq] at hOccupied
      cases hOccupied
  · rintro ⟨⟨c, hOccupied, hIndex, rfl⟩, hAlive⟩
    refine ⟨c, ?_⟩
    rw [cleanup_claims_kept c fun _ k hStale => hAlive k hStale]
    exact ⟨hOccupied, hIndex, rfl⟩

end Cleanup

section Touch

theorem touchOwnerSlot_ok {r r' : ClaimRegistry} {ownerId : UInt64} {source : StdString} {ts : Int}
    (h : r.touchOwnerSlot ownerId source ts = .ok r') :
    r'.claims = r.claims ∧ ∃ k, (r'.owners k).ownerId = ownerId ∧ (r'.owners k).occupied = true ∧
      (r'.owners k).heartbeatMs = ts ∧ (∀ j, j ≠ k → r'.owners j = r.owners j) ∧
      ((r.owners k).occupied = true → (r.owners k).ownerId = ownerId) := by
  unfold touchOwnerSlot allocateOwnerSlot at h
  cases hFind : r.findOwnerSlot ownerId with
  | some k =>
    have hSlot := firstSlot_some hFind
    simp only [Bool.and_eq_true, beq_iff_eq] at hSlot
    simp only [hFind, Except.ok.injEq] at h
    subst h
    refine ⟨rfl, k, ?_, ?_, ?_, ?_, fun _ => hSlot.2⟩
    · simpa using hSlot.2
    · simpa using hSlot.1
    · simp
    · intro j hj
      simp [hj]
  | none =>
    cases hFree : firstSlot (fun slot : SharedOwnerSlot => !slot.occupied) r.owners with
    | none => simp [hFind, hFree] at h
    | some k =>
      have hSlot := firstSlot_some hFree
      simp only [Bool.not_eq_true'] at hSlot
      simp only [hFind, hFree, Except.ok.injEq] at h
      subst h
      refine ⟨rfl, k, by simp, by simp, by simp, ?_, fun hOccupied => ?_⟩
      · intro j hj
        simp [hj]
      · rw [hSlot] at hOccupied
        cases hOccupied

variable {r r' : ClaimRegistry} {ownerId : UInt64} {source : StdString} {ts : Int}

theorem touchOwnerSlot_exists {k : Fin kMaxOwnerSlots} (hBlank : (r.owners k).occupied = false) :
    ∃ touched, r.touchOwnerSlot ownerId source ts = .ok touched := by
  unfold touchOwnerSlot allocateOwnerSlot
  cases r.findOwnerSlot ownerId with
  | some existing => exact ⟨_, rfl⟩
  | none =>
    obtain ⟨free, hFree⟩ := @firstSlot_exists _ _ (fun slot : SharedOwnerSlot => !slot.occupied) r.owners k
      (by simp [hBlank])
    simp only [hFree]
    exact ⟨_, rfl⟩

theorem OwnerAlive.of_touch (h : r.touchOwnerSlot ownerId source ts = .ok r') {other : UInt64} {t : Int}
    (hOther : other ≠ ownerId) (hAlive : r'.OwnerAlive other t) : r.OwnerAlive other t := by
  obtain ⟨_, k, hId, _, _, hSame, _⟩ := touchOwnerSlot_ok h
  obtain ⟨j, hj, hjAlive⟩ := hAlive
  have hne : j ≠ k := fun hEq => hOther (hj.symm.trans (hEq ▸ hId))
  rw [hSame j hne] at hj hjAlive
  exact ⟨j, hj, hjAlive⟩

theorem Present.touch (h : r.touchOwnerSlot ownerId source ts = .ok r') {other : UInt64}
    (hPresent : r.Present other) : r'.Present other := by
  obtain ⟨_, k, hId, hOccupied, _, hSame, hWas⟩ := touchOwnerSlot_ok h
  obtain ⟨j, hj, hjId⟩ := hPresent
  by_cases hne : j = k
  · subst hne
    exact ⟨j, hOccupied, hId.trans ((hWas hj).symm.trans hjId)⟩
  · exact ⟨j, by rw [hSame j hne]; exact ⟨hj, hjId⟩⟩

theorem present_touch (h : r.touchOwnerSlot ownerId source ts = .ok r') : r'.Present ownerId := by
  obtain ⟨_, k, hId, hOccupied, _⟩ := touchOwnerSlot_ok h
  exact ⟨k, hOccupied, hId⟩

theorem alive_touch (h : r.touchOwnerSlot ownerId source ts = .ok r') (hTs : 0 < ts) :
    r'.OwnerAlive ownerId ts := by
  obtain ⟨_, k, hId, hOccupied, hStamp, _⟩ := touchOwnerSlot_ok h
  exact ⟨k, hId, isOwnerAlive_stamped hOccupied hStamp hTs⟩

theorem OwnerAlive.touch (h : r.touchOwnerSlot ownerId source ts = .ok r') {other : UInt64} {t : Int}
    (hOther : other ≠ ownerId) (hAlive : r.OwnerAlive other t) : r'.OwnerAlive other t := by
  obtain ⟨_, k, _, _, _, hSame, hWas⟩ := touchOwnerSlot_ok h
  obtain ⟨j, hj, hjAlive⟩ := hAlive
  have hne : j ≠ k := by
    rintro rfl
    exact hOther (hj.symm.trans (hWas (occupied_of_alive hjAlive)))
  exact ⟨j, by rw [hSame j hne]; exact ⟨hj, hjAlive⟩⟩

end Touch

section Assign

variable {claims : Fin kMaxClaimSlots → SharedClaimSlot} {k : Fin kMaxClaimSlots} {ts : Int}
  {index : UInt32} {ownerId other : UInt64}

@[simp] theorem refreshClaim_occupied (j : Fin kMaxClaimSlots) :
    (refreshClaim claims k ts j).occupied = (claims j).occupied := by
  by_cases hj : j = k
  · subst hj
    simp [refreshClaim]
  · simp [refreshClaim, hj]

@[simp] theorem claimedIn_refreshClaim :
    ClaimedIn (refreshClaim claims k ts) index other ↔ ClaimedIn claims index other := by
  refine exists_congr fun j => ?_
  by_cases hj : j = k
  · subst hj
    simp [refreshClaim]
  · simp [refreshClaim, hj]

theorem takeClaim_of_ne {point : UInt32} {j : Fin kMaxClaimSlots} (hj : j ≠ k) :
    takeClaim claims k point ownerId ts j = claims j := by
  simp [takeClaim, hj]

theorem claimedIn_takeClaim_self {point : UInt32} : ClaimedIn (takeClaim claims k point ownerId ts) point ownerId :=
  ⟨k, by simp [takeClaim]⟩

theorem ClaimedIn.takeClaim {point : UInt32} (hBlank : (claims k).occupied = false)
    (h : ClaimedIn claims index other) :
    ClaimedIn (ClaimRegistry.takeClaim claims k point ownerId ts) index other := by
  obtain ⟨c, hOccupied, hSlot⟩ := h
  have hc : c ≠ k := by
    rintro rfl
    rw [hBlank] at hOccupied
    cases hOccupied
  refine ⟨c, ?_⟩
  rw [takeClaim_of_ne hc]
  exact ⟨hOccupied, hSlot⟩

theorem claimedIn_takeClaim {point : UInt32} (h : ClaimedIn (takeClaim claims k point ownerId ts) index other) :
    ClaimedIn claims index other ∨ other = ownerId ∧ index = point := by
  obtain ⟨c, hSlot⟩ := h
  by_cases hc : c = k
  · subst hc
    simp only [takeClaim, Function.update_self] at hSlot
    exact Or.inr ⟨hSlot.2.2.symm, hSlot.2.1.symm⟩
  · rw [takeClaim_of_ne hc] at hSlot
    exact Or.inl ⟨c, hSlot⟩

structure FreeSlots (claims : Fin kMaxClaimSlots → SharedClaimSlot) (free : List (Fin kMaxClaimSlots)) :
    Prop where
  blank : ∀ k ∈ free, (claims k).occupied = false
  nodup : free.Nodup

theorem FreeSlots.refreshed {free : List (Fin kMaxClaimSlots)} (h : FreeSlots claims free) :
    FreeSlots (refreshClaim claims k ts) free :=
  ⟨fun j hj => by rw [refreshClaim_occupied]; exact h.blank j hj, h.nodup⟩

theorem FreeSlots.taken {free : List (Fin kMaxClaimSlots)} {point : UInt32} (h : FreeSlots claims (k :: free)) :
    FreeSlots (takeClaim claims k point ownerId ts) free := by
  obtain ⟨hNotMem, hNodup⟩ := List.nodup_cons.mp h.nodup
  refine ⟨fun j hj => ?_, hNodup⟩
  have hjk : j ≠ k := fun hEq => hNotMem (hEq ▸ hj)
  rw [takeClaim_of_ne hjk]
  exact h.blank j (List.mem_cons_of_mem _ hj)

variable {own : UInt32 → Option (Fin kMaxClaimSlots)} {points : List UInt32}
  {free : List (Fin kMaxClaimSlots)}

/-- Nothing is claimed that was not claimed before, except the given points by the
given owner. -/
theorem claimedIn_assignClaims (h : ClaimedIn (assignClaims ownerId ts own points free claims).1 index other) :
    ClaimedIn claims index other ∨ other = ownerId ∧ index ∈ points := by
  induction points generalizing free claims with
  | nil => exact Or.inl h
  | cons point rest ih =>
    unfold assignClaims at h
    cases hOwn : own point with
    | some k =>
      simp only [hOwn] at h
      obtain hClaimed | ⟨hOther, hMem⟩ := ih h
      · exact Or.inl (claimedIn_refreshClaim.mp hClaimed)
      · exact Or.inr ⟨hOther, List.mem_cons_of_mem _ hMem⟩
    | none =>
      cases free with
      | nil =>
        simp only [hOwn] at h
        exact Or.inl h
      | cons k free =>
        simp only [hOwn] at h
        obtain hClaimed | ⟨hOther, hMem⟩ := ih h
        · obtain hClaimed | ⟨hOther, rfl⟩ := claimedIn_takeClaim hClaimed
          · exact Or.inl hClaimed
          · exact Or.inr ⟨hOther, List.mem_cons_self⟩
        · exact Or.inr ⟨hOther, List.mem_cons_of_mem _ hMem⟩

theorem ClaimedIn.assignClaims (hFree : FreeSlots claims free) (h : ClaimedIn claims index other) :
    ClaimedIn (ClaimRegistry.assignClaims ownerId ts own points free claims).1 index other := by
  induction points generalizing free claims with
  | nil => exact h
  | cons point rest ih =>
    unfold ClaimRegistry.assignClaims
    cases hOwn : own point with
    | some k => exact ih hFree.refreshed (claimedIn_refreshClaim.mpr h)
    | none =>
      cases free with
      | nil => exact h
      | cons k free => exact ih hFree.taken (h.takeClaim (hFree.blank k List.mem_cons_self))

theorem assignClaims_error (h : points.length ≤ free.length) :
    (assignClaims ownerId ts own points free claims).2 = none := by
  induction points generalizing free claims with
  | nil => rfl
  | cons point rest ih =>
    simp only [List.length_cons] at h
    unfold assignClaims
    cases hOwn : own point with
    | some k => exact ih (by omega)
    | none =>
      cases free with
      | nil => simp at h
      | cons k free => exact ih (by simpa using h)

theorem claimedIn_of_assignClaims (hFree : FreeSlots claims free)
    (hOwn : ∀ point k, own point = some k → ClaimedIn claims point ownerId)
    (hOk : (assignClaims ownerId ts own points free claims).2 = none) (point : UInt32)
    (hPoint : point ∈ points) :
    ClaimedIn (assignClaims ownerId ts own points free claims).1 point ownerId := by
  induction points generalizing free claims with
  | nil => cases hPoint
  | cons first rest ih =>
    unfold assignClaims at hOk ⊢
    cases hFirst : own first with
    | some k =>
      simp only [hFirst] at hOk ⊢
      obtain rfl | hPoint := List.mem_cons.mp hPoint
      · exact (claimedIn_refreshClaim.mpr (hOwn point k hFirst)).assignClaims hFree.refreshed
      · exact ih hFree.refreshed (fun p j hp => claimedIn_refreshClaim.mpr (hOwn p j hp)) hOk hPoint
    | none =>
      cases free with
      | nil => simp [hFirst] at hOk
      | cons k free =>
        simp only [hFirst] at hOk ⊢
        have hBlank := hFree.blank k List.mem_cons_self
        obtain rfl | hPoint := List.mem_cons.mp hPoint
        · exact claimedIn_takeClaim_self.assignClaims hFree.taken
        · exact ih hFree.taken (fun p j hp => (hOwn p j hp).takeClaim hBlank) hOk hPoint

end Assign

section Heartbeat

variable {ownerId : UInt64} {nowMs : Int}

structure ScanSound (ownerId : UInt64) (claims : Fin kMaxClaimSlots → SharedClaimSlot)
    (registered : Finset UInt32) (scan : HeartbeatScan) : Prop where
  occupied : ∀ c, (scan.claims c).occupied = (claims c).occupied
  claimed : ∀ index other, ClaimedIn scan.claims index other ↔ ClaimedIn claims index other
  pending : scan.pendingIndexes ⊆ registered
  held : ∀ index ∈ registered, index ∈ scan.pendingIndexes ∨ ClaimedIn claims index ownerId
  free : ∀ c ∈ scan.freeClaims, (claims c).occupied = false

theorem ScanSound.visit {claims : Fin kMaxClaimSlots → SharedClaimSlot} {registered : Finset UInt32}
    {scan : HeartbeatScan} (h : ScanSound ownerId claims registered scan) (i : Fin kMaxClaimSlots) :
    ScanSound ownerId claims registered (heartbeatVisit ownerId nowMs scan i) := by
  unfold heartbeatVisit
  simp only
  split_ifs with hOccupied hMine hRoom
  · refine ⟨fun c => ?_, fun index other => ?_, ?_, fun index hIndex => ?_, h.free⟩
    · rw [refreshClaim_occupied]
      exact h.occupied c
    · rw [claimedIn_refreshClaim]
      exact h.claimed index other
    · exact (Finset.erase_subset _ _).trans h.pending
    · by_cases hSame : index = (scan.claims i).index
      · exact Or.inr ((h.claimed _ _).mp ⟨i, hOccupied, hSame.symm, hMine.1⟩)
      · obtain hPending | hHeld := h.held index hIndex
        · exact Or.inl (Finset.mem_erase.mpr ⟨hSame, hPending⟩)
        · exact Or.inr hHeld
  · exact h
  · refine ⟨h.occupied, h.claimed, h.pending, h.held, fun c hc => ?_⟩
    obtain hc | hc := List.mem_append.mp hc
    · exact h.free c hc
    · rw [List.mem_singleton.mp hc, ← h.occupied]
      exact Bool.eq_false_of_not_eq_true hOccupied
  · exact h

theorem ScanSound.foldl {claims : Fin kMaxClaimSlots → SharedClaimSlot} {registered : Finset UInt32}
    (visited : List (Fin kMaxClaimSlots)) {scan : HeartbeatScan} (h : ScanSound ownerId claims registered scan) :
    ScanSound ownerId claims registered (visited.foldl (heartbeatVisit ownerId nowMs) scan) := by
  induction visited generalizing scan with
  | nil => exact h
  | cons i rest ih => exact ih (h.visit i)

theorem scanSound_heartbeatScan (r : ClaimRegistry) (ownerId : UInt64) (nowMs : Int) (registered : Finset UInt32) :
    ScanSound ownerId r.claims registered (r.heartbeatScan ownerId nowMs registered) := by
  unfold heartbeatScan
  apply ScanSound.foldl
  exact ⟨fun _ => rfl, fun _ _ => Iff.rfl, Finset.Subset.refl _, fun _ h => Or.inl h, by simp⟩

theorem freeClaims_heartbeatVisit (scan : HeartbeatScan) (i : Fin kMaxClaimSlots) :
    (heartbeatVisit ownerId nowMs scan i).freeClaims = scan.freeClaims ∨
      (heartbeatVisit ownerId nowMs scan i).freeClaims = scan.freeClaims ++ [i] := by
  unfold heartbeatVisit
  simp only
  split_ifs
  · exact Or.inl rfl
  · exact Or.inl rfl
  · exact Or.inr rfl
  · exact Or.inl rfl

theorem freeClaims_sublist (visited : List (Fin kMaxClaimSlots)) (scan : HeartbeatScan) :
    (visited.foldl (heartbeatVisit ownerId nowMs) scan).freeClaims.Sublist (scan.freeClaims ++ visited) := by
  induction visited generalizing scan with
  | nil => simp
  | cons i rest ih =>
    rw [List.foldl_cons]
    refine (ih _).trans ?_
    obtain hFree | hFree := freeClaims_heartbeatVisit scan i
    · rw [hFree]
      exact (List.sublist_cons_self i rest).append_left _
    · rw [hFree, List.append_assoc]
      exact List.Sublist.refl _

theorem freeSlots_heartbeatScan (r : ClaimRegistry) (ownerId : UInt64) (nowMs : Int) (registered : Finset UInt32) :
    FreeSlots (r.heartbeatScan ownerId nowMs registered).claims
      (r.heartbeatScan ownerId nowMs registered).freeClaims := by
  have hSound := scanSound_heartbeatScan r ownerId nowMs registered
  refine ⟨fun c hc => ?_, ?_⟩
  · rw [hSound.occupied]
    exact hSound.free c hc
  · unfold heartbeatScan
    apply (freeClaims_sublist _ _).nodup
    rw [List.nil_append]
    exact List.nodup_finRange kMaxClaimSlots

theorem heartbeatVisit_occupied (scan : HeartbeatScan) (i c : Fin kMaxClaimSlots) :
    ((heartbeatVisit ownerId nowMs scan i).claims c).occupied = (scan.claims c).occupied := by
  unfold heartbeatVisit
  simp only
  split_ifs <;> simp

def blankCount (claims : Fin kMaxClaimSlots → SharedClaimSlot) (visited : List (Fin kMaxClaimSlots)) : Nat :=
  visited.countP fun c => !(claims c).occupied

theorem card_le_freeClaims (visited : List (Fin kMaxClaimSlots)) (scan : HeartbeatScan)
    (h : scan.pendingIndexes.card ≤ scan.freeClaims.length + blankCount scan.claims visited) :
    (visited.foldl (heartbeatVisit ownerId nowMs) scan).pendingIndexes.card ≤
      (visited.foldl (heartbeatVisit ownerId nowMs) scan).freeClaims.length := by
  induction visited generalizing scan with
  | nil => simpa [blankCount] using h
  | cons i rest ih =>
    rw [List.foldl_cons]
    apply ih
    have hBlank : blankCount (heartbeatVisit ownerId nowMs scan i).claims rest = blankCount scan.claims rest := by
      simp only [blankCount, heartbeatVisit_occupied]
    rw [hBlank]
    simp only [blankCount, List.countP_cons] at h ⊢
    unfold heartbeatVisit
    simp only
    split_ifs with hOccupied hMine hRoom
    · simp only [hOccupied, Bool.not_true, Bool.false_eq_true, if_false] at h
      have hErase := Finset.card_erase_le (s := scan.pendingIndexes) (a := (scan.claims i).index)
      simp only
      omega
    · simpa [hOccupied] using h
    · simp only [List.length_append, List.length_singleton]
      simp only [hOccupied, Bool.not_false, if_true] at h
      omega
    · omega

end Heartbeat

section Grant

/-- The cleaned registry, or one with the owner's slot stamped and some of the points claimed for it. -/
inductive Granted (r : ClaimRegistry) (ownerId : UInt64) (t : Int) (points : UInt32 → Prop) :
    ClaimRegistry → Prop where
  | cleaned : Granted r ownerId t points (r.cleanupStaleOwnersAndClaims t)
  | touched {source : StdString} {touched r' : ClaimRegistry}
      (hTouch : (r.cleanupStaleOwnersAndClaims t).touchOwnerSlot ownerId source t = .ok touched)
      (hOwners : r'.owners = touched.owners)
      (hClaims : ∀ index other, r'.Claimed index other →
        (r.cleanupStaleOwnersAndClaims t).Claimed index other ∨ other = ownerId ∧ points index) :
      Granted r ownerId t points r'

variable (r : ClaimRegistry) (ownerId : UInt64) (source : StdString) (t : Int)

theorem claimNewPoints_granted (newPoints : List UInt32) :
    Granted r ownerId t
      (fun index => (r.cleanupStaleOwnersAndClaims t).isIndexClaimedByOtherActiveOwner index ownerId t = false)
      (r.claimNewPoints ownerId source newPoints t).1 := by
  unfold claimNewPoints
  simp only
  split
  · exact .cleaned
  · next hFree =>
    cases hTouch : (r.cleanupStaleOwnersAndClaims t).touchOwnerSlot ownerId source t with
    | error e => exact .cleaned
    | ok touched =>
      refine .touched hTouch rfl fun index other hClaimed => ?_
      obtain hClaimed | ⟨hOther, hMem⟩ := claimedIn_assignClaims hClaimed
      · rw [(touchOwnerSlot_ok hTouch).1] at hClaimed
        exact Or.inl hClaimed
      · refine Or.inr ⟨hOther, ?_⟩
        rw [← claimedByOtherOwners_eq]
        simp only [List.any_eq_true, not_exists, not_and, Bool.not_eq_true] at hFree
        exact hFree index hMem

theorem heartbeatRegisteredPoints_granted (registered : Finset UInt32) (order : HashOrder) :
    Granted r ownerId t (· ∈ registered) (r.heartbeatRegisteredPoints ownerId source registered order t).1 := by
  unfold heartbeatRegisteredPoints
  simp only
  cases hTouch : (r.cleanupStaleOwnersAndClaims t).touchOwnerSlot ownerId source t with
  | error e => exact .cleaned
  | ok touched =>
    have hSound := scanSound_heartbeatScan touched ownerId t registered
    refine .touched hTouch rfl fun index other hClaimed => ?_
    obtain hClaimed | ⟨hOther, hMem⟩ := claimedIn_assignClaims hClaimed
    · rw [hSound.claimed, (touchOwnerSlot_ok hTouch).1] at hClaimed
      exact Or.inl hClaimed
    · exact Or.inr ⟨hOther, hSound.pending ((order.mem_arrange _ _).mp hMem)⟩

/-- Every registered index is claimed and nothing is taken from the owners that the cleanup has kept. -/
theorem heartbeatRegisteredPoints_ok {touched : ClaimRegistry} (registered : Finset UInt32) (order : HashOrder)
    (hTouch : (r.cleanupStaleOwnersAndClaims t).touchOwnerSlot ownerId source t = .ok touched)
    (hRoom : registered.card ≤ blankCount touched.claims (List.finRange kMaxClaimSlots)) :
    (r.heartbeatRegisteredPoints ownerId source registered order t).1.owners = touched.owners ∧
    (∀ index ∈ registered,
      (r.heartbeatRegisteredPoints ownerId source registered order t).1.Claimed index ownerId) ∧
    ∀ index other, (r.cleanupStaleOwnersAndClaims t).Claimed index other →
      (r.heartbeatRegisteredPoints ownerId source registered order t).1.Claimed index other := by
  have hSound := scanSound_heartbeatScan touched ownerId t registered
  have hFree := freeSlots_heartbeatScan touched ownerId t registered
  have hLength : (order.arrange (touched.heartbeatScan ownerId t registered).pendingIndexes).length ≤
      (touched.heartbeatScan ownerId t registered).freeClaims.length := by
    rw [← List.toFinset_card_of_nodup (order.nodup_arrange _)]
    have hSame : (order.arrange (touched.heartbeatScan ownerId t registered).pendingIndexes).toFinset =
        (touched.heartbeatScan ownerId t registered).pendingIndexes := by
      ext index
      rw [List.mem_toFinset, order.mem_arrange]
    rw [hSame]
    unfold heartbeatScan
    exact card_le_freeClaims _ _ (by simpa using hRoom)
  have hClaims : touched.claims = (r.cleanupStaleOwnersAndClaims t).claims := (touchOwnerSlot_ok hTouch).1
  unfold heartbeatRegisteredPoints
  simp only [hTouch]
  refine ⟨trivial, fun index hIndex => ?_, fun index other hClaimed => ?_⟩
  · obtain hPending | hHeld := hSound.held index hIndex
    · exact claimedIn_of_assignClaims hFree (by simp) (assignClaims_error hLength) index
        ((order.mem_arrange _ _).mpr hPending)
    · exact ((hSound.claimed _ _).mpr hHeld).assignClaims hFree
  · refine ((hSound.claimed _ _).mpr ?_).assignClaims hFree
    rw [hClaims]
    exact hClaimed

end Grant

section Drop

variable {r : ClaimRegistry} {ownerId other : UInt64}

theorem claimed_dropOwner_iff {index : UInt32} :
    (r.dropOwner ownerId).Claimed index other ↔ r.Claimed index other ∧ other ≠ ownerId := by
  constructor
  · rintro ⟨c, hSlot⟩
    simp only [dropOwner, resetWhere] at hSlot
    split at hSlot
    · cases hSlot.1
    · next hKept =>
      simp only [Bool.and_eq_true, beq_iff_eq, not_and] at hKept
      exact ⟨⟨c, hSlot⟩, hSlot.2.2 ▸ hKept hSlot.1⟩
  · rintro ⟨⟨c, hSlot⟩, hOther⟩
    refine ⟨c, ?_⟩
    simp only [dropOwner, resetWhere]
    rw [if_neg]
    · exact hSlot
    · simp only [Bool.and_eq_true, beq_iff_eq, not_and]
      exact fun _ hEq => hOther (hSlot.2.2.symm.trans hEq)

theorem dropOwner_owners_of_ne {k : Fin kMaxOwnerSlots} (h : (r.owners k).ownerId ≠ ownerId) :
    (r.dropOwner ownerId).owners k = r.owners k := by
  simp [dropOwner, resetWhere, h]

theorem OwnerAlive.of_dropOwner {t : Int} (h : (r.dropOwner ownerId).OwnerAlive other t) :
    r.OwnerAlive other t := by
  obtain ⟨k, hId, hAlive⟩ := h
  simp only [dropOwner, resetWhere] at hId hAlive
  split at hAlive
  · cases occupied_of_alive hAlive
  · next hKept =>
    rw [if_neg hKept] at hId
    exact ⟨k, hId, hAlive⟩

end Drop

end ClaimRegistry

end EdgeGateway.PointStore
