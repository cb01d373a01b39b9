import EdgeGateway.PointStore.Layout
import Mathlib.Data.Finset.Card

/-! # Owner and claim slots

A process claims the point indexes it registers and keeps its owner slot alive by heartbeats.
-/

namespace EdgeGateway.PointStore

open Slots

def isOwnerAlive (slot : SharedOwnerSlot) (nowMs : Int) : Bool :=
  slot.occupied && decide (slot.heartbeatMs > 0) && decide (nowMs - slot.heartbeatMs ≤ kOwnerLeaseMs)

namespace ClaimRegistry

def cleanupOwner (nowMs : Int) (registry : ClaimRegistry) (i : Fin kMaxOwnerSlots) : ClaimRegistry :=
  let owner := registry.owners i
  if !owner.occupied || isOwnerAlive owner nowMs then
    registry
  else
    { owners := Function.update registry.owners i {}
      claims := resetWhere (fun claim => claim.occupied && claim.ownerId == owner.ownerId) {} registry.claims }

def cleanupStaleOwnersAndClaims (registry : ClaimRegistry) (nowMs : Int) : ClaimRegistry :=
  (List.finRange kMaxOwnerSlots).foldl (cleanupOwner nowMs) registry

def isIndexClaimedByOtherActiveOwner (registry : ClaimRegistry) (index : UInt32) (ownerId : UInt64)
    (nowMs : Int) : Bool :=
  anySlot (fun claim => claim.occupied && claim.index == index && claim.ownerId != ownerId &&
    anySlot (fun owner => owner.occupied && owner.ownerId == claim.ownerId && isOwnerAlive owner nowMs)
      registry.owners) registry.claims

/-- Membership in the set `activeOtherOwners` of `registerDevicePoints`. -/
def activeOtherOwner (registry : ClaimRegistry) (ownerId : UInt64) (ts : Int) (other : UInt64) : Bool :=
  anySlot (fun owner => owner.ownerId != ownerId && isOwnerAlive owner ts && owner.ownerId == other)
    registry.owners

def claimedByOtherOwners (registry : ClaimRegistry) (ownerId : UInt64) (ts : Int) (index : UInt32) : Bool :=
  anySlot (fun claim => claim.occupied && registry.activeOtherOwner ownerId ts claim.ownerId &&
    claim.index == index) registry.claims

def findOwnerSlot (registry : ClaimRegistry) (ownerId : UInt64) : Option (Fin kMaxOwnerSlots) :=
  firstSlot (fun slot => slot.occupied && slot.ownerId == ownerId) registry.owners

def allocateOwnerSlot (registry : ClaimRegistry) (ownerId : UInt64) :
    Except StoreError (ClaimRegistry × Fin kMaxOwnerSlots) :=
  match registry.findOwnerSlot ownerId with
  | some existing => .ok (registry, existing)
  | none =>
    match firstSlot (fun slot => !slot.occupied) registry.owners with
    | some free =>
      .ok ({ registry with
        owners := Function.update registry.owners free { ownerId := ownerId, occupied := true } }, free)
    | none => .error .ownerRegistryFull

def touchOwnerSlot (registry : ClaimRegistry) (ownerId : UInt64) (source : StdString) (ts : Int) :
    Except StoreError ClaimRegistry :=
  match registry.allocateOwnerSlot ownerId with
  | .error e => .error e
  | .ok (registry, i) =>
    .ok { registry with
      owners := Function.update registry.owners i
        { registry.owners i with heartbeatMs := ts, source := copyString kSourceSize source } }

def refreshClaim (claims : Fin kMaxClaimSlots → SharedClaimSlot) (k : Fin kMaxClaimSlots) (ts : Int) :
    Fin kMaxClaimSlots → SharedClaimSlot :=
  Function.update claims k { claims k with heartbeatMs := ts }

def takeClaim (claims : Fin kMaxClaimSlots → SharedClaimSlot) (k : Fin kMaxClaimSlots) (index : UInt32)
    (ownerId : UInt64) (ts : Int) : Fin kMaxClaimSlots → SharedClaimSlot :=
  Function.update claims k { index := index, ownerId := ownerId, heartbeatMs := ts, occupied := true }

/-- A slot of its own is refreshed, otherwise the next free slot is taken, and running out of them throws. -/
def assignClaims (ownerId : UInt64) (ts : Int) (own : UInt32 → Option (Fin kMaxClaimSlots)) :
    List UInt32 → List (Fin kMaxClaimSlots) → (Fin kMaxClaimSlots → SharedClaimSlot) →
      (Fin kMaxClaimSlots → SharedClaimSlot) × Option StoreError
  | [], _, claims => (claims, none)
  | index :: rest, free, claims =>
    match own index with
    | some k => assignClaims ownerId ts own rest free (refreshClaim claims k ts)
    | none =>
      match free with
      | [] => (claims, some .claimRegistryFull)
      | k :: free => assignClaims ownerId ts own rest free (takeClaim claims k index ownerId ts)

def ownClaim (registry : ClaimRegistry) (ownerId : UInt64) (index : UInt32) : Option (Fin kMaxClaimSlots) :=
  firstSlot (fun claim => claim.occupied && claim.ownerId == ownerId && claim.index == index) registry.claims

def freeClaims (registry : ClaimRegistry) : List (Fin kMaxClaimSlots) :=
  (List.finRange kMaxClaimSlots).filter fun i => !(registry.claims i).occupied

/-- The part of `registerDevicePoints` that runs under the segment's lock. -/
def claimNewPoints (registry : ClaimRegistry) (ownerId : UInt64) (source : StdString)
    (newPoints : List UInt32) (ts : Int) : ClaimRegistry × Option StoreError :=
  let registry := registry.cleanupStaleOwnersAndClaims ts
  if newPoints.any (registry.claimedByOtherOwners ownerId ts) then
    (registry, some .pointClaimedByAnotherProcess)
  else
    match registry.touchOwnerSlot ownerId source ts with
    | .error e => (registry, some e)
    | .ok registry =>
      let assigned := assignClaims ownerId ts (registry.ownClaim ownerId) newPoints
        (registry.freeClaims.take newPoints.length) registry.claims
      ({ registry with claims := assigned.1 }, assigned.2)

/-- Own claims leave the pending set, free slots are remembered while they may still be needed. -/
structure HeartbeatScan where
  claims : Fin kMaxClaimSlots → SharedClaimSlot
  pendingIndexes : Finset UInt32
  freeClaims : List (Fin kMaxClaimSlots)

def heartbeatVisit (ownerId : UInt64) (nowMs : Int) (scan : HeartbeatScan) (i : Fin kMaxClaimSlots) :
    HeartbeatScan :=
  let claim := scan.claims i
  if claim.occupied then
    if claim.ownerId = ownerId ∧ claim.index ∈ scan.pendingIndexes then
      { scan with
        claims := refreshClaim scan.claims i nowMs
        pendingIndexes := scan.pendingIndexes.erase claim.index }
    else
      scan
  else if scan.freeClaims.length < scan.pendingIndexes.card then
    { scan with freeClaims := scan.freeClaims ++ [i] }
  else
    scan

def heartbeatScan (registry : ClaimRegistry) (ownerId : UInt64) (nowMs : Int) (registered : Finset UInt32) :
    HeartbeatScan :=
  (List.finRange kMaxClaimSlots).foldl (heartbeatVisit ownerId nowMs) ⟨registry.claims, registered, []⟩

end ClaimRegistry

/-- The order in which a hash set hands out its elements, which the standard leaves open. -/
structure HashOrder where
  arrange : Finset UInt32 → List UInt32
  mem_arrange : ∀ s index, index ∈ arrange s ↔ index ∈ s
  nodup_arrange : ∀ s, (arrange s).Nodup

namespace ClaimRegistry

def heartbeatRegisteredPoints (registry : ClaimRegistry) (ownerId : UInt64) (source : StdString)
    (registered : Finset UInt32) (order : HashOrder) (nowMs : Int) : ClaimRegistry × Option StoreError :=
  let registry := registry.cleanupStaleOwnersAndClaims nowMs
  match registry.touchOwnerSlot ownerId source nowMs with
  | .error e => (registry, some e)
  | .ok registry =>
    let scan := registry.heartbeatScan ownerId nowMs registered
    let assigned := assignClaims ownerId nowMs (fun _ => none) (order.arrange scan.pendingIndexes)
      scan.freeClaims scan.claims
    ({ registry with claims := assigned.1 }, assigned.2)

def dropOwner (registry : ClaimRegistry) (ownerId : UInt64) : ClaimRegistry where
  owners := resetWhere (fun owner => owner.occupied && owner.ownerId == ownerId) {} registry.owners
  claims := resetWhere (fun claim => claim.occupied && claim.ownerId == ownerId) {} registry.claims

def releaseOwnerClaims (registry : ClaimRegistry) (ownerId : UInt64) (ts : Int) : ClaimRegistry :=
  ((registry.cleanupStaleOwnersAndClaims ts).dropOwner ownerId).cleanupStaleOwnersAndClaims ts

end ClaimRegistry

structure PendingRegistrations where
  registrations : List (StdString × PointBinding)
  newPoints : List UInt32
  pendingKeys : StdString → Option UInt32
  pendingBindings : UInt32 → Option PointBinding

def PendingRegistrations.none : PendingRegistrations := ⟨[], [], fun _ => .none, fun _ => .none⟩

def boundElsewhere (bound : Option UInt32) (index : UInt32) : Bool :=
  bound.any (· ≠ index)

def bindingDiffers (bound : Option PointBinding) (binding : PointBinding) : Bool :=
  bound.any fun existing => existing.machineCode ≠ binding.machineCode ||
    existing.meterCode ≠ binding.meterCode || existing.pointCode ≠ binding.pointCode

namespace MemoryPointStore

def collectPoint (store : MemoryPointStore) (config : DeviceConfig) (pending : PendingRegistrations)
    (point : PointDefinition) : Except StoreError PendingRegistrations :=
  if !point.enabled then
    .ok pending
  else if point.index = 0 then
    .error .pointIndexZero
  else
    let key := buildKey config.machineCode config.meterCode point.pointCode
    let binding : PointBinding := ⟨point.index, config.machineCode, config.meterCode, point.pointCode⟩
    if boundElsewhere (store.keyToIndex key) point.index ||
        boundElsewhere (pending.pendingKeys key) point.index then
      .error .pointKeyBoundToAnotherIndex
    else if bindingDiffers (store.bindings point.index) binding ||
        bindingDiffers (pending.pendingBindings point.index) binding then
      .error .duplicatePointIndex
    else if (pending.pendingBindings point.index).isSome then
      .ok pending
    else
      .ok {
        registrations := pending.registrations ++ [(key, binding)]
        newPoints := if point.index ∈ store.registeredIndexes then pending.newPoints
          else pending.newPoints ++ [point.index]
        pendingKeys := Function.update pending.pendingKeys key (some point.index)
        pendingBindings := Function.update pending.pendingBindings point.index (some binding) }

def collectRegistrations (store : MemoryPointStore) (configs : List DeviceConfig) :
    Except StoreError PendingRegistrations :=
  configs.foldlM (fun pending config => config.points.foldlM (store.collectPoint config) pending) .none

/-- Both endings of `registerDevicePoints` record the same registrations locally. -/
def recordRegistrations (store : MemoryPointStore) (registrations : List (StdString × PointBinding)) :
    MemoryPointStore :=
  registrations.foldl (fun store registration =>
    { store with
      keyToIndex := Function.update store.keyToIndex registration.1 (some registration.2.index)
      bindings := Function.update store.bindings registration.2.index (some registration.2)
      registeredIndexes := insert registration.2.index store.registeredIndexes }) store

def registerDevicePoints (store : MemoryPointStore) (registry : ClaimRegistry)
    (configs : List DeviceConfig) (ts : Int) : MemoryPointStore × ClaimRegistry × Option StoreError :=
  match store.collectRegistrations configs with
  | .error e => (store, registry, some e)
  | .ok pending =>
    if pending.newPoints = [] then
      (store.recordRegistrations pending.registrations, registry, none)
    else
      match registry.claimNewPoints store.ownerId store.ownerSource pending.newPoints ts with
      | (registry, some e) => (store, registry, some e)
      | (registry, none) => (store.recordRegistrations pending.registrations, registry, none)

end MemoryPointStore

end EdgeGateway.PointStore
