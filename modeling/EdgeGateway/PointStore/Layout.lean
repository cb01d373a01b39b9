import EdgeGateway.Foundation.Ring
import EdgeGateway.Foundation.Slots
import EdgeGateway.Models
import Mathlib.Data.List.TakeWhile

/-! # The shared segment of `MemoryPointStore`

The segment holds slot arrays and head/tail rings that every process maps. A store handle is one
process's view; its limits come from the constructor that opened it and never change.
-/

namespace EdgeGateway.PointStore

-- The capacities of the scanned arrays stay folded, so that no proof unrolls a scan.
@[irreducible] def kMaxLatestSlots : Nat := 100000
def kMaxPendingWriteSlots : Nat := 4096
def kMaxPersistentSlots : Nat := 20000
def kMaxPointUpdateSlots : Nat := 65536
@[irreducible] def kMaxOwnerSlots : Nat := 64
@[irreducible] def kMaxClaimSlots : Nat := 100000
def kCmdIdSize : Nat := 64
def kSourceSize : Nat := 32
def kOwnerLeaseMs : Int := 30000

structure SharedLatestSlot where
  index : UInt32 := 0
  value : RawDouble := 0
  quality : Int := 1
  ts : Int := 0
  expireAt : Int := 0
  stale : Bool := false
  occupied : Bool := false
deriving DecidableEq

structure SharedPendingWriteSlot where
  sequence : UInt64 := 0
  index : UInt32 := 0
  value : RawDouble := 0
  ts : Int := 0
  acceptedAt : Int := 0
  cmdId : List Char := List.replicate kCmdIdSize '\x00'
  source : List Char := List.replicate kSourceSize '\x00'
  occupied : Bool := false
  highPriority : Bool := false
deriving DecidableEq

structure SharedPersistentSlot where
  sequence : UInt64 := 0
  index : UInt32 := 0
  value : RawDouble := 0
  ts : Int := 0
  occupied : Bool := false
deriving DecidableEq

structure SharedPointUpdateSlot where
  sequence : UInt64 := 0
  index : UInt32 := 0
  value : RawDouble := 0
  quality : Int := 1
  ts : Int := 0
  expireAt : Int := 0
  occupied : Bool := false
deriving DecidableEq

structure SharedOwnerSlot where
  ownerId : UInt64 := 0
  heartbeatMs : Int := 0
  source : List Char := List.replicate kSourceSize '\x00'
  occupied : Bool := false
deriving DecidableEq

structure SharedClaimSlot where
  index : UInt32 := 0
  ownerId : UInt64 := 0
  heartbeatMs : Int := 0
  occupied : Bool := false
deriving DecidableEq

structure LatestTable where
  latestCount : Nat
  latest : Fin kMaxLatestSlots → SharedLatestSlot

structure ClaimRegistry where
  owners : Fin kMaxOwnerSlots → SharedOwnerSlot
  claims : Fin kMaxClaimSlots → SharedClaimSlot

/-- Each ring stands for one slot array with its head and tail; the latest slots stand with their count. -/
structure SharedStoreLayout where
  writeSequence : UInt64
  persistentSequence : UInt64
  pointUpdateSequence : UInt64
  table : LatestTable
  pendingWrites : Ring SharedPendingWriteSlot kMaxPendingWriteSlots
  persistent : Ring SharedPersistentSlot kMaxPersistentSlots
  pointUpdates : Ring SharedPointUpdateSlot kMaxPointUpdateSlots
  registry : ClaimRegistry

theorem kMaxPendingWriteSlots_pos : 0 < kMaxPendingWriteSlots := by decide

theorem one_lt_kMaxOwnerSlots : 1 < kMaxOwnerSlots := by
  unfold kMaxOwnerSlots
  decide

theorem kMaxOwnerSlots_pos : 0 < kMaxOwnerSlots := Nat.zero_lt_of_lt one_lt_kMaxOwnerSlots

def SharedStoreLayout.initial : SharedStoreLayout where
  writeSequence := 0
  persistentSequence := 0
  pointUpdateSequence := 0
  table := { latestCount := 0, latest := fun _ => {} }
  pendingWrites := Ring.cleared {} ⟨0, kMaxPendingWriteSlots_pos⟩
  persistent := Ring.cleared {} ⟨0, by decide⟩
  pointUpdates := Ring.cleared {} ⟨0, by decide⟩
  registry := { owners := fun _ => {}, claims := fun _ => {} }

inductive StoreError where
  | pendingWriteIndexZero
  | pendingWriteQueueFull
  | pointIndexZero
  | pointKeyBoundToAnotherIndex
  | duplicatePointIndex
  | pointClaimedByAnotherProcess
  | ownerRegistryFull
  | claimRegistryFull
  | latestLimitReached
  | latestStoreFull
deriving DecidableEq, Repr

def StoreError.what : StoreError → String
  | .pendingWriteIndexZero => "pending write index must be non-zero"
  | .pendingWriteQueueFull => "shared pending write queue is full"
  | .pointIndexZero => "point.index must be non-zero"
  | .pointKeyBoundToAnotherIndex => "point key already bound to another index"
  | .duplicatePointIndex => "duplicate point.index detected"
  | .pointClaimedByAnotherProcess => "point.index already claimed by another active process"
  | .ownerRegistryFull => "shared owner registry is full"
  | .claimRegistryFull => "shared claim registry is full"
  | .latestLimitReached => "shared latest store reached configured limit"
  | .latestStoreFull => "shared latest store is full"

inductive Opening where
  | segmentName
  | config (config : MemoryStoreConfig)
deriving DecidableEq, Repr

def Opening.maxLatestPoints : Opening → Nat
  | .segmentName => 100000
  | .config c => if c.maxLatestPoints = 0 then kMaxLatestSlots else max 1 (min c.maxLatestPoints kMaxLatestSlots)

def Opening.maxPendingWrites : Opening → Nat
  | .segmentName => 4096
  | .config c => max 1 (min c.maxPendingWrites (kMaxPendingWriteSlots - 1))

def Opening.maxPersistentSamples : Opening → Nat
  | .segmentName => 20000
  | .config c => max 1 (min c.maxPersistentSamples (kMaxPersistentSlots - 1))

theorem Opening.maxPendingWrites_config_lt (c : MemoryStoreConfig) :
    (Opening.config c).maxPendingWrites < kMaxPendingWriteSlots := by
  simp only [Opening.maxPendingWrites, kMaxPendingWriteSlots]
  omega

/-- The members of a handle; maps of the source are partial functions. -/
structure MemoryPointStore where
  opening : Opening
  ownerId : UInt64
  ownerSource : StdString
  keyToIndex : StdString → Option UInt32
  bindings : UInt32 → Option PointBinding
  latestSlotByIndex : UInt32 → Option Nat
  lastPersistentSampleTs : UInt32 → Option Int
  persistentDropped : UInt64
  registeredIndexes : Finset UInt32

def copyString (size : Nat) (value : StdString) : List Char :=
  value.take (min (size - 1) value.length) ++
    List.replicate (size - min (size - 1) value.length) '\x00'

def readString (source : List Char) (size : Nat) : StdString :=
  (source.take size).takeWhile (· ≠ '\x00')

theorem readString_copyString (size : Nat) (value : StdString) :
    readString (copyString size value) size = (value.take (size - 1)).takeWhile (· ≠ '\x00') := by
  have hTake : value.take (min (size - 1) value.length) = value.take (size - 1) := by
    rw [← List.take_take, List.take_length]
  have hLength : (copyString size value).length ≤ size := by
    simp only [copyString, List.length_append, List.length_take, List.length_replicate]
    omega
  have hNul : ∀ k, (List.replicate k '\x00').takeWhile (· ≠ '\x00') = [] := by
    intro k
    cases k <;> simp [List.replicate_succ]
  unfold readString
  rw [List.take_of_length_le hLength, copyString, hTake, List.takeWhile_append, hNul]
  split
  · next hAll =>
    rw [List.append_nil]
    exact ((List.takeWhile_prefix _).eq_of_length hAll).symm
  · rfl

theorem readString_copyString_of_fits {size : Nat} {value : StdString}
    (hLength : value.length < size) (hNul : '\x00' ∉ value) :
    readString (copyString size value) size = value := by
  rw [readString_copyString, List.take_of_length_le (by omega), List.takeWhile_eq_self_iff]
  intro c hc
  have hne : c ≠ '\x00' := fun h => hNul (h ▸ hc)
  simpa using hne

def buildKey (machineCode meterCode pointCode : StdString) : StdString :=
  machineCode ++ ':' :: meterCode ++ ':' :: pointCode

end EdgeGateway.PointStore
