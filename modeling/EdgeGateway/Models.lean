import Mathlib.Algebra.Order.Ring.Int
import Mathlib.Data.Finset.Basic

/-! # Shared record types

The records of `models.hpp` with the fields that a modelled function uses. A `std::string` is the
list of its bytes; a `double` that is only copied is its 64 bits.
-/

namespace EdgeGateway

abbrev StdString := List Char

instance lawfulBEq_stdString : LawfulBEq StdString := inferInstance

abbrev RawDouble := BitVec 64

structure DecodedValue (K : Type) where
  value : K
  text : StdString
  rawHex : StdString

structure PendingWriteCommand where
  cmdId : StdString
  index : UInt32
  value : RawDouble
  source : StdString
  ts : Int
  acceptedAt : Int
  highPriority : Bool
deriving DecidableEq, Repr

structure PointDefinition where
  index : UInt32
  pointCode : StdString
  enabled : Bool
deriving DecidableEq, Repr

structure WritebackResultRecord where
  cmdId : StdString
  index : UInt32
  value : RawDouble
  success : Bool
  message : StdString
  stage : StdString
  requestedAt : Int
  acceptedAt : Int
  startedAt : Int
  completedAt : Int
  queueDelayMs : Int
  deviceWriteMs : Int
  edgeElapsedMs : Int
  totalElapsedMs : Int
  verifyAttempted : Bool
  verifyPassed : Bool
  highPriority : Bool := false
deriving DecidableEq, Repr

structure DeviceConfig where
  machineCode : StdString
  meterCode : StdString
  points : List PointDefinition
deriving DecidableEq, Repr

structure MemoryStoreConfig where
  maxLatestPoints : Nat := 100000
  maxPendingWrites : Nat := 4096
  maxPersistentSamples : Nat := 20000
deriving DecidableEq, Repr

structure PointBinding where
  index : UInt32
  machineCode : StdString
  meterCode : StdString
  pointCode : StdString
deriving DecidableEq, Repr

structure PointValue where
  index : UInt32
  machineCode : StdString
  meterCode : StdString
  pointCode : StdString
  value : RawDouble
  quality : Int
  ts : Int
  expireAt : Int
  isStore : Bool
  persistIntervalSec : Int
deriving DecidableEq, Repr

structure StoredPointValue where
  index : UInt32
  machineCode : StdString
  meterCode : StdString
  pointCode : StdString
  value : RawDouble
  quality : Int
  ts : Int
  expireAt : Int
  stale : Bool
deriving DecidableEq, Repr

structure PersistentPointSample where
  index : UInt32
  value : RawDouble
  ts : Int
deriving DecidableEq, Repr

structure PointUpdateRecord where
  sequence : UInt64
  index : UInt32
  value : RawDouble
  quality : Int
  ts : Int
  expireAt : Int
deriving DecidableEq, Repr

/-- The ordered and the hashed maps of the source, of which only lookups are observed. -/
abbrev StringMap (α : Type) := Std.TreeMap StdString α compare

section StringMap

variable {α : Type} (map : StringMap α) (key other : StdString) (value : α)

theorem getElem?_insert_self : (map.insert key value)[key]? = some value := by
  rw [Std.TreeMap.getElem?_insert, if_pos Std.ReflCmp.compare_self]

variable {key other}

theorem getElem?_insert_of_ne (h : other ≠ key) : (map.insert key value)[other]? = map[other]? := by
  rw [Std.TreeMap.getElem?_insert, if_neg fun hEq => h (Std.compare_eq_iff_eq.mp hEq).symm]

theorem getElem?_erase_of_ne (h : other ≠ key) : (map.erase key)[other]? = map[other]? := by
  rw [Std.TreeMap.getElem?_erase, if_neg fun hEq => h (Std.compare_eq_iff_eq.mp hEq).symm]

theorem getElem?_erase_self : (map.erase key)[key]? = none := by
  rw [Std.TreeMap.getElem?_erase, if_pos Std.ReflCmp.compare_self]

end StringMap

end EdgeGateway
