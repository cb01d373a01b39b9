import EdgeGateway.Foundation.Numerals
import EdgeGateway.PointStore.Latest
import EdgeGateway.PointStore.PendingWrites
import EdgeGateway.PowerControl.Exclusion

/-! # The point store router

A command is looked up by its index, passes the ownership gate and is handed to the
store of its route. The router sees the segments only through the store handles.
-/

namespace EdgeGateway.Router

open PointStore PowerControl

structure PointStoreRoute where
  index : UInt32
  sharedMemoryName : StdString
  writable : Bool
deriving DecidableEq, Repr

structure CommandSubmitResult where
  accepted : Bool
  message : StdString
  route : Option PointStoreRoute
deriving DecidableEq, Repr

structure PointStoreRouter where
  routes : UInt32 → Option PointStoreRoute
  stores : StdString → Option MemoryPointStore
  powerControlOwnership : Option PowerControlOwnership
  path_ne : ∀ ownership, powerControlOwnership = some ownership → ownership.path ≠ []

theorem path_ne_of_none (ownership : PowerControlOwnership) : none = some ownership → ownership.path ≠ [] := by
  intro hNone
  cases hNone

abbrev Segments := StdString → SharedStoreLayout

namespace PointStoreRouter

variable (router : PointStoreRouter) (io : Outcome) (file : Option StdString)

def routeByIndex (index : UInt32) : Option PointStoreRoute := router.routes index

def storeForRoute (route : PointStoreRoute) : Option MemoryPointStore := router.stores route.sharedMemoryName

def commandTime (command : PendingWriteCommand) : Int :=
  if command.ts > 0 then command.ts else command.acceptedAt

/-- The gate, asked for commands without priority only. -/
def ownershipBlocks (command : PendingWriteCommand) : Except ParseError Bool :=
  match router.powerControlOwnership with
  | none => .ok false
  | some ownership =>
    if command.highPriority then .ok false
    else ownership.isBlocked io file command.index command.source (commandTime command)

def submitToStore (segments : Segments) (route : PointStoreRoute) (command : PendingWriteCommand) :
    CommandSubmitResult × Segments :=
  if !route.writable then (⟨false, "point write is disabled".toList, some route⟩, segments)
  else
    match router.storeForRoute route with
    | none => (⟨false, "target shared memory not found: ".toList ++ route.sharedMemoryName, some route⟩, segments)
    | some store =>
      match store.submitWriteCommand (segments route.sharedMemoryName) command with
      | .error error => (⟨false, error.what.toList, some route⟩, segments)
      | .ok layout =>
        (⟨true, "write command routed".toList, some route⟩,
          Function.update segments route.sharedMemoryName layout)

/-- The result and the segments after the call; a lease file that does not parse throws past the caller. -/
def submitWriteCommand (segments : Segments) (command : PendingWriteCommand) :
    Except ParseError (CommandSubmitResult × Segments) :=
  match router.routeByIndex command.index with
  | none => .ok (⟨false, "command index not found".toList, none⟩, segments)
  | some route => do
    if ← router.ownershipBlocks io file command then
      return (⟨false, "power control target is owned by another controller".toList, some route⟩, segments)
    return router.submitToStore segments route command

def ungated : PointStoreRouter where
  routes := router.routes
  stores := router.stores
  powerControlOwnership := none
  path_ne := path_ne_of_none

end PointStoreRouter

/-! ## Derived routes

A point with a value normalization gets a second route, computed on reading: fault rules first, then
the mappings. A rule names its source by point code, so a read can lead to further derived reads.
-/

open Numerals QuotedText

structure ValueNormalizeMapping where
  rawValue : StdString
  standardValue : RawDouble
deriving DecidableEq, Repr

structure ValueNormalizeFaultRule where
  sourcePointCode : StdString
  triggerValue : StdString
  standardValue : RawDouble
deriving DecidableEq, Repr

structure ValueNormalizeConfig where
  enabled : Bool := false
  type : StdString := "enum".toList
  targetIndex : UInt32 := 0
  targetPointCode : StdString := []
  targetSemanticRole : StdString := []
  unknownValue : RawDouble := 0x406fe00000000000
  mappings : List ValueNormalizeMapping := []
  faultRules : List ValueNormalizeFaultRule := []
deriving DecidableEq, Repr

structure PointRoute extends PointStoreRoute where
  sourceIndex : UInt32
  machineCode : StdString
  meterCode : StdString
  pointCode : StdString
  derived : Bool := false
  commandMailbox : Bool := false
  normalize : ValueNormalizeConfig := {}
deriving DecidableEq, Repr

def trimAscii (value : StdString) : StdString := ((value.dropWhile isSpace).reverse.dropWhile isSpace).reverse

def lowerAscii (value : StdString) : StdString := value.map Char.toLower

/-- The whole trimmed text is one finite number. -/
def parseStrictDouble (value : StdString) : Option RawDouble :=
  match strtod (trimAscii value) with
  | none => none
  | some (result, rest) => if (rest = [] ∨ rest.head? = some '\x00') ∧ isFinite result = true then some result else none

def matchTolerance : RawDouble := 0x3e112e0be826d695

def valueMatches (actual : RawDouble) (expected : StdString) : Bool :=
  match parseStrictDouble expected with
  | some number => differsAtMost actual number matchTolerance
  | none =>
    let normalized := lowerAscii (trimAscii expected)
    if normalized = "true".toList ∨ normalized = "on".toList ∨ normalized = "yes".toList then
      differsAtMost actual 0x3ff0000000000000 matchTolerance
    else if normalized = "false".toList ∨ normalized = "off".toList ∨ normalized = "no".toList then
      differsAtMost actual 0 matchTolerance
    else false

def notANumber : RawDouble := 0x7ff8000000000000

theorem valueMatches_notANumber (expected : StdString) : valueMatches notANumber expected = false := by
  have hNever : ∀ number bound, differsAtMost notANumber number bound = false := fun _ _ => rfl
  rw [valueMatches]
  split
  · exact hNever _ _
  · dsimp only
    split
    · exact hNever _ _
    · split
      · exact hNever _ _
      · rfl

section Building

inductive RouteError where
  | indexZero
  | duplicate (existing incoming : PointRoute)
  | derivedRangeExhausted

def PointRoute.path (route : PointRoute) : StdString :=
  route.machineCode ++ '/' :: route.meterCode ++ '/' :: route.pointCode

def RouteError.what : RouteError → StdString
  | .indexZero => "route index must be non-zero".toList
  | .duplicate existing incoming => "duplicate point route index=".toList ++ decimal incoming.index.toNat ++
      " existing=".toList ++ existing.path ++ " incoming=".toList ++ incoming.path
  | .derivedRangeExhausted => "derived point index range exhausted".toList

/-- The routes in the order they were added; a map by index has each index once. -/
structure RouteTable where
  routes : List PointRoute
  nextDerivedIndex : UInt32
  distinct : (routes.map fun route => route.index).Nodup

def RouteTable.empty : RouteTable := ⟨[], 900000000, List.nodup_nil⟩

namespace RouteTable

variable (table : RouteTable)

def find (index : UInt32) : Option PointRoute := table.routes.find? fun route => route.index == index

theorem find_eq_none {index : UInt32} (h : table.find index = none) :
    index ∉ table.routes.map fun route => route.index := by
  intro hMem
  obtain ⟨route, hRoute, rfl⟩ := List.mem_map.mp hMem
  exact absurd (beq_self_eq_true route.index) (List.find?_eq_none.mp h route hRoute)

def addRoute (route : PointRoute) : Except RouteError RouteTable :=
  if route.index = 0 then .error .indexZero
  else
    match hFound : table.find route.index with
    | some existing => .error (.duplicate existing route)
    | none =>
      .ok { table with
        routes := table.routes ++ [route]
        distinct := by
          rw [List.map_append, List.map_singleton, List.nodup_append]
          refine ⟨table.distinct, List.nodup_singleton _, ?_⟩
          rintro index hMem other hOther rfl
          rw [List.mem_singleton.mp hOther] at hMem
          exact table.find_eq_none hFound hMem }

/-- The first index from `next` on that no route has; zero when the range is used up. -/
def skipTaken (next : UInt32) : UInt32 :=
  if next ≠ 0 ∧ (table.find next).isSome then skipTaken (next + 1) else next
termination_by if next = 0 then 0 else 2 ^ 32 - next.toNat
decreasing_by
  rename_i hTaken
  have hPositive : 0 < next.toNat := Nat.pos_of_ne_zero fun hZero => hTaken.1 (UInt32.toNat_inj.mp hZero)
  have hSize : next.toNat < 2 ^ 32 := next.toNat_lt
  rw [if_neg hTaken.1]
  split
  · omega
  · rename_i hNext
    have hSum : (next + 1).toNat = (next.toNat + 1) % 2 ^ 32 := UInt32.toNat_add next 1
    obtain hLast | hMore := Nat.eq_or_lt_of_le (Nat.succ_le_of_lt hSize)
    · exact absurd (UInt32.toNat_inj.mp (hSum.trans (by rw [show next.toNat + 1 = 2 ^ 32 from hLast]; rfl))) hNext
    · rw [hSum, Nat.mod_eq_of_lt hMore]
      omega

def allocateDerivedIndex (configuredIndex : UInt32) : Except RouteError (UInt32 × RouteTable) :=
  if configuredIndex ≠ 0 ∧ (table.find configuredIndex).isNone then .ok (configuredIndex, table)
  else
    let next := table.skipTaken table.nextDerivedIndex
    if next = 0 then .error .derivedRangeExhausted
    else .ok (next, { table with nextDerivedIndex := next + 1 })

def addNormalizeRoute (sourceRoute : PointRoute) (normalize : ValueNormalizeConfig) : Except RouteError RouteTable :=
  let type := lowerAscii (trimAscii normalize.type)
  let targetPointCode :=
    if normalize.targetPointCode = [] then normalize.targetSemanticRole else normalize.targetPointCode
  if !normalize.enabled then .ok table
  else if type ≠ [] ∧ type ≠ "enum".toList then .ok table
  else if targetPointCode = [] then .ok table
  else do
    let (index, table) ← table.allocateDerivedIndex normalize.targetIndex
    table.addRoute { sourceRoute with
      index := index
      sourceIndex := sourceRoute.index
      pointCode := targetPointCode
      derived := true
      writable := false
      normalize := normalize }

end RouteTable

structure RoutedPoint where
  index : UInt32
  pointCode : StdString
  category : StdString := []
  writeEnable : Bool := false
  normalize : ValueNormalizeConfig := {}
deriving DecidableEq, Repr

structure LogicalDeviceConfig where
  meterCode : StdString
  points : List RoutedPoint
deriving DecidableEq, Repr

structure RoutedDeviceConfig where
  machineCode : StdString
  meterCode : StdString
  sharedMemoryName : StdString
  protocolType : StdString
  standardPointsFile : StdString
  meters : List LogicalDeviceConfig
  points : List RoutedPoint
deriving DecidableEq, Repr

variable (loadDlt645StandardPoints : StdString → List RoutedPoint)

def effectiveMeterPoints (config : RoutedDeviceConfig) (device : LogicalDeviceConfig) : List RoutedPoint :=
  if device.points ≠ [] then device.points
  else if config.protocolType ≠ "dlt645_2007".toList ∨ config.standardPointsFile = [] then []
  else loadDlt645StandardPoints config.standardPointsFile

def meterPoints (config : RoutedDeviceConfig) (device : LogicalDeviceConfig) (meterIndex : Nat) : List RoutedPoint :=
  let points := effectiveMeterPoints loadDlt645StandardPoints config device
  if config.protocolType = "dlt645_2007".toList ∧ device.points = [] then
    points.mapIdx fun i point => { point with index := 200000 + UInt32.ofNat meterIndex * 10000 + UInt32.ofNat i }
  else points

def pointRoute (config : RoutedDeviceConfig) (sharedMemoryName meterCode : StdString) (point : RoutedPoint) :
    PointRoute where
  index := point.index
  sharedMemoryName := sharedMemoryName
  writable := point.writeEnable
  sourceIndex := point.index
  machineCode := config.machineCode
  meterCode := meterCode
  pointCode := point.pointCode
  commandMailbox := config.protocolType = "agc_avc_virtual".toList && point.category = "command".toList
  normalize := point.normalize

def configuredRoutes (fallbackSharedMemoryName : StdString) (config : RoutedDeviceConfig) : List PointRoute :=
  let sharedMemoryName := if config.sharedMemoryName = [] then fallbackSharedMemoryName else config.sharedMemoryName
  (config.meters.zipIdx.flatMap fun (device, meterIndex) =>
    (meterPoints loadDlt645StandardPoints config device meterIndex).map
      (pointRoute config sharedMemoryName device.meterCode)) ++
  config.points.map (pointRoute config sharedMemoryName config.meterCode)

/-- A route and, where its point is normalized, the derived one behind it. -/
def RouteTable.addPoint (table : RouteTable) (route : PointRoute) : Except RouteError RouteTable := do
  let table ← table.addRoute route
  table.addNormalizeRoute route route.normalize

def addRoutesFromDeviceConfigs (fallbackSharedMemoryName : StdString) (table : RouteTable)
    (deviceConfigs : List RoutedDeviceConfig) : Except RouteError RouteTable :=
  (deviceConfigs.flatMap (configuredRoutes loadDlt645StandardPoints fallbackSharedMemoryName)).foldlM
    RouteTable.addPoint table

end Building

end EdgeGateway.Router
