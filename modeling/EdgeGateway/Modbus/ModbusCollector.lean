import EdgeGateway.Foundation.Grouping
import EdgeGateway.Modbus.Codec

/-! # The read task planner

`build` and the ways in which the collector splits a task again. The vectors that
grow at their back are passed as groups of neighbours.
-/

namespace EdgeGateway.Modbus

variable {K : Type}

def readableForBuild (point : PointDefinition K) : Bool :=
  point.enabled && point.read.enable && point.read.dataType ≠ "device_online".toList

def readBefore (lhs rhs : PointDefinition K) : Bool :=
  if lhs.read.function ≠ rhs.read.function then lhs.read.function < rhs.read.function else lhs.address < rhs.address

/-- `std::sort` by function and address; points that are equal in both come in any order. -/
structure ReadSort (K : Type) where
  sort : List (PointDefinition K) → List (PointDefinition K)
  perm : ∀ points, (sort points).Perm points
  sorted : ∀ points, (sort points).Pairwise fun lhs rhs => readBefore rhs lhs = false

namespace ReadTaskPlanner

def canMerge (task : ReadTask K) (point : PointDefinition K) (maxBatchRegisters : Int) : Bool :=
  if task.function ≠ point.read.function then false
  else
    let nextEnd := max (task.start + task.count) (point.address + point.read.length)
    nextEnd - task.start ≤ maxBatchRegisters

def taskOf (function : Int) (point : PointDefinition K) : ReadTask K where
  function := function
  start := point.address
  count := point.read.length
  points := [⟨point, 0⟩]

def addPoint (task : ReadTask K) (point : PointDefinition K) : ReadTask K where
  function := task.function
  start := task.start
  count := max (task.start + task.count) (point.address + point.read.length) - task.start
  points := task.points ++ [⟨point, point.address - task.start⟩]

def batching (maxBatchRegisters : Int) (batchOptimize : Bool) : Grouping (PointDefinition K) (ReadTask K) where
  joins task point := batchOptimize && canMerge task point maxBatchRegisters
  join := addPoint
  single point := taskOf point.read.function point

def build (readSort : ReadSort K) (points : List (PointDefinition K)) (maxBatchRegisters : Int)
    (batchOptimize : Bool) : Except StdString (List (ReadTask K)) :=
  if maxBatchRegisters ≤ 0 then .error "maxBatchRegisters must be positive".toList
  else .ok ((batching maxBatchRegisters batchOptimize).groups (readSort.sort (points.filter readableForBuild)))

end ReadTaskPlanner

namespace Collector

open ReadTaskPlanner

def pointPriority (point : PointDefinition K) : Int :=
  if point.read.dataType = "device_online".toList then 0 else max 0 point.collectPriority

def canAdaptiveSplitTask (collect : CollectConfig) (task : ReadTask K) : Bool :=
  collect.adaptiveSplitOnFailure && 1 < task.count && 1 < task.points.length

def splitting (collect : CollectConfig) (function : Int) : Grouping (ReadTaskPoint K) (ReadTask K) where
  joins current taskPoint :=
    let point := taskPoint.definition
    let nextEnd := max (current.start + current.count) (point.address + point.read.length)
    current.function = function ∧ point.address ≥ current.start ∧
      nextEnd - current.start ≤ max 1 collect.adaptiveSplitMaxRegisters
  join current taskPoint := addPoint current taskPoint.definition
  single taskPoint := taskOf function taskPoint.definition

def splitReadTask (collect : CollectConfig) (task : ReadTask K) : List (ReadTask K) :=
  (splitting collect task.function).groups task.points

def splitReadTaskByPoint (task : ReadTask K) : List (ReadTask K) :=
  task.points.map fun taskPoint => taskOf task.function taskPoint.definition

/-- The split of a task, by points if the registers allow the whole task again. -/
def adaptiveSplit (collect : CollectConfig) (task : ReadTask K) : List (ReadTask K) :=
  match splitReadTask collect task with
  | [front] =>
    if front.start = task.start ∧ front.count = task.count ∧ front.points.length = task.points.length then
      splitReadTaskByPoint task
    else [front]
  | splitTasks => splitTasks

def splitMixedPriorityTask (task : ReadTask K) : List (ReadTask K) :=
  let hasHighPriority := task.points.any fun taskPoint => pointPriority taskPoint.definition = 0
  let hasLowPriority := task.points.any fun taskPoint => pointPriority taskPoint.definition ≠ 0
  if !hasHighPriority || !hasLowPriority then [task] else splitReadTaskByPoint task

def splitMixedPriorityTasks (tasks : List (ReadTask K)) : List (ReadTask K) := tasks.flatMap splitMixedPriorityTask

end Collector

end EdgeGateway.Modbus

/-! # The Modbus collector

The due tasks are planned, some of them chosen and read, and a task that fails is split. What the
device, the store and the clock answer is open; the text key of a task stands for its three numbers.
-/

namespace EdgeGateway.Modbus

structure TaskFailureState where
  consecutiveFailures : Int := 0
  backoffUntilMs : Int := 0
  nextAttemptCycle : Int := 0
  lastFailureMs : Int := 0
  lastMessage : StdString := []
  noResponse : Bool := false

structure CollectorState where
  lastReadMs : UInt32 → Option Int := fun _ => none
  lastValueUpdateMs : UInt32 → Option Int := fun _ => none
  pointFailureCounts : UInt32 → Int := fun _ => 0
  consecutiveSuccesses : Int := 0
  consecutiveFailures : Int := 0
  online : Bool := false
  collectCycle : Int := 0
  slaveNextAttemptCycle : Int := 0
  backoffUntilMs : Int := 0
  taskFailureStates : Int × Int × Int → Option TaskFailureState := fun _ => none
  offlineProbeCursor : Nat := 0
  lastBackgroundTaskMs : Int := -1

structure StoredLatest (K : Type) where
  value : K
  quality : Int
  stale : Bool
  ts : Int
  expireAt : Int

structure Surroundings (K : Type) where
  platform : Platform K
  readSort : ReadSort K
  read : Nat → ReadTask K → Except StdString (List (BitVec 16))
  latest : Nat → UInt32 → Option (StoredLatest K)
  clock : Nat → Int

structure PointReading (K : Type) where
  point : PointDefinition K
  value : K
  text : StdString
  rawHex : StdString
  quality : Int
  ts : Int
  expireAt : Int

/-- A part of a block of registers that is taken for a point. -/
structure BlockSlice where
  blockSize : Nat
  offset : Int
  length : Int

/-- The state of the collector, the result so far, what was taken from the blocks and the points decoded or
    failed. -/
structure Cycle (K : Type) where
  collector : CollectorState
  executedTasks : List (ReadTask K) := []
  values : List (PointReading K) := []
  handled : List (PointDefinition K) := []
  slices : List BlockSlice := []
  skippedTasks : Nat := 0
  leafProbeBudget : Int
  hasSuccessfulRead : Bool := false
  firstFailureMessage : StdString := []
  latestCalls : Nat := 0

namespace Collector

section Tasks

variable {K : Type} (collect : CollectConfig) (state : CollectorState) (nowMs : Int) (realtimeFocused : Bool)

def finds (needle : StdString) : StdString → Bool
  | [] => needle.isEmpty
  | c :: rest => needle.isPrefixOf (c :: rest) || finds needle rest

def isNoResponseError (message : StdString) : Bool :=
  finds "response timeout".toList message || finds "no response".toList message

def taskBackoffKey (task : ReadTask K) : Int × Int × Int := (task.function, task.start, task.count)

def rangeCovers (outerStart outerCount innerStart innerCount : Int) : Bool :=
  outerStart ≤ innerStart ∧ innerStart + max 0 innerCount ≤ outerStart + max 0 outerCount

def shouldSkipForBackoff : Bool :=
  if collect.cycleBackoffEnabled then state.collectCycle < state.slaveNextAttemptCycle
  else 0 < state.backoffUntilMs ∧ nowMs < state.backoffUntilMs

def shouldSkipTaskForBackoff (task : ReadTask K) : Bool :=
  match state.taskFailureStates (taskBackoffKey task) with
  | none => false
  | some failure =>
    if collect.cycleBackoffEnabled then state.collectCycle < failure.nextAttemptCycle
    else if !realtimeFocused then nowMs < failure.backoffUntilMs
    else
      let realtimeBackoffMs := max 0 collect.realtimeTaskFailureBackoffMs
      if realtimeBackoffMs ≤ 0 ∨ failure.lastFailureMs ≤ 0 then false
      else nowMs - failure.lastFailureMs < realtimeBackoffMs

def taskNoResponse (task : ReadTask K) : Bool := (state.taskFailureStates (taskBackoffKey task)).any (·.noResponse)

def expandBackedOffTask (task : ReadTask K) : List (ReadTask K) :=
  if !shouldSkipTaskForBackoff collect state nowMs realtimeFocused task || !canAdaptiveSplitTask collect task then [task]
  else if collect.cycleBackoffEnabled then [task]
  else if taskNoResponse state task then [task]
  else
    let splitTasks := adaptiveSplit collect task
    if splitTasks.length ≤ 1 then [task] else splitTasks

def expandBackedOffTasksBeforeBudget (tasks : List (ReadTask K)) : List (ReadTask K) :=
  if !collect.adaptiveSplitOnFailure || tasks.isEmpty then tasks
  else tasks.flatMap (expandBackedOffTask collect state nowMs realtimeFocused)

def plannedTasks (readSort : ReadSort K) (points : List (PointDefinition K)) : Except StdString (List (ReadTask K)) :=
  (ReadTaskPlanner.build readSort points collect.maxBatchRegisters collect.batchOptimize).map fun tasks =>
    expandBackedOffTasksBeforeBudget collect state nowMs realtimeFocused (splitMixedPriorityTasks tasks)

def int64Min : Int := -2 ^ 63

def int64Max : Int := 2 ^ 63 - 1

def intMax : Int := 2 ^ 31 - 1

def taskOldestValueUpdateMs (task : ReadTask K) : Int :=
  if task.points.any fun taskPoint => (state.lastValueUpdateMs taskPoint.definition.index).isNone then int64Min
  else
    let oldest := task.points.foldl (fun oldest taskPoint =>
      min oldest ((state.lastValueUpdateMs taskPoint.definition.index).getD int64Max)) int64Max
    if oldest = int64Max then int64Min else oldest

def taskPriority (task : ReadTask K) : Int :=
  let priority := task.points.foldl (fun priority taskPoint => min priority (pointPriority taskPoint.definition)) intMax
  if priority = intMax then 0 else priority

/-- The order of the leaf probes; the stable sort keeps the order of the tasks where it says nothing. -/
def probeBefore (lhs rhs : ReadTask K) : Bool :=
  let lhsBackedOff := shouldSkipTaskForBackoff collect state nowMs false lhs
  let rhsBackedOff := shouldSkipTaskForBackoff collect state nowMs false rhs
  if lhsBackedOff != rhsBackedOff then !lhsBackedOff && rhsBackedOff
  else taskOldestValueUpdateMs state lhs < taskOldestValueUpdateMs state rhs

def budgetBefore (lhs rhs : ReadTask K) : Bool :=
  let lhsBackedOff := shouldSkipTaskForBackoff collect state nowMs realtimeFocused lhs
  let rhsBackedOff := shouldSkipTaskForBackoff collect state nowMs realtimeFocused rhs
  if lhsBackedOff != rhsBackedOff then !lhsBackedOff && rhsBackedOff
  else if taskPriority lhs ≠ taskPriority rhs then taskPriority lhs < taskPriority rhs
  else taskOldestValueUpdateMs state lhs < taskOldestValueUpdateMs state rhs

def stableSort {α : Type} (before : α → α → Bool) (l : List α) : List α := l.mergeSort fun lhs rhs => !before rhs lhs

def limitAdaptiveSplitLeafProbeTasks (tasks : List (ReadTask K)) (leafProbeBudget : Int) : List (ReadTask K) × Int :=
  if tasks.isEmpty ∨ leafProbeBudget ≤ 0 then ([], leafProbeBudget)
  else if !tasks.all (fun task => task.points.length = 1) then (tasks, leafProbeBudget)
  else
    let probeCount := min leafProbeBudget.toNat tasks.length
    let leafProbeBudget := leafProbeBudget - probeCount
    if tasks.length ≤ probeCount then (tasks, leafProbeBudget)
    else ((stableSort (probeBefore collect state nowMs) tasks).take probeCount, leafProbeBudget)

def limitToMeterTaskBudget (tasks : List (ReadTask K)) (maxTasksPerCycle : Int) : List (ReadTask K) :=
  if tasks.isEmpty ∨ maxTasksPerCycle ≤ 0 then []
  else
    let budget := min maxTasksPerCycle.toNat tasks.length
    if tasks.length ≤ budget then tasks
    else (stableSort (budgetBefore collect state nowMs realtimeFocused) tasks).take budget

def limitToOfflineProbeTasks (tasks : List (ReadTask K)) : List (ReadTask K) × Nat :=
  if !collect.offlineProbeOnly ∨ state.online ∨ state.consecutiveFailures = 0 ∨
      tasks.length ≤ collect.offlineProbeTaskCount then (tasks, state.offlineProbeCursor)
  else
    let probeCount := min (ModbusCodec.toSize collect.offlineProbeTaskCount) tasks.length
    ((List.range probeCount).filterMap fun i => tasks[(state.offlineProbeCursor + i) % tasks.length]?,
      (state.offlineProbeCursor + probeCount) % tasks.length)

def doubled (limit : Int) : Nat → Int → Int
  | 0, value => value
  | rounds + 1, value => if value < limit then doubled limit rounds (min limit (value * 2)) else value

def extraFailures (consecutiveFailures : Int) : Nat :=
  (max 0 (consecutiveFailures - max 1 collect.taskFailureBackoffThreshold)).toNat

def taskFailureBackoffCycles (consecutiveFailures : Int) : Int :=
  let baseCycles :=
    max 0 (if realtimeFocused then collect.realtimeTaskFailureBackoffCycles else collect.taskFailureBackoffCycles)
  if baseCycles ≤ 0 then 0
  else
    let maxCycles := max baseCycles
      (if realtimeFocused then collect.realtimeTaskFailureBackoffMaxCycles else collect.taskFailureBackoffMaxCycles)
    doubled maxCycles (extraFailures collect consecutiveFailures) baseCycles

def taskFailureBackoffDurationMs (consecutiveFailures : Int) : Int :=
  let baseMs := max 0 (if realtimeFocused then collect.realtimeTaskFailureBackoffMs else collect.taskFailureBackoffMs)
  let maxMs := max baseMs
    (if realtimeFocused then collect.realtimeTaskFailureBackoffMaxMs else collect.taskFailureBackoffMaxMs)
  doubled maxMs (extraFailures collect consecutiveFailures) baseMs

def clearOverlappingTaskFailures (task : ReadTask K) : CollectorState :=
  { state with
    taskFailureStates := fun (function, start, count) =>
      if 0 < count ∧ function = task.function ∧ rangeCovers task.start task.count start count then none
      else state.taskFailureStates (function, start, count) }

def describeTask (task : ReadTask K) : StdString :=
  " function=".toList ++ (toString task.function).toList ++ " start=".toList ++ (toString task.start).toList ++
    " count=".toList ++ (toString task.count).toList

def noteTaskReadFailure (task : ReadTask K) (message : StdString) : CollectorState :=
  let failure := (state.taskFailureStates (taskBackoffKey task)).getD {}
  let failures := failure.consecutiveFailures + 1
  let noted : TaskFailureState :=
    { failure with
      consecutiveFailures := failures
      lastFailureMs := nowMs
      noResponse := isNoResponseError message
      lastMessage := "modbus read task is in backoff".toList ++ describeTask task }
  let backedOff : TaskFailureState :=
    if max 1 collect.taskFailureBackoffThreshold ≤ failures then
      if collect.cycleBackoffEnabled then
        { noted with
          nextAttemptCycle := state.collectCycle + taskFailureBackoffCycles collect realtimeFocused failures + 1 }
      else { noted with backoffUntilMs := nowMs + taskFailureBackoffDurationMs collect realtimeFocused failures }
    else noted
  { state with taskFailureStates := Function.update state.taskFailureStates (taskBackoffKey task) (some backedOff) }

def noteReadSuccess : CollectorState :=
  let successes := state.consecutiveSuccesses + 1
  { state with
    consecutiveFailures := 0
    slaveNextAttemptCycle := 0
    backoffUntilMs := 0
    consecutiveSuccesses := successes
    online := state.online || max 1 collect.recoverySuccessThreshold ≤ successes }

def noteReadFailure : CollectorState :=
  let failures := state.consecutiveFailures + 1
  let state :=
    { state with
      consecutiveSuccesses := 0
      consecutiveFailures := failures
      online := state.online && failures < max 1 collect.offlineFailureThreshold }
  if max 1 collect.slaveFailureBackoffThreshold ≤ failures then
    if collect.cycleBackoffEnabled then
      { state with slaveNextAttemptCycle := state.collectCycle + max 0 collect.slaveFailureBackoffCycles + 1 }
    else if 0 < collect.slaveFailureBackoffMs then
      { state with backoffUntilMs := nowMs + collect.slaveFailureBackoffMs }
    else state
  else state

def effectiveIntervalMs (point : PointDefinition K) : Int :=
  if 0 < point.read.intervalMs then max 100 point.read.intervalMs else max 100 collect.defaultIntervalMs

def duePoints (points : List (PointDefinition K)) : List (PointDefinition K) :=
  points.filter fun point =>
    readableForBuild point &&
      !((state.lastReadMs point.index).any fun last => nowMs - last < effectiveIntervalMs collect point)

end Tasks

section Cycles

variable {K : Type} [Field K] [LinearOrder K] [FloorRing K] (around : Surroundings K) (collect : CollectConfig)
  (nowMs : Int) (realtimeFocused : Bool)

def buildFailedPointValue (point : PointDefinition K) (message : StdString) : PointReading K where
  point := point
  value := 0
  text := message
  rawHex := []
  quality := 0
  ts := nowMs
  expireAt := nowMs + point.read.ttlMs

def buildPointValue (point : PointDefinition K) (decoded : DecodedValue K) (taskNowMs : Int) : PointReading K where
  point := point
  value := decoded.value
  text := decoded.text
  rawHex := decoded.rawHex
  quality := 1
  ts := taskNowMs
  expireAt := taskNowMs + point.read.ttlMs

/-- The value of a failed point as it goes to the store and the result, if it does. -/
def failedValue (state : CollectorState) (previous : Option (StoredLatest K)) (point : PointDefinition K)
    (message : StdString) : Option (PointReading K) :=
  let value := buildFailedPointValue nowMs point message
  if point.read.storeLatest = false then some value
  else
    let failureCount := state.pointFailureCounts point.index + 1
    let badQualityThreshold := max 1 collect.failureBadQualityThreshold
    match previous with
    | none => if failureCount < badQualityThreshold then none else some value
    | some previous =>
      let previousUpdateMs := (state.lastValueUpdateMs point.index).getD previous.ts
      let graceMs := max 0 collect.failureGoodValueGraceMs
      let keepGoodValue : Bool := previous.quality = 1 ∧ previous.stale = false ∧
        (failureCount < badQualityThreshold ∨ (0 < graceMs ∧ nowMs - previousUpdateMs < graceMs))
      if keepGoodValue then none
      else some { value with value := previous.value, expireAt := max previous.expireAt value.expireAt }

def recordFailure (cycle : Cycle K) (point : PointDefinition K) (message : StdString) : Cycle K :=
  let state := cycle.collector
  let previous := around.latest cycle.latestCalls point.index
  let value := failedValue collect nowMs state previous point message
  { cycle with
    firstFailureMessage := if cycle.firstFailureMessage = [] then message else cycle.firstFailureMessage
    collector :=
      { state with
        lastReadMs := Function.update state.lastReadMs point.index (some nowMs)
        pointFailureCounts :=
          Function.update state.pointFailureCounts point.index (state.pointFailureCounts point.index + 1)
        lastValueUpdateMs :=
          if value.isSome then Function.update state.lastValueUpdateMs point.index (some nowMs)
          else state.lastValueUpdateMs }
    values := cycle.values ++ value.toList
    handled := cycle.handled ++ [point]
    latestCalls := if point.read.storeLatest then cycle.latestCalls + 1 else cycle.latestCalls }

def recordDecoded (cycle : Cycle K) (point : PointDefinition K) (value : PointReading K) : Cycle K :=
  let state := cycle.collector
  { cycle with
    collector :=
      { state with
        lastReadMs := Function.update state.lastReadMs point.index (some nowMs)
        lastValueUpdateMs := Function.update state.lastValueUpdateMs point.index (some nowMs)
        pointFailureCounts := Function.update state.pointFailureCounts point.index 0 }
    values := cycle.values ++ [value]
    handled := cycle.handled ++ [point]
    hasSuccessfulRead := true }

def faultText : CodecFault → StdString
  | .invalidArgument message => message
  | .outOfBounds => []

def takeSlice (block : List (BitVec 16)) (slice : BlockSlice) : List (BitVec 16) :=
  (block.drop slice.offset.toNat).take slice.length.toNat

/-- The slice is recorded before it is taken: outside the block the vector constructor has no meaning. -/
def decodePoint (block : List (BitVec 16)) (taskNowMs : Int) (cycle : Cycle K) (taskPoint : ReadTaskPoint K) : Cycle K :=
  let point := taskPoint.definition
  let slice : BlockSlice := ⟨block.length, taskPoint.offset, point.read.length⟩
  let cycle := { cycle with slices := cycle.slices ++ [slice] }
  match ModbusCodec.decodeReadValue around.platform (takeSlice block slice) point with
  | .ok decoded => recordDecoded nowMs cycle point (buildPointValue point decoded taskNowMs)
  | .error fault => recordFailure around collect nowMs cycle point (faultText fault)

def decodeSuccessfulBlock (task : ReadTask K) (block : List (BitVec 16)) (cycle : Cycle K) : Cycle K :=
  task.points.foldl (decodePoint around collect nowMs block (around.clock cycle.executedTasks.length)) cycle

def executeReadTask (reads : Nat) (task : ReadTask K) : Except StdString (List (BitVec 16)) :=
  if 1 ≤ task.function ∧ task.function ≤ 4 then around.read reads task
  else .error ("unsupported read function: ".toList ++ (toString task.function).toList)

def readBlock (reads : Nat) (task : ReadTask K) : Except StdString (List (BitVec 16)) :=
  match executeReadTask around reads task with
  | .error message => .error message
  | .ok block =>
    if block.length < ModbusCodec.toSize task.count then
      .error "modbus block length is shorter than planned task".toList
    else .ok block

/-- The parts that a split task is probed in, each executed one level deeper. -/
def executeSplit (deeper : ReadTask K → Cycle K → Cycle K) (task : ReadTask K) (cycle : Cycle K) : Cycle K :=
  let (probes, leafProbeBudget) := limitAdaptiveSplitLeafProbeTasks collect cycle.collector nowMs
    (adaptiveSplit collect task) cycle.leafProbeBudget
  probes.foldl (fun cycle splitTask => deeper splitTask cycle) { cycle with leafProbeBudget := leafProbeBudget }

def splits (task : ReadTask K) : Bool := canAdaptiveSplitTask collect task && 1 < (adaptiveSplit collect task).length

def executeTask (deeper : Option (ReadTask K → Cycle K → Cycle K)) (recordPointFailures : Bool) (task : ReadTask K)
    (cycle : Cycle K) : Cycle K :=
  if shouldSkipTaskForBackoff collect cycle.collector nowMs realtimeFocused task then
    match deeper with
    | some deeper =>
      if !collect.cycleBackoffEnabled && !taskNoResponse cycle.collector task && splits collect task then
        executeSplit collect nowMs deeper task cycle
      else { cycle with skippedTasks := cycle.skippedTasks + 1 }
    | none => { cycle with skippedTasks := cycle.skippedTasks + 1 }
  else
    let reads := cycle.executedTasks.length
    let cycle := { cycle with executedTasks := cycle.executedTasks ++ [task] }
    match readBlock around reads task with
    | .ok block =>
      decodeSuccessfulBlock around collect nowMs task block
        { cycle with collector := clearOverlappingTaskFailures cycle.collector task }
    | .error message =>
      let cycle := { cycle with
        collector := noteTaskReadFailure collect cycle.collector nowMs realtimeFocused task message }
      let failed :=
        if recordPointFailures then
          task.points.foldl (fun cycle taskPoint => recordFailure around collect nowMs cycle taskPoint.definition
            ("modbus read task failed".toList ++ describeTask task ++ " error=".toList ++ message)) cycle
        else cycle
      match deeper with
      | some deeper =>
        if !isNoResponseError message && splits collect task then executeSplit collect nowMs deeper task cycle
        else failed
      | none => failed

/-- `executeAdaptiveTask` with as many levels below it as its depth leaves. -/
def executeAdaptiveTask (recordPointFailures : Bool) : Nat → ReadTask K → Cycle K → Cycle K
  | 0 => executeTask around collect nowMs realtimeFocused none recordPointFailures
  | levels + 1 =>
    executeTask around collect nowMs realtimeFocused (some (executeAdaptiveTask recordPointFailures levels))
      recordPointFailures

/-- The tasks of this cycle, and what choosing them leaves in the collector. -/
def selectTasks (state : CollectorState) (realtimeTasks backgroundTasks : List (ReadTask K)) :
    List (ReadTask K) × CollectorState :=
  let candidateTasks := realtimeTasks ++ backgroundTasks
  let realtimeTaskBudget :=
    if realtimeFocused then collect.realtimeMaxTasksPerMeterPerCycle else collect.maxTasksPerMeterPerCycle
  if collect.offlineProbeOnly ∧ state.online = false ∧ 0 < state.consecutiveFailures ∧
      collect.offlineProbeTaskCount < candidateTasks.length then
    let (probes, cursor) := limitToOfflineProbeTasks collect state candidateTasks
    let state := { state with offlineProbeCursor := cursor }
    (limitToMeterTaskBudget collect state nowMs realtimeFocused probes realtimeTaskBudget, state)
  else
    let selectedRealtimeTasks := limitToMeterTaskBudget collect state nowMs realtimeFocused realtimeTasks realtimeTaskBudget
    let backgroundBudget := max 0 (if realtimeFocused then collect.realtimeMaxBackgroundTasksPerMeterPerCycle
      else collect.maxBackgroundTasksPerMeterPerCycle)
    let backgroundIntervalMs := max 0 collect.backgroundTaskIntervalMs
    if backgroundTasks.isEmpty ∨ backgroundBudget ≤ 0 then (selectedRealtimeTasks, state)
    else if 0 < backgroundIntervalMs ∧ state.lastBackgroundTaskMs < 0 then
      (selectedRealtimeTasks, { state with lastBackgroundTaskMs := nowMs })
    else if 0 < backgroundIntervalMs ∧ nowMs - state.lastBackgroundTaskMs < backgroundIntervalMs then
      (selectedRealtimeTasks, state)
    else
      let selectedBackgroundTasks :=
        limitToMeterTaskBudget collect state nowMs realtimeFocused backgroundTasks backgroundBudget
      if selectedBackgroundTasks.isEmpty then (selectedRealtimeTasks, state)
      else (selectedRealtimeTasks ++ selectedBackgroundTasks, { state with lastBackgroundTaskMs := nowMs })

def startCycle (state : CollectorState) : Cycle K where
  collector := state
  leafProbeBudget :=
    max 0 (if realtimeFocused then collect.realtimeAdaptiveSplitLeafProbeBudget else collect.adaptiveSplitLeafProbeBudget)

/-- The end of a cycle: the state of the slave, and the message that is thrown if every read failed. -/
def finishCycle (cycle : Cycle K) : Except StdString Unit × Cycle K :=
  if cycle.executedTasks.isEmpty then (.ok (), cycle)
  else if cycle.hasSuccessfulRead then (.ok (), { cycle with collector := noteReadSuccess collect cycle.collector })
  else
    (if cycle.firstFailureMessage = [] then .ok () else .error cycle.firstFailureMessage,
      { cycle with collector := noteReadFailure collect cycle.collector nowMs })

def collectOnce (config : DeviceConfig K) (state : CollectorState) : Except StdString Unit × Cycle K :=
  let state := { state with collectCycle := state.collectCycle + 1 }
  let cycle := startCycle config.collect realtimeFocused state
  if shouldSkipForBackoff config.collect state nowMs then (.ok (), cycle)
  else
    let points := duePoints config.collect state nowMs config.points
    let planned := do
      let realtimeTasks ← plannedTasks config.collect state nowMs realtimeFocused around.readSort
        (points.filter fun point => pointPriority point = 0)
      let backgroundTasks ← plannedTasks config.collect state nowMs realtimeFocused around.readSort
        (points.filter fun point => pointPriority point ≠ 0)
      pure (realtimeTasks, backgroundTasks)
    match planned with
    | .error message => (.error message, cycle)
    | .ok (realtimeTasks, backgroundTasks) =>
      let (tasks, state) := selectTasks config.collect nowMs realtimeFocused state realtimeTasks backgroundTasks
      finishCycle config.collect nowMs
        (tasks.foldl (fun cycle task =>
          executeAdaptiveTask around config.collect nowMs realtimeFocused true config.collect.adaptiveSplitMaxDepth.toNat
            task cycle) { cycle with collector := state })

end Cycles

end Collector

end EdgeGateway.Modbus
