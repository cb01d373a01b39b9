import EdgeGateway.Foundation.Selection
import EdgeGateway.Modbus.ReadPlans
import Mathlib.Data.Rat.Floor

/-! # What a reading cycle does with its points -/

namespace EdgeGateway.Modbus

open Collector Fallible ReadTaskPlanner ReadTask Selection

variable {K : Type}

structure Addressable (points : List (PointDefinition K)) : Prop where
  length : ∀ point ∈ points, 0 < point.read.length
  last : ∀ point ∈ points, point.address + point.read.length ≤ intMax
  span : ∀ point ∈ points, ∀ other ∈ points, other.read.function = point.read.function →
    other.address + other.read.length - point.address ≤ intMax

theorem Addressable.mono {points more : List (PointDefinition K)} (hMore : Addressable more) (hSubset : points ⊆ more) :
    Addressable points := by
  obtain ⟨hLength, hLast, hSpan⟩ := hMore
  constructor
  · exact fun point hPoint => hLength point (hSubset hPoint)
  · exact fun point hPoint => hLast point (hSubset hPoint)
  · exact fun point hPoint other hOther => hSpan point (hSubset hPoint) other (hSubset hOther)

def BlockSlice.Inside (slice : BlockSlice) : Prop :=
  0 ≤ slice.offset ∧ 0 ≤ slice.length ∧ slice.offset + slice.length ≤ slice.blockSize

namespace Collector

section Choosing

variable {collect : CollectConfig} {state : CollectorState} {nowMs : Int} {realtimeFocused : Bool}
  {tasks : List (ReadTask K)}

theorem take_stableSort_subperm {α : Type} (before : α → α → Bool) (n : Nat) (l : List α) :
    ((stableSort before l).take n).Subperm l :=
  (List.take_sublist _ _).subperm.trans (List.mergeSort_perm _ _).subperm

theorem limitAdaptiveSplitLeafProbeTasks_subperm (leafProbeBudget : Int) :
    (limitAdaptiveSplitLeafProbeTasks collect state nowMs tasks leafProbeBudget).1.Subperm tasks := by
  rw [limitAdaptiveSplitLeafProbeTasks]
  split
  · exact List.nil_subperm
  split
  · exact List.Subperm.refl _
  dsimp only
  split
  · exact List.Subperm.refl _
  · exact take_stableSort_subperm _ _ _

theorem limitToMeterTaskBudget_subperm (maxTasksPerCycle : Int) :
    (limitToMeterTaskBudget collect state nowMs realtimeFocused tasks maxTasksPerCycle).Subperm tasks := by
  rw [limitToMeterTaskBudget]
  split
  · exact List.nil_subperm
  dsimp only
  split
  · exact List.Subperm.refl _
  · exact take_stableSort_subperm _ _ _

theorem limitToOfflineProbeTasks_subperm : (limitToOfflineProbeTasks collect state tasks).1.Subperm tasks := by
  rw [limitToOfflineProbeTasks]
  split
  · exact List.Subperm.refl _
  · exact subperm_around _ (Nat.min_le_right _ _)

theorem selectTasks_subperm (realtimeTasks backgroundTasks : List (ReadTask K)) :
    (selectTasks collect nowMs realtimeFocused state realtimeTasks backgroundTasks).1.Subperm
      (realtimeTasks ++ backgroundTasks) := by
  have hRealtime : ∀ budget : Int, (limitToMeterTaskBudget collect state nowMs realtimeFocused realtimeTasks
      budget).Subperm (realtimeTasks ++ backgroundTasks) := fun budget =>
    (limitToMeterTaskBudget_subperm budget).trans (List.sublist_append_left _ _).subperm
  rw [selectTasks]
  dsimp only
  generalize (if realtimeFocused = true then collect.realtimeMaxTasksPerMeterPerCycle
    else collect.maxTasksPerMeterPerCycle) = realtimeTaskBudget
  generalize (if realtimeFocused = true then collect.realtimeMaxBackgroundTasksPerMeterPerCycle
    else collect.maxBackgroundTasksPerMeterPerCycle) = backgroundBudget
  split
  · exact (limitToMeterTaskBudget_subperm _).trans limitToOfflineProbeTasks_subperm
  split
  · exact hRealtime _
  split
  · exact hRealtime _
  split
  · exact hRealtime _
  split
  · exact hRealtime _
  · exact (limitToMeterTaskBudget_subperm _).append (limitToMeterTaskBudget_subperm _)

end Choosing

structure Planned (maxBatchRegisters : Int) (task : ReadTask K) : Prop where
  sound : task.Sound maxBatchRegisters
  addressable : Addressable task.definitions

section Planned

variable {maxBatchRegisters : Int} {task : ReadTask K} {taskPoint : ReadTaskPoint K}

theorem Planned.length_pos (hPlanned : Planned maxBatchRegisters task) (hPoint : taskPoint ∈ task.points) :
    0 < taskPoint.definition.read.length :=
  hPlanned.addressable.length _ (List.mem_map_of_mem hPoint)

theorem Planned.count_nonneg (hPlanned : Planned maxBatchRegisters task) : 0 ≤ task.count := by
  obtain ⟨first, hFirst, -⟩ := hPlanned.sound.tight.first
  have hLength := hPlanned.length_pos hFirst
  obtain ⟨-, -, hNonneg, hInside⟩ := hPlanned.sound.fits first hFirst
  omega

theorem Planned.count_le (hPlanned : Planned maxBatchRegisters task) : task.count ≤ intMax := by
  obtain ⟨first, hFirst, hStart⟩ := hPlanned.sound.tight.first
  obtain ⟨last, hLast, hEnd⟩ := hPlanned.sound.tight.last
  have hFits := hPlanned.sound.fits
  have hSame := (hFits last hLast).function.trans (hFits first hFirst).function.symm
  have hSpan := hPlanned.addressable.span _ (List.mem_map_of_mem hFirst) _ (List.mem_map_of_mem hLast) hSame
  omega

theorem Planned.inside {block : List (BitVec 16)} (hPlanned : Planned maxBatchRegisters task)
    (hEnough : ModbusCodec.toSize task.count ≤ block.length) (hPoint : taskPoint ∈ task.points) :
    BlockSlice.Inside ⟨block.length, taskPoint.offset, taskPoint.definition.read.length⟩ := by
  have hLength := hPlanned.length_pos hPoint
  obtain ⟨-, -, hNonneg, hInside⟩ := hPlanned.sound.fits taskPoint hPoint
  obtain ⟨count, hCount⟩ := Int.eq_ofNat_of_zero_le hPlanned.count_nonneg
  have hLimit := hPlanned.count_le
  rw [intMax] at hLimit
  rw [hCount, ModbusCodec.toSize_natCast (by omega)] at hEnough
  refine ⟨hNonneg, hLength.le, ?_⟩
  dsimp only
  omega

theorem Planned.adaptiveSplit {collect : CollectConfig} (hPlanned : Planned maxBatchRegisters task) :
    ∀ part ∈ adaptiveSplit collect task, Planned maxBatchRegisters part := by
  have hSplits := @splits_adaptiveSplit K maxBatchRegisters task collect hPlanned.sound
  intro part hPart
  refine ⟨hSplits.sound part hPart, hPlanned.addressable.mono ?_⟩
  rw [← hSplits.definitions]
  exact fun point hPoint => List.mem_flatMap_of_mem hPart hPoint

end Planned

structure Handles (points : List (PointDefinition K)) (cycle cycle' : Cycle K) : Prop where
  logs : Logs Cycle.handled points cycle cycle'
  slices : (∀ slice ∈ cycle.slices, slice.Inside) → ∀ slice ∈ cycle'.slices, slice.Inside

section Handles

variable {points more : List (PointDefinition K)} {cycle cycle' cycle'' : Cycle K}

theorem handles_of_eq (hHandled : cycle'.handled = cycle.handled) (hSlices : cycle'.slices = cycle.slices) :
    Handles points cycle cycle' :=
  ⟨logs_of_eq hHandled, fun hInside => hSlices ▸ hInside⟩

theorem handles_point {point : PointDefinition K} (hHandled : cycle'.handled = cycle.handled ++ [point])
    (hSlices : cycle'.slices = cycle.slices) : Handles [point] cycle cycle' :=
  ⟨(List.Perm.of_eq hHandled).subperm, fun hInside => hSlices ▸ hInside⟩

theorem Handles.mono (hHandles : Handles points cycle cycle') (hPoints : points.Subperm more) :
    Handles more cycle cycle' :=
  ⟨hHandles.logs.mono hPoints, hHandles.slices⟩

theorem Handles.trans (hFirst : Handles points cycle cycle') (hSecond : Handles more cycle' cycle'') :
    Handles (points ++ more) cycle cycle'' :=
  ⟨hFirst.logs.trans hSecond.logs, fun hInside => hSecond.slices (hFirst.slices hInside)⟩

theorem handles_foldl {α : Type} {step : Cycle K → α → Cycle K} (pointsOf : α → List (PointDefinition K)) {l : List α}
    (hStep : ∀ a ∈ l, ∀ cycle, Handles (pointsOf a) cycle (step cycle a)) (cycle : Cycle K) :
    Handles (l.flatMap pointsOf) cycle (l.foldl step cycle) := by
  induction l generalizing cycle with
  | nil => exact handles_of_eq rfl rfl
  | cons a rest ih =>
    rw [List.flatMap_cons, List.foldl_cons]
    have hRest := ih (fun b hb => hStep b (List.mem_cons_of_mem _ hb)) (step cycle a)
    exact (hStep a List.mem_cons_self cycle).trans hRest

theorem Handles.from_eq (hHandles : Handles points cycle' cycle'') (hHandled : cycle'.handled = cycle.handled)
    (hSlices : cycle'.slices = cycle.slices) : Handles points cycle cycle'' := by
  have hStart : Handles [] cycle cycle' := handles_of_eq hHandled hSlices
  exact hStart.trans hHandles

end Handles

section Cycles

variable {around : Surroundings K} {collect : CollectConfig} {nowMs : Int}
  {realtimeFocused : Bool} {maxBatchRegisters : Int} {task : ReadTask K}

theorem handles_recordDecoded (cycle : Cycle K) (point : PointDefinition K) (value : PointReading K) :
    Handles [point] cycle (recordDecoded nowMs cycle point value) :=
  handles_point rfl rfl

theorem readBlock_enough {reads : Nat} {block : List (BitVec 16)} (hRead : readBlock around reads task = .ok block) :
    ModbusCodec.toSize task.count ≤ block.length := by
  rw [readBlock] at hRead
  split at hRead
  · cases hRead
  split at hRead
  · cases hRead
  · next hLength =>
    obtain rfl := Except.ok.inj hRead
    exact Nat.not_lt.mp hLength

def HandlesTasks (maxBatchRegisters : Int) (execute : ReadTask K → Cycle K → Cycle K) : Prop :=
  ∀ task cycle, Planned maxBatchRegisters task → Handles task.definitions cycle (execute task cycle)

theorem handles_executeSplit {deeper : ReadTask K → Cycle K → Cycle K} (hDeeper : HandlesTasks maxBatchRegisters deeper)
    (hPlanned : Planned maxBatchRegisters task) (cycle : Cycle K) :
    Handles task.definitions cycle (executeSplit collect nowMs deeper task cycle) := by
  have hSplits := @splits_adaptiveSplit K maxBatchRegisters task collect hPlanned.sound
  have hProbes := @limitAdaptiveSplitLeafProbeTasks_subperm K collect cycle.collector nowMs (adaptiveSplit collect task)
    cycle.leafProbeBudget
  rw [← hSplits.definitions, executeSplit]
  refine Handles.mono (Handles.from_eq (handles_foldl definitions (fun part hPart cycle => ?_) _) rfl rfl)
    (subperm_flatMap hProbes definitions)
  exact hDeeper part cycle (hPlanned.adaptiveSplit part (hProbes.subset hPart))

theorem handles_finishCycle {points : List (PointDefinition K)} {cycle cycle' : Cycle K}
    (hHandles : Handles points cycle cycle') : Handles points cycle (finishCycle collect nowMs cycle').2 := by
  rw [finishCycle]
  split
  · exact hHandles
  split
  · exact ⟨hHandles.logs, hHandles.slices⟩
  · exact ⟨hHandles.logs, hHandles.slices⟩

theorem duePoints_sublist (state : CollectorState) (points : List (PointDefinition K)) :
    (duePoints collect state nowMs points).Sublist (points.filter readableForBuild) := by
  rw [duePoints]
  refine List.monotone_filter_right points fun point hDue => ?_
  exact ((Bool.and_eq_true _ _).mp hDue).1

theorem plannedTasks_planned {state : CollectorState} {readSort : ReadSort K} {points : List (PointDefinition K)}
    {tasks : List (ReadTask K)} (hPoints : Addressable points)
    (hPlan : plannedTasks collect state nowMs realtimeFocused readSort points = .ok tasks) :
    ∀ task ∈ tasks, Planned collect.maxBatchRegisters task := by
  obtain ⟨hPerm, hSound⟩ := plannedTasks_sound hPlan
  intro task hTask
  refine ⟨hSound task hTask, hPoints.mono fun point hPoint => ?_⟩
  exact List.mem_of_mem_filter (hPerm.subset (List.mem_flatMap_of_mem hTask hPoint))

section Numbers

variable [Field K]

theorem handles_recordFailure (cycle : Cycle K) (point : PointDefinition K) (message : StdString) :
    Handles [point] cycle (recordFailure around collect nowMs cycle point message) :=
  handles_point rfl rfl

theorem handles_failedTask (recordPointFailures : Bool) (message : StdString) (cycle : Cycle K) :
    Handles task.definitions cycle (if recordPointFailures then
      task.points.foldl (fun cycle taskPoint => recordFailure around collect nowMs cycle taskPoint.definition message) cycle
      else cycle) := by
  split
  · rw [definitions, List.map_eq_flatMap]
    exact handles_foldl _ (fun taskPoint _ cycle => handles_recordFailure cycle taskPoint.definition message) cycle
  · exact handles_of_eq rfl rfl

variable [LinearOrder K] [FloorRing K]

theorem handles_decodePoint {block : List (BitVec 16)} {taskPoint : ReadTaskPoint K}
    (hInside : BlockSlice.Inside ⟨block.length, taskPoint.offset, taskPoint.definition.read.length⟩)
    (taskNowMs : Int) (cycle : Cycle K) :
    Handles [taskPoint.definition] cycle (decodePoint around collect nowMs block taskNowMs cycle taskPoint) := by
  let slice : BlockSlice := ⟨block.length, taskPoint.offset, taskPoint.definition.read.length⟩
  have hTaken : Handles [] cycle { cycle with slices := cycle.slices ++ [slice] } := by
    refine ⟨logs_of_eq rfl, fun hBefore other hOther => ?_⟩
    obtain hOld | hNew := List.mem_append.mp hOther
    · exact hBefore other hOld
    · rw [List.mem_singleton.mp hNew]
      exact hInside
  rw [decodePoint]
  split
  · exact hTaken.trans (handles_recordDecoded _ _ _)
  · exact hTaken.trans (handles_recordFailure _ _ _)

theorem handles_decodeSuccessfulBlock {block : List (BitVec 16)} (hPlanned : Planned maxBatchRegisters task)
    (hEnough : ModbusCodec.toSize task.count ≤ block.length) (cycle : Cycle K) :
    Handles task.definitions cycle (decodeSuccessfulBlock around collect nowMs task block cycle) := by
  rw [definitions, List.map_eq_flatMap]
  exact handles_foldl _ (fun taskPoint hPoint => handles_decodePoint (hPlanned.inside hEnough hPoint) _) cycle

theorem handles_executeTask {deeper : Option (ReadTask K → Cycle K → Cycle K)}
    (hDeeper : ∀ execute ∈ deeper, HandlesTasks maxBatchRegisters execute) (recordPointFailures : Bool) :
    HandlesTasks maxBatchRegisters
      (executeTask around collect nowMs realtimeFocused deeper recordPointFailures) := by
  intro task cycle hPlanned
  rw [executeTask.eq_def]
  split
  · split
    · next execute =>
      split
      · exact handles_executeSplit (hDeeper execute rfl) hPlanned cycle
      · exact handles_of_eq rfl rfl
    · exact handles_of_eq rfl rfl
  dsimp only
  split
  · next block hRead =>
    exact Handles.from_eq (handles_decodeSuccessfulBlock hPlanned (readBlock_enough hRead) _) rfl rfl
  · split
    · next execute =>
      split
      · exact Handles.from_eq (handles_executeSplit (hDeeper execute rfl) hPlanned _) rfl rfl
      · exact Handles.from_eq (handles_failedTask recordPointFailures _ _) rfl rfl
    · exact Handles.from_eq (handles_failedTask recordPointFailures _ _) rfl rfl

theorem handles_executeAdaptiveTask (recordPointFailures : Bool) (levels : Nat) :
    HandlesTasks maxBatchRegisters
      (executeAdaptiveTask around collect nowMs realtimeFocused recordPointFailures levels) := by
  induction levels with
  | zero => exact handles_executeTask (fun execute hNone => absurd hNone (Option.not_mem_none execute)) recordPointFailures
  | succ levels ih =>
    refine handles_executeTask (fun execute hSome => ?_) recordPointFailures
    rw [← Option.mem_some.mp hSome]
    exact ih

/-- The tasks of a cycle are chosen from the plans of its urgent and its other points. -/
theorem handles_selectedTasks {state : CollectorState} {due : List (PointDefinition K)}
    {realtimeTasks backgroundTasks : List (ReadTask K)} (hDue : Addressable due)
    (hRealtime : plannedTasks collect state nowMs realtimeFocused around.readSort
      (due.filter fun point => pointPriority point = 0) = .ok realtimeTasks)
    (hBackground : plannedTasks collect state nowMs realtimeFocused around.readSort
      (due.filter fun point => pointPriority point ≠ 0) = .ok backgroundTasks)
    (levels : Nat) (cycle : Cycle K) :
    Handles due cycle
      ((selectTasks collect nowMs realtimeFocused state realtimeTasks backgroundTasks).1.foldl (fun cycle task =>
        executeAdaptiveTask around collect nowMs realtimeFocused true levels task cycle) cycle) := by
  have hSelected := @selectTasks_subperm K collect state nowMs realtimeFocused realtimeTasks backgroundTasks
  have hPlanned : ∀ task ∈ realtimeTasks ++ backgroundTasks, Planned collect.maxBatchRegisters task := by
    intro task hTask
    obtain hTask | hTask := List.mem_append.mp hTask
    · exact plannedTasks_planned (hDue.mono (List.filter_subset_self _)) hRealtime task hTask
    · exact plannedTasks_planned (hDue.mono (List.filter_subset_self _)) hBackground task hTask
  have hPoints : ((realtimeTasks ++ backgroundTasks).flatMap definitions).Subperm due := by
    rw [List.flatMap_append]
    have hBoth := (plannedTasks_sound hRealtime).1.append (plannedTasks_sound hBackground).1
    refine hBoth.subperm.trans (((List.filter_sublist.append List.filter_sublist).subperm).trans ?_)
    exact (perm_filter_or fun point => decide_not).subperm
  refine Handles.mono (handles_foldl definitions (fun task hTask cycle => ?_) cycle)
    ((subperm_flatMap hSelected definitions).trans hPoints)
  exact handles_executeAdaptiveTask true levels task cycle (hPlanned task (hSelected.subset hTask))

theorem handles_collectOnce {config : DeviceConfig K} (hPoints : Addressable config.points) (state : CollectorState) :
    Handles (config.points.filter readableForBuild) (startCycle config.collect realtimeFocused state)
      (collectOnce around nowMs realtimeFocused config state).2 := by
  rw [collectOnce]
  generalize { state with collectCycle := state.collectCycle + 1 } = started
  dsimp only
  split
  · exact handles_of_eq rfl rfl
  generalize hDue : duePoints config.collect started nowMs config.points = due
  have hSublist : due.Sublist (config.points.filter readableForBuild) := hDue ▸ duePoints_sublist _ _
  split
  · exact handles_of_eq rfl rfl
  · next realtimeTasks backgroundTasks hPlan =>
    obtain ⟨realtime, hRealtime, hPlan⟩ := bind_ok_iff.mp hPlan
    obtain ⟨background, hBackground, hPlan⟩ := bind_ok_iff.mp hPlan
    cases hPlan
    have hAddressable := hPoints.mono (hSublist.trans List.filter_sublist).subset
    have hRun := handles_selectedTasks hAddressable hRealtime hBackground config.collect.adaptiveSplitMaxDepth.toNat
      { startCycle config.collect realtimeFocused started with
        collector := (selectTasks config.collect nowMs realtimeFocused started realtimeTasks backgroundTasks).2 }
    exact handles_finishCycle ((hRun.mono hSublist.subperm).from_eq rfl rfl)

end Numbers

end Cycles

/-- A plan holds every readable point once, in a task that covers it; a cycle records none twice and stays in
    the blocks. -/
theorem read_plan_sound [Field K] [LinearOrder K] [FloorRing K] {points : List (PointDefinition K)}
    (hPoints : Addressable points) :
    (∀ (collect : CollectConfig) (state : CollectorState) (nowMs : Int) (realtimeFocused : Bool)
      (readSort : ReadSort K),
      (0 < collect.maxBatchRegisters →
        ∃ tasks, plannedTasks collect state nowMs realtimeFocused readSort points = .ok tasks) ∧
      ∀ tasks, plannedTasks collect state nowMs realtimeFocused readSort points = .ok tasks →
        (tasks.flatMap definitions).Perm (points.filter readableForBuild) ∧
          ∀ task ∈ tasks, task.Sound collect.maxBatchRegisters) ∧
    ∀ (around : Surroundings K) (config : DeviceConfig K) (state : CollectorState) (nowMs : Int)
      (realtimeFocused : Bool), config.points = points →
      ∀ cycle, (collectOnce around nowMs realtimeFocused config state).2 = cycle →
        (∀ slice ∈ cycle.slices, slice.Inside) ∧ cycle.handled.Subperm (points.filter readableForBuild) := by
  refine ⟨fun collect state nowMs realtimeFocused readSort => ⟨fun hBatch => ?_, fun tasks => plannedTasks_sound⟩, ?_⟩
  · rw [plannedTasks, build, if_neg (Int.not_le.mpr hBatch)]
    exact ⟨_, rfl⟩
  · rintro around config state nowMs realtimeFocused rfl cycle rfl
    obtain ⟨hLogs, hSlices⟩ := handles_collectOnce hPoints state
    exact ⟨hSlices fun slice hNone => absurd hNone List.not_mem_nil, hLogs⟩

def meterPoints : List (PointDefinition ℚ) :=
  [{ index := 1, pointCode := "power".toList, enabled := true, address := 100
     read := { enable := true, length := 2, scale := 1, offset := 0 }, write := { scale := 1, offset := 0, step := 0 } },
   { index := 2, pointCode := "energy".toList, enabled := true, address := 102, collectPriority := 1
     read := { enable := true, scale := 1, offset := 0 }, write := { scale := 1, offset := 0, step := 0 } }]

theorem meterPoints_addressable : Addressable meterPoints := by
  constructor
  · simp [meterPoints]
  · simp [meterPoints, intMax]
  · simp [meterPoints, intMax]

theorem read_plan_sound_meter : meterPoints.filter readableForBuild = meterPoints ∧
    ∀ (readSort : ReadSort ℚ) (tasks : List (ReadTask ℚ)),
      plannedTasks {} {} 0 false readSort meterPoints = .ok tasks →
        (tasks.flatMap definitions).Perm (meterPoints.filter readableForBuild) ∧
          ∀ task ∈ tasks, task.Sound (CollectConfig.maxBatchRegisters {}) :=
  ⟨rfl, fun readSort => ((read_plan_sound meterPoints_addressable).1 {} {} 0 false readSort).2⟩

end Collector

end EdgeGateway.Modbus
