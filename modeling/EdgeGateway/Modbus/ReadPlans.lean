import EdgeGateway.Foundation.Fallible
import EdgeGateway.Modbus.ModbusCollector

/-! # Plans of a reading cycle -/

namespace EdgeGateway.Modbus

open Fallible ReadTaskPlanner Collector

variable {K : Type} {maxBatchRegisters : Int} {task part : ReadTask K} {tasks parts : List (ReadTask K)}

structure ReadTaskPoint.Fits (task : ReadTask K) (taskPoint : ReadTaskPoint K) : Prop where
  function : taskPoint.definition.read.function = task.function
  offset : taskPoint.offset = taskPoint.definition.address - task.start
  nonneg : 0 ≤ taskPoint.offset
  inside : taskPoint.offset + taskPoint.definition.read.length ≤ task.count

namespace ReadTask

def definitions (task : ReadTask K) : List (PointDefinition K) := task.points.map ReadTaskPoint.definition

def Fits (task : ReadTask K) : Prop := ∀ taskPoint ∈ task.points, taskPoint.Fits task

structure Tight (task : ReadTask K) : Prop where
  first : ∃ taskPoint ∈ task.points, taskPoint.definition.address = task.start
  last : ∃ taskPoint ∈ task.points,
    taskPoint.definition.address + taskPoint.definition.read.length = task.start + task.count

structure Sound (maxBatchRegisters : Int) (task : ReadTask K) : Prop where
  tight : task.Tight
  fits : task.Fits
  batch : task.points.length = 1 ∨ task.count ≤ maxBatchRegisters

theorem tight_taskOf (function : Int) (point : PointDefinition K) : (taskOf function point).Tight :=
  ⟨⟨_, List.mem_singleton_self _, rfl⟩, _, List.mem_singleton_self _, rfl⟩

theorem fits_taskOf {function : Int} {point : PointDefinition K} (hFunction : point.read.function = function) :
    (taskOf function point).Fits := by
  intro taskPoint hPoint
  obtain rfl := List.mem_singleton.mp hPoint
  constructor
  · exact hFunction
  · exact (Int.sub_self _).symm
  · exact Int.le_refl 0
  · exact (Int.zero_add _).le

theorem sound_taskOf {function : Int} {point : PointDefinition K} (hFunction : point.read.function = function) :
    (taskOf function point).Sound maxBatchRegisters :=
  ⟨tight_taskOf function point, fits_taskOf hFunction, .inl rfl⟩

theorem Tight.addPoint (hTight : task.Tight) (point : PointDefinition K) :
    (ReadTaskPlanner.addPoint task point).Tight := by
  obtain ⟨⟨first, hFirst, hStart⟩, last, hLast, hEnd⟩ := hTight
  refine ⟨⟨first, List.mem_append_left _ hFirst, hStart⟩, ?_⟩
  rw [ReadTaskPlanner.addPoint]
  dsimp only
  obtain hOld | hNew := Int.le_total (point.address + point.read.length) (task.start + task.count)
  · refine ⟨last, List.mem_append_left _ hLast, ?_⟩
    rw [Int.max_eq_left hOld]
    omega
  · refine ⟨⟨point, point.address - task.start⟩, List.mem_append_right _ (List.mem_singleton_self _), ?_⟩
    rw [Int.max_eq_right hNew]
    exact (add_sub_cancel _ _).symm

theorem Fits.addPoint {point : PointDefinition K} (hFits : task.Fits) (hFunction : point.read.function = task.function)
    (hStart : task.start ≤ point.address) : (ReadTaskPlanner.addPoint task point).Fits := by
  intro taskPoint hPoint
  obtain hOld | hNew := List.mem_append.mp hPoint
  · obtain ⟨hSame, hOffset, hNonneg, hInside⟩ := hFits taskPoint hOld
    refine ⟨hSame, hOffset, hNonneg, ?_⟩
    rw [ReadTaskPlanner.addPoint]
    dsimp only
    omega
  · obtain rfl := List.mem_singleton.mp hNew
    refine ⟨hFunction, rfl, ?_, ?_⟩
    · dsimp only
      omega
    · rw [ReadTaskPlanner.addPoint]
      dsimp only
      omega

theorem definitions_addPoint (task : ReadTask K) (point : PointDefinition K) :
    (addPoint task point).definitions = task.definitions ++ [point] := by
  rw [definitions, addPoint, List.map_append]
  rfl

end ReadTask

open ReadTask

theorem batching_sound {batchOptimize : Bool} {points : List (PointDefinition K)}
    (hSorted : points.Pairwise fun lhs rhs => readBefore rhs lhs = false) :
    ∀ task ∈ (batching maxBatchRegisters batchOptimize).groups points, task.Sound maxBatchRegisters := by
  refine @Grouping.groups_keep _ _ (batching maxBatchRegisters batchOptimize) (fun task => task.Sound maxBatchRegisters)
    (fun task point => task.function = point.read.function → task.start ≤ point.address)
    (fun lhs rhs => readBefore rhs lhs = false) ?_ ?_ ?_ points (fun point _ => sound_taskOf rfl) hSorted
  · intro task point hSound hBefore hJoins
    obtain ⟨-, hMerge⟩ := (Bool.and_eq_true _ _).mp hJoins
    rw [canMerge] at hMerge
    split at hMerge
    · cases hMerge
    · next hFunction =>
      have hSame := not_not.mp hFunction
      exact ⟨hSound.tight.addPoint point, hSound.fits.addPoint hSame.symm (hBefore hSame),
        .inr (of_decide_eq_true hMerge)⟩
  · intro lhs rhs hOrder hFunction
    have hSame : ¬rhs.read.function ≠ lhs.read.function := not_not.mpr hFunction.symm
    rw [readBefore, if_neg hSame] at hOrder
    exact Int.not_lt.mp (of_decide_eq_false hOrder)
  · exact fun _ _ _ hBefore => hBefore

theorem build_sound {readSort : ReadSort K} {points : List (PointDefinition K)} {batchOptimize : Bool}
    (hBuild : build readSort points maxBatchRegisters batchOptimize = .ok tasks) :
    (tasks.flatMap definitions).Perm (points.filter readableForBuild) ∧ ∀ task ∈ tasks, task.Sound maxBatchRegisters := by
  rw [build] at hBuild
  split at hBuild
  · cases hBuild
  · obtain rfl := Except.ok.inj hBuild
    refine ⟨?_, batching_sound (readSort.sorted _)⟩
    rw [@Grouping.members_groups _ _ _ (batching maxBatchRegisters batchOptimize) definitions id (fun _ => rfl)
      definitions_addPoint, List.map_id]
    exact readSort.perm _

structure Splits (maxBatchRegisters : Int) (task : ReadTask K) (parts : List (ReadTask K)) : Prop where
  definitions : parts.flatMap definitions = task.definitions
  sound : ∀ part ∈ parts, part.Sound maxBatchRegisters

theorem splits_self (hSound : task.Sound maxBatchRegisters) : Splits maxBatchRegisters task [task] := by
  refine ⟨List.flatMap_singleton _ _, fun part hPart => ?_⟩
  obtain rfl := List.mem_singleton.mp hPart
  exact hSound

theorem splits_byPoint (hSound : task.Sound maxBatchRegisters) :
    Splits maxBatchRegisters task (splitReadTaskByPoint task) := by
  constructor
  · rw [splitReadTaskByPoint, List.flatMap_map, definitions]
    exact List.map_eq_flatMap.symm
  · intro part hPart
    obtain ⟨taskPoint, hPoint, rfl⟩ := List.mem_map.mp hPart
    exact sound_taskOf (hSound.fits taskPoint hPoint).function

structure Within (task part : ReadTask K) : Prop where
  tight : part.Tight
  function : part.function = task.function
  fits : part.Fits
  start_le : task.start ≤ part.start
  end_le : part.start + part.count ≤ task.start + task.count

theorem splitReadTask_within {collect : CollectConfig} (hFits : task.Fits) :
    ∀ part ∈ splitReadTask collect task, Within task part := by
  have hRange : ∀ taskPoint ∈ task.points, task.start ≤ taskPoint.definition.address ∧
      taskPoint.definition.address + taskPoint.definition.read.length ≤ task.start + task.count := by
    intro taskPoint hPoint
    obtain ⟨-, hOffset, hNonneg, hInside⟩ := hFits taskPoint hPoint
    omega
  refine @Grouping.groups_keep _ _ (splitting collect task.function) (Within task)
    (fun _ taskPoint => taskPoint ∈ task.points) (fun _ taskPoint => taskPoint ∈ task.points) ?_ ?_ ?_ task.points ?_ ?_
  · intro part taskPoint hWithin hPoint hJoins
    obtain ⟨-, hStart, -⟩ := of_decide_eq_true hJoins
    obtain ⟨hLow, hHigh⟩ := hRange taskPoint hPoint
    have hEnd := hWithin.end_le
    refine ⟨hWithin.tight.addPoint _, hWithin.function, hWithin.fits.addPoint ?_ hStart, hWithin.start_le, ?_⟩
    · rw [hWithin.function]
      exact (hFits taskPoint hPoint).function
    · have hJoin : (splitting collect task.function).join part taskPoint =
        ReadTaskPlanner.addPoint part taskPoint.definition := rfl
      rw [hJoin, ReadTaskPlanner.addPoint]
      dsimp only
      omega
  · exact fun _ _ hNext => hNext
  · exact fun _ _ _ hNext => hNext
  · intro taskPoint hPoint
    obtain ⟨hLow, hHigh⟩ := hRange taskPoint hPoint
    exact ⟨tight_taskOf _ _, rfl, fits_taskOf (hFits taskPoint hPoint).function, hLow, hHigh⟩
  · exact List.pairwise_of_forall_mem_list fun _ _ _ hPoint => hPoint

theorem splitReadTask_definitions (collect : CollectConfig) (task : ReadTask K) :
    (splitReadTask collect task).flatMap definitions = task.definitions :=
  @Grouping.members_groups _ _ _ (splitting collect task.function) definitions ReadTaskPoint.definition (fun _ => rfl)
    (fun part taskPoint => definitions_addPoint part taskPoint.definition) task.points

theorem splits_splitReadTask {collect : CollectConfig} (hSound : task.Sound maxBatchRegisters) :
    Splits maxBatchRegisters task (splitReadTask collect task) := by
  have hDefinitions := splitReadTask_definitions collect task
  refine ⟨hDefinitions, fun part hPart => ?_⟩
  have hWithin := splitReadTask_within hSound.fits part hPart
  refine ⟨hWithin.tight, hWithin.fits, ?_⟩
  have hFewer : part.points.length ≤ task.points.length := by
    have hSub : part.definitions.Sublist ((splitReadTask collect task).flatMap definitions) :=
      List.sublist_flatten_of_mem (List.mem_map_of_mem hPart)
    rw [hDefinitions] at hSub
    have hLength := hSub.length_le
    rwa [definitions, definitions, List.length_map, List.length_map] at hLength
  obtain ⟨first, hFirst, -⟩ := hWithin.tight.first
  have hSome := List.length_pos_of_mem hFirst
  obtain hSingle | hBatch := hSound.batch
  · exact .inl (by omega)
  · have hStart := hWithin.start_le
    have hEnd := hWithin.end_le
    exact .inr (by omega)

theorem splits_adaptiveSplit {collect : CollectConfig} (hSound : task.Sound maxBatchRegisters) :
    Splits maxBatchRegisters task (adaptiveSplit collect task) := by
  have hSplits := @splits_splitReadTask K maxBatchRegisters task collect hSound
  rw [adaptiveSplit]
  split
  · next front hFront =>
    rw [hFront] at hSplits
    split
    · exact splits_byPoint hSound
    · exact hSplits
  · exact hSplits

theorem splits_mixedPriority (hSound : task.Sound maxBatchRegisters) :
    Splits maxBatchRegisters task (splitMixedPriorityTask task) := by
  rw [splitMixedPriorityTask]
  split
  · exact splits_self hSound
  · exact splits_byPoint hSound

theorem splits_expandBackedOff {collect : CollectConfig} {state : CollectorState} {nowMs : Int} {realtimeFocused : Bool}
    (hSound : task.Sound maxBatchRegisters) :
    Splits maxBatchRegisters task (expandBackedOffTask collect state nowMs realtimeFocused task) := by
  rw [expandBackedOffTask]
  split
  · exact splits_self hSound
  split
  · exact splits_self hSound
  split
  · exact splits_self hSound
  dsimp only
  split
  · exact splits_self hSound
  · exact splits_adaptiveSplit hSound

/-- Splitting each task of a list keeps its points and its soundness. -/
theorem flatMap_splits {split : ReadTask K → List (ReadTask K)}
    (hSplit : ∀ task, task.Sound maxBatchRegisters → Splits maxBatchRegisters task (split task))
    (hSound : ∀ task ∈ tasks, task.Sound maxBatchRegisters) :
    (tasks.flatMap split).flatMap definitions = tasks.flatMap definitions ∧
      ∀ part ∈ tasks.flatMap split, part.Sound maxBatchRegisters := by
  constructor
  · rw [List.flatMap_assoc]
    exact List.flatMap_congr fun task hTask => (hSplit task (hSound task hTask)).definitions
  · intro part hPart
    obtain ⟨task, hTask, hPart⟩ := List.mem_flatMap.mp hPart
    exact (hSplit task (hSound task hTask)).sound part hPart

theorem plannedTasks_sound {collect : CollectConfig} {state : CollectorState} {nowMs : Int} {realtimeFocused : Bool}
    {readSort : ReadSort K} {points : List (PointDefinition K)}
    (hPlan : plannedTasks collect state nowMs realtimeFocused readSort points = .ok tasks) :
    (tasks.flatMap definitions).Perm (points.filter readableForBuild) ∧
      ∀ task ∈ tasks, task.Sound collect.maxBatchRegisters := by
  obtain ⟨built, hBuild, rfl⟩ := map_ok_iff.mp hPlan
  obtain ⟨hPerm, hSound⟩ := build_sound hBuild
  obtain ⟨hMixed, hMixedSound⟩ := flatMap_splits (fun task => splits_mixedPriority) hSound
  rw [expandBackedOffTasksBeforeBudget, splitMixedPriorityTasks]
  split
  · exact ⟨hMixed ▸ hPerm, hMixedSound⟩
  · obtain ⟨hExpanded, hExpandedSound⟩ :=
      flatMap_splits (fun task => @splits_expandBackedOff K _ task collect state nowMs realtimeFocused) hMixedSound
    refine ⟨?_, hExpandedSound⟩
    rw [hExpanded]
    exact hMixed ▸ hPerm

end EdgeGateway.Modbus
