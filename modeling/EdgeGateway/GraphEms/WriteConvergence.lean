import EdgeGateway.GraphEms.ControlWrite

/-! # What the queue leaves at a target -/

namespace EdgeGateway.GraphEms

open Numerals QuotedText Rounding EdgeGateway.Fallible

section Queue

variable {K : Type}

def lastQueued (pendingWrites : List (WriteCommand K)) (target : UInt32) : Option (Reading K) :=
  ((pendingWrites.filter fun pending => pending.index = target).getLast?).map WriteCommand.value

theorem lastQueued_append (before sent : List (WriteCommand K)) (target : UInt32) :
    lastQueued (before ++ sent) target = (lastQueued sent target).or (lastQueued before target) := by
  rw [lastQueued, lastQueued, lastQueued, List.filter_append, List.getLast?_append]
  cases (sent.filter fun pending => pending.index = target).getLast? with
  | none => rfl
  | some last => rfl

theorem lastQueued_singleton (command : WriteCommand K) (target : UInt32) :
    lastQueued [command] target = if command.index = target then some command.value else none := by
  rw [lastQueued, List.filter_singleton]
  by_cases h : command.index = target
  · rw [if_pos h, decide_eq_true h]
    rfl
  · rw [if_neg h, decide_eq_false h]
    rfl

theorem not_mem_of_lastQueued {pendingWrites : List (WriteCommand K)} {target : UInt32}
    (h : lastQueued pendingWrites target = none) : ∀ pending ∈ pendingWrites, pending.index ≠ target := by
  rw [lastQueued, Option.map_eq_none_iff, List.getLast?_eq_none_iff, List.filter_eq_nil_iff] at h
  intro pending hMem hIndex
  exact h pending hMem (decide_eq_true hIndex)

variable [Field K] [LinearOrder K]

def Converges (pendingWrites : List (WriteCommand K)) (target : UInt32) (current : Option (Reading K))
    (tolerance value : K) : Prop :=
  ((lastQueued pendingWrites target).or current).any (Reading.within tolerance value) = true

def EndsWith (pendingWrites : List (WriteCommand K)) (target : UInt32) (tolerance value : K) : Prop :=
  (lastQueued pendingWrites target).all (Reading.within tolerance value) = true

end Queue

section Counters

variable {K : Type}

structure Counted (state after : WriteState K) : Prop where
  skipped : state.deviceWritesSkipped ≤ after.deviceWritesSkipped
  numbered : state.commandSequence + after.deviceWrites ≤ after.commandSequence + state.deviceWrites

theorem Counted.refl (state : WriteState K) : Counted state state := ⟨le_rfl, le_rfl⟩

theorem Counted.trans {first second third : WriteState K} (h : Counted first second) (hNext : Counted second third) :
    Counted first third := by
  obtain ⟨hSkipped, hNumbered⟩ := h
  obtain ⟨hSkippedNext, hNumberedNext⟩ := hNext
  exact ⟨hSkipped.trans hSkippedNext, by omega⟩

theorem Unrefused.split {first second third : WriteState K} (h : Unrefused first third) (hFirst : Counted first second)
    (hNext : Counted second third) : Unrefused first second ∧ Unrefused second third := by
  obtain ⟨hSkipped, hNumbered⟩ := hFirst
  obtain ⟨hSkippedNext, hNumberedNext⟩ := hNext
  obtain ⟨hNone, hAll⟩ := h
  refine ⟨⟨?_, ?_⟩, ?_, ?_⟩ <;> omega

theorem submitDeviceWrite_counted (scan : WriteScan K) (command : WriteCommand K) (state : WriteState K) :
    Counted state (submitDeviceWrite scan command state).2 := by
  obtain ⟨-, h⟩ | ⟨message, h⟩ | h := submitDeviceWrite_cases scan command state
  · rw [h]
    exact ⟨Nat.le_succ _, le_rfl⟩
  · rw [h]
    exact ⟨le_rfl, by dsimp only; omega⟩
  · rw [h]
    exact ⟨le_rfl, by dsimp only; omega⟩

theorem submitDeviceWrite_of_unrefused {scan : WriteScan K} {command : WriteCommand K} {state : WriteState K}
    (hUnrefused : Unrefused state (submitDeviceWrite scan command state).2) :
    (submitDeviceWrite scan command state).2.pendingWrites = state.pendingWrites ++ [command.numbered scan state] := by
  obtain ⟨hNone, hAll⟩ := hUnrefused
  obtain ⟨-, h⟩ | ⟨message, h⟩ | h := submitDeviceWrite_cases scan command state
  · rw [h] at hNone
    dsimp only at hNone
    omega
  · rw [h] at hAll
    dsimp only at hAll
    omega
  · rw [h]

end Counters

section ControlWrite

variable {K : Type} [Field K] [LinearOrder K] [IsStrictOrderedRing K]

theorem Reading.within_self {tolerance : K} (h : 0 ≤ tolerance) (value : K) :
    (Reading.finite value).within tolerance value = true := by
  rw [within_iff]
  refine ⟨value, rfl, ?_⟩
  rw [sub_self, abs_zero]
  exact h

theorem ControlWrite.duplicateTolerance_pos (node : ControlWrite K) : 0 < node.duplicateTolerance :=
  lt_max_of_lt_right (by positivity)

variable [FloorRing K]

omit [IsStrictOrderedRing K] [FloorRing K] in
theorem ControlWrite.converges_of_suppressed_iff (node : ControlWrite K) {points : UInt32 → Option (StoredPoint K)}
    {pendingWrites : List (WriteCommand K)} {value : K} (h : node.suppressed points pendingWrites value = true) :
    Converges pendingWrites node.targetIndex (latestValue points node.targetIndex) node.duplicateTolerance value ↔
      EndsWith pendingWrites node.targetIndex node.duplicateTolerance value := by
  rw [Converges, EndsWith]
  cases hLast : lastQueued pendingWrites node.targetIndex with
  | some reading => rfl
  | none =>
    refine iff_of_true ?_ rfl
    obtain hCurrent | hPending := (Bool.or_eq_true _ _).mp h
    · obtain ⟨reading, hReading, hNear⟩ := Option.any_eq_true _ _ |>.mp hCurrent
      rw [Option.none_or, hReading]
      exact Reading.within_mono (le_max_left _ _) hNear
    · obtain ⟨pending, hMem, hEqual⟩ := List.any_eq_true.mp hPending
      rw [Bool.and_eq_true, beq_iff_eq] at hEqual
      exact absurd hEqual.1 (not_mem_of_lastQueued hLast pending hMem)

theorem ControlWrite.converges_iff (node : ControlWrite K) {scan : WriteScan K} {state : WriteState K} {input : K}
    (hReady : node.Ready scan.points input) (hUnrefused : Unrefused state (runControlWrite node scan state).2) :
    Converges (runControlWrite node scan state).2.pendingWrites node.targetIndex
        (latestValue scan.points node.targetIndex) node.duplicateTolerance (node.valueMode.apply input) ↔
      node.suppressed scan.points state.pendingWrites (node.valueMode.apply input) = false ∨
        EndsWith state.pendingWrites node.targetIndex node.duplicateTolerance (node.valueMode.apply input) := by
  rw [runControlWrite_of_ready hReady] at hUnrefused ⊢
  cases hSuppressed : node.suppressed scan.points state.pendingWrites (node.valueMode.apply input) with
  | true =>
    rw [if_pos rfl, node.converges_of_suppressed_iff hSuppressed]
    exact (or_iff_right (by decide)).symm
  | false =>
    rw [hSuppressed, if_neg Bool.false_ne_true, reported_state] at hUnrefused
    rw [if_neg Bool.false_ne_true, reported_state, submitDeviceWrite_of_unrefused hUnrefused]
    refine iff_of_true ?_ (.inl rfl)
    have hIndex : ((node.command scan.nowMs (node.valueMode.apply input)).numbered scan state).index =
      node.targetIndex := rfl
    rw [Converges, lastQueued_append, lastQueued_singleton, if_pos hIndex]
    exact Reading.within_self node.duplicateTolerance_pos.le _

end ControlWrite

section Pcs

variable {K : Type} [Field K] [LinearOrder K]

structure PcsCommandTarget where
  inputIndex : UInt32
  outputIndex : UInt32
deriving DecidableEq

structure PcsWriteback (K : Type) where
  comStatusIndex : UInt32
  permitIndex : UInt32
  permitValue : K
  permitTolerance : K
  commands : List PcsCommandTarget
deriving DecidableEq

def pcsCommands : List ((String × UInt32) × String × UInt32) :=
  [(("paInput", 627), ("pControlAIndex", 1318)), (("pbInput", 628), ("pControlBIndex", 1319)),
    (("pcInput", 629), ("pControlCIndex", 1320)), (("qaInput", 630), ("qControlAIndex", 1321)),
    (("qbInput", 631), ("qControlBIndex", 1322)), (("qcInput", 632), ("qControlCIndex", 1323))]

def pcsCommand (params : Params) (entry : (String × UInt32) × String × UInt32) : Fallible PcsCommandTarget := do
  return ⟨← paramIndex params entry.1.1.toList entry.1.2, ← paramIndex params entry.2.1.toList entry.2.2⟩

def PcsWriteback.ofParams (params : Params) : Fallible (PcsWriteback K) := do
  let comStatusIndex ← paramIndex params "comStatusIndex".toList 1399
  let permitIndex ← paramIndex params "permitIndex".toList 0
  let permitValue ← exactOr params "permitValue" 1
  let permitTolerance ← exactOr params "permitTolerance" (1 / 10 ^ 9)
  let commands ← pcsCommands.mapM (pcsCommand params)
  return ⟨comStatusIndex, permitIndex, permitValue, |permitTolerance|, commands⟩

def exceeds (tolerance target : K) : Reading K → Bool
  | .finite value => decide (tolerance < |value - target|)
  | .infinite => true
  | .nan => false

def PcsWriteback.permits (node : PcsWriteback K) (points : UInt32 → Option (StoredPoint K)) : Bool :=
  decide (latestValue points node.comStatusIndex = some (.finite 1)) &&
    (node.permitIndex == 0 ||
      (latestValue points node.permitIndex).any fun permit => !exceeds node.permitTolerance node.permitValue permit)

/-- A set-point is at its target; one that is missing counts as zero, except for the solver. -/
def reached (submitMissingZeroTargets : Bool) (currentValue : Option (Reading K)) (targetValue : Int) : Bool :=
  let current := currentValue.getD (.finite 0)
  if targetValue = 0 then (currentValue.isSome || !submitMissingZeroTargets) && decide (current = .finite 0)
  else current.within (1 / 2) (targetValue : K) && currentValue.isSome

variable [FloorRing K] (beyond : Reading K → Int)

/-- `static_cast<int>`; what it makes of a number beyond `int` is left to the platform. -/
def castInt : Reading K → Int
  | .finite value => if -2 ^ 31 ≤ towardZero value ∧ towardZero value < 2 ^ 31 then towardZero value else beyond (.finite value)
  | other => beyond other

namespace PcsCommandTarget

variable (command : PcsCommandTarget) (submitMissingZeroTargets : Bool) (points : UInt32 → Option (StoredPoint K))
  (pendingWrites : List (WriteCommand K))

def target : Option Int := (latestValue points command.inputIndex).map (castInt beyond)

def withheld (targetValue : Int) : Bool :=
  reached submitMissingZeroTargets (latestValue points command.outputIndex) targetValue ||
    pendingWrites.any fun pending =>
      pending.index == command.outputIndex && pending.value.within (1 / 2) (targetValue : K)

/-- The value that goes to the router. -/
def sends : Option Int :=
  (command.target beyond points).filter fun targetValue =>
    !command.withheld submitMissingZeroTargets points pendingWrites targetValue

def write (nowMs : Int) (targetValue : Int) : WriteCommand K :=
  ⟨[], command.outputIndex, .finite (targetValue : K), "graph-ems".toList, nowMs, false⟩

end PcsCommandTarget

variable (submitMissingZeroTargets : Bool) (scan : WriteScan K) (pendingWrites : List (WriteCommand K))

/-- The queue is read once, before the first set-point; a rejected one is passed over. -/
def submitPcsCommands : List PcsCommandTarget → Bool × WriteState K → Bool × WriteState K
  | [], result => result
  | command :: rest, (submitted, state) =>
    match command.sends beyond submitMissingZeroTargets scan.points pendingWrites with
    | none => submitPcsCommands rest (submitted, state)
    | some targetValue =>
      let routed := submitDeviceWrite scan (command.write scan.nowMs targetValue) state
      submitPcsCommands rest (submitted || routed.1.isNone, routed.2)

def submitPcsWritebackCommands (node : PcsWriteback K) (state : WriteState K) : Bool × WriteState K :=
  if node.permits scan.points then
    submitPcsCommands beyond submitMissingZeroTargets scan state.pendingWrites node.commands (false, state)
  else (false, state)

def lastSent (commands : List PcsCommandTarget) (outputIndex : UInt32) : Option Int :=
  ((commands.filter fun command => command.outputIndex = outputIndex).filterMap fun command =>
    command.sends beyond submitMissingZeroTargets scan.points pendingWrites).getLast?

def Settles (commands : List PcsCommandTarget) (outputIndex : UInt32) (targetValue : Int) : Prop :=
  match lastSent beyond submitMissingZeroTargets scan pendingWrites commands outputIndex with
  | some last => last = targetValue
  | none => EndsWith pendingWrites outputIndex (1 / 2) (targetValue : K)

variable {beyond submitMissingZeroTargets scan pendingWrites}

theorem lastSent_cons (command : PcsCommandTarget) (rest : List PcsCommandTarget) (outputIndex : UInt32) :
    lastSent beyond submitMissingZeroTargets scan pendingWrites (command :: rest) outputIndex =
      (lastSent beyond submitMissingZeroTargets scan pendingWrites rest outputIndex).or
        (if command.outputIndex = outputIndex then
          command.sends beyond submitMissingZeroTargets scan.points pendingWrites else none) := by
  rw [lastSent, lastSent, List.filter_cons]
  by_cases hOutput : command.outputIndex = outputIndex
  · rw [if_pos (decide_eq_true hOutput), if_pos hOutput, List.filterMap_cons]
    cases command.sends beyond submitMissingZeroTargets scan.points pendingWrites with
    | none => rw [Option.or_none]
    | some value =>
      dsimp only
      rw [List.getLast?_cons]
      cases ((rest.filter fun command => command.outputIndex = outputIndex).filterMap fun command =>
        command.sends beyond submitMissingZeroTargets scan.points pendingWrites).getLast? with
      | none => rfl
      | some last => rfl
  · rw [if_neg (by simpa using hOutput), if_neg hOutput, Option.or_none]

theorem sends_of_lastSent {commands : List PcsCommandTarget} {command : PcsCommandTarget} (hMem : command ∈ commands)
    (h : lastSent beyond submitMissingZeroTargets scan pendingWrites commands command.outputIndex = none) :
    command.sends beyond submitMissingZeroTargets scan.points pendingWrites = none := by
  rw [lastSent, List.getLast?_eq_none_iff, List.filterMap_eq_nil_iff] at h
  exact h command (List.mem_filter.mpr ⟨hMem, decide_eq_true rfl⟩)

theorem submitPcsCommands_counted (commands : List PcsCommandTarget) (submitted : Bool) (state : WriteState K) :
    Counted state (submitPcsCommands beyond submitMissingZeroTargets scan pendingWrites commands (submitted, state)).2 := by
  induction commands generalizing submitted state with
  | nil => exact Counted.refl state
  | cons command rest ih =>
    rw [submitPcsCommands]
    cases command.sends beyond submitMissingZeroTargets scan.points pendingWrites with
    | none => exact ih submitted state
    | some value => exact (submitDeviceWrite_counted scan (command.write scan.nowMs value) state).trans (ih _ _)

/-- Over the queue lie the set-points that were sent. -/
theorem lastQueued_submitPcsCommands (commands : List PcsCommandTarget) (submitted : Bool) (state : WriteState K)
    (hUnrefused : Unrefused state
      (submitPcsCommands beyond submitMissingZeroTargets scan pendingWrites commands (submitted, state)).2)
    (outputIndex : UInt32) :
    lastQueued (submitPcsCommands beyond submitMissingZeroTargets scan pendingWrites commands
        (submitted, state)).2.pendingWrites outputIndex =
      ((lastSent beyond submitMissingZeroTargets scan pendingWrites commands outputIndex).map
        fun value : Int => Reading.finite (value : K)).or (lastQueued state.pendingWrites outputIndex) := by
  induction commands generalizing submitted state with
  | nil => rfl
  | cons command rest ih =>
    rw [submitPcsCommands] at hUnrefused ⊢
    rw [lastSent_cons]
    cases hSends : command.sends beyond submitMissingZeroTargets scan.points pendingWrites with
    | none =>
      rw [hSends] at hUnrefused
      rw [ite_self, Option.or_none]
      exact ih submitted state hUnrefused
    | some value =>
      rw [hSends] at hUnrefused
      obtain ⟨hFirst, hRest⟩ := hUnrefused.split
        (submitDeviceWrite_counted scan (command.write scan.nowMs value) state) (submitPcsCommands_counted rest _ _)
      dsimp only
      rw [ih _ _ hRest, submitDeviceWrite_of_unrefused hFirst, lastQueued_append, lastQueued_singleton]
      have hIndex : ((command.write scan.nowMs value).numbered scan state).index = command.outputIndex := rfl
      rw [hIndex]
      by_cases hOutput : command.outputIndex = outputIndex
      · rw [if_pos hOutput, if_pos hOutput]
        cases lastSent beyond submitMissingZeroTargets scan pendingWrites rest outputIndex with
        | none => rfl
        | some last => rfl
      · rw [if_neg hOutput, if_neg hOutput, Option.or_none, Option.none_or]

variable [IsStrictOrderedRing K]

omit [FloorRing K] in
theorem within_half_iff {last targetValue : Int} :
    (Reading.finite (last : K)).within (1 / 2) (targetValue : K) = true ↔ last = targetValue := by
  rw [Reading.within, decide_eq_true_iff]
  constructor
  · intro h
    have hInt : |last - targetValue| < 1 := by
      have hHalf : |((last - targetValue : Int) : K)| < 1 := by
        push_cast
        exact h.trans_lt one_half_lt_one
      exact_mod_cast hHalf
    exact sub_eq_zero.mp (Int.abs_lt_one_iff.mp hInt)
  · rintro rfl
    rw [sub_self, abs_zero]
    exact one_half_pos.le

omit [FloorRing K] in
theorem within_of_reached {currentValue : Option (Reading K)} {targetValue : Int}
    (h : reached submitMissingZeroTargets currentValue targetValue = true) :
    (currentValue.getD (.finite 0)).within (1 / 2) (targetValue : K) = true := by
  rw [reached] at h
  split at h
  · rename_i hZero
    obtain rfl := hZero
    rw [Bool.and_eq_true, decide_eq_true_iff] at h
    rw [h.2, Int.cast_zero]
    exact Reading.within_self one_half_pos.le 0
  · rw [Bool.and_eq_true] at h
    exact h.1

/-- A set-point that is withheld while nothing is queued for its output is there already. -/
theorem within_of_withheld {command : PcsCommandTarget} {targetValue : Int}
    (hTarget : command.target beyond scan.points = some targetValue)
    (hSends : command.sends beyond submitMissingZeroTargets scan.points pendingWrites = none)
    (hQueue : lastQueued pendingWrites command.outputIndex = none) :
    ((latestValue scan.points command.outputIndex).getD (.finite 0)).within (1 / 2) (targetValue : K) = true := by
  rw [PcsCommandTarget.sends, hTarget, Option.filter_some, ite_eq_right_iff] at hSends
  have hWithheld : command.withheld submitMissingZeroTargets scan.points pendingWrites targetValue = true := by
    by_contra hFree
    exact absurd (hSends (by simpa using hFree)) (Option.some_ne_none _)
  obtain hReached | hPending := (Bool.or_eq_true _ _).mp hWithheld
  · exact within_of_reached hReached
  · obtain ⟨pending, hMem, hEqual⟩ := List.any_eq_true.mp hPending
    rw [Bool.and_eq_true, beq_iff_eq] at hEqual
    exact absurd hEqual.1 (not_mem_of_lastQueued hQueue pending hMem)

theorem PcsWriteback.converges_iff {node : PcsWriteback K} {state : WriteState K} (hPermits : node.permits scan.points = true)
    (hUnrefused : Unrefused state (submitPcsWritebackCommands beyond submitMissingZeroTargets scan node state).2)
    {command : PcsCommandTarget} (hMem : command ∈ node.commands) {targetValue : Int}
    (hTarget : command.target beyond scan.points = some targetValue) :
    Converges (submitPcsWritebackCommands beyond submitMissingZeroTargets scan node state).2.pendingWrites
        command.outputIndex (some ((latestValue scan.points command.outputIndex).getD (.finite 0))) (1 / 2)
        (targetValue : K) ↔
      Settles beyond submitMissingZeroTargets scan state.pendingWrites node.commands command.outputIndex targetValue := by
  rw [submitPcsWritebackCommands, if_pos hPermits] at hUnrefused ⊢
  rw [Converges, lastQueued_submitPcsCommands _ _ _ hUnrefused, Settles]
  cases hLast : lastSent beyond submitMissingZeroTargets scan state.pendingWrites node.commands command.outputIndex with
  | some last => exact within_half_iff
  | none =>
    rw [Option.map_none, Option.none_or]
    dsimp only
    rw [EndsWith]
    cases hQueue : lastQueued state.pendingWrites command.outputIndex with
    | some reading => rfl
    | none => exact iff_of_true (within_of_withheld hTarget (sends_of_lastSent hMem hLast) hQueue) rfl

end Pcs

section Convergence

variable {K : Type} [Field K] [LinearOrder K] [IsStrictOrderedRing K] [FloorRing K]

/-- What a target is left with after a run in which no write was refused. -/
theorem writes_converge_iff :
    (∀ (node : ControlWrite K) (scan : WriteScan K) (state : WriteState K) (input : K), node.Ready scan.points input →
      Unrefused state (runControlWrite node scan state).2 →
      (Converges (runControlWrite node scan state).2.pendingWrites node.targetIndex
          (latestValue scan.points node.targetIndex) node.duplicateTolerance (node.valueMode.apply input) ↔
        node.suppressed scan.points state.pendingWrites (node.valueMode.apply input) = false ∨
          EndsWith state.pendingWrites node.targetIndex node.duplicateTolerance (node.valueMode.apply input))) ∧
    (∀ (beyond : Reading K → Int) (submitMissingZeroTargets : Bool) (node : PcsWriteback K) (scan : WriteScan K)
      (state : WriteState K), node.permits scan.points = true →
      Unrefused state (submitPcsWritebackCommands beyond submitMissingZeroTargets scan node state).2 →
      ∀ command ∈ node.commands, ∀ targetValue, command.target beyond scan.points = some targetValue →
        (Converges (submitPcsWritebackCommands beyond submitMissingZeroTargets scan node state).2.pendingWrites
            command.outputIndex (some ((latestValue scan.points command.outputIndex).getD (.finite 0))) (1 / 2)
            (targetValue : K) ↔
          Settles beyond submitMissingZeroTargets scan state.pendingWrites node.commands command.outputIndex
            targetValue)) := by
  constructor
  · intro node scan state input hReady hUnrefused
    exact node.converges_iff hReady hUnrefused
  · intro beyond submitMissingZeroTargets node scan state hPermits hUnrefused command hMem targetValue hTarget
    exact PcsWriteback.converges_iff hPermits hUnrefused hMem hTarget

def powerNode : ControlWrite ℚ where
  submitWrites := true
  permitIndex := 0
  permitValue := 1
  permitTolerance := 1 / 10 ^ 9
  inputIndex := 1
  minValue := -100
  maxValue := 100
  valueMode := .none
  targetIndex := 2
  deadband := 0
  highPriority := false

theorem idle_write_converges :
    Converges (runControlWrite powerNode (powerNode.scanFor 10) idleState).2.pendingWrites powerNode.targetIndex
      (latestValue (powerNode.scanFor 10).points powerNode.targetIndex) powerNode.duplicateTolerance
      (powerNode.valueMode.apply 10) := by
  have hReady : powerNode.Ready (powerNode.scanFor 10).points 10 :=
    ⟨rfl, by decide +kernel, by decide +kernel, by decide +kernel, by decide +kernel⟩
  have hUnrefused : Unrefused idleState (runControlWrite powerNode (powerNode.scanFor 10) idleState).2 := by
    rw [runControlWrite_of_ready hReady]
    exact ⟨by decide +kernel, by decide +kernel⟩
  exact ((writes_converge_iff (K := ℚ)).1 _ _ idleState 10 hReady hUnrefused).mpr (.inl (by decide +kernel))

def queuedWrite (value : ℚ) : WriteCommand ℚ := ⟨"GRAPH_EMS".toList, 2, .finite value, "graph-ems".toList, 1, false⟩

def swingingState : WriteState ℚ := ⟨[queuedWrite 10, queuedWrite 5], 2, 0, 0, false⟩

/-- The value 10 is wanted and waits in the queue, but 5 is queued behind it. -/
theorem older_command_suppresses : powerNode.Ready (powerNode.scanFor 10).points 10 ∧
    Unrefused swingingState (runControlWrite powerNode (powerNode.scanFor 10) swingingState).2 ∧
    ¬Converges (runControlWrite powerNode (powerNode.scanFor 10) swingingState).2.pendingWrites powerNode.targetIndex
      (latestValue (powerNode.scanFor 10).points powerNode.targetIndex) powerNode.duplicateTolerance
      (powerNode.valueMode.apply 10) := by
  have hReady : powerNode.Ready (powerNode.scanFor 10).points 10 :=
    ⟨rfl, by decide +kernel, by decide +kernel, by decide +kernel, by decide +kernel⟩
  have hSuppressed : powerNode.suppressed (powerNode.scanFor 10).points swingingState.pendingWrites
      (powerNode.valueMode.apply 10) = true := by decide +kernel
  have hRun := runControlWrite_of_ready hReady swingingState
  rw [if_pos hSuppressed] at hRun
  rw [hRun]
  refine ⟨hReady, ⟨rfl, rfl⟩, ?_⟩
  rw [Converges]
  decide +kernel

end Convergence

end EdgeGateway.GraphEms
