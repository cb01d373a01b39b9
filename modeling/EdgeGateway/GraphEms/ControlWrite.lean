import EdgeGateway.Foundation.Rounding
import EdgeGateway.Foundation.Run
import EdgeGateway.GraphEms.Operands
import Mathlib.Data.Nat.Digits.Defs
import Mathlib.Data.Rat.Floor

/-! # Writing to devices

A control write sends a point's value to a device while a permit holds. The queue of
the router is read before each write: what waits there already is not sent again.
-/

namespace EdgeGateway.GraphEms

open Numerals QuotedText Rounding EdgeGateway.Fallible

def base36Digit (digit : Nat) : Char := if digit < 10 then Char.ofNat (48 + digit) else Char.ofNat (87 + digit)

def base36 (value : Nat) : StdString :=
  if value = 0 then ['0'] else ((Nat.digits 36 value).map base36Digit).reverse

def commandTokenHash (value : StdString) : UInt32 :=
  value.foldl (fun hash c => (hash ^^^ UInt32.ofNat (c.toNat % 256)) * 16777619) 2166136261

def commandToken (value : StdString) : StdString :=
  (if value = [] then "unknown".toList else value).map fun c =>
    if c.isAlphanum || c == '_' || c == '-' then c else '_'

def hex32 (value : UInt32) : StdString :=
  (List.range 8).map fun i => (value.toNat / 16 ^ (7 - i) % 16).digitChar

def graphCmdId (ruleCode nodeId : StdString) (index : UInt32) (nowMs : Int) (sequence : Nat) : StdString :=
  let identityHash := hex32 (commandTokenHash (ruleCode ++ Char.ofNat 31 :: nodeId))
  let suffix := '_' :: identityHash ++ '_' :: base36 index.toNat ++ '_' :: base36 nowMs.toNat ++ '_' :: base36 sequence
  let prefixText := "GRAPH_EMS_".toList
  let fixedLength := prefixText.length + 1 + suffix.length
  let tokenBudget := if fixedLength < 63 then 63 - fixedLength else 2
  let ruleLength := max 1 ((tokenBudget + 1) / 2)
  let nodeLength := max 1 (tokenBudget - min tokenBudget ruleLength)
  prefixText ++ (commandToken ruleCode).take ruleLength ++ '_' :: (commandToken nodeId).take nodeLength ++ suffix

section Readings

variable {K : Type}

inductive Reading (K : Type) where
  | finite (value : K)
  | infinite
  | nan
deriving DecidableEq

structure StoredPoint (K : Type) where
  value : Reading K
  quality : Int
  stale : Bool
deriving DecidableEq

def latestValue (points : UInt32 → Option (StoredPoint K)) (index : UInt32) : Option (Reading K) :=
  (points index).bind fun point => if point.quality = 1 ∧ point.stale = false then some point.value else none

theorem latestValue_some {points : UInt32 → Option (StoredPoint K)} {index : UInt32} {reading : Reading K} :
    latestValue points index = some reading ↔ points index = some ⟨reading, 1, false⟩ := by
  rw [latestValue]
  constructor
  · intro h
    obtain ⟨⟨value, quality, stale⟩, hPoint, hGood⟩ := Option.bind_eq_some_iff.mp h
    split at hGood
    · rename_i hQuality
      obtain ⟨rfl, rfl⟩ := hQuality
      obtain rfl := Option.some.inj hGood
      exact hPoint
    · cases hGood
  · intro h
    rw [h]
    rfl

variable [Field K] [LinearOrder K]

/-- The test `fabs(reading - target) <= tolerance`. -/
def Reading.within (tolerance target : K) : Reading K → Bool
  | .finite value => decide (|value - target| ≤ tolerance)
  | _ => false

theorem Reading.within_iff {tolerance target : K} {reading : Reading K} :
    reading.within tolerance target = true ↔ ∃ value, reading = .finite value ∧ |value - target| ≤ tolerance := by
  cases reading with
  | finite value =>
    rw [within, decide_eq_true_iff]
    constructor
    · intro h
      exact ⟨value, rfl, h⟩
    · rintro ⟨_, hValue, h⟩
      obtain rfl := Reading.finite.inj hValue
      exact h
  | infinite => simp [within]
  | nan => simp [within]

theorem Reading.within_mono {small large target : K} (hLe : small ≤ large) {reading : Reading K}
    (h : reading.within small target = true) : reading.within large target = true := by
  obtain ⟨value, rfl, hNear⟩ := within_iff.mp h
  exact within_iff.mpr ⟨value, rfl, hNear.trans hLe⟩

def exactValue (bits : RawDouble) : K := (signedUnits bits : K) / 2 ^ 1074

theorem exactValue_le [IsStrictOrderedRing K] {a b : RawDouble} (h : lessEq a b = true) :
    (exactValue a : K) ≤ exactValue b := by
  rw [lessEq, Bool.and_eq_true, decide_eq_true_iff] at h
  have hUnits : (signedUnits a : K) ≤ signedUnits b := Int.cast_le.mpr h.2
  exact div_le_div_of_nonneg_right hUnits (by positivity)

omit [LinearOrder K] in
theorem exactValue_zero : (exactValue 0 : K) = 0 := by
  have hUnits : signedUnits 0 = 0 := by decide
  rw [exactValue, hUnits, Int.cast_zero, zero_div]

end Readings

section Submission

variable {K : Type}

structure WriteCommand (K : Type) where
  cmdId : StdString
  index : UInt32
  value : Reading K
  source : StdString
  ts : Int
  highPriority : Bool
deriving DecidableEq

/-- The queue of the router and the counters of the engine and of its run. -/
structure WriteState (K : Type) where
  pendingWrites : List (WriteCommand K)
  commandSequence : Nat
  deviceWrites : Nat
  deviceWritesSkipped : Nat
  writeLimitReached : Bool

/-- What a node meets when it runs; the router accepts a command or rejects it with a message. -/
structure WriteScan (K : Type) where
  ruleCode : StdString
  nodeId : StdString
  points : UInt32 → Option (StoredPoint K)
  nowMs : Int
  maxDeviceWritesThisRun : Nat
  rejection : WriteCommand K → Option StdString

def WriteCommand.numbered (scan : WriteScan K) (state : WriteState K) (command : WriteCommand K) : WriteCommand K :=
  { command with cmdId := graphCmdId scan.ruleCode scan.nodeId command.index command.ts (state.commandSequence + 1) }

def budgetReached : StdString := "maxWritesPerScan reached before submit".toList

def submitDeviceWrite (scan : WriteScan K) (command : WriteCommand K) (state : WriteState K) :
    Option StdString × WriteState K :=
  if scan.maxDeviceWritesThisRun ≤ state.deviceWrites then
    (some budgetReached, { state with
      deviceWritesSkipped := state.deviceWritesSkipped + 1
      writeLimitReached := true })
  else
    let command := command.numbered scan state
    match scan.rejection command with
    | some message => (some message, { state with commandSequence := state.commandSequence + 1 })
    | none => (none, { state with
        commandSequence := state.commandSequence + 1
        deviceWrites := state.deviceWrites + 1
        pendingWrites := state.pendingWrites ++ [command] })

theorem submitDeviceWrite_cases (scan : WriteScan K) (command : WriteCommand K) (state : WriteState K) :
    (scan.maxDeviceWritesThisRun ≤ state.deviceWrites ∧ submitDeviceWrite scan command state =
      (some budgetReached, { state with
        deviceWritesSkipped := state.deviceWritesSkipped + 1
        writeLimitReached := true })) ∨
    (∃ message, submitDeviceWrite scan command state =
      (some message, { state with commandSequence := state.commandSequence + 1 })) ∨
    (submitDeviceWrite scan command state = (none, { state with
      commandSequence := state.commandSequence + 1
      deviceWrites := state.deviceWrites + 1
      pendingWrites := state.pendingWrites ++ [command.numbered scan state] })) := by
  rw [submitDeviceWrite]
  split
  · rename_i hBudget
    exact .inl ⟨hBudget, rfl⟩
  · dsimp only
    split
    · rename_i message hRejected
      exact .inr (.inl ⟨message, rfl⟩)
    · exact .inr (.inr rfl)

/-- Every write went through: none met the budget, and each id that was drawn is of a counted write. -/
def Unrefused (state after : WriteState K) : Prop :=
  after.deviceWritesSkipped = state.deviceWritesSkipped ∧
    after.commandSequence + state.deviceWrites = state.commandSequence + after.deviceWrites

end Submission

section Node

variable {K : Type} [Field K]

inductive ValueMode where
  | none
  | truncate
  | round
deriving DecidableEq, Repr

structure ControlWrite (K : Type) where
  submitWrites : Bool
  permitIndex : UInt32
  permitValue : K
  permitTolerance : K
  inputIndex : UInt32
  minValue : K
  maxValue : K
  valueMode : ValueMode
  targetIndex : UInt32
  deadband : K
  highPriority : Bool
deriving DecidableEq

def ValueMode.ofParams (params : Params) : ValueMode :=
  let valueMode := ((params.find "valueMode".toList).map normalizedToken).getD "none".toList
  if valueMode = "truncate".toList then .truncate else if valueMode = "round".toList then .round else .none

def exactOr (params : Params) (key : String) (defaultValue : K) : Fallible K := do
  return ((← paramDouble params key.toList).map exactValue).getD defaultValue

def ControlWrite.ofParams (params : Params) : Fallible (ControlWrite K) := do
  let permitIndex ← paramIndex params "permitIndex".toList 0
  let permitValue ← exactOr params "permitValue" 1
  let permitTolerance ← exactOr params "permitTolerance" (1 / 10 ^ 9)
  let inputIndex ← paramIndex params "inputIndex".toList 0
  let minValue ← exactOr params "minValue" 0
  let maxValue ← exactOr params "maxValue" 0
  let targetIndex ← paramIndex params "targetIndex".toList 0
  let deadband ← exactOr params "deadband" 0
  return {
    submitWrites := paramBool params "submitWrites".toList false
    permitIndex, permitValue, permitTolerance, inputIndex, minValue, maxValue
    valueMode := ValueMode.ofParams params
    targetIndex, deadband
    highPriority := paramBool params "highPriority".toList false }

variable [LinearOrder K] [FloorRing K]

def ValueMode.apply (mode : ValueMode) (value : K) : K :=
  match mode with
  | .none => value
  | .truncate => (towardZero value : K)
  | .round => (roundAway value : K)

theorem ValueMode.apply_mono [IsStrictOrderedRing K] (mode : ValueMode) {x y : K} (h : x ≤ y) :
    mode.apply x ≤ mode.apply y := by
  cases mode with
  | none => exact h
  | truncate => exact Int.cast_le.mpr (towardZero_mono h)
  | round => exact Int.cast_le.mpr (roundAway_mono h)

namespace ControlWrite

variable (node : ControlWrite K)

def permits (points : UInt32 → Option (StoredPoint K)) : Bool :=
  node.permitIndex == 0 ||
    (latestValue points node.permitIndex).any (Reading.within node.permitTolerance node.permitValue)

def duplicateTolerance : K := max node.deadband (1 / 10 ^ 9)

/-- The device has the value, or a command with it waits. -/
def suppressed (points : UInt32 → Option (StoredPoint K)) (pendingWrites : List (WriteCommand K)) (commandValue : K) :
    Bool :=
  (latestValue points node.targetIndex).any (Reading.within node.deadband commandValue) ||
    pendingWrites.any fun pending =>
      pending.index == node.targetIndex && pending.value.within node.duplicateTolerance commandValue

def command (nowMs : Int) (commandValue : K) : WriteCommand K :=
  ⟨[], node.targetIndex, .finite commandValue, "graph-ems".toList, nowMs, node.highPriority⟩

end ControlWrite

/-- The result is whether a command was queued, or the message of what is thrown. -/
def reported (routed : Option StdString × WriteState K) : Except StdString Bool × WriteState K :=
  match routed with
  | (none, after) => (.ok true, after)
  | (some message, after) =>
    if message = budgetReached then (.ok false, after) else (.error ("controlWrite rejected: ".toList ++ message), after)

def runControlWrite (node : ControlWrite K) (scan : WriteScan K) (state : WriteState K) :
    Except StdString Bool × WriteState K :=
  if !node.submitWrites || !node.permits scan.points then (.ok false, state)
  else match latestValue scan.points node.inputIndex with
    | some (.finite input) =>
      if input < node.minValue ∨ node.maxValue < input then
        (.error "controlWrite input outside configured bounds".toList, state)
      else if node.suppressed scan.points state.pendingWrites (node.valueMode.apply input) then (.ok false, state)
      else reported (submitDeviceWrite scan (node.command scan.nowMs (node.valueMode.apply input)) state)
    | _ => (.ok false, state)

end Node

section Ready

variable {K : Type} [Field K] [LinearOrder K]

omit [Field K] [LinearOrder K] in
theorem reported_state (routed : Option StdString × WriteState K) : (reported routed).2 = routed.2 := by
  obtain ⟨_ | message, after⟩ := routed
  · rfl
  · rw [reported]
    split <;> rfl

structure ControlWrite.Ready (node : ControlWrite K) (points : UInt32 → Option (StoredPoint K)) (input : K) : Prop where
  submits : node.submitWrites = true
  permits : node.permits points = true
  input_eq : latestValue points node.inputIndex = some (.finite input)
  least : node.minValue ≤ input
  greatest : input ≤ node.maxValue

variable [FloorRing K] {node : ControlWrite K} {scan : WriteScan K} {input : K}

theorem runControlWrite_of_ready (hReady : node.Ready scan.points input) (state : WriteState K) :
    runControlWrite node scan state =
      if node.suppressed scan.points state.pendingWrites (node.valueMode.apply input) then (.ok false, state)
      else reported (submitDeviceWrite scan (node.command scan.nowMs (node.valueMode.apply input)) state) := by
  have hStarts : ¬(!node.submitWrites || !node.permits scan.points) = true := by
    rw [hReady.submits, hReady.permits]
    decide
  have hInside : ¬(input < node.minValue ∨ node.maxValue < input) :=
    not_or.mpr ⟨not_lt.mpr hReady.least, not_lt.mpr hReady.greatest⟩
  rw [runControlWrite, if_neg hStarts, hReady.input_eq]
  dsimp only
  rw [if_neg hInside]

theorem runControlWrite_of_not_ready (h : ∀ input, ¬node.Ready scan.points input) (state : WriteState K) :
    (runControlWrite node scan state).2 = state := by
  rw [runControlWrite]
  split
  · rfl
  · rename_i hStarts
    split
    · rename_i input hInput
      split
      · rfl
      · rename_i hInside
        simp only [Bool.or_eq_true, Bool.not_eq_true', not_or, Bool.not_eq_false] at hStarts
        obtain ⟨hLeast, hGreatest⟩ := not_or.mp hInside
        exact absurd ⟨hStarts.1, hStarts.2, hInput, not_lt.mp hLeast, not_lt.mp hGreatest⟩ (h input)
    · rfl

theorem runControlWrite_queue (node : ControlWrite K) (scan : WriteScan K) (state : WriteState K) :
    (runControlWrite node scan state).2.pendingWrites = state.pendingWrites ∨
      ∃ input, node.Ready scan.points input ∧ (runControlWrite node scan state).2.pendingWrites =
        state.pendingWrites ++ [(node.command scan.nowMs (node.valueMode.apply input)).numbered scan state] := by
  by_cases hReady : ∃ input, node.Ready scan.points input
  · obtain ⟨input, hReady⟩ := hReady
    rw [runControlWrite_of_ready hReady]
    split
    · exact .inl rfl
    · rw [reported_state]
      obtain ⟨-, h⟩ | ⟨message, h⟩ | h :=
        submitDeviceWrite_cases scan (node.command scan.nowMs (node.valueMode.apply input)) state
      · rw [h]
        exact .inl rfl
      · rw [h]
        exact .inl rfl
      · rw [h]
        exact .inr ⟨input, hReady, rfl⟩
  · rw [runControlWrite_of_not_ready (not_exists.mp hReady)]
    exact .inl rfl

end Ready

section Runs

variable {K : Type} [Field K] [LinearOrder K] [FloorRing K]

/-- Between two runs of the node others change the queue and the counters as they like. -/
inductive ControlEvent (K : Type) where
  | others (state : WriteState K)
  | run (scan : WriteScan K)

structure ControlLog (K : Type) where
  state : WriteState K
  submitted : List (WriteScan K × WriteCommand K)

namespace ControlWrite

variable (node : ControlWrite K)

def step (log : ControlLog K) : ControlEvent K → ControlLog K
  | .others state => { log with state }
  | .run scan =>
    let after := (runControlWrite node scan log.state).2
    ⟨after, log.submitted ++
      (after.pendingWrites.drop log.state.pendingWrites.length).map fun command => (scan, command)⟩

theorem mem_step {log : ControlLog K} {event : ControlEvent K} {entry : WriteScan K × WriteCommand K}
    (h : entry ∈ (node.step log event).submitted) :
    entry ∈ log.submitted ∨ ∃ input, node.Ready entry.1.points input ∧
      entry.2.value = .finite (node.valueMode.apply input) := by
  cases event with
  | others state => exact .inl h
  | run scan =>
    obtain hBefore | hNew := List.mem_append.mp h
    · exact .inl hBefore
    · obtain ⟨command, hCommand, rfl⟩ := List.mem_map.mp hNew
      obtain hSame | ⟨input, hReady, hQueue⟩ := runControlWrite_queue node scan log.state
      · rw [hSame, List.drop_length] at hCommand
        cases hCommand
      · rw [hQueue, List.drop_left] at hCommand
        obtain rfl := List.mem_singleton.mp hCommand
        exact .inr ⟨input, hReady, rfl⟩

/-- The commands of all runs of the node, from any state. -/
def submissions (state : WriteState K) (events : List (ControlEvent K)) : List (WriteScan K × WriteCommand K) :=
  (Run.after node.step ⟨state, []⟩ events).submitted

theorem submissions_ready (state : WriteState K) (events : List (ControlEvent K)) :
    ∀ entry ∈ node.submissions state events, ∃ input, node.Ready entry.1.points input ∧
      entry.2.value = .finite (node.valueMode.apply input) := by
  rw [submissions]
  induction events using List.reverseRecOn with
  | nil => simp
  | append_singleton events event ih =>
    intro entry hEntry
    rw [Run.after_snoc] at hEntry
    obtain hBefore | hNew := node.mem_step hEntry
    · exact ih entry hBefore
    · exact hNew

def PermitHolds (points : UInt32 → Option (StoredPoint K)) : Prop :=
  node.permitIndex ≠ 0 → ∃ permit, points node.permitIndex = some ⟨.finite permit, 1, false⟩ ∧
    |permit - node.permitValue| ≤ node.permitTolerance

omit [FloorRing K] in
theorem permits_iff (points : UInt32 → Option (StoredPoint K)) : node.permits points = true ↔ node.PermitHolds points := by
  rw [permits, PermitHolds, Bool.or_eq_true, beq_iff_eq, Option.any_eq_true, ← or_iff_not_imp_left]
  refine or_congr_right ⟨?_, ?_⟩
  · rintro ⟨reading, hLatest, hNear⟩
    obtain ⟨permit, rfl, hClose⟩ := Reading.within_iff.mp hNear
    exact ⟨permit, latestValue_some.mp hLatest, hClose⟩
  · rintro ⟨permit, hPoint, hNear⟩
    exact ⟨.finite permit, latestValue_some.mpr hPoint, Reading.within_iff.mpr ⟨permit, rfl, hNear⟩⟩

def WithinBounds (command : WriteCommand K) : Prop :=
  ∃ value, command.value = .finite value ∧ node.minValue ≤ value ∧ value ≤ node.maxValue

def KeepsBounds : Prop :=
  node.minValue ≤ node.valueMode.apply node.minValue ∧ node.valueMode.apply node.maxValue ≤ node.maxValue

def AlwaysPermitted : Prop := ∀ state events, ∀ entry ∈ node.submissions state events, node.PermitHolds entry.1.points

def AlwaysBounded : Prop := ∀ state events, ∀ entry ∈ node.submissions state events, node.WithinBounds entry.2

variable {node}

theorem always_permitted : node.AlwaysPermitted := by
  intro state events entry hEntry
  obtain ⟨input, hReady, -⟩ := node.submissions_ready state events entry hEntry
  exact (node.permits_iff _).mp hReady.permits

theorem KeepsBounds.bounded [IsStrictOrderedRing K] (h : node.KeepsBounds) : node.AlwaysBounded := by
  intro state events entry hEntry
  obtain ⟨input, hReady, hValue⟩ := node.submissions_ready state events entry hEntry
  exact ⟨_, hValue, h.1.trans (node.valueMode.apply_mono hReady.least),
    (node.valueMode.apply_mono hReady.greatest).trans h.2⟩

end ControlWrite

end Runs

section Reach

variable {K : Type} [Field K] [LinearOrder K] [FloorRing K] {node : ControlWrite K}

def ControlWrite.pointsFor (node : ControlWrite K) (input : K) (index : UInt32) : Option (StoredPoint K) :=
  if index = node.inputIndex then some ⟨.finite input, 1, false⟩
  else if index = node.permitIndex then some ⟨.finite node.permitValue, 1, false⟩
  else none

def idleState : WriteState K := ⟨[], 0, 0, 0, false⟩

def ControlWrite.scanFor (node : ControlWrite K) (input : K) : WriteScan K where
  ruleCode := []
  nodeId := []
  points := node.pointsFor input
  nowMs := 0
  maxDeviceWritesThisRun := 1
  rejection := fun _ => none

/-- Where the points of a node differ, every input within the bounds is one that it sends. -/
theorem ControlWrite.sends [IsStrictOrderedRing K] (hSubmits : node.submitWrites = true) (hTolerance : 0 ≤ node.permitTolerance)
    (hDistinct : [node.permitIndex, node.inputIndex, node.targetIndex].Nodup) {input : K} (hLeast : node.minValue ≤ input)
    (hGreatest : input ≤ node.maxValue) :
    ∃ entry ∈ node.submissions idleState [.run (node.scanFor input)],
      entry.2.value = .finite (node.valueMode.apply input) := by
  simp only [List.nodup_cons, List.mem_cons, List.not_mem_nil, or_false, not_or, List.nodup_nil, and_true] at hDistinct
  obtain ⟨⟨hPermitInput, hPermitTarget⟩, hInputTarget, -⟩ := hDistinct
  have hPermits : node.permits (node.pointsFor input) = true := by
    rw [permits_iff]
    intro _
    refine ⟨node.permitValue, ?_, ?_⟩
    · rw [pointsFor, if_neg hPermitInput, if_pos rfl]
    · rw [sub_self, abs_zero]
      exact hTolerance
  have hInput : latestValue (node.pointsFor input) node.inputIndex = some (.finite input) := by
    rw [latestValue_some, pointsFor, if_pos rfl]
  have hTarget : latestValue (node.pointsFor input) node.targetIndex = none := by
    rw [latestValue, pointsFor, if_neg (Ne.symm hInputTarget), if_neg (Ne.symm hPermitTarget)]
    rfl
  have hReady : node.Ready (node.scanFor input).points input := ⟨hSubmits, hPermits, hInput, hLeast, hGreatest⟩
  have hFree : ¬node.suppressed (node.scanFor input).points [] (node.valueMode.apply input) = true := by
    rw [suppressed]
    change ¬((latestValue (node.pointsFor input) node.targetIndex).any _ || _) = true
    rw [hTarget]
    exact Bool.false_ne_true
  have hRun := runControlWrite_of_ready hReady idleState
  rw [show (idleState : WriteState K).pendingWrites = [] from rfl, if_neg hFree] at hRun
  refine ⟨(node.scanFor input, (node.command 0 (node.valueMode.apply input)).numbered (node.scanFor input) idleState),
    ?_, rfl⟩
  rw [submissions, Run.after_cons, Run.after_nil, step, hRun, reported_state]
  exact List.mem_singleton.mpr rfl

theorem ControlWrite.keepsBounds_of_bounded [IsStrictOrderedRing K] (hSubmits : node.submitWrites = true)
    (hTolerance : 0 ≤ node.permitTolerance) (hBounds : node.minValue ≤ node.maxValue)
    (hDistinct : [node.permitIndex, node.inputIndex, node.targetIndex].Nodup) (h : node.AlwaysBounded) :
    node.KeepsBounds := by
  constructor
  · obtain ⟨entry, hEntry, hValue⟩ := sends hSubmits hTolerance hDistinct le_rfl hBounds
    obtain ⟨value, hSame, hLeast, -⟩ := h _ _ entry hEntry
    rw [hSame] at hValue
    exact hLeast.trans_eq (Reading.finite.inj hValue)
  · obtain ⟨entry, hEntry, hValue⟩ := sends hSubmits hTolerance hDistinct hBounds le_rfl
    obtain ⟨value, hSame, -, hGreatest⟩ := h _ _ entry hEntry
    rw [hSame] at hValue
    exact (Reading.finite.inj hValue).symm.trans_le hGreatest

end Reach

section Validated

variable {K : Type} [Field K] [LinearOrder K] [IsStrictOrderedRing K] {params : Params}

theorem paramIndex_of_valid {key : StdString} (h : validatePositiveIndex params key = .ok ()) (defaultValue : UInt32) :
    ∃ index, paramIndex params key defaultValue = .ok index := by
  cases hFound : params.find key with
  | none => exact ⟨defaultValue, by rw [paramIndex, hFound]⟩
  | some text =>
    cases text with
    | nil => exact ⟨defaultValue, by rw [paramIndex, hFound]⟩
    | cons c text =>
      obtain ⟨index, -, hIndex⟩ := validatePositiveIndex_ok h hFound (List.cons_ne_nil c text)
      exact ⟨index, hIndex defaultValue⟩

omit [LinearOrder K] [IsStrictOrderedRing K] in
theorem exactOr_of_paramDouble {key : String} {found : Option RawDouble} (h : paramDouble params key.toList = .ok found)
    (defaultValue : K) : exactOr params key defaultValue = .ok ((found.map exactValue).getD defaultValue) := by
  rw [exactOr, h]
  rfl

theorem requireOptional_ok {key : StdString} {test : RawDouble → Bool} {message : String}
    (h : requireOptional params key test message = .ok ()) :
    ∃ found, paramDouble params key = .ok found ∧ ∀ value ∈ found, test value = true := by
  obtain ⟨found, hFound, hTest⟩ := bind_ok_iff.mp h
  refine ⟨found, hFound, ?_⟩
  cases found with
  | none => simp
  | some value =>
    intro other hOther
    obtain rfl := Option.mem_some_iff.mp hOther
    exact require_ok_iff.mp hTest

omit [LinearOrder K] [IsStrictOrderedRing K] in
theorem exactOr_of_numberOr {key : String} {value : RawDouble} (h : numberOr params key 0 = .ok value) :
    exactOr params key (0 : K) = .ok (exactValue value) := by
  obtain ⟨found, hFound, hValue⟩ := bind_ok_iff.mp h
  obtain rfl := pure_ok_iff.mp hValue
  rw [exactOr_of_paramDouble hFound]
  cases found with
  | none => exact congrArg _ exactValue_zero.symm
  | some value => rfl

theorem exactValue_nonneg {value : RawDouble} (h : isNonNegative value = true) : 0 ≤ (exactValue value : K) := by
  rw [isNonNegative, Bool.and_eq_true] at h
  exact exactValue_zero.symm.trans_le (exactValue_le h.2)

structure ControlWrite.Valid (node : ControlWrite K) : Prop where
  bounds : node.minValue ≤ node.maxValue
  tolerance : 0 ≤ node.permitTolerance
  deadband : 0 ≤ node.deadband

theorem ControlWrite.ofParams_ok (h : validateControlWrite params = .ok ()) :
    ∃ node : ControlWrite K, ControlWrite.ofParams params = .ok node ∧ node.Valid := by
  unfold validateControlWrite at h
  obtain ⟨⟨⟩, hIndexes, h⟩ := bind_ok_iff.mp h
  obtain ⟨⟨⟩, -, h⟩ := bind_ok_iff.mp h
  obtain ⟨least, hLeast, h⟩ := bind_ok_iff.mp h
  obtain ⟨greatest, hGreatest, h⟩ := bind_ok_iff.mp h
  obtain ⟨⟨⟩, hBounds, h⟩ := bind_ok_iff.mp h
  obtain ⟨deadband, hDeadband, h⟩ := bind_ok_iff.mp h
  obtain ⟨⟨⟩, hNonNegative, h⟩ := bind_ok_iff.mp h
  obtain ⟨⟨⟩, hPermit, -⟩ := bind_ok_iff.mp h
  obtain ⟨⟨⟩, hPermitIndex, hPermit⟩ := bind_ok_iff.mp hPermit
  obtain ⟨⟨⟩, hValue, hTolerance⟩ := bind_ok_iff.mp hPermit
  have hEach := forM_ok_iff.mp hIndexes
  obtain ⟨permitIndex, hPermitIndex⟩ := paramIndex_of_valid hPermitIndex 0
  obtain ⟨inputIndex, hInputIndex⟩ := paramIndex_of_valid (requireIndex_ok (hEach "inputIndex" (by simp))) 0
  obtain ⟨targetIndex, hTargetIndex⟩ := paramIndex_of_valid (requireIndex_ok (hEach "targetIndex" (by simp))) 0
  obtain ⟨permitValue, hPermitValue, -⟩ := requireOptional_ok hValue
  obtain ⟨tolerance, hFound, hToleranceTest⟩ := requireOptional_ok hTolerance
  rw [ofParams, hPermitIndex, exactOr_of_paramDouble hPermitValue, exactOr_of_paramDouble hFound, hInputIndex,
    exactOr_of_numberOr hLeast, exactOr_of_numberOr hGreatest, hTargetIndex, exactOr_of_numberOr hDeadband]
  refine ⟨_, rfl, ?_, ?_, ?_⟩
  · have hOrdered := require_ok_iff.mp hBounds
    rw [areBounds, Bool.and_eq_true] at hOrdered
    exact exactValue_le hOrdered.2
  · cases tolerance with
    | none => exact div_nonneg zero_le_one (by positivity)
    | some tolerance => exact exactValue_nonneg (hToleranceTest tolerance rfl)
  · exact exactValue_nonneg (require_ok_iff.mp hNonNegative)

/-- The permit holds at every command; the bounds hold where the value mode keeps them. -/
theorem controlWrite_bounded_when [FloorRing K] (h : validateControlWrite params = .ok ()) :
    ∃ node : ControlWrite K, ControlWrite.ofParams params = .ok node ∧ node.AlwaysPermitted ∧
      (node.KeepsBounds → node.AlwaysBounded) ∧
      (node.submitWrites = true → [node.permitIndex, node.inputIndex, node.targetIndex].Nodup →
        node.AlwaysBounded → node.KeepsBounds) := by
  obtain ⟨node, hNode, hValid⟩ := ControlWrite.ofParams_ok (K := K) h
  refine ⟨node, hNode, ControlWrite.always_permitted, ControlWrite.KeepsBounds.bounded, ?_⟩
  intro hSubmits hDistinct
  exact ControlWrite.keepsBounds_of_bounded hSubmits hValid.tolerance hValid.bounds hDistinct

end Validated

def truncatingParams : Params :=
  [("inputIndex", "1"), ("targetIndex", "2"), ("minValue", "1.5"), ("maxValue", "3"), ("valueMode", "truncate"),
    ("submitWrites", "true")].map fun entry => (entry.1.toList, entry.2.toList)

def truncatingNode : ControlWrite ℚ where
  submitWrites := true
  permitIndex := 0
  permitValue := 1
  permitTolerance := 1 / 10 ^ 9
  inputIndex := 1
  minValue := 3 / 2
  maxValue := 3
  valueMode := .truncate
  targetIndex := 2
  deadband := 0
  highPriority := false

theorem truncatingParams_valid : validateControlWrite truncatingParams = .ok () := by decide +kernel

theorem truncatingParams_node : ControlWrite.ofParams truncatingParams = .ok truncatingNode := by decide +kernel

theorem truncating_controlWrite_bounded_when : ∃ node : ControlWrite ℚ, ControlWrite.ofParams truncatingParams = .ok node ∧
    node.AlwaysPermitted ∧ (node.KeepsBounds → node.AlwaysBounded) ∧
    (node.submitWrites = true → [node.permitIndex, node.inputIndex, node.targetIndex].Nodup →
      node.AlwaysBounded → node.KeepsBounds) :=
  controlWrite_bounded_when truncatingParams_valid

/-- The input 1.7 is within the bounds, and 1 is sent. -/
theorem truncated_below_minValue : validateControlWrite truncatingParams = .ok () ∧
    ControlWrite.ofParams truncatingParams = .ok truncatingNode ∧
    ∃ entry ∈ truncatingNode.submissions idleState [.run (truncatingNode.scanFor (17 / 10))],
      entry.2.value = .finite 1 ∧ ¬truncatingNode.WithinBounds entry.2 := by
  refine ⟨truncatingParams_valid, truncatingParams_node, ?_⟩
  have hLeast : truncatingNode.minValue ≤ (17 / 10 : ℚ) := by decide +kernel
  have hGreatest : (17 / 10 : ℚ) ≤ truncatingNode.maxValue := by decide +kernel
  obtain ⟨entry, hEntry, hValue⟩ := ControlWrite.sends rfl (by decide +kernel) (by decide) hLeast hGreatest
  have hApplied : truncatingNode.valueMode.apply (17 / 10 : ℚ) = 1 := by decide +kernel
  rw [hApplied] at hValue
  refine ⟨entry, hEntry, hValue, ?_⟩
  rintro ⟨value, hSame, hAbove, -⟩
  rw [hValue] at hSame
  obtain rfl := Reading.finite.inj hSame
  exact absurd hAbove (by decide +kernel)

end EdgeGateway.GraphEms
