import EdgeGateway.AgcAvc.ServiceInput
import Mathlib.Data.List.AList

/-! # A tick of the AGC/AVC service

After the controller's step the service takes or gives up the ownership and submits the targets that
changed. What the point bus, the ownership and the lease answer is open; an answer that throws ends
the process and is left out.
-/

namespace EdgeGateway.AgcAvc

universe u

abbrev IndexMap (α : Type u) := AList fun _ : UInt32 => α

structure PendingWriteObservation (K : Type u) (n : Nat) where
  cmdId : String
  pcsIndex : Fin n
  reactive : Bool
  target : K
  submittedAtMs : Int

structure PendingFeedbackObservation (K : Type u) (n : Nat) where
  pcsIndex : Fin n
  reactive : Bool
  target : K
  startedAtMs : Int

structure WritebackResult where
  success : Bool
  completedAt : Int
deriving DecidableEq, Repr

structure Submission (K : Type u) (n : Nat) where
  cmdId : String
  index : UInt32
  value : K
  ts : Int
  pcsIndex : Fin n
  accepted : Bool

structure AgcAvcService (K : Type u) (n : Nat) where
  controller : AgcAvcController K n
  ownershipHeld : Bool
  latchedCommand : Option (AgcAvcCommandInput K)
  lastWriteStatus : Int
  consecutiveWriteFailures : Int
  lastSubmittedValue : IndexMap K
  lastSubmittedAtMs : IndexMap Int
  pendingWrites : IndexMap (PendingWriteObservation K n)
  pendingFeedback : List (PendingFeedbackObservation K n)

/-- What the environment answers in one tick, the answers to the submissions in the order they are made. -/
structure TickAnswers (K : Type u) (n : Nat) where
  nowMs : Int
  values : Snapshot K
  sequencePoint : Option (SharedPoint K)
  priorityBlocked : Bool
  acquires : Bool
  readWriteResult : UInt32 → Option WritebackResult
  walk : IndexMap (PendingWriteObservation K n) → List (Sigma fun _ : UInt32 => PendingWriteObservation K n)
  walk_perm : ∀ pending, (walk pending).Perm pending.entries
  accepts : Nat → Bool

inductive Deed (K : Type u) (n : Nat) where
  | resolved (index : UInt32)
  | failed (index : UInt32)
  | submitted (submission : Submission K n)

variable {K : Type u} [Field K] [LinearOrder K] [FloorRing K] {n : Nat}

namespace AgcAvcService

def fresh : AgcAvcService K n where
  controller := AgcAvcController.reset
  ownershipHeld := false
  latchedCommand := none
  lastWriteStatus := 0
  consecutiveWriteFailures := 0
  lastSubmittedValue := ∅
  lastSubmittedAtMs := ∅
  pendingWrites := ∅
  pendingFeedback := []

def registerWriteFailure (s : AgcAvcService K n) (index : UInt32) : AgcAvcService K n :=
  { s with
    lastWriteStatus := -1
    consecutiveWriteFailures := s.consecutiveWriteFailures + 1
    lastSubmittedValue := if index = 0 then s.lastSubmittedValue else s.lastSubmittedValue.erase index
    lastSubmittedAtMs := if index = 0 then s.lastSubmittedAtMs else s.lastSubmittedAtMs.erase index }

structure Progress (K : Type u) (n : Nat) where
  service : AgcAvcService K n
  deeds : List (Deed K n)
  successObserved : Bool

def Progress.fail (p : Progress K n) (index : UInt32) : Progress K n :=
  { p with service := p.service.registerWriteFailure index, deeds := p.deeds ++ [.failed index] }

variable (config : AgcAvcServiceConfig K n) (answers : TickAnswers K n)

/-- A write that succeeded is watched on the unit's measurement, if the unit is configured for it. -/
def watchFeedback (s : AgcAvcService K n) (pending : PendingWriteObservation K n) (completedAt : Int) :
    AgcAvcService K n :=
  if (config.units pending.pcsIndex).feedbackTimeoutMs > 0 then
    { s with
      pendingFeedback := s.pendingFeedback.filter
          (fun item => !(decide (item.pcsIndex = pending.pcsIndex) && item.reactive == pending.reactive)) ++
        [⟨pending.pcsIndex, pending.reactive, pending.target,
          if completedAt > 0 then completedAt else answers.nowMs⟩] }
  else s

def Progress.resolve (p : Progress K n) (index : UInt32) : Progress K n :=
  { p with
    service := { p.service with pendingWrites := p.service.pendingWrites.erase index }
    deeds := p.deeds ++ [.resolved index] }

def observeWrite (p : Progress K n) (entry : Sigma fun _ : UInt32 => PendingWriteObservation K n) : Progress K n :=
  match answers.readWriteResult entry.1 with
  | some result =>
    if result.success then
      Progress.resolve
        { p with
          service := watchFeedback config answers p.service entry.2 result.completedAt
          successObserved := true } entry.1
    else (p.fail entry.1).resolve entry.1
  | none =>
    if answers.nowMs - entry.2.submittedAtMs ≥ config.writeResultTimeoutMs then (p.fail entry.1).resolve entry.1
    else p

def feedbackMet (runtime : AgcAvcPcsRuntimeInput K) (item : PendingFeedbackObservation K n) : Bool :=
  let unit := config.units item.pcsIndex
  let actual := if item.reactive then runtime.actualQkvar else runtime.actualPkw
  let tolerance := if item.reactive then unit.feedbackToleranceKvar else unit.feedbackToleranceKw
  runtime.inputHealthy && decide (|actual - item.target| ≤ tolerance)

def feedbackTarget (item : PendingFeedbackObservation K n) : UInt32 :=
  let points := (config.units item.pcsIndex).points
  (((if item.reactive then points.reactiveTargets else points.activeTargets).head?).map (·.index)).getD 0

def observeFeedback (pcs : List (AgcAvcPcsRuntimeInput K)) (p : Progress K n)
    (item : PendingFeedbackObservation K n) : Progress K n :=
  match pcs[item.pcsIndex.val]? with
  | none => p
  | some runtime =>
    if feedbackMet config runtime item then { p with successObserved := true }
    else if answers.nowMs - item.startedAtMs ≥ (config.units item.pcsIndex).feedbackTimeoutMs then
      p.fail (feedbackTarget config item)
    else { p with service := { p.service with pendingFeedback := p.service.pendingFeedback ++ [item] } }

def observeWrites (s : AgcAvcService K n) : Progress K n :=
  (answers.walk s.pendingWrites).foldl (observeWrite config answers) ⟨s, [], false⟩

def observeFeedbacks (pcs : List (AgcAvcPcsRuntimeInput K)) (p : Progress K n) : Progress K n :=
  p.service.pendingFeedback.foldl (observeFeedback config answers pcs)
    { p with service := { p.service with pendingFeedback := [] } }

def processWriteResults (s : AgcAvcService K n) (pcs : List (AgcAvcPcsRuntimeInput K)) : Progress K n :=
  let observed := observeFeedbacks config answers pcs (observeWrites config answers s)
  if observed.successObserved && observed.service.consecutiveWriteFailures == s.consecutiveWriteFailures then
    { observed with service := { observed.service with consecutiveWriteFailures := 0, lastWriteStatus := 1 } }
  else observed

def makeCommandId (sequence nowMs : Int) (index : UInt32) : String :=
  "AGCAVC_" ++ toString sequence ++ "_" ++ toString nowMs ++ "_" ++ toString index

/-- What is to be written: a total for all targets of a unit, with its deadband and the rating percents refer to. -/
structure Setpoint (K : Type u) (n : Nat) where
  pcsIndex : Fin n
  targets : List AgcAvcPointRefConfig
  total : K
  deadband : K
  rated : K
  reactive : Bool

def Setpoint.value (setpoint : Setpoint K n) : K :=
  if (config.units setpoint.pcsIndex).ratedPercent then
    if setpoint.rated > 0 then setpoint.total * 100 / setpoint.rated else 0
  else if setpoint.targets.length > 1 then setpoint.total / (setpoint.targets.length : K)
  else setpoint.total

structure Submitting (K : Type u) (n : Nat) where
  service : AgcAvcService K n
  submissions : List (Submission K n)

/-- Why a target is left alone: no point, a result still out, no change to speak of, or too soon. -/
def skipsTarget (s : AgcAvcService K n) (setpoint : Setpoint K n) (target : AgcAvcPointRefConfig) : Bool :=
  decide (target.index = 0) || decide (target.index ∈ s.pendingWrites) ||
    ((s.lastSubmittedValue.lookup target.index).any fun last =>
      decide (|last - setpoint.value config| < setpoint.deadband)) ||
    ((s.lastSubmittedAtMs.lookup target.index).any fun last =>
      decide (answers.nowMs - last < (config.units setpoint.pcsIndex).minWriteIntervalMs))

def submitTarget (commandSequence : Int) (setpoint : Setpoint K n) (p : Submitting K n)
    (target : AgcAvcPointRefConfig) : Submitting K n :=
  if skipsTarget config answers p.service setpoint target then p
  else
    let cmdId := makeCommandId commandSequence answers.nowMs target.index
    let accepted := answers.accepts p.submissions.length
    let observation : PendingWriteObservation K n :=
      ⟨cmdId, setpoint.pcsIndex, setpoint.reactive, setpoint.total, answers.nowMs⟩
    { service := if accepted then
        { p.service with
          lastSubmittedValue := p.service.lastSubmittedValue.insert target.index (setpoint.value config)
          lastSubmittedAtMs := p.service.lastSubmittedAtMs.insert target.index answers.nowMs
          pendingWrites := p.service.pendingWrites.insert target.index observation }
      else p.service
      submissions := p.submissions ++
        [⟨cmdId, target.index, setpoint.value config, answers.nowMs, setpoint.pcsIndex, accepted⟩] }

def setpoints (assignments : Fin n → AgcAvcPcsAssignment K) (i : Fin n) : List (Setpoint K n) :=
  if (assignments i).available then
    let unit := config.units i
    let pcs := config.controller.pcs i
    [⟨i, unit.points.activeTargets, (assignments i).targetPkw, max 0 unit.writeDeadbandKw,
        pcs.ratedActivePowerKw.commissionedLimit, false⟩,
      ⟨i, unit.points.reactiveTargets, (assignments i).targetQkvar, max 0 unit.writeDeadbandKvar,
        pcs.ratedApparentPowerKva.commissionedLimit, true⟩]
  else []

def submitAssignments (s : AgcAvcService K n) (output : AgcAvcCycleOutput K n) : Submitting K n :=
  match output.pcs with
  | none => ⟨s, []⟩
  | some assignments =>
    ((List.finRange n).flatMap (setpoints config assignments)).foldl
      (fun p setpoint => setpoint.targets.foldl (submitTarget config answers output.commandSequence setpoint) p) ⟨s, []⟩

structure TickResult (K : Type u) (n : Nat) where
  service : AgcAvcService K n
  output : AgcAvcCycleOutput K n
  controllerState : AgcAvcRuntimeState
  acquired : Bool
  released : Bool
  deeds : List (Deed K n)

def zeroing (state : AgcAvcRuntimeState) : Bool :=
  decide (state = .rampToZero) || decide (state = .standby) || decide (state = .failsafe)

def activeControl (state : AgcAvcRuntimeState) : Bool := decide (state = .active) || decide (state = .degraded)

def hasNonZeroSubmitted (s : AgcAvcService K n) : Bool :=
  s.lastSubmittedValue.entries.any fun entry => decide (|entry.2| > 1 / 10 ^ 9)

variable (math : CMath K)

def latch (s : AgcAvcService K n) : Option (AgcAvcCommandInput K) :=
  let observed := config.observedCommand answers.values answers.nowMs
  latchCommand s.latchedCommand (config.sequenceStable answers.nowMs answers.sequencePoint observed) observed

def input (s : AgcAvcService K n) : AgcAvcCycleInput K :=
  let observed := config.observedCommand answers.values answers.nowMs
  config.cycleInput answers.values answers.nowMs
    (config.sequenceStable answers.nowMs answers.sequencePoint observed) answers.priorityBlocked
    ((s.latch config answers).getD observed)

def results (s : AgcAvcService K n) : Progress K n :=
  processWriteResults config answers s (s.input config answers).pcs

def checkedInput (s : AgcAvcService K n) : AgcAvcCycleInput K :=
  if (s.results config answers).service.consecutiveWriteFailures ≥ config.maxConsecutiveWriteFailures then
    { s.input config answers with
      inputHealthy := false
      inputFailureReason := "writeback or PCS feedback failed repeatedly" }
  else s.input config answers

def controlled (s : AgcAvcService K n) : AgcAvcController K n × AgcAvcCycleOutput K n :=
  s.controller.step math config.controller (s.checkedInput config answers)

def needsOwnership (s : AgcAvcService K n) : Bool :=
  let state := (s.controlled config answers math).2.state
  let after := (s.results config answers).service
  config.submitWrites && !config.shadowMode &&
    (activeControl state ||
      (s.ownershipHeld && zeroing state && (after.hasNonZeroSubmitted || !after.pendingWrites.entries.isEmpty)))

def tickOutput (s : AgcAvcService K n) : AgcAvcCycleOutput K n :=
  if s.needsOwnership config answers math && !answers.acquires then
    { (s.controlled config answers math).2 with
      state := .pausedByPriority
      reason := "PCS power targets are owned by another controller" }
  else (s.controlled config answers math).2

def readied (s : AgcAvcService K n) : AgcAvcService K n :=
  { (s.results config answers).service with
    controller := (s.controlled config answers math).1
    latchedCommand := s.latch config answers
    ownershipHeld := s.needsOwnership config answers math && answers.acquires }

def submitting (s : AgcAvcService K n) : Submitting K n :=
  let ready := s.readied config answers math
  let output := s.tickOutput config answers math
  if config.submitWrites && !config.shadowMode && ready.ownershipHeld && decide (output.state ≠ .pausedByPriority) then
    submitAssignments config answers ready output
  else ⟨ready, []⟩

def tick (s : AgcAvcService K n) : TickResult K n where
  service := (s.submitting config answers math).service
  output := s.tickOutput config answers math
  controllerState := (s.controlled config answers math).2.state
  acquired := s.needsOwnership config answers math && answers.acquires
  released := !s.needsOwnership config answers math && s.ownershipHeld
  deeds := (s.results config answers).deeds ++ (s.submitting config answers math).submissions.map .submitted

end AgcAvcService

end EdgeGateway.AgcAvc
