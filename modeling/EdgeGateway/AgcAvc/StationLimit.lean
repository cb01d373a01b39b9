import EdgeGateway.AgcAvc.Bounds
import EdgeGateway.AgcAvc.Controller
import EdgeGateway.Foundation.Run
import Mathlib.Analysis.SpecialFunctions.Trigonometric.Inverse

/-! # What a step of the controller does -/

namespace EdgeGateway.AgcAvc

universe u

variable {K : Type u} [Field K] [LinearOrder K] {n : Nat}

noncomputable def realMath : CMath ℝ where
  sqrt := Real.sqrt
  tanAcos := fun pf => Real.tan (Real.arccos pf)
  sqrt_nonneg := Real.sqrt_nonneg
  sqrt_mul_self := fun _ => Real.mul_self_sqrt

def AgcAvcCycleOutput.runs (output : AgcAvcCycleOutput K n) : Prop :=
  output.state = .active ∨ output.state = .degraded

namespace AgcAvcController

variable (math : CMath K) (config : AgcAvcConfig K n) (c : AgcAvcController K n) (input : AgcAvcCycleInput K)

def next : AgcAvcController K n := (c.step math config input).1

/-- No guard of the step stops it from dividing a target. -/
def controls : Bool :=
  config.enabled && input.inputHealthy && !(input.emergencyStop || input.fireAlarm || !input.remoteEnable) &&
    !input.priorityBlocked && commandFresh config input

def pauses : Bool :=
  config.enabled && input.inputHealthy && !(input.emergencyStop || input.fireAlarm || !input.remoteEnable) &&
    input.priorityBlocked

inductive StepCase : AgcAvcController K n × AgcAvcCycleOutput K n → Prop
  | disabled (output : AgcAvcCycleOutput K n) (hState : ¬output.runs) :
      StepCase ({ (reset : AgcAvcController K n) with lastCycleMs := input.nowMs }, output)
  | zero (immediate : Bool) (output : AgcAvcCycleOutput K n) (hState : ¬output.runs) :
      StepCase ((c.setZeroAssignments config input immediate).1, output)
  | paused (output : AgcAvcCycleOutput K n) (hState : ¬output.runs) (hPauses : pauses config input) :
      StepCase (c.pausedController input, output)
  | control (hControls : controls config input) : StepCase (c.controlStep math config input)

theorem step_cases : StepCase math config c input (c.step math config input) := by
  rw [step]
  split
  · exact .disabled _ (by simp [AgcAvcCycleOutput.runs])
  split
  · exact .zero true _ (by simp [AgcAvcCycleOutput.runs])
  split
  · exact .zero true _ (by simp [AgcAvcCycleOutput.runs])
  split
  · refine .paused _ (by simp [AgcAvcCycleOutput.runs]) ?_
    simp_all [pauses]
  split
  · refine .zero false _ ?_
    dsimp only [AgcAvcCycleOutput.runs]
    split <;> simp
  · refine .control ?_
    simp_all [controls]

variable {c math config input} in
theorem controls_of_runs (hRuns : (c.step math config input).2.runs) :
    controls config input ∧ c.step math config input = c.controlStep math config input := by
  have hCase := c.step_cases math config input
  generalize c.step math config input = result at hCase hRuns ⊢
  cases hCase with
  | disabled _ hState => exact absurd hRuns hState
  | zero _ _ hState => exact absurd hRuns hState
  | paused _ hState => exact absurd hRuns hState
  | control hControls => exact ⟨hControls, rfl⟩

theorem controlStep_runs : (c.controlStep math config input).2.runs := by
  unfold AgcAvcCycleOutput.runs controlStep
  dsimp only
  split
  · exact Or.inr rfl
  · exact Or.inl rfl

theorem dtSec_pos [IsStrictOrderedRing K] : 0 < c.dtSec config input := by
  rw [dtSec]
  split
  case isTrue h =>
    have hDiff : (0 : K) < ((input.nowMs - c.lastCycleMs : Int) : K) := Int.cast_pos.mpr (by omega)
    positivity
  case isFalse =>
    have hCycle : (0 : K) < ((max 1 config.cycleMs : Int) : K) := Int.cast_pos.mpr (by omega)
    positivity

theorem maxExport_nonneg : 0 ≤ maxExport config := positiveLimit_nonneg _ _

theorem maxImport_nonneg : 0 ≤ maxImport config := positiveLimit_nonneg _ _

section Targets

variable [IsStrictOrderedRing K]

theorem stationRequest_inside (hMin : config.agc.minKw ≤ 0) (hMax : 0 ≤ config.agc.maxKw) :
    -maxImport config ≤ (c.stationRequest math config input).1 ∧
      (c.stationRequest math config input).1 ≤ maxExport config := by
  have hImport := neg_nonpos.mpr (maxImport_nonneg config)
  have hExport := maxExport_nonneg config
  obtain ⟨hLow, hHigh⟩ := clampValue_mem (hImport.trans hExport) (c.requestP config input).requested
  have hRange := clampValue_damped hMin hMax
    (clampValue (c.requestP config input).requested (-maxImport config) (maxExport config))
  have hEnvelope := (applyPqEnvelope_spec math _
    (clampValue (clampValue (c.requestQ math config input).requested (-stationQ config) (stationQ config))
      config.avc.minKvar config.avc.maxKvar)
    (apparentLimit config.stationLimits) config.pqPriority).active.trans hRange
  exact ⟨hEnvelope.ge hImport hLow, hEnvelope.le hExport hHigh⟩

theorem pAllocated_shares :
    Shares (c.selectedP math config input) (c.rampedP math config input) (c.pAllocated math config input) :=
  allocateWithMinimum_shares _ _ _ _

theorem qAllocated_shares :
    Shares (c.qAfterP math config input) (c.rampedQ math config input) (c.qAllocated math config input) :=
  allocateByCapacity_shares _ _ _

theorem unitTarget_spec (i : Fin n) :
    InEnvelope
      (rateLimit (c.previousPcsPkw i) (c.pAllocated math config input i) (config.pcs i).riseKwPerSec
        (config.pcs i).fallKwPerSec (c.dtSec config input))
      (rateLimit (c.previousPcsQkvar i) (c.qAllocated math config input i) (config.pcs i).riseKvarPerSec
        (config.pcs i).fallKvarPerSec (c.dtSec config input))
      (capability config input i).ratedApparent (c.unitTarget math config input i) :=
  applyPqEnvelope_spec math _ _ _ _

end Targets

end AgcAvcController

end EdgeGateway.AgcAvc

/-! # The station limit over a run

The station target is clamped before it is divided, and every unit then ramps from its own last
target. So the units that come down slowly must leave room for those that go up.
-/

namespace EdgeGateway.AgcAvc

universe u

variable {K : Type u} [Field K] [LinearOrder K] {n : Nat}

def AgcAvcCycleOutput.totalTargetPkw (output : AgcAvcCycleOutput K n) : K :=
  match output.pcs with
  | some pcs => ∑ i, (pcs i).targetPkw
  | none => 0

namespace AgcAvcController

variable (math : CMath K) (config : AgcAvcConfig K n) (c : AgcAvcController K n) (input : AgcAvcCycleInput K)

def StationLimited : Prop :=
  (c.step math config input).2.runs →
    -maxImport config ≤ (c.step math config input).2.totalTargetPkw ∧
      (c.step math config input).2.totalTargetPkw ≤ maxExport config

structure Inside : Prop where
  export_le : ∑ i, max 0 (c.previousPcsPkw i) ≤ maxExport config
  import_ge : -maxImport config ≤ ∑ i, min 0 (c.previousPcsPkw i)
  total_le : c.previousPkw ≤ maxExport config
  total_ge : -maxImport config ≤ c.previousPkw

def heldAbove (i : Fin n) : K :=
  if (capability config input i).available then
    max 0 (c.previousPcsPkw i - max 0 (config.pcs i).fallKwPerSec * c.dtSec config input -
      max 0 (c.pAllocated math config input i))
  else 0

def heldBelow (i : Fin n) : K :=
  if (capability config input i).available then
    min 0 (c.previousPcsPkw i + max 0 (config.pcs i).riseKwPerSec * c.dtSec config input -
      min 0 (c.pAllocated math config input i))
  else 0

/-- In each direction no unit is held back by its ramp, what is held fits, or no unit moves; a pause keeps the
    limits. -/
structure LeavesRoom : Prop where
  export_room : controls config input →
    (∀ i, c.heldAbove math config input i = 0) ∨
      max 0 (c.rampedP math config input) + ∑ i, c.heldAbove math config input i ≤ maxExport config ∨
      ∀ i, (capability config input i).available → c.pAllocated math config input i ≤ c.previousPcsPkw i
  import_room : controls config input →
    (∀ i, c.heldBelow math config input i = 0) ∨
      -maxImport config ≤ min 0 (c.rampedP math config input) + ∑ i, c.heldBelow math config input i ∨
      ∀ i, (capability config input i).available → c.previousPcsPkw i ≤ c.pAllocated math config input i
  paused_export : pauses config input → ∑ i, max 0 ((c.pausedController input).previousPcsPkw i) ≤ maxExport config
  paused_import : pauses config input →
    -maxImport config ≤ ∑ i, min 0 ((c.pausedController input).previousPcsPkw i)

variable [IsStrictOrderedRing K]

theorem target_le (i : Fin n) :
    max 0 (c.target math config input i).1 ≤
      max 0 (c.pAllocated math config input i) + c.heldAbove math config input i := by
  unfold target heldAbove
  split
  case isFalse => exact (max_self (0 : K)).le.trans (add_nonneg (le_max_left 0 _) le_rfl)
  case isTrue =>
    refine (c.unitTarget_spec math config input i).active.positivePart.trans ?_
    refine (max_le_max_left 0 (rateLimit_le (c.dtSec_pos config input))).trans ?_
    apply max_le
    · exact add_nonneg (le_max_left 0 _) (le_max_left 0 _)
    · apply max_le
      · exact (le_max_right 0 _).trans (le_add_of_nonneg_right (le_max_left 0 _))
      · linarith [le_max_right 0 (c.previousPcsPkw i - max 0 (config.pcs i).fallKwPerSec * c.dtSec config input -
          max 0 (c.pAllocated math config input i))]

theorem target_ge (i : Fin n) :
    min 0 (c.pAllocated math config input i) + c.heldBelow math config input i ≤
      min 0 (c.target math config input i).1 := by
  unfold target heldBelow
  split
  case isFalse => exact (add_nonpos (min_le_left 0 _) le_rfl).trans (min_self (0 : K)).ge
  case isTrue =>
    refine le_trans ?_ (c.unitTarget_spec math config input i).active.negativePart
    refine le_trans ?_ (min_le_min_left 0 (rateLimit_ge (c.dtSec_pos config input)))
    apply le_min
    · exact add_nonpos (min_le_left 0 _) (min_le_left 0 _)
    · apply le_min
      · exact (add_le_of_nonpos_right (min_le_left 0 _)).trans (min_le_right 0 _)
      · linarith [min_le_right 0 (c.previousPcsPkw i + max 0 (config.pcs i).riseKwPerSec * c.dtSec config input -
          min 0 (c.pAllocated math config input i))]

theorem target_le_previous (i : Fin n)
    (h : (capability config input i).available → c.pAllocated math config input i ≤ c.previousPcsPkw i) :
    max 0 (c.target math config input i).1 ≤ max 0 (c.previousPcsPkw i) := by
  rw [target]
  split
  case isFalse => exact max_le (le_max_left 0 _) (le_max_left 0 _)
  case isTrue hAvailable =>
    refine (c.unitTarget_spec math config input i).active.positivePart.trans ?_
    exact max_le_max_left 0 (rateLimit_le_previous (c.dtSec_pos config input) (h hAvailable))

theorem previous_le_target (i : Fin n)
    (h : (capability config input i).available → c.previousPcsPkw i ≤ c.pAllocated math config input i) :
    min 0 (c.previousPcsPkw i) ≤ min 0 (c.target math config input i).1 := by
  rw [target]
  split
  case isFalse => exact le_min (min_le_left 0 _) (min_le_left 0 _)
  case isTrue hAvailable =>
    refine le_trans ?_ (c.unitTarget_spec math config input i).active.negativePart
    exact min_le_min_left 0 (previous_le_rateLimit (c.dtSec_pos config input) (h hAvailable))

theorem sum_between (values : Fin n → K) :
    ∑ i, min 0 (values i) ≤ ∑ i, values i ∧ ∑ i, values i ≤ ∑ i, max 0 (values i) :=
  ⟨Finset.sum_le_sum fun _ _ => min_le_right 0 _, Finset.sum_le_sum fun _ _ => le_max_right 0 _⟩

theorem inside_of_targets (targets : Fin n → K) (hTargets : c.previousPcsPkw = targets)
    (hTotal : c.previousPkw = ∑ i, targets i) (hExport : ∑ i, max 0 (targets i) ≤ maxExport config)
    (hImport : -maxImport config ≤ ∑ i, min 0 (targets i)) : Inside config c := by
  obtain ⟨hLow, hHigh⟩ := sum_between targets
  refine ⟨?_, ?_, ?_, ?_⟩
  · rwa [hTargets]
  · rwa [hTargets]
  · rw [hTotal]
    exact hHigh.trans hExport
  · rw [hTotal]
    exact hImport.trans hLow

theorem inside_reset (lastCycleMs : Int) :
    Inside config { (reset : AgcAvcController K n) with lastCycleMs := lastCycleMs } := by
  apply inside_of_targets config _ (fun _ => 0) rfl
  · simp [reset]
  · simpa using maxExport_nonneg config
  · simpa using maxImport_nonneg config

theorem inside_zero (h : Inside config c) (immediate : Bool) :
    Inside config (c.setZeroAssignments config input immediate).1 := by
  have hDamped : ∀ i, Damped (c.zeroTargetP config input immediate i) (c.previousPcsPkw i) := by
    intro i
    cases immediate with
    | true => exact Damped.zero _
    | false => exact rateLimit_zero_damped (c.dtSec_pos config input)
  apply inside_of_targets config _ (c.zeroTargetP config input immediate) rfl rfl
  · exact (Finset.sum_le_sum fun i _ => (hDamped i).positivePart).trans h.export_le
  · exact h.import_ge.trans (Finset.sum_le_sum fun i _ => (hDamped i).negativePart)

omit [IsStrictOrderedRing K] in
theorem paused_between (i : Fin n) :
    let counted := (((input.pcs[i.val]?).bind fun runtime => if runtime.inputHealthy then some runtime else none).map
      (·.actualPkw)).getD 0
    min 0 ((c.pausedController input).previousPcsPkw i) ≤ counted ∧
      counted ≤ max 0 ((c.pausedController input).previousPcsPkw i) := by
  rw [pausedController]
  dsimp only
  cases (input.pcs[i.val]?).bind fun runtime => if runtime.inputHealthy then some runtime else none with
  | none => exact ⟨min_le_left 0 _, le_max_left 0 _⟩
  | some runtime => exact ⟨min_le_right 0 _, le_max_right 0 _⟩

theorem inside_paused (hExport : ∑ i, max 0 ((c.pausedController input).previousPcsPkw i) ≤ maxExport config)
    (hImport : -maxImport config ≤ ∑ i, min 0 ((c.pausedController input).previousPcsPkw i)) :
    Inside config (c.pausedController input) := by
  refine ⟨hExport, hImport, ?_, ?_⟩
  · exact (Finset.sum_le_sum fun i _ => (c.paused_between input i).2).trans hExport
  · exact hImport.trans (Finset.sum_le_sum fun i _ => (c.paused_between input i).1)

section Control

variable (hMin : config.agc.minKw ≤ 0) (hMax : 0 ≤ config.agc.maxKw)

include hMin hMax

theorem rampedP_inside (h : Inside config c) :
    -maxImport config ≤ c.rampedP math config input ∧ c.rampedP math config input ≤ maxExport config := by
  obtain ⟨hLow, hHigh⟩ := c.stationRequest_inside math config input hMin hMax
  have hDt := c.dtSec_pos config input
  have hFall : 0 ≤ max 0 config.agc.fallKwPerSec * c.dtSec config input := mul_nonneg (le_max_left 0 _) hDt.le
  have hRise : 0 ≤ max 0 config.agc.riseKwPerSec * c.dtSec config input := mul_nonneg (le_max_left 0 _) hDt.le
  constructor
  · exact (le_min hLow (h.total_ge.trans (le_add_of_nonneg_right hRise))).trans (rateLimit_ge hDt)
  · exact (rateLimit_le hDt).trans (max_le hHigh ((sub_le_self _ hFall).trans h.total_le))

theorem targets_export (h : Inside config c) (hRoom : LeavesRoom math config c input)
    (hControls : controls config input) :
    ∑ i, max 0 (c.target math config input i).1 ≤ maxExport config := by
  -- Where the shares bound the targets, the station target and what is held bound their sum.
  have hSum : ∑ i, max 0 (c.target math config input i).1 ≤
      max 0 (c.rampedP math config input) + ∑ i, c.heldAbove math config input i := by
    calc
      ∑ i, max 0 (c.target math config input i).1
          ≤ ∑ i, (max 0 (c.pAllocated math config input i) + c.heldAbove math config input i) :=
            Finset.sum_le_sum fun i _ => c.target_le math config input i
      _ = ∑ i, max 0 (c.pAllocated math config input i) + ∑ i, c.heldAbove math config input i :=
            Finset.sum_add_distrib
      _ ≤ _ := by linarith [(c.pAllocated_shares math config input).positive_sum_le]
  obtain hFree | hHeld | hFalling := hRoom.export_room hControls
  · rw [Finset.sum_eq_zero fun i _ => hFree i, add_zero] at hSum
    exact hSum.trans (max_le (maxExport_nonneg config) (c.rampedP_inside math config input hMin hMax h).2)
  · exact hSum.trans hHeld
  · refine (Finset.sum_le_sum fun i _ => ?_).trans h.export_le
    exact c.target_le_previous math config input i (hFalling i)

theorem targets_import (h : Inside config c) (hRoom : LeavesRoom math config c input)
    (hControls : controls config input) :
    -maxImport config ≤ ∑ i, min 0 (c.target math config input i).1 := by
  have hSum : min 0 (c.rampedP math config input) + ∑ i, c.heldBelow math config input i ≤
      ∑ i, min 0 (c.target math config input i).1 := by
    calc
      _ ≤ ∑ i, min 0 (c.pAllocated math config input i) + ∑ i, c.heldBelow math config input i := by
            linarith [(c.pAllocated_shares math config input).negative_sum_ge]
      _ = ∑ i, (min 0 (c.pAllocated math config input i) + c.heldBelow math config input i) :=
            Finset.sum_add_distrib.symm
      _ ≤ ∑ i, min 0 (c.target math config input i).1 :=
            Finset.sum_le_sum fun i _ => c.target_ge math config input i
  obtain hFree | hHeld | hRising := hRoom.import_room hControls
  · rw [Finset.sum_eq_zero fun i _ => hFree i, add_zero] at hSum
    refine le_trans ?_ hSum
    exact le_min (neg_nonpos.mpr (maxImport_nonneg config)) (c.rampedP_inside math config input hMin hMax h).1
  · exact hHeld.trans hSum
  · refine h.import_ge.trans (Finset.sum_le_sum fun i _ => ?_)
    exact c.previous_le_target math config input i (hRising i)

theorem inside_next (h : Inside config c) (hRoom : LeavesRoom math config c input) :
    Inside config (c.next math config input) := by
  rw [next]
  have hCase := c.step_cases math config input
  generalize c.step math config input = result at hCase ⊢
  cases hCase with
  | disabled => exact inside_reset config input.nowMs
  | zero immediate => exact inside_zero config c input h immediate
  | paused _ _ hPauses =>
    exact inside_paused config c input (hRoom.paused_export hPauses) (hRoom.paused_import hPauses)
  | control hControls =>
    apply inside_of_targets config _ (fun i => (c.target math config input i).1) rfl rfl
    · exact targets_export math config c input hMin hMax h hRoom hControls
    · exact targets_import math config c input hMin hMax h hRoom hControls

theorem stationLimited_of_inside (h : Inside config c) (hRoom : LeavesRoom math config c input) :
    StationLimited math config c input := by
  rw [StationLimited]
  intro hRuns
  obtain ⟨hControls, hStep⟩ := controls_of_runs hRuns
  rw [hStep]
  obtain ⟨hLow, hHigh⟩ := sum_between fun i => (c.target math config input i).1
  exact ⟨(targets_import math config c input hMin hMax h hRoom hControls).trans hLow,
    hHigh.trans (targets_export math config c input hMin hMax h hRoom hControls)⟩

end Control

/-- In a run from reset whose steps leave room, the targets together stay inside the station limits. -/
theorem stationLimited_throughout (hMin : config.agc.minKw ≤ 0) (hMax : 0 ≤ config.agc.maxKw)
    (inputs : List (AgcAvcCycleInput K))
    (hRoom : Run.Guarded (next math config) (LeavesRoom math config) reset inputs)
    (done : List (AgcAvcCycleInput K)) (input : AgcAvcCycleInput K) (hDone : done ++ [input] <+: inputs) :
    StationLimited math config (Run.after (next math config) reset done) input := by
  have hInside : Inside config (Run.after (next math config) reset done) :=
    Run.invariant (next math config) (Inside config) (inside_reset config 0)
      (fun c input h hStep => inside_next math config c input hMin hMax h hStep)
      (hRoom.before _ ((List.prefix_append done [input]).trans hDone))
  exact stationLimited_of_inside math config _ input hMin hMax hInside (hRoom done input hDone)

theorem leavesRoom_reset (hFree : pauses config input = false) : LeavesRoom math config reset input := by
  have hDt := (reset : AgcAvcController K n).dtSec_pos config input
  have hStart : ∀ i, (reset : AgcAvcController K n).previousPcsPkw i = 0 := fun _ => rfl
  refine ⟨fun _ => Or.inl fun i => ?_, fun _ => Or.inl fun i => ?_, ?_, ?_⟩
  · rw [heldAbove]
    split
    · apply max_eq_left
      have hFall := mul_nonneg (le_max_left 0 (config.pcs i).fallKwPerSec) hDt.le
      have hShare := le_max_left 0 ((reset : AgcAvcController K n).pAllocated math config input i)
      rw [hStart i]
      linarith
    · rfl
  · rw [heldBelow]
    split
    · apply min_eq_left
      have hRise := mul_nonneg (le_max_left 0 (config.pcs i).riseKwPerSec) hDt.le
      have hShare := min_le_left 0 ((reset : AgcAvcController K n).pAllocated math config input i)
      rw [hStart i]
      linarith
    · rfl
  · exact fun hPauses => absurd hPauses (by simp [hFree])
  · exact fun hPauses => absurd hPauses (by simp [hFree])

structure Regular (config : AgcAvcConfig K n) : Prop where
  export_pos : 0 < config.stationLimits.maxExportPowerKw
  import_pos : 0 < config.stationLimits.maxImportPowerKw
  min_nonpos : config.agc.minKw ≤ 0
  max_nonneg : 0 ≤ config.agc.maxKw
  rise_nonneg : 0 ≤ config.agc.riseKwPerSec
  fall_nonneg : 0 ≤ config.agc.fallKwPerSec
  unit_rise_nonneg : ∀ i, 0 ≤ (config.pcs i).riseKwPerSec
  unit_fall_nonneg : ∀ i, 0 ≤ (config.pcs i).fallKwPerSec

end AgcAvcController

section Sample

def slowFallUnit : AgcAvcPcsConfig K where
  meterCode := "PCS".toList
  enabled := true
  gridTieInverter := false
  weight := 1
  ratedActivePowerKw := ⟨100, false, .min⟩
  ratedApparentPowerKva := ⟨100, false, .min⟩
  ratedReactivePowerKvar := 0
  maxChargePowerKw := 100
  maxDischargePowerKw := 100
  minStableChargePowerKw := 0
  minStableDischargePowerKw := 0
  socDischargeStopPercent := 10
  socDischargeDeratePercent := 20
  socChargeDeratePercent := 80
  socChargeStopPercent := 90
  temperatureDerateStartC := 0
  temperatureStopC := 0
  currentDerateStartPercent := 0
  currentStopPercent := 0
  ratedAcCurrentA := 0
  riseKwPerSec := 1000
  fallKwPerSec := 10
  riseKvarPerSec := 1000
  fallKvarPerSec := 1000
  fallbackToStaticLimit := true

def slowFallStation (n : Nat) : AgcAvcConfig K n where
  enabled := true
  cycleMs := 1000
  avcCycleMs := 1000
  commandTimeoutMs := 10000
  pqPriority := .activePowerFirst
  stationLimits := ⟨100, 200, 100, 100, 100, 200⟩
  agc := ⟨true, 0, 0, 0, 0, 0, -100, 100, 1000, 1000, false, 50, 0, 0⟩
  avc := ⟨false, .reactivePower, 0, 0, 0, 0, 0, 0, 0, 0, -100, 100, 1000, 1000⟩
  pcs := fun _ => slowFallUnit

def runningUnit (online dischargeAllowed : Bool) : AgcAvcPcsRuntimeInput K where
  online := online
  ready := true
  chargeAllowed := true
  dischargeAllowed := dischargeAllowed
  inputHealthy := true
  soc := 50
  actualPkw := 0
  actualQkvar := 0
  availableChargeKw := none
  availableDischargeKw := none
  availableReactiveKvar := none
  collectedRatedActiveKw := none
  collectedRatedApparentKva := none
  temperatureC := none
  maxAcCurrentA := none

def dispatchCycle (nowMs : Int) (pcs : List (AgcAvcPcsRuntimeInput K)) : AgcAvcCycleInput K where
  nowMs := nowMs
  inputHealthy := true
  inputFailureReason := ""
  remoteEnable := true
  emergencyStop := false
  fireAlarm := false
  priorityBlocked := false
  pccActivePowerKw := 0
  pccReactivePowerKvar := 0
  pccVoltageV := 0
  pccPowerFactor := 1
  frequencyHz := none
  command := ⟨1, 1000, 100, 0, 0, 1, none⟩
  pcs := pcs

def oneRunning : AgcAvcCycleInput K := dispatchCycle 1000 [runningUnit true true, runningUnit false true]

def bothRunning : AgcAvcCycleInput K := dispatchCycle 2000 [runningUnit true true, runningUnit true true]

variable [IsStrictOrderedRing K] (math : CMath K)

open AgcAvcController

theorem slowFallStation_regular : Regular (slowFallStation n : AgcAvcConfig K n) := by
  constructor <;> norm_num [slowFallStation, slowFallUnit]

theorem capability_running (nowMs : Int) (pcs : List (AgcAvcPcsRuntimeInput K)) (i : Fin n) (online allowed : Bool)
    (h : pcs[i.val]? = some (runningUnit online allowed)) :
    capability (slowFallStation n) (dispatchCycle nowMs pcs) i =
      if online then ⟨true, 100, if allowed then 100 else 0, 100, 100⟩ else ⟨false, 0, 0, 0, 0⟩ := by
  cases online <;> cases allowed <;>
    norm_num [capability, slowFallStation, dispatchCycle, h, runningUnit, AgcAvcPcsConfig.capability, slowFallUnit,
      effectiveCapability, AgcAvcPcsConfig.directionLimit, positiveLimit, risingDerateFactor, fallingDerateFactor,
      clampValue, AgcAvcPcsConfig.environmentalFactor]

section Dispatch

variable (c : AgcAvcController K n) (nowMs : Int) (pcs : List (AgcAvcPcsRuntimeInput K))

theorem stationRequest_dispatch : c.stationRequest math (slowFallStation n) (dispatchCycle nowMs pcs) = (100, 0) := by
  norm_num [stationRequest, requestP, requestQ, slowFallStation, dispatchCycle, deadband, clampValue, maxExport,
    maxImport, stationQ, positiveLimit, apparentLimit, applyPqEnvelope]

theorem rampedP_dispatch (hDt : c.dtSec (slowFallStation n) (dispatchCycle nowMs pcs) = 1)
    (hLow : 0 ≤ c.previousPkw) (hHigh : c.previousPkw ≤ 100) :
    c.rampedP math (slowFallStation n) (dispatchCycle nowMs pcs) = 100 := by
  rw [rampedP, stationRequest_dispatch, hDt]
  have hUp : 100 ≤ c.previousPkw + 1000 := by linarith
  have hDown : c.previousPkw - 1000 ≤ 100 := by linarith
  norm_num [rateLimit, slowFallStation, hUp, hDown]

theorem qAllocated_dispatch (hDt : c.dtSec (slowFallStation n) (dispatchCycle nowMs pcs) = 1)
    (hPrevious : c.previousQkvar = 0) :
    c.qAllocated math (slowFallStation n) (dispatchCycle nowMs pcs) = fun _ => 0 := by
  rw [qAllocated, rampedQ, stationRequest_dispatch, hDt, hPrevious]
  norm_num [rateLimit, slowFallStation, allocateByCapacity]

omit [IsStrictOrderedRing K] in
theorem step_dispatch (hNow : nowMs < 11000) (hLater : 0 ≤ nowMs) :
    c.step math (slowFallStation n) (dispatchCycle nowMs pcs) =
      c.controlStep math (slowFallStation n) (dispatchCycle nowMs pcs) := by
  have hFresh : commandFresh (slowFallStation n : AgcAvcConfig K n) (dispatchCycle nowMs pcs) = true := by
    simp [commandFresh, commandAgeMs, dispatchCycle, slowFallStation]
    omega
  simp [step, slowFallStation, dispatchCycle] at hFresh ⊢
  simp [hFresh]

end Dispatch

theorem capability_bothRunning (i : Fin 2) :
    capability (slowFallStation 2) (bothRunning : AgcAvcCycleInput K) i = ⟨true, 100, 100, 100, 100⟩ := by
  refine (capability_running _ _ i true true ?_).trans (if_pos rfl)
  fin_cases i <;> rfl

theorem capability_oneRunning (i : Fin 2) :
    capability (slowFallStation 2) (oneRunning : AgcAvcCycleInput K) i =
      ![⟨true, 100, 100, 100, 100⟩, ⟨false, 0, 0, 0, 0⟩] i := by
  fin_cases i
  · exact (capability_running 1000 _ 0 true true rfl).trans (if_pos rfl)
  · exact (capability_running 1000 _ 1 false true rfl).trans (if_neg Bool.false_ne_true)

section Divided

variable (c : AgcAvcController K 2)

theorem pAllocated_oneRunning (hRamped : c.rampedP math (slowFallStation 2) oneRunning = 100) :
    c.pAllocated math (slowFallStation 2) oneRunning = ![100, 0] := by
  have hSelected : c.selectedP math (slowFallStation 2) oneRunning = ![100, 0] := by
    funext i
    rw [selectedP, hRamped, capability_oneRunning]
    fin_cases i <;> norm_num
  have hWeights : c.weights math (slowFallStation 2) oneRunning = ![100, 0] := by
    funext i
    rw [weights, hSelected, capability_oneRunning]
    fin_cases i <;> norm_num [slowFallStation, slowFallUnit]
  have hMinimum : c.pMinimum math (slowFallStation 2) oneRunning = fun _ => 0 := by
    funext i
    rw [pMinimum, hRamped, capability_oneRunning]
    fin_cases i <;> norm_num [slowFallStation, slowFallUnit]
  have hDivided : allocateByCapacity ![(100 : K), 0] ![100, 0] 100 = ![100, 0] := by
    funext i
    fin_cases i <;>
      norm_num [allocateByCapacity, allocateLoop, Share.weightSum, Share.applied, Share.room, Fin.sum_univ_two]
  rw [pAllocated, hSelected, hWeights, hRamped, hMinimum]
  norm_num [allocateWithMinimum, minimumLoop, hDivided, belowMinimum, List.finRange_succ]

theorem pAllocated_bothRunning (hRamped : c.rampedP math (slowFallStation 2) bothRunning = 100) :
    c.pAllocated math (slowFallStation 2) bothRunning = fun _ => 50 := by
  have hSelected : c.selectedP math (slowFallStation 2) bothRunning = fun _ => 100 := by
    funext i
    rw [selectedP, hRamped, capability_bothRunning]
    norm_num
  have hWeights : c.weights math (slowFallStation 2) bothRunning = fun _ => 100 := by
    funext i
    rw [weights, hSelected, capability_bothRunning]
    norm_num [slowFallStation, slowFallUnit]
  have hMinimum : c.pMinimum math (slowFallStation 2) bothRunning = fun _ => 0 := by
    funext i
    rw [pMinimum, hRamped, capability_bothRunning]
    norm_num [slowFallStation, slowFallUnit]
  have hDivided : allocateByCapacity (fun _ : Fin 2 => (100 : K)) (fun _ => 100) 100 = fun _ => 50 := by
    norm_num [allocateByCapacity, allocateLoop, Share.weightSum, Share.applied, Share.room]
  rw [pAllocated, hSelected, hWeights, hRamped, hMinimum]
  norm_num [allocateWithMinimum, minimumLoop, hDivided, belowMinimum, List.finRange_succ]

end Divided

theorem dtSec_oneRunning : (reset : AgcAvcController K 2).dtSec (slowFallStation 2) oneRunning = 1 := by
  norm_num [dtSec, reset, slowFallStation]

theorem target_oneRunning (i : Fin 2) :
    (reset : AgcAvcController K 2).target math (slowFallStation 2) oneRunning i = (![100, 0] i, 0) := by
  have hDt := dtSec_oneRunning (K := K)
  have hRamped : (reset : AgcAvcController K 2).rampedP math (slowFallStation 2) oneRunning = 100 :=
    rampedP_dispatch math reset _ _ hDt le_rfl (by norm_num [reset])
  have hQ : (reset : AgcAvcController K 2).qAllocated math (slowFallStation 2) oneRunning = fun _ => 0 :=
    qAllocated_dispatch math reset _ _ hDt rfl
  rw [target, unitTarget, pAllocated_oneRunning math reset hRamped, hQ, hDt, capability_oneRunning]
  fin_cases i <;> norm_num [rateLimit, slowFallStation, slowFallUnit, applyPqEnvelope, reset]

structure CarriedByOne (c : AgcAvcController K 2) : Prop where
  cycle : c.lastCycleMs = 1000
  activePower : c.previousPkw = 100
  reactivePower : c.previousQkvar = 0
  unitP : c.previousPcsPkw = ![100, 0]
  unitQ : c.previousPcsQkvar = fun _ => 0

theorem carried_oneRunning :
    CarriedByOne (Run.after (next math (slowFallStation 2)) (reset : AgcAvcController K 2) [oneRunning]) := by
  rw [Run.after_cons, Run.after_nil, next, oneRunning, step_dispatch math reset 1000 _ (by decide) (by decide),
    ← oneRunning]
  refine ⟨rfl, ?_, ?_, ?_, ?_⟩
  · simp [controlStep, deliveredP, target_oneRunning]
  · simp [controlStep, deliveredQ, target_oneRunning]
  · funext i
    simp [controlStep, target_oneRunning]
  · funext i
    simp [controlStep, target_oneRunning]

theorem target_bothRunning {c : AgcAvcController K 2} (h : CarriedByOne c) (i : Fin 2) :
    c.target math (slowFallStation 2) bothRunning i = (![90, 50] i, 0) := by
  have hDt : c.dtSec (slowFallStation 2) bothRunning = 1 := by
    norm_num [dtSec, h.cycle, bothRunning, dispatchCycle]
  have hRamped : c.rampedP math (slowFallStation 2) bothRunning = 100 :=
    rampedP_dispatch math c _ _ hDt (by norm_num [h.activePower]) h.activePower.le
  have hQ : c.qAllocated math (slowFallStation 2) bothRunning = fun _ => 0 :=
    qAllocated_dispatch math c _ _ hDt h.reactivePower
  rw [target, unitTarget, pAllocated_bothRunning math c hRamped, hQ, hDt, capability_bothRunning, h.unitP, h.unitQ]
  fin_cases i <;> norm_num [rateLimit, slowFallStation, slowFallUnit, applyPqEnvelope]

theorem one_unit_stays_inside :
    ((reset : AgcAvcController ℝ 2).step realMath (slowFallStation 2) oneRunning).2.runs ∧
      StationLimited realMath (slowFallStation 2) (reset : AgcAvcController ℝ 2) oneRunning := by
  have hRoom : LeavesRoom realMath (slowFallStation 2) (reset : AgcAvcController ℝ 2) oneRunning :=
    leavesRoom_reset realMath _ _ (by simp [pauses, oneRunning, dispatchCycle])
  constructor
  · rw [oneRunning, step_dispatch realMath reset 1000 _ (by decide) (by decide)]
    exact controlStep_runs _ _ _ _
  · exact stationLimited_throughout realMath (slowFallStation 2) slowFallStation_regular.min_nonpos
      slowFallStation_regular.max_nonneg [oneRunning]
      ((Run.guarded_cons _ _ _ _ _).mpr ⟨hRoom, Run.guarded_nil _ _ _⟩) [] oneRunning (List.prefix_refl _)

/-- The unit that carried the station comes down by 10 kW while the other takes its share at once. -/
theorem slow_unit_breaks_export :
    Regular (slowFallStation 2 : AgcAvcConfig ℝ 2) ∧
      ¬StationLimited realMath (slowFallStation 2)
        (Run.after (next realMath (slowFallStation 2)) reset [oneRunning]) bothRunning := by
  refine ⟨slowFallStation_regular, fun hLimited => ?_⟩
  have hCarried := carried_oneRunning realMath
  generalize Run.after (next realMath (slowFallStation 2)) reset [oneRunning] = c at hLimited hCarried
  have hStep : c.step realMath (slowFallStation 2) bothRunning =
      c.controlStep realMath (slowFallStation 2) bothRunning :=
    step_dispatch realMath c 2000 _ (by decide) (by decide)
  rw [StationLimited] at hLimited
  rw [hStep] at hLimited
  have hTotal : (c.controlStep realMath (slowFallStation 2) bothRunning).2.totalTargetPkw = 140 := by
    change ∑ i, (c.target realMath (slowFallStation 2) bothRunning i).1 = 140
    norm_num [target_bothRunning realMath hCarried, Fin.sum_univ_two]
  have hExport := (hLimited (c.controlStep_runs realMath (slowFallStation 2) bothRunning)).2
  rw [hTotal] at hExport
  norm_num [maxExport, positiveLimit, slowFallStation] at hExport

end Sample

end EdgeGateway.AgcAvc
