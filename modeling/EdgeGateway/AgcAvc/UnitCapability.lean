import EdgeGateway.AgcAvc.StationLimit

/-! # The capability of a unit over a run

A share never exceeds what its unit can do, but the ramp is applied after it and starts from the
last target, and the capability may have shrunk since.
-/

namespace EdgeGateway.AgcAvc

universe u

variable {K : Type u} [Field K] [LinearOrder K] {n : Nat}

structure AgcAvcValidationIssue where
  severity : String
  path : String
  message : String
deriving DecidableEq, Repr

def errorIf (failed : Prop) [Decidable failed] (path message : String) : List AgcAvcValidationIssue :=
  if failed then [⟨"error", path, message⟩] else []

def AgcAvcPcsConfig.validate (pcs : AgcAvcPcsConfig K) (path : String) : List AgcAvcValidationIssue :=
  let ratedP := pcs.ratedActivePowerKw.commissionedLimit
  let ratedS := pcs.ratedApparentPowerKva.commissionedLimit
  errorIf (pcs.meterCode = []) (path ++ ".meterCode") "meterCode is required" ++
  errorIf (ratedP ≤ 0 ∨ ratedS ≤ 0 ∨ ratedP > ratedS) path "rated active/apparent power is invalid" ++
  errorIf (pcs.minStableChargePowerKw > pcs.maxChargePowerKw ∨
      pcs.minStableDischargePowerKw > pcs.maxDischargePowerKw) path "minimum stable power exceeds maximum power" ++
  errorIf (pcs.socDischargeStopPercent < 0 ∨ pcs.socDischargeStopPercent > pcs.socDischargeDeratePercent ∨
      pcs.socDischargeDeratePercent > pcs.socChargeDeratePercent ∨
      pcs.socChargeDeratePercent > pcs.socChargeStopPercent ∨ pcs.socChargeStopPercent > 100) path
    "SOC stop and derating thresholds must be ordered within 0..100" ++
  errorIf ((pcs.temperatureStopC > 0 ∧ pcs.temperatureStopC ≤ pcs.temperatureDerateStartC) ∨
      (pcs.currentStopPercent > 0 ∧ pcs.currentStopPercent ≤ pcs.currentDerateStartPercent)) path
    "temperature/current stop threshold must exceed its derating threshold"

def AgcAvcConfig.validate (config : AgcAvcConfig K n) : List AgcAvcValidationIssue :=
  if !config.enabled then []
  else
    errorIf (config.cycleMs < 50 ∨ config.cycleMs > 60000) "agcAvc.cycleMs" "cycleMs must be between 50 and 60000" ++
    errorIf (config.commandTimeoutMs < config.cycleMs * 2) "agcAvc.commandTimeoutMs"
      "command timeout must cover at least two control cycles" ++
    errorIf (config.avcCycleMs < config.cycleMs ∨ config.avcCycleMs > 60000) "agcAvc.avcCycleMs"
      "AVC cycle must be at least the AGC cycle and not exceed 60000 ms" ++
    errorIf (config.stationLimits.ratedActivePowerKw ≤ 0 ∨ config.stationLimits.ratedApparentPowerKva ≤ 0)
      "agcAvc.stationLimits" "station rated active and apparent power must be positive" ++
    errorIf (config.stationLimits.ratedActivePowerKw > config.stationLimits.ratedApparentPowerKva)
      "agcAvc.stationLimits" "station rated active power cannot exceed apparent power" ++
    errorIf (n = 0) "agcAvc.pcs" "at least one PCS or inverter is required" ++
    (List.finRange n).flatMap fun i => (config.pcs i).validate ("agcAvc.pcs[" ++ toString i.val ++ "]")

def AgcAvcConfig.Accepted (config : AgcAvcConfig K n) : Prop :=
  ∀ issue ∈ config.validate, issue.severity ≠ "error"

theorem errorIf_passed {failed : Prop} [Decidable failed] {path message : String}
    (h : ∀ issue ∈ errorIf failed path message, issue.severity ≠ "error") : ¬failed := by
  intro hFailed
  refine h ⟨"error", path, message⟩ ?_ rfl
  simp [errorIf, hFailed]

theorem AgcAvcConfig.Accepted.rated_pos {config : AgcAvcConfig K n} (h : config.Accepted)
    (hEnabled : config.enabled) (i : Fin n) : 0 < (config.pcs i).ratedApparentPowerKva.commissionedLimit := by
  have hUnit : ∀ issue ∈ (config.pcs i).validate ("agcAvc.pcs[" ++ toString i.val ++ "]"),
      issue.severity ≠ "error" := by
    intro issue hIssue
    apply h
    simp only [validate, hEnabled, Bool.not_true, Bool.false_eq_true, if_false, List.mem_append, List.mem_flatMap]
    exact Or.inr ⟨i, List.mem_finRange i, hIssue⟩
  have hRated := errorIf_passed fun issue hIssue => hUnit issue (by
    simp only [AgcAvcPcsConfig.validate, List.mem_append]
    exact Or.inl (Or.inl (Or.inl (Or.inr hIssue))))
  exact not_le.mp fun hLe => hRated (Or.inr (Or.inl hLe))

namespace AgcAvcController

variable (math : CMath K) (config : AgcAvcConfig K n) (c : AgcAvcController K n) (input : AgcAvcCycleInput K)

structure UnitInside (runtime : Option (AgcAvcPcsRuntimeInput K)) (s : K) (assignment : AgcAvcPcsAssignment K) :
    Prop where
  charge : -assignment.availableChargeKw ≤ assignment.targetPkw
  discharge : assignment.targetPkw ≤ assignment.availableDischargeKw
  reactive : |assignment.targetQkvar| ≤ min assignment.availableReactiveKvar s
  circle : assignment.targetPkw * assignment.targetPkw + assignment.targetQkvar * assignment.targetQkvar ≤
    s * s + 1 / 10 ^ 9
  no_discharge : ∀ unit ∈ runtime, unit.dischargeAllowed = false → assignment.targetPkw ≤ 0
  no_charge : ∀ unit ∈ runtime, unit.chargeAllowed = false → 0 ≤ assignment.targetPkw

def UnitsCapable : Prop :=
  (c.step math config input).2.runs →
    ∃ assignments, (c.step math config input).2.pcs = some assignments ∧
      ∀ i, (assignments i).available →
        UnitInside input.pcs[i.val]? (capability config input i).ratedApparent (assignments i)

structure RampReaches (i : Fin n) : Prop where
  discharge : c.previousPcsPkw i - max 0 (config.pcs i).fallKwPerSec * c.dtSec config input ≤
    (capability config input i).discharge
  charge : -(capability config input i).charge ≤
    c.previousPcsPkw i + max 0 (config.pcs i).riseKwPerSec * c.dtSec config input
  reactive_high : c.previousPcsQkvar i - max 0 (config.pcs i).fallKvarPerSec * c.dtSec config input ≤
    qCapacity config input i
  reactive_low : -qCapacity config input i ≤
    c.previousPcsQkvar i + max 0 (config.pcs i).riseKvarPerSec * c.dtSec config input

def RampsReach : Prop :=
  controls config input → ∀ i, (capability config input i).available → RampReaches config c input i

end AgcAvcController

section Capability

variable [IsStrictOrderedRing K]

theorem clampValue_unit_nonneg (value : K) : 0 ≤ clampValue value 0 1 := (clampValue_mem zero_le_one value).1

theorem risingDerateFactor_nonneg (value stop full : K) : 0 ≤ risingDerateFactor value stop full := by
  rw [risingDerateFactor]
  split
  · exact zero_le_one
  · exact clampValue_unit_nonneg _

theorem fallingDerateFactor_nonneg (value full stop : K) : 0 ≤ fallingDerateFactor value full stop := by
  rw [fallingDerateFactor]
  split
  · exact zero_le_one
  · exact clampValue_unit_nonneg _

omit [IsStrictOrderedRing K] in
theorem effectiveCapability_cases (config : AgcAvcCapabilityValueConfig K) (collected : Option K) :
    effectiveCapability config collected = max 0 config.commissionedLimit ∨
      ∃ value, 0 < value ∧ (effectiveCapability config collected = value ∨
        effectiveCapability config collected = min (max 0 config.commissionedLimit) value) := by
  unfold effectiveCapability
  cases collected with
  | none => exact .inl rfl
  | some collected =>
    dsimp only
    split
    · exact .inl rfl
    case isFalse hUsed =>
      have hPositive : 0 < collected := by simp_all
      right
      refine ⟨collected, hPositive, ?_⟩
      split
      · exact .inl rfl
      split
      · exact .inl rfl
      · exact .inr rfl

omit [IsStrictOrderedRing K] in
theorem effectiveCapability_nonneg (config : AgcAvcCapabilityValueConfig K) (collected : Option K) :
    0 ≤ effectiveCapability config collected := by
  have hCommissioned : 0 ≤ max 0 config.commissionedLimit := le_max_left 0 _
  obtain h | ⟨value, hPositive, h | h⟩ := effectiveCapability_cases config collected
  · exact hCommissioned.trans_eq h.symm
  · exact hPositive.le.trans_eq h.symm
  · exact (le_min hCommissioned hPositive.le).trans_eq h.symm

omit [IsStrictOrderedRing K] in
theorem effectiveCapability_pos {config : AgcAvcCapabilityValueConfig K} (h : 0 < config.commissionedLimit)
    (collected : Option K) : 0 < effectiveCapability config collected := by
  have hCommissioned : 0 < max 0 config.commissionedLimit := lt_max_of_lt_right h
  obtain h | ⟨value, hPositive, h | h⟩ := effectiveCapability_cases config collected
  · exact hCommissioned.trans_eq h.symm
  · exact hPositive.trans_eq h.symm
  · exact (lt_min hCommissioned hPositive).trans_eq h.symm

namespace AgcAvcPcsConfig

variable (config : AgcAvcPcsConfig K)

theorem environmentalFactor_nonneg (runtime : AgcAvcPcsRuntimeInput K) : 0 ≤ config.environmentalFactor runtime := by
  unfold environmentalFactor
  extract_lets warm
  have hWarm : 0 ≤ warm := by
    dsimp only [warm]
    split
    · exact le_min zero_le_one (fallingDerateFactor_nonneg _ _ _)
    · exact zero_le_one
  split
  · split
    · exact le_min hWarm (fallingDerateFactor_nonneg _ _ _)
    · exact hWarm
  · exact hWarm

omit [IsStrictOrderedRing K] in
theorem directionLimit_nonneg {ratedP : K} (hRated : 0 ≤ ratedP) (configured : K) (reported : Option K)
    (allowed : Bool) : 0 ≤ config.directionLimit ratedP configured reported allowed := by
  have hLimit : 0 ≤ min ratedP (positiveLimit configured ratedP) := le_min hRated (positiveLimit_nonneg _ _)
  unfold directionLimit
  dsimp only
  split
  · split
    · exact le_min hLimit (le_max_left 0 _)
    · split
      · exact le_rfl
      · exact hLimit
  · exact le_rfl

omit [IsStrictOrderedRing K] in
theorem directionLimit_forbidden (ratedP configured : K) (reported : Option K) :
    config.directionLimit ratedP configured reported false = 0 := rfl

structure Capable (runtime : Option (AgcAvcPcsRuntimeInput K)) (capability : PcsCapability K) : Prop where
  charge_nonneg : 0 ≤ capability.charge
  discharge_nonneg : 0 ≤ capability.discharge
  reactive_nonneg : 0 ≤ capability.reactive
  rated_nonneg : 0 ≤ capability.ratedApparent
  no_discharge : ∀ unit ∈ runtime, unit.dischargeAllowed = false → capability.discharge = 0
  no_charge : ∀ unit ∈ runtime, unit.chargeAllowed = false → capability.charge = 0

theorem capability_capable (runtime : Option (AgcAvcPcsRuntimeInput K)) :
    Capable runtime (config.capability runtime) := by
  unfold capability
  cases runtime with
  | none => exact ⟨le_rfl, le_rfl, le_rfl, le_rfl, fun _ _ _ => rfl, fun _ _ _ => rfl⟩
  | some runtime =>
    dsimp only
    split
    case isFalse => exact ⟨le_rfl, le_rfl, le_rfl, le_rfl, fun _ _ _ => rfl, fun _ _ _ => rfl⟩
    case isTrue =>
      have hRated := effectiveCapability_nonneg config.ratedActivePowerKw runtime.collectedRatedActiveKw
      have hFactor := config.environmentalFactor_nonneg runtime
      refine ⟨?_, ?_, ?_, effectiveCapability_nonneg _ _, ?_, ?_⟩
      · refine mul_nonneg ?_ hFactor
        split
        · exact config.directionLimit_nonneg hRated _ _ _
        · exact mul_nonneg (config.directionLimit_nonneg hRated _ _ _) (fallingDerateFactor_nonneg _ _ _)
      · refine mul_nonneg ?_ hFactor
        split
        · exact config.directionLimit_nonneg hRated _ _ _
        · exact mul_nonneg (config.directionLimit_nonneg hRated _ _ _) (risingDerateFactor_nonneg _ _ _)
      · refine mul_nonneg ?_ hFactor
        split
        · exact le_min (positiveLimit_nonneg _ _) (le_max_left 0 _)
        · exact positiveLimit_nonneg _ _
      · intro unit hUnit hForbidden
        obtain rfl := Option.some.inj hUnit
        dsimp only
        rw [hForbidden, directionLimit_forbidden]
        simp
      · intro unit hUnit hForbidden
        obtain rfl := Option.some.inj hUnit
        dsimp only
        rw [hForbidden, directionLimit_forbidden]
        simp

omit [IsStrictOrderedRing K] in
theorem capability_rated_pos (h : 0 < config.ratedApparentPowerKva.commissionedLimit)
    (runtime : Option (AgcAvcPcsRuntimeInput K)) (hAvailable : (config.capability runtime).available) :
    0 < (config.capability runtime).ratedApparent := by
  unfold capability at hAvailable ⊢
  cases runtime with
  | none => exact absurd hAvailable Bool.false_ne_true
  | some runtime =>
    dsimp only at hAvailable ⊢
    split at hAvailable
    case isTrue hReady =>
      rw [if_pos hReady]
      exact effectiveCapability_pos h _
    case isFalse => exact absurd hAvailable Bool.false_ne_true

end AgcAvcPcsConfig

end Capability

namespace AgcAvcController

variable (math : CMath K) (config : AgcAvcConfig K n) (c : AgcAvcController K n) (input : AgcAvcCycleInput K)

variable [IsStrictOrderedRing K]

theorem capability_capable (i : Fin n) :
    AgcAvcPcsConfig.Capable input.pcs[i.val]? (capability config input i) :=
  (config.pcs i).capability_capable input.pcs[i.val]?

theorem pAllocated_capped (i : Fin n) :
    -(capability config input i).charge ≤ c.pAllocated math config input i ∧
      c.pAllocated math config input i ≤ (capability config input i).discharge := by
  have hShares := c.pAllocated_shares math config input
  have hCapable := capability_capable config input i
  have hCapped := hShares.capped i
  obtain hSign | hSign := le_total 0 (c.rampedP math config input)
  · have hSelected : c.selectedP math config input i = (capability config input i).discharge := if_pos hSign
    rw [hSelected, max_eq_right hCapable.discharge_nonneg] at hCapped
    refine ⟨?_, (le_abs_self _).trans hCapped⟩
    exact (neg_nonpos.mpr hCapable.charge_nonneg).trans (hShares.nonneg hSign i)
  · refine ⟨?_, (hShares.nonpos hSign i).trans hCapable.discharge_nonneg⟩
    obtain hZero | hNegative := hSign.eq_or_lt
    · -- At zero nothing is given out in either direction.
      exact (neg_nonpos.mpr hCapable.charge_nonneg).trans (hShares.nonneg hZero.ge i)
    · have hSelected : c.selectedP math config input i = (capability config input i).charge :=
        if_neg (not_le.mpr hNegative)
      rw [hSelected, max_eq_right hCapable.charge_nonneg] at hCapped
      exact (neg_le_neg hCapped).trans (neg_abs_le _)

theorem qCapacity_nonneg (i : Fin n) : 0 ≤ qCapacity config input i :=
  le_min (capability_capable config input i).reactive_nonneg (capability_capable config input i).rated_nonneg

theorem qAllocated_capped (i : Fin n) : |c.qAllocated math config input i| ≤ qCapacity config input i := by
  have hAfterP : c.qAfterP math config input i ≤ qCapacity config input i := min_le_left _ _
  exact ((c.qAllocated_shares math config input).capped i).trans (max_le (qCapacity_nonneg config input i) hAfterP)

theorem unitInside_of_reach {i : Fin n} (hRated : 0 < (capability config input i).ratedApparent)
    (hAvailable : (capability config input i).available) (hReach : RampReaches config c input i) :
    UnitInside input.pcs[i.val]? (capability config input i).ratedApparent (c.assignment math config input i) := by
  have hDt := c.dtSec_pos config input
  have hCapable := capability_capable config input i
  have hSpec := c.unitTarget_spec math config input i
  have hTarget : c.target math config input i = c.unitTarget math config input i := if_pos hAvailable
  obtain ⟨hShareLow, hShareHigh⟩ := c.pAllocated_capped math config input i
  obtain ⟨hReactiveLow, hReactiveHigh⟩ := abs_le.mp (c.qAllocated_capped math config input i)
  have hCharge : -(capability config input i).charge ≤ (c.target math config input i).1 := by
    rw [hTarget]
    apply hSpec.active.ge (neg_nonpos.mpr hCapable.charge_nonneg)
    exact (le_min hShareLow hReach.charge).trans (rateLimit_ge hDt)
  have hDischarge : (c.target math config input i).1 ≤ (capability config input i).discharge := by
    rw [hTarget]
    apply hSpec.active.le hCapable.discharge_nonneg
    exact (rateLimit_le hDt).trans (max_le hShareHigh hReach.discharge)
  refine ⟨hCharge, hDischarge, ?_, ?_, ?_, ?_⟩
  · change |(c.target math config input i).2| ≤ qCapacity config input i
    rw [hTarget]
    apply abs_le.mpr
    constructor
    · apply hSpec.reactive.ge (neg_nonpos.mpr (qCapacity_nonneg config input i))
      exact (le_min hReactiveLow hReach.reactive_low).trans (rateLimit_ge hDt)
    · apply hSpec.reactive.le (qCapacity_nonneg config input i)
      exact (rateLimit_le hDt).trans (max_le hReactiveHigh hReach.reactive_high)
  · change (c.target math config input i).1 * (c.target math config input i).1 +
      (c.target math config input i).2 * (c.target math config input i).2 ≤ _
    rw [hTarget]
    exact hSpec.circle hRated
  · intro unit hUnit hForbidden
    rw [hCapable.no_discharge unit hUnit hForbidden] at hDischarge
    exact hDischarge
  · intro unit hUnit hForbidden
    rw [hCapable.no_charge unit hUnit hForbidden, neg_zero] at hCharge
    exact hCharge

theorem unitsCapable_of_reach (hAccepted : config.Accepted) (hReach : RampsReach config c input) :
    UnitsCapable math config c input := by
  rw [UnitsCapable]
  intro hRuns
  obtain ⟨hControls, hStep⟩ := controls_of_runs hRuns
  rw [hStep]
  refine ⟨c.assignment math config input, rfl, fun i hAvailable => ?_⟩
  have hEnabled : config.enabled := by
    have hAll := hControls
    simp only [controls, Bool.and_eq_true] at hAll
    exact hAll.1.1.1.1
  have hRated := (config.pcs i).capability_rated_pos (hAccepted.rated_pos hEnabled i) _ hAvailable
  exact unitInside_of_reach math config c input hRated hAvailable (hReach hControls i hAvailable)

/-- In a run whose ramps reach the capability of every cycle, every unit stays inside its own. -/
theorem unitsCapable_throughout (hAccepted : config.Accepted) (start : AgcAvcController K n)
    (inputs : List (AgcAvcCycleInput K))
    (hReach : Run.Guarded (next math config) (RampsReach config) start inputs)
    (done : List (AgcAvcCycleInput K)) (input : AgcAvcCycleInput K) (hDone : done ++ [input] <+: inputs) :
    UnitsCapable math config (Run.after (next math config) start done) input :=
  unitsCapable_of_reach math config _ input hAccepted (hReach done input hDone)

end AgcAvcController

section Sample

open AgcAvcController

theorem slowFallStation_accepted : (slowFallStation 2 : AgcAvcConfig ℝ 2).Accepted := by
  have hName : "PCS".toList ≠ [] := by decide
  have hUnit : ∀ path, (slowFallUnit : AgcAvcPcsConfig ℝ).validate path = [] := by
    intro path
    unfold AgcAvcPcsConfig.validate slowFallUnit
    norm_num [errorIf, hName]
  have hIssues : (slowFallStation 2 : AgcAvcConfig ℝ 2).validate = [] := by
    norm_num [AgcAvcConfig.validate, errorIf, slowFallStation, hUnit]
  intro issue hIssue
  rw [hIssues] at hIssue
  exact absurd hIssue List.not_mem_nil

theorem units_capable_from_reset :
    ((reset : AgcAvcController ℝ 2).step realMath (slowFallStation 2) oneRunning).2.runs ∧
      UnitsCapable realMath (slowFallStation 2) (reset : AgcAvcController ℝ 2) oneRunning := by
  have hReach : RampsReach (slowFallStation 2) (reset : AgcAvcController ℝ 2) oneRunning := by
    intro _ i _
    have hDt := (reset : AgcAvcController ℝ 2).dtSec_pos (slowFallStation 2) oneRunning
    have hCapable := capability_capable (slowFallStation 2) (oneRunning : AgcAvcCycleInput ℝ) i
    have hReactive := qCapacity_nonneg (slowFallStation 2) (oneRunning : AgcAvcCycleInput ℝ) i
    have hStep : ∀ rate : ℝ, 0 ≤ max 0 rate * (reset : AgcAvcController ℝ 2).dtSec (slowFallStation 2) oneRunning :=
      fun rate => mul_nonneg (le_max_left 0 rate) hDt.le
    refine ⟨?_, ?_, ?_, ?_⟩
    · exact (sub_nonpos.mpr (hStep _)).trans hCapable.discharge_nonneg
    · exact (neg_nonpos.mpr hCapable.charge_nonneg).trans (add_nonneg le_rfl (hStep _))
    · exact (sub_nonpos.mpr (hStep _)).trans hReactive
    · exact (neg_nonpos.mpr hReactive).trans (add_nonneg le_rfl (hStep _))
  constructor
  · rw [oneRunning, step_dispatch realMath reset 1000 _ (by decide) (by decide)]
    exact controlStep_runs _ _ _ _
  · exact unitsCapable_throughout realMath (slowFallStation 2) slowFallStation_accepted reset [oneRunning]
      ((Run.guarded_cons _ _ _ _ _).mpr ⟨hReach, Run.guarded_nil _ _ _⟩) [] oneRunning (List.prefix_refl _)

noncomputable def dischargeForbidden : AgcAvcCycleInput ℝ :=
  dispatchCycle 2000 [runningUnit true false, runningUnit false true]

theorem capability_dischargeForbidden :
    capability (slowFallStation 2) dischargeForbidden 0 = ⟨true, 100, 0, 100, 100⟩ :=
  (capability_running 2000 _ 0 true false rfl).trans (if_pos rfl)

theorem target_dischargeForbidden {c : AgcAvcController ℝ 2} (h : CarriedByOne c) :
    c.target realMath (slowFallStation 2) dischargeForbidden 0 = (90, 0) := by
  have hDt : c.dtSec (slowFallStation 2) dischargeForbidden = 1 := by
    norm_num [dtSec, h.cycle, dischargeForbidden, dispatchCycle]
  have hRamped : c.rampedP realMath (slowFallStation 2) dischargeForbidden = 100 :=
    rampedP_dispatch realMath c _ _ hDt (by norm_num [h.activePower]) h.activePower.le
  have hQ : c.qAllocated realMath (slowFallStation 2) dischargeForbidden = fun _ => 0 :=
    qAllocated_dispatch realMath c _ _ hDt h.reactivePower
  have hCapability := capability_dischargeForbidden
  have hShare : c.pAllocated realMath (slowFallStation 2) dischargeForbidden 0 = 0 := by
    apply le_antisymm
    · have hCapped := (c.pAllocated_capped realMath (slowFallStation 2) dischargeForbidden 0).2
      rwa [hCapability] at hCapped
    · apply (c.pAllocated_shares realMath (slowFallStation 2) dischargeForbidden).nonneg
      rw [hRamped]
      norm_num
  rw [target, unitTarget, hShare, hQ, hDt, hCapability, h.unitP, h.unitQ]
  norm_num [rateLimit, slowFallStation, slowFallUnit, applyPqEnvelope]

/-- The unit goes on discharging at the pace of its ramp. -/
theorem forbidden_unit_discharges :
    (slowFallStation 2 : AgcAvcConfig ℝ 2).Accepted ∧
      ¬UnitsCapable realMath (slowFallStation 2)
        (Run.after (next realMath (slowFallStation 2)) reset [oneRunning]) dischargeForbidden := by
  refine ⟨slowFallStation_accepted, fun hCapable => ?_⟩
  have hCarried := carried_oneRunning realMath
  generalize Run.after (next realMath (slowFallStation 2)) reset [oneRunning] = c at hCapable hCarried
  have hStep : c.step realMath (slowFallStation 2) dischargeForbidden =
      c.controlStep realMath (slowFallStation 2) dischargeForbidden :=
    step_dispatch realMath c 2000 _ (by decide) (by decide)
  rw [UnitsCapable] at hCapable
  rw [hStep] at hCapable
  obtain ⟨assignments, hAssignments, hInside⟩ :=
    hCapable (c.controlStep_runs realMath (slowFallStation 2) dischargeForbidden)
  obtain rfl := Option.some.inj hAssignments
  have hCapability := capability_dischargeForbidden
  have hAvailable : (c.assignment realMath (slowFallStation 2) dischargeForbidden 0).available = true := by
    rw [assignment, hCapability]
  have hLimit := (hInside 0 hAvailable).no_discharge (runningUnit true false) rfl rfl
  rw [assignment, target_dischargeForbidden hCarried] at hLimit
  norm_num at hLimit

end Sample

end EdgeGateway.AgcAvc
