import EdgeGateway.AgcAvc.StationLimit

/-! # The ramp of a stale command -/

namespace EdgeGateway.AgcAvc

universe u

variable {K : Type u} [Field K] [LinearOrder K] {n : Nat}

structure TowardZero (previous rise fall dt target : K) : Prop where
  falls : 0 ≤ previous → 0 ≤ target ∧ target ≤ previous ∧ previous - target ≤ max 0 fall * dt
  rises : previous ≤ 0 → target ≤ 0 ∧ previous ≤ target ∧ target - previous ≤ max 0 rise * dt

def rampRest (amount rate dt : K) : K := max 0 (amount - max 0 rate * dt)

section Ramp

variable [IsStrictOrderedRing K] {previous rise fall rate dt : K}

omit [IsStrictOrderedRing K] in
theorem rampRest_nonneg : 0 ≤ rampRest previous rate dt := le_max_left _ _

theorem rampRest_of_nonpos (hDt : 0 < dt) (h : previous ≤ 0) : rampRest previous rate dt = 0 := by
  rw [rampRest]
  apply max_eq_left
  exact sub_nonpos.mpr (h.trans (mul_nonneg (le_max_left 0 rate) hDt.le))

theorem lt_rampRest_iff {bound : K} (hBound : 0 ≤ bound) :
    bound < rampRest previous rate dt ↔ bound + max 0 rate * dt < previous := by
  rw [rampRest, lt_max_iff, lt_sub_iff_add_lt]
  exact or_iff_right (not_lt.mpr hBound)

theorem rateLimit_zero (hDt : 0 < dt) :
    rateLimit previous 0 rise fall dt = rampRest previous fall dt - rampRest (-previous) rise dt := by
  rw [rateLimit]
  rw [if_neg (not_le.mpr hDt)]
  obtain h | h := lt_or_ge previous 0
  · rw [if_pos h, rampRest_of_nonpos hDt h.le, rampRest, zero_sub, ← min_neg_neg, neg_zero]
    congr 1
    ring
  · rw [if_neg (not_lt.mpr h), rampRest_of_nonpos hDt (neg_nonpos.mpr h), sub_zero]
    rfl

theorem rateLimit_towardZero (hDt : 0 < dt) :
    TowardZero previous rise fall dt (rateLimit previous 0 rise fall dt) where
  falls := by
    intro h
    rw [rateLimit_zero hDt, rampRest_of_nonpos hDt (neg_nonpos.mpr h), sub_zero]
    have hStep := mul_nonneg (le_max_left 0 fall) hDt.le
    refine ⟨rampRest_nonneg, max_le h (sub_le_self previous hStep), ?_⟩
    exact sub_le_comm.mp (le_max_right 0 _)
  rises := by
    intro h
    rw [rateLimit_zero hDt, rampRest_of_nonpos hDt h, zero_sub]
    have hStep := mul_nonneg (le_max_left 0 rise) hDt.le
    have hRest : rampRest (-previous) rise dt ≤ -previous := max_le (neg_nonneg.mpr h) (sub_le_self _ hStep)
    have hReach : -previous - max 0 rise * dt ≤ rampRest (-previous) rise dt := le_max_right _ _
    exact ⟨neg_nonpos.mpr rampRest_nonneg, le_neg_of_le_neg hRest, by linarith⟩

theorem lt_abs_rateLimit_zero_iff (hDt : 0 < dt) {bound : K} (hBound : 0 ≤ bound) :
    bound < |rateLimit previous 0 rise fall dt| ↔
      bound + max 0 fall * dt < previous ∨ bound + max 0 rise * dt < -previous := by
  rw [rateLimit_zero hDt, ← lt_rampRest_iff hBound, ← lt_rampRest_iff hBound]
  obtain h | h := le_total 0 previous
  · rw [rampRest_of_nonpos hDt (neg_nonpos.mpr h), sub_zero, abs_of_nonneg rampRest_nonneg]
    exact (or_iff_left (not_lt.mpr hBound)).symm
  · rw [rampRest_of_nonpos hDt h, zero_sub, abs_neg, abs_of_nonneg rampRest_nonneg]
    exact (or_iff_right (not_lt.mpr hBound)).symm

end Ramp

namespace AgcAvcController

variable (math : CMath K) (config : AgcAvcConfig K n) (c : AgcAvcController K n) (input : AgcAvcCycleInput K)

structure Undispatched : Prop where
  healthy : input.inputHealthy = true
  noEmergencyStop : input.emergencyStop = false
  noFireAlarm : input.fireAlarm = false
  remote : input.remoteEnable = true
  noPriority : input.priorityBlocked = false
  stale : commandFresh config input = false

def RampsToZero : Prop :=
  ∃ assignments, (c.step math config input).2.pcs = some assignments ∧
    (∀ i, TowardZero (c.previousPcsPkw i) (config.pcs i).riseKwPerSec (config.pcs i).fallKwPerSec
        (c.dtSec config input) (assignments i).targetPkw ∧
      TowardZero (c.previousPcsQkvar i) (config.pcs i).riseKvarPerSec (config.pcs i).fallKvarPerSec
        (c.dtSec config input) (assignments i).targetQkvar) ∧
    ((c.step math config input).2.state = .standby ∧
        (∀ i, |(assignments i).targetPkw| ≤ 1 / 10 ^ 6 ∧ |(assignments i).targetQkvar| ≤ 1 / 10 ^ 6) ∨
      (c.step math config input).2.state = .rampToZero)

structure OppositeRests : Prop where
  active : |∑ i, rampRest (c.previousPcsPkw i) (config.pcs i).fallKwPerSec (c.dtSec config input) -
    ∑ i, rampRest (-c.previousPcsPkw i) (config.pcs i).riseKwPerSec (c.dtSec config input)| ≤ 1 / 10 ^ 6
  reactive : |∑ i, rampRest (c.previousPcsQkvar i) (config.pcs i).fallKvarPerSec (c.dtSec config input) -
    ∑ i, rampRest (-c.previousPcsQkvar i) (config.pcs i).riseKvarPerSec (c.dtSec config input)| ≤ 1 / 10 ^ 6
  running : ∃ i,
    (1 / 10 ^ 6 + max 0 (config.pcs i).fallKwPerSec * c.dtSec config input < c.previousPcsPkw i ∨
      1 / 10 ^ 6 + max 0 (config.pcs i).riseKwPerSec * c.dtSec config input < -c.previousPcsPkw i) ∨
    (1 / 10 ^ 6 + max 0 (config.pcs i).fallKvarPerSec * c.dtSec config input < c.previousPcsQkvar i ∨
      1 / 10 ^ 6 + max 0 (config.pcs i).riseKvarPerSec * c.dtSec config input < -c.previousPcsQkvar i)

variable {config c input}

theorem step_disabled (input : AgcAvcCycleInput K) (hDisabled : config.enabled = false) : (c.step math config input).2.state = .disabled := by
  rw [step, if_pos (by rw [hDisabled]; rfl)]

theorem step_undispatched (h : Undispatched config input) (hEnabled : config.enabled = true) :
    (c.step math config input).2.pcs = (c.setZeroAssignments config input false).2.pcs ∧
      (c.step math config input).2.state =
        if |∑ i, c.zeroTargetP config input false i| > 1 / 10 ^ 6 ∨
            |∑ i, c.zeroTargetQ config input false i| > 1 / 10 ^ 6 then .rampToZero else .standby := by
  rw [step]
  simp only [hEnabled, h.healthy, h.noEmergencyStop, h.noFireAlarm, h.remote, h.noPriority, h.stale, Bool.not_true,
    Bool.not_false, Bool.or_false, Bool.false_eq_true, if_false, if_true]
  exact ⟨trivial, rfl⟩

variable [IsStrictOrderedRing K]

theorem zeroTargetP_sum :
    ∑ i, c.zeroTargetP config input false i =
      ∑ i, rampRest (c.previousPcsPkw i) (config.pcs i).fallKwPerSec (c.dtSec config input) -
        ∑ i, rampRest (-c.previousPcsPkw i) (config.pcs i).riseKwPerSec (c.dtSec config input) := by
  rw [← Finset.sum_sub_distrib]
  exact Finset.sum_congr rfl fun i _ => rateLimit_zero (c.dtSec_pos config input)

theorem zeroTargetQ_sum :
    ∑ i, c.zeroTargetQ config input false i =
      ∑ i, rampRest (c.previousPcsQkvar i) (config.pcs i).fallKvarPerSec (c.dtSec config input) -
        ∑ i, rampRest (-c.previousPcsQkvar i) (config.pcs i).riseKvarPerSec (c.dtSec config input) := by
  rw [← Finset.sum_sub_distrib]
  exact Finset.sum_congr rfl fun i _ => rateLimit_zero (c.dtSec_pos config input)

theorem targets_running_iff :
    (∃ i, 1 / 10 ^ 6 < |c.zeroTargetP config input false i| ∨ 1 / 10 ^ 6 < |c.zeroTargetQ config input false i|) ↔
      ∃ i,
        (1 / 10 ^ 6 + max 0 (config.pcs i).fallKwPerSec * c.dtSec config input < c.previousPcsPkw i ∨
          1 / 10 ^ 6 + max 0 (config.pcs i).riseKwPerSec * c.dtSec config input < -c.previousPcsPkw i) ∨
        (1 / 10 ^ 6 + max 0 (config.pcs i).fallKvarPerSec * c.dtSec config input < c.previousPcsQkvar i ∨
          1 / 10 ^ 6 + max 0 (config.pcs i).riseKvarPerSec * c.dtSec config input < -c.previousPcsQkvar i) := by
  have hTol : (0 : K) ≤ 1 / 10 ^ 6 := by positivity
  apply exists_congr
  intro i
  exact or_congr (lt_abs_rateLimit_zero_iff (c.dtSec_pos config input) hTol)
    (lt_abs_rateLimit_zero_iff (c.dtSec_pos config input) hTol)

theorem oppositeRests_iff :
    OppositeRests config c input ↔
      (|∑ i, c.zeroTargetP config input false i| ≤ 1 / 10 ^ 6 ∧
        |∑ i, c.zeroTargetQ config input false i| ≤ 1 / 10 ^ 6) ∧
      ∃ i, 1 / 10 ^ 6 < |c.zeroTargetP config input false i| ∨ 1 / 10 ^ 6 < |c.zeroTargetQ config input false i| := by
  rw [zeroTargetP_sum, zeroTargetQ_sum, targets_running_iff]
  constructor
  · rintro ⟨hActive, hReactive, hRunning⟩
    exact ⟨⟨hActive, hReactive⟩, hRunning⟩
  · rintro ⟨⟨hActive, hReactive⟩, hRunning⟩
    exact ⟨hActive, hReactive, hRunning⟩

theorem not_oppositeRests_of_one_direction (hP : (∀ i, 0 ≤ c.previousPcsPkw i) ∨ ∀ i, c.previousPcsPkw i ≤ 0)
    (hQ : (∀ i, 0 ≤ c.previousPcsQkvar i) ∨ ∀ i, c.previousPcsQkvar i ≤ 0) : ¬OppositeRests config c input := by
  have hDt := c.dtSec_pos config input
  have hSum : ∀ (previous targets rise fall : Fin n → K),
      (∀ i, targets i = rateLimit (previous i) 0 (rise i) (fall i) (c.dtSec config input)) →
      ((∀ i, 0 ≤ previous i) ∨ ∀ i, previous i ≤ 0) → ∀ i, |targets i| ≤ |∑ j, targets j| := by
    intro previous targets rise fall hTargets hSigns i
    obtain hSigns | hSigns := hSigns
    · have hNonneg : ∀ j, 0 ≤ targets j := by
        intro j
        rw [hTargets j]
        exact ((rateLimit_towardZero hDt).falls (hSigns j)).1
      rw [abs_of_nonneg (hNonneg i), abs_of_nonneg (Finset.sum_nonneg fun j _ => hNonneg j)]
      exact Finset.single_le_sum (fun j _ => hNonneg j) (Finset.mem_univ i)
    · have hNonpos : ∀ j, targets j ≤ 0 := by
        intro j
        rw [hTargets j]
        exact ((rateLimit_towardZero hDt).rises (hSigns j)).1
      rw [abs_of_nonpos (hNonpos i), abs_of_nonpos (Finset.sum_nonpos fun j _ => hNonpos j), ← Finset.sum_neg_distrib]
      exact Finset.single_le_sum (fun j _ => neg_nonneg.mpr (hNonpos j)) (Finset.mem_univ i)
  rw [oppositeRests_iff]
  rintro ⟨⟨hActive, hReactive⟩, i, hRunning | hRunning⟩
  · exact absurd hRunning (not_lt.mpr ((hSum _ _ _ _ (fun _ => rfl) hP i).trans hActive))
  · exact absurd hRunning (not_lt.mpr ((hSum _ _ _ _ (fun _ => rfl) hQ i).trans hReactive))

omit [IsStrictOrderedRing K] in
theorem enabled_of_rampsToZero (h : RampsToZero math config c input) : config.enabled = true := by
  obtain ⟨_, _, _, hState⟩ := h
  by_contra hDisabled
  have hReported := c.step_disabled math input (Bool.eq_false_iff.mpr hDisabled)
  obtain ⟨hStandby, -⟩ | hRamp := hState
  · exact absurd (hReported.symm.trans hStandby) (by decide)
  · exact absurd (hReported.symm.trans hRamp) (by decide)

theorem not_oppositeRests_of_rampsToZero (hInput : Undispatched config input)
    (h : RampsToZero math config c input) : ¬OppositeRests config c input := by
  obtain ⟨hPcs, hReported⟩ := c.step_undispatched math hInput (enabled_of_rampsToZero math h)
  obtain ⟨assignments, hAssignments, -, hState⟩ := h
  rw [oppositeRests_iff]
  rintro ⟨⟨hActive, hReactive⟩, i, hRunning⟩
  rw [if_neg (not_or.mpr ⟨not_lt.mpr hActive, not_lt.mpr hReactive⟩)] at hReported
  obtain rfl := Option.some.inj (hAssignments.symm.trans hPcs)
  obtain ⟨-, hZero⟩ | hRamp := hState
  · exact hRunning.elim (not_lt.mpr (hZero i).1) (not_lt.mpr (hZero i).2)
  · exact absurd (hReported.symm.trans hRamp) (by decide)

theorem rampsToZero_of_not_oppositeRests (hInput : Undispatched config input) (hEnabled : config.enabled = true)
    (h : ¬OppositeRests config c input) : RampsToZero math config c input := by
  obtain ⟨hPcs, hReported⟩ := c.step_undispatched math hInput hEnabled
  have hDt := c.dtSec_pos config input
  refine ⟨_, hPcs, fun i => ⟨rateLimit_towardZero hDt, rateLimit_towardZero hDt⟩, ?_⟩
  rw [hReported]
  split
  case isTrue => exact .inr rfl
  case isFalse hTotals =>
    refine .inl ⟨rfl, ?_⟩
    rw [not_or, not_lt, not_lt] at hTotals
    rw [oppositeRests_iff] at h
    have hZero : ∀ i, _ := not_exists.mp fun hRunning => h ⟨hTotals, hRunning⟩
    intro i
    obtain ⟨hP, hQ⟩ := not_or.mp (hZero i)
    exact ⟨not_lt.mp hP, not_lt.mp hQ⟩

/-- A stale command ramps every unit to zero, and is reported as it is unless the rests of the units cancel. -/
theorem ramps_to_zero_iff (hInput : Undispatched config input) :
    RampsToZero math config c input ↔ config.enabled = true ∧ ¬OppositeRests config c input := by
  constructor
  · intro h
    exact ⟨enabled_of_rampsToZero math h, not_oppositeRests_of_rampsToZero math hInput h⟩
  · rintro ⟨hEnabled, hRests⟩
    exact rampsToZero_of_not_oppositeRests math hInput hEnabled hRests

end AgcAvcController

section Sample

open AgcAvcController

def evenRampStation : AgcAvcConfig K 2 :=
  { slowFallStation 2 with pcs := fun _ => { slowFallUnit with riseKwPerSec := 10 } }

def foundAt (first second : K) : AgcAvcCycleInput K :=
  { dispatchCycle 1000 [{ runningUnit true true with actualPkw := first },
      { runningUnit true true with actualPkw := second }] with priorityBlocked := true }

def noCommand : AgcAvcCycleInput K := { dispatchCycle 2000 [] with command := ⟨0, 0, 0, 0, 0, 1, none⟩ }

variable (math : CMath K)

theorem noCommand_undispatched : Undispatched (evenRampStation : AgcAvcConfig ℝ 2) noCommand :=
  ⟨rfl, rfl, rfl, rfl, rfl, rfl⟩

theorem previous_foundAt (first second : K) :
    (Run.after (next math evenRampStation) reset [foundAt first second]).previousPcsPkw = ![first, second] ∧
      (Run.after (next math evenRampStation) reset [foundAt first second]).previousPcsQkvar = ![0, 0] ∧
      (Run.after (next math evenRampStation) reset [foundAt first second]).lastCycleMs = 1000 := by
  refine ⟨?_, ?_, rfl⟩
  · funext i
    fin_cases i <;> rfl
  · funext i
    fin_cases i <;> rfl

theorem both_discharging_ramp_to_zero :
    RampsToZero realMath evenRampStation (Run.after (next realMath evenRampStation) reset [foundAt 50 50]) noCommand := by
  obtain ⟨hP, hQ, -⟩ := previous_foundAt realMath 50 50
  apply (ramps_to_zero_iff realMath noCommand_undispatched).mpr
  refine ⟨rfl, not_oppositeRests_of_one_direction (.inl fun i => ?_) (.inl fun i => ?_)⟩
  · rw [hP]
    fin_cases i <;> norm_num
  · rw [hQ]
    fin_cases i <;> norm_num

/-- One unit is left at 40 kW and the other at -40 kW, and the cycle reports standby. -/
theorem opposite_units_report_standby :
    Undispatched (evenRampStation : AgcAvcConfig ℝ 2) noCommand ∧
      ¬RampsToZero realMath evenRampStation (Run.after (next realMath evenRampStation) reset [foundAt 50 (-50)])
        noCommand := by
  refine ⟨noCommand_undispatched, fun h => not_oppositeRests_of_rampsToZero realMath noCommand_undispatched h ?_⟩
  obtain ⟨hP, hQ, hCycle⟩ := previous_foundAt realMath 50 (-50)
  generalize Run.after (next realMath evenRampStation) reset [foundAt 50 (-50)] = c at hP hQ hCycle ⊢
  have hDt : c.dtSec evenRampStation noCommand = 1 := by
    norm_num [dtSec, hCycle, noCommand, dispatchCycle]
  constructor
  · rw [hP, hDt]
    norm_num [evenRampStation, slowFallUnit, rampRest]
  · rw [hQ, hDt]
    norm_num [evenRampStation, slowFallUnit, rampRest]
  · refine ⟨0, .inl (.inl ?_)⟩
    rw [hP, hDt]
    norm_num [evenRampStation, slowFallUnit]

end Sample

end EdgeGateway.AgcAvc
