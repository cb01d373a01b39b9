import EdgeGateway.GraphEms.PowerSolve
import Mathlib.Data.Rat.Floor

/-! # Two paths to the set-points -/

namespace EdgeGateway.GraphEms

section Wiring

variable {K : Type} [Field K]

structure ModularWiring where
  cdFdTotalIndex : UInt32
  arbiterActive : Phases UInt32
  arbiterReactive : Phases UInt32
  cdFdRunOutput : UInt32 := 0
  lvRunOutput : UInt32 := 0
  hvRunOutput : UInt32 := 0
  gfRunOutput : UInt32 := 0
  phRunOutput : UInt32 := 0
  activeOutput : Phases UInt32
  reactiveOutput : Phases UInt32
  reserveRunOutput : UInt32 := 0
  lowStateClearIndexes : List UInt32 := []
  highStateClearIndexes : List UInt32 := []

namespace ModularWiring

variable (wiring : ModularWiring) (node : PcsPowerSolve)

def candidate (merge : PhaseMerge) (direction : PhaseDirection) (indexes : Phases UInt32) (runOutputIndex : UInt32) :
    ArbiterCandidate K where
  target := .active
  merge := merge
  direction := direction
  enableIndex := 0
  enableValue := 1
  defaultValue := 0
  totalIndex := 0
  indexes := indexes.toList
  runOutputIndex := runOutputIndex

def cdFdCandidate : ArbiterCandidate K where
  target := .active
  merge := .stronger
  direction := .any
  enableIndex := 0
  enableValue := 1
  defaultValue := 0
  totalIndex := wiring.cdFdTotalIndex
  indexes := []
  runOutputIndex := wiring.cdFdRunOutput

def arbiter : PhaseArbiter K where
  activeOutputIndexes := wiring.arbiterActive.toList
  reactiveOutputIndexes := wiring.arbiterReactive.toList
  activeBaseIndexes := node.outPDsIndex.toList
  reactiveBaseIndexes := node.outQCosIndex.toList
  candidates := [
    wiring.cdFdCandidate,
    candidate .min .negative node.outPLvIndex wiring.lvRunOutput,
    candidate .max .positive node.outPHvIndex wiring.hvRunOutput,
    candidate .max .positive node.outPGfIndex wiring.gfRunOutput,
    candidate .add .any node.outPPhIndex wiring.phRunOutput]
  override := {
    enableIndex := node.skRunIndex
    enableValue := 1
    activeTotalIndex := node.skP3Index
    reactiveTotalIndex := node.skQ3Index }

def constraint : PowerConstraint where
  activeInputIndexes := wiring.arbiterActive.toList
  reactiveInputIndexes := wiring.arbiterReactive.toList
  activeOutputIndexes := wiring.activeOutput.toList
  reactiveOutputIndexes := wiring.reactiveOutput.toList
  loadIndexes := node.fhPIndex.toList
  positiveLimitEnableIndex := node.positiveLimitEnableIndex
  positiveLimitIndex := node.positiveLimitIndex
  negativeLimitEnableIndex := node.negativeLimitEnableIndex
  negativeLimitIndex := node.negativeLimitIndex
  reserveEnableIndex := node.zrEnableIndex
  reserveMarginIndex := node.zrP1Index
  activeAbsLimitIndex := node.pMaxIndex
  reactiveAbsLimitIndex := node.qMaxIndex
  apparentTotalLimitIndex := node.s3MaxIndex
  positiveTotalLimitIndex := node.chargeKwAllowIndex
  negativeTotalLimitIndex := node.dischargeKwAllowIndex
  stateIndex := node.bmsSocIndex
  stateUpperIndex := node.bmsSocMaxIndex
  stateLowerIndex := node.bmsSocMinIndex
  reserveRunOutputIndex := wiring.reserveRunOutput
  lowStateClearIndexes := wiring.lowStateClearIndexes
  highStateClearIndexes := wiring.highStateClearIndexes

end ModularWiring

end Wiring

section Lists

variable {α β γ : Type} (f : α → β) (g : α → β → γ) (x : Phases α) (y : Phases β)

@[simp] theorem Phases.toList_map : (x.map f).toList = x.toList.map f := rfl

@[simp] theorem Phases.toList_zipWith : (x.zipWith g y).toList = List.zipWith g x.toList y.toList := rfl

theorem Phases.replicate_three (value : α) : List.replicate 3 value = (⟨value, value, value⟩ : Phases α).toList := rfl

end Lists

section Arbiter

variable {K : Type} [Field K] [LinearOrder K] {latestValue : UInt32 → Option K}
  {p : Phases K} {reactive : List K}

omit [LinearOrder K] [Field K] in
theorem phaseValues_toList (indexes : Phases UInt32) (defaultValue : K) :
    phaseValues latestValue 3 defaultValue indexes.toList =
      (indexes.map fun index => (latestValue index).getD defaultValue).toList := rfl

theorem apply_candidate (merge : PhaseMerge) (direction : PhaseDirection) (indexes : Phases UInt32)
    (runOutputIndex : UInt32) :
    ((ModularWiring.candidate merge direction indexes runOutputIndex).apply latestValue 3 ⟨p.toList, reactive⟩).1 =
      ⟨(p.zipWith (fun p value => mergePhase merge direction p (value.getD 0)) (indexes.map latestValue)).toList,
        reactive⟩ := rfl

theorem apply_cdFdCandidate {wiring : ModularWiring} {cdFdP3 : K} (hIndex : wiring.cdFdTotalIndex ≠ 0)
    (hTotal : latestValue wiring.cdFdTotalIndex = some cdFdP3) :
    (wiring.cdFdCandidate.apply latestValue 3 ⟨p.toList, reactive⟩).1 =
      ⟨(p.map fun p => mergePhase .stronger .any p (cdFdP3 / 3)).toList, reactive⟩ := by
  have hValues : (wiring.cdFdCandidate : ArbiterCandidate K).values latestValue 3 = some (List.replicate 3 (cdFdP3 / 3)) := by
    have hTotalIndex : (wiring.cdFdCandidate : ArbiterCandidate K).totalIndex ≠ 0 := hIndex
    have hSome : latestValue (wiring.cdFdCandidate : ArbiterCandidate K).totalIndex = some cdFdP3 := hTotal
    rw [ArbiterCandidate.values, if_neg fun h => h.1 rfl, if_pos hTotalIndex, hSome, Option.map_some, Nat.cast_ofNat]
  rw [ArbiterCandidate.apply, hValues]
  rfl

theorem mergePhase_lower (p : K) (value : Option K) : mergePhase .min .negative p (value.getD 0) =
    PcsPowerSolve.lower p value := by
  cases value with
  | none => simp [mergePhase, PcsPowerSolve.lower]
  | some value =>
    rw [Option.getD_some, mergePhase, PcsPowerSolve.lower]
    by_cases hValue : value < 0
    · simp [hValue]
    · simp [hValue, not_lt.mp hValue]

theorem mergePhase_raise (p : K) (value : Option K) : mergePhase .max .positive p (value.getD 0) =
    PcsPowerSolve.raise p value := by
  cases value with
  | none => simp [mergePhase, PcsPowerSolve.raise]
  | some value =>
    rw [Option.getD_some, mergePhase, PcsPowerSolve.raise]
    by_cases hValue : 0 < value
    · simp [hValue]
    · simp [hValue, not_lt.mp hValue]

theorem mergePhase_add (p value : K) : mergePhase .add .any p value = p + value := by
  simp [mergePhase]

theorem map_stronger [IsStrictOrderedRing K] (cdFdP3 : K) :
    (p.map fun p => mergePhase .stronger .any p (cdFdP3 / 3)) = PcsPowerSolve.stronger cdFdP3 p := by
  have hAny : ∀ p, mergePhase .stronger .any p (cdFdP3 / 3) = if 0 < cdFdP3 / 3 then max p (cdFdP3 / 3)
      else if cdFdP3 / 3 < 0 then min p (cdFdP3 / 3) else p := fun p => by simp [mergePhase]
  simp only [hAny]
  rw [PcsPowerSolve.stronger]
  rcases lt_trichotomy cdFdP3 0 with hNegative | rfl | hPositive
  · have hPhase : cdFdP3 / 3 < 0 := div_neg_of_neg_of_pos hNegative three_pos
    rw [if_pos hNegative.ne]
    dsimp only
    rw [if_neg hPhase.not_gt]
    simp only [if_neg hPhase.not_gt, if_pos hPhase]
  · simp [Phases.map]
  · have hPhase : 0 < cdFdP3 / 3 := div_pos hPositive three_pos
    rw [if_pos hPositive.ne']
    dsimp only
    rw [if_pos hPhase]
    simp only [if_pos hPhase]

theorem arbitrate_cons (phaseCount : Nat) (candidate : ArbiterCandidate K) (rest : List (ArbiterCandidate K))
    (powers : PhasePowers K) : (arbitrate latestValue phaseCount (candidate :: rest) powers).1 =
      (arbitrate latestValue phaseCount rest (candidate.apply latestValue phaseCount powers).1).1 := rfl

theorem runOutputs_arbitrate (phaseCount : Nat) (candidates : List (ArbiterCandidate K)) (powers : PhasePowers K) :
    (arbitrate latestValue phaseCount candidates powers).2.map Prod.fst =
      candidates.map ArbiterCandidate.runOutputIndex := by
  induction candidates generalizing powers with
  | nil => rfl
  | cons candidate rest ih =>
    rw [List.map_cons, ← ih (candidate.apply latestValue phaseCount powers).1]
    rfl

theorem override_apply {node : PcsPowerSolve} {wiring : ModularWiring} {q : Phases K} (hIndex : node.skRunIndex ≠ 0)
    (hSwitch : ∀ value, latestValue node.skRunIndex = some value → value = 0 ∨ value = 1) [IsStrictOrderedRing K] :
    (wiring.arbiter node).override.apply latestValue 3 ⟨p.toList, q.toList⟩ =
      ⟨(node.manual latestValue (p, q)).1.toList, (node.manual latestValue (p, q)).2.toList⟩ := by
  have hOn : isExpected (latestValue node.skRunIndex) 1 = PcsPowerSolve.isOne latestValue node.skRunIndex := by
    rw [PcsPowerSolve.isOne]
    cases hRun : latestValue node.skRunIndex with
    | none => simp [isExpected]
    | some value =>
      rcases hSwitch value hRun with rfl | rfl
      · norm_num [isExpected]
      · norm_num [isExpected]
  rw [ArbiterOverride.apply, PcsPowerSolve.manual]
  simp only [ModularWiring.arbiter, hOn]
  cases latestValue node.skP3Index with
  | none => simp
  | some skP3 =>
    cases latestValue node.skQ3Index with
    | none => simp
    | some skQ3 =>
      dsimp only
      by_cases hRun : PcsPowerSolve.isOne latestValue node.skRunIndex = true
      · rw [if_pos ⟨hIndex, hRun⟩, if_pos hRun, Phases.replicate_three, Phases.replicate_three]
        rfl
      · rw [if_neg fun h => hRun h.2, if_neg hRun]

theorem arbiter_solve [IsStrictOrderedRing K] {node : PcsPowerSolve} {wiring : ModularWiring}
    (hTotalIndex : wiring.cdFdTotalIndex ≠ 0) (hRunIndex : node.skRunIndex ≠ 0)
    (hTotal : latestValue wiring.cdFdTotalIndex =
      some ((latestValue node.outP3CdIndex).getD 0 + (latestValue node.outP3FdIndex).getD 0))
    (hSwitch : ∀ value, latestValue node.skRunIndex = some value → value = 0 ∨ value = 1) :
    let powers := node.manual latestValue
      (node.strategies latestValue, node.outQCosIndex.map fun index => (latestValue index).getD 0)
    ((wiring.arbiter node).solve latestValue).1 = ⟨powers.1.toList, powers.2.toList⟩ := by
  intro powers
  have hMerged : (arbitrate latestValue 3 (wiring.arbiter node).candidates
      ⟨phaseValues latestValue 3 0 node.outPDsIndex.toList, phaseValues latestValue 3 0 node.outQCosIndex.toList⟩).1 =
      ⟨(node.strategies latestValue).toList,
        (node.outQCosIndex.map fun index => (latestValue index).getD 0).toList⟩ := by
    rw [phaseValues_toList, phaseValues_toList, ModularWiring.arbiter]
    simp only [arbitrate_cons, apply_cdFdCandidate hTotalIndex hTotal, apply_candidate, map_stronger, mergePhase_lower,
      mergePhase_raise, mergePhase_add]
    rfl
  calc ((wiring.arbiter node).solve latestValue).1
    _ = (wiring.arbiter node).override.apply latestValue 3 (arbitrate latestValue 3 (wiring.arbiter node).candidates
        ⟨phaseValues latestValue 3 0 node.outPDsIndex.toList,
          phaseValues latestValue 3 0 node.outQCosIndex.toList⟩).1 := rfl
    _ = ⟨powers.1.toList, powers.2.toList⟩ := by
      rw [hMerged]
      exact override_apply hRunIndex hSwitch

end Arbiter

section Constraint

variable {K : Type} [Field K] [LinearOrder K] {latestValue : UInt32 → Option K} {node : PcsPowerSolve}
  {p q loads : Phases K}

theorem phases_limitPositive (limit : K) : PowerConstraint.limitPositive limit p.toList loads.toList =
    (p.zipWith (PcsPowerSolve.limitPositive limit) loads).toList := by
  have hPhase : ∀ p load : K, (if 0 < p then max 0 (min p (limit - load)) else p) =
      PcsPowerSolve.limitPositive limit p load := by
    intro p load
    rw [PcsPowerSolve.limitPositive]
    split
    · by_cases hNegative : min p (limit - load) < 0
      · rw [if_pos hNegative, max_eq_left hNegative.le]
      · rw [if_neg hNegative, max_eq_right (not_lt.mp hNegative)]
    · rfl
  rw [PowerConstraint.limitPositive, Phases.toList_zipWith]
  simp only [hPhase]

theorem phases_limitNegative (limit : K) : PowerConstraint.limitNegative limit p.toList loads.toList =
    (p.zipWith (PcsPowerSolve.limitNegative limit) loads).toList := by
  have hPhase : ∀ p load : K, (if p < 0 then min 0 (max p (limit - load)) else p) =
      PcsPowerSolve.limitNegative limit p load := by
    intro p load
    rw [PcsPowerSolve.limitNegative]
    split
    · by_cases hPositive : 0 < max p (limit - load)
      · rw [if_pos hPositive, min_eq_left hPositive.le]
      · rw [if_neg hPositive, min_eq_right (not_lt.mp hPositive)]
    · rfl
  rw [PowerConstraint.limitNegative, Phases.toList_zipWith]
  simp only [hPhase]

theorem phases_reserveCapacity (limit margin : K) : PowerConstraint.reserveCapacity limit margin p.toList loads.toList =
    ((p.zipWith (fun p power => if power < 0 then min p power else p)
      (loads.map fun load => limit - load - margin)).toList,
      if limit - loads.a - margin < 0 ∨ limit - loads.b - margin < 0 ∨ limit - loads.c - margin < 0 then 1 else 0) := by
  have hAny : (loads.toList.any fun load => decide (limit - load - margin < 0)) = true ↔
      limit - loads.a - margin < 0 ∨ limit - loads.b - margin < 0 ∨ limit - loads.c - margin < 0 := by
    simp [Phases.toList]
  rw [PowerConstraint.reserveCapacity]
  simp only [hAny]
  rfl

theorem phases_limitApparent (sqrt : K → K) {limit : K} (hLimit : 0 < limit) :
    PowerConstraint.limitApparent sqrt limit p.toList q.toList =
      (p.zipWith (PcsPowerSolve.clampByApparentPower sqrt limit) q).toList := by
  have hPhase : ∀ p q : K, (if apparentPower sqrt p q ≤ limit then p else remainingActive sqrt limit p q) =
      PcsPowerSolve.clampByApparentPower sqrt limit p q := by
    intro p q
    rw [PcsPowerSolve.clampByApparentPower]
    simp only [not_not_intro hLimit, false_or]
  rw [PowerConstraint.limitApparent, Phases.toList_zipWith]
  simp only [hPhase]

omit [LinearOrder K] in
theorem total_toList : PowerConstraint.total p.toList = PcsPowerSolve.total p := by
  simp [PowerConstraint.total, PcsPowerSolve.total, Phases.toList]

theorem foldl_chargeAndDischarge (values : List K) (sums : K × K) :
    let split := values.foldl (fun (sums : K × K) value =>
      if 0 < value then (sums.1 + value, sums.2) else (sums.1, sums.2 + value)) sums
    split.1 = values.foldl (fun total value => total + if 0 < value then value else 0) sums.1 ∧
      split.1 + split.2 = values.foldl (fun total value => total + value) (sums.1 + sums.2) := by
  induction values generalizing sums with
  | nil => exact ⟨rfl, rfl⟩
  | cons value rest ih =>
    simp only [List.foldl_cons]
    by_cases hPositive : 0 < value
    · obtain ⟨hCharge, hTotal⟩ := ih (sums.1 + value, sums.2)
      rw [if_pos hPositive, if_pos hPositive]
      refine ⟨hCharge, hTotal.trans ?_⟩
      rw [add_right_comm]
    · obtain ⟨hCharge, hTotal⟩ := ih (sums.1, sums.2 + value)
      rw [if_neg hPositive, if_neg hPositive, add_zero]
      refine ⟨hCharge, hTotal.trans ?_⟩
      rw [add_assoc]

theorem positiveTotal_toList : PowerConstraint.positiveTotal p.toList = (PcsPowerSolve.chargeAndDischarge p).1 :=
  (foldl_chargeAndDischarge p.toList (0, 0)).1.symm

theorem total_sub_charge : PcsPowerSolve.total p - (PcsPowerSolve.chargeAndDischarge p).1 =
    (PcsPowerSolve.chargeAndDischarge p).2 := by
  have hTotal := (foldl_chargeAndDischarge p.toList (0, 0)).2
  rw [add_zero] at hTotal
  rw [← total_toList, sub_eq_iff_eq_add']
  exact hTotal.symm

theorem phases_limitPositiveTotal (limit : K) : PowerConstraint.limitPositiveTotal limit p.toList =
    (PcsPowerSolve.limitCharge limit p).toList := by
  rw [PowerConstraint.limitPositiveTotal, PcsPowerSolve.limitCharge]
  simp only [positiveTotal_toList, total_toList, total_sub_charge]
  split
  · split
    · rfl
    · rfl
  · rfl

theorem phases_limitNegativeTotal (limit : K) : PowerConstraint.limitNegativeTotal limit p.toList =
    (PcsPowerSolve.limitDischarge limit p).toList := by
  rw [PowerConstraint.limitNegativeTotal, PcsPowerSolve.limitDischarge]
  simp only [positiveTotal_toList, total_toList, total_sub_charge]
  split
  · split
    · rfl
    · rfl
  · rfl

theorem mapM_three {α β : Type} (f : α → Option β) (x y z : α) :
    [x, y, z].mapM f = (⟨f x, f y, f z⟩ : Phases (Option β)).all.map Phases.toList := by
  simp only [List.mapM_cons, List.mapM_nil, Phases.all]
  cases f x with
  | none => rfl
  | some a =>
    cases f y with
    | none => rfl
    | some b =>
      cases f z with
      | none => rfl
      | some c => rfl

omit [Field K] [LinearOrder K] in
theorem mapM_toList (indexes : Phases UInt32) : indexes.toList.mapM latestValue =
    (indexes.map latestValue).all.map Phases.toList := mapM_three latestValue _ _ _

omit [Field K] [LinearOrder K] in
theorem mapM_range_toList (indexes : Phases UInt32) :
    ((List.range 3).mapM fun phase => indexes.toList[phase]?.bind latestValue) =
      (indexes.map latestValue).all.map Phases.toList :=
  mapM_three (fun phase => indexes.toList[phase]?.bind latestValue) 0 1 2

/-- What follows the manual set-points in the power solve node. -/
def PcsPowerSolve.limits (node : PcsPowerSolve) (sqrt : K → K) (latestValue : UInt32 → Option K)
    (powers : Phases K × Phases K) : PcsPowers K :=
  let (pcsPOut, zrRunValue) := node.limitDemand latestValue powers.1
  let (pcsPOut, pcsQOut) := node.limitConverter sqrt latestValue (pcsPOut, powers.2)
  node.limitSoc latestValue (node.limitBms latestValue pcsPOut, pcsQOut) zrRunValue

variable {wiring : ModularWiring}

omit [Field K] [LinearOrder K] in
theorem ite_toList (condition : Prop) [Decidable condition] (x y : Phases K) :
    (if condition then x.toList else y.toList) = (if condition then x else y).toList :=
  (apply_ite Phases.toList condition x y).symm

theorem enabled_eq (index : UInt32) :
    PowerConstraint.enabled latestValue index = PcsPowerSolve.isOne latestValue index := rfl

theorem phases_limitDemand : (wiring.constraint node).limitDemand latestValue p.toList =
    ((node.limitDemand latestValue p).1.toList, (node.limitDemand latestValue p).2) := by
  have hLoads : ((List.range wiring.arbiterActive.toList.length).mapM fun phase =>
      node.fhPIndex.toList[phase]?.bind latestValue) =
      (node.fhPIndex.map latestValue).all.map Phases.toList := mapM_range_toList node.fhPIndex
  rw [PowerConstraint.limitDemand, PcsPowerSolve.limitDemand]
  simp only [ModularWiring.constraint, enabled_eq]
  rw [hLoads]
  cases (node.fhPIndex.map latestValue).all with
  | none =>
    cases latestValue node.positiveLimitIndex <;> cases latestValue node.negativeLimitIndex <;>
      cases latestValue node.zrP1Index <;> rfl
  | some loads =>
    dsimp only [Option.map_some]
    cases latestValue node.positiveLimitIndex <;> cases latestValue node.negativeLimitIndex <;>
      cases latestValue node.zrP1Index <;>
      simp only [phases_limitPositive, phases_limitNegative, ite_toList, phases_reserveCapacity]
    all_goals split
    all_goals rfl

theorem phases_limitConverter [IsStrictOrderedRing K] (sqrt : K → K) :
    (wiring.constraint node).limitConverter sqrt latestValue ⟨p.toList, q.toList⟩ =
      ⟨(node.limitConverter sqrt latestValue (p, q)).1.toList, (node.limitConverter sqrt latestValue (p, q)).2.toList⟩ := by
  have hApparent : ∀ (limit : K) (p q : Phases K), (if 0 < limit then
      PowerConstraint.limitApparent sqrt (limit / (wiring.arbiterActive.toList.length : K)) p.toList q.toList
      else p.toList) =
      (if 0 < limit then p.zipWith (PcsPowerSolve.clampByApparentPower sqrt (limit / 3)) q else p).toList := by
    intro limit p q
    rw [← ite_toList, show (wiring.arbiterActive.toList.length : K) = 3 from Nat.cast_ofNat]
    by_cases hLimit : 0 < limit
    · rw [if_pos hLimit, if_pos hLimit, phases_limitApparent sqrt (div_pos hLimit three_pos)]
    · rw [if_neg hLimit, if_neg hLimit]
  rw [PowerConstraint.limitConverter, PcsPowerSolve.limitConverter]
  simp only [ModularWiring.constraint]
  cases latestValue node.pMaxIndex <;> cases latestValue node.qMaxIndex <;> cases latestValue node.s3MaxIndex <;>
    simp only [← Phases.toList_map, hApparent]

theorem phases_limitTotal : (wiring.constraint node).limitTotal latestValue p.toList =
    (node.limitBms latestValue p).toList := by
  rw [PowerConstraint.limitTotal, PcsPowerSolve.limitBms, total_toList]
  simp only [ModularWiring.constraint]
  split
  · cases latestValue node.chargeKwAllowIndex with
    | none => rfl
    | some limit => exact phases_limitPositiveTotal limit
  · split
    · cases latestValue node.dischargeKwAllowIndex with
      | none => rfl
      | some limit => exact phases_limitNegativeTotal limit
    · rfl

theorem phases_limitState (reserveRun : K) :
    let powers := node.limitSoc latestValue (p, q) reserveRun
    (wiring.constraint node).limitState latestValue ⟨p.toList, q.toList⟩ reserveRun =
      ⟨powers.pcsPOut.toList, powers.pcsQOut.toList, powers.zrRunValue, powers.bmsLowLimit, powers.bmsUpLimit⟩ := by
  rw [PowerConstraint.limitState, PcsPowerSolve.limitSoc]
  simp only [ModularWiring.constraint]
  cases latestValue node.bmsSocIndex with
  | none => rfl
  | some bmsSoc =>
    cases latestValue node.bmsSocMaxIndex with
    | none => rfl
    | some bmsSocMax =>
      cases latestValue node.bmsSocMinIndex with
      | none => rfl
      | some bmsSocMin =>
        dsimp only
        by_cases hLow : bmsSoc < bmsSocMin
        · by_cases hHigh : bmsSocMax < bmsSoc
          · simp [hLow, hHigh, Phases.toList, Phases.map]
          · simp [hLow, hHigh, Phases.toList, Phases.map]
        · by_cases hHigh : bmsSocMax < bmsSoc
          · simp [hLow, hHigh, Phases.toList, Phases.map]
          · simp [hLow, hHigh, Phases.toList]

theorem constraint_solve [IsStrictOrderedRing K] (sqrt : K → K)
    (hActive : (wiring.arbiterActive.map latestValue).all = some p)
    (hReactive : (wiring.arbiterReactive.map latestValue).all = some q) :
    (wiring.constraint node).solve sqrt latestValue =
      let powers := node.limits sqrt latestValue (p, q)
      some ⟨powers.pcsPOut.toList, powers.pcsQOut.toList, powers.zrRunValue, powers.bmsLowLimit, powers.bmsUpLimit⟩ := by
  have hActiveList : (wiring.constraint node).activeInputIndexes.mapM latestValue = some p.toList :=
    (mapM_toList wiring.arbiterActive).trans (by rw [hActive]; rfl)
  have hReactiveList : (wiring.constraint node).reactiveInputIndexes.mapM latestValue = some q.toList :=
    (mapM_toList wiring.arbiterReactive).trans (by rw [hReactive]; rfl)
  rw [PowerConstraint.solve, hActiveList, hReactiveList]
  simp only [Option.bind_eq_bind, Option.bind_some, phases_limitDemand, phases_limitConverter, phases_limitTotal,
    phases_limitState]
  rfl

/-- The points that the constraint node reads beside the set-points it limits. -/
def PcsPowerSolve.limitIndexes (node : PcsPowerSolve) : List UInt32 :=
  node.fhPIndex.toList ++ [node.positiveLimitEnableIndex, node.positiveLimitIndex, node.negativeLimitEnableIndex,
    node.negativeLimitIndex, node.zrEnableIndex, node.zrP1Index, node.pMaxIndex, node.qMaxIndex, node.s3MaxIndex,
    node.chargeKwAllowIndex, node.dischargeKwAllowIndex, node.bmsSocIndex, node.bmsSocMaxIndex, node.bmsSocMinIndex]

theorem limits_congr {latestValue' : UInt32 → Option K} (sqrt : K → K) (powers : Phases K × Phases K)
    (h : ∀ index ∈ node.limitIndexes, latestValue' index = latestValue index) :
    node.limits sqrt latestValue' powers = node.limits sqrt latestValue powers := by
  simp only [PcsPowerSolve.limitIndexes, Phases.toList, List.cons_append, List.nil_append, List.forall_mem_cons] at h
  obtain ⟨hA, hB, hC, hPositiveEnable, hPositive, hNegativeEnable, hNegative, hReserve, hMargin, hPMax, hQMax, hS3Max,
    hCharge, hDischarge, hSoc, hSocMax, hSocMin, -⟩ := h
  have hOne : ∀ index, latestValue' index = latestValue index →
      PcsPowerSolve.isOne latestValue' index = PcsPowerSolve.isOne latestValue index := by
    intro index hSame
    rw [PcsPowerSolve.isOne, hSame, PcsPowerSolve.isOne]
  have hLoads : node.fhPIndex.map latestValue' = node.fhPIndex.map latestValue := by
    rw [Phases.map, hA, hB, hC, Phases.map]
  have hDemand : node.limitDemand latestValue' = node.limitDemand latestValue := by
    funext p
    simp only [PcsPowerSolve.limitDemand, hLoads, hOne _ hPositiveEnable, hPositive, hOne _ hNegativeEnable, hNegative,
      hOne _ hReserve, hMargin]
  have hConverter : node.limitConverter sqrt latestValue' = node.limitConverter sqrt latestValue := by
    funext powers
    simp only [PcsPowerSolve.limitConverter, hPMax, hQMax, hS3Max]
  have hBms : node.limitBms latestValue' = node.limitBms latestValue := by
    funext p
    simp only [PcsPowerSolve.limitBms, hCharge, hDischarge]
  have hState : node.limitSoc latestValue' = node.limitSoc latestValue := by
    funext powers reserveRun
    simp only [PcsPowerSolve.limitSoc, hSoc, hSocMax, hSocMin]
  rw [PcsPowerSolve.limits, hDemand, hConverter, hBms, hState, PcsPowerSolve.limits]

end Constraint

section Cycle

variable {K : Type} {rejection : UInt32 → K → Option String}

/-- Outputs that are all accepted are set, the last value of an index last. -/
theorem setAll_accepted (complaint : String) (outputs : List (UInt32 × K))
    (h : ∀ output ∈ outputs, rejection output.1 output.2 = none) (cycle : PowerCycle K) :
    (cycle.setAll rejection complaint outputs).1 = .ok () ∧
      (∀ index, index ∉ outputs.map Prod.fst →
        (cycle.setAll rejection complaint outputs).2.latestValue index = cycle.latestValue index) ∧
      ((outputs.map Prod.fst).Nodup → ∀ output ∈ outputs,
        (cycle.setAll rejection complaint outputs).2.latestValue output.1 = some output.2) := by
  induction outputs generalizing cycle with
  | nil => exact ⟨rfl, fun _ _ => rfl, fun _ output hOutput => (by cases hOutput)⟩
  | cons output rest ih =>
    have hAccepted : rejection output.1 output.2 = none := h output List.mem_cons_self
    obtain ⟨hDone, hOther, hSet⟩ := ih (fun other hOther => h other (List.mem_cons_of_mem _ hOther)) {
      latestValue := Function.update cycle.latestValue output.1 (some output.2)
      written := cycle.written ++ [output] }
    rw [PowerCycle.setAll, PowerCycle.set, hAccepted]
    refine ⟨hDone, fun index hIndex => ?_, fun hNodup other hMem => ?_⟩
    · rw [List.map_cons, List.mem_cons, not_or] at hIndex
      exact (hOther index hIndex.2).trans (Function.update_of_ne hIndex.1 _ _)
    · rw [List.map_cons, List.nodup_cons] at hNodup
      rcases List.mem_cons.mp hMem with rfl | hRest
      · exact (hOther _ hNodup.1).trans (Function.update_self ..)
      · exact hSet hNodup.2 other hRest

end Cycle

section Paths

variable {K : Type} [Field K] [LinearOrder K] {rejection : UInt32 → K → Option String} {wiring : ModularWiring}
  {node : PcsPowerSolve} {cycle : PowerCycle K}

def ModularWiring.phaseIndexes (wiring : ModularWiring) : List UInt32 :=
  [wiring.arbiterActive.a, wiring.arbiterReactive.a, wiring.arbiterActive.b, wiring.arbiterReactive.b,
    wiring.arbiterActive.c, wiring.arbiterReactive.c]

def ModularWiring.runIndexes (wiring : ModularWiring) : List UInt32 :=
  [wiring.cdFdRunOutput, wiring.lvRunOutput, wiring.hvRunOutput, wiring.gfRunOutput, wiring.phRunOutput].filter
    fun index => index ≠ 0

structure ModularWiring.Separate (wiring : ModularWiring) (node : PcsPowerSolve)
    (rejection : UInt32 → K → Option String) : Prop where
  nodup : wiring.phaseIndexes.Nodup
  apart : ∀ index ∈ wiring.phaseIndexes ++ wiring.runIndexes, index ∉ node.limitIndexes
  accepted : ∀ index ∈ wiring.phaseIndexes ++ wiring.runIndexes, ∀ value, rejection index value = none

theorem runOutputs_arbiter (latestValue : UInt32 → Option K) :
    (((wiring.arbiter node).solve latestValue).2.filter fun output => output.1 ≠ 0).map Prod.fst = wiring.runIndexes := by
  have hIndexes : ((wiring.arbiter node).solve latestValue).2.map Prod.fst =
      (wiring.arbiter node).candidates.map ArbiterCandidate.runOutputIndex :=
    runOutputs_arbitrate (wiring.arbiter node).phaseCount (wiring.arbiter node).candidates _
  have hFilter : (((wiring.arbiter node).solve latestValue).2.filter fun output => output.1 ≠ 0).map Prod.fst =
      (((wiring.arbiter node).solve latestValue).2.map Prod.fst).filter fun index => index ≠ 0 := by
    rw [List.filter_map]
    rfl
  rw [hFilter, hIndexes]
  rfl

theorem runPhaseArbiter_accepted {arbiter : PhaseArbiter K} {middle final : PowerCycle K}
    {runOutputs outputs : List (UInt32 × K)}
    (hRun : cycle.setAll rejection "phaseArbiter candidate run output rejected: " runOutputs = (.ok (), middle))
    (hFinal : middle.setAll rejection "phaseArbiter output rejected: " outputs = (.ok (), final))
    (hRunOutputs : ((arbiter.solve cycle.latestValue).2.filter fun output => output.1 ≠ 0) = runOutputs)
    (hOutputs : PhaseArbiter.phaseOutputs arbiter.activeOutputIndexes arbiter.reactiveOutputIndexes
      (arbiter.solve cycle.latestValue).1 = outputs) :
    runPhaseArbiter arbiter rejection cycle = (.ok (!(runOutputs ++ outputs).isEmpty), final) := by
  rw [runPhaseArbiter]
  dsimp only
  rw [hRunOutputs, hOutputs, hRun]
  dsimp only
  rw [hFinal]

theorem arbiter_run {p q : Phases K} (hSeparate : wiring.Separate node rejection)
    (hSolve : ((wiring.arbiter node).solve cycle.latestValue).1 = ⟨p.toList, q.toList⟩) :
    let after := (runPhaseArbiter (wiring.arbiter node) rejection cycle).2.latestValue
    (runPhaseArbiter (wiring.arbiter node) rejection cycle).1 = .ok true ∧
      wiring.arbiterActive.map after = p.map some ∧ wiring.arbiterReactive.map after = q.map some ∧
      ∀ index ∈ node.limitIndexes, after index = cycle.latestValue index := by
  let runOutputs := ((wiring.arbiter node).solve cycle.latestValue).2.filter fun output => output.1 ≠ 0
  let outputs := PhaseArbiter.phaseOutputs wiring.arbiterActive.toList wiring.arbiterReactive.toList ⟨p.toList, q.toList⟩
  have hRunIndexes : runOutputs.map Prod.fst = wiring.runIndexes := runOutputs_arbiter cycle.latestValue
  have hPhaseIndexes : outputs.map Prod.fst = wiring.phaseIndexes := rfl
  have hRunAccepted : ∀ output ∈ runOutputs, rejection output.1 output.2 = none := by
    intro output hOutput
    refine hSeparate.accepted output.1 (List.mem_append_right _ ?_) output.2
    rw [← hRunIndexes]
    exact List.mem_map_of_mem hOutput
  have hAccepted : ∀ output ∈ outputs, rejection output.1 output.2 = none := by
    intro output hOutput
    refine hSeparate.accepted output.1 (List.mem_append_left _ ?_) output.2
    rw [← hPhaseIndexes]
    exact List.mem_map_of_mem hOutput
  obtain ⟨hRunDone, hRunOther, -⟩ :=
    setAll_accepted "phaseArbiter candidate run output rejected: " runOutputs hRunAccepted cycle
  rcases hMiddle : cycle.setAll rejection "phaseArbiter candidate run output rejected: " runOutputs with ⟨done, middle⟩
  rw [hMiddle] at hRunDone hRunOther
  obtain rfl : done = .ok () := hRunDone
  obtain ⟨hDone, hOther, hSet⟩ := setAll_accepted "phaseArbiter output rejected: " outputs hAccepted middle
  rcases hFinal : middle.setAll rejection "phaseArbiter output rejected: " outputs with ⟨finished, final⟩
  rw [hFinal] at hDone hOther hSet
  obtain rfl : finished = .ok () := hDone
  have hRun : runPhaseArbiter (wiring.arbiter node) rejection cycle = (.ok true, final) := by
    have hWritten : (!(runOutputs ++ outputs).isEmpty) = true := by
      simp [outputs, PhaseArbiter.phaseOutputs, Phases.toList]
    rw [← hWritten]
    exact runPhaseArbiter_accepted hMiddle hFinal rfl (congrArg (PhaseArbiter.phaseOutputs _ _) hSolve)
  have hNodup : (outputs.map Prod.fst).Nodup := hPhaseIndexes ▸ hSeparate.nodup
  have hSetAll := hSet hNodup
  rw [show outputs = [(wiring.arbiterActive.a, p.a), (wiring.arbiterReactive.a, q.a), (wiring.arbiterActive.b, p.b),
    (wiring.arbiterReactive.b, q.b), (wiring.arbiterActive.c, p.c), (wiring.arbiterReactive.c, q.c)] from rfl] at hSetAll
  simp only [List.forall_mem_cons] at hSetAll
  obtain ⟨hPa, hQa, hPb, hQb, hPc, hQc, -⟩ := hSetAll
  rw [hRun]
  refine ⟨rfl, ?_, ?_, fun index hIndex => ?_⟩
  · rw [Phases.map, hPa, hPb, hPc, Phases.map]
  · rw [Phases.map, hQa, hQb, hQc, Phases.map]
  · have hNotPhase : index ∉ outputs.map Prod.fst := fun hMem =>
      hSeparate.apart index (List.mem_append_left _ (hPhaseIndexes ▸ hMem)) hIndex
    have hNotRun : index ∉ runOutputs.map Prod.fst := fun hMem =>
      hSeparate.apart index (List.mem_append_right _ (hRunIndexes ▸ hMem)) hIndex
    exact (hOther index hNotPhase).trans (hRunOther index hNotRun)

theorem power_paths_agree [IsStrictOrderedRing K] (node : PcsPowerSolve) (wiring : ModularWiring) (sqrt : K → K)
    (rejection : UInt32 → K → Option String) (cycle : PowerCycle K) (hTotalIndex : wiring.cdFdTotalIndex ≠ 0)
    (hRunIndex : node.skRunIndex ≠ 0)
    (hTotal : cycle.latestValue wiring.cdFdTotalIndex =
      some ((cycle.latestValue node.outP3CdIndex).getD 0 + (cycle.latestValue node.outP3FdIndex).getD 0))
    (hSwitch : ∀ value, cycle.latestValue node.skRunIndex = some value → value = 0 ∨ value = 1)
    (hSeparate : wiring.Separate node rejection) :
    let arbitrated := runPhaseArbiter (wiring.arbiter node) rejection cycle
    let solved := node.solve sqrt cycle.latestValue
    arbitrated.1 = .ok true ∧ (wiring.constraint node).solve sqrt arbitrated.2.latestValue =
      some ⟨solved.pcsPOut.toList, solved.pcsQOut.toList, solved.zrRunValue, solved.bmsLowLimit, solved.bmsUpLimit⟩ := by
  intro arbitrated solved
  obtain ⟨hDone, hActive, hReactive, hKept⟩ :=
    arbiter_run hSeparate (arbiter_solve hTotalIndex hRunIndex hTotal hSwitch)
  refine ⟨hDone, ?_⟩
  rw [constraint_solve sqrt (congrArg Phases.all hActive) (congrArg Phases.all hReactive), limits_congr sqrt _ hKept]
  rfl

end Paths

def squareRoot (x : ℚ) : ℚ := (Nat.sqrt x.num.toNat : ℚ) / (Nat.sqrt x.den : ℚ)

def chargingCycle : PowerCycle ℚ where
  latestValue index := some <| ([(700301, 30), (613, 30), (609, 12), (454, 1), (453, 100), (311, 95), (535, 50), (151, 30),
    (1552, 20), (1553, 20), (1570, 50), (161, 90), (162, 10)] : List (UInt32 × ℚ)).lookup index |>.getD 0
  written := []

def modularWiring : ModularWiring where
  cdFdTotalIndex := 700301
  arbiterActive := ⟨700302, 700303, 700304⟩
  arbiterReactive := ⟨700305, 700306, 700307⟩
  hvRunOutput := 12
  activeOutput := ⟨627, 628, 629⟩
  reactiveOutput := ⟨630, 631, 632⟩
  reserveRunOutput := 24
  lowStateClearIndexes := [8, 10]
  highStateClearIndexes := [12, 22]

theorem power_paths_agree_while_charging :
    (modularWiring.constraint {}).solve squareRoot
        (runPhaseArbiter (modularWiring.arbiter {}) (fun _ _ => none) chargingCycle).2.latestValue =
      some ⟨[8, 8, 4], [0, 0, 0], 0, false, false⟩ := by
  have hSwitch : ∀ value, chargingCycle.latestValue 26 = some value → value = 0 ∨ value = 1 := by
    rintro value hValue
    exact .inl (Option.some.inj hValue).symm
  have hApart : (modularWiring.phaseIndexes ++ modularWiring.runIndexes).all
      (fun index => index ∉ ({} : PcsPowerSolve).limitIndexes) = true := by
    decide
  have hSeparate : modularWiring.Separate {} (fun _ (_ : ℚ) => none) :=
    ⟨by decide, fun index hIndex => of_decide_eq_true (List.all_eq_true.mp hApart index hIndex), fun _ _ _ => rfl⟩
  rw [(power_paths_agree {} modularWiring squareRoot (fun _ _ => none) chargingCycle (by decide +kernel) (by decide +kernel)
    (by decide +kernel) hSwitch hSeparate).2]
  decide +kernel

/-- An arbiter that writes over the load of a phase leads the constraint node to other set-points. -/
theorem arbiter_writes_over_load :
    ∃ wiring : ModularWiring, wiring.cdFdTotalIndex ≠ 0 ∧ wiring.phaseIndexes.Nodup ∧
      chargingCycle.latestValue wiring.cdFdTotalIndex = some 30 ∧ chargingCycle.latestValue 613 = some 30 ∧
      chargingCycle.latestValue 614 = some 0 ∧ (∀ index, (chargingCycle.latestValue index).isSome) ∧
      [26, 23, 454, 458].map chargingCycle.latestValue = [some 0, some 0, some 1, some 0] ∧
      ((wiring.constraint {}).solve squareRoot
          (runPhaseArbiter (wiring.arbiter {}) (fun _ _ => none) chargingCycle).2.latestValue).map
            ConstrainedPowers.active ≠
        some (PcsPowerSolve.solve {} squareRoot chargingCycle.latestValue).pcsPOut.toList := by
  refine ⟨{ modularWiring with arbiterActive := ⟨311, 700303, 700304⟩ }, by decide, by decide, ?_⟩
  refine ⟨by decide +kernel, by decide +kernel, by decide +kernel, fun index => rfl, by decide +kernel, ?_⟩
  decide +kernel

end EdgeGateway.GraphEms
