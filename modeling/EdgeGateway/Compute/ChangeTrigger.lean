import EdgeGateway.Compute.ScanOrder

/-! # What triggers a rule on changed inputs -/

namespace EdgeGateway.Compute

universe u

variable {K : Type u} [Field K] [LinearOrder K]

section Snapshots

inductive InputChange (deadband : K) (previous current : InputMap K) (index : UInt32) : Prop
  | appeared (hPresent : index ∈ current) (hAbsent : index ∉ previous)
  | altered {before after : StoredPointValue K} (hBefore : previous.lookup index = some before)
      (hAfter : current.lookup index = some after)
      (hDiffers : before.quality ≠ after.quality ∨ before.stale ≠ after.stale ∨ before.ts ≠ after.ts ∨
        deadband < |before.value - after.value|)

def Disappeared (previous current : InputMap K) (index : UInt32) : Prop := index ∈ previous ∧ index ∉ current

variable {deadband : K} {previous current : InputMap K} {index : UInt32} {value : StoredPointValue K}

theorem changedSince_iff (h : current.lookup index = some value) :
    changedSince previous deadband index value = true ↔ InputChange deadband previous current index := by
  have hPresent : index ∈ current := by
    rw [← AList.lookup_isSome, h]
    rfl
  rw [changedSince]
  cases hBefore : previous.lookup index with
  | none =>
    have hAbsent : index ∉ previous := AList.lookup_eq_none.mp hBefore
    exact ⟨fun _ => .appeared hPresent hAbsent, fun _ => rfl⟩
  | some before =>
    simp only [Bool.or_eq_true, bne_iff_ne, decide_eq_true_eq]
    constructor
    · rintro (((hQuality | hStale) | hTime) | hValue)
      · exact .altered hBefore h (.inl hQuality)
      · exact .altered hBefore h (.inr (.inl hStale))
      · exact .altered hBefore h (.inr (.inr (.inl hTime)))
      · exact .altered hBefore h (.inr (.inr (.inr hValue)))
    · intro hChange
      cases hChange with
      | appeared _ hAbsent =>
        rw [AList.lookup_eq_none.mpr hAbsent] at hBefore
        cases hBefore
      | altered hFound hAfter hDiffers =>
        obtain rfl := Option.some.inj (hFound.symm.trans hBefore)
        obtain rfl := Option.some.inj (hAfter.symm.trans h)
        obtain hQuality | hStale | hTime | hValue := hDiffers
        · exact .inl (.inl (.inl hQuality))
        · exact .inl (.inl (.inr hStale))
        · exact .inl (.inr hTime)
        · exact .inr hValue

theorem InputChange.lookup (h : InputChange deadband previous current index) :
    ∃ value, current.lookup index = some value := by
  cases h with
  | appeared hPresent _ => exact Option.isSome_iff_exists.mp (AList.lookup_isSome.mpr hPresent)
  | altered _ hAfter _ => exact ⟨_, hAfter⟩

theorem any_changedSince_iff :
    (current.entries.any fun entry => changedSince previous deadband entry.1 entry.2) = true ↔
      ∃ index, InputChange deadband previous current index := by
  rw [List.any_eq_true]
  constructor
  · rintro ⟨⟨index, value⟩, hEntry, hChanged⟩
    exact ⟨index, (changedSince_iff (AList.mem_lookup_iff.mpr hEntry)).mp hChanged⟩
  · rintro ⟨index, hChange⟩
    obtain ⟨value, hValue⟩ := hChange.lookup
    exact ⟨⟨index, value⟩, AList.mem_lookup_iff.mp hValue, (changedSince_iff hValue).mpr hChange⟩

end Snapshots

section Trigger

def Elapsed (rule : ComputeRuleConfig K) (state : RuleState K) (nowMs : Int) : Prop :=
  rule.trigger.minIntervalMs ≤ 0 ∨ state.lastEvalMs ≤ 0 ∨ rule.trigger.minIntervalMs ≤ nowMs - state.lastEvalMs

variable {rule : ComputeRuleConfig K} {state : RuleState K} {nowMs : Int}

theorem shouldEvaluate_onInputChanged (inputs : InputMap K) (hType : rule.trigger.type = "onInputChanged".toList)
    (hElapsed : Elapsed rule state nowMs) :
    shouldEvaluate rule inputs state nowMs = true ↔
      state.lastInputs = ∅ ∨ ∃ index, InputChange rule.trigger.deadband state.lastInputs inputs index := by
  have hWait : ¬ (0 < max 0 rule.trigger.minIntervalMs ∧ 0 < state.lastEvalMs ∧
      nowMs - state.lastEvalMs < max 0 rule.trigger.minIntervalMs) := by
    rw [Elapsed] at hElapsed
    omega
  have hEmpty : state.lastInputs = ∅ ↔ state.lastInputs.entries = [] := AList.ext_iff
  have hTrigger : (if rule.trigger.type = [] then "interval".toList else rule.trigger.type) =
      "onInputChanged".toList := by
    rw [hType]
    rfl
  rw [shouldEvaluate]
  dsimp only
  rw [hTrigger, if_neg (by decide), if_pos rfl, if_neg hWait, hEmpty, ← any_changedSince_iff]
  split
  · rename_i hNone
    exact ⟨fun _ => .inl hNone, fun _ => rfl⟩
  · rename_i hSome
    exact ⟨.inr, fun h => h.resolve_left hSome⟩

end Trigger

section Evaluations

variable (config : ComputeEngineConfig K) (input : ScanInput K)

def ranUnder (code : StdString) (evaluation : ScanInput K × Nat) : Bool :=
  config.rules[evaluation.2]?.any fun rule => decide (safeRuleCode rule = code)

def lastUnder (code : StdString) (evaluations : List (ScanInput K × Nat)) : RuleState K :=
  (evaluations.filter (ranUnder config code)).getLast?.elim {} fun evaluation =>
    ⟨evaluation.1.nowMs, currentInputs (evaluation.1.latest evaluation.2)⟩

def evaluationsFrom (service : ComputeEngineService K) : List (ScanInput K) → List (ScanInput K × Nat)
  | [] => []
  | input :: inputs => (runOnce config input service).evaluated.map (Prod.mk input) ++
      evaluationsFrom (service.step config input) inputs

def Recalls (earlier : List (ScanInput K × Nat)) (st : Scan K) : Prop :=
  ∀ code, st.service.ruleStates code = lastUnder config code (earlier ++ st.evaluated.map (Prod.mk input))

theorem ruleStates_actRule (st : Scan K) (place : Nat) (rule : ComputeRuleConfig K) :
    (actRule config input st (rule, place)).service.ruleStates =
      Function.update st.service.ruleStates (safeRuleCode rule) ⟨input.nowMs, currentInputs (input.latest place)⟩ := by
  have hRule : (evaluateRule config input place rule (currentInputs (input.latest place)) st).service.ruleStates =
      st.service.ruleStates := congrArg Prod.snd (kept_evaluateRule config input _ _ _ _)
  rw [actRule, Scan.noteEvaluated]
  dsimp only
  rw [hRule]

variable {config input} {earlier : List (ScanInput K × Nat)} {st : Scan K}

theorem Recalls.actRule {place : Nat} {rule : ComputeRuleConfig K} (h : Recalls config input earlier st)
    (hRule : config.rules[place]? = some rule) :
    Recalls config input earlier (actRule config input st (rule, place)) := by
  intro code
  rw [ruleStates_actRule, evaluated_actRule, List.map_append, ← List.append_assoc, lastUnder, List.filter_append,
    List.map_singleton, List.filter_singleton]
  obtain rfl | hOther := eq_or_ne (safeRuleCode rule) code
  · have hRan : ranUnder config (safeRuleCode rule) (input, place) = true := by
      rw [ranUnder, hRule]
      exact decide_eq_true rfl
    rw [hRan, Function.update_self, cond_true, List.getLast?_append_cons]
    rfl
  · have hRan : ranUnder config code (input, place) = false := by
      rw [ranUnder, hRule]
      exact decide_eq_false hOther
    rw [hRan, Function.update_of_ne hOther.symm, cond_false, List.append_nil, h code]
    rfl

theorem Recalls.scanRules {place : Nat} {rules : List (ComputeRuleConfig K)} (h : Recalls config input earlier st)
    (hRules : ∀ (i : Nat) (rule : ComputeRuleConfig K), rules[i]? = some rule → config.rules[place + i]? = some rule) :
    Recalls config input earlier (scanRules config input place rules st) := by
  induction rules generalizing place st with
  | nil => exact h
  | cons rule rest ih =>
    have hRest : ∀ (i : Nat) (other : ComputeRuleConfig K), rest[i]? = some other →
        config.rules[place + 1 + i]? = some other := by
      intro i other hOther
      have hNext := hRules (i + 1) other hOther
      rwa [Nat.add_assoc, Nat.add_comm 1 i]
    rw [Compute.scanRules]
    split
    · exact ih h hRest
    · split
      · exact h
      · split
        · exact ih (h.actRule (hRules 0 rule rfl)) hRest
        · exact ih h hRest

omit [Field K] [LinearOrder K] in
theorem recalls_start {service : ComputeEngineService K}
    (h : ∀ code, service.ruleStates code = lastUnder config code earlier) : Recalls config input earlier ⟨service, [], 0⟩ := by
  intro code
  rw [List.map_nil, List.append_nil]
  exact h code

theorem recalls_after (inputs : List (ScanInput K)) {service : ComputeEngineService K}
    (h : ∀ code, service.ruleStates code = lastUnder config code earlier) (code : StdString) :
    (Run.after (ComputeEngineService.step config) service inputs).ruleStates code =
      lastUnder config code (earlier ++ evaluationsFrom config service inputs) := by
  induction inputs generalizing service earlier with
  | nil =>
    rw [evaluationsFrom, List.append_nil]
    exact h code
  | cons input inputs ih =>
    have hScan : Recalls config input earlier (runOnce config input service) := by
      refine (recalls_start h).scanRules ?_
      intro i rule hRule
      rwa [Nat.zero_add]
    rw [evaluationsFrom, ← List.append_assoc]
    exact ih hScan

theorem ruleStates_turnOf (config : ComputeEngineConfig K) (inputs : List (ScanInput K)) (input : ScanInput K) (place : Nat)
    (code : StdString) :
    let turn := turnOf config input (Run.after (ComputeEngineService.step config) .created inputs) place
    turn.service.ruleStates code =
      lastUnder config code (evaluationsFrom config .created inputs ++ turn.evaluated.map (Prod.mk input)) := by
  have hBefore : ∀ code, (Run.after (ComputeEngineService.step config) .created inputs).ruleStates code =
      lastUnder config code ([] ++ evaluationsFrom config .created inputs) :=
    recalls_after inputs fun _ => rfl
  refine (recalls_start hBefore).scanRules ?_ code
  intro i rule hRule
  rw [Nat.zero_add]
  rw [List.getElem?_take] at hRule
  split at hRule
  · exact hRule
  · cases hRule

end Evaluations

/-- An empty last snapshot and a changed input trigger the rule; as long as no input disappears, nothing else
    does. -/
theorem trigger_on_changed_inputs :
    (∀ (rule : ComputeRuleConfig K) (state : RuleState K) (inputs : InputMap K) (nowMs : Int),
      rule.trigger.type = "onInputChanged".toList → Elapsed rule state nowMs →
      ((state.lastInputs = ∅ ∨ ∃ index, InputChange rule.trigger.deadband state.lastInputs inputs index) →
        shouldEvaluate rule inputs state nowMs = true) ∧
      ((∀ index, ¬ Disappeared state.lastInputs inputs index) → shouldEvaluate rule inputs state nowMs = true →
        state.lastInputs = ∅ ∨ ∃ index, InputChange rule.trigger.deadband state.lastInputs inputs index)) ∧
    ∀ (config : ComputeEngineConfig K) (inputs : List (ScanInput K)) (input : ScanInput K) (place : Nat)
      (rule : ComputeRuleConfig K),
      let turn := turnOf config input (Run.after (ComputeEngineService.step config) .created inputs) place
      dueAt input place rule turn = shouldEvaluate rule (currentInputs (input.latest place))
        (lastUnder config (safeRuleCode rule)
          (evaluationsFrom config .created inputs ++ turn.evaluated.map (Prod.mk input))) input.nowMs := by
  constructor
  · intro rule state inputs nowMs hType hElapsed
    have hTrigger := shouldEvaluate_onInputChanged inputs hType hElapsed
    exact ⟨hTrigger.mpr, fun _ => hTrigger.mp⟩
  · intro config inputs input place rule
    exact congrArg (fun state => shouldEvaluate rule (currentInputs (input.latest place)) state input.nowMs)
      (ruleStates_turnOf config inputs input place (safeRuleCode rule))

def changeRule : ComputeRuleConfig ℚ :=
  ⟨"A".toList, [], true, ⟨"onInputChanged".toList, 1000, 200, 1⟩, [], [], ⟨"expression".toList, []⟩⟩

def onePoint (ts : Int) (value : ℚ) : InputMap ℚ := AList.singleton 7 ⟨7, value, 1, ts, false⟩

theorem eq_of_lookup_onePoint {ts : Int} {value : ℚ} {index : UInt32} {point : StoredPointValue ℚ}
    (h : (onePoint ts value).lookup index = some point) : point = ⟨7, value, 1, ts, false⟩ := by
  have hEntry : Sigma.mk index point ∈ (onePoint ts value).entries := AList.mem_lookup_iff.mp h
  obtain ⟨rfl, hPoint⟩ := Sigma.mk.inj (List.mem_singleton.mp hEntry)
  exact eq_of_heq hPoint

/-- An input published again with the same value triggers the rule. -/
theorem republished_value_triggers :
    shouldEvaluate changeRule (onePoint 2000 5) ⟨1000, onePoint 1000 5⟩ 2000 = true ∧
      ¬ ∃ index, (index ∈ onePoint 2000 5 ↔ index ∉ onePoint 1000 5) ∨
        ∃ before after, (onePoint 1000 5).lookup index = some before ∧ (onePoint 2000 5).lookup index = some after ∧
          (before.quality ≠ after.quality ∨ before.stale ≠ after.stale ∨
            changeRule.trigger.deadband < |before.value - after.value|) := by
  refine ⟨by decide +kernel, ?_⟩
  rintro ⟨index, hOne | ⟨before, after, hBefore, hAfter, hDiffers⟩⟩
  · exact iff_not_self hOne
  · obtain rfl := eq_of_lookup_onePoint hBefore
    obtain rfl := eq_of_lookup_onePoint hAfter
    revert hDiffers
    decide +kernel

/-- A value that leaves the deadband triggers the rule, one that stays in it under the same time stamp does not. -/
theorem deadband_of_sample :
    shouldEvaluate changeRule (onePoint 1000 7) ⟨1000, onePoint 1000 5⟩ 2000 = true ∧
      shouldEvaluate changeRule (onePoint 1000 6) ⟨1000, onePoint 1000 5⟩ 2000 ≠ true := by
  have hElapsed : Elapsed changeRule ⟨1000, onePoint 1000 5⟩ 2000 := by
    right
    right
    decide
  constructor
  · refine (trigger_on_changed_inputs.1 changeRule _ (onePoint 1000 7) 2000 rfl hElapsed).1 (.inr ⟨7, ?_⟩)
    have hBefore : (onePoint 1000 5).lookup 7 = some ⟨7, 5, 1, 1000, false⟩ := rfl
    have hAfter : (onePoint 1000 7).lookup 7 = some ⟨7, 7, 1, 1000, false⟩ := rfl
    exact .altered hBefore hAfter (by decide +kernel)
  · intro h
    obtain hEmpty | ⟨index, hChange⟩ :=
      (trigger_on_changed_inputs.1 changeRule _ (onePoint 1000 6) 2000 rfl hElapsed).2 (fun _ hGone => hGone.2 hGone.1) h
    · exact absurd (AList.ext_iff.mp hEmpty) (List.cons_ne_nil _ _)
    · cases hChange with
      | appeared hIn hOut => exact hOut hIn
      | altered hBefore hAfter hDiffers =>
        obtain rfl := eq_of_lookup_onePoint hBefore
        obtain rfl := eq_of_lookup_onePoint hAfter
        revert hDiffers
        decide +kernel

end EdgeGateway.Compute
