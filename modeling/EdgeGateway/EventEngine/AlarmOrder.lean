import EdgeGateway.EventEngine.Service
import EdgeGateway.Foundation.Switching

/-! # The order of alarm events -/

namespace EdgeGateway.EventEngine

open Switching

universe u

variable {K : Type u} [LE K] [DecidableLE K]

def AlarmEvent.key (event : AlarmEvent K) : UInt32 × AlarmType := (event.index, event.alarmType)

def AlarmScan.directions (scan : AlarmScan K) (key : UInt32 × AlarmType) : List Bool :=
  (scan.events.filter (·.key = key)).map (·.active)

def observed (key : UInt32 × AlarmType) (value : StoredPointValue K) (binding : AlarmBinding K) : List Bool :=
  if (value.index, binding.rule.type) = key then [isRuleActive binding.rule value.value] else []

/-- What the rules of a type say of the values of an index, in the order of the evaluation. -/
def observations (config : EventEngineConfig K) (key : UInt32 × AlarmType) (values : List (StoredPointValue K)) :
    List Bool :=
  values.flatMap fun value => (config.bindingsByIndex value.index).flatMap (observed key value)

def ReportsRecovery (config : EventEngineConfig K) : Prop :=
  ∀ index, ∀ binding ∈ config.bindingsByIndex index, binding.rule.reportRecovery = true

structure Follows (config : EventEngineConfig K) (key : UInt32 × AlarmType) (before : Bool) (seen : List Bool)
    (scan : AlarmScan K) : Prop where
  state : scan.activeStates key = final before seen
  activations : (scan.activations.filter (·.key = key)).map (·.active) = (changes before seen).filter (·)
  recoveries : ((scan.recoveries.filter (·.key = key)).map (·.active)).Sublist ((changes before seen).filter (!·))
  reported : ReportsRecovery config →
    (scan.recoveries.filter (·.key = key)).map (·.active) = (changes before seen).filter (!·)

variable {config : EventEngineConfig K} {key : UInt32 × AlarmType} {before : Bool} {seen : List Bool}
  {scan : AlarmScan K} {value : StoredPointValue K}

theorem evaluateBinding_same {binding : AlarmBinding K}
    (h : isRuleActive binding.rule value.value = scan.activeStates (value.index, binding.rule.type)) :
    evaluateBinding value scan binding = scan := by
  rw [evaluateBinding, ← h, Bool.and_not_self, Bool.not_and_self]
  rfl

theorem evaluateBinding_off {binding : AlarmBinding K} (hNow : isRuleActive binding.rule value.value = false)
    (hWas : scan.activeStates (value.index, binding.rule.type) = true) :
    evaluateBinding value scan binding =
      { scan with
        recoveries := if binding.rule.reportRecovery then scan.recoveries ++ [Toggle.event ⟨binding, value, false⟩]
          else scan.recoveries
        activeStates := Function.update scan.activeStates (value.index, binding.rule.type) false
        toggles := scan.toggles ++ [⟨binding, value, false⟩] } := by
  rw [evaluateBinding, hNow, hWas]
  rfl

theorem evaluateBinding_on {binding : AlarmBinding K} (hNow : isRuleActive binding.rule value.value = true)
    (hWas : scan.activeStates (value.index, binding.rule.type) = false) :
    evaluateBinding value scan binding =
      { scan with
        activations := scan.activations ++ [Toggle.event ⟨binding, value, true⟩]
        activeStates := Function.update scan.activeStates (value.index, binding.rule.type) true
        toggles := scan.toggles ++ [⟨binding, value, true⟩] } := by
  rw [evaluateBinding, hNow, hWas]
  rfl

theorem filter_event (l : List (AlarmEvent K)) (toggle : Toggle K) :
    (l ++ [toggle.event]).filter (·.key = key) =
      l.filter (·.key = key) ++ if (toggle.value.index, toggle.binding.rule.type) = key then [toggle.event] else [] := by
  rw [List.filter_append]
  congr 1
  split
  · rename_i hKey
    exact List.filter_cons_of_pos (decide_eq_true hKey)
  · rename_i hOther
    exact List.filter_cons_of_neg (fun h => hOther (of_decide_eq_true h))

namespace Follows

theorem other {binding : AlarmBinding K} (h : Follows config key before seen scan)
    (hOther : (value.index, binding.rule.type) ≠ key) :
    Follows config key before seen (evaluateBinding value scan binding) := by
  have hFilter : ∀ active (l : List (AlarmEvent K)),
      (l ++ [Toggle.event ⟨binding, value, active⟩]).filter (·.key = key) = l.filter (·.key = key) := by
    intro active l
    rw [filter_event, if_neg hOther, List.append_nil]
  have hState : ∀ active, Function.update scan.activeStates (value.index, binding.rule.type) active key =
      scan.activeStates key := fun active => Function.update_of_ne (Ne.symm hOther) _ _
  cases hNow : isRuleActive binding.rule value.value <;>
    cases hWas : scan.activeStates (value.index, binding.rule.type)
  · rwa [evaluateBinding_same (hNow.trans hWas.symm)]
  · rw [evaluateBinding_off hNow hWas]
    have hRecoveries : (if binding.rule.reportRecovery then
        scan.recoveries ++ [Toggle.event ⟨binding, value, false⟩] else scan.recoveries).filter (·.key = key) =
          scan.recoveries.filter (·.key = key) := by
      split
      · exact hFilter false scan.recoveries
      · rfl
    constructor
    · exact (hState false).trans h.state
    · exact h.activations
    · rw [hRecoveries]
      exact h.recoveries
    · rw [hRecoveries]
      exact h.reported
  · rw [evaluateBinding_on hNow hWas]
    constructor
    · exact (hState true).trans h.state
    · rw [hFilter]
      exact h.activations
    · exact h.recoveries
    · exact h.reported
  · rwa [evaluateBinding_same (hNow.trans hWas.symm)]

theorem own {binding : AlarmBinding K} (h : Follows config (value.index, binding.rule.type) before seen scan)
    (hBinding : binding ∈ config.bindingsByIndex value.index) :
    Follows config (value.index, binding.rule.type) before (seen ++ [isRuleActive binding.rule value.value])
      (evaluateBinding value scan binding) := by
  have hFilter : ∀ active (l : List (AlarmEvent K)),
      ((l ++ [Toggle.event ⟨binding, value, active⟩]).filter (·.key = (value.index, binding.rule.type))).map
        (·.active) = (l.filter (·.key = (value.index, binding.rule.type))).map (·.active) ++ [active] := by
    intro active l
    rw [filter_event, if_pos rfl, List.map_append]
    rfl
  obtain hSame | hChanged := eq_or_ne (isRuleActive binding.rule value.value) (final before seen)
  · have hChanges : changes before (seen ++ [isRuleActive binding.rule value.value]) = changes before seen := by
      rw [changes_snoc, if_pos hSame, List.append_nil]
    rw [evaluateBinding_same (hSame.trans h.state.symm)]
    constructor
    · rw [final_snoc, hSame, h.state]
    · rw [hChanges, h.activations]
    · rw [hChanges]
      exact h.recoveries
    · rw [hChanges]
      exact h.reported
  · have hChanges : changes before (seen ++ [isRuleActive binding.rule value.value]) =
        changes before seen ++ [isRuleActive binding.rule value.value] := by
      rw [changes_snoc, if_neg hChanged]
    have hState := h.state
    cases hNow : isRuleActive binding.rule value.value with
    | false =>
      have hWas : scan.activeStates (value.index, binding.rule.type) = true := by
        rw [hState]
        simpa [hNow] using hChanged.symm
      rw [hNow] at hChanges
      rw [evaluateBinding_off hNow hWas]
      constructor
      · rw [final_snoc]
        exact Function.update_self ..
      · rw [hChanges, List.filter_append, h.activations]
        exact (List.append_nil _).symm
      · rw [hChanges, List.filter_append]
        dsimp only
        split
        · rw [hFilter]
          exact h.recoveries.append (List.Sublist.refl _)
        · exact h.recoveries.trans (List.sublist_append_left _ _)
      · intro hReports
        rw [hChanges, List.filter_append, ← h.reported hReports]
        dsimp only
        rw [if_pos (hReports _ _ hBinding), hFilter]
        rfl
    | true =>
      have hWas : scan.activeStates (value.index, binding.rule.type) = false := by
        rw [hState]
        simpa [hNow] using hChanged.symm
      rw [hNow] at hChanges
      rw [evaluateBinding_on hNow hWas]
      constructor
      · rw [final_snoc]
        exact Function.update_self ..
      · rw [hChanges, hFilter, h.activations, List.filter_append]
        rfl
      · rw [hChanges, List.filter_append]
        exact h.recoveries.trans (List.sublist_append_left _ _)
      · intro hReports
        rw [hChanges, List.filter_append, ← h.reported hReports]
        exact (List.append_nil _).symm

theorem evaluateBinding (h : Follows config key before seen scan) {binding : AlarmBinding K}
    (hBinding : binding ∈ config.bindingsByIndex value.index) :
    Follows config key before (seen ++ observed key value binding) (evaluateBinding value scan binding) := by
  rw [observed]
  split
  · rename_i hKey
    subst hKey
    exact h.own hBinding
  · rename_i hOther
    rw [List.append_nil]
    exact h.other hOther

theorem foldl_evaluateBinding {bindings : List (AlarmBinding K)} (h : Follows config key before seen scan)
    (hBindings : bindings.Subset (config.bindingsByIndex value.index)) :
    Follows config key before (seen ++ bindings.flatMap (observed key value))
      (bindings.foldl (EventEngine.evaluateBinding value) scan) := by
  induction bindings generalizing seen scan with
  | nil => simpa using h
  | cons binding bindings ih =>
    obtain ⟨hBinding, hBindings⟩ := List.cons_subset.mp hBindings
    rw [List.foldl_cons, List.flatMap_cons, ← List.append_assoc]
    exact ih (h.evaluateBinding hBinding) hBindings

theorem foldl_evaluateValue (values : List (StoredPointValue K)) (h : Follows config key before seen scan) :
    Follows config key before (seen ++ observations config key values)
      (values.foldl (evaluateValue config) scan) := by
  induction values generalizing seen scan with
  | nil => simpa [observations] using h
  | cons value values ih =>
    rw [List.foldl_cons, observations, List.flatMap_cons, ← List.append_assoc]
    exact ih (h.foldl_evaluateBinding (List.Subset.refl _))

end Follows

theorem follows_evaluate (config : EventEngineConfig K) (activeStates : UInt32 × AlarmType → Bool)
    (values : List (StoredPointValue K)) (key : UInt32 × AlarmType) :
    Follows config key (activeStates key) (observations config key values) (evaluate config activeStates values) := by
  have hStart : Follows config key (activeStates key) [] (⟨activeStates, [], [], []⟩ : AlarmScan K) :=
    ⟨rfl, rfl, List.nil_sublist _, fun _ => rfl⟩
  exact hStart.foldl_evaluateValue values

theorem directions_eq_append (scan : AlarmScan K) (key : UInt32 × AlarmType) :
    scan.directions key = (scan.recoveries.filter (·.key = key)).map (·.active) ++
      (scan.activations.filter (·.key = key)).map (·.active) := by
  rw [AlarmScan.directions, AlarmScan.events, List.filter_append, List.map_append]

theorem directions_tell_iff (config : EventEngineConfig K) (hReports : ReportsRecovery config)
    (activeStates : UInt32 × AlarmType → Bool) (values : List (StoredPointValue K)) (key : UInt32 × AlarmType) :
    Tells (activeStates key) ((evaluate config activeStates values).activeStates key)
        ((evaluate config activeStates values).directions key) ↔
      ¬ Swings (activeStates key) (observations config key values) := by
  have hFollows := follows_evaluate config activeStates values key
  rw [directions_eq_append, hFollows.reported hReports, hFollows.activations, ← swings_changes_iff]
  exact tells_offsFirst_iff alternating_changes (final_changes.trans hFollows.state.symm)

def oneThreshold (threshold : Int) : EventEngineConfig Int where
  routeByIndex := fun _ => none
  bindingsByIndex := fun _ => [⟨⟨.high, threshold, true, []⟩, [], [], []⟩]

def sample (value ts : Int) : StoredPointValue Int := ⟨1, [], [], [], value, 1, ts, 0, false⟩

theorem reportsRecovery_oneThreshold (threshold : Int) : ReportsRecovery (oneThreshold threshold) := by
  intro index binding hBinding
  rw [List.mem_singleton.mp hBinding]

theorem directions_tell_fall_and_rise :
    ReportsRecovery (oneThreshold 10) ∧
      Tells true ((evaluate (oneThreshold 10) (fun _ => true) [sample 5 1, sample 20 2]).activeStates (1, .high))
        ((evaluate (oneThreshold 10) (fun _ => true) [sample 5 1, sample 20 2]).directions (1, .high)) :=
  ⟨reportsRecovery_oneThreshold 10,
    (directions_tell_iff (oneThreshold 10) (reportsRecovery_oneThreshold 10) (fun _ => true)
      [sample 5 1, sample 20 2] (1, .high)).mpr (by decide)⟩

/-- A point rises above its threshold and falls again in one batch: the recovery comes before the activation.
    -/
theorem rise_and_fall_reversed :
    ReportsRecovery (oneThreshold 10) ∧
      (evaluate (oneThreshold 10) (fun _ => false) [sample 20 1, sample 5 2]).directions (1, .high) = [false, true] ∧
      (evaluate (oneThreshold 10) (fun _ => false) [sample 20 1, sample 5 2]).activeStates (1, .high) = false ∧
      ¬ Tells false
          ((evaluate (oneThreshold 10) (fun _ => false) [sample 20 1, sample 5 2]).activeStates (1, .high))
          ((evaluate (oneThreshold 10) (fun _ => false) [sample 20 1, sample 5 2]).directions (1, .high)) :=
  ⟨reportsRecovery_oneThreshold 10, by decide, by decide, fun h => h.alternating.1 rfl⟩

/-! ## The same value again

The states do not move: the last rule of a type decides what both passes leave. Events come of every
rule in between that disagrees with it.
-/

def evaluateTwice (config : EventEngineConfig K) (activeStates : UInt32 × AlarmType → Bool)
    (value : StoredPointValue K) : AlarmScan K :=
  evaluate config (evaluate config activeStates [value]).activeStates [value]

def RulesAgree (config : EventEngineConfig K) (value : StoredPointValue K) : Prop :=
  ∀ binding ∈ config.bindingsByIndex value.index, ∀ other ∈ config.bindingsByIndex value.index,
    binding.rule.type = other.rule.type → isRuleActive binding.rule value.value = isRuleActive other.rule value.value

theorem mem_observations_iff {now : Bool} :
    now ∈ observations config key [value] ↔
      ∃ binding ∈ config.bindingsByIndex value.index,
        (value.index, binding.rule.type) = key ∧ isRuleActive binding.rule value.value = now := by
  rw [observations, List.flatMap_singleton, List.mem_flatMap]
  refine exists_congr fun binding => and_congr_right fun _ => ?_
  rw [observed]
  split
  · rename_i hKey
    rw [List.mem_singleton, and_iff_right hKey, eq_comm]
  · rename_i hOther
    simp [hOther]

theorem rulesAgree_iff :
    RulesAgree config value ↔
      ∀ key, ∀ now ∈ observations config key [value], ∀ other ∈ observations config key [value], now = other := by
  constructor
  · intro hAgree key now hNow other hOther
    obtain ⟨binding, hBinding, hKey, rfl⟩ := mem_observations_iff.mp hNow
    obtain ⟨second, hSecond, hSecondKey, rfl⟩ := mem_observations_iff.mp hOther
    exact hAgree binding hBinding second hSecond (Prod.ext_iff.mp (hKey.trans hSecondKey.symm)).2
  · intro hAgree binding hBinding other hOther hType
    exact hAgree (value.index, binding.rule.type) _ (mem_observations_iff.mpr ⟨binding, hBinding, rfl, rfl⟩) _
      (mem_observations_iff.mpr ⟨other, hOther, by rw [hType], rfl⟩)

theorem directions_eq_nil_iff {scan : AlarmScan K} : scan.events = [] ↔ ∀ key, scan.directions key = [] := by
  constructor
  · intro h key
    rw [AlarmScan.directions, h]
    rfl
  · intro h
    rw [List.eq_nil_iff_forall_not_mem]
    intro event hEvent
    have hNone := h event.key
    rw [AlarmScan.directions, List.map_eq_nil_iff, List.filter_eq_nil_iff] at hNone
    exact hNone event hEvent (decide_eq_true rfl)

theorem Follows.directions_eq_nil_iff (h : Follows config key before seen scan) (hBack : final before seen = before) :
    scan.directions key = [] ↔ changes before seen = [] := by
  rw [directions_eq_append, h.activations, List.append_eq_nil_iff]
  constructor
  · rintro ⟨-, hActivations⟩
    by_contra hSome
    exact List.filter_eq_nil_iff.mp hActivations true (exists_on_of_changes hBack hSome) rfl
  · intro hNone
    have hRecoveries := h.recoveries
    rw [hNone] at hRecoveries ⊢
    exact ⟨List.sublist_nil.mp hRecoveries, rfl⟩

theorem evaluateTwice_settled_iff (config : EventEngineConfig K) (activeStates : UInt32 × AlarmType → Bool)
    (value : StoredPointValue K) :
    (evaluateTwice config activeStates value).events = [] ∧
        (evaluateTwice config activeStates value).activeStates = (evaluate config activeStates [value]).activeStates ↔
      RulesAgree config value := by
  have hFirst := fun key => (follows_evaluate config activeStates [value] key).state
  have hSecond := follows_evaluate config (evaluate config activeStates [value]).activeStates [value]
  have hBack : ∀ key, final ((evaluate config activeStates [value]).activeStates key) (observations config key [value]) =
      (evaluate config activeStates [value]).activeStates key := by
    intro key
    rw [hFirst, final_again]
  have hStates : (evaluateTwice config activeStates value).activeStates =
      (evaluate config activeStates [value]).activeStates := by
    funext key
    exact (hSecond key).state.trans (hBack key)
  rw [and_iff_left hStates, EventEngine.directions_eq_nil_iff, rulesAgree_iff]
  refine forall_congr' fun key => ?_
  rw [evaluateTwice, (hSecond key).directions_eq_nil_iff (hBack key), hFirst, changes_again_eq_nil_iff]

def twoThresholds (lower upper : Int) : EventEngineConfig Int where
  routeByIndex := fun _ => none
  bindingsByIndex := fun _ => [⟨⟨.high, lower, true, []⟩, [], [], []⟩, ⟨⟨.high, upper, true, []⟩, [], [], []⟩]

/-- A value between two thresholds goes off and on at every evaluation. -/
theorem between_thresholds_unsettled :
    ((evaluateTwice (twoThresholds 10 20) (fun _ => false) (sample 15 1)).events.map fun event =>
        (event.active, event.threshold)) = [(false, 20), (true, 10)] ∧
      ¬ RulesAgree (twoThresholds 10 20) (sample 15 1) ∧
      ¬ ((evaluateTwice (twoThresholds 10 20) (fun _ => false) (sample 15 1)).events = [] ∧
        (evaluateTwice (twoThresholds 10 20) (fun _ => false) (sample 15 1)).activeStates =
          (evaluate (twoThresholds 10 20) (fun _ => false) [sample 15 1]).activeStates) := by
  refine ⟨by decide, ?_, fun h => absurd h.1 (by decide)⟩
  intro hAgree
  exact absurd (hAgree _ List.mem_cons_self _ (List.mem_cons_of_mem _ List.mem_cons_self) rfl) (by decide)

end EdgeGateway.EventEngine
