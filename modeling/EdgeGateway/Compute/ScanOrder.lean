import EdgeGateway.Compute.Service
import EdgeGateway.Foundation.Quota
import EdgeGateway.Foundation.Run
import Mathlib.Algebra.Order.Ring.Rat
import Mathlib.Algebra.Field.Rat

/-! # Which rules a scan evaluates -/

namespace EdgeGateway.Compute

universe u

variable {K : Type u} [Field K] [LinearOrder K] (config : ComputeEngineConfig K) (input : ScanInput K)

def turnOf (service : ComputeEngineService K) (place : Nat) : Scan K :=
  scanRules config input 0 (config.rules.take place) ⟨service, [], 0⟩

def dueIn (service : ComputeEngineService K) (place : Nat) : Bool :=
  config.rules[place]?.any fun rule => rule.enabled && dueAt input place rule (turnOf config input service place)

def dueAhead (service : ComputeEngineService K) (place : Nat) : Nat :=
  ((List.range place).filter fun other => dueIn config input service other).length

def readyRule (st : Scan K) (item : ComputeRuleConfig K × Nat) : Bool := item.1.enabled && dueAt input item.2 item.1 st

def actRule (st : Scan K) (item : ComputeRuleConfig K × Nat) : Scan K :=
  let inputs := currentInputs (input.latest item.2)
  (evaluateRule config input item.2 item.1 inputs st).noteEvaluated input item.2 item.1 inputs

/-- What the outputs of a rule leave alone. -/
def Scan.kept (st : Scan K) : List Nat × (StdString → RuleState K) := (st.evaluated, st.service.ruleStates)

theorem kept_outputLoop (place : Nat) (rule : ComputeRuleConfig K) (inputs : NamedInputs K) (result : Option K)
    (position : Nat) (outputs : List (ComputeOutputConfig K)) (st : Scan K) :
    (outputLoop config input place rule inputs result position outputs st).kept = st.kept := by
  have hPublish : ∀ (output : ComputeOutputConfig K) (value : K) (quality : Int) (st : Scan K),
      (publishLatest config input output value quality st).kept = st.kept := by
    intro output value quality st
    rw [publishLatest]
    split <;> rfl
  induction outputs generalizing position st with
  | nil => rfl
  | cons output rest ih =>
    rw [outputLoop]
    dsimp only
    split
    · split
      · split
        · rw [ih, hPublish]
        · split
          · rw [hPublish]
          · rw [ih]
            exact hPublish output _ _ st
      · rw [ih]
        exact hPublish output _ _ st
    · rw [ih]

theorem kept_evaluateRule (place : Nat) (rule : ComputeRuleConfig K) (inputs : InputMap K) (st : Scan K) :
    (evaluateRule config input place rule inputs st).kept = st.kept := by
  rw [evaluateRule]
  split
  · rfl
  · exact kept_outputLoop config input _ _ _ _ _ _ _

theorem evaluated_actRule (st : Scan K) (item : ComputeRuleConfig K × Nat) :
    (actRule config input st item).evaluated = st.evaluated ++ [item.2] := by
  have hRule : (evaluateRule config input item.2 item.1 (currentInputs (input.latest item.2)) st).evaluated =
      st.evaluated := congrArg Prod.fst (kept_evaluateRule config input _ _ _ _)
  rw [actRule, Scan.noteEvaluated]
  dsimp only
  rw [hRule]

def Agrees (p : Quota.Progress (Scan K) (ComputeRuleConfig K × Nat)) : Prop := p.state.evaluated = p.taken.map Prod.snd

def quotaScan (items : List (ComputeRuleConfig K × Nat)) (p : Quota.Progress (Scan K) (ComputeRuleConfig K × Nat)) :
    Quota.Progress (Scan K) (ComputeRuleConfig K × Nat) :=
  Quota.scan (readyRule input) (actRule config input) config.maxRuleEvalPerScan items p

theorem scanRules_eq (place : Nat) (rules : List (ComputeRuleConfig K))
    (p : Quota.Progress (Scan K) (ComputeRuleConfig K × Nat)) (hAgrees : Agrees p) :
    scanRules config input place rules p.state = (quotaScan config input (rules.zipIdx place) p).state ∧
      Agrees (quotaScan config input (rules.zipIdx place) p) := by
  induction rules generalizing place p with
  | nil => exact ⟨rfl, hAgrees⟩
  | cons rule rest ih =>
    have hLength : p.state.evaluated.length = p.taken.length := by
      rw [hAgrees, List.length_map]
    rw [List.zipIdx_cons, quotaScan, Quota.scan, scanRules, hLength]
    cases hEnabled : rule.enabled with
    | false =>
      have hReady : readyRule input p.state (rule, place) = false := by simp [readyRule, hEnabled]
      rw [if_pos rfl, hReady]
      split
      · rename_i hFull
        obtain ⟨hRest, -⟩ := ih (place + 1) p hAgrees
        rw [quotaScan, Quota.scan_full hFull] at hRest
        exact ⟨hRest, hAgrees⟩
      · exact ih (place + 1) p hAgrees
    | true =>
      have hReady : readyRule input p.state (rule, place) = dueAt input place rule p.state := by
        simp [readyRule, hEnabled]
      simp only [Bool.true_eq_false, if_false, hReady]
      split
      · exact ⟨rfl, hAgrees⟩
      · split
        · have hNext : Agrees ⟨actRule config input p.state (rule, place), p.taken ++ [(rule, place)]⟩ := by
            rw [Agrees, evaluated_actRule, hAgrees, List.map_append]
            rfl
          exact ih (place + 1) _ hNext
        · exact ih (place + 1) p hAgrees

section OneScan

variable (service : ComputeEngineService K)

def start : Quota.Progress (Scan K) (ComputeRuleConfig K × Nat) := ⟨⟨service, [], 0⟩, []⟩

theorem turnOf_eq (place : Nat) :
    turnOf config input service place = (quotaScan config input ((config.rules.take place).zipIdx) (start service)).state :=
  (scanRules_eq config input 0 _ (start service) rfl).1

theorem dueIn_eq {place : Nat} {rule : ComputeRuleConfig K} (h : config.rules[place]? = some rule) :
    dueIn config input service place =
      Quota.readyAfter (readyRule input) (actRule config input) config.maxRuleEvalPerScan
        ((config.rules.take place).zipIdx) (start service) (rule, place) := by
  rw [dueIn, h, Option.any_some, turnOf_eq]
  rfl

theorem split_at {α : Type u} {items : List α} {item : α} {place : Nat} (h : items[place]? = some item) :
    items = items.take place ++ item :: items.drop (place + 1) := by
  obtain ⟨hPlace, hAt⟩ := List.getElem?_eq_some_iff.mp h
  conv_lhs => rw [← List.take_append_drop place items, List.drop_eq_getElem_cons hPlace, hAt]

theorem take_zipIdx {α : Type u} (items : List α) (count : Nat) : items.zipIdx.take count = (items.take count).zipIdx := by
  apply List.ext_getElem?
  intro k
  rw [List.getElem?_take, List.getElem?_zipIdx, List.getElem?_zipIdx, List.getElem?_take]
  split <;> rfl

theorem dueAhead_eq {place : Nat} (h : place ≤ config.rules.length) :
    dueAhead config input service place =
      Quota.readyCount (readyRule input) (actRule config input) config.maxRuleEvalPerScan
        ((config.rules.take place).zipIdx) (start service) := by
  rw [dueAhead, Quota.readyCount, List.length_zipIdx, List.length_take, Nat.min_eq_left h]
  congr 1
  apply List.filter_congr
  intro other hOther
  have hOther := List.mem_range.mp hOther
  have hRule : config.rules[other]? = some (config.rules[other]) := List.getElem?_eq_getElem (by omega)
  rw [dueIn_eq config input service hRule, List.getElem?_zipIdx, List.getElem?_take_of_lt hOther, hRule, take_zipIdx,
    List.take_take, Nat.min_eq_left (Nat.le_of_lt hOther)]
  simp

theorem mem_evaluated_iff (place : Nat) :
    place ∈ (runOnce config input service).evaluated ↔
      dueIn config input service place = true ∧ dueAhead config input service place < config.maxRuleEvalPerScan := by
  obtain ⟨hRun, hAgrees⟩ := scanRules_eq config input 0 config.rules (start service) rfl
  have hEvaluated : (runOnce config input service).evaluated =
      (quotaScan config input config.rules.zipIdx (start service)).taken.map Prod.snd := by
    rw [← hAgrees, ← hRun]
    rfl
  have hTaken : ∀ item ∈ (quotaScan config input config.rules.zipIdx (start service)).taken,
      config.rules[item.2]? = some item.1 := by
    intro item hItem
    obtain hNil | hIn := Quota.mem_taken hItem
    · cases hNil
    · exact List.mem_zipIdx_iff_getElem?.mp hIn
  cases hRule : config.rules[place]? with
  | none =>
    have hNotDue : dueIn config input service place = false := by rw [dueIn, hRule, Option.any_none]
    rw [hEvaluated, hNotDue]
    constructor
    · intro hMem
      obtain ⟨item, hItem, rfl⟩ := List.mem_map.mp hMem
      rw [hTaken item hItem] at hRule
      cases hRule
    · rintro ⟨h, -⟩
      cases h
  | some rule =>
    obtain ⟨hPlace, -⟩ := List.getElem?_eq_some_iff.mp hRule
    have hItem : place ∈ (runOnce config input service).evaluated ↔
        (rule, place) ∈ (quotaScan config input config.rules.zipIdx (start service)).taken := by
      rw [hEvaluated, List.mem_map]
      constructor
      · rintro ⟨item, hItem, rfl⟩
        have hSame := (hTaken item hItem).symm.trans hRule
        obtain rfl := Option.some.inj hSame
        exact hItem
      · intro h
        exact ⟨(rule, place), h, rfl⟩
    have hSplit : config.rules.zipIdx =
        (config.rules.take place).zipIdx ++ (rule, place) :: (config.rules.drop (place + 1)).zipIdx (place + 1) := by
      conv_lhs => rw [split_at hRule]
      rw [List.zipIdx_append, List.zipIdx_cons, List.length_take, Nat.min_eq_left hPlace.le, Nat.zero_add]
    have hPast : (rule, place) ∉ (config.rules.take place).zipIdx := by
      intro h
      have hBound := List.snd_lt_of_mem_zipIdx h
      rw [List.length_take] at hBound
      dsimp only at hBound
      omega
    have hLater : (rule, place) ∉ (config.rules.drop (place + 1)).zipIdx (place + 1) := by
      intro h
      have hBound := List.le_snd_of_mem_zipIdx h
      dsimp only at hBound
      omega
    rw [hItem, dueIn_eq config input service hRule, dueAhead_eq config input service hPlace.le, hSplit]
    exact Quota.mem_taken_iff _ hPast hLater

theorem scanRules_append (place : Nat) (rules more : List (ComputeRuleConfig K)) (st : Scan K) :
    scanRules config input place (rules ++ more) st =
      scanRules config input (place + rules.length) more (scanRules config input place rules st) := by
  have hFull : ∀ (place : Nat) (rules : List (ComputeRuleConfig K)) (st : Scan K),
      config.maxRuleEvalPerScan ≤ st.evaluated.length → scanRules config input place rules st = st := by
    intro place rules st hFull
    induction rules generalizing place with
    | nil => rfl
    | cons rule rest ih =>
      rw [scanRules, ih, if_pos hFull]
      split <;> rfl
  induction rules generalizing place st with
  | nil => rfl
  | cons rule rest ih =>
    have hPlace : place + (rule :: rest).length = place + 1 + rest.length := by
      rw [List.length_cons]
      omega
    rw [List.cons_append, scanRules, scanRules, hPlace]
    split
    · exact ih (place + 1) st
    · split
      · rename_i hLimit
        exact (hFull _ more st hLimit).symm
      · split
        · exact ih (place + 1) _
        · exact ih (place + 1) st

theorem length_evaluated_turnOf {place : Nat} (h : place ≤ config.rules.length) :
    (turnOf config input service place).evaluated.length =
      min config.maxRuleEvalPerScan (dueAhead config input service place) := by
  have hAgrees := (scanRules_eq config input 0 (config.rules.take place) (start service) rfl).2
  rw [turnOf_eq, hAgrees, List.length_map, dueAhead_eq config input service h]
  exact Quota.length_taken _ _ _ _ _

theorem runOnce_at {place : Nat} {rule : ComputeRuleConfig K} (hRule : config.rules[place]? = some rule)
    (hEvaluated : place ∈ (runOnce config input service).evaluated) :
    runOnce config input service =
      scanRules config input (place + 1) (config.rules.drop (place + 1))
        (actRule config input (turnOf config input service place) (rule, place)) := by
  obtain ⟨hPlace, -⟩ := List.getElem?_eq_some_iff.mp hRule
  obtain ⟨hDue, hAhead⟩ := (mem_evaluated_iff config input service place).mp hEvaluated
  rw [dueIn, hRule, Option.any_some, Bool.and_eq_true] at hDue
  have hRoom : ¬ config.maxRuleEvalPerScan ≤ (turnOf config input service place).evaluated.length := by
    rw [length_evaluated_turnOf config input service hPlace.le]
    omega
  have hTurn : scanRules config input 0 (config.rules.take place) ⟨service, [], 0⟩ = turnOf config input service place := rfl
  rw [runOnce]
  conv_lhs => rw [split_at hRule]
  rw [scanRules_append, hTurn, List.length_take, Nat.min_eq_left hPlace.le, Nat.zero_add, scanRules,
    if_neg (by rw [hDue.1]; decide), if_neg hRoom, if_pos hDue.2]
  rfl

end OneScan

section Runs

variable (inputs : List (ScanInput K))

def serviceBefore (k : Nat) : ComputeEngineService K :=
  Run.after (ComputeEngineService.step config) .created (inputs.take k)

def EvaluatedIn (k place : Nat) : Prop :=
  ∃ input, inputs[k]? = some input ∧ place ∈ (runOnce config input (serviceBefore config inputs k)).evaluated

def DueIn (k place : Nat) : Prop :=
  ∃ input, inputs[k]? = some input ∧ dueIn config input (serviceBefore config inputs k) place = true

def WithinLimit (k place : Nat) : Prop :=
  ∃ input, inputs[k]? = some input ∧
    dueAhead config input (serviceBefore config inputs k) place < config.maxRuleEvalPerScan

def TurnBetween (i j a k b : Nat) : Prop := (i < k ∨ i = k ∧ a < b) ∧ (k < j ∨ k = j ∧ b < a)

theorem dueAhead_mono (input : ScanInput K) (service : ComputeEngineService K) {a b : Nat} (h : b ≤ a) :
    dueAhead config input service b ≤ dueAhead config input service a := by
  apply List.Sublist.length_le
  apply List.Sublist.filter
  obtain ⟨more, rfl⟩ := Nat.exists_eq_add_of_le h
  rw [List.range_add]
  exact List.sublist_append_left _ _

theorem evaluatedIn_iff (k place : Nat) :
    EvaluatedIn config inputs k place ↔ DueIn config inputs k place ∧ WithinLimit config inputs k place := by
  constructor
  · rintro ⟨input, hInput, hMem⟩
    obtain ⟨hDue, hLimit⟩ := (mem_evaluated_iff config input _ place).mp hMem
    exact ⟨⟨input, hInput, hDue⟩, input, hInput, hLimit⟩
  · rintro ⟨⟨input, hInput, hDue⟩, other, hOther, hLimit⟩
    obtain rfl := Option.some.inj (hInput.symm.trans hOther)
    exact ⟨input, hInput, (mem_evaluated_iff config input _ place).mpr ⟨hDue, hLimit⟩⟩

theorem WithinLimit.before {k a b : Nat} (h : WithinLimit config inputs k a) (hBefore : b ≤ a) :
    WithinLimit config inputs k b := by
  obtain ⟨input, hInput, hLimit⟩ := h
  exact ⟨input, hInput, Nat.lt_of_le_of_lt (dueAhead_mono config input _ hBefore) hLimit⟩

/-- Up to an evaluation of `a`, a rule due at all its turns is evaluated exactly when it stands before `a` or
    is once within the limit. -/
theorem evaluated_between_iff (i j a b : Nat) (hOrder : i < j) (hEvaluated : EvaluatedIn config inputs j a)
    (hDue : ∀ k, TurnBetween i j a k b → DueIn config inputs k b) :
    (∃ k, TurnBetween i j a k b ∧ EvaluatedIn config inputs k b) ↔
      b < a ∨ ∃ k, TurnBetween i j a k b ∧ WithinLimit config inputs k b := by
  constructor
  · rintro ⟨k, hTurn, hTaken⟩
    right
    exact ⟨k, hTurn, ((evaluatedIn_iff config inputs k b).mp hTaken).2⟩
  · rintro (hBefore | ⟨k, hTurn, hLimit⟩)
    · have hTurn : TurnBetween i j a j b := ⟨.inl hOrder, .inr ⟨rfl, hBefore⟩⟩
      have hLimit := ((evaluatedIn_iff config inputs j a).mp hEvaluated).2.before config inputs hBefore.le
      exact ⟨j, hTurn, (evaluatedIn_iff config inputs j b).mpr ⟨hDue j hTurn, hLimit⟩⟩
    · exact ⟨k, hTurn, (evaluatedIn_iff config inputs k b).mpr ⟨hDue k hTurn, hLimit⟩⟩

end Runs

def everyScan (code : StdString) : ComputeRuleConfig ℚ :=
  ⟨code, [], true, ⟨"interval".toList, 1, 0, 0⟩, [], [], ⟨"expression".toList, []⟩⟩

def twoRules (limit : Nat) : ComputeEngineConfig ℚ :=
  { maxRuleEvalPerScan := limit, rules := [everyScan "A".toList, everyScan "B".toList], parse := fun _ _ => none }

def quietScan (nowMs : Int) : ScanInput ℚ := ⟨nowMs, fun _ => [], fun _ _ => 0, fun _ _ => true⟩

def twoScans : List (ScanInput ℚ) := [quietScan 1000, quietScan 2000]

/-- The first rule is evaluated in both scans, the second one is due and passed over. -/
theorem second_rule_passed_over :
    EvaluatedIn (twoRules 1) twoScans 0 0 ∧ EvaluatedIn (twoRules 1) twoScans 1 0 ∧
      (∀ k, TurnBetween 0 1 0 k 1 → DueIn (twoRules 1) twoScans k 1) ∧
      ¬ ∃ k, TurnBetween 0 1 0 k 1 ∧ EvaluatedIn (twoRules 1) twoScans k 1 := by
  have hOnly : ∀ k, TurnBetween 0 1 0 k 1 → k = 0 := by
    rintro k ⟨-, hBelow⟩
    omega
  refine ⟨⟨quietScan 1000, rfl, by decide +kernel⟩, ⟨quietScan 2000, rfl, by decide +kernel⟩, ?_, ?_⟩
  · intro k hTurn
    obtain rfl := hOnly k hTurn
    exact ⟨quietScan 1000, rfl, by decide +kernel⟩
  · rintro ⟨k, hTurn, input, hInput, hMem⟩
    obtain rfl := hOnly k hTurn
    obtain rfl := Option.some.inj hInput
    exact absurd hMem (by decide +kernel)

theorem first_rule_evaluated :
    ∃ k, TurnBetween 0 1 1 k 0 ∧
      EvaluatedIn (twoRules 2) twoScans k 0 := by
  refine (evaluated_between_iff (twoRules 2) twoScans 0 1 1 0 (by decide)
    ⟨quietScan 2000, rfl, by decide +kernel⟩ ?_).mpr (.inl (by decide))
  intro k hTurn
  obtain rfl : k = 1 := by
    obtain ⟨hAbove, hBelow⟩ := hTurn
    omega
  exact ⟨quietScan 2000, rfl, by decide +kernel⟩

end EdgeGateway.Compute
