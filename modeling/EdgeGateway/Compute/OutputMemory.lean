import EdgeGateway.Compute.ScanOrder

/-! # What the engine remembers of a device write

The deadband and the interval are measured from the last command for the output that the router
took, as long as it takes all of them: one it turns down is remembered too.
-/

namespace EdgeGateway.Compute

universe u

variable {K : Type u} [Field K]

namespace ComputeEngineService

def remembered (service : ComputeEngineService K) (key : StdString) : Option K :=
  if (service.outputStates key).hasLastValue then some (service.outputStates key).lastValue else none

def acceptedFor (service : ComputeEngineService K) (key : StdString) : List (Submission K) :=
  service.commands.filter fun command => decide (command.key = key) && command.accepted

def lastAccepted (service : ComputeEngineService K) (key : StdString) : Option K :=
  (service.acceptedFor key).getLast?.map (·.value)

def memoryOf : Option (Submission K) → OutputState K
  | none => ⟨0, 0, 0, false⟩
  | some command => ⟨command.ts, command.value, 1, true⟩

/-- The output is remembered by the last command for it that the router took. -/
def Faithful (key : StdString) (service : ComputeEngineService K) : Prop :=
  service.outputStates key = memoryOf (service.acceptedFor key).getLast?

theorem Faithful.remembered_eq {key : StdString} {service : ComputeEngineService K} (h : Faithful key service) :
    service.remembered key = service.lastAccepted key := by
  rw [remembered, h, lastAccepted]
  cases (service.acceptedFor key).getLast? with
  | none => rfl
  | some command => rfl

end ComputeEngineService

open ComputeEngineService

section OneOutput

variable {key : StdString} {st : Scan K}

theorem faithful_remember_other {other : StdString} {state : OutputState K} (h : other ≠ key)
    (hBefore : Faithful key st.service) : Faithful key (st.remember other state).service := by
  have hSame : (st.remember other state).service.outputStates key = st.service.outputStates key :=
    Function.update_of_ne h.symm _ _
  rw [Faithful, hSame]
  exact hBefore

theorem faithful_write_other {command : Submission K} {state : OutputState K} (h : command.key ≠ key)
    (hBefore : Faithful key st.service) :
    Faithful key ((st.submit command).remember command.key state).service := by
  refine faithful_remember_other h ?_
  have hFor : (st.submit command).service.acceptedFor key = st.service.acceptedFor key := by
    simp [acceptedFor, Scan.submit, List.filter_append, h]
  rw [Faithful, hFor]
  exact hBefore

theorem faithful_write {command : Submission K} (hAccepted : command.accepted = true) :
    Faithful command.key
      ((st.submit command).remember command.key ⟨command.ts, command.value, 1, true⟩).service := by
  have hFor : ((st.submit command).remember command.key ⟨command.ts, command.value, 1, true⟩).service.acceptedFor
      command.key = st.service.acceptedFor command.key ++ [command] := by
    simp [acceptedFor, Scan.remember, Scan.submit, List.filter_append, hAccepted]
  rw [Faithful, hFor, List.getLast?_append_cons]
  exact Function.update_self _ _ _

variable (config : ComputeEngineConfig K) (input : ScanInput K)

theorem faithful_publishLatest (output : ComputeOutputConfig K) (value : K) (quality : Int)
    (hBefore : Faithful key st.service) :
    Faithful key (publishLatest config input output value quality st).service := by
  rw [publishLatest]
  split
  · exact hBefore
  · exact hBefore

end OneOutput

variable [LinearOrder K]

section OneScan

def LoopsOutputs (rule : ComputeRuleConfig K) : Prop := rule.enabled = true ∧ rule.script.type ≠ "graphEms".toList

def WritesToDevice (config : ComputeEngineConfig K) (key : StdString) : Prop :=
  ∀ rule ∈ config.rules, LoopsOutputs rule → ∀ output ∈ rule.outputs, outputStateKey rule output = key →
    isDeviceWriteMode output.mode = true

def RouterTakes (config : ComputeEngineConfig K) (key : StdString) (input : ScanInput K) : Prop :=
  ∀ (place position : Nat) (rule : ComputeRuleConfig K) (output : ComputeOutputConfig K),
    config.rules[place]? = some rule → LoopsOutputs rule → rule.outputs[position]? = some output →
    outputStateKey rule output = key → input.accepts place position = true

variable {key : StdString} (config : ComputeEngineConfig K) (input : ScanInput K)

def Taken (key : StdString) (place : Nat) (rule : ComputeRuleConfig K) (position : Nat)
    (outputs : List (ComputeOutputConfig K)) : Prop :=
  ∀ (i : Nat) (output : ComputeOutputConfig K), outputs[i]? = some output → outputStateKey rule output = key →
    isDeviceWriteMode output.mode = true ∧ input.accepts place (position + i) = true

omit [Field K] [LinearOrder K] in
theorem Taken.tail {place position : Nat} {rule : ComputeRuleConfig K} {output : ComputeOutputConfig K}
    {rest : List (ComputeOutputConfig K)} (h : Taken input key place rule position (output :: rest)) :
    Taken input key place rule (position + 1) rest := by
  intro i other hOther hKey
  have hNext := h (i + 1) other hOther hKey
  rwa [Nat.add_assoc, Nat.add_comm 1 i]

omit [Field K] [LinearOrder K] in
theorem Taken.take {place position : Nat} {rule : ComputeRuleConfig K} {outputs : List (ComputeOutputConfig K)}
    (h : Taken input key place rule position outputs) (count : Nat) :
    Taken input key place rule position (outputs.take count) := by
  intro i output hOutput hKey
  refine h i output ?_ hKey
  rw [List.getElem?_take] at hOutput
  split at hOutput
  · exact hOutput
  · cases hOutput

omit [Field K] [LinearOrder K] in
theorem taken_of_config {place : Nat} {rule : ComputeRuleConfig K} (hModes : WritesToDevice config key)
    (hTakes : RouterTakes config key input) (hRule : config.rules[place]? = some rule) (hLoops : LoopsOutputs rule) :
    Taken input key place rule 0 rule.outputs := by
  intro i output hOutput hKey
  constructor
  · exact hModes rule (List.mem_of_getElem? hRule) hLoops output (List.mem_of_getElem? hOutput) hKey
  · rw [Nat.zero_add]
    exact hTakes place i rule output hRule hLoops hOutput hKey

theorem faithful_outputLoop (place : Nat) (rule : ComputeRuleConfig K) (inputs : NamedInputs K) (result : Option K)
    (position : Nat) (outputs : List (ComputeOutputConfig K)) (st : Scan K)
    (hTaken : Taken input key place rule position outputs) (hBefore : Faithful key st.service) :
    Faithful key (outputLoop config input place rule inputs result position outputs st).service := by
  induction outputs generalizing position st with
  | nil => exact hBefore
  | cons output rest ih =>
    have hRest := hTaken.tail
    rw [outputLoop]
    dsimp only
    split
    · have hShown := faithful_publishLatest config input output (result.getD 0)
        (outputQuality config rule output inputs result.isSome) hBefore
      generalize publishLatest config input output (result.getD 0)
        (outputQuality config rule output inputs result.isSome) st = shown at hShown ⊢
      split
      · split
        · exact ih (position + 1) shown hRest hShown
        · rename_i hGood
          split
          · exact hShown
          · apply ih (position + 1) _ hRest
            obtain rfl | hOther := eq_or_ne (outputStateKey rule output) key
            · rw [not_not.mp hGood]
              exact faithful_write (hTaken 0 output rfl rfl).2
            · exact faithful_write_other hOther hShown
      · rename_i hMode
        apply ih (position + 1) _ hRest
        refine faithful_remember_other ?_ hShown
        intro hKey
        exact hMode (hTaken 0 output rfl hKey).1
    · exact ih (position + 1) st hRest hBefore

theorem faithful_evaluateRule (place : Nat) (rule : ComputeRuleConfig K) (inputs : InputMap K) (st : Scan K)
    (hTaken : rule.script.type ≠ "graphEms".toList → Taken input key place rule 0 rule.outputs)
    (hBefore : Faithful key st.service) : Faithful key (evaluateRule config input place rule inputs st).service := by
  rw [evaluateRule]
  split
  · exact hBefore
  · rename_i hScript
    exact faithful_outputLoop config input place rule _ _ 0 rule.outputs st (hTaken hScript) hBefore

theorem faithful_scanRules (place : Nat) (rules : List (ComputeRuleConfig K)) (st : Scan K)
    (hTaken : ∀ (i : Nat) (rule : ComputeRuleConfig K), rules[i]? = some rule → LoopsOutputs rule →
      Taken input key (place + i) rule 0 rule.outputs)
    (hBefore : Faithful key st.service) : Faithful key (scanRules config input place rules st).service := by
  induction rules generalizing place st with
  | nil => exact hBefore
  | cons rule rest ih =>
    have hRest : ∀ (i : Nat) (other : ComputeRuleConfig K), rest[i]? = some other → LoopsOutputs other →
        Taken input key (place + 1 + i) other 0 other.outputs := by
      intro i other hOther hLoops
      have hNext := hTaken (i + 1) other hOther hLoops
      rwa [Nat.add_assoc, Nat.add_comm 1 i]
    rw [scanRules]
    split
    · exact ih (place + 1) st hRest hBefore
    · rename_i hEnabled
      split
      · exact hBefore
      · split
        · apply ih (place + 1) _ hRest
          refine faithful_evaluateRule config input place rule _ st (fun hScript => ?_) hBefore
          exact hTaken 0 rule rfl ⟨Bool.eq_true_of_not_eq_false hEnabled, hScript⟩
        · exact ih (place + 1) st hRest hBefore

variable {service : ComputeEngineService K}

theorem faithful_turnOf (hModes : WritesToDevice config key) (hTakes : RouterTakes config key input)
    (hBefore : Faithful key service) (place : Nat) : Faithful key (turnOf config input service place).service := by
  refine faithful_scanRules config input 0 _ _ ?_ hBefore
  intro i rule hRule hLoops
  rw [Nat.zero_add]
  refine taken_of_config config input hModes hTakes ?_ hLoops
  rw [List.getElem?_take] at hRule
  split at hRule
  · exact hRule
  · cases hRule

theorem faithful_step (hModes : WritesToDevice config key) (hTakes : RouterTakes config key input)
    (hBefore : Faithful key service) : Faithful key (service.step config input) := by
  refine faithful_scanRules config input 0 config.rules _ ?_ hBefore
  intro i rule hRule hLoops
  rw [Nat.zero_add]
  exact taken_of_config config input hModes hTakes hRule hLoops

end OneScan

section Turns

variable (config : ComputeEngineConfig K) (input : ScanInput K)

def inputsAt (place : Nat) (rule : ComputeRuleConfig K) : NamedInputs K :=
  namedInputs rule (currentInputs (input.latest place))

def resultAt (place : Nat) (rule : ComputeRuleConfig K) : Option K :=
  if rule.script.type = "expression".toList then config.parse rule.script.expression (inputsAt input place rule) else none

def qualityAt (place : Nat) (rule : ComputeRuleConfig K) (output : ComputeOutputConfig K) : Int :=
  outputQuality config rule output (inputsAt input place rule) (resultAt config input place rule).isSome

def outputsAt (place : Nat) (rule : ComputeRuleConfig K) : Nat → List (ComputeOutputConfig K) → Scan K → Scan K :=
  outputLoop config input place rule (inputsAt input place rule) (resultAt config input place rule)

def outputTurn (service : ComputeEngineService K) (place : Nat) (rule : ComputeRuleConfig K) (position : Nat) : Scan K :=
  outputsAt config input place rule 0 (rule.outputs.take position) (turnOf config input service place)

def wantsWrite (place : Nat) (rule : ComputeRuleConfig K) (output : ComputeOutputConfig K) (st : Scan K) : Bool :=
  shouldSubmitOutput (st.service.outputStates (outputStateKey rule output)) output
    ((resultAt config input place rule).getD 0) (qualityAt config input place rule output) input.nowMs

def commandAt (place position : Nat) (rule : ComputeRuleConfig K) (output : ComputeOutputConfig K) : Submission K :=
  ⟨outputStateKey rule output, output.index, (resultAt config input place rule).getD 0, input.nowMs,
    input.accepts place position⟩

def overLimit (place : Nat) (rule : ComputeRuleConfig K) (output : ComputeOutputConfig K) (st : Scan K) : Bool :=
  wantsWrite config input place rule output st && isDeviceWriteMode output.mode &&
    decide (qualityAt config input place rule output = 1 ∧ config.maxWritesPerScan ≤ st.deviceWritesThisScan)

variable (place : Nat) (rule : ComputeRuleConfig K)

theorem evaluateRule_eq (st : Scan K) (h : rule.script.type ≠ "graphEms".toList) :
    evaluateRule config input place rule (currentInputs (input.latest place)) st =
      outputsAt config input place rule 0 rule.outputs st := by
  rw [evaluateRule, if_neg h]
  rfl

omit [Field K] [LinearOrder K] in
theorem writes_publishLatest (output : ComputeOutputConfig K) (value : K) (quality : Int) (st : Scan K) :
    (publishLatest config input output value quality st).deviceWritesThisScan = st.deviceWritesThisScan := by
  rw [publishLatest]
  split <;> rfl

omit [Field K] [LinearOrder K] in
theorem commands_publishLatest (output : ComputeOutputConfig K) (value : K) (quality : Int) (st : Scan K) :
    (publishLatest config input output value quality st).service.commands = st.service.commands := by
  rw [publishLatest]
  split <;> rfl

theorem outputsAt_cons (position : Nat) (output : ComputeOutputConfig K) (rest : List (ComputeOutputConfig K))
    (st : Scan K) :
    outputsAt config input place rule position (output :: rest) st =
      if overLimit config input place rule output st then outputsAt config input place rule position [output] st
      else outputsAt config input place rule (position + 1) rest (outputsAt config input place rule position [output] st) := by
  rw [outputsAt, outputLoop, outputLoop, overLimit, wantsWrite, qualityAt]
  dsimp only
  rw [writes_publishLatest]
  split
  · rename_i hWants
    split
    · rename_i hMode
      split
      · rename_i hBad
        rw [if_neg (by rw [Bool.and_eq_true, decide_eq_true_iff]; exact fun h => hBad h.2.1)]
        rfl
      · rename_i hGood
        split
        · rename_i hLimit
          rw [if_pos (by rw [hWants, hMode, decide_eq_true ⟨not_not.mp hGood, hLimit⟩]; rfl)]
        · rename_i hLimit
          rw [if_neg (by simp [hLimit])]
          rfl
    · rename_i hMode
      rw [if_neg (by simp [hMode])]
      rfl
  · rename_i hWants
    rw [if_neg (by simp [hWants])]
    rfl

theorem writes_overLimit (position : Nat) {output : ComputeOutputConfig K} {st : Scan K}
    (h : overLimit config input place rule output st = true) :
    config.maxWritesPerScan ≤ (outputsAt config input place rule position [output] st).deviceWritesThisScan := by
  rw [overLimit, Bool.and_eq_true, Bool.and_eq_true, decide_eq_true_iff, wantsWrite, qualityAt] at h
  obtain ⟨⟨hWants, hMode⟩, hGood, hLimit⟩ := h
  rw [outputsAt, outputLoop]
  dsimp only
  rw [if_pos hWants, if_pos hMode, if_neg (not_not.mpr hGood), writes_publishLatest, if_pos hLimit, writes_publishLatest]
  exact hLimit

theorem commands_prefix_outputsAt (position : Nat) (outputs : List (ComputeOutputConfig K)) (st : Scan K) :
    st.service.commands <+: (outputsAt config input place rule position outputs st).service.commands := by
  have hOne : ∀ (position : Nat) (output : ComputeOutputConfig K) (st : Scan K),
      st.service.commands <+: (outputsAt config input place rule position [output] st).service.commands := by
    intro position output st
    rw [outputsAt, outputLoop]
    dsimp only
    split
    · split
      · split
        · rw [outputLoop, commands_publishLatest]
        · split
          · rw [commands_publishLatest]
          · rw [outputLoop, Scan.remember, Scan.submit]
            dsimp only
            rw [commands_publishLatest]
            exact List.prefix_append _ _
      · rw [outputLoop, Scan.remember]
        dsimp only
        rw [commands_publishLatest]
    · exact List.prefix_refl _
  induction outputs generalizing position st with
  | nil => exact List.prefix_refl _
  | cons output rest ih =>
    rw [outputsAt_cons]
    split
    · exact hOne position output st
    · exact (hOne position output st).trans (ih (position + 1) _)

theorem commands_outputsAt {position : Nat} {output : ComputeOutputConfig K} {st : Scan K}
    (hMode : isDeviceWriteMode output.mode = true) (hWants : wantsWrite config input place rule output st = true)
    (hGood : qualityAt config input place rule output = 1) (hRoom : st.deviceWritesThisScan < config.maxWritesPerScan) :
    (outputsAt config input place rule position [output] st).service.commands =
      st.service.commands ++ [commandAt config input place position rule output] := by
  rw [wantsWrite, qualityAt] at hWants
  rw [qualityAt] at hGood
  rw [outputsAt, outputLoop]
  dsimp only
  rw [if_pos hWants, if_pos hMode, if_neg (not_not.mpr hGood), writes_publishLatest, if_neg (Nat.not_le.mpr hRoom)]
  rw [outputLoop, Scan.remember, Scan.submit]
  dsimp only
  rw [commands_publishLatest]
  rfl

theorem outputsAt_append (position : Nat) (outputs more : List (ComputeOutputConfig K)) (st : Scan K)
    (hRoom : (outputsAt config input place rule position outputs st).deviceWritesThisScan < config.maxWritesPerScan) :
    outputsAt config input place rule position (outputs ++ more) st =
      outputsAt config input place rule (position + outputs.length) more
        (outputsAt config input place rule position outputs st) := by
  induction outputs generalizing position st with
  | nil => rfl
  | cons output rest ih =>
    have hPosition : position + (output :: rest).length = position + 1 + rest.length := by
      rw [List.length_cons]
      omega
    rw [outputsAt_cons] at hRoom
    rw [List.cons_append, outputsAt_cons, outputsAt_cons config input place rule position output rest, hPosition]
    cases hOver : overLimit config input place rule output st with
    | true =>
      rw [hOver, if_pos rfl] at hRoom
      have hFull := writes_overLimit config input place rule position hOver
      omega
    | false =>
      rw [hOver] at hRoom
      exact ih (position + 1) _ hRoom

variable {key : StdString} {service : ComputeEngineService K}

theorem faithful_outputTurn (hModes : WritesToDevice config key) (hTakes : RouterTakes config key input)
    (hBefore : Faithful key service) {place : Nat} {rule : ComputeRuleConfig K} (hRule : config.rules[place]? = some rule)
    (hLoops : LoopsOutputs rule) (position : Nat) : Faithful key (outputTurn config input service place rule position).service := by
  have hTaken := taken_of_config config input hModes hTakes hRule hLoops
  exact faithful_outputLoop config input place rule _ _ 0 _ _ (hTaken.take input position)
    (faithful_turnOf config input hModes hTakes hBefore place)

theorem commands_prefix_scanRules (place : Nat) (rules : List (ComputeRuleConfig K)) (st : Scan K) :
    st.service.commands <+: (scanRules config input place rules st).service.commands := by
  induction rules generalizing place st with
  | nil => exact List.prefix_refl _
  | cons rule rest ih =>
    rw [scanRules]
    split
    · exact ih (place + 1) st
    · split
      · exact List.prefix_refl _
      · split
        · refine .trans ?_ (ih (place + 1) _)
          rw [evaluateRule]
          split
          · exact List.prefix_refl _
          · exact commands_prefix_outputsAt config input place rule 0 rule.outputs st
        · exact ih (place + 1) st

variable {place rule} in
/-- A device write that is not held back at its turn is handed to the router in a scan that evaluates the rule. -/
theorem handed_over {position : Nat} {output : ComputeOutputConfig K} (hRule : config.rules[place]? = some rule)
    (hLoops : LoopsOutputs rule) (hOutput : rule.outputs[position]? = some output)
    (hMode : isDeviceWriteMode output.mode = true) (hEvaluated : place ∈ (runOnce config input service).evaluated)
    (hWants : wantsWrite config input place rule output (outputTurn config input service place rule position) = true)
    (hGood : qualityAt config input place rule output = 1)
    (hRoom : (outputTurn config input service place rule position).deviceWritesThisScan < config.maxWritesPerScan) :
    commandAt config input place position rule output ∈ (service.step config input).commands := by
  obtain ⟨hPosition, -⟩ := List.getElem?_eq_some_iff.mp hOutput
  have hNotOver : overLimit config input place rule output (outputTurn config input service place rule position) = false := by
    rw [overLimit, decide_eq_false (fun h => Nat.not_le.mpr hRoom h.2), Bool.and_false]
  have hLoop : outputsAt config input place rule 0 rule.outputs (turnOf config input service place) =
      outputsAt config input place rule (position + 1) (rule.outputs.drop (position + 1))
        (outputsAt config input place rule position [output] (outputTurn config input service place rule position)) := by
    conv_lhs => rw [split_at hOutput]
    rw [outputsAt_append config input place rule 0 _ _ _ hRoom, List.length_take, Nat.min_eq_left hPosition.le,
      Nat.zero_add, outputsAt_cons]
    rw [outputTurn] at hNotOver
    rw [hNotOver]
    rfl
  have hHere : commandAt config input place position rule output ∈
      (outputsAt config input place rule position [output]
        (outputTurn config input service place rule position)).service.commands := by
    rw [commands_outputsAt config input place rule hMode hWants hGood hRoom]
    exact List.mem_append_right _ List.mem_cons_self
  rw [step, runOnce_at config input service hRule hEvaluated]
  apply (commands_prefix_scanRules config input (place + 1) _ _).subset
  rw [actRule]
  dsimp only
  rw [evaluateRule_eq config input place rule _ hLoops.2, hLoop]
  exact (commands_prefix_outputsAt config input place rule (position + 1) _ _).subset hHere

end Turns

theorem shouldSubmitOutput_later {state : OutputState K} {output : ComputeOutputConfig K} {value : K}
    {quality nowMs laterMs : Int} (hLater : nowMs ≤ laterMs)
    (h : shouldSubmitOutput state output value quality nowMs = true) :
    shouldSubmitOutput state output value quality laterMs = true := by
  rw [shouldSubmitOutput] at h ⊢
  split at h
  · cases h
  · rename_i hIndex
    rw [if_neg hIndex]
    split at h
    · cases h
    · rename_i hInterval
      rw [if_neg (by omega)]
      exact h

section Runs

variable (config : ComputeEngineConfig K) (key : StdString) (inputs : List (ScanInput K))

theorem faithful_serviceBefore (hModes : WritesToDevice config key) (hTakes : ∀ input ∈ inputs, RouterTakes config key input)
    (k : Nat) : Faithful key (serviceBefore config inputs k) := by
  have hStart : Faithful key (created : ComputeEngineService K) := rfl
  refine Run.invariant_along (ComputeEngineService.step config) (Faithful key) hStart ?_ (inputs.take k)
    (List.take_prefix k inputs)
  intro done input hDone hInv
  have hMem : input ∈ inputs := hDone.subset (by simp)
  exact faithful_step config input hModes (hTakes input hMem) hInv

theorem serviceBefore_succ {k : Nat} {input : ScanInput K} (h : inputs[k]? = some input) :
    serviceBefore config inputs (k + 1) = (serviceBefore config inputs k).step config input := by
  rw [serviceBefore, List.take_add_one, h, Option.toList_some, Run.after_snoc]
  rfl

/-- The value remembered is that of the last command the router took; one it did not take is handed over
    again. -/
theorem remembered_while_taken (hModes : WritesToDevice config key)
    (hTakes : ∀ input ∈ inputs, RouterTakes config key input) :
    (∀ k, (serviceBefore config inputs k).remembered key = (serviceBefore config inputs k).lastAccepted key) ∧
      ∀ (i j place position : Nat) (first later : ScanInput K) (rule : ComputeRuleConfig K)
        (output : ComputeOutputConfig K),
        inputs[i]? = some first → inputs[j]? = some later → config.rules[place]? = some rule →
        LoopsOutputs rule → rule.outputs[position]? = some output → outputStateKey rule output = key →
        let before := outputTurn config first (serviceBefore config inputs i) place rule position
        let after := outputTurn config later (serviceBefore config inputs j) place rule position
        wantsWrite config first place rule output before = true → qualityAt config first place rule output = 1 →
        after.service.acceptedFor key = before.service.acceptedFor key → first.nowMs ≤ later.nowMs →
        resultAt config later place rule = resultAt config first place rule →
        qualityAt config later place rule output = 1 →
        wantsWrite config later place rule output after = true ∧
          (EvaluatedIn config inputs j place → after.deviceWritesThisScan < config.maxWritesPerScan →
            commandAt config later place position rule output ∈ (serviceBefore config inputs (j + 1)).commands) := by
  constructor
  · intro k
    exact (faithful_serviceBefore config key inputs hModes hTakes k).remembered_eq
  · intro i j place position first later rule output hFirst hLater hRule hLoops hOutput hKey before after hWants
      hGood hAccepted hTime hResult hQuality
    have hAt : ∀ (k : Nat) (input : ScanInput K), inputs[k]? = some input →
        Faithful key (outputTurn config input (serviceBefore config inputs k) place rule position).service := by
      intro k input hInput
      exact faithful_outputTurn config input hModes (hTakes input (List.mem_of_getElem? hInput))
        (faithful_serviceBefore config key inputs hModes hTakes k) hRule hLoops position
    -- both turns find the memory of one and the same command
    have hSame : after.service.outputStates key = before.service.outputStates key := by
      rw [hAt j later hLater, hAt i first hFirst, hAccepted]
    have hAgain : wantsWrite config later place rule output after = true := by
      rw [wantsWrite, hKey, hGood] at hWants
      rw [wantsWrite, hKey, hQuality, hSame, hResult]
      exact shouldSubmitOutput_later hTime hWants
    refine ⟨hAgain, ?_⟩
    rintro ⟨input, hInput, hEvaluated⟩ hRoom
    obtain rfl := Option.some.inj (hLater.symm.trans hInput)
    have hMode := hModes rule (List.mem_of_getElem? hRule) hLoops output (List.mem_of_getElem? hOutput) hKey
    rw [serviceBefore_succ config inputs hLater]
    exact handed_over config later hRule hLoops hOutput hMode hEvaluated hAgain hQuality hRoom

end Runs

def setPoint : ComputeOutputConfig ℚ := ⟨7, "deviceWrite".toList, 600000, [], 0, 1 / 2⟩

def setPointRule : ComputeRuleConfig ℚ :=
  ⟨"R".toList, [], true, ⟨"interval".toList, 1, 0, 0⟩, [], [setPoint], ⟨"expression".toList, "5".toList⟩⟩

def setPointConfig : ComputeEngineConfig ℚ := { rules := [setPointRule], parse := fun _ _ => some 5 }

def setPointKey : StdString := "R:7:deviceWrite".toList

def answeredScan (nowMs : Int) (accepted : Bool) : ScanInput ℚ := ⟨nowMs, fun _ => [], fun _ _ => 0, fun _ _ => accepted⟩

def answeredScans (accepted : Bool) : List (ScanInput ℚ) := [answeredScan 1000 accepted, answeredScan 2000 accepted]

/-- The router turns down the only command; the next evaluation with the same result sends nothing. -/
theorem rejected_write_remembered :
    (serviceBefore setPointConfig (answeredScans false) 1).remembered setPointKey = some 5 ∧
      (serviceBefore setPointConfig (answeredScans false) 1).lastAccepted setPointKey = none ∧
      (serviceBefore setPointConfig (answeredScans false) 1).commands.length = 1 ∧
      (runOnce setPointConfig (answeredScan 2000 false)
        (serviceBefore setPointConfig (answeredScans false) 1)).evaluated = [0] ∧
      (serviceBefore setPointConfig (answeredScans false) 2).commands =
        (serviceBefore setPointConfig (answeredScans false) 1).commands := by
  decide +kernel

theorem taken_write_remembered :
    (serviceBefore setPointConfig (answeredScans true) 2).remembered setPointKey = some 5 ∧
      (serviceBefore setPointConfig (answeredScans true) 2).remembered setPointKey =
        (serviceBefore setPointConfig (answeredScans true) 2).lastAccepted setPointKey := by
  have hModes : WritesToDevice setPointConfig setPointKey := by
    intro rule hRule _ output hOutput _
    obtain rfl := List.mem_singleton.mp hRule
    obtain rfl := List.mem_singleton.mp hOutput
    rfl
  have hTakes : ∀ input ∈ answeredScans true, RouterTakes setPointConfig setPointKey input := by
    intro input hInput place position rule output _ _ _ _
    obtain rfl | rfl := List.mem_pair.mp hInput
    · rfl
    · rfl
  refine ⟨by decide +kernel, ?_⟩
  exact (remembered_while_taken setPointConfig setPointKey (answeredScans true) hModes hTakes).1 2

end EdgeGateway.Compute
