import EdgeGateway.EventEngine.Service
import EdgeGateway.Foundation.Run

/-! # Events between detection and hand-over -/

namespace EdgeGateway.EventEngine

universe u

variable {K : Type u} {config : EventEngineConfig K}

def EventEngineConfig.HasSink (config : EventEngineConfig K) : Prop :=
  config.publishMode = "mqtt_driver_outbox".toList → config.hasOutbox = true

theorem head_ne_false {outcomes : List Bool} (h : ∀ ok ∈ outcomes, ok = true) : outcomes.head? ≠ some false := by
  intro hHead
  exact absurd (h false (List.mem_of_mem_head? hHead)) (by simp)

theorem publishEach_complete {events : List (EventMessage K)} {outcomes : List Bool}
    (hOutcomes : ∀ ok ∈ outcomes, ok = true) {event : EventMessage K} (hEvent : event ∈ events)
    (hTopic : event.topic ≠ []) : event ∈ (publishEach events outcomes).handed := by
  induction events generalizing outcomes with
  | nil => cases hEvent
  | cons first events ih =>
    rw [publishEach, if_neg (head_ne_false hOutcomes)]
    obtain rfl | hRest := List.mem_cons.mp hEvent
    · rw [if_neg hTopic]
      exact List.mem_cons_self
    · split
      · exact ih hOutcomes hRest
      · exact List.mem_cons_of_mem _ (ih (fun ok hOk => hOutcomes ok (List.mem_of_mem_tail hOk)) hRest)

theorem publishOrEnqueueEvents_complete {events : List (EventMessage K)} {outcomes : List Bool}
    (hSink : config.HasSink) (hOutcomes : ∀ ok ∈ outcomes, ok = true) {event : EventMessage K}
    (hEvent : event ∈ events) (hTopic : event.topic ≠ []) :
    event ∈ (publishOrEnqueueEvents config events outcomes).handed := by
  have hSome : ¬ events.isEmpty = true := by
    rw [List.isEmpty_iff]
    rintro rfl
    cases hEvent
  rw [publishOrEnqueueEvents, if_neg hSome]
  split
  · rename_i hMode
    rw [if_pos (hSink hMode), enqueueBatch, if_neg (head_ne_false hOutcomes)]
    exact List.mem_filter.mpr ⟨hEvent, by simpa using hTopic⟩
  · exact publishEach_complete hOutcomes hEvent hTopic

section Changes

def LastChange (changes : List (StoredPointValue K)) (value : StoredPointValue K) : Prop :=
  ∃ before after, changes = before ++ value :: after ∧ ∀ other ∈ after, other.index ≠ value.index

theorem not_lastChange_nil (value : StoredPointValue K) : ¬ LastChange [] value := by
  rintro ⟨before, after, hSplit, -⟩
  simp at hSplit

theorem lastChange_snoc {changes : List (StoredPointValue K)} {last value : StoredPointValue K} :
    LastChange (changes ++ [last]) value ↔
      value = last ∨ (last.index ≠ value.index ∧ LastChange changes value) := by
  constructor
  · rintro ⟨before, after, hSplit, hAfter⟩
    obtain rfl | ⟨after, final, rfl⟩ := List.eq_nil_or_concat after
    · have hSame : [last] = [value] := (List.append_inj' hSplit rfl).2
      exact .inl (by simpa using hSame.symm)
    · have hParts : changes ++ [last] = (before ++ value :: after) ++ [final] := by simpa using hSplit
      obtain ⟨rfl, hFinal⟩ := List.append_inj' hParts rfl
      obtain rfl : last = final := by simpa using hFinal
      exact .inr ⟨hAfter last (by simp), before, after, rfl, fun other hOther => hAfter other (by simp [hOther])⟩
  · rintro (rfl | ⟨hOther, before, after, rfl, hAfter⟩)
    · exact ⟨changes, [], rfl, by simp⟩
    · refine ⟨before, after ++ [last], by simp, fun other hMem => ?_⟩
      obtain hMem | hMem := List.mem_append.mp hMem
      · exact hAfter other hMem
      · rwa [List.mem_singleton.mp hMem]

namespace ChangeScan

structure Queued (scan : ChangeScan K) : Prop where
  pending : ∀ value, LastChange scan.changes value → scan.pendingByIndex value.index = some value
  ordered : ∀ index, scan.pendingByIndex index ≠ none → index ∈ scan.publishOrder

theorem Queued.queue {scan : ChangeScan K} (h : scan.Queued) (value : StoredPointValue K) :
    (scan.queue value).Queued := by
  constructor
  · intro other hLast
    obtain rfl | ⟨hIndex, hLast⟩ := lastChange_snoc.mp hLast
    · exact Function.update_self ..
    · exact (Function.update_of_ne (Ne.symm hIndex) _ _).trans (h.pending other hLast)
  · intro index hPending
    dsimp only [ChangeScan.queue] at hPending ⊢
    obtain rfl | hIndex := eq_or_ne index value.index
    · split
      · simp
      · rename_i hSome
        exact h.ordered _ (by simpa using hSome)
    · rw [Function.update_of_ne hIndex] at hPending
      have hMem := h.ordered index hPending
      split
      · exact List.mem_append_left _ hMem
      · exact hMem

/-- What the record does not name is as it was, and what it names holds the last of its changes. -/
structure Faithful (start : UInt32 → ChangeState K) (scan : ChangeScan K) : Prop where
  recorded : ∀ value, LastChange scan.changes value →
    (scan.changeStates value.index).initialized = true ∧ (scan.changeStates value.index).value = value.value
  kept : ∀ index, (start index).initialized = true → (∀ value ∈ scan.changes, value.index ≠ index) →
    (scan.changeStates index).initialized = true ∧ (scan.changeStates index).value = (start index).value

theorem Faithful.assign {start : UInt32 → ChangeState K} {scan : ChangeScan K} (h : scan.Faithful start)
    {index : UInt32} {state : ChangeState K}
    (hState : (scan.changeStates index).initialized = true →
      state.initialized = true ∧ state.value = (scan.changeStates index).value) :
    (scan.assign index state).Faithful start := by
  have hAssign : ∀ other (P : K → Prop),
      (scan.changeStates other).initialized = true ∧ P (scan.changeStates other).value →
        ((scan.assign index state).changeStates other).initialized = true ∧
          P ((scan.assign index state).changeStates other).value := by
    rintro other P ⟨hInitialized, hP⟩
    obtain rfl | hOther := eq_or_ne other index
    · obtain ⟨hNew, hValue⟩ := hState hInitialized
      simp only [ChangeScan.assign, Function.update_self]
      exact ⟨hNew, hValue ▸ hP⟩
    · simp only [ChangeScan.assign, Function.update_of_ne hOther]
      exact ⟨hInitialized, hP⟩
  constructor
  · intro value hLast
    exact hAssign _ (· = value.value) (h.recorded value hLast)
  · intro other hStart hNone
    exact hAssign _ (· = (start other).value) (h.kept other hStart hNone)

theorem Faithful.change {start : UInt32 → ChangeState K} {scan : ChangeScan K} (h : scan.Faithful start)
    {value : StoredPointValue K} {state : ChangeState K} (hInitialized : state.initialized = true)
    (hValue : state.value = value.value) : ((scan.assign value.index state).queue value).Faithful start := by
  constructor
  · intro other hLast
    obtain rfl | ⟨hIndex, hLast⟩ := lastChange_snoc.mp hLast
    · simp only [ChangeScan.queue, ChangeScan.assign, Function.update_self]
      exact ⟨hInitialized, hValue⟩
    · simp only [ChangeScan.queue, ChangeScan.assign, Function.update_of_ne (Ne.symm hIndex)]
      exact h.recorded other hLast
  · intro index hStart hNone
    have hIndex : index ≠ value.index := fun hSame => hNone value (List.mem_append_right _ List.mem_cons_self) hSame.symm
    simp only [ChangeScan.queue, ChangeScan.assign, Function.update_of_ne hIndex]
    exact h.kept index hStart fun other hOther => hNone other (List.mem_append_left _ hOther)

end ChangeScan

variable [BEq K]

theorem scanChange_keeps (config : EventEngineConfig K) {start : UInt32 → ChangeState K} (scan : ChangeScan K) (value : StoredPointValue K)
    (hQueued : scan.Queued) (hFaithful : scan.Faithful start) :
    (scanChange config scan value).Queued ∧ (scanChange config scan value).Faithful start := by
  unfold scanChange
  dsimp only
  split
  · exact ⟨hQueued, hFaithful⟩
  split
  · rename_i hNew
    refine ⟨⟨hQueued.pending, hQueued.ordered⟩, hFaithful.assign fun hInitialized => ?_⟩
    simp [hInitialized] at hNew
  rename_i hNew
  have hInitialized : (scan.changeStates value.index).initialized = true := by simpa using hNew
  split
  · exact ⟨⟨hQueued.pending, hQueued.ordered⟩, hFaithful.assign fun _ => ⟨hInitialized, rfl⟩⟩
  · have hAssigned : ∀ state, (scan.assign value.index state).Queued :=
      fun _ => ⟨hQueued.pending, hQueued.ordered⟩
    exact ⟨(hAssigned _).queue value, hFaithful.change hInitialized rfl⟩

theorem changeScan_keeps (config : EventEngineConfig K) (states : UInt32 → ChangeState K)
    (values : List (StoredPointValue K)) :
    (changeScan config states values).Queued ∧ (changeScan config states values).Faithful states := by
  have hLoop : ∀ scan : ChangeScan K, scan.Queued → scan.Faithful states →
      (values.foldl (scanChange config) scan).Queued ∧ (values.foldl (scanChange config) scan).Faithful states := by
    induction values with
    | nil => exact fun scan hQueued hFaithful => ⟨hQueued, hFaithful⟩
    | cons value values ih =>
      intro scan hQueued hFaithful
      obtain ⟨hQueued, hFaithful⟩ := scanChange_keeps config scan value hQueued hFaithful
      exact ih _ hQueued hFaithful
  refine hLoop _ ⟨fun value hLast => absurd hLast (not_lastChange_nil value), by simp⟩
    ⟨fun value hLast => absurd hLast (not_lastChange_nil value), fun index hStart _ => ⟨hStart, rfl⟩⟩

omit [BEq K] in
theorem changeMessage_mem {scan : ChangeScan K} (h : scan.Queued) {value : StoredPointValue K}
    (hLast : LastChange scan.changes value) (hTopic : config.changeEventTopic ≠ []) :
    changeMessage config value ∈ changeMessages config scan := by
  have hPending := h.pending value hLast
  rw [changeMessages, if_neg hTopic]
  apply List.mem_map_of_mem
  exact List.mem_filterMap.mpr ⟨value.index, h.ordered value.index (by simp [hPending]), hPending⟩

end Changes

section Alarms

namespace AlarmScan

structure Reported (start : UInt32 × AlarmType → Bool) (scan : AlarmScan K) : Prop where
  activated : ∀ toggle ∈ scan.toggles, toggle.active = true → toggle.event ∈ scan.activations
  recovered : ∀ toggle ∈ scan.toggles, toggle.active = false → toggle.binding.rule.reportRecovery = true →
    toggle.event ∈ scan.recoveries
  recorded : ∀ key, scan.activeStates key = start key ∨ ∃ toggle ∈ scan.toggles,
    (toggle.value.index, toggle.binding.rule.type) = key ∧ toggle.active = scan.activeStates key

end AlarmScan

theorem recorded_flip {start states : UInt32 × AlarmType → Bool} {toggles : List (Toggle K)} (toggle : Toggle K)
    (h : ∀ key, states key = start key ∨ ∃ t ∈ toggles,
      (t.value.index, t.binding.rule.type) = key ∧ t.active = states key) :
    let next := Function.update states (toggle.value.index, toggle.binding.rule.type) toggle.active
    ∀ key, next key = start key ∨ ∃ t ∈ toggles ++ [toggle],
      (t.value.index, t.binding.rule.type) = key ∧ t.active = next key := by
  intro next key
  obtain rfl | hKey := eq_or_ne key (toggle.value.index, toggle.binding.rule.type)
  · exact .inr ⟨toggle, by simp, rfl, by simp [next]⟩
  · have hNext : next key = states key := Function.update_of_ne hKey _ _
    rw [hNext]
    obtain hSame | ⟨t, ht, hFlip⟩ := h key
    · exact .inl hSame
    · exact .inr ⟨t, List.mem_append_left _ ht, hFlip⟩

variable [LE K] [DecidableLE K]

theorem evaluateBinding_reported {start : UInt32 × AlarmType → Bool} (value : StoredPointValue K) (scan : AlarmScan K)
    (binding : AlarmBinding K) (h : scan.Reported start) : (evaluateBinding value scan binding).Reported start := by
  unfold evaluateBinding
  dsimp only
  split
  · constructor
    · intro toggle hToggle hActive
      obtain hEarlier | hLast := List.mem_append.mp hToggle
      · exact h.activated toggle hEarlier hActive
      · obtain rfl := List.mem_singleton.mp hLast
        cases hActive
    · intro toggle hToggle hActive hReport
      obtain hEarlier | hLast := List.mem_append.mp hToggle
      · have hMem := h.recovered toggle hEarlier hActive hReport
        dsimp only
        split
        · exact List.mem_append_left _ hMem
        · exact hMem
      · obtain rfl := List.mem_singleton.mp hLast
        dsimp only at hReport ⊢
        rw [if_pos hReport]
        simp
    · exact recorded_flip ⟨binding, value, false⟩ h.recorded
  split
  · constructor
    · intro toggle hToggle hActive
      obtain hEarlier | hLast := List.mem_append.mp hToggle
      · exact List.mem_append_left _ (h.activated toggle hEarlier hActive)
      · obtain rfl := List.mem_singleton.mp hLast
        simp
    · intro toggle hToggle hActive
      obtain hEarlier | hLast := List.mem_append.mp hToggle
      · exact h.recovered toggle hEarlier hActive
      · obtain rfl := List.mem_singleton.mp hLast
        cases hActive
    · exact recorded_flip ⟨binding, value, true⟩ h.recorded
  · exact h

theorem evaluate_reported (config : EventEngineConfig K) (states : UInt32 × AlarmType → Bool)
    (values : List (StoredPointValue K)) : (evaluate config states values).Reported states := by
  have hBindings : ∀ (value : StoredPointValue K) (bindings : List (AlarmBinding K)) (scan : AlarmScan K),
      scan.Reported states → (bindings.foldl (evaluateBinding value) scan).Reported states := by
    intro value bindings
    induction bindings with
    | nil => exact fun scan h => h
    | cons binding bindings ih => exact fun scan h => ih _ (evaluateBinding_reported value scan binding h)
  have hValues : ∀ scan : AlarmScan K, scan.Reported states →
      (values.foldl (evaluateValue config) scan).Reported states := by
    induction values with
    | nil => exact fun scan h => h
    | cons value values ih => exact fun scan h => ih _ (hBindings value _ scan h)
  exact hValues _ ⟨by simp, by simp, fun key => .inl rfl⟩

omit [LE K] [DecidableLE K] in
theorem alarmMessage_mem {start : UInt32 × AlarmType → Bool} {scan : AlarmScan K} (h : scan.Reported start)
    {toggle : Toggle K} (hToggle : toggle ∈ scan.toggles)
    (hReport : toggle.active = true ∨ toggle.binding.rule.reportRecovery = true) (hTopic : config.alarmTopic ≠ []) :
    alarmMessage config toggle.event ∈ alarmMessages config scan.events := by
  rw [alarmMessages, if_neg hTopic]
  apply List.mem_map_of_mem
  unfold AlarmScan.events
  cases hActive : toggle.active with
  | true => exact List.mem_append_right _ (h.activated toggle hToggle hActive)
  | false =>
    have hRecovery : toggle.binding.rule.reportRecovery = true := by simpa [hActive] using hReport
    exact List.mem_append_left _ (h.recovered toggle hToggle hActive hRecovery)

end Alarms

section Calls

variable [BEq K] [LE K] [DecidableLE K]

def ScanCall.Undisturbed (call : ScanCall K) : Prop :=
  (∀ ok ∈ call.changePublishes, ok = true) ∧ ∀ ok ∈ call.alarmPublishes, ok = true

/-- The events that a call owes: changes its states still hold and flips to be reported, where a topic is set.
    -/
inductive ScanResult.Owes (config : EventEngineConfig K) (result : ScanResult K) : EventMessage K → Prop where
  | change {value : StoredPointValue K} (hLast : LastChange result.changes value)
      (hTopic : config.changeEventTopic ≠ []) : result.Owes config (changeMessage config value)
  | alarm {toggle : Toggle K} (hToggle : toggle ∈ result.toggles)
      (hReport : toggle.active = true ∨ toggle.binding.rule.reportRecovery = true)
      (hTopic : config.alarmTopic ≠ []) : result.Owes config (alarmMessage config toggle.event)

omit [LE K] [DecidableLE K] in
theorem processChanges_hands {service : EventEngineService K} {values : List (StoredPointValue K)} {call : ScanCall K}
    (hSink : config.HasSink) (hCall : call.Undisturbed) {value : StoredPointValue K}
    (hLast : LastChange (processChanges config service values call).changes value)
    (hTopic : config.changeEventTopic ≠ []) :
    changeMessage config value ∈ (processChanges config service values call).handed := by
  obtain ⟨hQueued, -⟩ := changeScan_keeps config service.changeStates values
  exact publishOrEnqueueEvents_complete hSink hCall.1 (changeMessage_mem hQueued hLast hTopic) hTopic

omit [BEq K] in
theorem processAlarms_hands {service : EventEngineService K} {values : List (StoredPointValue K)} {call : ScanCall K}
    (hSink : config.HasSink) (hCall : call.Undisturbed) {toggle : Toggle K}
    (hToggle : toggle ∈ (processAlarms config service values call).toggles)
    (hReport : toggle.active = true ∨ toggle.binding.rule.reportRecovery = true) (hTopic : config.alarmTopic ≠ []) :
    alarmMessage config toggle.event ∈ (processAlarms config service values call).handed := by
  have hReported := evaluate_reported config service.activeStates values
  exact publishOrEnqueueEvents_complete hSink hCall.2 (alarmMessage_mem hReported hToggle hReport hTopic) hTopic

theorem evaluateValues_hands {service : EventEngineService K} {values : List (StoredPointValue K)} {call : ScanCall K}
    (hSink : config.HasSink) (hCall : call.Undisturbed) {event : EventMessage K}
    (hOwes : (evaluateValues config service values call).Owes config event) :
    event ∈ (evaluateValues config service values call).handed := by
  unfold evaluateValues at hOwes ⊢
  dsimp only at hOwes ⊢
  split at hOwes
  · obtain ⟨hLast, -⟩ | ⟨hToggle, -, -⟩ := hOwes
    · exact absurd hLast (not_lastChange_nil _)
    · cases hToggle
  rename_i hSome
  rw [if_neg hSome]
  split at hOwes
  · -- the status of the changes could not be published: the alarms wait for another call
    rename_i hThrows
    rw [if_pos hThrows]
    obtain ⟨hLast, hTopic⟩ | ⟨hToggle, -, -⟩ := hOwes
    · exact processChanges_hands hSink hCall hLast hTopic
    · cases hToggle
  · rename_i hReturns
    rw [if_neg hReturns]
    obtain ⟨hLast, hTopic⟩ | ⟨hToggle, hReport, hTopic⟩ := hOwes
    · exact List.mem_append_left _ (processChanges_hands hSink hCall hLast hTopic)
    · exact List.mem_append_right _ (processAlarms_hands hSink hCall hToggle hReport hTopic)

theorem runOnce_hands {service : EventEngineService K} {call : ScanCall K} (hSink : config.HasSink)
    (hCall : call.Undisturbed) {event : EventMessage K} (hOwes : (runOnce config service call).Owes config event) :
    event ∈ (runOnce config service call).handed := by
  unfold runOnce at hOwes ⊢
  dsimp only at hOwes ⊢
  split at hOwes
  · rename_i hUpdates
    rw [if_pos hUpdates]
    exact evaluateValues_hands hSink hCall hOwes
  rename_i hUpdates
  rw [if_neg hUpdates]
  split at hOwes
  · rename_i hDue
    rw [if_pos hDue]
    split at hOwes
    · rename_i hReturns
      rw [if_pos hReturns]
      apply evaluateValues_hands hSink hCall
      obtain ⟨hLast, hTopic⟩ | ⟨hToggle, hReport, hTopic⟩ := hOwes
      · exact .change hLast hTopic
      · exact .alarm hToggle hReport hTopic
    · rename_i hReturns
      rw [if_neg hReturns]
      exact evaluateValues_hands hSink hCall hOwes
  · obtain ⟨hLast, -⟩ | ⟨hToggle, -, -⟩ := hOwes
    · exact absurd hLast (not_lastChange_nil _)
    · cases hToggle

end Calls

section Runs

variable [BEq K] [LE K] [DecidableLE K]

def scanned (config : EventEngineConfig K) (service : EventEngineService K) (calls : List (ScanCall K)) :
    List (ScanResult K) :=
  Run.trace (fun service call => (runOnce config service call).service)
    (fun service call => [runOnce config service call]) service calls

/-- Whatever a call of the run owes has been handed over by it or by another call of the run. -/
def HandsOver (config : EventEngineConfig K) (service : EventEngineService K) (calls : List (ScanCall K)) : Prop :=
  ∀ result ∈ scanned config service calls, ∀ event, result.Owes config event →
    ∃ other ∈ scanned config service calls, event ∈ other.handed

/-- In a run whose hand-overs do not throw, every change and every alarm that the states record has
    been handed over. -/
theorem recorded_events_handed_over (config : EventEngineConfig K) (hSink : config.HasSink)
    (service : EventEngineService K) (calls : List (ScanCall K)) (hCalls : ∀ call ∈ calls, call.Undisturbed) :
    HandsOver config service calls := by
  have hRun : ∀ result ∈ scanned config service calls, ∀ event, result.Owes config event → event ∈ result.handed := by
    induction calls generalizing service with
    | nil => simp [scanned, Run.trace]
    | cons call calls ih =>
      intro result hResult event hOwes
      obtain hFirst | hLater := List.mem_append.mp hResult
      · obtain rfl := List.mem_singleton.mp hFirst
        exact runOnce_hands hSink (hCalls call List.mem_cons_self) hOwes
      · exact ih _ (fun c hc => hCalls c (List.mem_cons_of_mem _ hc)) result hLater event hOwes
  intro result hResult event hOwes
  exact ⟨result, hResult, hRun result hResult event hOwes⟩

def breakerConfig : EventEngineConfig Int where
  routeByIndex index := if index = 1 then some ⟨['m'], ['d'], ['p'], true⟩ else none
  bindingsByIndex index := if index = 1 then [⟨⟨.high, 10, true, []⟩, ['m'], ['d'], ['p']⟩] else []

def breakerUpdate (value : Int) : ScanCall Int where
  nowMs := 1000
  updates := [[⟨1, value, 1, 1000, 0⟩]]

theorem recorded_events_handed_over_breaker :
    breakerConfig.HasSink ∧ (∀ call ∈ [breakerUpdate 0, breakerUpdate 20], call.Undisturbed) ∧
      HandsOver breakerConfig .initial [breakerUpdate 0, breakerUpdate 20] := by
  have hSink : breakerConfig.HasSink := by
    intro hMode
    exact absurd hMode (by decide)
  have hCalls : ∀ call ∈ [breakerUpdate 0, breakerUpdate 20], call.Undisturbed := by
    simp [breakerUpdate, ScanCall.Undisturbed]
  exact ⟨hSink, hCalls, recorded_events_handed_over breakerConfig hSink .initial _ hCalls⟩

def breakerValue (value : Int) : StoredPointValue Int := ⟨1, ['m'], ['d'], ['p'], value, 1, 1000, 0, false⟩

theorem breaker_quiet {service : EventEngineService Int} (h : service.changeStates 1 = ⟨5, 1, 1000, true⟩)
    (hAlarm : service.activeStates (1, .high) = false) :
    let result := runOnce breakerConfig service (breakerUpdate 5)
    result.handed = [] ∧ result.service.changeStates 1 = ⟨5, 1, 1000, true⟩ ∧
      result.service.activeStates (1, .high) = false := by
  have hBuild : (breakerUpdate 5).updates.flatten.filterMap (buildValueFromUpdate breakerConfig) = [breakerValue 5] := by
    rfl
  have hChanges : changeScan breakerConfig service.changeStates [breakerValue 5] =
      (⟨service.changeStates, fun _ => none, [], []⟩ : ChangeScan Int).assign 1 ⟨5, 1, 1000, true⟩ := by
    simp [changeScan, scanChange, reportsOnChange, breakerConfig, breakerValue, h]
  have hAlarms : evaluate breakerConfig service.activeStates [breakerValue 5] = ⟨service.activeStates, [], [], []⟩ := by
    simp [evaluate, evaluateValue, evaluateBinding, isRuleActive, breakerConfig, breakerValue, hAlarm]
  simp [runOnce, hBuild, evaluateValues, processChanges, hChanges, processAlarms, hAlarms, ChangeScan.assign,
    changeMessages, alarmMessages, AlarmScan.events, publishOrEnqueueEvents, hAlarm]

theorem breaker_settled {service : EventEngineService Int} (h : service.changeStates 1 = ⟨5, 1, 1000, true⟩)
    (hAlarm : service.activeStates (1, .high) = false) (n : Nat) :
    ∀ result ∈ scanned breakerConfig service (List.replicate n (breakerUpdate 5)), result.handed = [] := by
  induction n generalizing service with
  | zero => simp [scanned, Run.trace]
  | succ n ih =>
    obtain ⟨hHanded, hState, hStill⟩ := breaker_quiet h hAlarm
    intro result hResult
    obtain hFirst | hLater := List.mem_append.mp hResult
    · obtain rfl := List.mem_singleton.mp hFirst
      exact hHanded
    · exact ih hState hStill result hLater

/-- A change whose publication throws is in the state and is never handed over. -/
theorem thrown_change_never_handed_over :
    ¬ ∃ n, HandsOver breakerConfig .initial
      (breakerUpdate 0 :: { breakerUpdate 5 with changePublishes := [false] } :: List.replicate n (breakerUpdate 5)) := by
  rintro ⟨n, h⟩
  have hSecond : (runOnce breakerConfig (runOnce breakerConfig .initial (breakerUpdate 0)).service
      { breakerUpdate 5 with changePublishes := [false] }).Owes breakerConfig
      (changeMessage breakerConfig (breakerValue 5)) := by
    exact .change ⟨[], [], by rfl, by simp⟩ (by decide)
  obtain ⟨other, hOther, hHanded⟩ := h _ (by simp [scanned, Run.trace]) _ hSecond
  have hNothing : other.handed = [] := by
    obtain rfl | hOther := List.mem_cons.mp hOther
    · rfl
    obtain rfl | hOther := List.mem_cons.mp hOther
    · rfl
    · exact breaker_settled (by rfl) (by rfl) n other hOther
  rw [hNothing] at hHanded
  cases hHanded

end Runs

end EdgeGateway.EventEngine
