import EdgeGateway.Scada.SafetyMonitor

/-! # Offline actions that are refused -/

namespace EdgeGateway.Scada

open PriorityControl ScadaUpperComputerSafetyMonitor

section Prefix

variable {α : Type} {p : α → Bool} {l : List α}

end Prefix

structure Attempt where
  call : Call
  file : Option StdString
  priorityLease : Option StdString

/-- The monitor and the actions that it handed over, each with whether it was accepted. -/
structure Offline where
  monitor : ScadaUpperComputerSafetyMonitor
  submissions : List (StdString × Bool)

def Offline.attempt (config : ScadaUpperComputerSafetyConfig) (machineCode : StdString)
    (printDouble : RawDouble → StdString) (offline : Offline) (attempt : Attempt) : Offline :=
  let turn := offline.monitor.runOnce config machineCode printDouble attempt.call attempt.file attempt.priorityLease
  ⟨turn.monitor, offline.submissions ++ turn.submitted.toList⟩

def Refused (call : Call) (project : ScadaProject) (nodeId : StdString) (action : ScadaOfflineSafetyAction) : Prop :=
  ∀ resolved, resolveTag project nodeId action.tagId = some resolved →
    ∃ result, submitWrite call.router resolved (commandFor action call.nowMs) = some result ∧ result.accepted = false

def Granted (call : Call) (project : ScadaProject) (nodeId : StdString) (action : ScadaOfflineSafetyAction) : Prop :=
  ∃ resolved result, resolveTag project nodeId action.tagId = some resolved ∧
    submitWrite call.router resolved (commandFor action call.nowMs) = some result ∧ result.accepted = true

/-- A monitor whose actions fall due, and which of them are granted whenever they are attempted. -/
structure Episode where
  config : ScadaUpperComputerSafetyConfig
  machineCode : StdString
  printDouble : RawDouble → StdString
  start : ScadaUpperComputerSafetyMonitor
  project : ScadaProject
  node : ScadaNode
  actions : List ScadaOfflineSafetyAction
  granted : ScadaOfflineSafetyAction → Bool

namespace Episode

structure Begins (e : Episode) : Prop where
  enabled : e.config.enabled = true
  machineCode : e.machineCode ≠ []
  actionsOf : e.start.actionsOf e.machineCode = .ok (e.project, e.node, e.actions)
  distinct : (e.actions.map (·.actionId)).Nodup
  accepted : e.start.acceptedActions = []
  completed : e.start.completed = false

/-- The heartbeat is stale, the project the same, and the control lease free and writable. -/
structure Steady (e : Episode) (attempt : Attempt) : Prop where
  loaded : ∃ loaded, attempt.call.loaded = .ok loaded ∧ projectSignature e.printDouble loaded = e.start.signature
  stale : e.start.heartbeatFresh e.project attempt.call.nowMs (readHeartbeat e.machineCode attempt.file) = false
  idle : ((priorityControlLease e.config).activeLease attempt.priorityLease attempt.call.nowMs).any
    (fun active => active.owner == "scada-offline-safety".toList) = false
  writable : attempt.call.leaseOutcome.opened = true ∧ attempt.call.leaseOutcome.flushed = true ∧
    attempt.call.leaseOutcome.renamed = true
  granted : ∀ action ∈ e.actions, e.granted action = true → Granted attempt.call e.project e.node.nodeId action
  refused : ∀ action ∈ e.actions, e.granted action = false → Refused attempt.call e.project e.node.nodeId action

def after (e : Episode) (attempts : List Attempt) : Offline :=
  Run.after (Offline.attempt e.config e.machineCode e.printDouble) ⟨e.start, []⟩ attempts

/-- The monitor of the episode once the actions of `done` were accepted. -/
structure Monitors (e : Episode) (done : List ScadaOfflineSafetyAction) (monitor : ScadaUpperComputerSafetyMonitor) :
    Prop where
  project : monitor.project = e.start.project
  signature : monitor.signature = e.start.signature
  activatedAtMs : monitor.activatedAtMs = e.start.activatedAtMs
  accepted : monitor.acceptedActions = (done.map (·.actionId)).reverse
  completed : monitor.completed = (done.length == e.actions.length)

structure Progress (e : Episode) (done : List ScadaOfflineSafetyAction) (offline : Offline) : Prop where
  monitors : e.Monitors done offline.monitor
  log : ∀ id, (id, true) ∈ offline.submissions ↔ id ∈ done.map (·.actionId)

variable {e : Episode} {attempt : Attempt} {monitor : ScadaUpperComputerSafetyMonitor}
  {done rest : List ScadaOfflineSafetyAction} {action : ScadaOfflineSafetyAction}

theorem Monitors.reload (h : e.Monitors done monitor) (hProject : e.start.project.isSome = true) (hSteady : e.Steady attempt) :
    ∃ reloaded, monitor.reloadProject e.config e.printDouble attempt.call = (.ok false, reloaded) ∧
      e.Monitors done reloaded := by
  rw [reloadProject]
  split
  · exact ⟨_, rfl, h⟩
  · obtain ⟨loaded, hLoaded, hSignature⟩ := hSteady.loaded
    rw [hLoaded]
    dsimp only
    rw [if_neg (not_not.mpr (hSignature.trans h.signature.symm))]
    refine ⟨_, rfl, ?_, h.signature, h.activatedAtMs, h.accepted, h.completed⟩
    obtain ⟨project, hStart⟩ := Option.isSome_iff_exists.mp hProject
    dsimp only
    rw [h.project, hStart]
    rfl

theorem acquire_ok (config : ScadaUpperComputerSafetyConfig) (highPriority : Bool) {io : Outcome}
    (hWritable : io.opened = true ∧ io.flushed = true ∧ io.renamed = true) (file : Option StdString)
    (cmdId meterCode : StdString) (index : UInt32) (nowMs ttlMs : Int) :
    ∃ lease, (if highPriority then (priorityControlLease config).acquire io file cmdId meterCode index nowMs ttlMs
      else (.ok (), file)) = (.ok (), lease) := by
  obtain ⟨hOpened, hFlushed, hRenamed⟩ := hWritable
  split
  · rw [PriorityControlLease.acquire, hOpened, hFlushed, hRenamed]
    split <;> exact ⟨_, rfl⟩
  · exact ⟨_, rfl⟩

theorem Monitors.next (h : e.Monitors done monitor) (hDistinct : (e.actions.map (·.actionId)).Nodup)
    (hActions : e.actions = done ++ action :: rest) :
    (e.actions.find? fun action => action.actionId ∉ monitor.acceptedActions) = some action := by
  rw [hActions, List.map_append, List.map_cons, List.nodup_append] at hDistinct
  have hDone : (done.find? fun action => action.actionId ∉ monitor.acceptedActions) = none := by
    rw [List.find?_eq_none]
    intro other hOther
    rw [h.accepted, decide_eq_true_iff, not_not, List.mem_reverse]
    exact List.mem_map_of_mem hOther
  have hNew : action.actionId ∉ monitor.acceptedActions := by
    rw [h.accepted, List.mem_reverse]
    intro hMem
    exact hDistinct.2.2 _ hMem _ List.mem_cons_self rfl
  rw [hActions, List.find?_append, hDone, Option.none_or, List.find?_cons_of_pos (by simpa using hNew)]

theorem Monitors.submitNext (h : e.Monitors done monitor) (hBegins : e.Begins) (hSteady : e.Steady attempt)
    (hActions : e.actions = done ++ action :: rest) :
    let turn := monitor.submitNext e.config attempt.call e.project e.node.nodeId e.actions attempt.priorityLease
    (e.granted action = true → e.Monitors (done ++ [action]) turn.monitor ∧ turn.submitted = some (action.actionId, true)) ∧
      (e.granted action = false → e.Monitors done turn.monitor ∧ ∀ id, turn.submitted ≠ some (id, true)) := by
  have hMem : action ∈ e.actions := by simp [hActions]
  have hAccepted : (action.actionId :: monitor.acceptedActions) = ((done ++ [action]).map (·.actionId)).reverse := by
    rw [h.accepted, List.map_append, List.map_singleton, List.reverse_append]
    rfl
  have hLength : ∀ done : List ScadaOfflineSafetyAction, ((done.map (·.actionId)).reverse.length == e.actions.length) =
      (done.length == e.actions.length) := by
    intro done
    rw [List.length_reverse, List.length_map]
  have hStays : ∀ results : List ScadaSafetyActionResult,
      e.Monitors done (monitor.conclude e.actions results monitor.acceptedActions).1 := by
    intro results
    refine ⟨h.project, h.signature, h.activatedAtMs, h.accepted, ?_⟩
    rw [conclude, h.accepted]
    exact hLength done
  dsimp only
  rw [ScadaUpperComputerSafetyMonitor.submitNext, h.next hBegins.distinct hActions]
  dsimp only
  cases hResolved : resolveTag e.project e.node.nodeId action.tagId with
  | none =>
    refine ⟨fun hGranted => ?_, fun _ => ⟨hStays [⟨action.actionId, action.tagId, false, "SCADA tag not found".toList⟩],
      fun _ => (nomatch ·)⟩⟩
    obtain ⟨resolved, -, hSome, -⟩ := hSteady.granted action hMem hGranted
    rw [hResolved] at hSome
    cases hSome
  | some resolved =>
    obtain ⟨lease, hLease⟩ := acquire_ok e.config action.highPriority hSteady.writable attempt.priorityLease
      (commandFor action attempt.call.nowMs).cmdId resolved.tag.meterCode resolved.mapping.index attempt.call.nowMs
      e.config.priorityControlLeaseTtlMs
    dsimp only
    rw [hSteady.idle, Bool.and_false, if_neg Bool.false_ne_true, hLease]
    dsimp only
    constructor
    · intro hGranted
      obtain ⟨same, result, hSame, hSubmit, hResult⟩ := hSteady.granted action hMem hGranted
      obtain rfl := Option.some.inj (hResolved.symm.trans hSame)
      rw [hSubmit]
      dsimp only
      rw [hResult, if_pos rfl, hAccepted]
      exact ⟨⟨h.project, h.signature, h.activatedAtMs, rfl, hLength _⟩, rfl⟩
    · intro hRefused
      obtain ⟨result, hSubmit, hResult⟩ := hSteady.refused action hMem hRefused resolved hResolved
      rw [hSubmit]
      dsimp only
      rw [hResult, if_neg Bool.false_ne_true]
      exact ⟨hStays _, fun id hSame => nomatch hSame⟩

theorem Progress.next {offline : Offline} (h : e.Progress done offline) (hBegins : e.Begins)
    (hSteady : e.Steady attempt) (hActions : e.actions = done ++ rest) :
    e.Progress (done ++ (rest.takeWhile e.granted).take 1)
      (offline.attempt e.config e.machineCode e.printDouble attempt) := by
  have hProject : e.start.project.isSome = true := by
    cases hStart : e.start.project with
    | some project => rfl
    | none =>
      have hNone := hBegins.actionsOf
      rw [ScadaUpperComputerSafetyMonitor.actionsOf, hStart] at hNone
      cases hNone
  obtain ⟨reloaded, hReload, hMonitors⟩ := h.monitors.reload hProject hSteady
  have hOf : reloaded.actionsOf e.machineCode = .ok (e.project, e.node, e.actions) := by
    rw [← hBegins.actionsOf, ScadaUpperComputerSafetyMonitor.actionsOf, ScadaUpperComputerSafetyMonitor.actionsOf,
      hMonitors.project]
  have hStale : reloaded.heartbeatFresh e.project attempt.call.nowMs (readHeartbeat e.machineCode attempt.file) = false := by
    rw [heartbeatFresh, hMonitors.activatedAtMs]
    exact hSteady.stale
  have hOn : ¬(!e.config.enabled || e.machineCode.isEmpty) = true := by
    rw [hBegins.enabled]
    simpa using hBegins.machineCode
  rw [Offline.attempt, runOnce, if_neg hOn, hReload]
  dsimp only
  rw [evaluate, hOf]
  dsimp only
  rw [hStale, if_neg Bool.false_ne_true, hMonitors.completed]
  cases rest with
  | nil =>
    rw [hActions, List.append_nil, beq_self_eq_true, if_pos rfl]
    refine ⟨?_, fun id => ?_⟩
    · simpa using hMonitors
    · simpa using h.log id
  | cons action rest =>
    have hMore : ¬(done.length == e.actions.length) = true := by
      rw [hActions]
      simp
    obtain ⟨hGranted, hRefused⟩ := hMonitors.submitNext hBegins hSteady hActions
    rw [if_neg hMore]
    cases hAction : e.granted action with
    | true =>
      obtain ⟨hNext, hSubmitted⟩ := hGranted hAction
      rw [List.takeWhile_cons_of_pos hAction, hSubmitted]
      refine ⟨hNext, fun id => ?_⟩
      simp [h.log id]
    | false =>
      obtain ⟨hNext, hSubmitted⟩ := hRefused hAction
      rw [List.takeWhile_cons_of_neg (by rw [hAction]; decide), List.take_nil, List.append_nil]
      refine ⟨hNext, fun id => ?_⟩
      rw [List.mem_append, Option.mem_toList, ← h.log id]
      exact or_iff_left (hSubmitted id)

theorem Progress.run {offline : Offline} (h : e.Progress done offline) (hBegins : e.Begins) {attempts : List Attempt}
    (hSteady : ∀ attempt ∈ attempts, e.Steady attempt) (hActions : e.actions = done ++ rest) :
    e.Progress (done ++ (rest.takeWhile e.granted).take attempts.length)
      (Run.after (Offline.attempt e.config e.machineCode e.printDouble) offline attempts) := by
  induction attempts generalizing done rest offline with
  | nil => simpa using h
  | cons attempt attempts ih =>
    obtain ⟨hFirst, hLater⟩ := List.forall_mem_cons.mp hSteady
    have hNext := h.next hBegins hFirst hActions
    rw [Run.after_cons, List.length_cons]
    cases rest with
    | nil => simpa using ih (by simpa using hNext) hLater hActions
    | cons action rest =>
      cases hAction : e.granted action with
      | true =>
        rw [List.takeWhile_cons_of_pos hAction] at hNext ⊢
        have hMore : e.actions = done ++ [action] ++ rest := hActions.trans (List.append_cons done action rest)
        have hRest := ih hNext hLater hMore
        simpa using hRest
      | false =>
        rw [List.takeWhile_cons_of_neg (by rw [hAction]; decide)] at hNext ⊢
        have hRest := ih (by simpa using hNext) hLater hActions
        rw [List.takeWhile_cons_of_neg (by rw [hAction]; decide)] at hRest
        simpa using hRest

end Episode

end EdgeGateway.Scada
