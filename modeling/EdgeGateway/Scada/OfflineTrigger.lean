import EdgeGateway.Scada.SafetyMonitor

/-! # When the offline actions are submitted -/

namespace EdgeGateway.Scada

open QuotedText

def Legible (machineCode : StdString) : Prop := ∀ c ∈ machineCode, c ≠ '"' ∧ c ≠ '\\' ∧ c ≠ '\n' ∧ c ≠ '\r'

instance (machineCode : StdString) : Decidable (Legible machineCode) := List.decidableBAll _ machineCode

theorem Legible.escape {machineCode : StdString} (h : Legible machineCode) : jsonEscape machineCode = machineCode := by
  induction machineCode with
  | nil => rfl
  | cons c machineCode ih =>
    obtain ⟨hc, hRest⟩ := List.forall_mem_cons.mp h
    obtain ⟨hQuote, hSlash, hLine, hReturn⟩ := hc
    have hChar : jsonEscapeChar c = [c] := by
      unfold jsonEscapeChar
      split <;> first | contradiction | rfl
    rw [jsonEscape, List.flatMap_cons, hChar, ← jsonEscape, ih hRest]
    rfl

theorem Legible.jsonEscaping {machineCode : StdString} (h : Legible machineCode) :
    PowerControl.jsonEscaping.escape machineCode = machineCode := by
  rw [← PowerControl.escapeJson_eq, PowerControl.escapeJson]
  induction machineCode with
  | nil => rfl
  | cons c machineCode ih =>
    obtain ⟨hc, hRest⟩ := List.forall_mem_cons.mp h
    have hChar : ¬ (c = '\\' ∨ c = '"') := fun hSpecial => hSpecial.elim hc.2.1 hc.1
    rw [List.flatMap_cons, if_neg hChar, ih hRest]
    rfl

section Turns

open ScadaUpperComputerSafetyMonitor

variable {config : ScadaUpperComputerSafetyConfig} {machineCode : StdString} {printDouble : RawDouble → StdString}
variable {self : ScadaUpperComputerSafetyMonitor} {call : Call}

/-- What the loop over the actions does to the monitor: it adds at most the action it submitted. -/
structure Submits (before : ScadaUpperComputerSafetyMonitor) (turn : Turn) : Prop where
  project : turn.monitor.project = before.project
  signature : turn.monitor.signature = before.signature
  activatedAtMs : turn.monitor.activatedAtMs = before.activatedAtMs
  kept : ∀ id ∈ before.acceptedActions, id ∈ turn.monitor.acceptedActions
  submitted : ∀ id accepted, turn.submitted = some (id, accepted) → id ∉ before.acceptedActions ∧
    (accepted = true → id ∈ turn.monitor.acceptedActions)

end Turns

structure CallRecord where
  nowMs : Int
  file : Option StdString
  activation : Nat
  offlineTimeoutMs : Int
  renewed : Bool
  submitted : Option (StdString × Bool)

def CallRecord.accepted (record : CallRecord) : Option (Nat × StdString) :=
  match record.submitted with
  | some (id, true) => some (record.activation, id)
  | _ => none

structure World where
  monitor : ScadaUpperComputerSafetyMonitor := {}
  activations : Nat := 0
  file : Option StdString := none
  priorityLease : Option StdString := none
  log : List CallRecord := []

inductive Event where
  | heartbeat (machineCode : StdString) (nowMs : Int) (installed : Bool)
  | priorityLease (file : Option StdString)
  | runOnce (call : Call)

section World

open ScadaUpperComputerSafetyMonitor Run

variable (config : ScadaUpperComputerSafetyConfig) (machineCode : StdString) (printDouble : RawDouble → StdString)

def World.activates (w : World) (call : Call) : Bool :=
  config.enabled && !machineCode.isEmpty &&
    (match (w.monitor.reloadProject config printDouble call).1 with
      | .ok activated => activated
      | .error _ => false)

def World.record (w : World) (call : Call) (turn : Turn) : CallRecord where
  nowMs := call.nowMs
  file := w.file
  activation := if w.activates config machineCode printDouble call then w.activations + 1 else w.activations
  offlineTimeoutMs := (turn.monitor.project.map (·.topology.offlineTimeoutMs)).getD 0
  renewed := turn.evaluation.any (·.heartbeatFresh) &&
    turn.monitor.heartbeatRenews (readHeartbeat machineCode w.file)
  submitted := turn.submitted

def step (w : World) : Event → World
  | .heartbeat machine nowMs installed => { w with file := writeHeartbeat w.file machine nowMs installed }
  | .priorityLease file => { w with priorityLease := file }
  | .runOnce call =>
    let turn := w.monitor.runOnce config machineCode printDouble call w.file w.priorityLease
    let record := w.record config machineCode printDouble call turn
    { w with
      monitor := turn.monitor
      activations := record.activation
      priorityLease := turn.priorityLease
      log := w.log ++ [record] }

/-- A call seen from outside: what it does to the monitor, and what it may submit. -/
structure Advances (w : World) (call : Call) (turn : Turn) (activated : Bool) : Prop where
  started : turn.monitor.project = none → turn.monitor.signature = []
  activation : activated = true → turn.monitor.activatedAtMs = call.nowMs
  same : activated = false → turn.monitor.project = w.monitor.project ∧
    turn.monitor.activatedAtMs = w.monitor.activatedAtMs
  kept : activated = false →
    (turn.evaluation.any (·.heartbeatFresh) && turn.monitor.heartbeatRenews (readHeartbeat machineCode w.file)) = false →
      ∀ id ∈ w.monitor.acceptedActions, id ∈ turn.monitor.acceptedActions
  submitted : ∀ id accepted, turn.submitted = some (id, accepted) →
    (activated = false → id ∉ w.monitor.acceptedActions) ∧ (accepted = true → id ∈ turn.monitor.acceptedActions) ∧
    ∃ project, turn.monitor.project = some project ∧
      turn.monitor.heartbeatFresh project call.nowMs (readHeartbeat machineCode w.file) = false

variable {config machineCode printDouble}

def Unrenewed (segment : List CallRecord) : Prop := ∀ record ∈ segment, record.renewed = false

/-- What was accepted since the last renewal is of this activation or an earlier one, and this one's is remembered. -/
def Memory (log : List CallRecord) (activations : Nat) (acceptedActions : List StdString) : Prop :=
  ∀ segment, segment <:+ log → Unrenewed segment → ∀ p ∈ segment.filterMap CallRecord.accepted,
    p.1 ≤ activations ∧ (p.1 = activations → p.2 ∈ acceptedActions)

/-- A record continues the memory: it accepts only what is not remembered, and it is remembered. -/
structure Continues (record : CallRecord) (before after : Nat) (idsBefore idsAfter : List StdString) : Prop where
  later : before ≤ after
  kept : record.renewed = false → after = before → ∀ id ∈ idsBefore, id ∈ idsAfter
  accepted : ∀ p, record.accepted = some p → p.1 = after ∧ p.2 ∈ idsAfter ∧ (after = before → p.2 ∉ idsBefore)

section Log

variable {log : List CallRecord} {record : CallRecord} {before after : Nat} {idsBefore idsAfter : List StdString}

theorem accepted_snoc (segment : List CallRecord) (record : CallRecord) :
    (segment ++ [record]).filterMap CallRecord.accepted =
      segment.filterMap CallRecord.accepted ++ record.accepted.toList := by
  rw [List.filterMap_append]
  congr 1

theorem Unrenewed.init {segment : List CallRecord} (h : Unrenewed (segment ++ [record])) :
    Unrenewed segment ∧ record.renewed = false :=
  ⟨fun r hr => h r (List.mem_append_left _ hr), h record (List.mem_append_right _ (List.mem_singleton.mpr rfl))⟩

theorem Memory.snoc (h : Memory log before idsBefore) (hRecord : Continues record before after idsBefore idsAfter) :
    Memory (log ++ [record]) after idsAfter := by
  intro segment hSegment hUnrenewed p hp
  obtain rfl | ⟨rest, rfl, hRest⟩ := List.suffix_concat_iff.mp hSegment
  · cases hp
  obtain ⟨hEarlier, hStays⟩ := hUnrenewed.init
  rw [accepted_snoc, List.mem_append, Option.mem_toList] at hp
  obtain hp | hp := hp
  · obtain ⟨hLe, hKnown⟩ := h rest hRest hEarlier p hp
    refine ⟨hLe.trans hRecord.later, fun hNow => ?_⟩
    have hSame : after = before := by
      have hLater := hRecord.later
      omega
    exact hRecord.kept hStays hSame _ (hKnown (by omega))
  · obtain ⟨hNow, hKnown, -⟩ := hRecord.accepted p hp
    exact ⟨hNow.le, fun _ => hKnown⟩

theorem once_snoc (h : Memory log before idsBefore) (hRecord : Continues record before after idsBefore idsAfter)
    (hOnce : ∀ segment, segment <:+: log → Unrenewed segment → (segment.filterMap CallRecord.accepted).Nodup)
    {segment : List CallRecord} (hSegment : segment <:+: log ++ [record]) (hUnrenewed : Unrenewed segment) :
    (segment.filterMap CallRecord.accepted).Nodup := by
  obtain hSuffix | hOld := List.infix_concat_iff.mp hSegment
  case inr => exact hOnce segment hOld hUnrenewed
  obtain rfl | ⟨rest, rfl, hRest⟩ := List.suffix_concat_iff.mp hSuffix
  · exact List.nodup_nil
  obtain ⟨hEarlier, hStays⟩ := hUnrenewed.init
  rw [accepted_snoc, List.nodup_append]
  refine ⟨hOnce rest hRest.isInfix hEarlier, ?_, ?_⟩
  · cases record.accepted with
    | none => exact List.nodup_nil
    | some p => exact List.nodup_singleton p
  · rintro p hp q hq rfl
    obtain ⟨hLe, hKnown⟩ := h rest hRest hEarlier p hp
    obtain ⟨hNow, -, hNew⟩ := hRecord.accepted p (Option.mem_toList.mp hq)
    have hLater := hRecord.later
    exact hNew (by omega) (hKnown (by omega))

end Log

end World

end EdgeGateway.Scada
