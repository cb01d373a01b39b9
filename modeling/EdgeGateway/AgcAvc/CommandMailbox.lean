import EdgeGateway.AgcAvc.ServiceInput
import EdgeGateway.Foundation.Run
import Mathlib.Tactic.FinCases
import Mathlib.Data.Rat.Floor

/-! # The dispatch command mailbox

The dispatcher writes the seven points of a command one at a time, the sequence last.
-/

namespace EdgeGateway.AgcAvc

universe u

variable {K : Type u}

/-- A command as the dispatcher has it; the mode is the number written to its point. -/
structure DispatchCommand (K : Type u) where
  sequence : Int
  issuedAtMs : Int
  targetPkw : K
  targetQkvar : K
  targetVoltageV : K
  targetPowerFactor : K
  mode : Int
deriving DecidableEq

structure MailboxPoint (K : Type u) where
  value : K
  ts : Int
deriving DecidableEq

def MailboxPoint.view (nowMs : Int) (point : MailboxPoint K) : SharedPoint K where
  value := some point.value
  quality := 1
  ts := point.ts
  stale := decide (point.ts + 600000 > 0) && decide (nowMs > point.ts + 600000)

/-- Between the two reads of a tick: what the first one saw, and whether it saw one command whole. -/
structure Reading (K : Type u) where
  nowMs : Int
  observed : AgcAvcCommandInput K
  whole : Bool

structure MailboxSystem (K : Type u) where
  memory : UInt32 → Option (MailboxPoint K)
  dispatched : List (DispatchCommand K)
  queue : List (DispatchCommand K)
  progress : Fin 7
  reading : Option (Reading K)
  latched : Option (AgcAvcCommandInput K)

inductive MailboxEvent where
  | put (ts : Int)
  | snapshot (nowMs : Int)
  | confirm
deriving DecidableEq, Repr

variable {n : Nat}

def AgcAvcServiceConfig.mailboxRef (config : AgcAvcServiceConfig K n) : Fin 7 → AgcAvcPointRefConfig :=
  ![config.target, config.mode, config.targetQ, config.targetVoltage, config.targetPowerFactor,
    config.commandTimestamp, config.commandSequence]

structure AgcAvcServiceConfig.HasMailbox (config : AgcAvcServiceConfig K n) : Prop where
  configured : ∀ field, (config.mailboxRef field).index ≠ 0
  distinct : Function.Injective fun field => (config.mailboxRef field).index

variable [Field K] [LinearOrder K] [FloorRing K]

namespace DispatchCommand

def fieldValue (command : DispatchCommand K) : Fin 7 → K :=
  ![command.targetPkw, (command.mode : K), command.targetQkvar, command.targetVoltageV, command.targetPowerFactor,
    (command.issuedAtMs : K), (command.sequence : K)]

def received (command : DispatchCommand K) : AgcAvcCommandInput K where
  sequence := command.sequence
  issuedAtMs := command.issuedAtMs
  targetPkw := command.targetPkw
  targetQkvar := command.targetQkvar
  targetVoltageV := command.targetVoltageV
  targetPowerFactor := command.targetPowerFactor
  avcMode := some (avcModeOf command.mode)

end DispatchCommand

namespace MailboxSystem

variable (config : AgcAvcServiceConfig K n)

def start (queue : List (DispatchCommand K)) : MailboxSystem K where
  memory := fun _ => none
  dispatched := []
  queue := queue
  progress := 0
  reading := none
  latched := none

def snapshotAt (s : MailboxSystem K) (nowMs : Int) : Snapshot K :=
  fun index => (s.memory index).map (MailboxPoint.view nowMs)

def usableAt (s : MailboxSystem K) (nowMs : Int) (field : Fin 7) : Bool :=
  (s.snapshotAt nowMs (config.mailboxRef field).index).any fun point =>
    pointUsable point nowMs config.controller.commandTimeoutMs

def putNext (s : MailboxSystem K) (ts : Int) : MailboxSystem K :=
  match s.queue with
  | [] => s
  | command :: rest =>
    let memory := Function.update s.memory (config.mailboxRef s.progress).index
      (some ⟨command.fieldValue s.progress, ts⟩)
    if h : s.progress.val + 1 < 7 then { s with memory := memory, progress := ⟨s.progress.val + 1, h⟩ }
    else { s with memory := memory, dispatched := command :: s.dispatched, queue := rest, progress := 0 }

def takeSnapshot (s : MailboxSystem K) (nowMs : Int) : MailboxSystem K :=
  let reading : Reading K :=
    { nowMs := nowMs
      observed := config.observedCommand (s.snapshotAt nowMs) nowMs
      whole := decide (s.progress = 0) && (List.finRange 7).all (s.usableAt config nowMs) }
  { s with reading := some reading }

def stillShown (s : MailboxSystem K) (reading : Reading K) : Bool :=
  config.sequenceStable reading.nowMs (s.snapshotAt reading.nowMs config.commandSequence.index) reading.observed

def confirmReading (s : MailboxSystem K) : MailboxSystem K :=
  match s.reading with
  | none => s
  | some reading =>
    { s with
      reading := none
      latched := latchCommand s.latched (s.stillShown config reading) reading.observed }

def step (s : MailboxSystem K) : MailboxEvent → MailboxSystem K
  | .put ts => s.putNext config ts
  | .snapshot nowMs => s.takeSnapshot config nowMs
  | .confirm => s.confirmReading config

/-- A command is latched only from a snapshot that saw one command whole. -/
def Whole (s : MailboxSystem K) : MailboxEvent → Prop
  | .confirm => ∀ reading, s.reading = some reading → s.stillShown config reading → 0 < reading.observed.sequence →
      (∀ latched, s.latched = some latched → latched.sequence < reading.observed.sequence) → reading.whole
  | _ => True

/-- The memory shows the command being written up to where it is written, and the one before it from there on. -/
def Shows (s : MailboxSystem K) : Prop :=
  ∀ field, (s.memory (config.mailboxRef field).index).map (·.value) =
    (if field < s.progress then s.queue.head? else s.dispatched.head?).map fun command => command.fieldValue field

structure Consistent (s : MailboxSystem K) : Prop where
  shows : Shows config s
  reading : ∀ reading, s.reading = some reading → reading.whole →
    ∃ command ∈ s.dispatched, reading.observed = command.received
  latched : ∀ latched, s.latched = some latched → ∃ command ∈ s.dispatched, latched = command.received

end MailboxSystem

section Reading

variable [IsStrictOrderedRing K]

theorem llround_intCast (value : Int) : llround (value : K) = value := by
  have hHalf : ⌊(1 / 2 : K)⌋ = 0 := by norm_num [Int.floor_eq_iff]
  rw [llround]
  split
  · rw [Int.floor_intCast_add, hHalf, add_zero]
  · rw [← Int.cast_neg, Int.floor_intCast_add, hHalf, add_zero, neg_neg]

end Reading

namespace MailboxSystem

variable {config : AgcAvcServiceConfig K n}

omit [LinearOrder K] [FloorRing K] in
theorem shows_start (queue : List (DispatchCommand K)) : Shows config (start queue) := by
  intro field
  have hNot : ¬field < (0 : Fin 7) := Fin.not_lt_zero field
  simp [start, hNot]

omit [LinearOrder K] [FloorRing K] in
theorem shows_putNext (hMailbox : config.HasMailbox) (s : MailboxSystem K) (ts : Int) (h : Shows config s) :
    Shows config (s.putNext config ts) := by
  rw [putNext]
  split
  · exact h
  case h_2 command rest hQueue =>
    dsimp only
    intro field
    have hField := h field
    rw [hQueue] at hField
    have hMemory : ((Function.update s.memory (config.mailboxRef s.progress).index
        (some ⟨command.fieldValue s.progress, ts⟩)) (config.mailboxRef field).index).map (·.value) =
        (if field ≤ s.progress then some command else s.dispatched.head?).map
          fun command => command.fieldValue field := by
      obtain rfl | hNe := eq_or_ne field s.progress
      · simp
      · rw [Function.update_of_ne (hMailbox.distinct.ne hNe), hField]
        simp [hNe.le_iff_lt]
    split
    case isTrue hMore =>
      rw [hMemory, hQueue]
      have hBorder : field < (⟨s.progress.val + 1, hMore⟩ : Fin 7) ↔ field ≤ s.progress := by
        simp only [Fin.lt_def, Fin.le_def]
        omega
      simp only [hBorder, List.head?_cons]
    case isFalse hLast =>
      have hAll : field ≤ s.progress := by
        rw [Fin.le_def]
        omega
      rw [hMemory, if_pos hAll, if_neg (Fin.not_lt_zero field)]
      rfl

omit [LinearOrder K] [FloorRing K] in
theorem pointValue_whole (hMailbox : config.HasMailbox) (s : MailboxSystem K) (nowMs : Int) (h : Shows config s)
    (hProgress : s.progress = 0) (hUsable : ∀ field, s.usableAt config nowMs field) :
    ∃ command ∈ s.dispatched, ∀ field,
      pointValue (s.snapshotAt nowMs) nowMs config.controller.commandTimeoutMs (config.mailboxRef field) =
        some (command.fieldValue field) := by
  have hShows : ∀ field, (s.memory (config.mailboxRef field).index).map (·.value) =
      s.dispatched.head?.map fun command => command.fieldValue field := by
    intro field
    rw [h field, hProgress, if_neg (Fin.not_lt_zero field)]
  cases hHead : s.dispatched.head? with
  | none =>
    have hFirst := hShows 0
    have hRead := hUsable 0
    rw [hHead] at hFirst
    simp only [usableAt, snapshotAt, Option.map_eq_none_iff.mp hFirst, Option.map_none, Option.any_none] at hRead
    exact absurd hRead Bool.false_ne_true
  | some command =>
    refine ⟨command, List.mem_of_head? hHead, fun field => ?_⟩
    have hField := hShows field
    have hRead := hUsable field
    rw [hHead] at hField
    obtain ⟨point, hPoint, hValue⟩ := Option.map_eq_some_iff.mp hField
    simp only [usableAt, snapshotAt, hPoint, Option.map_some, Option.any_some] at hRead
    rw [pointValue]
    rw [if_neg (hMailbox.configured field), snapshotAt, hPoint, Option.map_some, Option.bind_some, if_pos hRead]
    exact congrArg some hValue

variable [IsStrictOrderedRing K]

theorem observed_whole (values : Snapshot K) (nowMs : Int) (command : DispatchCommand K)
    (h : ∀ field, pointValue values nowMs config.controller.commandTimeoutMs (config.mailboxRef field) =
      some (command.fieldValue field)) : config.observedCommand values nowMs = command.received := by
  have hTarget := h 0
  have hMode := h 1
  have hQ := h 2
  have hVoltage := h 3
  have hFactor := h 4
  have hIssued := h 5
  have hSequence := h 6
  simp only [AgcAvcServiceConfig.mailboxRef, DispatchCommand.fieldValue] at *
  simp_all [AgcAvcServiceConfig.observedCommand, readValue, llround_intCast, DispatchCommand.received]

omit [LinearOrder K] [FloorRing K] [IsStrictOrderedRing K] in
theorem putNext_frame (config : AgcAvcServiceConfig K n) (s : MailboxSystem K) (ts : Int) :
    (s.putNext config ts).reading = s.reading ∧ (s.putNext config ts).latched = s.latched ∧
      (∀ command ∈ s.dispatched, command ∈ (s.putNext config ts).dispatched) ∧
      (s.putNext config ts).dispatched.reverse ++ (s.putNext config ts).queue = s.dispatched.reverse ++ s.queue := by
  rw [putNext]
  split
  · exact ⟨rfl, rfl, fun _ h => h, rfl⟩
  case h_2 command rest hQueue =>
    dsimp only
    split
    · exact ⟨rfl, rfl, fun _ h => h, rfl⟩
    · refine ⟨rfl, rfl, fun _ h => List.mem_cons_of_mem _ h, ?_⟩
      rw [hQueue]
      simp

omit [Field K] [LinearOrder K] [FloorRing K] [IsStrictOrderedRing K] in
theorem latchCommand_cases (latched : Option (AgcAvcCommandInput K)) (stable : Bool)
    (observed : AgcAvcCommandInput K) :
    latchCommand latched stable observed = latched ∨
      latchCommand latched stable observed = some observed ∧ stable ∧ 0 < observed.sequence ∧
        ∀ before, latched = some before → before.sequence < observed.sequence := by
  rw [latchCommand]
  split
  case isTrue h =>
    simp only [Bool.and_eq_true, decide_eq_true_eq] at h
    refine Or.inr ⟨rfl, h.1.1, h.1.2, ?_⟩
    rintro before rfl
    simpa using h.2
  case isFalse => exact Or.inl rfl

theorem consistent_step (hMailbox : config.HasMailbox) (s : MailboxSystem K) (event : MailboxEvent)
    (h : Consistent config s) (hWhole : Whole config s event) : Consistent config (s.step config event) := by
  cases event with
  | put ts =>
    obtain ⟨hReading, hLatched, hMem, -⟩ := putNext_frame config s ts
    refine ⟨shows_putNext hMailbox s ts h.shows, fun reading hSome hSaw => ?_, fun latched hSome => ?_⟩
    · change (s.putNext config ts).reading = _ at hSome
      rw [hReading] at hSome
      obtain ⟨command, hCommand, hEq⟩ := h.reading reading hSome hSaw
      exact ⟨command, hMem command hCommand, hEq⟩
    · change (s.putNext config ts).latched = _ at hSome
      rw [hLatched] at hSome
      obtain ⟨command, hCommand, hEq⟩ := h.latched latched hSome
      exact ⟨command, hMem command hCommand, hEq⟩
  | snapshot nowMs =>
    refine ⟨h.shows, fun reading hSome hSaw => ?_, h.latched⟩
    obtain rfl := Option.some.inj hSome
    simp only [Bool.and_eq_true, decide_eq_true_eq, List.all_eq_true, List.mem_finRange, true_implies] at hSaw
    obtain ⟨command, hCommand, hValues⟩ := pointValue_whole hMailbox s nowMs h.shows hSaw.1 hSaw.2
    exact ⟨command, hCommand, observed_whole _ _ command hValues⟩
  | confirm =>
    change Consistent config (s.confirmReading config)
    rw [confirmReading]
    split
    · exact h
    case h_2 reading hReading =>
      refine ⟨h.shows, fun _ hNone => absurd hNone (by simp), fun latched hSome => ?_⟩
      obtain hSame | ⟨hTaken, hShown, hPositive, hNewer⟩ :=
        latchCommand_cases s.latched (s.stillShown config reading) reading.observed
      · exact h.latched latched (hSame ▸ hSome)
      · obtain rfl : reading.observed = latched := Option.some.inj (hTaken.symm.trans hSome)
        exact h.reading reading hReading (hWhole reading hReading hShown hPositive hNewer)

omit [IsStrictOrderedRing K] in
theorem latched_step (s : MailboxSystem K) (event : MailboxEvent) (latched : AgcAvcCommandInput K)
    (h : s.latched = some latched) :
    ∃ later, (s.step config event).latched = some later ∧ latched.sequence ≤ later.sequence := by
  cases event with
  | put ts => exact ⟨latched, (putNext_frame config s ts).2.1.trans h, le_rfl⟩
  | snapshot nowMs => exact ⟨latched, h, le_rfl⟩
  | confirm =>
    change ∃ later, (s.confirmReading config).latched = _ ∧ _
    rw [confirmReading]
    split
    · exact ⟨latched, h, le_rfl⟩
    case h_2 reading _ =>
      obtain hSame | ⟨hTaken, -, -, hNewer⟩ :=
        latchCommand_cases s.latched (s.stillShown config reading) reading.observed
      · exact ⟨latched, hSame.trans h, le_rfl⟩
      · exact ⟨reading.observed, hTaken, (hNewer latched h).le⟩

omit [IsStrictOrderedRing K] in
theorem dispatched_of_queue (config : AgcAvcServiceConfig K n) (queue : List (DispatchCommand K)) (events : List MailboxEvent) :
    (Run.after (step config) (start queue) events).dispatched.reverse ++
      (Run.after (step config) (start queue) events).queue = queue := by
  induction events using List.reverseRecOn with
  | nil => rfl
  | append_singleton events event ih =>
    rw [Run.after_snoc]
    cases event with
    | put ts => exact (putNext_frame config _ ts).2.2.2.trans ih
    | snapshot nowMs => exact ih
    | confirm =>
      refine Eq.trans ?_ ih
      change (confirmReading config _).dispatched.reverse ++ (confirmReading config _).queue = _
      rw [confirmReading]
      split <;> rfl

/-- Every latched command is the dispatched command of its sequence, and the sequence never decreases. -/
theorem latched_is_dispatched (hMailbox : config.HasMailbox) (queue : List (DispatchCommand K))
    (hIncreasing : queue.Pairwise fun a b => a.sequence < b.sequence) (events : List MailboxEvent)
    (hWhole : Run.Guarded (step config) (Whole config) (start queue) events) (done : List MailboxEvent)
    (hDone : done <+: events) :
    (∀ latched, (Run.after (step config) (start queue) done).latched = some latched →
      ∃ command ∈ (Run.after (step config) (start queue) done).dispatched, latched = command.received ∧
        ∀ other ∈ queue, other.sequence = latched.sequence → other = command) ∧
    ∀ event, done ++ [event] <+: events →
      ∀ latched, (Run.after (step config) (start queue) done).latched = some latched →
        ∃ later, (Run.after (step config) (start queue) (done ++ [event])).latched = some later ∧
          latched.sequence ≤ later.sequence := by
  have hConsistent : Consistent config (Run.after (step config) (start queue) done) :=
    Run.invariant (step config) (Consistent config)
      ⟨shows_start queue, fun _ h => absurd h (by simp [start]), fun _ h => absurd h (by simp [start])⟩
      (fun s event h hEvent => consistent_step hMailbox s event h hEvent) (hWhole.before _ hDone)
  constructor
  · intro latched hLatched
    obtain ⟨command, hCommand, rfl⟩ := hConsistent.latched latched hLatched
    refine ⟨command, hCommand, rfl, fun other hOther hSequence => ?_⟩
    have hQueued : command ∈ queue := by
      rw [← dispatched_of_queue config queue done]
      exact List.mem_append_left _ (List.mem_reverse.mpr hCommand)
    have hDistinct : (queue.map (·.sequence)).Nodup := List.pairwise_map.mpr (hIncreasing.imp fun h => h.ne)
    exact List.inj_on_of_nodup_map hDistinct hOther hQueued hSequence
  · intro event _ latched hLatched
    rw [Run.after_snoc]
    exact latched_step _ event latched hLatched

end MailboxSystem

section Sample

def plainRef (index : UInt32) : AgcAvcPointRefConfig := ⟨index, true, "point"⟩

def plainStation : AgcAvcServiceConfig ℚ 0 where
  controller :=
    { enabled := true
      cycleMs := 1000
      avcCycleMs := 1000
      commandTimeoutMs := 10000
      pqPriority := .activePowerFirst
      stationLimits := ⟨100, 200, 100, 100, 100, 200⟩
      agc := ⟨true, 0, 0, 0, 0, 0, -100, 100, 1000, 1000, false, 50, 0, 0⟩
      avc := ⟨true, .reactivePower, 0, 0, 0, 0, 0, 0, 0, 0, -100, 100, 1000, 1000⟩
      pcs := Fin.elim0 }
  units := Fin.elim0
  shadowMode := false
  submitWrites := true
  inputMaxAgeMs := 1500
  writeResultTimeoutMs := 5000
  maxConsecutiveWriteFailures := 3
  remoteEnable := plainRef 1
  emergencyStop := plainRef 2
  fireAlarm := plainRef 3
  target := plainRef 4
  commandSequence := plainRef 5
  commandTimestamp := plainRef 6
  pccActivePower := plainRef 7
  frequency := plainRef 8
  mode := plainRef 9
  targetQ := plainRef 10
  targetVoltage := plainRef 11
  targetPowerFactor := plainRef 12
  pccReactivePower := plainRef 13
  pccVoltage := plainRef 14
  pccPowerFactor := plainRef 15

def exportCommand : DispatchCommand ℚ := ⟨1, 1000, 50, 10, 400, 1, 0⟩

def importCommand : DispatchCommand ℚ := ⟨2, 2000, -80, 0, 400, 1, 0⟩

theorem plainStation_hasMailbox : plainStation.HasMailbox := ⟨by decide, by decide⟩

open MailboxSystem

def wholeCommand : List MailboxEvent := List.replicate 7 (.put 1000) ++ [.snapshot 1500, .confirm]

theorem whole_command_latched :
    ∃ latched, (Run.after (step plainStation) (start [exportCommand]) wholeCommand).latched = some latched ∧
      ∃ command ∈ (Run.after (step plainStation) (start [exportCommand]) wholeCommand).dispatched,
        latched = command.received ∧ ∀ other ∈ [exportCommand], other.sequence = latched.sequence → other = command := by
  have hWhole : Run.Guarded (step plainStation) (Whole plainStation) (start [exportCommand]) wholeCommand := by
    have hSaw : ((Run.after (step plainStation) (start [exportCommand])
        (List.replicate 7 (.put 1000) ++ [.snapshot 1500])).reading.map (·.whole)) = some true := by
      decide +kernel
    rw [wholeCommand]
    simp only [List.replicate, List.cons_append, List.nil_append, Run.guarded_cons]
    refine ⟨trivial, trivial, trivial, trivial, trivial, trivial, trivial, trivial, ?_, Run.guarded_nil _ _ _⟩
    intro reading hReading _ _ _
    change (Run.after (step plainStation) (start [exportCommand])
      (List.replicate 7 (.put 1000) ++ [.snapshot 1500])).reading = some reading at hReading
    rw [hReading] at hSaw
    exact Option.some.inj hSaw
  have hLatched : (Run.after (step plainStation) (start [exportCommand]) wholeCommand).latched =
      some exportCommand.received := by
    decide +kernel
  exact ⟨exportCommand.received, hLatched, (latched_is_dispatched plainStation_hasMailbox [exportCommand]
    (List.pairwise_singleton _ _) wholeCommand hWhole wholeCommand (List.prefix_refl _)).1 _ hLatched⟩

/-- The first tick comes when the next command is already being written. -/
theorem half_written_command_latched :
    plainStation.HasMailbox ∧ [exportCommand, importCommand].Pairwise (fun a b => a.sequence < b.sequence) ∧
      ∃ latched, (Run.after (step plainStation) (start [exportCommand, importCommand])
          (List.replicate 8 (.put 1000) ++ [.snapshot 1500, .confirm])).latched = some latched ∧
        latched.sequence = exportCommand.sequence ∧ latched.targetPkw = importCommand.targetPkw ∧
        ∀ command ∈ [exportCommand, importCommand], latched ≠ command.received := by
  refine ⟨plainStation_hasMailbox, by decide, { exportCommand.received with targetPkw := -80 }, ?_, ?_, ?_, ?_⟩
  · decide +kernel
  · rfl
  · rfl
  · decide +kernel

end Sample

end EdgeGateway.AgcAvc
