import EdgeGateway.Daemon.GatewayDaemon

/-! # What a batch of write-backs leaves behind -/

namespace EdgeGateway.Daemon

open PointStore Picking QuotedText

namespace Handling

variable (self : GatewayDaemon) (handling : Handling)

def known : Bool := (self.indexToRuntimeDevice handling.command.index).isSome

def thrownBy (throws : Option StdString) : Option StdString := if self.mqttPublisher then throws else none

def succeeded : Bool :=
  handling.known self &&
    match handling.world.execution with
    | .ok execution => execution.success
    | .error _ => false

/-- The executor returned and the publication of its verdict threw: the handler records a second result. -/
def retried : Bool :=
  handling.known self && handling.world.execution.isOk && (thrownBy self handling.world.publication).isSome

def escapes : Bool :=
  if handling.known self then
    (!handling.world.execution.isOk || (thrownBy self handling.world.publication).isSome) &&
      (thrownBy self handling.world.handlerPublication).isSome
  else (thrownBy self handling.world.publication).isSome

def verdicts : List Bool :=
  if handling.retried self then [handling.succeeded self, false] else [handling.succeeded self]

def settled : Bool := handling.succeeded self && !handling.retried self

def call : StdString × UInt32 × RawDouble := (handling.command.cmdId, handling.command.index, handling.command.value)

def calls : List (StdString × UInt32 × RawDouble) := if handling.known self then [handling.call] else []

def marks : List (StdString × Bool) := (handling.verdicts self).map fun verdict => (handling.command.cmdId, verdict)

theorem verdicts_last : ∃ first, handling.verdicts self = first ++ [handling.settled self] := by
  rw [verdicts, settled]
  split
  · rename_i hRetried
    rw [hRetried, Bool.not_true, Bool.and_false]
    exact ⟨[handling.succeeded self], rfl⟩
  · rename_i hOnce
    rw [Bool.eq_false_iff.mpr hOnce, Bool.not_false, Bool.and_true]
    exact ⟨[], rfl⟩

end Handling

def mark (result : WritebackResultRecord) : StdString × Bool := (result.cmdId, result.success)

def named (result : WritebackResultRecord) : Bool := decide (result.cmdId ≠ [])

structure Recorded (before after : Writebacks) (calls : List (StdString × UInt32 × RawDouble))
    (pushed : List WritebackResultRecord) : Prop where
  ring : after.results = pushed.foldl recordWritebackResult before.results
  recorded : after.recorded = before.recorded ++ pushed.filter named
  executed : after.executed = before.executed ++ calls

namespace Recorded

variable {a b c : Writebacks} {calls more : List (StdString × UInt32 × RawDouble)}
  {pushed newer : List WritebackResultRecord}

theorem unchanged (hRing : b.results = a.results) (hRecorded : b.recorded = a.recorded)
    (hExecuted : b.executed = a.executed) : Recorded a b [] [] :=
  ⟨hRing, hRecorded.trans (List.append_nil _).symm, hExecuted.trans (List.append_nil _).symm⟩

theorem trans (hFirst : Recorded a b calls pushed) (hSecond : Recorded b c more newer) :
    Recorded a c (calls ++ more) (pushed ++ newer) where
  ring := by rw [hSecond.ring, hFirst.ring, List.foldl_append]
  recorded := by rw [hSecond.recorded, hFirst.recorded, List.append_assoc, List.filter_append]
  executed := by rw [hSecond.executed, hFirst.executed, List.append_assoc]

theorem record (run : Writebacks) (result : WritebackResultRecord) : Recorded run (run.record result) [] [result] where
  ring := rfl
  recorded := by
    rw [Writebacks.record]
    dsimp only
    split
    · rename_i hNone
      rw [List.filter_cons_of_neg (by rw [named, hNone]; decide), List.filter_nil, List.append_nil]
    · rename_i hSome
      have hNamed : named result = true := decide_eq_true hSome
      rw [List.filter_cons_of_pos hNamed, List.filter_nil]
  executed := (List.append_nil _).symm

theorem execute (run : Writebacks) (command : PendingWriteCommand) :
    Recorded run (run.execute command) [(command.cmdId, command.index, command.value)] [] where
  ring := rfl
  recorded := (List.append_nil _).symm
  executed := rfl

end Recorded

section Steps

variable {self : GatewayDaemon} {nowMsValue : Int} {run : Writebacks} {handling : Handling}

theorem publish_spec (throws : Option StdString) (event details : StdString) :
    (self.publish nowMsValue run throws event details).2 = Handling.thrownBy self throws ∧
      Recorded run (self.publish nowMsValue run throws event details).1 [] [] := by
  refine ⟨?_, .unchanged rfl rfl rfl⟩
  rw [GatewayDaemon.publish, GatewayDaemon.publishStatusEvent, Handling.thrownBy]
  split <;> rfl

theorem publishAndRelease_spec (throws : Option StdString) (event details : StdString) :
    (self.publishAndRelease nowMsValue run handling throws event details).2 = Handling.thrownBy self throws ∧
      Recorded run (self.publishAndRelease nowMsValue run handling throws event details).1 [] [] := by
  obtain ⟨hThrown, hRun⟩ := @publish_spec self nowMsValue run throws event details
  rw [GatewayDaemon.publishAndRelease]
  split
  · rename_i what hSome
    exact ⟨hSome.symm.trans hThrown, hRun⟩
  · rename_i hNone
    exact ⟨hNone.symm.trans hThrown, hRun.trans (.unchanged rfl rfl rfl)⟩

/-- A result is recorded and then reported. -/
theorem record_publish_spec (result : WritebackResultRecord) (throws : Option StdString) (event details : StdString) :
    (self.publishAndRelease nowMsValue (run.record result) handling throws event details).2 =
        Handling.thrownBy self throws ∧
      Recorded run (self.publishAndRelease nowMsValue (run.record result) handling throws event details).1 []
        [result] := by
  obtain ⟨hThrown, hRun⟩ := @publishAndRelease_spec self nowMsValue (run.record result) handling throws event details
  exact ⟨hThrown, (Recorded.record run result).trans hRun⟩

theorem failedBranch_spec (device : RuntimeDevice) (execution : CommandResult) :
    (self.failedBranch nowMsValue run handling device execution).thrown =
        Handling.thrownBy self handling.world.publication ∧
      ∃ result, (self.failedBranch nowMsValue run handling device execution).result = result ∧
        Recorded run (self.failedBranch nowMsValue run handling device execution).run [] [result] ∧
        mark result = (handling.command.cmdId, false) := by
  rw [GatewayDaemon.failedBranch]
  dsimp only
  obtain ⟨hThrown, hRun⟩ := @record_publish_spec self nowMsValue run handling _ handling.world.publication
    "writeback-failed".toList (GatewayDaemon.failedDetails device handling.command.index execution.message)
  exact ⟨hThrown, _, rfl, hRun, rfl⟩

theorem succeededBranch_spec (device : RuntimeDevice) (execution : CommandResult) :
    (self.succeededBranch nowMsValue run handling device execution).thrown =
        Handling.thrownBy self handling.world.publication ∧
      ∃ result, (self.succeededBranch nowMsValue run handling device execution).result = result ∧
        Recorded run (self.succeededBranch nowMsValue run handling device execution).run [] [result] ∧
        mark result = (handling.command.cmdId, true) := by
  rw [GatewayDaemon.succeededBranch]
  dsimp only
  obtain ⟨hThrown, hRun⟩ := @publish_spec self nowMsValue
    ((self.release { run with processed := run.processed + 1 } handling).record _) handling.world.publication
    "writeback-succeeded".toList (GatewayDaemon.succeededDetails device _)
  have hReleased : Recorded run (self.release { run with processed := run.processed + 1 } handling) [] [] :=
    .unchanged rfl rfl rfl
  exact ⟨hThrown, _, rfl, hReleased.trans ((Recorded.record _ _).trans hRun), rfl⟩

/-- The guarded block calls the executor and records its verdict, or throws what the executor threw. -/
theorem attempt_spec (device : RuntimeDevice) :
    (∃ what, handling.world.execution = .error what ∧
      (self.attempt nowMsValue run handling device).thrown = some what ∧
      (self.attempt nowMsValue run handling device).result.cmdId = handling.command.cmdId ∧
      Recorded run (self.attempt nowMsValue run handling device).run [handling.call] []) ∨
    ∃ execution, handling.world.execution = .ok execution ∧
      (self.attempt nowMsValue run handling device).thrown = Handling.thrownBy self handling.world.publication ∧
      ∃ result, (self.attempt nowMsValue run handling device).result = result ∧
        Recorded run (self.attempt nowMsValue run handling device).run [handling.call] [result] ∧
        mark result = (handling.command.cmdId, execution.success) := by
  have hCall := Recorded.execute run handling.command
  rw [GatewayDaemon.attempt]
  cases hExecution : handling.world.execution with
  | error what => exact .inl ⟨what, rfl, rfl, rfl, hCall⟩
  | ok execution =>
    refine .inr ⟨execution, rfl, ?_⟩
    dsimp only
    obtain hSuccess | hFailure := Bool.eq_false_or_eq_true execution.success
    · rw [if_pos hSuccess, hSuccess]
      obtain ⟨hThrown, result, hResult, hRun, hMark⟩ :=
        @succeededBranch_spec self nowMsValue (run.execute handling.command) handling device execution
      exact ⟨hThrown, result, hResult, hCall.trans hRun, hMark⟩
    · rw [if_neg (Bool.eq_false_iff.mp hFailure), hFailure]
      obtain ⟨hThrown, result, hResult, hRun, hMark⟩ :=
        @failedBranch_spec self nowMsValue (run.execute handling.command) handling device execution
      exact ⟨hThrown, result, hResult, hCall.trans hRun, hMark⟩

theorem skipUnknown_spec :
    (self.skipUnknown nowMsValue run handling).2 = Handling.thrownBy self handling.world.publication ∧
      ∃ result, Recorded run (self.skipUnknown nowMsValue run handling).1 [] [result] ∧
        mark result = (handling.command.cmdId, false) := by
  obtain ⟨hThrown, hRun⟩ := @record_publish_spec self nowMsValue run handling
    (completed (startedResult handling.command handling.world.startedAt) handling.world.completedAt false
      "unknown-index".toList "writeback-skipped".toList) handling.world.publication "writeback-skipped".toList
    ("\"index\":".toList ++ intText handling.command.index.toNat ++ ",\"reason\":\"unknown-index\"".toList)
  exact ⟨hThrown, _, hRun, rfl⟩

theorem handleException_spec {attempt : GatewayDaemon.Attempt} (device : RuntimeDevice) (what : StdString)
    (hId : attempt.result.cmdId = handling.command.cmdId) :
    (self.handleException nowMsValue attempt handling device what).2 =
        Handling.thrownBy self handling.world.handlerPublication ∧
      ∃ result, Recorded attempt.run (self.handleException nowMsValue attempt handling device what).1 [] [result] ∧
        mark result = (handling.command.cmdId, false) := by
  obtain ⟨hThrown, hRun⟩ := @record_publish_spec self nowMsValue attempt.run handling
    (completed attempt.result handling.world.caughtAt false what "writeback-failed".toList)
    handling.world.handlerPublication "writeback-failed".toList
    (GatewayDaemon.failedDetails device handling.command.index what)
  refine ⟨hThrown, _, hRun, ?_⟩
  rw [← hId]
  rfl

theorem handle_spec :
    (self.handle nowMsValue run handling).2.isSome = handling.escapes self ∧
      ∃ pushed, Recorded run (self.handle nowMsValue run handling).1 (handling.calls self) pushed ∧
        pushed.map mark = handling.marks self := by
  rw [GatewayDaemon.handle, Handling.escapes, Handling.calls, Handling.marks, Handling.verdicts, Handling.retried,
    Handling.succeeded]
  cases hDevice : self.indexToRuntimeDevice handling.command.index with
  | none =>
    have hUnknown : handling.known self = false := by rw [Handling.known, hDevice]; rfl
    obtain ⟨hThrown, result, hRun, hMark⟩ := @skipUnknown_spec self nowMsValue run handling
    rw [hUnknown]
    exact ⟨congrArg Option.isSome hThrown, [result], hRun, congrArg (fun m => [m]) hMark⟩
  | some device =>
    have hKnown : handling.known self = true := by rw [Handling.known, hDevice]; rfl
    rw [hKnown]
    dsimp only
    obtain ⟨what, hExecution, hThrown, hId, hRun⟩ | ⟨execution, hExecution, hThrown, result, hResult, hRun, hMark⟩ :=
      @attempt_spec self nowMsValue run handling device
    · obtain ⟨hEscaped, second, hHandled, hSecond⟩ := @handleException_spec self nowMsValue handling _ device what hId
      rw [hThrown, hExecution]
      exact ⟨congrArg Option.isSome hEscaped, [second], hRun.trans hHandled, congrArg (fun m => [m]) hSecond⟩
    · rw [hThrown, hExecution]
      cases hPublication : Handling.thrownBy self handling.world.publication with
      | none => exact ⟨rfl, [result], hRun, congrArg (fun m => [m]) hMark⟩
      | some what =>
        -- the exception handler records a second verdict, whatever the executor reported
        have hId : (self.attempt nowMsValue run handling device).result.cmdId = handling.command.cmdId := by
          rw [hResult]
          exact congrArg Prod.fst hMark
        obtain ⟨hEscaped, second, hHandled, hSecond⟩ := @handleException_spec self nowMsValue handling _ device what hId
        refine ⟨congrArg Option.isSome hEscaped, [result, second], hRun.trans hHandled, ?_⟩
        rw [List.map_cons, List.map_singleton, hMark, hSecond]
        rfl

end Steps

section Batches

variable (self : GatewayDaemon) (nowMsValue : Int)

def taken : List Handling → List Handling
  | [] => []
  | handling :: rest => handling :: if handling.escapes self then [] else taken rest

def untaken : List Handling → List Handling
  | [] => []
  | handling :: rest => if handling.escapes self then rest else untaken rest

theorem taken_append_untaken (batch : List Handling) : taken self batch ++ untaken self batch = batch := by
  induction batch with
  | nil => rfl
  | cons handling rest ih =>
    rw [taken, untaken, List.cons_append]
    split
    · rfl
    · rw [ih]

theorem handleAll_spec (run : Writebacks) (batch : List Handling) :
    ∃ pushed, Recorded run (self.handleAll nowMsValue run batch).1 ((taken self batch).flatMap (Handling.calls self))
        pushed ∧
      pushed.map mark = (taken self batch).flatMap (Handling.marks self) := by
  induction batch generalizing run with
  | nil => exact ⟨[], .unchanged rfl rfl rfl, rfl⟩
  | cons handling rest ih =>
    obtain ⟨hEscapes, pushed, hRun, hMarks⟩ := @handle_spec self nowMsValue run handling
    rw [GatewayDaemon.handleAll, taken, List.flatMap_cons, List.flatMap_cons, ← hEscapes]
    cases hThrown : (self.handle nowMsValue run handling).2 with
    | some what =>
      rw [Option.isSome_some, if_pos rfl, List.flatMap_nil, List.append_nil, List.flatMap_nil, List.append_nil]
      exact ⟨pushed, hRun, hMarks⟩
    | none =>
      obtain ⟨newer, hRest, hNewer⟩ := ih (self.handle nowMsValue run handling).1
      refine ⟨pushed ++ newer, hRun.trans hRest, ?_⟩
      rw [List.map_append, hMarks, hNewer]
      rfl

end Batches

section Lookups

variable {results : WritebackResults} {recorded pushed : List WritebackResultRecord} {cmdId : StdString}

theorem holds_pushed (h : results.Holds recorded) (pushed : List WritebackResultRecord) :
    (pushed.foldl recordWritebackResult results).Holds (recorded ++ pushed.filter named) := by
  induction pushed generalizing results recorded with
  | nil =>
    rw [List.foldl_nil, List.filter_nil, List.append_nil]
    exact h
  | cons result rest ih =>
    rw [List.foldl_cons, recordWritebackResult]
    split
    · rename_i hNone
      rw [List.filter_cons_of_neg (by rw [named, hNone]; decide)]
      exact ih h
    · rename_i hSome
      have hNamed : named result = true := decide_eq_true hSome
      have hRest := ih (h.push result)
      rw [List.append_assoc, List.singleton_append] at hRest
      rw [List.filter_cons_of_pos hNamed]
      exact hRest

/-- A lookup gives out the last verdict among the last marks that the ring keeps. -/
theorem lookup_verdict (h : results.Holds recorded) (hId : cmdId ≠ []) :
    (getWritebackResult results cmdId).map WritebackResultRecord.success =
      (lastMatch (fun m : StdString × Bool => decide (m.1 = cmdId))
        ((recorded.map fun result => mark (storedResult result)).drop
          ((recorded.map fun result => mark (storedResult result)).length - (kMaxWritebackResultSlots - 1)))).map
        Prod.snd := by
  have hMarks : (recorded.map fun result => mark (storedResult result)) = (recorded.map storedResult).map mark := by
    rw [List.map_map]
    rfl
  rw [h.find hId, hMarks]
  generalize recorded.map storedResult = stored
  rw [List.length_map, ← List.map_drop, lastMatch_map, Option.map_map]
  rfl

end Lookups

def keptMark (m : StdString × Bool) : Bool := decide (m.1 ≠ [])

def keptMarks (self : GatewayDaemon) (handlings : List Handling) : List (StdString × Bool) :=
  (handlings.flatMap (Handling.marks self)).filter keptMark

def recordCount (self : GatewayDaemon) (handlings : List Handling) : Nat :=
  (handlings.map fun handling =>
    if handling.command.cmdId = [] then 0 else if handling.retried self then 2 else 1).sum

section Marks

variable {self : GatewayDaemon}

theorem keptMarks_append (xs ys : List Handling) : keptMarks self (xs ++ ys) = keptMarks self xs ++ keptMarks self ys := by
  rw [keptMarks, List.flatMap_append, List.filter_append]
  rfl

theorem keptMarks_single_nil {handling : Handling} (h : handling.command.cmdId = []) : keptMarks self [handling] = [] := by
  rw [keptMarks, List.flatMap_singleton, List.filter_eq_nil_iff]
  intro m hm
  obtain ⟨verdict, -, rfl⟩ := List.mem_map.mp hm
  exact fun hKept => of_decide_eq_true hKept h

theorem keptMarks_single {handling : Handling} (h : handling.command.cmdId ≠ []) :
    keptMarks self [handling] = handling.marks self := by
  rw [keptMarks, List.flatMap_singleton, List.filter_eq_self]
  intro m hm
  obtain ⟨verdict, -, rfl⟩ := List.mem_map.mp hm
  exact decide_eq_true h

theorem length_keptMarks (handlings : List Handling) : (keptMarks self handlings).length = recordCount self handlings := by
  induction handlings with
  | nil => rfl
  | cons handling rest ih =>
    rw [← List.singleton_append, keptMarks_append, List.length_append, ih, recordCount, recordCount, List.map_append,
      List.sum_append]
    congr 1
    rw [List.map_singleton, List.sum_singleton]
    split
    · rename_i hNone
      rw [keptMarks_single_nil hNone]
      rfl
    · rename_i hSome
      rw [keptMarks_single hSome, Handling.marks, List.length_map, Handling.verdicts]
      split <;> rfl

theorem keptMarks_ids {handlings : List Handling} {m : StdString × Bool} (h : m ∈ keptMarks self handlings) :
    ∃ handling ∈ handlings, handling.command.cmdId = m.1 := by
  obtain ⟨handling, hHandling, hm⟩ := List.mem_flatMap.mp (List.mem_of_mem_filter h)
  obtain ⟨verdict, -, rfl⟩ := List.mem_map.mp hm
  exact ⟨handling, hHandling, rfl⟩

end Marks

section Accounts

/-- Every command with an id has a recorded result with the executor's verdict, and every known one was
    executed. -/
structure Accounted (daemon : GatewayDaemon) (batch : List Handling) (run : Writebacks) : Prop where
  recorded : ∀ handling ∈ batch, handling.command.cmdId ≠ [] →
    ∃ result ∈ run.recorded, result.cmdId = handling.command.cmdId
  answered : ∀ handling ∈ batch, handling.command.cmdId ≠ [] →
    ∃ result, getWritebackResult run.results handling.command.cmdId = some result ∧
      result.success = handling.succeeded daemon
  executed : run.executed = batch.flatMap (Handling.calls daemon)

/-- No exception ends the batch before a known command, and the last command of an id settles on each verdict,
    with fewer than 4095 results after it. -/
structure Settles (daemon : GatewayDaemon) (batch : List Handling) : Prop where
  reached : ∀ handling ∈ untaken daemon batch, handling.known daemon = false
  settled : ∀ handling ∈ batch, handling.command.cmdId ≠ [] →
    ∃ older last newer, taken daemon batch = older ++ last :: newer ∧
      last.command.cmdId = handling.command.cmdId ∧
      (∀ later ∈ newer, later.command.cmdId ≠ handling.command.cmdId) ∧
      last.settled daemon = handling.succeeded daemon ∧ recordCount daemon newer < kMaxWritebackResultSlots - 1

variable {self : GatewayDaemon} {results : WritebackResults} {old pushed : List WritebackResultRecord} {batch : List Handling}
  {older newer : List Handling} {last : Handling}

theorem filter_mark (pushed : List WritebackResultRecord) :
    (pushed.filter named).map mark = (pushed.map mark).filter keptMark := by
  rw [List.filter_map]
  rfl

theorem stored_marks (hFits : ∀ result ∈ pushed, FitsField kCmdIdSize result.cmdId) :
    (pushed.map fun result => mark (storedResult result)) = pushed.map mark := by
  apply List.map_congr_left
  intro result hResult
  rw [mark, mark, storedResult]
  dsimp only
  rw [(hFits result hResult).readString]

/-- After a batch the lookup of an id answers with the last handling of the id, while the ring keeps it. -/
theorem lookup_last (hHolds : results.Holds old) (hFits : ∀ result ∈ pushed, FitsField kCmdIdSize result.cmdId)
    (hMarks : pushed.map mark = (older ++ last :: newer).flatMap (Handling.marks self))
    (hId : last.command.cmdId ≠ []) (hNewer : ∀ later ∈ newer, later.command.cmdId ≠ last.command.cmdId) :
    (getWritebackResult (pushed.foldl recordWritebackResult results) last.command.cmdId).map
        WritebackResultRecord.success =
      if recordCount self newer < kMaxWritebackResultSlots - 1 then some (last.settled self) else none := by
  obtain ⟨first, hFirst⟩ := last.verdicts_last self
  have hKept : (pushed.filter named).map mark =
      keptMarks self older ++ (first.map fun verdict => (last.command.cmdId, verdict)) ++
        (last.command.cmdId, last.settled self) :: keptMarks self newer := by
    rw [filter_mark, hMarks]
    change keptMarks self (older ++ last :: newer) = _
    rw [keptMarks_append, ← List.singleton_append, keptMarks_append, keptMarks_single hId, Handling.marks, hFirst,
      List.map_append, List.map_singleton]
    simp only [List.append_assoc, List.singleton_append]
  have hStored : (old ++ pushed.filter named).map (fun result => mark (storedResult result)) =
      ((old.map fun result => mark (storedResult result)) ++
        (keptMarks self older ++ (first.map fun verdict => (last.command.cmdId, verdict)))) ++
        (last.command.cmdId, last.settled self) :: keptMarks self newer := by
    rw [List.map_append, stored_marks fun result hResult => hFits result (List.mem_of_mem_filter hResult), hKept]
    simp only [List.append_assoc]
  have hLater : ∀ m ∈ keptMarks self newer, ¬decide (m.1 = last.command.cmdId) = true := by
    intro m hm hSame
    obtain ⟨later, hMem, hIdLater⟩ := keptMarks_ids hm
    exact hNewer later hMem (hIdLater.trans (of_decide_eq_true hSame))
  rw [lookup_verdict (holds_pushed hHolds pushed) hId, hStored, ← length_keptMarks]
  split
  · rename_i hRecent
    rw [@lastMatch_recent _ (fun m : StdString × Bool => decide (m.1 = last.command.cmdId)) _ _ _
      (decide_eq_true rfl) hLater _ hRecent]
    rfl
  · rename_i hStale
    rw [@lastMatch_stale _ (fun m : StdString × Bool => decide (m.1 = last.command.cmdId)) _ _ _ hLater _
      (Nat.le_of_not_lt hStale)]
    rfl

theorem taken_subset {handling : Handling} (h : handling ∈ taken self batch) : handling ∈ batch := by
  rw [← taken_append_untaken self batch]
  exact List.mem_append_left _ h

theorem executed_iff : (taken self batch).flatMap (Handling.calls self) = batch.flatMap (Handling.calls self) ↔
    ∀ handling ∈ untaken self batch, handling.known self = false := by
  have hSplit := congrArg (List.flatMap (Handling.calls self)) (taken_append_untaken self batch)
  rw [List.flatMap_append] at hSplit
  rw [← hSplit, List.self_eq_append_right, List.flatMap_eq_nil_iff]
  apply forall₂_congr
  intro handling _
  rw [Handling.calls]
  split
  · rename_i hKnown
    rw [hKnown]
    exact iff_of_false (List.cons_ne_nil _ _) Bool.noConfusion
  · rename_i hUnknown
    exact iff_of_true rfl (Bool.eq_false_iff.mpr hUnknown)

theorem exists_last_taken {cmdId : StdString} (h : ∃ handling ∈ taken self batch, handling.command.cmdId = cmdId) :
    ∃ older last newer, taken self batch = older ++ last :: newer ∧ last.command.cmdId = cmdId ∧
      ∀ later ∈ newer, later.command.cmdId ≠ cmdId := by
  obtain ⟨handling, hMem, hId⟩ := h
  obtain ⟨older, last, newer, hTaken, hLast, hNewer⟩ :=
    @exists_last _ (fun handling : Handling => decide (handling.command.cmdId = cmdId)) (taken self batch)
      ⟨handling, hMem, decide_eq_true hId⟩
  exact ⟨older, last, newer, hTaken, of_decide_eq_true hLast, fun later hLater hSame =>
    hNewer later hLater (decide_eq_true hSame)⟩

theorem accounted_iff {nowMsValue : Int} {leaseFile : Option StdString} (hHolds : results.Holds old)
    (hFits : ∀ handling ∈ batch, FitsField kCmdIdSize handling.command.cmdId) :
    Accounted self batch (self.handleAll nowMsValue ⟨results, leaseFile, [], [], [], 0⟩ batch).1 ↔
      Settles self batch := by
  obtain ⟨pushed, hRun, hMarks⟩ := handleAll_spec self nowMsValue ⟨results, leaseFile, [], [], [], 0⟩ batch
  have hRecorded (result : WritebackResultRecord) (hResult : result ∈ pushed) :
      ∃ handling ∈ taken self batch, handling.command.cmdId = result.cmdId := by
    have hMark : mark result ∈ (taken self batch).flatMap (Handling.marks self) := by
      rw [← hMarks]
      exact List.mem_map_of_mem hResult
    obtain ⟨handling, hHandling, hm⟩ := List.mem_flatMap.mp hMark
    obtain ⟨verdict, -, hSame⟩ := List.mem_map.mp hm
    exact ⟨handling, hHandling, congrArg Prod.fst hSame⟩
  have hPushedFits : ∀ result ∈ pushed, FitsField kCmdIdSize result.cmdId := by
    intro result hResult
    obtain ⟨handling, hHandling, hSame⟩ := hRecorded result hResult
    rw [← hSame]
    exact hFits handling (taken_subset hHandling)
  have hExecuted := @executed_iff self batch
  constructor
  · intro hAccounted
    refine ⟨hExecuted.mp ?_, ?_⟩
    · rw [← hAccounted.executed, hRun.executed, List.nil_append]
    · intro handling hHandling hId
      obtain ⟨result, hResult, hSame⟩ := hAccounted.recorded handling hHandling hId
      rw [hRun.recorded, List.nil_append] at hResult
      obtain ⟨source, hSource, hSourceId⟩ := hRecorded result (List.mem_of_mem_filter hResult)
      obtain ⟨older, last, newer, hTaken, hLast, hNewer⟩ := exists_last_taken ⟨source, hSource, hSourceId.trans hSame⟩
      refine ⟨older, last, newer, hTaken, hLast, hNewer, ?_⟩
      rw [← hLast] at hId hNewer
      have hLookup := lookup_last hHolds hPushedFits (hTaken ▸ hMarks) hId hNewer
      obtain ⟨answer, hAnswer, hVerdict⟩ := hAccounted.answered handling hHandling (hLast ▸ hId)
      rw [hRun.ring, ← hLast] at hAnswer
      rw [hAnswer] at hLookup
      split at hLookup
      · rename_i hRecent
        exact ⟨(Option.some.inj hLookup).symm.trans hVerdict, hRecent⟩
      · cases hLookup
  · intro hSettles
    refine ⟨?_, ?_, ?_⟩
    · intro handling hHandling hId
      obtain ⟨older, last, newer, hTaken, hLast, -⟩ := hSettles.settled handling hHandling hId
      obtain ⟨first, hFirst⟩ := last.verdicts_last self
      have hMark : (last.command.cmdId, last.settled self) ∈ pushed.map mark := by
        rw [hMarks, hTaken, List.mem_flatMap]
        refine ⟨last, List.mem_append_right _ List.mem_cons_self, List.mem_map.mpr ⟨_, ?_, rfl⟩⟩
        rw [hFirst]
        exact List.mem_append_right _ List.mem_cons_self
      obtain ⟨result, hResult, hSame⟩ := List.mem_map.mp hMark
      have hResultId : result.cmdId = handling.command.cmdId := (congrArg Prod.fst hSame).trans hLast
      rw [hRun.recorded, List.nil_append]
      refine ⟨result, List.mem_filter.mpr ⟨hResult, ?_⟩, hResultId⟩
      rw [named, hResultId]
      exact decide_eq_true hId
    · intro handling hHandling hId
      obtain ⟨older, last, newer, hTaken, hLast, hNewer, hVerdict, hRecent⟩ := hSettles.settled handling hHandling hId
      rw [← hLast] at hId hNewer
      have hLookup := lookup_last hHolds hPushedFits (hTaken ▸ hMarks) hId hNewer
      rw [if_pos hRecent] at hLookup
      obtain ⟨answer, hAnswer, hSuccess⟩ := Option.map_eq_some_iff.mp hLookup
      rw [hRun.ring, ← hLast]
      exact ⟨answer, hAnswer, hSuccess.trans hVerdict⟩
    · rw [hRun.executed, List.nil_append]
      exact hExecuted.mpr hSettles.reached

end Accounts

structure Reached (log : CommandLog) : Prop where
  results : log.results.Holds log.recorded
  occupied : PendingOccupied log.layout
  fits : ∀ slot ∈ log.layout.pendingWrites.contents, FitsField kCmdIdSize slot.toCommand.cmdId

namespace Reached

variable {log : CommandLog}

theorem start : Reached CommandLog.start where
  results := CommandLog.aligned_start.results
  occupied := CommandLog.aligned_start.occupied
  fits := by
    have hEmpty : CommandLog.start.layout.pendingWrites.contents = [] := Ring.contents_cleared _ _
    rw [hEmpty]
    exact List.forall_mem_nil _

theorem submitted (h : Reached log) {store : MemoryPointStore} {command : PendingWriteCommand}
    {layout : SharedStoreLayout} (hOk : store.submitWriteCommand log.layout command = .ok layout) :
    Reached { log with layout := layout, queue := log.queue ++ [command] } := by
  obtain ⟨-, -, hRing⟩ := submitWriteCommand_ok hOk
  have hSlots : ∀ slot ∈ layout.pendingWrites.contents,
      slot ∈ log.layout.pendingWrites.contents ∨ slot = pendingSlot (log.layout.writeSequence + 1) command := by
    intro slot hSlot
    rw [hRing] at hSlot
    obtain hRoom | hFull := Nat.lt_or_eq_of_le (Nat.succ_le_of_lt (Ring.count_lt log.layout.pendingWrites))
    · rw [Ring.contents_push _ _ hRoom, List.mem_append, List.mem_singleton] at hSlot
      exact hSlot
    · rw [Ring.contents_push_full _ _ hFull] at hSlot
      cases hSlot
  refine ⟨h.results, fun slot hSlot => ?_, fun slot hSlot => ?_⟩
  · obtain hOld | rfl := hSlots slot hSlot
    · exact h.occupied slot hOld
    · rfl
  · obtain hOld | rfl := hSlots slot hSlot
    · exact h.fits slot hOld
    · exact fitsField_readString (by decide) _

theorem drained (h : Reached log) (limit : Nat) (allowedIndexes : Option (Finset UInt32))
    (requiredCmdId : Option StdString) (queue : List PendingWriteCommand) :
    Reached { log with
      layout := (drainPendingWrites log.layout limit allowedIndexes requiredCmdId).1, queue := queue } ∧
    ∀ command ∈ (drainPendingWrites log.layout limit allowedIndexes requiredCmdId).2,
      FitsField kCmdIdSize command.cmdId := by
  obtain ⟨taken, kept, hTaken, hKept, hPerm, hSub⟩ :=
    drainPendingWrites_splits log.layout limit allowedIndexes requiredCmdId h.occupied
  refine ⟨⟨h.results, fun slot hSlot => ?_, fun slot hSlot => ?_⟩, ?_⟩
  · exact h.occupied slot (hSub.subset (hKept ▸ hSlot))
  · exact h.fits slot (hSub.subset (hKept ▸ hSlot))
  · intro command hCommand
    rw [hTaken] at hCommand
    obtain ⟨slot, hSlot, rfl⟩ := List.mem_map.mp hCommand
    exact h.fits slot (hPerm.mem_iff.mpr (List.mem_append_left _ hSlot))

theorem step (h : Reached log) (call : CommandCall) : Reached (log.step call) := by
  cases call with
  | recordWritebackResult result =>
    rw [CommandLog.step, recordWritebackResult]
    split
    · exact h
    · exact ⟨h.results.push result, h.occupied, h.fits⟩
  | pending call =>
    cases call with
    | submitWriteCommand store command =>
      rw [CommandLog.step]
      cases hSubmit : store.submitWriteCommand log.layout command with
      | error e => exact h
      | ok layout => exact h.submitted hSubmit
    | drainPendingWriteCommands store limit => exact (h.drained limit store.drainFilter none _).1
    | drainPendingWriteCommandsByCmdId store cmdId limit =>
      rw [CommandLog.step, MemoryPointStore.drainPendingWriteCommandsByCmdId]
      split
      · exact ⟨h.results, h.occupied, h.fits⟩
      · exact (h.drained limit store.drainFilter (some cmdId) _).1

theorem after (calls : List CommandCall) : Reached (CommandLog.after calls) :=
  Run.invariant_along CommandLog.step Reached start (fun _ call _ h => h.step call) calls (List.prefix_refl calls)

theorem commands_fit (h : Reached log) (self : GatewayDaemon) (nowMsValue : Int) (store : MemoryPointStore)
    (leaseFile : Option StdString) :
    ∀ command ∈ (self.drainCommands nowMsValue store log.layout leaseFile).2, FitsField kCmdIdSize command.cmdId := by
  rw [GatewayDaemon.drainCommands]
  split
  · rw [MemoryPointStore.drainPendingWriteCommandsByCmdId]
    split
    · exact List.forall_mem_nil _
    · exact (h.drained self.writebackBatchSize store.drainFilter (some _) []).2
  · exact (h.drained self.writebackBatchSize store.drainFilter none []).2

end Reached

/-- A batch is accounted for iff no exception ends it too early and each id settles on the executor's verdict.
    -/
theorem writebacks_accounted_iff (self : GatewayDaemon) (calls : List CommandCall) (store : MemoryPointStore)
    (nowMsValue : Int) (leaseFile : Option StdString) (worlds : Nat → CommandWorld) :
    let log := CommandLog.after calls
    let batch := GatewayDaemon.batch worlds (self.drainCommands nowMsValue store log.layout leaseFile).2
    Accounted self batch (self.processWritebackOnce nowMsValue store log.layout log.results leaseFile worlds).run ↔
      Settles self batch := by
  intro log batch
  have hReached : Reached log := .after calls
  apply accounted_iff hReached.results
  intro handling hHandling
  obtain ⟨indexed, hIndexed, rfl⟩ := List.mem_map.mp hHandling
  exact hReached.commands_fit self nowMsValue store leaseFile _ (List.fst_mem_of_mem_zipIdx hIndexed)

def reportingDaemon : GatewayDaemon where
  machineCode := ['m']
  protocolType := []
  writebackBatchSize := 0
  mqttPublisher := true
  indexToRuntimeDevice := fun index => if index = 7 then some ⟨['d'], 1⟩ else none
  priorityControlLease := ⟨[], []⟩

def unreported : CommandWorld where
  startedAt := 1000
  completedAt := 1010
  caughtAt := 1020
  execution := .ok ⟨true, [], false, false⟩
  publication := some ['o', 'f', 'f']
  handlerPublication := none
  leaseIo := ⟨true, true, true, true, true, true⟩

def queuedCommand : List CommandCall :=
  [.pending (.submitWriteCommand CommandLog.configStore PendingHistory.sampleCommand)]

theorem queuedCommand_drained :
    (reportingDaemon.drainCommands 1000 CommandLog.configStore (CommandLog.after queuedCommand).layout none).2 =
      [PendingHistory.sampleCommand] := by
  have hMeets : CommandLog.start.Meets
      (.pending (.submitWriteCommand CommandLog.configStore PendingHistory.sampleCommand)) :=
    ⟨fun _ hOpening => (by cases hOpening), fun _ _ hHigh => (by cases hHigh)⟩
  have hAligned : (CommandLog.after queuedCommand).Aligned := CommandLog.aligned_start.step hMeets
  exact (hAligned.drained 0 (CommandLog.drained_none CommandLog.configStore)
    fun command _ => CommandLog.served_stored CommandLog.configStore command).1

/-- The command was written to its device, and the lookup of its id says that it failed. -/
theorem written_command_reads_failed :
    ¬Accounted reportingDaemon [⟨PendingHistory.sampleCommand, unreported⟩]
      (reportingDaemon.processWritebackOnce 1000 CommandLog.configStore (CommandLog.after queuedCommand).layout
        (CommandLog.after queuedCommand).results none fun _ => unreported).run := by
  intro hAccounted
  rw [GatewayDaemon.processWritebackOnce, queuedCommand_drained] at hAccounted
  have hFits : ∀ handling ∈ [(⟨PendingHistory.sampleCommand, unreported⟩ : Handling)],
      FitsField kCmdIdSize handling.command.cmdId :=
    List.forall_mem_singleton.mpr ⟨by decide, by decide⟩
  have hSettles := (accounted_iff (Reached.after queuedCommand).results hFits).mp hAccounted
  obtain ⟨older, last, newer, hTaken, -, -, hVerdict, -⟩ := hSettles.settled _ List.mem_cons_self (by decide)
  have hOnly : last = ⟨PendingHistory.sampleCommand, unreported⟩ := by
    have hLast : last ∈ taken reportingDaemon [⟨PendingHistory.sampleCommand, unreported⟩] := by
      rw [hTaken]
      exact List.mem_append_right _ List.mem_cons_self
    exact List.mem_singleton.mp (taken_subset hLast)
  rw [hOnly] at hVerdict
  exact absurd hVerdict (by decide)

end EdgeGateway.Daemon
