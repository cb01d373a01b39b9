import EdgeGateway.Foundation.Exchange
import EdgeGateway.MqttDriver.Publisher

/-! # Requests between acknowledgement and hand-over

A poll acknowledges each request as it comes and hands all over only when it returns.
-/

namespace EdgeGateway.MqttDriver

variable {config : MqttConfig}

inductive Arrival where
  | publish (qos : Nat) (publish : Publish)
  | release (packetId : UInt16)
  | other
  | unusable (error : String)

def packetArrival (config : MqttConfig) (packet : Packet) : Arrival :=
  if packetType packet = kPacketPingResp then .other
  else if firstByte packet = kPacketPubRel then
    match packetIdentifier packet with
    | .error e => .unusable e
    | .ok id => .release id
  else match parsePublishPacket config packet with
    | .error e => .unusable e
    | .ok none => .other
    | .ok (some publish) => .publish (packetQos packet) publish

def Turn.arrival (config : MqttConfig) (turn : Turn) : Arrival :=
  match readPacket turn.received (incomingPacketLimit config) with
  | .error e => .unusable e
  | .ok packet => packetArrival config packet

namespace Arrival

def Answered : Arrival → Prop
  | .publish _ request => request.packetId ≠ 0
  | .release id => id ≠ 0
  | _ => False

def messages : Arrival → List MqttIncomingMessage
  | .publish _ request => [request.message]
  | _ => []

def receipt (answerSent : Bool) : Arrival → Option Receipt
  | .publish qos request => some (.publish qos request (decide (request.packetId ≠ 0) && answerSent))
  | .release id => some (.release id)
  | _ => none

end Arrival

namespace Turn

def Breaks (config : MqttConfig) (turn : Turn) : Prop :=
  (∃ e, turn.arrival config = .unusable e) ∨ ((turn.arrival config).Answered ∧ turn.answerSent = false)

def Acknowledges (config : MqttConfig) (turn : Turn) : Prop :=
  ∃ qos publish, turn.arrival config = .publish qos publish ∧ publish.packetId ≠ 0 ∧ turn.answerSent = true

def receipt (config : MqttConfig) (turn : Turn) : Option Receipt := (turn.arrival config).receipt turn.answerSent

theorem Acknowledges.not_breaks {turn : Turn} (h : turn.Acknowledges config) : ¬ turn.Breaks config := by
  obtain ⟨qos, publish, hArrival, -, hSent⟩ := h
  rintro (⟨e, hUnusable⟩ | ⟨-, hFailed⟩)
  · rw [hArrival] at hUnusable
    cases hUnusable
  · rw [hSent] at hFailed
    cases hFailed

theorem filterMap_receipt_cons (turn : Turn) (turns : List Turn) :
    (turn :: turns).filterMap (receipt config) = (turn.receipt config).toList ++ turns.filterMap (receipt config) := by
  cases hReceipt : turn.receipt config <;> simp [hReceipt]

end Turn

structure TurnSpec (config : MqttConfig) (turn : Turn) (intake : Intake) (outcome : Fallible Unit × Intake) : Prop where
  returns : outcome.1 = .ok () ↔ ¬ turn.Breaks config
  receipts : outcome.2.receipts = intake.receipts ++ (turn.receipt config).toList
  messages : outcome.2.messages = intake.messages ++ (turn.arrival config).messages

theorem sendAll_eq_ok {sent : Bool} : sendAll sent = .ok () ↔ sent = true := by
  cases sent <;> simp [sendAll]

theorem send_spec {turn : Turn} {intake collected : Intake} (packet : Packet)
    (hUsable : ∀ e, turn.arrival config ≠ .unusable e) (hAnswered : (turn.arrival config).Answered)
    (hReceipts : collected.receipts = intake.receipts ++ (turn.receipt config).toList)
    (hMessages : collected.messages = intake.messages ++ (turn.arrival config).messages) :
    TurnSpec config turn intake (collected.send packet turn.answerSent) := by
  constructor
  · simp [Intake.send, sendAll_eq_ok, Turn.Breaks, hUsable, hAnswered]
  · cases hSent : turn.answerSent <;> exact hReceipts
  · cases hSent : turn.answerSent <;> exact hMessages

theorem ok_spec {turn : Turn} {intake collected : Intake}
    (hUsable : ∀ e, turn.arrival config ≠ .unusable e) (hAnswered : ¬ (turn.arrival config).Answered)
    (hReceipts : collected.receipts = intake.receipts ++ (turn.receipt config).toList)
    (hMessages : collected.messages = intake.messages ++ (turn.arrival config).messages) :
    TurnSpec config turn intake (.ok (), collected) := by
  refine ⟨?_, hReceipts, hMessages⟩
  simp [Turn.Breaks, hUsable, hAnswered]

theorem error_spec {turn : Turn} {intake : Intake} {e : String} (hUnusable : turn.arrival config = .unusable e) :
    TurnSpec config turn intake (.error e, intake) := by
  constructor
  · simp [Turn.Breaks, hUnusable]
  · simp [Turn.receipt, Arrival.receipt, hUnusable]
  · simp [Arrival.messages, hUnusable]

theorem receiveTurn_spec (config : MqttConfig) (turn : Turn) (intake : Intake) :
    TurnSpec config turn intake (receiveTurn config turn intake) := by
  unfold receiveTurn
  cases hRead : readPacket turn.received (incomingPacketLimit config) with
  | error e =>
    apply error_spec
    simp [Turn.arrival, hRead]
  | ok packet =>
    have hArrival : turn.arrival config = packetArrival config packet := by simp [Turn.arrival, hRead]
    dsimp only [handlePacket]
    split
    · rename_i hPing
      apply ok_spec <;> simp [hArrival, packetArrival, hPing, Arrival.Answered, Arrival.messages, Turn.receipt,
        Arrival.receipt]
    rename_i hPing
    split
    · rename_i hRel
      split
      · rename_i e hId
        exact error_spec (by simp [hArrival, packetArrival, hPing, hRel, hId])
      · rename_i id hId
        have hRelease : turn.arrival config = .release id := by simp [hArrival, packetArrival, hPing, hRel, hId]
        split
        · rename_i hZero
          apply send_spec <;> simp [hRelease, Arrival.Answered, hZero, Arrival.messages, Turn.receipt,
            Arrival.receipt, Intake.note]
        · rename_i hZero
          apply ok_spec <;> simp [hRelease, Arrival.Answered, not_not.mp hZero, Arrival.messages, Turn.receipt,
            Arrival.receipt, Intake.note]
    · rename_i hRel
      split
      · rename_i e hParse
        exact error_spec (by simp [hArrival, packetArrival, hPing, hRel, hParse])
      · rename_i hParse
        apply ok_spec <;> simp [hArrival, packetArrival, hPing, hRel, hParse, Arrival.Answered, Arrival.messages,
          Turn.receipt, Arrival.receipt]
      · rename_i publish hParse
        have hPublish : turn.arrival config = .publish (packetQos packet) publish := by
          simp [hArrival, packetArrival, hPing, hRel, hParse]
        split
        · rename_i hZero
          apply send_spec <;> simp [hPublish, Arrival.Answered, hZero, Arrival.messages, Turn.receipt,
            Arrival.receipt, Intake.note, Intake.collect]
        · rename_i hZero
          apply ok_spec <;> simp [hPublish, Arrival.Answered, not_not.mp hZero, Arrival.messages, Turn.receipt,
            Arrival.receipt, Intake.note, Intake.collect]

def acknowledgedMessages (receipts : List Receipt) : List MqttIncomingMessage :=
  receipts.filterMap fun
    | .publish _ request true => some request.message
    | _ => none

theorem acknowledgedMessages_append (xs ys : List Receipt) :
    acknowledgedMessages (xs ++ ys) = acknowledgedMessages xs ++ acknowledgedMessages ys :=
  List.filterMap_append

theorem acknowledgedMessages_turn (turn : Turn) :
    (acknowledgedMessages (turn.receipt config).toList).Sublist (turn.arrival config).messages := by
  unfold Turn.receipt
  cases turn.arrival config with
  | publish qos request =>
    simp only [Arrival.receipt, Arrival.messages, acknowledgedMessages]
    cases hSent : decide (request.packetId ≠ 0) && turn.answerSent <;> simp
  | _ => exact List.nil_sublist _

theorem acknowledgedMessages_turn_eq_nil (config : MqttConfig) (turn : Turn) :
    acknowledgedMessages (turn.receipt config).toList = [] ↔ ¬ turn.Acknowledges config := by
  unfold Turn.receipt Turn.Acknowledges
  cases turn.arrival config with
  | publish qos request =>
    by_cases hZero : request.packetId = 0 <;> cases hSent : turn.answerSent <;>
      simp [Arrival.receipt, acknowledgedMessages, hZero]
  | _ => simp [Arrival.receipt, acknowledgedMessages]

theorem receiveLoop_collected {selectOk : Bool} (turns : List Turn) (intake : Intake)
    (h : (acknowledgedMessages intake.receipts).Sublist intake.messages) :
    (acknowledgedMessages (receiveLoop config selectOk turns intake).2.receipts).Sublist
      (receiveLoop config selectOk turns intake).2.messages := by
  induction turns generalizing intake with
  | nil => exact h
  | cons turn turns ih =>
    have hTurn := receiveTurn_spec config turn intake
    have hNext : (acknowledgedMessages (receiveTurn config turn intake).2.receipts).Sublist
        (receiveTurn config turn intake).2.messages := by
      rw [hTurn.receipts, hTurn.messages, acknowledgedMessages_append]
      exact h.append (acknowledgedMessages_turn turn)
    rw [receiveLoop]
    split
    · rename_i e next hRun
      rw [hRun] at hNext
      exact hNext
    · rename_i next hRun
      rw [hRun] at hNext
      exact ih next hNext

theorem receiveLoop_unbroken (selectOk : Bool) {turns : List Turn} (rest : List Turn) (intake : Intake)
    (h : ∀ turn ∈ turns, ¬ turn.Breaks config) :
    ∃ next, receiveLoop config selectOk (turns ++ rest) intake = receiveLoop config selectOk rest next ∧
      next.receipts = intake.receipts ++ turns.filterMap (Turn.receipt config) := by
  induction turns generalizing intake with
  | nil => exact ⟨intake, rfl, by simp⟩
  | cons turn turns ih =>
    have hTurn := receiveTurn_spec config turn intake
    have hReturns := hTurn.returns.mpr (h turn List.mem_cons_self)
    obtain ⟨next, hLoop, hReceipts⟩ := ih (receiveTurn config turn intake).2
      fun t ht => h t (List.mem_cons_of_mem _ ht)
    refine ⟨next, ?_, ?_⟩
    · rw [← hLoop, List.cons_append, receiveLoop]
      generalize receiveTurn config turn intake = outcome at hReturns
      obtain ⟨result, later⟩ := outcome
      dsimp only at hReturns
      rw [hReturns]
    · rw [hReceipts, hTurn.receipts, List.append_assoc, Turn.filterMap_receipt_cons]

theorem receiveLoop_broken (selectOk : Bool) {turns : List Turn} {turn : Turn} (rest : List Turn) (intake : Intake)
    (h : ∀ t ∈ turns, ¬ t.Breaks config) (hBreaks : turn.Breaks config) :
    (∃ e, (receiveLoop config selectOk (turns ++ turn :: rest) intake).1 = .error e) ∧
      (receiveLoop config selectOk (turns ++ turn :: rest) intake).2.receipts =
        intake.receipts ++ (turns ++ [turn]).filterMap (Turn.receipt config) := by
  obtain ⟨next, hLoop, hReceipts⟩ := receiveLoop_unbroken selectOk (turn :: rest) intake h
  have hTurn := receiveTurn_spec config turn next
  have hThrows : (receiveTurn config turn next).1 ≠ .ok () := fun hOk => hTurn.returns.mp hOk hBreaks
  have hAfter := hTurn.receipts
  rw [hLoop, receiveLoop]
  generalize receiveTurn config turn next = outcome at hThrows hAfter
  obtain ⟨result, later⟩ := outcome
  cases result with
  | error e =>
    refine ⟨⟨e, rfl⟩, ?_⟩
    simp only at hAfter
    cases hReceipt : turn.receipt config <;> simp [hAfter, hReceipts, hReceipt]
  | ok value => exact absurd rfl hThrows

namespace PollOutcome

def messages (outcome : PollOutcome) : List MqttIncomingMessage :=
  match outcome.result with
  | .ok messages => messages
  | .error _ => []

end PollOutcome

/-- A receipt, with whether the poll it belongs to returned to its caller. -/
structure Handover where
  receipt : Receipt
  returned : Bool
deriving DecidableEq

def PollOutcome.handovers (outcome : PollOutcome) : List Handover :=
  outcome.receipts.map fun receipt => ⟨receipt, outcome.result.isOk⟩

def Hands (packetId : UInt16) (handover : Handover) : Prop :=
  ∃ request acknowledged, handover = ⟨.publish 2 request acknowledged, true⟩ ∧ request.packetId = packetId

def Releases (packetId : UInt16) (handover : Handover) : Prop := handover.receipt = .release packetId

def Listens (config : MqttConfig) (publisher : BuiltinMqttDriverPublisher) (call : PollCall) : Prop :=
  (∃ entry ∈ config.requestTopics, entry.1 ≠ []) ∧
    (ensureSubscriberConnected config (publisher.maintainTxConnection config call.idle) call).1 = .ok ()

theorem receiveAvailable_idle (config : MqttConfig) (publisher : BuiltinMqttDriverPublisher) {call : PollCall}
    (h : call.turns = []) :
    (receiveAvailable config publisher call).2.2 = {} := by
  simp only [receiveAvailable, h]
  split
  · rfl
  · split <;> rfl

theorem pollIncoming_cases (config : MqttConfig) (publisher : BuiltinMqttDriverPublisher) (call : PollCall) :
    ((pollIncoming config publisher call).receipts = [] ∧ (¬ Listens config publisher call ∨ call.turns = [])) ∨
    (Listens config publisher call ∧
      (pollIncoming config publisher call).receipts = (receiveLoop config call.selectOk call.turns {}).2.receipts ∧
      (((receiveLoop config call.selectOk call.turns {}).1 = .ok () ∧
          (pollIncoming config publisher call).result =
            .ok (receiveLoop config call.selectOk call.turns {}).2.messages) ∨
        ∃ e, (receiveLoop config call.selectOk call.turns {}).1 = .error e ∧
          (pollIncoming config publisher call).result = .error e)) := by
  unfold pollIncoming Listens
  dsimp only
  split
  · rename_i hTopics
    left
    refine ⟨rfl, .inl ?_⟩
    rintro ⟨⟨entry, hEntry, hTopic⟩, -⟩
    exact hTopic (by simpa using List.all_eq_true.mp hTopics entry hEntry)
  rename_i hTopics
  have hSome : ∃ entry ∈ config.requestTopics, entry.1 ≠ [] := by
    simpa using hTopics
  split
  · rename_i e next hConnect
    left
    refine ⟨rfl, .inl ?_⟩
    rintro ⟨-, hOk⟩
    rw [hConnect] at hOk
    cases hOk
  rename_i next hConnect
  cases hTurns : call.turns with
  | nil =>
    left
    refine ⟨?_, .inr rfl⟩
    have hIdle := receiveAvailable_idle config next hTurns
    generalize receiveAvailable config next call = outcome at hIdle
    obtain ⟨result, after, intake⟩ := outcome
    obtain rfl : intake = {} := hIdle
    cases result <;> rfl
  | cons turn turns =>
    right
    refine ⟨⟨hSome, by rw [hConnect]⟩, ?_⟩
    simp only [receiveAvailable, hTurns]
    cases hLoop : receiveLoop config call.selectOk (turn :: turns) {} with
    | mk result intake =>
      cases result with
      | error e => exact ⟨rfl, .inr ⟨e, rfl, rfl⟩⟩
      | ok value => exact ⟨rfl, .inl ⟨rfl, rfl⟩⟩

structure Serves (config : MqttConfig) (history : List Handover) (publisher : BuiltinMqttDriverPublisher)
    (call : PollCall) : Prop where
  /-- once a request has been acknowledged, no later packet breaks off the poll and `select` does not fail -/
  undisturbed : Listens config publisher call → ∀ before turn later, call.turns = before ++ turn :: later →
    (∀ t ∈ before, ¬ t.Breaks config) → turn.Acknowledges config →
    (∀ t ∈ later, ¬ t.Breaks config) ∧ call.selectOk = true
  /-- a poll that nothing breaks off gets no QoS 2 message under an identifier already handed over and not released -/
  fresh : Listens config publisher call → (∀ t ∈ call.turns, ¬ t.Breaks config) → call.selectOk = true →
    ∀ before turn later request, call.turns = before ++ turn :: later → turn.arrival config = .publish 2 request →
      ¬ Exchange.Open Hands Releases
        (history ++ (before.filterMap (Turn.receipt config)).map fun receipt => ⟨receipt, true⟩) request.packetId

theorem receiveLoop_ok_iff {selectOk : Bool} {turns : List Turn} {intake : Intake} :
    (receiveLoop config selectOk turns intake).1 = .ok () ↔
      (∀ turn ∈ turns, ¬ turn.Breaks config) ∧ selectOk = true := by
  induction turns generalizing intake with
  | nil => cases selectOk <;> simp [receiveLoop]
  | cons turn turns ih =>
    have hReturns := (receiveTurn_spec config turn intake).returns
    rw [receiveLoop]
    generalize receiveTurn config turn intake = outcome at hReturns
    obtain ⟨result, next⟩ := outcome
    cases result with
    | error e =>
      have hBreaks : turn.Breaks config := by simpa using hReturns
      simp [hBreaks]
    | ok value =>
      have hUnbroken : ¬ turn.Breaks config := by simpa using hReturns
      simp [ih, hUnbroken]

theorem unbroken_or_first (config : MqttConfig) (turns : List Turn) :
    (∀ turn ∈ turns, ¬ turn.Breaks config) ∨ ∃ before turn later, turns = before ++ turn :: later ∧
      (∀ t ∈ before, ¬ t.Breaks config) ∧ turn.Breaks config := by
  induction turns with
  | nil => exact .inl (by simp)
  | cons turn turns ih =>
    by_cases hTurn : turn.Breaks config
    · exact .inr ⟨[], turn, turns, rfl, by simp, hTurn⟩
    obtain hRest | ⟨before, broken, later, rfl, hBefore, hBroken⟩ := ih
    · exact .inl (by simpa [hTurn] using hRest)
    · exact .inr ⟨turn :: before, broken, later, rfl, by simpa [hTurn] using hBefore, hBroken⟩

theorem acknowledgedMessages_turns_eq_nil (turns : List Turn) :
    acknowledgedMessages (turns.filterMap (Turn.receipt config)) = [] ↔ ∀ turn ∈ turns, ¬ turn.Acknowledges config := by
  induction turns with
  | nil => simp [acknowledgedMessages]
  | cons turn turns ih =>
    have hTurn := acknowledgedMessages_turn_eq_nil config turn
    rw [Turn.filterMap_receipt_cons, acknowledgedMessages_append, List.append_eq_nil_iff, hTurn, ih]
    simp

theorem before_first {before pre later : List Turn} {broken : Turn} (rest : List Turn)
    (hSplit : before ++ rest = pre ++ broken :: later)
    (hBefore : ∀ t ∈ before, ¬ t.Breaks config) (hBroken : broken.Breaks config) : before <+: pre := by
  obtain ⟨more, rfl, -⟩ | ⟨more, rfl, hMore⟩ := List.append_eq_append_iff.mp hSplit
  · exact List.prefix_append before more
  · cases more with
    | nil => simp
    | cons first more =>
      obtain ⟨rfl, -⟩ := List.cons_eq_cons.mp hMore
      exact absurd hBroken (hBefore _ (by simp))

theorem acknowledged_returned_iff (publisher : BuiltinMqttDriverPublisher) (call : PollCall) :
    (acknowledgedMessages (pollIncoming config publisher call).receipts).Sublist
        (pollIncoming config publisher call).messages ↔
      (Listens config publisher call → ∀ before turn later, call.turns = before ++ turn :: later →
        (∀ t ∈ before, ¬ t.Breaks config) → turn.Acknowledges config →
        (∀ t ∈ later, ¬ t.Breaks config) ∧ call.selectOk = true) := by
  rcases pollIncoming_cases config publisher call with
    ⟨hNone, hIdle⟩ | ⟨hListens, hReceipts, ⟨hOk, hResult⟩ | ⟨e, hError, hResult⟩⟩
  · constructor
    · rintro - hListens before turn later hSplit
      obtain hSilent | hTurns := hIdle
      · exact absurd hListens hSilent
      · simp [hTurns] at hSplit
    · intro _
      rw [hNone]
      exact List.nil_sublist _
  · constructor
    · rintro - - before turn later hSplit - -
      obtain ⟨hUnbroken, hSelect⟩ := receiveLoop_ok_iff.mp hOk
      exact ⟨fun t ht => hUnbroken t (by simp [hSplit, ht]), hSelect⟩
    · intro _
      rw [hReceipts, PollOutcome.messages, hResult]
      exact receiveLoop_collected call.turns {} (List.Sublist.refl _)
  · rw [hReceipts, PollOutcome.messages, hResult]
    dsimp only
    rw [List.sublist_nil]
    obtain hUnbroken | ⟨pre, broken, rest, hTurns, hPre, hBroken⟩ := unbroken_or_first config call.turns
    · -- every packet is received and the last `select` fails
      have hSelect : call.selectOk ≠ true := by
        intro hSelect
        rw [receiveLoop_ok_iff.mpr ⟨hUnbroken, hSelect⟩] at hError
        cases hError
      obtain ⟨next, hLoop, hNext⟩ := receiveLoop_unbroken call.selectOk [] {} hUnbroken
      rw [List.append_nil] at hLoop
      rw [hLoop, receiveLoop, hNext]
      dsimp only [List.nil_append]
      rw [acknowledgedMessages_turns_eq_nil]
      constructor
      · rintro hQuiet - before turn later hSplit - hAck
        exact absurd hAck (hQuiet turn (by simp [hSplit]))
      · intro h turn hTurn hAck
        obtain ⟨before, later, hSplit⟩ := List.append_of_mem hTurn
        exact hSelect (h hListens before turn later hSplit (fun t ht => hUnbroken t (by simp [hSplit, ht])) hAck).2
    · -- the broken turn ends the poll
      obtain ⟨-, hNext⟩ := receiveLoop_broken call.selectOk rest {} hPre hBroken
      rw [hTurns, hNext, List.nil_append, acknowledgedMessages_turns_eq_nil]
      constructor
      · rintro hQuiet - before turn later hSplit hBefore hAck
        have hStretch : before ++ [turn] <+: pre := by
          apply before_first later (by simpa using hSplit.symm) _ hBroken
          simpa [or_imp, forall_and, hAck.not_breaks] using hBefore
        exact absurd hAck (hQuiet turn (List.mem_append_left _ (hStretch.subset (by simp))))
      · intro h turn hTurn hAck
        obtain hMem | hLast := List.mem_append.mp hTurn
        · obtain ⟨before, later, rfl⟩ := List.append_of_mem hMem
          exact (h hListens before turn (later ++ broken :: rest) (by simp) (fun t ht => hPre t (by simp [ht])) hAck).1
            broken (by simp) hBroken
        · obtain rfl := List.mem_singleton.mp hLast
          exact hAck.not_breaks hBroken

theorem hands_receipt {turn : Turn} {receipt : Receipt} {returned : Bool} {packetId : UInt16}
    (hReceipt : turn.receipt config = some receipt) :
    Hands packetId ⟨receipt, returned⟩ ↔
      returned = true ∧ ∃ request, turn.arrival config = .publish 2 request ∧ request.packetId = packetId := by
  constructor
  · rintro ⟨request, acknowledged, hSame, hId⟩
    obtain ⟨rfl, rfl⟩ := Handover.mk.inj hSame
    refine ⟨rfl, request, ?_, hId⟩
    unfold Turn.receipt at hReceipt
    cases hArrival : turn.arrival config with
    | publish qos other =>
      rw [hArrival] at hReceipt
      simp only [Arrival.receipt, Option.some.injEq, Receipt.publish.injEq] at hReceipt
      obtain ⟨rfl, rfl, -⟩ := hReceipt
      rfl
    | _ => simp [hArrival, Arrival.receipt] at hReceipt
  · rintro ⟨rfl, request, hArrival, hId⟩
    simp only [Turn.receipt, hArrival, Arrival.receipt, Option.some.injEq] at hReceipt
    exact ⟨request, _, by rw [← hReceipt], hId⟩

theorem fresh_iff (history : List Handover) (publisher : BuiltinMqttDriverPublisher) (call : PollCall) :
    (∀ done entry rest, (pollIncoming config publisher call).handovers = done ++ entry :: rest →
        ∀ packetId, Hands packetId entry → ¬ Exchange.Open Hands Releases (history ++ done) packetId) ↔
      (Listens config publisher call → (∀ t ∈ call.turns, ¬ t.Breaks config) → call.selectOk = true →
        ∀ before turn later request, call.turns = before ++ turn :: later → turn.arrival config = .publish 2 request →
          ¬ Exchange.Open Hands Releases
            (history ++ (before.filterMap (Turn.receipt config)).map fun receipt => ⟨receipt, true⟩)
            request.packetId) := by
  unfold PollOutcome.handovers
  rcases pollIncoming_cases config publisher call with
    ⟨hNone, hIdle⟩ | ⟨hListens, hReceipts, ⟨hOk, hResult⟩ | ⟨e, hError, hResult⟩⟩
  · constructor
    · rintro - hListens - - before turn later request hSplit
      obtain hSilent | hTurns := hIdle
      · exact absurd hListens hSilent
      · simp [hTurns] at hSplit
    · rintro - done entry rest hSplit
      simp [hNone] at hSplit
  · obtain ⟨hUnbroken, hSelect⟩ := receiveLoop_ok_iff.mp hOk
    obtain ⟨next, hLoop, hNext⟩ := receiveLoop_unbroken call.selectOk [] {} hUnbroken
    rw [List.append_nil] at hLoop
    have hAll : (pollIncoming config publisher call).receipts = call.turns.filterMap (Turn.receipt config) := by
      rw [hReceipts, hLoop, receiveLoop, hNext]
      rfl
    have hTrue : (pollIncoming config publisher call).result.isOk = true := by rw [hResult]; rfl
    rw [hAll, hTrue]
    constructor
    · rintro h - - - before turn later request hSplit hArrival
      have hReceipt : turn.receipt config =
          some (.publish 2 request (decide (request.packetId ≠ 0) && turn.answerSent)) := by
        rw [Turn.receipt, hArrival]
        rfl
      refine h _ _ ((later.filterMap (Turn.receipt config)).map fun receipt => ⟨receipt, true⟩) ?_ request.packetId
        ((hands_receipt hReceipt).mpr ⟨rfl, request, hArrival, rfl⟩)
      simp [hSplit, hReceipt]
    · intro h done entry rest hSplit packetId hHands
      obtain ⟨first, last, hParts, rfl, hLast⟩ := List.map_eq_append_iff.mp hSplit
      obtain ⟨receipt, later, rfl, rfl, rfl⟩ := List.map_eq_cons_iff.mp hLast
      obtain ⟨before, others, hTurns, rfl, hOthers⟩ := List.filterMap_eq_append_iff.mp hParts
      obtain ⟨silent, turn, remaining, rfl, hSilent, hReceipt, -⟩ := List.filterMap_eq_cons_iff.mp hOthers
      obtain ⟨-, request, hArrival, rfl⟩ := (hands_receipt hReceipt).mp hHands
      have hSame : (before ++ silent).filterMap (Turn.receipt config) = before.filterMap (Turn.receipt config) := by
        rw [List.filterMap_append, List.filterMap_eq_nil_iff.mpr hSilent, List.append_nil]
      rw [← hSame]
      exact h hListens hUnbroken hSelect (before ++ silent) turn remaining request (by simp [hTurns]) hArrival
  · constructor
    · rintro - - hUnbroken hSelect
      rw [receiveLoop_ok_iff.mpr ⟨hUnbroken, hSelect⟩] at hError
      cases hError
    · rintro - done entry rest hSplit packetId ⟨request, acknowledged, rfl, -⟩
      have hMem : (⟨.publish 2 request acknowledged, true⟩ : Handover) ∈
          (pollIncoming config publisher call).receipts.map fun receipt =>
            ⟨receipt, (pollIncoming config publisher call).result.isOk⟩ := by
        rw [hSplit]
        simp
      obtain ⟨receipt, -, hReceipt⟩ := List.mem_map.mp hMem
      have hReturned := (Handover.mk.inj hReceipt).2
      rw [hResult] at hReturned
      cases hReturned

def handedOver (config : MqttConfig) (publisher : BuiltinMqttDriverPublisher) (calls : List Call) : List Handover :=
  (Run.trace (step config) (polled config) publisher calls).flatMap PollOutcome.handovers

/-- What is acknowledged is returned by its poll, and a QoS 2 message sent again before its PUBREL once. -/
structure DeliversOnce (config : MqttConfig) (publisher : BuiltinMqttDriverPublisher) (calls : List Call) : Prop where
  acknowledged_returned : ∀ outcome ∈ Run.trace (step config) (polled config) publisher calls,
    (acknowledgedMessages outcome.receipts).Sublist outcome.messages
  redelivery_once : Exchange.Once Hands Releases (handedOver config publisher calls)

theorem handedOver_snoc (publisher : BuiltinMqttDriverPublisher) (calls : List Call) (call : Call) :
    handedOver config publisher (calls ++ [call]) = handedOver config publisher calls ++
      (polled config (Run.after (step config) publisher calls) call).flatMap PollOutcome.handovers := by
  simp [handedOver, Run.trace_snoc]

theorem deliversOnce_snoc_poll (publisher : BuiltinMqttDriverPublisher) (calls : List Call) (call : PollCall) :
    DeliversOnce config publisher (calls ++ [.poll call]) ↔ DeliversOnce config publisher calls ∧
      Serves config (handedOver config publisher calls) (Run.after (step config) publisher calls) call := by
  have hOnce : Exchange.Once Hands Releases (handedOver config publisher calls ++
      (pollIncoming config (Run.after (step config) publisher calls) call).handovers) ↔ _ := Exchange.once_append _
  rw [fresh_iff] at hOnce
  constructor
  · rintro ⟨hReturned, hRun⟩
    rw [Run.trace_snoc] at hReturned
    rw [handedOver_snoc] at hRun
    simp only [polled, List.flatMap_cons, List.flatMap_nil, List.append_nil] at hReturned hRun
    obtain ⟨hBefore, hFresh⟩ := hOnce.mp hRun
    refine ⟨⟨fun outcome hOutcome => hReturned outcome (List.mem_append_left _ hOutcome), hBefore⟩, ?_, hFresh⟩
    exact (acknowledged_returned_iff _ call).mp (hReturned _ (by simp))
  · rintro ⟨⟨hReturned, hBefore⟩, hUndisturbed, hFresh⟩
    constructor
    · rw [Run.trace_snoc]
      intro outcome hOutcome
      obtain hEarlier | hLast := List.mem_append.mp hOutcome
      · exact hReturned outcome hEarlier
      · obtain rfl := List.mem_singleton.mp hLast
        exact (acknowledged_returned_iff _ call).mpr hUndisturbed
    · rw [handedOver_snoc]
      simp only [polled, List.flatMap_cons, List.flatMap_nil, List.append_nil]
      exact hOnce.mpr ⟨hBefore, hFresh⟩

theorem deliversOnce_snoc_other {publisher : BuiltinMqttDriverPublisher} {calls : List Call} {call : Call}
    (hOther : ∀ poll, call ≠ .poll poll) :
    DeliversOnce config publisher (calls ++ [call]) ↔ DeliversOnce config publisher calls := by
  have hNone : polled config (Run.after (step config) publisher calls) call = [] := by
    cases call with
    | poll poll => exact absurd rfl (hOther poll)
    | _ => rfl
  constructor
  · rintro ⟨hReturned, hOnce⟩
    rw [Run.trace_snoc, hNone, List.append_nil] at hReturned
    rw [handedOver_snoc, hNone, List.flatMap_nil, List.append_nil] at hOnce
    exact ⟨hReturned, hOnce⟩
  · rintro ⟨hReturned, hOnce⟩
    constructor
    · rwa [Run.trace_snoc, hNone, List.append_nil]
    · rwa [handedOver_snoc, hNone, List.flatMap_nil, List.append_nil]

/-- A run delivers once exactly when each poll is spared a failure after an acknowledgement and a redelivery.
    -/
theorem delivers_once_iff_every_poll_served (config : MqttConfig) (publisher : BuiltinMqttDriverPublisher)
    (calls : List Call) :
    DeliversOnce config publisher calls ↔ ∀ done call, done ++ [.poll call] <+: calls →
      Serves config (handedOver config publisher done) (Run.after (step config) publisher done) call := by
  induction calls using List.reverseRecOn with
  | nil =>
    refine iff_of_true ⟨by simp [Run.trace], Exchange.once_nil⟩ (Run.forall_step_nil Call.poll _)
  | append_singleton calls last ih =>
    rw [Run.forall_step_snoc Call.poll, ← ih]
    cases last with
    | poll call =>
      rw [deliversOnce_snoc_poll]
      simp
    | _ =>
      rw [deliversOnce_snoc_other (by simp)]
      simp

def commandPublish (first : UInt8) (packetId : UInt16) : Packet :=
  first :: 25 :: 0 :: 20 :: textBytes "edge/command/request".toList ++ wordBytes packetId ++ [0x31]

def pollReceiving (turns : List Turn) : PollCall where
  idle := .quiet
  handshake := ⟨.ok (), true, [0x20, 0x02, 0x00, 0x00]⟩
  subscribeSent := true
  subAck := [0x90, 0x03, 0x00, 0x01, 0x01]
  turns := turns
  selectOk := true
  pingSent := true
  now := 0

def commandMessage : MqttIncomingMessage := ⟨.commandRequest, "edge/command/request".toList, ['1']⟩

/-- A PUBACKed command is lost with the connection, and a QoS 2 command sent again is returned by both polls.
    -/
theorem acknowledged_command_lost_and_redelivery_returned_twice :
    ¬ DeliversOnce {} {} [.poll (pollReceiving [⟨commandPublish 0x32 7, true⟩, ⟨[], true⟩])] ∧
    ¬ DeliversOnce {} {} [.poll (pollReceiving [⟨commandPublish 0x34 7, true⟩]),
      .poll (pollReceiving [⟨commandPublish 0x3C 7, true⟩])] := by
  constructor
  · intro h
    have hLost := h.acknowledged_returned _ List.mem_cons_self
    revert hLost
    decide +kernel
  · intro h
    have hReleased := h.redelivery_once [] ⟨.publish 2 ⟨commandMessage, 7⟩ true, true⟩ []
      ⟨.publish 2 ⟨commandMessage, 7⟩ true, true⟩ [] 7 (by decide +kernel) ⟨_, _, rfl, rfl⟩ ⟨_, _, rfl, rfl⟩
    simp at hReleased

end EdgeGateway.MqttDriver
