import EdgeGateway.Foundation.Run
import EdgeGateway.MqttDriver.Publisher

/-! # Acknowledgements of outbound messages -/

namespace EdgeGateway.MqttDriver

variable {config : MqttConfig}

def Acks (awaited : UInt8) (packetId : UInt16) (received : List UInt8) : Prop :=
  ∃ packet, readPacket received kMaxRemainingLengthBytes = .ok packet ∧ packetType packet = awaited ∧
    packetIdentifier packet = .ok packetId

def Types (awaited : UInt8) (received : List UInt8) : Prop :=
  ∃ packet, readPacket received kMaxRemainingLengthBytes = .ok packet ∧ packetType packet = awaited

structure SendContract (call : SendCall) (outcome : SendOutcome) : Prop where
  identified : ∀ published, outcome.published = some published → 1 ≤ published.qos → published.packetId ≠ 0
  puback : ∀ published, outcome.published = some published → outcome.result = .ok () → published.qos = 1 →
    Acks kPacketPubAck published.packetId call.reply
  pubcomp : ∀ published, outcome.published = some published → outcome.result = .ok () → published.qos = 2 →
    Acks kPacketPubRec published.packetId call.reply ∧ Acks kPacketPubComp published.packetId call.completion

def Publishes (config : MqttConfig) (publisher : BuiltinMqttDriverPublisher) (call : SendCall) : Prop :=
  (∃ ready, (publisher.maintainTxConnection config call.idle).ensureTxConnected config call.handshake = .ok ready) ∧
    ∃ packet, buildPublishPacket config call.topic call.payload publisher.nextPacketId call.qos = .ok packet

/-- The counter is not at zero, and what comes with the awaited types answers this message. -/
structure Answered (config : MqttConfig) (publisher : BuiltinMqttDriverPublisher) (call : SendCall) : Prop where
  counter : Publishes config publisher call → 1 ≤ clampQos call.qos → publisher.nextPacketId ≠ 0
  puback : Publishes config publisher call → clampQos call.qos = 1 → call.publishSent = true →
    Types kPacketPubAck call.reply → Acks kPacketPubAck publisher.nextPacketId call.reply
  pubcomp : Publishes config publisher call → clampQos call.qos = 2 → call.publishSent = true →
    call.releaseSent = true → Types kPacketPubRec call.reply → Types kPacketPubComp call.completion →
    Acks kPacketPubRec publisher.nextPacketId call.reply ∧ Acks kPacketPubComp publisher.nextPacketId call.completion

theorem maintainTxConnection_nextPacketId (publisher : BuiltinMqttDriverPublisher) (idle : Idle) :
    (publisher.maintainTxConnection config idle).nextPacketId = publisher.nextPacketId := by
  unfold BuiltinMqttDriverPublisher.maintainTxConnection
  split
  · rfl
  cases idle with
  | quiet => rfl
  | selectFailed => rfl
  | readable received =>
    dsimp only
    split
    · split <;> rfl
    · rfl

theorem ensureTxConnected_nextPacketId {publisher ready : BuiltinMqttDriverPublisher} {handshake : Handshake}
    (h : publisher.ensureTxConnected config handshake = .ok ready) : ready.nextPacketId = publisher.nextPacketId := by
  unfold BuiltinMqttDriverPublisher.ensureTxConnected at h
  split at h
  · obtain rfl := Except.ok.inj h
    rfl
  · generalize openConnection config _ handshake = opened at h
    cases opened with
    | error e => cases h
    | ok value =>
      obtain rfl := Except.ok.inj h
      rfl

theorem bind_eq_ok {α β : Type} {x : Fallible α} {f : α → Fallible β} {b : β} :
    (x >>= f) = .ok b ↔ ∃ a, x = .ok a ∧ f a = .ok b := by
  cases x with
  | error e => simp [bind, Except.bind]
  | ok a => simp [bind, Except.bind]

theorem validated_iff {awaited : UInt8} {missing : String} {received : List UInt8} :
    (∃ packet, readPacket received kMaxRemainingLengthBytes = .ok packet ∧
      validateType awaited missing packet = .ok ()) ↔ Types awaited received := by
  unfold Types
  apply exists_congr
  intro packet
  apply and_congr_right
  intro _
  by_cases hType : packetType packet = awaited <;> simp [validateType, hType]

theorem sent_eq_ok {sent : Bool} {result : Fallible Unit} :
    (sendAll sent >>= fun _ => result) = .ok () ↔ sent = true ∧ result = .ok () := by
  cases sent <;> simp [sendAll, bind, Except.bind]

theorem awaitAcknowledgement_iff {packetId : UInt16} {call : SendCall} :
    awaitAcknowledgement config packetId call = .ok () ↔
      (clampQos call.qos = 1 → Types kPacketPubAck call.reply) ∧
      (clampQos call.qos = 2 → Types kPacketPubRec call.reply ∧ call.releaseSent = true ∧
        Types kPacketPubComp call.completion) := by
  unfold awaitAcknowledgement
  split
  · rename_i hOne
    rw [bind_eq_ok, validatePubAck, validated_iff]
    simp [hOne]
  split
  · rename_i hOne hTwo
    constructor
    · intro h
      obtain ⟨received, hRead, h⟩ := bind_eq_ok.mp h
      obtain ⟨_, hRec, h⟩ := bind_eq_ok.mp h
      obtain ⟨hSent, h⟩ := sent_eq_ok.mp h
      exact ⟨fun h => absurd h hOne, fun _ => ⟨validated_iff.mp ⟨received, hRead, hRec⟩, hSent,
        validated_iff.mp (bind_eq_ok.mp h)⟩⟩
    · rintro ⟨-, h⟩
      obtain ⟨hRec, hSent, hComp⟩ := h hTwo
      obtain ⟨received, hRead, hRec⟩ := validated_iff.mpr hRec
      refine bind_eq_ok.mpr ⟨received, hRead, bind_eq_ok.mpr ⟨(), hRec, ?_⟩⟩
      exact sent_eq_ok.mpr ⟨hSent, bind_eq_ok.mpr (validated_iff.mpr hComp)⟩
  · rename_i hOne hTwo
    simp [hOne, hTwo]

theorem sendJsonNow_published (config : MqttConfig) (publisher : BuiltinMqttDriverPublisher) (call : SendCall) :
    (sendJsonNow config publisher call).published = (sendJsonOnTxConnection config publisher call).published ∧
      (sendJsonNow config publisher call).result = (sendJsonOnTxConnection config publisher call).result := by
  unfold sendJsonNow
  dsimp only
  cases hResult : (sendJsonOnTxConnection config publisher call).result with
  | ok value => exact ⟨rfl, hResult⟩
  | error e => exact ⟨rfl, rfl⟩

/-- A call that does not get to its PUBLISH throws; one that does numbers it with the counter. -/
theorem sendJsonOnTxConnection_cases (config : MqttConfig) (publisher : BuiltinMqttDriverPublisher) (call : SendCall) :
    ((sendJsonOnTxConnection config publisher call).published = none ∧ ¬ Publishes config publisher call) ∨
    (Publishes config publisher call ∧ ∃ packet,
      (sendJsonOnTxConnection config publisher call).published =
        some ⟨clampQos call.qos, publisher.nextPacketId, packet⟩ ∧
      (sendJsonOnTxConnection config publisher call).result =
        (sendAll call.publishSent >>= fun _ => awaitAcknowledgement config publisher.nextPacketId call)) := by
  unfold sendJsonOnTxConnection Publishes
  dsimp only
  cases hReady : (publisher.maintainTxConnection config call.idle).ensureTxConnected config call.handshake with
  | error e => exact .inl ⟨rfl, by simp⟩
  | ok ready =>
    have hId : ready.nextPacketId = publisher.nextPacketId :=
      (ensureTxConnected_nextPacketId hReady).trans (maintainTxConnection_nextPacketId publisher call.idle)
    dsimp only
    rw [hId]
    cases hBuild : buildPublishPacket config call.topic call.payload publisher.nextPacketId call.qos with
    | error e => exact .inl ⟨rfl, by simp⟩
    | ok packet => exact .inr ⟨⟨⟨ready, rfl⟩, packet, rfl⟩, packet, rfl, rfl⟩

theorem sendContract_iff (publisher : BuiltinMqttDriverPublisher) (call : SendCall) :
    SendContract call (sendJsonNow config publisher call) ↔ Answered config publisher call := by
  obtain ⟨hPublished, hResult⟩ := sendJsonNow_published config publisher call
  obtain ⟨hNone, hSilent⟩ | ⟨hPublishes, packet, hSome, hEnd⟩ := sendJsonOnTxConnection_cases config publisher call
  · rw [hNone] at hPublished
    constructor
    · intro _
      exact ⟨fun h => absurd h hSilent, fun h => absurd h hSilent, fun h => absurd h hSilent⟩
    · intro _
      constructor <;> simp [hPublished]
  · rw [hSome] at hPublished
    rw [hEnd] at hResult
    have hReturns : (sendJsonNow config publisher call).result = .ok () ↔ call.publishSent = true ∧
        (clampQos call.qos = 1 → Types kPacketPubAck call.reply) ∧
        (clampQos call.qos = 2 → Types kPacketPubRec call.reply ∧ call.releaseSent = true ∧
          Types kPacketPubComp call.completion) := by
      rw [hResult, sent_eq_ok, awaitAcknowledgement_iff]
    constructor
    · rintro ⟨hIdentified, hAck, hComp⟩
      constructor
      · intro _ hQos
        exact hIdentified _ hPublished hQos
      · intro _ hOne hSent hType
        exact hAck _ hPublished (hReturns.mpr ⟨hSent, fun _ => hType, by simp [hOne]⟩) hOne
      · intro _ hTwo hSent hRelease hRec hDone
        exact hComp _ hPublished (hReturns.mpr ⟨hSent, by simp [hTwo], fun _ => ⟨hRec, hRelease, hDone⟩⟩) hTwo
    · rintro ⟨hCounter, hAck, hComp⟩
      constructor
      · rintro published hSame hQos
        obtain rfl := Option.some.inj (hPublished.symm.trans hSame)
        exact hCounter hPublishes hQos
      · rintro published hSame hOk hOne
        obtain rfl := Option.some.inj (hPublished.symm.trans hSame)
        obtain ⟨hSent, hType, -⟩ := hReturns.mp hOk
        exact hAck hPublishes hOne hSent (hType hOne)
      · rintro published hSame hOk hTwo
        obtain rfl := Option.some.inj (hPublished.symm.trans hSame)
        obtain ⟨hSent, -, hTypes⟩ := hReturns.mp hOk
        obtain ⟨hRec, hRelease, hDone⟩ := hTypes hTwo
        exact hComp hPublishes hTwo hSent hRelease hRec hDone

def Confirms (config : MqttConfig) (publisher : BuiltinMqttDriverPublisher) (calls : List Call) : Prop :=
  ∀ sent ∈ Run.trace (step config) (transmitted config) publisher calls, SendContract sent.1 sent.2

theorem confirms_snoc (publisher : BuiltinMqttDriverPublisher) (calls : List Call) (last : Call) :
    Confirms config publisher (calls ++ [last]) ↔ Confirms config publisher calls ∧
      ∀ call, last = .send call → Answered config (Run.after (step config) publisher calls) call := by
  unfold Confirms
  rw [Run.trace_snoc]
  simp only [List.mem_append, or_imp, forall_and]
  apply and_congr_right
  intro _
  cases last with
  | send call => simp [transmitted, sendContract_iff]
  | poll call => simp [transmitted]
  | maintain idle => simp [transmitted]

/-- Every message reported as sent was confirmed exactly when the counter is off zero and the packets awaited
    carry its identifier. -/
theorem confirms_iff_every_send_answered (config : MqttConfig) (publisher : BuiltinMqttDriverPublisher)
    (calls : List Call) :
    Confirms config publisher calls ↔ ∀ done call, done ++ [.send call] <+: calls →
      Answered config (Run.after (step config) publisher done) call := by
  induction calls using List.reverseRecOn with
  | nil => exact iff_of_true (by simp [Confirms, Run.trace]) (Run.forall_step_nil Call.send _)
  | append_singleton calls last ih => rw [confirms_snoc, ih, Run.forall_step_snoc Call.send]

def quietSend : SendCall where
  topic := ['t']
  payload := []
  qos := 0
  idle := .quiet
  handshake := ⟨.ok (), true, [0x20, 0x02, 0x00, 0x00]⟩
  publishSent := true
  reply := []
  releaseSent := true
  completion := []

def pubackSend (packetId : UInt16) : SendCall :=
  { quietSend with qos := 1, reply := buildPubAckPacket packetId false }

theorem quietSend_step (publisher : BuiltinMqttDriverPublisher) :
    step {} publisher (.send quietSend) =
      { publisher with txConnected := true, nextPacketId := publisher.nextPacketId + 1 } := by
  obtain ⟨txConnected, subscriberConnected, lastSubscriberActivityMs, nextPacketId⟩ := publisher
  cases txConnected <;> rfl

theorem quietSend_run (n : Nat) (publisher : BuiltinMqttDriverPublisher) :
    (Run.after (step {}) publisher (List.replicate n (.send quietSend))).nextPacketId =
      publisher.nextPacketId + UInt16.ofNat n := by
  induction n generalizing publisher with
  | zero => simp
  | succ n ih =>
    rw [List.replicate_succ, Run.after_cons, ih, quietSend_step, Nat.add_comm n 1, UInt16.ofNat_add, ← UInt16.add_assoc]
    rfl

theorem pubackSend_zero {publisher : BuiltinMqttDriverPublisher} (hZero : publisher.nextPacketId = 0) :
    ¬ SendContract (pubackSend 0) (sendJsonNow {} publisher (pubackSend 0)) := by
  intro h
  obtain ⟨packet, hPublished⟩ : ∃ packet,
      (sendJsonNow {} publisher (pubackSend 0)).published = some ⟨1, publisher.nextPacketId, packet⟩ := by
    obtain ⟨txConnected, subscriberConnected, lastSubscriberActivityMs, nextPacketId⟩ := publisher
    cases txConnected <;> exact ⟨_, rfl⟩
  exact h.identified _ hPublished (Nat.le_refl 1) hZero

/-- A PUBACK for another identifier is accepted, and after 65535 messages one goes out under identifier zero.
    -/
theorem foreign_puback_accepted_and_identifier_zero_sent :
    ¬ Confirms {} {} [.send (pubackSend 9)] ∧
    ¬ Confirms {} {} (List.replicate 65535 (.send quietSend) ++ [.send (pubackSend 0)]) := by
  constructor
  · intro h
    obtain ⟨packet, hPublished⟩ : ∃ packet, (sendJsonNow {} {} (pubackSend 9)).published = some ⟨1, 1, packet⟩ :=
      ⟨_, rfl⟩
    obtain ⟨received, hRead, -, hId⟩ := (h _ List.mem_cons_self).puback _ hPublished rfl rfl
    have hNine : readPacket (pubackSend 9).reply kMaxRemainingLengthBytes = .ok [0x40, 0x02, 0x00, 0x09] := by rfl
    obtain rfl := Except.ok.inj (hNine.symm.trans hRead)
    have hOther : packetIdentifier [0x40, 0x02, 0x00, 0x09] ≠ .ok 1 := by decide
    exact hOther hId
  · intro h
    unfold Confirms at h
    rw [Run.trace_snoc] at h
    have hZero : (Run.after (step {}) {} (List.replicate 65535 (.send quietSend))).nextPacketId = 0 := by
      rw [quietSend_run]
      rfl
    generalize Run.after (step {}) {} (List.replicate 65535 (.send quietSend)) = publisher at h hZero
    exact pubackSend_zero hZero (h _ (List.mem_append_right _ (List.mem_singleton.mpr rfl)))

end EdgeGateway.MqttDriver
