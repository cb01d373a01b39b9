import EdgeGateway.MqttDriver.Packet

/-! # The connections of the MQTT driver publisher

Both connections share the packet identifier counter. An operation is given the bytes each read
receives before `recv` fails, whether each send goes out and what `select` answers.
-/

namespace EdgeGateway.MqttDriver

structure BuiltinMqttDriverPublisher where
  txConnected : Bool := false
  subscriberConnected : Bool := false
  lastSubscriberActivityMs : Int := 0
  nextPacketId : UInt16 := 1

def sendAll (sent : Bool) : Fallible Unit := if sent then .ok () else .error "mqtt send failed"

/-- What happens while a connection is opened; `transport` is the outcome of `connectMqttTransport`. -/
structure Handshake where
  transport : Fallible Unit
  connectSent : Bool
  connAck : List UInt8

def openConnection (config : MqttConfig) (clientIdSuffix : StdString) (handshake : Handshake) : Fallible Unit := do
  handshake.transport
  let _ ← buildConnectPacket config clientIdSuffix
  sendAll handshake.connectSent
  let packet ← readPacket handshake.connAck kMaxRemainingLengthBytes
  validateConnAck config packet

/-- What `maintainTxConnection` finds on an idle publish connection. -/
inductive Idle where
  | quiet
  | selectFailed
  | readable (received : List UInt8)

namespace BuiltinMqttDriverPublisher

def closeTx (publisher : BuiltinMqttDriverPublisher) : BuiltinMqttDriverPublisher :=
  { publisher with txConnected := false }

def maintainTxConnection (config : MqttConfig) (publisher : BuiltinMqttDriverPublisher) (idle : Idle) :
    BuiltinMqttDriverPublisher :=
  if !publisher.txConnected then publisher
  else match idle with
    | .quiet => publisher
    | .selectFailed => publisher.closeTx
    | .readable received =>
      match readPacket received (incomingPacketLimit config) with
      | .ok packet => if packetType packet = kPacketPingResp then publisher else publisher.closeTx
      | .error _ => publisher.closeTx

def ensureTxConnected (config : MqttConfig) (publisher : BuiltinMqttDriverPublisher) (handshake : Handshake) :
    Fallible BuiltinMqttDriverPublisher :=
  if publisher.txConnected then .ok publisher
  else (openConnection config "-tx".toList handshake).map fun _ => { publisher with txConnected := true }

end BuiltinMqttDriverPublisher

structure SendCall where
  topic : StdString
  payload : StdString
  qos : Int
  idle : Idle
  handshake : Handshake
  publishSent : Bool
  reply : List UInt8
  releaseSent : Bool
  completion : List UInt8

structure Published where
  qos : Nat
  packetId : UInt16
  packet : Packet

structure SendOutcome where
  publisher : BuiltinMqttDriverPublisher
  published : Option Published
  result : Fallible Unit

/-- What follows the PUBLISH: nothing, a PUBACK, or PUBREC, PUBREL and PUBCOMP. -/
def awaitAcknowledgement (config : MqttConfig) (packetId : UInt16) (call : SendCall) : Fallible Unit :=
  if clampQos call.qos = 1 then do
    let packet ← readPacket call.reply kMaxRemainingLengthBytes
    validatePubAck packet
  else if clampQos call.qos = 2 then do
    let packet ← readPacket call.reply kMaxRemainingLengthBytes
    validatePubRec packet
    let _ := buildPubRelPacket packetId config.mqtt5
    sendAll call.releaseSent
    let packet ← readPacket call.completion kMaxRemainingLengthBytes
    validatePubComp packet
  else .ok ()

def sendJsonOnTxConnection (config : MqttConfig) (publisher : BuiltinMqttDriverPublisher) (call : SendCall) :
    SendOutcome :=
  let publisher := publisher.maintainTxConnection config call.idle
  match publisher.ensureTxConnected config call.handshake with
  | .error e => ⟨publisher, none, .error e⟩
  | .ok publisher =>
    let packetId := publisher.nextPacketId
    let publisher := { publisher with nextPacketId := packetId + 1 }
    match buildPublishPacket config call.topic call.payload packetId call.qos with
    | .error e => ⟨publisher, none, .error e⟩
    | .ok packet =>
      ⟨publisher, some ⟨clampQos call.qos, packetId, packet⟩,
        sendAll call.publishSent >>= fun _ => awaitAcknowledgement config packetId call⟩

/-- A call that throws closes the publish connection before the exception goes on. -/
def sendJsonNow (config : MqttConfig) (publisher : BuiltinMqttDriverPublisher) (call : SendCall) : SendOutcome :=
  let outcome := sendJsonOnTxConnection config publisher call
  match outcome.result with
  | .ok _ => outcome
  | .error _ => { outcome with publisher := outcome.publisher.closeTx }

structure Turn where
  received : List UInt8
  answerSent : Bool

/-- The packets that `select` announces, and whether the `select` after the last reports nothing or fails. -/
structure PollCall where
  idle : Idle
  handshake : Handshake
  subscribeSent : Bool
  subAck : List UInt8
  turns : List Turn
  selectOk : Bool
  pingSent : Bool
  now : Int

/-- In order: each request with whether its PUBACK or PUBREC went out, and each PUBREL. -/
inductive Receipt where
  | publish (qos : Nat) (publish : Publish) (acknowledged : Bool)
  | release (packetId : UInt16)
deriving DecidableEq, Repr

/-- The local state of `pollIncoming`, the packets it has sent, and the receipts, which the code does not
    keep. -/
structure Intake where
  messages : List MqttIncomingMessage := []
  sent : List Packet := []
  receipts : List Receipt := []
deriving DecidableEq, Repr

namespace Intake

def send (intake : Intake) (packet : Packet) (sent : Bool) : Fallible Unit × Intake :=
  (sendAll sent, if sent then { intake with sent := intake.sent ++ [packet] } else intake)

def note (intake : Intake) (receipt : Receipt) : Intake := { intake with receipts := intake.receipts ++ [receipt] }

def collect (intake : Intake) (message : MqttIncomingMessage) : Intake :=
  { intake with messages := intake.messages ++ [message] }

end Intake

def acknowledgement (config : MqttConfig) (packet : Packet) (packetId : UInt16) : Packet :=
  if packetQos packet = 2 then buildPubRecPacket packetId config.mqtt5
  else buildPubAckPacket packetId config.mqtt5

def handlePacket (config : MqttConfig) (packet : Packet) (answerSent : Bool) (intake : Intake) :
    Fallible Unit × Intake :=
  if packetType packet = kPacketPingResp then (.ok (), intake)
  else if firstByte packet = kPacketPubRel then
    match packetIdentifier packet with
    | .error e => (.error e, intake)
    | .ok id =>
      let intake := intake.note (.release id)
      if id ≠ 0 then intake.send (buildPubCompPacket id config.mqtt5) answerSent else (.ok (), intake)
  else
    match parsePublishPacket config packet with
    | .error e => (.error e, intake)
    | .ok none => (.ok (), intake)
    | .ok (some publish) =>
      let intake := intake.collect publish.message
      if publish.packetId ≠ 0 then
        (intake.note (.publish (packetQos packet) publish answerSent)).send
          (acknowledgement config packet publish.packetId) answerSent
      else (.ok (), intake.note (.publish (packetQos packet) publish false))

def receiveTurn (config : MqttConfig) (turn : Turn) (intake : Intake) : Fallible Unit × Intake :=
  match readPacket turn.received (incomingPacketLimit config) with
  | .error e => (.error e, intake)
  | .ok packet => handlePacket config packet turn.answerSent intake

/-- The loop of `pollIncoming` from its next `select` on. -/
def receiveLoop (config : MqttConfig) (selectOk : Bool) : List Turn → Intake → Fallible Unit × Intake
  | [], intake => (if selectOk then .ok () else .error "mqtt select failed", intake)
  | turn :: turns, intake =>
    match receiveTurn config turn intake with
    | (.error e, intake) => (.error e, intake)
    | (.ok _, intake) => receiveLoop config selectOk turns intake

def closeSubscriber (publisher : BuiltinMqttDriverPublisher) : BuiltinMqttDriverPublisher :=
  if publisher.subscriberConnected then { publisher with subscriberConnected := false, lastSubscriberActivityMs := 0 }
  else publisher

/-- The counter moves on as soon as the SUBSCRIBE is built, also when the subscription then fails. -/
def ensureSubscriberConnected (config : MqttConfig) (publisher : BuiltinMqttDriverPublisher) (call : PollCall) :
    Fallible Unit × BuiltinMqttDriverPublisher :=
  if publisher.subscriberConnected then (.ok (), publisher)
  else match openConnection config "-rx".toList call.handshake with
    | .error e => (.error e, publisher)
    | .ok _ =>
      let packetId := publisher.nextPacketId
      let publisher := { publisher with nextPacketId := packetId + 1 }
      let subscribed : Fallible Unit := do
        let _ ← buildSubscribePacket config packetId
        sendAll call.subscribeSent
        let packet ← readPacket call.subAck kMaxRemainingLengthBytes
        validateSubAck packet
      match subscribed with
      | .error e => (.error e, publisher)
      | .ok _ => (.ok (), { publisher with subscriberConnected := true, lastSubscriberActivityMs := call.now })

structure PollOutcome where
  publisher : BuiltinMqttDriverPublisher
  result : Fallible (List MqttIncomingMessage)
  receipts : List Receipt

/-- The `try` block of `pollIncoming` on a connected subscriber. -/
def receiveAvailable (config : MqttConfig) (publisher : BuiltinMqttDriverPublisher) (call : PollCall) :
    Fallible Unit × BuiltinMqttDriverPublisher × Intake :=
  match call.turns with
  | [] =>
    if !call.selectOk then (.error "mqtt select failed", publisher, {})
    else if 0 < config.keepAliveSec ∧ config.keepAliveSec * 500 ≤ call.now - publisher.lastSubscriberActivityMs then
      (sendAll call.pingSent, { publisher with lastSubscriberActivityMs := call.now }, {})
    else (.ok (), publisher, {})
  | turns =>
    let received := receiveLoop config call.selectOk turns {}
    (received.1, { publisher with lastSubscriberActivityMs := call.now }, received.2)

def pollIncoming (config : MqttConfig) (publisher : BuiltinMqttDriverPublisher) (call : PollCall) : PollOutcome :=
  let publisher := publisher.maintainTxConnection config call.idle
  if config.requestTopics.all fun entry => entry.1 = [] then ⟨publisher, .ok [], []⟩
  else match ensureSubscriberConnected config publisher call with
    | (.error e, publisher) => ⟨closeSubscriber publisher, .error e, []⟩
    | (.ok _, publisher) =>
      match receiveAvailable config publisher call with
      | (.error e, publisher, intake) => ⟨closeSubscriber publisher, .error e, intake.receipts⟩
      | (.ok _, publisher, intake) => ⟨publisher, .ok intake.messages, intake.receipts⟩

/-- The public operations that use the connections; each holds the mutex for its whole length. -/
inductive Call where
  | send (call : SendCall)
  | poll (call : PollCall)
  | maintain (idle : Idle)

def step (config : MqttConfig) (publisher : BuiltinMqttDriverPublisher) : Call → BuiltinMqttDriverPublisher
  | .send call => (sendJsonNow config publisher call).publisher
  | .poll call => (pollIncoming config publisher call).publisher
  | .maintain idle => publisher.maintainTxConnection config idle

def polled (config : MqttConfig) (publisher : BuiltinMqttDriverPublisher) : Call → List PollOutcome
  | .poll call => [pollIncoming config publisher call]
  | _ => []

def transmitted (config : MqttConfig) (publisher : BuiltinMqttDriverPublisher) : Call → List (SendCall × SendOutcome)
  | .send call => [(call, sendJsonNow config publisher call)]
  | _ => []

end EdgeGateway.MqttDriver
