import EdgeGateway.Models

/-! # MQTT control packets

Packets are the bytes on the wire. What the publisher throws is kept with its
text; a read is given the bytes that arrive before the connection fails.
-/

namespace EdgeGateway.MqttDriver

abbrev Packet := List UInt8

abbrev Fallible := Except String

def kPacketConnect : UInt8 := 0x10
def kPacketConnAck : UInt8 := 0x20
def kPacketPublishQos0 : UInt8 := 0x30
def kPacketPublishQos1 : UInt8 := 0x32
def kPacketPublishQos2 : UInt8 := 0x34
def kPacketPubAck : UInt8 := 0x40
def kPacketPubRec : UInt8 := 0x50
def kPacketPubRel : UInt8 := 0x62
def kPacketPubComp : UInt8 := 0x70
def kPacketSubscribe : UInt8 := 0x82
def kPacketSubAck : UInt8 := 0x90
def kPacketPingReq : UInt8 := 0xC0
def kPacketPingResp : UInt8 := 0xD0

def kMinIncomingPacketBytes : Nat := 512 * 1024
def kMaxRemainingLengthBytes : Nat := 268435455

structure MqttConfig where
  protocolVersion : StdString := "mqtt3".toList
  clientId : StdString := "GW0001".toList
  topicMachineCode : StdString := []
  username : StdString := []
  password : StdString := []
  commandRequestTopic : StdString := "edge/command/request".toList
  otaRequestTopic : StdString := "edge/ota/request".toList
  realtimeRequestTopic : StdString := "edge/telemetry/realtime/request".toList
  systemMonitorRequestTopic : StdString := "edge/system/monitor/request".toList
  diagRequestTopic : StdString := "edge/system/diag/request".toList
  configPullRequestTopic : StdString := "edge/config/pull/request".toList
  configApplyRequestTopic : StdString := "edge/config/apply/request".toList
  configDeleteRequestTopic : StdString := "edge/config/delete/request".toList
  configRestoreRequestTopic : StdString := "edge/config/restore/request".toList
  recordingRequestTopic : StdString := "edge/recording/request".toList
  recordingAckTopic : StdString := "edge/recording/ack".toList
  qos : Int := 1
  controlQos : Int := 2
  cleanSession : Bool := true
  keepAliveSec : Int := 60
  sessionExpirySec : Int := 0
  maxPayloadBytes : Nat := 163840

def MqttConfig.mqtt5 (config : MqttConfig) : Bool := config.protocolVersion = "mqtt5".toList

def incomingPacketLimit (config : MqttConfig) : Nat := max kMinIncomingPacketBytes config.maxPayloadBytes

def scopedTopic (topic machineCode : StdString) : StdString :=
  if topic = [] ∨ machineCode = [] then topic
  else if ('/' :: machineCode).isSuffixOf topic then topic
  else topic ++ '/' :: machineCode

inductive MqttIncomingType where
  | commandRequest
  | otaRequest
  | realtimeRequest
  | systemMonitorRequest
  | diagRequest
  | configPullRequest
  | configApplyRequest
  | configDeleteRequest
  | configRestoreRequest
  | recordingRequest
  | recordingAck
deriving DecidableEq, Repr

structure MqttIncomingMessage where
  type : MqttIncomingType
  topic : StdString
  payload : StdString
deriving DecidableEq, Repr

/-- The request topics in the order in which a received topic is compared with them. -/
def MqttConfig.requestTopics (config : MqttConfig) : List (StdString × MqttIncomingType) :=
  [(config.commandRequestTopic, .commandRequest), (config.otaRequestTopic, .otaRequest),
    (config.realtimeRequestTopic, .realtimeRequest), (config.systemMonitorRequestTopic, .systemMonitorRequest),
    (config.diagRequestTopic, .diagRequest), (config.configPullRequestTopic, .configPullRequest),
    (config.configApplyRequestTopic, .configApplyRequest), (config.configDeleteRequestTopic, .configDeleteRequest),
    (config.configRestoreRequestTopic, .configRestoreRequest), (config.recordingRequestTopic, .recordingRequest),
    (config.recordingAckTopic, .recordingAck)]

def textBytes (text : StdString) : List UInt8 := text.map fun c => UInt8.ofNat c.toNat

def bytesText (bytes : List UInt8) : StdString := bytes.map fun b => Char.ofNat b.toNat

def wordBytes (value : UInt16) : List UInt8 := [(value >>> 8).toUInt8, value.toUInt8]

def bytesWord (high low : UInt8) : UInt16 := high.toUInt16 <<< 8 ||| low.toUInt16

def appendString (bytes : List UInt8) (value : StdString) : Fallible (List UInt8) :=
  if 0xFFFF < value.length then .error "mqtt string too long"
  else .ok (bytes ++ wordBytes (UInt16.ofNat value.length) ++ textBytes value)

def varint (value : Nat) : List UInt8 :=
  if value < 128 then [UInt8.ofNat value]
  else (UInt8.ofNat (value % 128) ||| 0x80) :: varint (value / 128)

/-- The loop of `decodeRemainingLength`: the value and the number of bytes it takes. -/
def remainingLengthLoop (multiplier value used : Nat) : List UInt8 → Fallible (Nat × Nat)
  | [] => .error "mqtt malformed remaining length"
  | encoded :: rest =>
    let value := value + (encoded &&& 0x7F).toNat * multiplier
    if 128 * 128 * 128 < multiplier then .error "mqtt malformed remaining length"
    else if encoded &&& 0x80 ≠ 0 then remainingLengthLoop (multiplier * 128) value (used + 1) rest
    else .ok (value, used + 1)

def decodeRemainingLength (packet : Packet) : Fallible (Nat × Nat) :=
  (remainingLengthLoop 1 0 0 (packet.drop 1)).map fun decoded => (decoded.1, 1 + decoded.2)

/-- The loop that reads a property length; both the length and its multiplier are `std::size_t`. -/
def propertyLengthLoop (multiplier length used : Nat) : List UInt8 → Fallible (Nat × Nat)
  | [] => .error "mqtt publish properties malformed"
  | encoded :: rest =>
    let length := (length + (encoded &&& 0x7F).toNat * multiplier) % 2 ^ 64
    if encoded &&& 0x80 ≠ 0 then propertyLengthLoop (multiplier * 128 % 2 ^ 64) length (used + 1) rest
    else .ok (length, used + 1)

def clampQos (qos : Int) : Nat := (max 0 (min 2 qos)).toNat

def buildConnectPacket (config : MqttConfig) (clientIdSuffix : StdString) : Fallible Packet := do
  let header ← appendString [] "MQTT".toList
  let flags : UInt8 := (if config.cleanSession then 0x02 else 0) ||| (if config.username ≠ [] then 0x80 else 0) |||
    (if config.password ≠ [] then 0x40 else 0)
  let keepAlive := wordBytes (UInt16.ofInt config.keepAliveSec)
  let properties : List UInt8 :=
    if 0 < config.sessionExpirySec then
      let expiry := UInt32.ofInt config.sessionExpirySec
      [0x11, (expiry >>> 24).toUInt8, (expiry >>> 16).toUInt8, (expiry >>> 8).toUInt8, expiry.toUInt8]
    else []
  let header := header ++ [if config.mqtt5 then 0x05 else 0x04, flags] ++ keepAlive ++
    (if config.mqtt5 then varint properties.length ++ properties else [])
  let payload ← appendString [] (config.clientId ++ clientIdSuffix)
  let payload ← if config.username = [] then pure payload else appendString payload config.username
  let payload ← if config.password = [] then pure payload else appendString payload config.password
  return kPacketConnect :: varint (header.length + payload.length) ++ header ++ payload

def buildPublishPacket (config : MqttConfig) (topic payload : StdString) (packetId : UInt16) (qos : Int) :
    Fallible Packet := do
  let qos := clampQos qos
  let header ← appendString [] topic
  let header := header ++ (if 0 < qos then wordBytes packetId else []) ++ (if config.mqtt5 then varint 0 else [])
  let first := if qos = 0 then kPacketPublishQos0 else if qos = 1 then kPacketPublishQos1 else kPacketPublishQos2
  return first :: varint (header.length + payload.length) ++ header ++ textBytes payload

def appendSubscription (payload : List UInt8) (topic : StdString) (qos : UInt8) : Fallible (List UInt8) :=
  if topic = [] then .ok payload else (appendString payload topic).map (· ++ [qos])

def MqttIncomingType.subscribedQos (config : MqttConfig) : MqttIncomingType → UInt8
  | .realtimeRequest | .systemMonitorRequest | .configPullRequest => UInt8.ofNat (clampQos config.qos)
  | _ => UInt8.ofNat (clampQos config.controlQos)

def buildSubscribePacket (config : MqttConfig) (packetId : UInt16) : Fallible Packet := do
  let header := wordBytes packetId ++ (if config.mqtt5 then varint 0 else [])
  let payload ← config.requestTopics.foldlM
    (fun payload entry => appendSubscription payload (scopedTopic entry.1 config.topicMachineCode)
      (entry.2.subscribedQos config)) []
  return kPacketSubscribe :: varint (header.length + payload.length) ++ header ++ payload

def buildTwoBytePacket (packetType : UInt8) (packetId : UInt16) (mqtt5 : Bool) : Packet :=
  if mqtt5 then packetType :: 0x04 :: wordBytes packetId ++ [0x00, 0x00]
  else packetType :: 0x02 :: wordBytes packetId

def buildPubAckPacket (packetId : UInt16) (mqtt5 : Bool) : Packet := buildTwoBytePacket kPacketPubAck packetId mqtt5

def buildPubRelPacket (packetId : UInt16) (mqtt5 : Bool) : Packet := buildTwoBytePacket kPacketPubRel packetId mqtt5

def buildPubRecPacket (packetId : UInt16) (mqtt5 : Bool) : Packet := buildTwoBytePacket kPacketPubRec packetId mqtt5

def buildPubCompPacket (packetId : UInt16) (mqtt5 : Bool) : Packet := buildTwoBytePacket kPacketPubComp packetId mqtt5

def buildPingReqPacket : Packet := [kPacketPingReq, 0x00]

def readPacket (received : List UInt8) (maxRemainingBytes : Nat) : Fallible Packet :=
  match received with
  | [] => .error "mqtt recv failed"
  | first :: rest => do
    let (remaining, used) ← remainingLengthLoop 1 0 0 rest
    if maxRemainingBytes < remaining then .error "mqtt incoming packet is too large"
    else if (rest.drop used).length < remaining then .error "mqtt recv payload failed"
    else return first :: rest.take (used + remaining)

def firstByte (packet : Packet) : UInt8 := packet.headD 0

def packetType (packet : Packet) : UInt8 := firstByte packet &&& 0xF0

def packetQos (packet : Packet) : Nat := ((firstByte packet >>> 1) &&& 0x03).toNat

def packetIdentifier (packet : Packet) : Fallible UInt16 :=
  if packet = [] then .ok 0
  else do
    let (_, headerSize) ← decodeRemainingLength packet
    match packet.drop headerSize with
    | high :: low :: _ => return bytesWord high low
    | _ => return 0

def validateConnAck (config : MqttConfig) (packet : Packet) : Fallible Unit :=
  if packetType packet ≠ kPacketConnAck then .error "mqtt connack missing"
  else if packet.length < 4 ∨ packet.getD 3 0 ≠ 0x00 then
    .error (if config.mqtt5 then "mqtt5 connect rejected" else "mqtt3 connect rejected")
  else .ok ()

/-- `validatePubAck` and its siblings: the awaited type and the text thrown for any other packet. -/
def validateType (awaited : UInt8) (missing : String) (packet : Packet) : Fallible Unit :=
  if packetType packet ≠ awaited then .error missing else .ok ()

def validatePubAck : Packet → Fallible Unit := validateType kPacketPubAck "mqtt puback missing"

def validatePubRec : Packet → Fallible Unit := validateType kPacketPubRec "mqtt pubrec missing"

def validatePubComp : Packet → Fallible Unit := validateType kPacketPubComp "mqtt pubcomp missing"

def validateSubAck : Packet → Fallible Unit := validateType kPacketSubAck "mqtt suback missing"

structure Publish where
  message : MqttIncomingMessage
  packetId : UInt16
deriving DecidableEq, Repr

/-- The cursor after the properties of an MQTT 5 PUBLISH. -/
def skipProperties (config : MqttConfig) (packet : Packet) (cursor : Nat) : Fallible Nat :=
  if config.mqtt5 then do
    let (length, used) ← propertyLengthLoop 1 0 0 (packet.drop cursor)
    let cursor := (cursor + used + length) % 2 ^ 64
    if packet.length < cursor then .error "mqtt publish properties overflow" else return cursor
  else return cursor

/-- `parsePublishPacket`; `none` where the source returns `false`. -/
def parsePublishPacket (config : MqttConfig) (packet : Packet) : Fallible (Option Publish) :=
  if packetType packet ≠ 0x30 then .ok none
  else do
    let (remainingLength, headerSize) ← decodeRemainingLength packet
    if incomingPacketLimit config < remainingLength ∨ headerSize + incomingPacketLimit config < packet.length then
      throw "mqtt incoming packet is too large"
    if packet.length < headerSize + 2 then
      throw "mqtt publish topic length missing"
    let topicLength := (bytesWord (packet.getD headerSize 0) (packet.getD (headerSize + 1) 0)).toNat
    let cursor := headerSize + 2
    if packet.length < cursor + topicLength then
      throw "mqtt publish topic malformed"
    let topic := bytesText ((packet.drop cursor).take topicLength)
    let cursor := cursor + topicLength
    if 0 < packetQos packet ∧ packet.length < cursor + 2 then
      throw "mqtt publish packetId missing"
    let packetId := if 0 < packetQos packet then bytesWord (packet.getD cursor 0) (packet.getD (cursor + 1) 0) else 0
    let cursor := if 0 < packetQos packet then cursor + 2 else cursor
    let cursor ← skipProperties config packet cursor
    let payload := bytesText (packet.drop cursor)
    match config.requestTopics.find? fun entry => topic = scopedTopic entry.1 config.topicMachineCode with
    | none => return none
    | some entry => return some ⟨⟨entry.2, topic, payload⟩, packetId⟩

end EdgeGateway.MqttDriver
