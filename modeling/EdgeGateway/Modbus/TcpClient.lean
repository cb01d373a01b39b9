import EdgeGateway.Foundation.Bytes
import EdgeGateway.Foundation.Frames

/-! # The Modbus TCP client

One call of `transact` at a time. A connection is the stream of the responses its peer sends over
it, together with how much of it has been read.
-/

namespace EdgeGateway.Modbus

def highByte (value : UInt16) : UInt8 := (value >>> 8).toUInt8

def lowByte (value : UInt16) : UInt8 := value.toUInt8

def word (high low : UInt8) : UInt16 := high.toUInt16 <<< 8 ||| low.toUInt16

theorem word_bytes (value : UInt16) : word (highByte value) (lowByte value) = value := Bytes.join_halves value

def mbap (transactionId protocolId length : UInt16) (unitId : UInt8) : List UInt8 :=
  [highByte transactionId, lowByte transactionId, highByte protocolId, lowByte protocolId,
    highByte length, lowByte length, unitId]

structure Header where
  transactionId : UInt16
  protocolId : UInt16
  length : UInt16
  unitId : UInt8

def parseHeader (header : List UInt8) : Header where
  transactionId := word (header.getD 0 0) (header.getD 1 0)
  protocolId := word (header.getD 2 0) (header.getD 3 0)
  length := word (header.getD 4 0) (header.getD 5 0)
  unitId := header.getD 6 0

theorem parseHeader_mbap (transactionId protocolId length : UInt16) (unitId : UInt8) :
    parseHeader (mbap transactionId protocolId length unitId) = ⟨transactionId, protocolId, length, unitId⟩ := by
  simp [parseHeader, mbap, word_bytes]

/-- A complete response: its data unit has a function code and fits the length field. -/
structure Response where
  transactionId : UInt16
  protocolId : UInt16
  unitId : UInt8
  function : UInt8
  data : List UInt8
  fits : data.length + 2 < 2 ^ 16

namespace Response

def header (response : Response) : List UInt8 :=
  mbap response.transactionId response.protocolId (UInt16.ofNat (response.data.length + 2)) response.unitId

def pdu (response : Response) : List UInt8 := response.function :: response.data

def bytes (response : Response) : List UInt8 := response.header ++ response.pdu

@[simp] theorem length_header (response : Response) : response.header.length = 7 := rfl

@[simp] theorem length_pdu (response : Response) : response.pdu.length = response.data.length + 1 := rfl

end Response

structure Connection where
  frames : List Response
  consumed : Nat

namespace Connection

def unread (conn : Connection) : List UInt8 := (Frames.stream Response.bytes conn.frames).drop conn.consumed

def advance (conn : Connection) (count : Nat) : Connection := { conn with consumed := conn.consumed + count }

def Aligned (conn : Connection) : Prop := Frames.Boundary Response.bytes conn.frames conn.consumed

def Next (conn : Connection) (response : Response) : Prop :=
  Frames.Starts Response.bytes conn.frames conn.consumed response

end Connection

structure Received where
  bytes : List UInt8
  conn : Connection
  recvs : List Nat

/-- Each `recv` hands over at most what it is asked for and what has arrived; one that hands over nothing has
    failed. -/
def receiveLoop (size : Nat) : List UInt8 → Connection → List Nat → Option Received
  | bytes, conn, [] => if bytes.length < size then none else some ⟨bytes, conn, []⟩
  | bytes, conn, rc :: recvs =>
    if bytes.length < size then
      let chunk := conn.unread.take (min rc (size - bytes.length))
      if chunk = [] then none
      else receiveLoop size (bytes ++ chunk) (conn.advance chunk.length) recvs
    else some ⟨bytes, conn, rc :: recvs⟩

def readExact (size : Nat) (conn : Connection) (recvs : List Nat) : Option Received :=
  receiveLoop size [] conn recvs

/-- The loop of `sendAll` over the bytes not yet sent. -/
def sendAll : List UInt8 → List Nat → Bool
  | [], _ => true
  | _ :: _, [] => false
  | _ :: _, 0 :: _ => false
  | _ :: bytes, (rc + 1) :: sends => sendAll (bytes.drop rc) sends

inductive ConnectFault where
  | getaddrinfo
  | connect
  deriving DecidableEq

def ConnectFault.message : ConnectFault → String
  | getaddrinfo => "modbus tcp getaddrinfo failed"
  | connect => "modbus tcp connect failed"

/-- A request, with a new connection, if one has to be opened, and the results of `send` and `recv`. -/
structure Call where
  slave : Int
  function : UInt8
  pdu : List UInt8
  opened : Except ConnectFault (List Response)
  sends : List Nat
  recvs : List Nat

def Call.unitId (call : Call) : UInt8 := UInt8.ofNat call.slave.toNat

structure ModbusTcpClient where
  socket : Option Connection
  transactionId : UInt16

def nextTransactionId (transactionId : UInt16) : UInt16 :=
  if transactionId + 1 = 0 then 1 else transactionId + 1

def requestFrame (transactionId : UInt16) (unitId : UInt8) (pdu : List UInt8) : List UInt8 :=
  mbap transactionId 0 (UInt16.ofNat (1 + pdu.length)) unitId ++ pdu

def Header.fault (header : Header) (transactionId : UInt16) (unitId : UInt8) : Option String :=
  if header.transactionId ≠ transactionId then some "modbus tcp transaction id mismatch"
  else if header.protocolId ≠ 0 then some "modbus tcp protocol id mismatch"
  else if header.unitId ≠ unitId then some "modbus tcp unit id mismatch"
  else if header.length < 2 then some "modbus tcp length too short"
  else none

def checkBody (function : UInt8) : List UInt8 → Except String (List UInt8)
  | [] => .error "modbus tcp empty pdu"
  | code :: rest =>
    if code = function ||| 0x80 then
      match rest with
      | [] => .error "modbus tcp exception without code"
      | exception :: _ => .error ("modbus tcp exception code " ++ toString exception.toNat)
    else if code ≠ function then .error "modbus tcp function mismatch"
    else .ok (code :: rest)

namespace ModbusTcpClient

def created : ModbusTcpClient := ⟨none, 0⟩

def ensureConnected (client : ModbusTcpClient) (opened : Except ConnectFault (List Response)) :
    Except ConnectFault Connection :=
  match client.socket with
  | some conn => .ok conn
  | none => opened.map fun frames => ⟨frames, 0⟩

def readBody (header : Header) (call : Call) (transactionId : UInt16) (conn : Connection) (recvs : List Nat) :
    Except String (List UInt8) × ModbusTcpClient :=
  match readExact (header.length.toNat - 1) conn recvs with
  | none => (.error "modbus tcp recv failed", ⟨none, transactionId⟩)
  | some received => (checkBody call.function received.bytes, ⟨some received.conn, transactionId⟩)

/-- A header that does not fit is thrown at with the socket left open. -/
def readResponse (call : Call) (transactionId : UInt16) (conn : Connection) :
    Except String (List UInt8) × ModbusTcpClient :=
  match readExact 7 conn call.recvs with
  | none => (.error "modbus tcp recv failed", ⟨none, transactionId⟩)
  | some received =>
    match (parseHeader received.bytes).fault transactionId call.unitId with
    | some message => (.error message, ⟨some received.conn, transactionId⟩)
    | none => readBody (parseHeader received.bytes) call transactionId received.conn received.recvs

def transact (client : ModbusTcpClient) (call : Call) : Except String (List UInt8) × ModbusTcpClient :=
  if call.slave < 0 ∨ 255 < call.slave then (.error "unit id must be in range 0..255", client)
  else
    match client.ensureConnected call.opened with
    | .error fault => (.error fault.message, client)
    | .ok conn =>
      let transactionId := nextTransactionId client.transactionId
      if sendAll (requestFrame transactionId call.unitId call.pdu) call.sends then
        readResponse call transactionId conn
      else (.error "modbus tcp send failed", ⟨none, transactionId⟩)

def step (client : ModbusTcpClient) (call : Call) : ModbusTcpClient := (client.transact call).2

end ModbusTcpClient

end EdgeGateway.Modbus
