import EdgeGateway.Modbus.Codec

/-! # The command executor

What a command writes to its device, and the result it reports. The client and
the point store answer each call; a write is recorded when it is issued, with the
write spec it was made for.
-/

namespace EdgeGateway.Modbus

structure CommandRequest (K : Type) where
  cmdId : StdString
  machineCode : StdString
  meterCode : StdString
  pointCode : StdString
  value : K

structure CommandResult (K : Type) where
  cmdId : StdString
  machineCode : StdString
  meterCode : StdString
  pointCode : StdString
  index : UInt32 := 0
  ts : Int
  requestedValue : K
  verifyAttempted : Bool := false
  verifyPassed : Bool := false
  success : Bool := false
  message : StdString := []

inductive CommandFault where
  | thrown (message : StdString)
  | outOfBounds
deriving DecidableEq

def CommandFault.ofCodec : CodecFault → CommandFault
  | .invalidArgument message => .thrown message
  | .outOfBounds => .outOfBounds

inductive WriteTarget where
  | modbus (slave address : Int)
  | gpio (pin : Int)
deriving DecidableEq

inductive WritePayload where
  | singleCoil (on : Bool)
  | singleRegister (value : BitVec 16)
  | multipleRegisters (values : List (BitVec 16))
  | exportGpio
  | setDirectionOut
  | writeValue (high : Bool)
deriving DecidableEq

/-- A write as the device gets it, and the spec of the point it was made for. -/
structure DeviceWrite (K : Type) where
  target : WriteTarget
  payload : WritePayload
  spec : WriteSpec K

structure Client (K : Type) where
  readHoldingRegisters : Int → Int → Int → Except StdString (List (BitVec 16))
  write : WriteTarget → WritePayload → Except StdString Unit
  verifyRead : (function slave address length : Int) → Except StdString (List (BitVec 16))
  readValue : Int → Except StdString Bool
  putLatest : PointDefinition K → K → Except StdString Unit

structure Execution (K : Type) where
  writes : List (DeviceWrite K)
  result : Option (CommandResult K)

namespace CommandExecutor

def thrown {α : Type} (message : String) : Except CommandFault α := .error (.thrown message.toList)

section Points

variable {K : Type}

def isBitWrite (point : PointDefinition K) : Bool :=
  point.write.dataType = "bit".toList ∨ point.write.dataType = "bool".toList

def writeAddressOf (point : PointDefinition K) : Int :=
  if 0 ≤ point.write.address then point.write.address else point.address

def findPoint (config : DeviceConfig K) (pointCode : StdString) : Except CommandFault (PointDefinition K) :=
  match config.points.find? (·.pointCode = pointCode) with
  | some point => .ok point
  | none => .error (.thrown ("point not found: ".toList ++ pointCode))

def findPointByIndex (config : DeviceConfig K) (index : UInt32) : Except CommandFault (PointDefinition K) :=
  match config.points.find? (·.index = index) with
  | some point => .ok point
  | none => .error (.thrown ("point index not found: ".toList ++ (toString index.toNat).toList))

def issueAll (client : Client K) : List (DeviceWrite K) → List (DeviceWrite K) × Except CommandFault Unit
  | [] => ([], .ok ())
  | write :: rest =>
    match client.write write.target write.payload with
    | .error message => ([write], .error (.thrown message))
    | .ok () => ((issueAll client rest).map (write :: ·) id)

def mergeBitWrite (client : Client K) (config : DeviceConfig K) (point : PointDefinition K) (value : Bool) :
    Except CommandFault (BitVec 16) :=
  if point.read.bit < 0 ∨ 15 < point.read.bit then
    thrown "register bit write requires read.bit between 0 and 15"
  else
    match client.readHoldingRegisters config.protocol.slave (writeAddressOf point) 1 with
    | .error message => .error (.thrown message)
    | .ok [] => thrown "register bit write readback returned no data"
    | .ok (merged :: _) =>
      let mask := 1#16 <<< point.read.bit.toNat
      .ok (if value then merged ||| mask else merged &&& ~~~mask)

def modbusWrite (config : DeviceConfig K) (point : PointDefinition K) (payload : WritePayload) : DeviceWrite K where
  target := .modbus config.protocol.slave (writeAddressOf point)
  payload := payload
  spec := point.write

def dispatchWrite (client : Client K) (config : DeviceConfig K) (point : PointDefinition K)
    (encoded : List (BitVec 16)) : Except CommandFault (DeviceWrite K) :=
  if point.write.function = 5 then
    match encoded with
    | [word] => .ok (modbusWrite config point (.singleCoil (word != 0)))
    | _ => thrown "function 5 requires one coil value"
  else if point.write.function = 6 then
    match encoded with
    | [word] =>
      if isBitWrite point then
        (mergeBitWrite client config point (word != 0)).map fun merged =>
          modbusWrite config point (.singleRegister merged)
      else .ok (modbusWrite config point (.singleRegister word))
    | _ => thrown "function 6 requires one register"
  else if point.write.function = 16 then .ok (modbusWrite config point (.multipleRegisters encoded))
  else .error (.thrown ("unsupported write function: ".toList ++ (toString point.write.function).toList))

end Points

section Commands

variable {K : Type} [Field K] [LinearOrder K] [FloorRing K]

def localDioWrites (point : PointDefinition K) (value : K) : Except CommandFault (List (DeviceWrite K)) :=
  if point.write.enable = false then thrown "point write is disabled"
  else if point.read.dataType ≠ "digital_output".toList ∧ point.write.dataType ≠ "digital_output".toList then
    thrown "local_dio write requires digital_output point"
  else if point.read.gpio < 0 then thrown "local_dio point missing read.gpio"
  else if 1 / 10 ^ 9 < |value - 0| ∧ 1 / 10 ^ 9 < |value - 1| then thrown "local_dio write value must be 0 or 1"
  else if point.write.minValue.any (value < ·) then thrown "value below min"
  else if point.write.maxValue.any (· < value) then thrown "value above max"
  else if point.write.allowedValues ≠ [] ∧
      point.write.allowedValues.all (fun candidate => 1 / 10 ^ 9 < |candidate - value|) then
    thrown "value is not in allowedValues"
  else
    let logicalHigh : Bool := 0 < value
    let gpioHigh := if point.read.activeHigh then logicalHigh else !logicalHigh
    .ok ([.exportGpio, .setDirectionOut, .writeValue gpioHigh].map fun payload =>
      ⟨.gpio point.read.gpio, payload, point.write⟩)

def modbusWrites (platform : Platform K) (client : Client K) (config : DeviceConfig K) (point : PointDefinition K)
    (value : K) : Except CommandFault (List (DeviceWrite K)) := do
  let validation := ModbusCodec.validateWriteValue value point
  if validation.ok = false then .error (.thrown validation.message)
  let encoded ← (ModbusCodec.encodeWriteValue platform value point).mapError .ofCodec
  let write ← dispatchWrite client config point encoded
  .ok [write]

def isLocalDio (config : DeviceConfig K) : Bool := config.protocol.type = "local_dio".toList

def plannedWrites (platform : Platform K) (client : Client K) (config : DeviceConfig K) (point : PointDefinition K)
    (value : K) : Except CommandFault (List (DeviceWrite K)) :=
  if isLocalDio config then localDioWrites point value else modbusWrites platform client config point value

def verifyWrite (platform : Platform K) (client : Client K) (config : DeviceConfig K) (point : PointDefinition K)
    (value : K) : Except CommandFault Unit := do
  if point.read.enable = false then thrown "verify requires read capability"
  if point.read.function < 1 ∨ 4 < point.read.function then thrown "unsupported verify read function"
  let registers ←
    (client.verifyRead point.read.function config.protocol.slave point.address point.read.length).mapError .thrown
  let decoded ← (ModbusCodec.decodeReadValue platform registers point).mapError .ofCodec
  if 1 / 10 ^ 6 < |decoded.value - value| then thrown "verify failed"
  if point.read.storeLatest then (client.putLatest point decoded.value).mapError .thrown

def verifyLocalDio (client : Client K) (point : PointDefinition K) (value : K) : Except CommandFault Unit := do
  let actualGpioHigh ← (client.readValue point.read.gpio).mapError .thrown
  let actualValue : K := if actualGpioHigh = point.read.activeHigh then 1 else 0
  if 1 / 10 ^ 9 < |actualValue - value| then thrown "verify failed"

def afterWrites (platform : Platform K) (client : Client K) (config : DeviceConfig K) (point : PointDefinition K)
    (value : K) : Except CommandFault Unit := do
  let verify := point.write.verifyAfterWrite && point.write.verifyByRead
  if isLocalDio config then
    if verify then verifyLocalDio client point value
    (client.putLatest point value).mapError .thrown
  else if verify then verifyWrite platform client config point value

/-- A point that is found is written, read back if its spec says so, and the result filled in. -/
def commandPoint (platform : Platform K) (client : Client K) (config : DeviceConfig K) (point : PointDefinition K)
    (value : K) : List (DeviceWrite K) × Except CommandFault Unit :=
  match plannedWrites platform client config point value with
  | .error fault => ([], .error fault)
  | .ok writes =>
    match issueAll client writes with
    | (issued, .error fault) => (issued, .error fault)
    | (issued, .ok ()) => (issued, afterWrites platform client config point value)

/-- Whether the read-back had begun when the command ended as it did. -/
def verifyBegun (client : Client K) (config : DeviceConfig K) (point : PointDefinition K)
    (planned : Except CommandFault (List (DeviceWrite K))) : Bool :=
  (point.write.verifyAfterWrite && point.write.verifyByRead) &&
    (isLocalDio config || planned.toOption.any fun writes => (issueAll client writes).2.isOk)

def execute (platform : Platform K) (client : Client K) (config : DeviceConfig K) (request : CommandRequest K)
    (nowMs : Int) : Execution K :=
  let result : CommandResult K :=
    { cmdId := request.cmdId
      machineCode := request.machineCode
      meterCode := request.meterCode
      pointCode := request.pointCode
      ts := nowMs
      requestedValue := request.value }
  if config.protocol.type = "dlt645_2007".toList then
    ⟨[], some { result with message := "unsupported write for dlt645_2007".toList }⟩
  else
    match findPoint config request.pointCode with
    | .error (.thrown message) => ⟨[], some { result with message := message }⟩
    | .error .outOfBounds => ⟨[], none⟩
    | .ok point =>
      let attempted := verifyBegun client config point (plannedWrites platform client config point request.value)
      let (writes, outcome) := commandPoint platform client config point request.value
      match outcome with
      | .error .outOfBounds => ⟨writes, none⟩
      | .error (.thrown message) =>
        ⟨writes, some { result with index := point.index, verifyAttempted := attempted, message := message }⟩
      | .ok () =>
        ⟨writes, some { result with
          index := point.index
          verifyAttempted := attempted
          verifyPassed := attempted
          success := true
          message := "ok".toList }⟩

def executeByIndex (platform : Platform K) (client : Client K) (config : DeviceConfig K) (cmdId : StdString)
    (index : UInt32) (value : K) (nowMs : Int) : Except CommandFault (Execution K) :=
  (findPointByIndex config index).map fun point =>
    execute platform client config ⟨cmdId, config.machineCode, config.meterCode, point.pointCode, value⟩ nowMs

end Commands

end CommandExecutor

end EdgeGateway.Modbus
