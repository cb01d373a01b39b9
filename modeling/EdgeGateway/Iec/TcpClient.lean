import EdgeGateway.Iec.Asdu

/-! # The IEC 104 client and its receive loop

A call is the list of what it still has to do, each entry one critical section or one wait. The
receive loop, the peer and the clock take their steps between any two of them.
-/

namespace EdgeGateway.Iec

inductive Request (K : Type) where
  | poll
  | writeByPoint (point : IecPoint K) (value : K)
  | synchronizeClock (nowMs : Int)
  | readParameter (ioa typeId : Int) (qualifier : UInt8)
  | writeParameter (ioa typeId : Int) (value : K) (qualifier : UInt8)
  | activateParameter (ioa : Int) (qualifier : UInt8)
  | callFile (ioa nameOfFile nameOfSection : Int) (qualifier : UInt8)

inductive Outcome (K : Type) where
  | ok
  | failed (message : String)
  | values (values : List (IecDataValue K))
  | parameter (value : IecParameterValue K)
  | segments (segments : List IecFileSegment)

inductive Op (K : Type) where
  | connect
  | start
  | awaitStart
  /-- The three entries of a command: take its number, build it, wait for the window. -/
  | number (command : Command K)
  | build (command : Command K) (sendSequence : Nat)
  | window (frame : List UInt8)
  | send (frame : List UInt8)
  | awaitControl (point : IecPoint K) (cause : Int) (message : String)
  /-- The causes are waited for one after the other. -/
  | awaitParameter (ioa typeId : Int) (causes : List Int) (keep : Bool) (message : String)
  | awaitFiles (nameOfFile : Int)
  | awaitValues

structure Setup (K : Type) where
  platform : Platform K
  config : IecProtocolConfig

structure IecTcpClient (K : Type) where
  connected : Bool := false
  sendSequence : Nat := 0
  receiveSequence : Nat := 0
  remoteReceiveSequence : Nat := 0
  iec104Started : Bool := false
  unacknowledgedReceived : Nat := 0
  bufferedValues : List (IecDataValue K) := []
  controlValues : List (IecDataValue K) := []
  parameterValues : List (IecParameterValue K) := []
  fileSegments : List IecFileSegment := []

structure Call (K : Type) where
  request : Request K
  ops : List (Op K)
  answer : Outcome K

/-- `wire` is what has been put on the connection in whole frames, `inbound` what is not yet handled of the
    peer's. -/
structure Session (K : Type) where
  client : IecTcpClient K := {}
  caller : Option (Call K) := none
  returned : List (Request K × Outcome K) := []
  inbound : List (List UInt8) := []
  wire : List (List UInt8) := []
  /-- How many I-frames of the connection the peer has acknowledged. -/
  acknowledged : Nat := 0
  /-- What the peer has sent since the last I-frame went out. -/
  answers : List (List UInt8) := []

inductive Event (K : Type) where
  | begin (request : Request K)
  /-- The calling thread goes on; the fault is that of connecting or sending, if it comes to it. -/
  | advance (fault : Option String)
  /-- The deadline of the wait that the caller is in. -/
  | expire
  | peerSends (frame : List UInt8)
  | receive (replied : Bool)
  | breakLink
  | delayedAck (replied : Bool)
  | testLink (replied : Bool)

section Calls

variable {K : Type} [Field K] [LinearOrder K] [FloorRing K]

def checkWrite (point : IecPoint K) (value : K) : Option String :=
  if point.write.enable = false then some "point write is disabled"
  else if point.write.minValue.any fun low => decide (value < low) then some "value below min"
  else if point.write.maxValue.any fun high => decide (high < value) then some "value above max"
  else if point.write.allowedValues ≠ [] ∧
      (point.write.allowedValues.any fun candidate => decide (|candidate - value| ≤ 1 / 10 ^ 9)) = false then
    some "value is not in allowedValues"
  else none

def executeOps (config : IecProtocolConfig) (point : IecPoint K) : List (Op K) :=
  .awaitControl point 7 "IEC104 execute confirmation timeout" ::
    if point.write.iec.waitActivationTermination then
      [.awaitControl point config.activationTerminationCot "IEC104 activation termination timeout"]
    else []

def writeOps (config : IecProtocolConfig) (point : IecPoint K) (value : K) : List (Op K) :=
  (if point.write.iec.selectBeforeExecute then
      [.number (.control point value true), .awaitControl point 7 "IEC104 select confirmation timeout"]
    else []) ++
  .number (.control point value false) :: executeOps config point

def requestOps (config : IecProtocolConfig) : Request K → List (Op K)
  | .poll => (if config.pollOnCollect then [.number .interrogation] else []) ++ [.awaitValues]
  | .writeByPoint point value => writeOps config point value
  | .synchronizeClock nowMs => [.number (.clockSync nowMs)]
  | .readParameter ioa typeId qualifier =>
    [.number (.parameter ioa typeId 0 qualifier 5), .awaitParameter ioa typeId [5, 7] true "IEC104 parameter read timeout"]
  | .writeParameter ioa typeId value qualifier =>
    [.number (.parameter ioa typeId value qualifier 6),
      .awaitParameter ioa typeId [7] false "IEC104 parameter write confirmation timeout"]
  | .activateParameter ioa qualifier =>
    [.number (.parameterActivation ioa qualifier),
      .awaitParameter ioa 113 [7] false "IEC104 parameter activation confirmation timeout"]
  | .callFile ioa nameOfFile nameOfSection qualifier =>
    [.number (.fileCall ioa nameOfFile nameOfSection qualifier), .awaitFiles nameOfFile]

def refusal : Request K → Option String
  | .writeByPoint point value => checkWrite point value
  | _ => none

/-- Which confirmation a control command is content with. -/
def controlConfirmationMatches (point : IecPoint K) (value : IecDataValue K) (expectedCause : Int) : Bool :=
  let configuredIoa :=
    if 0 ≤ point.write.iec.ioa then point.write.iec.ioa
    else if 0 ≤ point.read.iec.ioa then point.read.iec.ioa
    else if 0 ≤ point.write.address then point.write.address
    else if 0 < point.address then point.address else -1
  let configuredCa :=
    if 0 < point.write.iec.commonAddress then point.write.iec.commonAddress else point.read.iec.commonAddress
  let configuredType := if 0 < point.write.iec.typeId then point.write.iec.typeId else point.read.iec.typeId
  if 0 ≤ configuredIoa ∧ configuredIoa ≠ value.ioa then false
  else if 0 < configuredCa ∧ configuredCa ≠ value.commonAddress then false
  else if 0 < configuredType ∧ configuredType ≠ value.typeId then false
  else value.cause == expectedCause

def IecParameterValue.matches (ioa typeId cause : Int) (value : IecParameterValue K) : Bool :=
  value.ioa == ioa && value.typeId == typeId && value.cause == cause

/-- The segments of a file up to its last one, and what stays in the list. -/
def takeSegments (nameOfFile : Int) : List IecFileSegment → List IecFileSegment × List IecFileSegment
  | [] => ([], [])
  | segment :: rest =>
    if segment.nameOfFile = nameOfFile then
      if segment.lastSectionOrSegment ≠ 0 ∨ segment.qualifier = 0x80 then ([segment], rest)
      else (segment :: (takeSegments nameOfFile rest).1, (takeSegments nameOfFile rest).2)
    else ((takeSegments nameOfFile rest).1, segment :: (takeSegments nameOfFile rest).2)

end Calls

namespace Session

variable {K : Type}

def iFrames (s : Session K) : List (List UInt8) := s.wire.filter isIec104IFrame

def sent (s : Session K) : Nat := s.iFrames.length

def opened (s : Session K) : Session K :=
  { s with
    client := { s.client with
      connected := true, iec104Started := false, sendSequence := 0, receiveSequence := 0
      remoteReceiveSequence := 0, unacknowledgedReceived := 0 }
    inbound := [], wire := [], acknowledged := 0, answers := [] }

def disconnect (s : Session K) : Session K :=
  if s.client.connected then
    { s with client := { s.client with connected := false, iec104Started := false, unacknowledgedReceived := 0 } }
  else s

def put (s : Session K) (frame : List UInt8) : Session K :=
  { s with wire := s.wire ++ [frame], answers := if isIec104IFrame frame then [] else s.answers }

def sendAll (s : Session K) (frame : List UInt8) (ok : Bool) : Session K × Bool :=
  if s.client.connected && ok then (s.put frame, true) else (s.disconnect, false)

def finish (s : Session K) (call : Call K) (outcome : Outcome K) : Session K :=
  { s with caller := none, returned := s.returned ++ [(call.request, outcome)] }

def fail (s : Session K) (call : Call K) (message : String) : Session K := s.finish call (.failed message)

def proceed (s : Session K) (call : Call K) (ops : List (Op K)) : Session K :=
  match ops with
  | [] => s.finish call call.answer
  | op :: rest => { s with caller := some { call with ops := op :: rest } }

/-- Among the counts of frames with that number the largest one not beyond what was sent is meant. -/
def acknowledge (s : Session K) (number : Nat) : Nat :=
  let behind := (((s.sent : Int) - number) % 2 ^ 15).toNat
  if behind ≤ s.sent then max s.acknowledged (s.sent - behind) else s.acknowledged

def acknowledgedBy (s : Session K) (frame : List UInt8) : Session K :=
  { s with
    client := { s.client with remoteReceiveSequence := iec104ReceiveSequence frame }
    acknowledged := s.acknowledge (iec104ReceiveSequence frame) }

def newest {α : Type} (limit : Nat) (values : List α) : List α := values.drop (values.length - limit)

end Session

def isControlType (typeId : Int) : Bool := decide (45 ≤ typeId ∧ typeId ≤ 51)

section Receive

variable {K : Type} [Field K]

def IecProtectionEvent.toValue (event : IecProtectionEvent) : IecDataValue K :=
  ⟨event.commonAddress, event.ioa, event.typeId, event.cause, event.eventState⟩

/-- The part of `handleIec104Frame` that files what has been decoded. -/
def IecTcpClient.store (client : IecTcpClient K) (asdu : IecAsdu K) : IecTcpClient K :=
  if asdu.values ≠ [] ∧ isControlType asdu.typeId then
    { client with controlValues := Session.newest 1024 (client.controlValues ++ asdu.values) }
  else
    { client with
      bufferedValues :=
        Session.newest 4096 (client.bufferedValues ++ (asdu.values ++ asdu.protectionEvents.map (·.toValue)))
      parameterValues := Session.newest 1024 (client.parameterValues ++ asdu.parameters)
      fileSegments := Session.newest 1024 (client.fileSegments ++ asdu.fileSegments) }

namespace Session

variable (setup : Setup K)

def storeAsdu (s : Session K) (payload : List UInt8) : Session K :=
  if payload = [] then s
  else
    match decodeAsdu setup.platform setup.config payload with
    | .error _ => s
    | .ok asdu => { s with client := s.client.store asdu }

def countReceived (s : Session K) (frame : List UInt8) : Session K :=
  { s with
    client := { s.client with
      receiveSequence := (iec104SendSequence frame + 1) % 2 ^ 15
      unacknowledgedReceived := (s.client.unacknowledgedReceived + 1) % 2 ^ 16 } }

def shouldAck (s : Session K) : Bool :=
  setup.config.sendSFrameAck && decide ((max 1 setup.config.wAck).toNat % 2 ^ 16 ≤ s.client.unacknowledgedReceived)

def resetAck (s : Session K) : Session K := { s with client := { s.client with unacknowledgedReceived := 0 } }

def handleIFrame (s : Session K) (frame : List UInt8) (replied : Bool) : Session K :=
  let counted := (s.countReceived frame).acknowledgedBy frame
  if counted.shouldAck setup then
    let (after, sent) := counted.resetAck.sendAll (buildIec104SFrame counted.client.receiveSequence) replied
    if sent then after.storeAsdu setup (iec104AsduPayload frame) else after
  else counted.storeAsdu setup (iec104AsduPayload frame)

def handleIec104Frame (s : Session K) (frame : List UInt8) (replied : Bool) : Session K :=
  if frame = iec104StartDtCon then { s with client := { s.client with iec104Started := true } }
  else if frame = iec104TestFrAct then (s.sendAll iec104TestFrCon replied).1
  else if frame = iec104TestFrCon ∨ frame = iec104StopDtCon ∨ isIec104SFrame frame then
    if isIec104SFrame frame then s.acknowledgedBy frame else s
  else if isIec104IFrame frame then s.handleIFrame setup frame replied
  else s

def receive (s : Session K) (replied : Bool) : Session K :=
  match s.inbound with
  | [] => s
  | frame :: inbound => { s with inbound }.handleIec104Frame setup frame replied

def delayedAck (s : Session K) (replied : Bool) : Session K :=
  if setup.config.sendSFrameAck && decide (0 < s.client.unacknowledgedReceived) then
    (s.resetAck.sendAll (buildIec104SFrame s.client.receiveSequence) replied).1
  else s

end Session

end Receive

def outstanding (sendSequence remoteReceiveSequence : Nat) : Nat :=
  (((sendSequence : Int) - remoteReceiveSequence) % 2 ^ 15).toNat

def windowLimit (config : IecProtocolConfig) : Nat := (max 1 config.kWindow).toNat % 2 ^ 16

namespace Session

variable {K : Type} [Field K] [LinearOrder K] [FloorRing K] (setup : Setup K)

def windowOpen (s : Session K) : Bool :=
  decide (outstanding s.client.sendSequence s.client.remoteReceiveSequence ≤ windowLimit setup.config)

def drainValues (s : Session K) (call : Call K) (rest : List (Op K)) : Session K :=
  { s with client := { s.client with bufferedValues := [] } }.proceed
    { call with answer := .values s.client.bufferedValues } rest

def takeNumber (s : Session K) (call : Call K) (command : Command K) (rest : List (Op K)) : Session K :=
  { s with client := { s.client with sendSequence := (s.client.sendSequence + 1) % 2 ^ 15 } }.proceed call
    (.build command s.client.sendSequence :: rest)

/-- What the window wait does when it looks at the state; `late` is its deadline. -/
def checkWindow (s : Session K) (call : Call K) (frame : List UInt8) (rest : List (Op K)) (late : Bool) : Session K :=
  if isIec104IFrame frame = false then s.proceed call (.send frame :: rest)
  else if s.client.connected = false then s.fail call "IEC104 link disconnected while waiting for send window"
  else if s.windowOpen setup then s.proceed call (.send frame :: rest)
  else if late then s.fail call "IEC104 send window timeout"
  else s

def sendFrame (s : Session K) (call : Call K) (frame : List UInt8) (rest : List (Op K)) (ok : Bool) : Session K :=
  let (after, sent) := s.sendAll frame ok
  if sent then after.proceed call rest else after.fail call "IEC TCP send failed"

def takeControl (s : Session K) (call : Call K) (point : IecPoint K) (cause : Int) (rest : List (Op K)) : Session K :=
  if s.client.controlValues.any fun value => controlConfirmationMatches point value cause then
    { s with client := { s.client with
        controlValues := s.client.controlValues.eraseP fun value => controlConfirmationMatches point value cause } }.proceed
      call rest
  else s

def takeParameter (s : Session K) (call : Call K) (ioa typeId : Int) (causes : List Int) (keep : Bool)
    (rest : List (Op K)) : Session K :=
  match causes.head?.bind fun cause => s.client.parameterValues.find? (·.matches ioa typeId cause) with
  | none => s
  | some value =>
    { s with client := { s.client with
        parameterValues := s.client.parameterValues.eraseP fun other =>
          other.matches ioa typeId (causes.headD 0) } }.proceed
      (if keep then { call with answer := .parameter value } else call) rest

def takeFiles (s : Session K) (call : Call K) (nameOfFile : Int) (rest : List (Op K)) (late : Bool) : Session K :=
  let (segments, left) := takeSegments nameOfFile s.client.fileSegments
  if segments = [] ∧ late = false then s
  else
    { s with client := { s.client with fileSegments := left } }.proceed
      { call with answer := .segments segments } rest

def ensureConnected (s : Session K) (call : Call K) (rest : List (Op K)) (fault : Option String) : Session K :=
  if s.client.connected then s.proceed call rest
  else
    match fault with
    | none => s.opened.proceed call rest
    | some message => s.fail call message

/-- The calling thread takes its next step; in a wait it looks whether it is over. -/
def runOp (s : Session K) (call : Call K) (op : Op K) (rest : List (Op K)) (fault : Option String) : Session K :=
  match op with
  | .connect => s.ensureConnected call rest fault
  | .start => if s.client.iec104Started then s.proceed call rest
    else s.sendFrame call iec104StartDtAct (.awaitStart :: rest) fault.isNone
  | .awaitStart => if s.client.iec104Started then s.proceed call rest else s
  | .number command => s.takeNumber call command rest
  | .build command sendSequence =>
    match command.build setup.platform setup.config sendSequence s.client.receiveSequence with
    | .error message => s.fail call message
    | .ok frame => s.proceed call (.window frame :: rest)
  | .window frame => s.checkWindow setup call frame rest false
  | .send frame => s.sendFrame call frame rest fault.isNone
  | .awaitControl point cause _ => s.takeControl call point cause rest
  | .awaitParameter ioa typeId causes keep _ => s.takeParameter call ioa typeId causes keep rest
  | .awaitFiles nameOfFile => s.takeFiles call nameOfFile rest false
  | .awaitValues =>
    if setup.config.backgroundReceive ∧ 0 < setup.config.pollTimeoutMs ∧ s.client.bufferedValues = [] then s
    else s.drainValues call rest

/-- A `wait_for` looks at its condition once more; the loops over confirmations end without a last look. -/
def expireOp (s : Session K) (call : Call K) (op : Op K) (rest : List (Op K)) : Session K :=
  match op with
  | .awaitStart =>
    if s.client.iec104Started then s.proceed call rest else s.fail call "IEC104 STARTDT confirmation timeout"
  | .window frame => s.checkWindow setup call frame rest true
  | .awaitControl _ _ message => s.fail call message
  | .awaitParameter ioa typeId (_ :: cause :: causes) keep message =>
    s.proceed call (.awaitParameter ioa typeId (cause :: causes) keep message :: rest)
  | .awaitParameter _ _ _ _ message => s.fail call message
  | .awaitFiles nameOfFile => s.takeFiles call nameOfFile rest true
  | .awaitValues => s.drainValues call rest
  | _ => s

def begin (s : Session K) (request : Request K) : Session K :=
  match s.caller with
  | some _ => s
  | none =>
    match refusal request with
    | some message => { s with returned := s.returned ++ [(request, .failed message)] }
    | none => { s with caller := some ⟨request, .connect :: .start :: requestOps setup.config request, .ok⟩ }

def withCaller (s : Session K) (run : Call K → Op K → List (Op K) → Session K) : Session K :=
  match s.caller with
  | none => s
  | some call =>
    match call.ops with
    | [] => s
    | op :: rest => run call op rest

def step (s : Session K) : Event K → Session K
  | .begin request => s.begin setup request
  | .advance fault => s.withCaller fun call op rest => s.runOp setup call op rest fault
  | .expire => s.withCaller fun call op rest => s.expireOp setup call op rest
  | .peerSends frame =>
    if s.client.connected then { s with inbound := s.inbound ++ [frame], answers := s.answers ++ [frame] } else s
  | .receive replied => s.receive setup replied
  | .breakLink => s.disconnect
  | .delayedAck replied => s.delayedAck setup replied
  | .testLink replied => (s.sendAll iec104TestFrAct replied).1

end Session

end EdgeGateway.Iec
