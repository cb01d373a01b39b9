import EdgeGateway.Foundation.Script
import EdgeGateway.Iec.Iec103Codec

/-! # The AM5SE client -/

namespace EdgeGateway.Iec

open Script

inductive LinkError where
  | responseTimeout
  | connectionClosed
  | sendFailed
  | other (message : String)
deriving DecidableEq, Repr

/-- The paths of `readFrames` and `sendAll` that disconnect first. -/
def LinkError.disconnects : LinkError → Bool
  | connectionClosed | sendFailed => true
  | _ => false

structure ComtradeFiles where
  fan : Int
  cfgPath : StdString
  cfgBytes : Nat
  datPath : StdString
  datBytes : Nat
deriving DecidableEq, Repr

inductive Operation where
  | poll
  | listDisturbanceRecords
  | pullComtradeRecording (fan : Int) (outputDirectory : StdString)
deriving DecidableEq, Repr

inductive LinkCall (K : Type) where
  | lock (operation : Operation)
  | sendDiscoveryIfDue
  | connected
  | acceptReverseConnection
  | linkInitialized
  | setLinkInitialized
  | generalInterrogationDone
  | setGeneralInterrogationDone
  | setFrameCountBit
  | nextFrameCountBit
  | exchange (sent : Iec103Request) (bytes : List UInt8)
  | progress (stage : String)
  | storeFiles (fan : Int) (outputDirectory : StdString) (cfg dat : List UInt8)
  | deliver (values : List (Iec103DataValue K))

/-- All callers of `exchange` ask for one frame. -/
def LinkAnswer {K : Type} : LinkCall K → Type
  | .connected | .linkInitialized | .generalInterrogationDone | .nextFrameCountBit => Bool
  | .exchange _ _ => List UInt8
  | .storeFiles _ _ _ _ => ComtradeFiles
  | .lock _ | .sendDiscoveryIfDue | .acceptReverseConnection | .setLinkInitialized | .setGeneralInterrogationDone
  | .setFrameCountBit | .progress _ | .deliver _ => Unit

abbrev LinkThread (K : Type) := Script (LinkCall K) LinkAnswer LinkError

section Calls

variable {K : Type}

abbrev request (op : LinkCall K) : LinkThread K (LinkAnswer op) := Script.perform op

abbrev lock (operation : Operation) : LinkThread K Unit := request (.lock operation)

abbrev sendDiscoveryIfDue : LinkThread K Unit := request .sendDiscoveryIfDue

abbrev isConnected : LinkThread K Bool := request .connected

abbrev acceptReverseConnection : LinkThread K Unit := request .acceptReverseConnection

abbrev isLinkInitialized : LinkThread K Bool := request .linkInitialized

abbrev setLinkInitialized : LinkThread K Unit := request .setLinkInitialized

abbrev isGeneralInterrogationDone : LinkThread K Bool := request .generalInterrogationDone

abbrev setGeneralInterrogationDone : LinkThread K Unit := request .setGeneralInterrogationDone

abbrev setFrameCountBit : LinkThread K Unit := request .setFrameCountBit

abbrev nextFrameCountBit : LinkThread K Bool := request .nextFrameCountBit

abbrev sendAndRead (sent : Iec103Request) (bytes : List UInt8) : LinkThread K (List UInt8) :=
  request (.exchange sent bytes)

abbrev recordingProgress (stage : String) : LinkThread K Unit := request (.progress stage)

abbrev storeFiles (fan : Int) (outputDirectory : StdString) (cfg dat : List UInt8) : LinkThread K ComtradeFiles :=
  request (.storeFiles fan outputDirectory cfg dat)

abbrev deliver (values : List (Iec103DataValue K)) : LinkThread K Unit := request (.deliver values)

end Calls

section Client

variable {K : Type} [Field K] (platform : Iec103Platform K) (config : Iec103Config)

def readable {α : Type} (result : Except String α) : LinkThread K α := Script.lift (result.mapError .other)

def exchange (sent : Iec103Request) : LinkThread K (List UInt8) := do
  let bytes ← readable (sent.build config)
  sendAndRead sent bytes

def requestClassData (dataClass : Nat) : LinkThread K (List UInt8) := do
  let frameCountBit ← nextFrameCountBit
  exchange config (.classData dataClass frameCountBit)

def decodeDataFrame (frame : List UInt8) : Except String (List (Iec103DataValue K)) :=
  if isFt12VariableFrame frame then do
    let userData ← ft12UserData frame config.linkAddressSize
    decodeIec103Data platform config userData
  else .ok []

def acknowledges (frame : List UInt8) : Bool :=
  isFt12FixedFrame frame config.linkAddressSize &&
    (ft12Control frame).toOption.any fun control => control &&& 0x0F == 0

def initializeLink : LinkThread K Unit := do
  let frame ← exchange config .resetCommunication
  if acknowledges config frame then setLinkInitialized
  else throw (.other "AM5SE IEC103 reset communication was not acknowledged")

def unlessSet (flag : Bool) (action : LinkThread K Unit) : LinkThread K Unit := if flag then pure () else action

def ensureConnected : LinkThread K Unit := do
  sendDiscoveryIfDue
  let connected ← isConnected
  unlessSet connected acceptReverseConnection
  let initialized ← isLinkInitialized
  unlessSet initialized (initializeLink config)

def endsInterrogation (frame : List UInt8) : Except String Bool :=
  if isFt12VariableFrame frame then do
    let data ← ft12UserData frame config.linkAddressSize
    let header := 1 + config.linkAddressSize
    return decide (header < data.length) && byteAt data header == 0x08
  else .ok false

def interrogationData : Nat → List (Iec103DataValue K) → LinkThread K (List (Iec103DataValue K))
  | 0, values => pure values
  | rounds + 1, values => do
    let frame ← requestClassData config 1
    let decoded ← readable (decodeDataFrame platform config frame)
    let accessDemand ← readable (ft12AccessDemand frame)
    let completed ← readable (endsInterrogation config frame)
    if completed || !accessDemand then pure (values ++ decoded)
    else interrogationData rounds (values ++ decoded)

def performGeneralInterrogation : LinkThread K (List (Iec103DataValue K)) := do
  let _ ← exchange config .generalInterrogation
  setFrameCountBit
  interrogationData platform config config.maxPollFrames []

def pollClassOne : Nat → Bool → List (Iec103DataValue K) → LinkThread K (List (Iec103DataValue K))
  | 0, _, values => pure values
  | rounds + 1, accessDemand, values =>
    if accessDemand then do
      let frame ← requestClassData config 1
      let more ← readable (decodeDataFrame platform config frame)
      let accessDemand ← readable (ft12AccessDemand frame)
      pollClassOne rounds accessDemand (values ++ more)
    else pure values

def pollClasses : LinkThread K (List (Iec103DataValue K)) := do
  let frame ← requestClassData config 2
  let values ← readable (decodeDataFrame platform config frame)
  let accessDemand ← readable (ft12AccessDemand frame)
  pollClassOne platform config config.maxPollFrames accessDemand values

def interrogate : LinkThread K (List (Iec103DataValue K)) := do
  let values ← performGeneralInterrogation platform config
  setGeneralInterrogationDone
  pure values

def poll : LinkThread K (List (Iec103DataValue K)) := do
  lock .poll
  ensureConnected config
  let interrogated ← isGeneralInterrogationDone
  if interrogated then pollClasses platform config else interrogate platform config

def directoryOf (frame : List UInt8) : Except String (List DisturbanceRecord) :=
  if isFt12VariableFrame frame then do
    let userData ← ft12UserData frame config.linkAddressSize
    decodeIec103RecordingDirectory platform config userData
  else .ok []

def readDirectory : Nat → List DisturbanceRecord → LinkThread K (List DisturbanceRecord)
  | 0, result => pure result
  | rounds + 1, result =>
    if 50 ≤ result.length then pure result
    else do
      let frame ← requestClassData config 1
      let accessDemand ← readable (ft12AccessDemand frame)
      let records ← readable (directoryOf platform config frame)
      if accessDemand then readDirectory rounds (result ++ records) else pure (result ++ records)

def listDisturbanceRecords : LinkThread K (List DisturbanceRecord) := do
  lock .listDisturbanceRecords
  ensureConnected config
  let frameCountBit ← nextFrameCountBit
  let _ ← exchange config (.recordingDirectory frameCountBit)
  let result ← readDirectory platform config config.maxPollFrames []
  pure ((result.mergeSort fun left right => left.fan ≤ right.fan).destutter fun left right => left.fan ≠ right.fan)

/-- A frame of any other type is passed over. -/
def addChunkOf (assembler : ComtradeAssembler) (frame : List UInt8) : Except String ComtradeAssembler :=
  if isFt12VariableFrame frame then do
    let userData ← ft12UserData frame config.linkAddressSize
    let header := 1 + config.linkAddressSize
    if header < userData.length ∧ byteAt userData header = 0x50 then addDecoded config assembler userData
    else .ok assembler
  else .ok assembler

def assemble : Nat → ComtradeAssembler → LinkThread K ComtradeAssembler
  | 0, assembler => pure assembler
  | rounds + 1, assembler =>
    if assembler.complete then pure assembler
    else do
      let frame ← requestClassData config 1
      let assembler ← readable (addChunkOf config assembler frame)
      assemble rounds assembler

def pullComtradeFile (fan : Int) (fileType : UInt8) : LinkThread K (List UInt8) := do
  let frameCountBit ← nextFrameCountBit
  let _ ← exchange config (.comtradeFileCall fan fileType frameCountBit)
  let assembler ← assemble config config.maxPollFrames (.new config.recordingMaxFileBytes)
  if assembler.complete then pure assembler.bytes
  else throw (.other ("IEC103 COMTRADE " ++ (if fileType = 0x51 then "CFG" else "DAT") ++
    " transfer ended without final packet"))

def pullComtradeRecording (fan : Int) (outputDirectory : StdString) : LinkThread K ComtradeFiles := do
  lock (.pullComtradeRecording fan outputDirectory)
  ensureConnected config
  recordingProgress "pulling_cfg"
  let cfg ← pullComtradeFile config fan 0x51
  recordingProgress "pulling_dat"
  let dat ← pullComtradeFile config fan 0x52
  storeFiles fan outputDirectory cfg dat

def Operation.run : Operation → LinkThread K Unit
  | poll => do
    let values ← Iec.poll platform config
    deliver values
  | listDisturbanceRecords => do
    let _ ← Iec.listDisturbanceRecords platform config
    pure ()
  | pullComtradeRecording fan outputDirectory => do
    let _ ← Iec.pullComtradeRecording config fan outputDirectory
    pure ()

end Client

/-- Four histories stand beside the client: the operation with the lock, the frames handed out, their values
    in this operation, and the values returned. -/
structure ClientState (K : Type) where
  connected : Bool := false
  linkInitialized : Bool := false
  generalInterrogationDone : Bool := false
  frameCountBit : Bool := false
  operation : Operation := .poll
  received : List (List UInt8) := []
  held : List (Iec103DataValue K) := []
  returned : List (Iec103DataValue K) := []

section Machine

variable {K : Type} [Field K] (platform : Iec103Platform K) (config : Iec103Config)

def processData (frame : List UInt8) : List (Iec103DataValue K) :=
  match decodeDataFrame platform config frame with
  | .ok values => values
  | .error _ => []

namespace ClientState

variable (s : ClientState K)

def disconnect : ClientState K :=
  { s with connected := false, linkInitialized := false, generalInterrogationDone := false }

def fail (error : LinkError) : ClientState K := if error.disconnects then s.disconnect else s

def accepted : ClientState K :=
  { s with connected := true, linkInitialized := false, generalInterrogationDone := false, frameCountBit := false }

def receive (frame : List UInt8) : ClientState K :=
  { s with received := s.received ++ [frame], held := s.held ++ processData platform config frame }

/-- Bytes that are no frame are skipped, so that nothing has come when the time is over. -/
def exchange (answer : Except LinkError (List UInt8)) : Except LinkError (List UInt8) × ClientState K :=
  match answer with
  | .error error => (.error error, s.fail error)
  | .ok frame =>
    if isFt12Frame config frame then (.ok frame, s.receive platform config frame) else (.error .responseTimeout, s)

end ClientState

def linkAct (_ : Unit) : (op : LinkCall K) → Except LinkError (LinkAnswer op) → ClientState K →
    Except LinkError (LinkAnswer op) × ClientState K
  | .lock operation, _, s => (.ok (), { s with operation, held := [] })
  | .connected, _, s => (.ok s.connected, s)
  | .acceptReverseConnection, answer, s => (answer, if answer.isOk then s.accepted else s)
  | .linkInitialized, _, s => (.ok s.linkInitialized, s)
  | .setLinkInitialized, _, s => (.ok (), { s with linkInitialized := true, frameCountBit := false })
  | .generalInterrogationDone, _, s => (.ok s.generalInterrogationDone, s)
  | .setGeneralInterrogationDone, _, s => (.ok (), { s with generalInterrogationDone := true })
  | .setFrameCountBit, _, s => (.ok (), { s with frameCountBit := true })
  | .nextFrameCountBit, _, s => (.ok (!s.frameCountBit), { s with frameCountBit := !s.frameCountBit })
  | .exchange _ _, answer, s => s.exchange platform config answer
  | .deliver values, _, s => (.ok (), { s with returned := s.returned ++ values, held := [] })
  | _, answer, s => (answer, s)

abbrev ClientPool (K : Type) := Pool Unit (LinkCall K) LinkAnswer LinkError (ClientState K)

abbrev ClientEvent (K : Type) := Pool.Event Unit (LinkCall K) LinkAnswer LinkError Operation

abbrev clientStep : ClientPool K → ClientEvent K → ClientPool K :=
  Pool.step (linkAct platform config) fun _ operation => operation.run platform config

def idleClient : ClientPool K := ⟨fun _ => .done (.ok ()), {}⟩

end Machine

end EdgeGateway.Iec
