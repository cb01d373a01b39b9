import EdgeGateway.Foundation.Graph
import EdgeGateway.GraphEms.NodeCheck

/-! # Loading an executable graph

The nodes are sorted, their outputs and targets claimed, the links and bindings written into the
parameters, and what is left is checked.
-/

namespace EdgeGateway.GraphEms

open Numerals QuotedText

structure GraphEmsV2Node where
  runtime : GraphEmsNodeConfig
  order : Nat
  ports : List GraphEmsV2Port

def GraphEmsV2Node.isPointInput (node : GraphEmsV2Node) : Bool := node.runtime.type == "pointInput".toList

structure GraphEmsIndexClaim where
  index : UInt32
  nodeId : StdString
  portId : StdString
  kind : PortDirection
  order : Nat
deriving DecidableEq

structure GraphEmsConfig where
  schemaVersion : StdString
  graphCode : StdString
  maxNodes : Nat
  maxEdges : Nat
  preserveImportedBehavior : Bool
  nodes : List GraphEmsNodeConfig
  edges : List (StdString × StdString)
  indexClaims : List GraphEmsIndexClaim
  loadWarnings : List StdString

structure Compile where
  maxNodes : Nat
  maxEdges : Nat
  virtualIndexStart : Nat
  virtualIndexEnd : Nat
  preserveImportedBehavior : Bool

/-- The order in which a hash set of node ids is walked, which the standard leaves open. -/
structure IdOrder where
  arrange : List StdString → List StdString
  perm : ∀ ids, (arrange ids).Perm ids

def hasSchemaMajor (schemaVersion major : StdString) : Bool :=
  schemaVersion == major || (major ++ ['.']).isPrefixOf schemaVersion

/-- The visits of `validateGraph`; a path is never longer than the list of nodes. -/
def visitNode (edges : List (StdString × StdString)) (ids visited : List StdString) (id : StdString) :
    Except Graph.Refusal (List StdString) :=
  Graph.visit (Graph.outgoing edges) (ids.length + 1) [] visited id

def validateNode (ids : List StdString) (node : GraphEmsNodeConfig) : Fallible (List StdString) := do
  require (node.id != []) "graph node id is required".toList
  require (node.id ∉ ids) "duplicate graph node id".toList
  match nodeType? node.type with
  | none => throw "unknown graph node type".toList
  | some type =>
    validateGenericNode type node.params
    return ids ++ [node.id]

def validateGraph (order : IdOrder) (config : GraphEmsConfig) (expectedMajor : StdString) : Fallible Unit := do
  require (hasSchemaMajor config.schemaVersion expectedMajor)
    ("unsupported graph schemaVersion; expected major version ".toList ++ expectedMajor)
  require (decide (config.maxNodes ≠ 0 ∧ config.maxNodes ≤ 1024 ∧ config.maxEdges ≠ 0 ∧ config.maxEdges ≤ 4096))
    "graph limits exceed supported range".toList
  require (decide (config.nodes.length ≤ config.maxNodes)) "graph node count exceeds maxNodes".toList
  require (decide (config.edges.length ≤ config.maxEdges)) "graph edge count exceeds maxEdges".toList
  let ids ← config.nodes.foldlM validateNode []
  require (config.edges.all fun edge => edge.1 ∈ ids && edge.2 ∈ ids) "graph edge references unknown node".toList
  match (order.arrange ids).foldlM (visitNode config.edges ids) [] with
  | .ok _ => return
  | .error _ => throw "graph contains cycle".toList

def addPort (node : GraphEmsNodeConfig) (ports : List GraphEmsV2Port) (value : JsonValue) :
    Fallible (List GraphEmsV2Port) := do
  let port ← parseV2Port (← value.asObject) node.id node.params
  require (port.id ∉ ports.map (·.id)) ("node ".toList ++ node.id ++ " contains a duplicate port id".toList)
  require (port.parameterKey ∉ ports.map (·.parameterKey))
    ("node ".toList ++ node.id ++ " contains duplicate port runtimePath values".toList)
  require (node.type != "pointInput".toList || port.direction == .output)
    ("pointInput node ".toList ++ node.id ++ " may only expose output ports".toList)
  require (port.direction == .input || port.constant.isNone)
    ("node ".toList ++ node.id ++ " output/target port cannot bind a constant".toList)
  return ports ++ [port]

def addNode (nodes : List GraphEmsV2Node) (entry : JsonValue × Nat) : Fallible (List GraphEmsV2Node) := do
  let nodeObject ← entry.1.asObject
  let id ← stringValue nodeObject "id" []
  require (isSafeGraphIdentifier id && id ∉ nodes.map (·.runtime.id))
    "V2 graph contains an invalid or duplicate node id".toList
  let type ← stringValue nodeObject "type" []
  let enabled ← boolValue nodeObject "enabled" true
  let order ← strictNodeOrder nodeObject entry.2 ("node ".toList ++ id)
  let params ← parseV2Parameters nodeObject ("node ".toList ++ id)
  let runtime : GraphEmsNodeConfig := { id, type, enabled, params }
  let portValues ← objectArray nodeObject "ports" ("node ".toList ++ id ++ " ports array is required".toList)
  let ports ← portValues.foldlM (addPort runtime) []
  return nodes ++ [⟨runtime, order, ports⟩]

def nodeLe (left right : GraphEmsV2Node) : Bool :=
  decide (left.order < right.order) || (left.order == right.order && !textLess right.runtime.id left.runtime.id)

structure Ownership where
  producedIndexOwners : List (UInt32 × StdString)
  targetIndexes : List UInt32
  indexClaims : List GraphEmsIndexClaim
  loadWarnings : List StdString

def ownerText (node : GraphEmsV2Node) (port : GraphEmsV2Port) : StdString :=
  node.runtime.id ++ '.' :: port.id ++ " (order=".toList ++ decimal node.order ++ [')']

def produce (preserve : Bool) (node : GraphEmsV2Node) (port : GraphEmsV2Port) (index : UInt32)
    (ownership : Ownership) : Fallible Ownership :=
  match ownership.producedIndexOwners.find? fun owner => owner.1 == index with
  | none => .ok { ownership with
      producedIndexOwners := ownership.producedIndexOwners ++ [(index, ownerText node port)] }
  | some existing =>
    if !preserve then .error ("V2 graph contains duplicate executable output indexes: ".toList ++ indexText index)
    else .ok { ownership with
      loadWarnings := ownership.loadWarnings ++
        ["preserveImportedBehavior allowed duplicate executable output index ".toList ++ indexText index ++
          ": first ".toList ++ existing.2 ++ ", duplicate ".toList ++ ownerText node port ++
          "; profile misconfiguration may cause same-cycle overwrite".toList] }

def addTarget (preserve : Bool) (node : GraphEmsV2Node) (port : GraphEmsV2Port) (index : UInt32)
    (ownership : Ownership) : Fallible Ownership :=
  if index ∉ ownership.targetIndexes then .ok { ownership with targetIndexes := ownership.targetIndexes ++ [index] }
  else if !preserve then .error "V2 graph contains duplicate device target indexes".toList
  else .ok { ownership with
    loadWarnings := ownership.loadWarnings ++
      ["preserveImportedBehavior allowed duplicate device target index ".toList ++ indexText index ++ " at ".toList ++
        node.runtime.id ++ '.' :: port.id] }

def isAutomatic (port : GraphEmsV2Port) : Bool :=
  match port.binding with
  | some (.automatic _) => true
  | _ => false

def produceOutput (preserve : Bool) (node : GraphEmsV2Node) (port : GraphEmsV2Port) (index : UInt32)
    (ownership : Ownership) : Fallible Ownership :=
  if !node.isPointInput && port.direction == .output then produce preserve node port index ownership else .ok ownership

def targetDevice (preserve : Bool) (node : GraphEmsV2Node) (port : GraphEmsV2Port) (index : UInt32)
    (ownership : Ownership) : Fallible Ownership :=
  if port.direction == .target then addTarget preserve node port index ownership else .ok ownership

def claimIndex (node : GraphEmsV2Node) (port : GraphEmsV2Port) (index : UInt32) (ownership : Ownership) : Ownership :=
  if node.runtime.enabled then
    { ownership with indexClaims := ownership.indexClaims ++ [⟨index, node.runtime.id, port.id, port.direction, node.order⟩] }
  else ownership

/-- An output or target port is claimed, whatever the type of its node. -/
def ownIndex (compile : Compile) (node : GraphEmsV2Node) (port : GraphEmsV2Port) (index : UInt32)
    (ownership : Ownership) : Fallible Ownership := do
  require (!(isAutomatic port && !node.isPointInput && port.direction == .output &&
      !(compile.virtualIndexStart ≤ index.toNat && index.toNat ≤ compile.virtualIndexEnd)))
    ("node ".toList ++ node.runtime.id ++ " automatic output index is outside compile virtual range".toList)
  let produced ← produceOutput compile.preserveImportedBehavior node port index ownership
  let targeted ← targetDevice compile.preserveImportedBehavior node port index produced
  return claimIndex node port index targeted

def ownPort (compile : Compile) (node : GraphEmsV2Node) (state : Ownership × Params) (port : GraphEmsV2Port) :
    Fallible (Ownership × Params) :=
  if port.direction = .input then .ok state
  else match port.index with
    | none => .error ("node ".toList ++ node.runtime.id ++ " port ".toList ++ port.id ++
        " requires a materialized binding.index".toList)
    | some index => do
      let ownership ← ownIndex compile node port index state.1
      let params ← materializeRuntimeParameter state.2 port.parameterKey (indexText index)
      return (ownership, params)

def ownNode (compile : Compile) (state : Ownership × List GraphEmsV2Node) (node : GraphEmsV2Node) :
    Fallible (Ownership × List GraphEmsV2Node) := do
  let owned ← node.ports.foldlM (ownPort compile node) (state.1, node.runtime.params)
  return (owned.1, state.2 ++ [{ node with runtime := { node.runtime with params := owned.2 } }])

def ownNodes (compile : Compile) (nodes : List GraphEmsV2Node) : Fallible (Ownership × List GraphEmsV2Node) :=
  nodes.foldlM (ownNode compile) (⟨[], [], [], []⟩, [])

/-- Ids have no unit separator, so that the joined text of the source stands for the pair. -/
abbrev PortKey := StdString × StdString

structure Linking where
  nodes : List GraphEmsV2Node
  linkIds : List StdString
  linkedInputs : List PortKey
  executionEdges : List (StdString × StdString)
  loadWarnings : List StdString

def edgeLe (left right : StdString × StdString) : Bool :=
  textLess left.1 right.1 || (left.1 == right.1 && !textLess right.2 left.2)

def insertEdge (edges : List (StdString × StdString)) (edge : StdString × StdString) : List (StdString × StdString) :=
  if edge ∈ edges then edges else edges.orderedInsert (fun left right => edgeLe left right) edge

def addExecutionEdge (linking : Linking) (source target : GraphEmsV2Node) : Linking :=
  if !source.isPointInput && !target.isPointInput then
    { linking with executionEdges := insertEdge linking.executionEdges (source.runtime.id, target.runtime.id) }
  else linking

def findNode (nodes : List GraphEmsV2Node) (id : StdString) : Option GraphEmsV2Node :=
  nodes.find? fun node => node.runtime.id == id

def findPort (node : GraphEmsV2Node) (id : StdString) : Option GraphEmsV2Port := node.ports.find? fun port => port.id == id

def setParams (nodes : List GraphEmsV2Node) (id : StdString) (params : Params) : List GraphEmsV2Node :=
  nodes.map fun node =>
    if node.runtime.id = id then { node with runtime := { node.runtime with params := params } } else node

def weakLinkWarning (linkId : StdString) (source target : GraphEmsV2Port) : StdString :=
  "preserveImportedBehavior allowed weakly typed data link ".toList ++ linkId ++ " (".toList ++
    source.valueType.name.toList ++ ' ' :: source.unit ++ " -> ".toList ++ target.valueType.name.toList ++
    ' ' :: target.unit ++ [')']

def checkLinkedParameter (link : StdString) (params : Params) (key : StdString) (index : UInt32) : Fallible Unit :=
  match params.find key with
  | none => .ok ()
  | some text => do
    let existing ← strictIndexString text (link ++ " target parameters".toList)
    require (existing == index) (link ++ " target parameters differ from source index".toList)

def connectPorts (preserve : Bool) (linkId : StdString) (linking : Linking) (source target : GraphEmsV2Node)
    (sourcePort targetPort : GraphEmsV2Port) : Fallible Linking := do
  let link := "link ".toList ++ linkId
  require (sourcePort.direction == .output && targetPort.direction == .input)
    (link ++ " must connect output to input".toList)
  require (preserve || compatibleV2Ports sourcePort targetPort)
    (link ++ " connects incompatible port types or units".toList)
  let key : PortKey := (target.runtime.id, targetPort.id)
  require (key ∉ linking.linkedInputs)
    ("input port ".toList ++ target.runtime.id ++ '.' :: targetPort.id ++ " has multiple data links".toList)
  match sourcePort.index with
  | none => throw (link ++ " source output has no materialized index".toList)
  | some index =>
    require targetPort.constant.isNone (link ++ " target input also has a constant binding".toList)
    require (targetPort.index.all (· == index)) (link ++ " target binding.index differs from source index".toList)
    checkLinkedParameter link target.runtime.params targetPort.parameterKey index
    let params ← materializeRuntimeParameter target.runtime.params targetPort.parameterKey (indexText index)
    return addExecutionEdge
      { linking with
        nodes := setParams linking.nodes target.runtime.id params
        linkedInputs := linking.linkedInputs ++ [key]
        loadWarnings := if compatibleV2Ports sourcePort targetPort then linking.loadWarnings
          else linking.loadWarnings ++ [weakLinkWarning linkId sourcePort targetPort] } source target

def connectData (preserve : Bool) (linkId : StdString) (link : JsonObject) (linking : Linking)
    (source target : GraphEmsV2Node) : Fallible Linking := do
  let fromPortId ← stringValue link "fromPortId" []
  let toPortId ← stringValue link "toPortId" []
  match findPort source fromPortId, findPort target toPortId with
  | some sourcePort, some targetPort => connectPorts preserve linkId linking source target sourcePort targetPort
  | _, _ => throw ("link ".toList ++ linkId ++ " references an unknown port".toList)

def addLink (preserve : Bool) (linking : Linking) (value : JsonValue) : Fallible Linking := do
  let link ← value.asObject
  let linkId ← stringValue link "id" []
  require (isSafeGraphIdentifier linkId && linkId ∉ linking.linkIds)
    "V2 graph contains an invalid or duplicate link id".toList
  let kind := normalizedToken (← stringValue link "kind" [])
  let fromNodeId ← stringValue link "fromNodeId" []
  let toNodeId ← stringValue link "toNodeId" []
  match findNode linking.nodes fromNodeId, findNode linking.nodes toNodeId with
  | some source, some target =>
    require (fromNodeId != toNodeId) ("link ".toList ++ linkId ++ " cannot connect a node to itself".toList)
    let linking := { linking with linkIds := linking.linkIds ++ [linkId] }
    if kind = "dependency".toList then return addExecutionEdge linking source target
    else if kind = "data".toList then connectData preserve linkId link linking source target
    else throw ("link ".toList ++ linkId ++ " has an unsupported kind".toList)
  | _, _ => throw ("link ".toList ++ linkId ++ " references an unknown node".toList)

def bindInput (linkedInputs : List PortKey) (node : GraphEmsV2Node) (params : Params) (port : GraphEmsV2Port) :
    Fallible Params :=
  if port.direction ≠ .input ∨ (node.runtime.id, port.id) ∈ linkedInputs then .ok params
  else match port.constant, port.index with
    | some constant, _ => materializeRuntimeParameter params port.parameterKey constant
    | none, some index => materializeRuntimeParameter params port.parameterKey (indexText index)
    | none, none => do
      require (params.find port.parameterKey).isNone ("node ".toList ++ node.runtime.id ++ " port ".toList ++ port.id ++
        " has a runtime parameter value without a materialized binding or data link".toList)
      require (!port.required) ("node ".toList ++ node.runtime.id ++ " required input port ".toList ++ port.id ++
        " is unbound".toList)
      return params

def bindInputs (linkedInputs : List PortKey) (node : GraphEmsV2Node) : Fallible GraphEmsV2Node := do
  let params ← node.ports.foldlM (bindInput linkedInputs node) node.runtime.params
  return { node with runtime := { node.runtime with params := params } }

def parseCompile (object : JsonObject) : Fallible Compile :=
  match findValue object "compile" with
  | some (.object compile) => do
    let maxNodes ← strictPositiveIntegerMember compile "maxNodes" 1024 "compile".toList
    let maxEdges ← strictPositiveIntegerMember compile "maxEdges" 4096 "compile".toList
    let virtualIndexStart ← strictPositiveIntegerMember compile "virtualIndexStart" (2 ^ 32 - 1) "compile".toList
    let virtualIndexEnd ← strictPositiveIntegerMember compile "virtualIndexEnd" (2 ^ 32 - 1) "compile".toList
    let preserveImportedBehavior ← boolValue compile "preserveImportedBehavior" false
    require (decide (virtualIndexStart ≤ virtualIndexEnd))
      "compile.virtualIndexEnd must be greater than or equal to virtualIndexStart".toList
    return { maxNodes, maxEdges, virtualIndexStart, virtualIndexEnd, preserveImportedBehavior }
  | _ => .error "V2 graph compile object is required".toList

structure Stages where
  schemaVersion : StdString
  graphCode : StdString
  compile : Compile
  /-- sorted by order and id -/
  read : List GraphEmsV2Node
  ownership : Ownership
  linking : Linking
  bound : List GraphEmsV2Node

def loadStages (object : JsonObject) : Fallible Stages := do
  let schemaVersion ← stringValue object "schemaVersion" "2.0.0".toList
  require (hasSchemaMajor schemaVersion ['2']) "production GraphEms loader requires schemaVersion major 2".toList
  let graphCode ← stringValue object "graphCode" []
  require (isSafeGraphIdentifier graphCode) "V2 graphCode is required and has an invalid format".toList
  require (findValue object "edges").isNone "V2 graph must use typed links instead of legacy edges".toList
  let compile ← parseCompile object
  let nodeValues ← objectArray object "nodes" "V2 graph nodes array is required".toList
  require (decide (nodeValues.length ≤ compile.maxNodes)) "V2 source node count exceeds compile.maxNodes".toList
  let nodes ← nodeValues.zipIdx.foldlM addNode []
  let read := nodes.insertionSort fun left right => nodeLe left right
  let owned ← ownNodes compile read
  let linkValues ← objectArray object "links" "V2 graph links array is required".toList
  require (decide (linkValues.length ≤ compile.maxEdges)) "V2 source link count exceeds compile.maxEdges".toList
  let linking ← linkValues.foldlM (addLink compile.preserveImportedBehavior) ⟨owned.2, [], [], [], owned.1.loadWarnings⟩
  let bound ← linking.nodes.mapM (bindInputs linking.linkedInputs)
  require (decide (linking.executionEdges.length ≤ compile.maxEdges))
    "V2 executable edge count exceeds compile.maxEdges".toList
  return { schemaVersion, graphCode, compile, read, ownership := owned.1, linking, bound }

def Stages.config (stages : Stages) : GraphEmsConfig where
  schemaVersion := stages.schemaVersion
  graphCode := stages.graphCode
  maxNodes := stages.compile.maxNodes
  maxEdges := stages.compile.maxEdges
  preserveImportedBehavior := stages.compile.preserveImportedBehavior
  nodes := (stages.bound.filter fun node => !node.isPointInput).map (·.runtime)
  edges := stages.linking.executionEdges
  indexClaims := stages.ownership.indexClaims
  loadWarnings := stages.linking.loadWarnings

def parseExecutableV2Graph (order : IdOrder) (object : JsonObject) : Fallible GraphEmsConfig := do
  let stages ← loadStages object
  validateGraph order stages.config ['2']
  return stages.config

end EdgeGateway.GraphEms
