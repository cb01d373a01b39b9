import EdgeGateway.Foundation.Fallible
import EdgeGateway.GraphEms.Loader

/-! # What loading keeps -/

namespace EdgeGateway.GraphEms

open Numerals QuotedText EdgeGateway.Fallible

theorem require_ok_iff {condition : Bool} {message : StdString} {u : Unit} :
    require condition message = .ok u ↔ condition = true := by
  cases condition with
  | false => simp [require]
  | true => simp [require]

theorem nodup_map_snoc {α β : Type} {f : α → β} {l : List α} {a : α} (h : (l.map f).Nodup) (ha : f a ∉ l.map f) :
    ((l ++ [a]).map f).Nodup := by
  rw [List.map_append, List.map_singleton, List.nodup_append_comm, List.singleton_append, List.nodup_cons]
  exact ⟨ha, h⟩

def GraphEmsV2Node.outline (node : GraphEmsV2Node) : GraphEmsV2Node :=
  { node with runtime := { node.runtime with params := [] } }

def outlines (nodes : List GraphEmsV2Node) : List GraphEmsV2Node := nodes.map GraphEmsV2Node.outline

def Executable (nodes : List GraphEmsV2Node) (id : StdString) : Prop :=
  ∃ node ∈ nodes, node.runtime.id = id ∧ node.isPointInput = false

section Outlines

variable {nodes nodes' : List GraphEmsV2Node}

theorem outlines_ids (h : outlines nodes' = outlines nodes) :
    nodes'.map (·.runtime.id) = nodes.map (·.runtime.id) := by
  have hIds : ∀ list : List GraphEmsV2Node, list.map (·.runtime.id) = (outlines list).map (·.runtime.id) := by
    intro list
    simp [outlines, GraphEmsV2Node.outline]
  rw [hIds, hIds nodes, h]

theorem exists_of_outlines (h : outlines nodes' = outlines nodes) {node : GraphEmsV2Node} (hNode : node ∈ nodes') :
    ∃ other ∈ nodes, other.outline = node.outline := by
  have hMem : node.outline ∈ outlines nodes := h ▸ List.mem_map_of_mem hNode
  exact List.mem_map.mp hMem

theorem executable_of_outlines (h : outlines nodes' = outlines nodes) {id : StdString} :
    Executable nodes' id ↔ Executable nodes id := by
  have hOne : ∀ {nodes nodes' : List GraphEmsV2Node}, outlines nodes' = outlines nodes →
      Executable nodes' id → Executable nodes id := by
    rintro nodes nodes' h ⟨node, hNode, hId, hType⟩
    obtain ⟨other, hOther, hSame⟩ := exists_of_outlines h hNode
    refine ⟨other, hOther, ?_, ?_⟩
    · exact (congrArg (·.runtime.id) hSame).trans hId
    · exact (congrArg GraphEmsV2Node.isPointInput hSame).trans hType
  exact ⟨hOne h, hOne h.symm⟩

theorem setParams_outlines (nodes : List GraphEmsV2Node) (id : StdString) (params : Params) :
    outlines (setParams nodes id params) = outlines nodes := by
  unfold outlines setParams
  rw [List.map_map]
  apply List.map_congr_left
  intro node _
  simp only [Function.comp]
  split <;> rfl

end Outlines

section Owning

variable {compile : Compile}

theorem ownNode_ok {state state' : Ownership × List GraphEmsV2Node} {node : GraphEmsV2Node}
    (h : ownNode compile state node = .ok state') :
    ∃ params, node.ports.foldlM (ownPort compile node) (state.1, node.runtime.params) = .ok (state'.1, params) ∧
      state'.2 = state.2 ++ [{ node with runtime := { node.runtime with params := params } }] := by
  obtain ⟨owned, hPorts, hNode⟩ := bind_ok_iff.mp h
  rw [pure_ok_iff] at hNode
  rw [← hNode]
  exact ⟨owned.2, hPorts, rfl⟩

theorem ownNodes_outlines {nodes : List GraphEmsV2Node} {owned : Ownership × List GraphEmsV2Node}
    (h : ownNodes compile nodes = .ok owned) : outlines owned.2 = outlines nodes := by
  refine foldlM_rule (fun passed (state : Ownership × List GraphEmsV2Node) => outlines state.2 = outlines passed)
    ?_ rfl h
  intro passed node state state' hPassed hNode
  obtain ⟨params, -, hNodes⟩ := ownNode_ok hNode
  rw [hNodes]
  unfold outlines at hPassed ⊢
  rw [List.map_append, List.map_append, hPassed]
  rfl

end Owning

theorem mem_insertEdge {edges : List (StdString × StdString)} {edge other : StdString × StdString} :
    other ∈ insertEdge edges edge ↔ other = edge ∨ other ∈ edges := by
  unfold insertEdge
  split
  · rename_i hMem
    constructor
    · exact .inr
    · rintro (rfl | hOther)
      · exact hMem
      · exact hOther
  · exact List.mem_orderedInsert _

theorem nodup_insertEdge {edges : List (StdString × StdString)} {edge : StdString × StdString} (h : edges.Nodup) :
    (insertEdge edges edge).Nodup := by
  unfold insertEdge
  split
  · exact h
  · rename_i hMem
    exact (List.perm_orderedInsert _ edge edges).nodup_iff.mpr (List.nodup_cons.mpr ⟨hMem, h⟩)

theorem mem_executionEdges {linking : Linking} {source target : GraphEmsV2Node} {edge : StdString × StdString} :
    edge ∈ (addExecutionEdge linking source target).executionEdges ↔ edge ∈ linking.executionEdges ∨
      (source.isPointInput = false ∧ target.isPointInput = false ∧ edge = (source.runtime.id, target.runtime.id)) := by
  unfold addExecutionEdge
  split
  · rename_i hBoth
    rw [Bool.and_eq_true, Bool.not_eq_true', Bool.not_eq_true'] at hBoth
    simp only [mem_insertEdge, hBoth, true_and]
    exact or_comm
  · rename_i hNot
    constructor
    · exact .inl
    · rintro (hMem | ⟨hSource, hTarget, -⟩)
      · exact hMem
      · simp [hSource, hTarget] at hNot

theorem addExecutionEdge_nodes (linking : Linking) (source target : GraphEmsV2Node) :
    (addExecutionEdge linking source target).nodes = linking.nodes ∧
      (addExecutionEdge linking source target).linkedInputs = linking.linkedInputs := by
  unfold addExecutionEdge
  split <;> exact ⟨rfl, rfl⟩

structure Connects (linking : Linking) (source target : GraphEmsV2Node) (sourcePort targetPort : GraphEmsV2Port)
    (index : UInt32) (params : Params) : Prop where
  source_mem : sourcePort ∈ source.ports
  target_mem : targetPort ∈ target.ports
  source_output : sourcePort.direction = .output
  target_input : targetPort.direction = .input
  unlinked : (target.runtime.id, targetPort.id) ∉ linking.linkedInputs
  source_index : sourcePort.index = some index
  no_constant : targetPort.constant = none
  target_index : ∀ bound, targetPort.index = some bound → bound = index
  params : materializeRuntimeParameter target.runtime.params targetPort.parameterKey (indexText index) = .ok params

/-- A data link says which ports it joins. -/
structure JoinsPorts (link : JsonObject) (p q : StdString) : Prop where
  kind : ∃ kind, stringValue link "kind" [] = .ok kind ∧ normalizedToken kind = "data".toList
  source : stringValue link "fromPortId" [] = .ok p
  target : stringValue link "toPortId" [] = .ok q

inductive LinkOutcome (linking : Linking) (link : JsonObject) (source target : GraphEmsV2Node) (next : Linking) : Prop where
  | dependency (linkIds : List StdString) (hKind : ∀ p q, ¬ JoinsPorts link p q)
      (hNext : next = addExecutionEdge { linking with linkIds := linkIds } source target)
  | data (linkIds : List StdString) (loadWarnings : List StdString) (sourcePort targetPort : GraphEmsV2Port)
      (index : UInt32) (params : Params) (hJoins : JoinsPorts link sourcePort.id targetPort.id)
      (hConnects : Connects linking source target sourcePort targetPort index params)
      (hNext : next = addExecutionEdge
        { linking with
          nodes := setParams linking.nodes target.runtime.id params
          linkIds := linkIds
          linkedInputs := linking.linkedInputs ++ [(target.runtime.id, targetPort.id)]
          loadWarnings := loadWarnings } source target)

theorem connectPorts_ok {preserve : Bool} {linkId : StdString} {linking next : Linking}
    {source target : GraphEmsV2Node} {sourcePort targetPort : GraphEmsV2Port} (hSource : sourcePort ∈ source.ports)
    (hTarget : targetPort ∈ target.ports)
    (h : connectPorts preserve linkId linking source target sourcePort targetPort = .ok next) :
    ∃ index params loadWarnings, Connects linking source target sourcePort targetPort index params ∧
      next = addExecutionEdge
        { linking with
          nodes := setParams linking.nodes target.runtime.id params
          linkedInputs := linking.linkedInputs ++ [(target.runtime.id, targetPort.id)]
          loadWarnings := loadWarnings } source target := by
  unfold connectPorts at h
  simp only [bind_ok_iff, require_ok_iff] at h
  obtain ⟨-, hDirections, -, -, -, hUnlinked, h⟩ := h
  rw [Bool.and_eq_true, beq_iff_eq, beq_iff_eq] at hDirections
  cases hIndex : sourcePort.index with
  | none =>
    rw [hIndex] at h
    cases h
  | some index =>
    simp only [hIndex, bind_ok_iff, require_ok_iff] at h
    obtain ⟨-, hConstant, -, hBound, -, -, params, hParams, hNext⟩ := h
    rw [pure_ok_iff] at hNext
    refine ⟨index, params, _, ?_, hNext.symm⟩
    exact
      { source_mem := hSource
        target_mem := hTarget
        source_output := hDirections.1
        target_input := hDirections.2
        unlinked := by simpa using hUnlinked
        source_index := hIndex
        no_constant := by simpa using hConstant
        target_index := fun bound hSome => by simpa [hSome] using hBound
        params := hParams }

def LinkEnds (value : JsonValue) (a b : StdString) : Prop :=
  ∃ link, value = .object link ∧ stringValue link "fromNodeId" [] = .ok a ∧ stringValue link "toNodeId" [] = .ok b

theorem addLink_cases {preserve : Bool} {linking next : Linking} {value : JsonValue}
    (h : addLink preserve linking value = .ok next) :
    ∃ link source target, value = .object link ∧ LinkEnds value source.runtime.id target.runtime.id ∧
      source ∈ linking.nodes ∧ target ∈ linking.nodes ∧ source.runtime.id ≠ target.runtime.id ∧
      LinkOutcome linking link source target next := by
  unfold addLink at h
  simp only [bind_ok_iff, require_ok_iff] at h
  obtain ⟨link, hObject, linkId, -, -, -, kind, hKind, fromNodeId, hFrom, toNodeId, hTo, h⟩ := h
  have hValue : value = .object link := by
    cases value with
    | object values =>
      cases hObject
      rfl
    | null | bool _ | number _ | string _ | array _ => cases hObject
  cases hSource : findNode linking.nodes fromNodeId with
  | none =>
    rw [hSource] at h
    cases h
  | some source =>
    cases hTarget : findNode linking.nodes toNodeId with
    | none =>
      rw [hSource, hTarget] at h
      cases h
    | some target =>
      simp only [hSource, hTarget, bind_ok_iff, require_ok_iff] at h
      obtain ⟨-, hNe, h⟩ := h
      obtain rfl : source.runtime.id = fromNodeId := by simpa using List.find?_some hSource
      obtain rfl : target.runtime.id = toNodeId := by simpa using List.find?_some hTarget
      refine ⟨link, source, target, hValue, ⟨link, hValue, hFrom, hTo⟩, List.mem_of_find?_eq_some hSource,
        List.mem_of_find?_eq_some hTarget, by simpa using hNe, ?_⟩
      split at h
      · rename_i hDependency
        rw [pure_ok_iff] at h
        refine .dependency _ ?_ h.symm
        rintro p q ⟨⟨other, hOther, hData⟩, -, -⟩
        obtain rfl := Except.ok.inj (hKind.symm.trans hOther)
        rw [hDependency] at hData
        exact absurd hData (by decide)
      split at h
      · rename_i hData
        unfold connectData at h
        simp only [bind_ok_iff] at h
        obtain ⟨fromPortId, hFromPort, toPortId, hToPort, h⟩ := h
        cases hSourcePort : findPort source fromPortId with
        | none =>
          rw [hSourcePort] at h
          cases h
        | some sourcePort =>
          cases hTargetPort : findPort target toPortId with
          | none =>
            rw [hSourcePort, hTargetPort] at h
            cases h
          | some targetPort =>
            simp only [hSourcePort, hTargetPort] at h
            obtain ⟨index, params, loadWarnings, hConnects, hNext⟩ := connectPorts_ok
              (List.mem_of_find?_eq_some hSourcePort) (List.mem_of_find?_eq_some hTargetPort) h
            obtain rfl : sourcePort.id = fromPortId := by simpa using List.find?_some hSourcePort
            obtain rfl : targetPort.id = toPortId := by simpa using List.find?_some hTargetPort
            exact .data _ loadWarnings sourcePort targetPort index params ⟨⟨kind, hKind, hData⟩, hFromPort, hToPort⟩
              { hConnects with unlinked := hConnects.unlinked, params := hConnects.params } hNext
      · cases h

structure ReadAs (value : JsonValue) (node : GraphEmsV2Node) : Prop where
  text : ∃ nodeObject, value = .object nodeObject ∧ stringValue nodeObject "id" [] = .ok node.runtime.id ∧
    stringValue nodeObject "type" [] = .ok node.runtime.type ∧
    boolValue nodeObject "enabled" true = .ok node.runtime.enabled
  safe : isSafeGraphIdentifier node.runtime.id = true
  ports : ∃ portValues : List JsonValue, portValues.foldlM (addPort node.runtime) [] = .ok node.ports

theorem asObject_ok {value : JsonValue} {object : JsonObject} (h : value.asObject = .ok object) :
    value = .object object := by
  cases value with
  | object values =>
    cases h
    rfl
  | null | bool _ | number _ | string _ | array _ => cases h

theorem addNode_ok {nodes nodes' : List GraphEmsV2Node} {entry : JsonValue × Nat}
    (h : addNode nodes entry = .ok nodes') :
    ∃ node, nodes' = nodes ++ [node] ∧ ReadAs entry.1 node ∧ node.runtime.id ∉ nodes.map (·.runtime.id) := by
  unfold addNode at h
  simp only [bind_ok_iff, require_ok_iff, pure_ok_iff] at h
  obtain ⟨nodeObject, hObject, id, hId, -, hFresh, type, hType, enabled, hEnabled, order, -, params, -, portValues, -,
    ports, hPorts, rfl⟩ := h
  rw [Bool.and_eq_true, decide_eq_true_eq] at hFresh
  refine ⟨_, rfl, ?_, hFresh.2⟩
  exact
    { text := ⟨nodeObject, asObject_ok hObject, hId, hType, hEnabled⟩
      safe := hFresh.1
      ports := ⟨portValues, hPorts⟩ }

theorem readNodes_ok {values : List (JsonValue × Nat)} {nodes : List GraphEmsV2Node}
    (h : values.foldlM addNode [] = .ok nodes) :
    (nodes.map (·.runtime.id)).Nodup ∧ List.Forall₂ (fun entry node => ReadAs entry.1 node) values nodes := by
  refine foldlM_rule (fun (passed : List (JsonValue × Nat)) (nodes : List GraphEmsV2Node) =>
    (nodes.map (·.runtime.id)).Nodup ∧ List.Forall₂ (fun entry node => ReadAs entry.1 node) passed nodes)
    ?_ ⟨by simp, .nil⟩ h
  rintro passed entry nodes nodes' ⟨hNodup, hPassed⟩ hNode
  obtain ⟨node, rfl, hRead, hFresh⟩ := addNode_ok hNode
  exact ⟨nodup_map_snoc hNodup hFresh, List.rel_append hPassed (.cons hRead .nil)⟩

section Linking

variable {nodes : List GraphEmsV2Node}

structure Linked (nodes : List GraphEmsV2Node) (passed : List JsonValue) (linking : Linking) : Prop where
  outlined : outlines linking.nodes = outlines nodes
  nodup : linking.executionEdges.Nodup
  inside : ∀ e ∈ linking.executionEdges, Executable nodes e.1 ∧ Executable nodes e.2
  covered : ∀ value ∈ passed, ∀ a b, LinkEnds value a b → Executable nodes a → Executable nodes b →
    (a, b) ∈ linking.executionEdges

theorem not_pointInput_of_executable (hNodup : (nodes.map (·.runtime.id)).Nodup) {node : GraphEmsV2Node}
    (hNode : node ∈ nodes) (h : Executable nodes node.runtime.id) : node.isPointInput = false := by
  obtain ⟨other, hOther, hId, hType⟩ := h
  rw [← List.inj_on_of_nodup_map hNodup hOther hNode hId]
  exact hType

theorem LinkEnds.unique {value : JsonValue} {a b c d : StdString} (h : LinkEnds value a b) (h' : LinkEnds value c d) :
    a = c ∧ b = d := by
  obtain ⟨link, rfl, hFrom, hTo⟩ := h
  obtain ⟨link', hLink, hFrom', hTo'⟩ := h'
  cases hLink
  exact ⟨Except.ok.inj (hFrom.symm.trans hFrom'), Except.ok.inj (hTo.symm.trans hTo')⟩

theorem LinkOutcome.outlines_eq {linking next : Linking} {link : JsonObject} {source target : GraphEmsV2Node}
    (h : LinkOutcome linking link source target next) : outlines next.nodes = outlines linking.nodes := by
  cases h with
  | dependency linkIds hKind hNext =>
    rw [hNext, (addExecutionEdge_nodes _ _ _).1]
  | data linkIds loadWarnings sourcePort targetPort index params hJoins hConnects hNext =>
    rw [hNext, (addExecutionEdge_nodes _ _ _).1]
    exact setParams_outlines _ _ _

theorem LinkOutcome.edges {linking next : Linking} {link : JsonObject} {source target : GraphEmsV2Node}
    (h : LinkOutcome linking link source target next) :
    ∃ before : Linking, before.executionEdges = linking.executionEdges ∧ next = addExecutionEdge before source target := by
  cases h with
  | dependency linkIds hKind hNext =>
    refine ⟨_, ?_, hNext⟩
    rfl
  | data linkIds loadWarnings sourcePort targetPort index params hJoins hConnects hNext =>
    refine ⟨_, ?_, hNext⟩
    rfl

theorem linked_step (hNodup : (nodes.map (·.runtime.id)).Nodup) {preserve : Bool} (passed : List JsonValue)
    (value : JsonValue) (linking next : Linking) (hLinked : Linked nodes passed linking)
    (h : addLink preserve linking value = .ok next) : Linked nodes (passed ++ [value]) next := by
  obtain ⟨link, source, target, -, hEnds, hSource, hTarget, -, hOutcome⟩ := addLink_cases h
  obtain ⟨before, hEdges, rfl⟩ := hOutcome.edges
  have hOutlined : outlines (addExecutionEdge before source target).nodes = outlines nodes :=
    hOutcome.outlines_eq.trans hLinked.outlined
  have hNodup' : (linking.nodes.map (·.runtime.id)).Nodup := outlines_ids hLinked.outlined ▸ hNodup
  have hExecutable : ∀ id, Executable linking.nodes id ↔ Executable nodes id :=
    fun id => executable_of_outlines hLinked.outlined
  refine ⟨hOutlined, ?_, ?_, ?_⟩
  · unfold addExecutionEdge
    split
    · exact nodup_insertEdge (hEdges ▸ hLinked.nodup)
    · exact hEdges ▸ hLinked.nodup
  · intro e he
    obtain hOld | ⟨hFrom, hTo, rfl⟩ := mem_executionEdges.mp he
    · exact hLinked.inside e (hEdges ▸ hOld)
    · exact ⟨(hExecutable _).mp ⟨source, hSource, rfl, hFrom⟩, (hExecutable _).mp ⟨target, hTarget, rfl, hTo⟩⟩
  · intro other hOther a b hLink ha hb
    rw [mem_executionEdges, hEdges]
    obtain hOld | hNew := List.mem_append.mp hOther
    · exact .inl (hLinked.covered other hOld a b hLink ha hb)
    · obtain rfl := List.mem_singleton.mp hNew
      obtain ⟨rfl, rfl⟩ := hEnds.unique hLink
      exact .inr ⟨not_pointInput_of_executable hNodup' hSource ((hExecutable _).mpr ha),
        not_pointInput_of_executable hNodup' hTarget ((hExecutable _).mpr hb), rfl⟩

end Linking

section Loading

structure Loaded (object : JsonObject) (stages : Stages) : Prop where
  reading : ∃ nodeValues nodes, findValue object "nodes" = some (.array nodeValues) ∧
    nodeValues.zipIdx.foldlM addNode [] = .ok nodes ∧ stages.read = nodes.insertionSort fun left right => nodeLe left right
  owning : ∃ owned, ownNodes stages.compile stages.read = .ok (stages.ownership, owned) ∧
    ∃ linkValues, findValue object "links" = some (.array linkValues) ∧
      linkValues.foldlM (addLink stages.compile.preserveImportedBehavior)
        ⟨owned, [], [], [], stages.ownership.loadWarnings⟩ = .ok stages.linking
  binding : stages.linking.nodes.mapM (bindInputs stages.linking.linkedInputs) = .ok stages.bound

theorem objectArray_ok {object : JsonObject} {key : String} {message : StdString} {values : List JsonValue}
    (h : objectArray object key message = .ok values) : findValue object key = some (.array values) := by
  unfold objectArray at h
  split at h
  · rename_i hFound
    cases h
    exact hFound
  · cases h

theorem loadStages_ok {object : JsonObject} {stages : Stages} (h : loadStages object = .ok stages) :
    Loaded object stages := by
  unfold loadStages at h
  simp only [bind_ok_iff, require_ok_iff, pure_ok_iff] at h
  obtain ⟨schemaVersion, -, -, -, graphCode, -, -, -, -, -, compile, -, nodeValues, hNodes, -, -, nodes, hRead, owned,
    hOwned, linkValues, hLinks, -, -, linking, hLinking, bound, hBound, -, -, rfl⟩ := h
  exact
    { reading := ⟨nodeValues, nodes, objectArray_ok hNodes, hRead, rfl⟩
      owning := ⟨owned.2, hOwned, linkValues, objectArray_ok hLinks, hLinking⟩
      binding := hBound }

variable {object : JsonObject} {stages : Stages}

theorem Loaded.nodup_read (h : Loaded object stages) : (stages.read.map (·.runtime.id)).Nodup := by
  obtain ⟨nodeValues, nodes, -, hRead, hSorted⟩ := h.reading
  rw [hSorted]
  exact ((List.perm_insertionSort _ nodes).map _).nodup_iff.mpr (readNodes_ok hRead).1

theorem Loaded.linked (h : Loaded object stages) :
    ∃ linkValues, findValue object "links" = some (.array linkValues) ∧ Linked stages.read linkValues stages.linking := by
  obtain ⟨owned, hOwned, linkValues, hLinks, hLinking⟩ := h.owning
  refine ⟨linkValues, hLinks, foldlM_rule (Linked stages.read) (linked_step h.nodup_read) ?_ hLinking⟩
  exact ⟨ownNodes_outlines hOwned, List.nodup_nil, by simp, by simp⟩

theorem bindInputs_outline {linkedInputs : List PortKey} {node bound : GraphEmsV2Node}
    (h : bindInputs linkedInputs node = .ok bound) : bound.outline = node.outline := by
  obtain ⟨params, -, hBound⟩ := bind_ok_iff.mp h
  rw [pure_ok_iff] at hBound
  rw [← hBound]
  rfl

theorem Loaded.bound_outlines (h : Loaded object stages) : outlines stages.bound = outlines stages.read := by
  obtain ⟨linkValues, -, hLinked⟩ := h.linked
  rw [← hLinked.outlined]
  have hAll := mapM_ok h.binding
  unfold outlines
  generalize stages.linking.nodes = nodes at hAll
  generalize stages.bound = bound at hAll
  induction hAll with
  | nil => rfl
  | cons hNode _ ih => rw [List.map_cons, List.map_cons, bindInputs_outline hNode, ih]

end Loading

end EdgeGateway.GraphEms
