import EdgeGateway.GraphEms.LoaderSpec

/-! # The order in which the nodes of a graph run -/

namespace EdgeGateway.GraphEms

open EdgeGateway.Fallible

/-- Every round of the queue takes a node, and a loaded graph has each node once. -/
def executionOrder (config : GraphEmsConfig) : Fallible (List GraphEmsNodeConfig) :=
  if config.edges = [] then .ok config.nodes
  else
    let ids := config.nodes.map (·.id)
    let ordered := ((Graph.Queue.initial ids config.edges).drain config.edges ids.length).ordered.filterMap fun id =>
      config.nodes.find? fun node => node.id == id
    if ordered.length = config.nodes.length then .ok ordered else .error "graph contains cycle".toList

structure Validated (config : GraphEmsConfig) : Prop where
  nodup : (config.nodes.map (·.id)).Nodup
  inside : ∀ a b, (a, b) ∈ config.edges → a ∈ config.nodes.map (·.id) ∧ b ∈ config.nodes.map (·.id)
  acyclic : Graph.Acyclic config.edges
  checked : ∀ node ∈ config.nodes, ∃ type, nodeType? node.type = some type ∧
    validateGenericNode type node.params = .ok ()

theorem validateNode_ok {ids ids' : List StdString} {node : GraphEmsNodeConfig}
    (h : validateNode ids node = .ok ids') :
    ids' = ids ++ [node.id] ∧ node.id ∉ ids ∧
      ∃ type, nodeType? node.type = some type ∧ validateGenericNode type node.params = .ok () := by
  unfold validateNode at h
  simp only [bind_ok_iff, require_ok_iff] at h
  obtain ⟨-, -, -, hFresh, h⟩ := h
  cases hType : nodeType? node.type with
  | none =>
    rw [hType] at h
    cases h
  | some type =>
    simp only [hType, bind_ok_iff, pure_ok_iff] at h
    obtain ⟨⟨⟩, hGeneric, rfl⟩ := h
    exact ⟨rfl, by simpa using hFresh, type, rfl, hGeneric⟩

theorem validateNodes_ok {nodes : List GraphEmsNodeConfig} {ids : List StdString}
    (h : nodes.foldlM validateNode [] = .ok ids) :
    ids = nodes.map (·.id) ∧ ids.Nodup ∧ ∀ node ∈ nodes, ∃ type, nodeType? node.type = some type ∧
      validateGenericNode type node.params = .ok () := by
  refine foldlM_rule (fun (passed : List GraphEmsNodeConfig) (ids : List StdString) =>
    ids = passed.map (·.id) ∧ ids.Nodup ∧ ∀ node ∈ passed, ∃ type, nodeType? node.type = some type ∧
      validateGenericNode type node.params = .ok ()) ?_ ⟨rfl, List.nodup_nil, by simp⟩ h
  rintro passed node ids ids' ⟨rfl, hNodup, hChecked⟩ hNode
  obtain ⟨rfl, hFresh, hType⟩ := validateNode_ok hNode
  refine ⟨by simp, ?_, ?_⟩
  · rw [List.nodup_append_comm, List.singleton_append, List.nodup_cons]
    exact ⟨hFresh, hNodup⟩
  · intro other hOther
    obtain hOld | hNew := List.mem_append.mp hOther
    · exact hChecked other hOld
    · rw [List.mem_singleton.mp hNew]
      exact hType

theorem validateGraph_ok {order : IdOrder} {config : GraphEmsConfig} {major : StdString}
    (h : validateGraph order config major = .ok ()) : Validated config := by
  unfold validateGraph at h
  simp only [bind_ok_iff, require_ok_iff] at h
  obtain ⟨-, -, -, -, -, -, -, -, ids, hIds, -, hEdges, h⟩ := h
  obtain ⟨rfl, hNodup, hChecked⟩ := validateNodes_ok hIds
  have hInside : ∀ a b, (a, b) ∈ config.edges → a ∈ config.nodes.map (·.id) ∧ b ∈ config.nodes.map (·.id) := by
    intro a b hEdge
    simpa using List.all_eq_true.mp hEdges (a, b) hEdge
  refine ⟨hNodup, hInside, ?_, hChecked⟩
  split at h
  · rename_i visited hVisited
    refine Graph.acyclic_of_visited (fun a b hEdge => ?_) hVisited
    exact (order.perm _).mem_iff.mpr (hInside a b hEdge).1
  · cases h

theorem filterMap_find_ids {nodes : List GraphEmsNodeConfig} (h : (nodes.map (·.id)).Nodup) :
    ((nodes.map (·.id)).filterMap fun id => nodes.find? fun node => node.id == id) = nodes := by
  rw [List.filterMap_map]
  have hFind : ∀ node ∈ nodes, nodes.find? (fun other => other.id == node.id) = some node := by
    intro node hNode
    obtain ⟨found, hFound⟩ := Option.isSome_iff_exists.mp
      (List.find?_isSome.mpr (⟨node, hNode, by simp⟩ : ∃ x ∈ nodes, (x.id == node.id) = true))
    have hSame : found.id = node.id := by simpa using List.find?_some hFound
    rw [hFound, List.inj_on_of_nodup_map h (List.mem_of_find?_eq_some hFound) hNode hSame]
  calc List.filterMap _ nodes = nodes.filterMap some := List.filterMap_congr hFind
    _ = nodes := List.filterMap_some

theorem map_id_filterMap_find {nodes : List GraphEmsNodeConfig} {ids : List StdString}
    (h : ∀ id ∈ ids, id ∈ nodes.map (·.id)) :
    (ids.filterMap fun id => nodes.find? fun node => node.id == id).map (·.id) = ids := by
  induction ids with
  | nil => rfl
  | cons id ids ih =>
    obtain ⟨node, hNode, hId⟩ := List.mem_map.mp (h id List.mem_cons_self)
    obtain ⟨found, hFound⟩ := Option.isSome_iff_exists.mp
      (List.find?_isSome.mpr (⟨node, hNode, by simpa using hId⟩ : ∃ x ∈ nodes, (x.id == id) = true))
    have hSame : found.id = id := by simpa using List.find?_some hFound
    rw [List.filterMap_cons, hFound]
    simp only [List.map_cons, hSame, ih fun other hOther => h other (List.mem_cons_of_mem _ hOther)]

/-- The queue passes every node of a validated graph; without edges the nodes run as they stand. -/
theorem executionOrder_queue {config : GraphEmsConfig} (h : Validated config) (hEdges : config.edges.Nodup) :
    ∃ ordered, executionOrder config = .ok ordered ∧ ordered.Perm config.nodes ∧
      (config.edges = [] ∧ ordered = config.nodes ∨
        ordered.map (·.id) = ((Graph.Queue.initial (config.nodes.map (·.id)) config.edges).drain config.edges
          (config.nodes.map (·.id)).length).ordered) := by
  have hOrder := Graph.topologicalOrder_drain h.nodup hEdges h.inside h.acyclic
  unfold executionOrder
  split
  · rename_i hEmpty
    exact ⟨config.nodes, rfl, .refl _, .inl ⟨hEmpty, rfl⟩⟩
  · dsimp only
    have hPerm := hOrder.perm.filterMap fun id => config.nodes.find? fun node => node.id == id
    rw [filterMap_find_ids h.nodup] at hPerm
    rw [if_pos hPerm.length_eq]
    exact ⟨_, rfl, hPerm, .inr (map_id_filterMap_find fun id hId => hOrder.perm.mem_iff.mp hId)⟩

theorem executionOrder_ok {config : GraphEmsConfig} (h : Validated config) (hEdges : config.edges.Nodup) :
    ∃ ordered, executionOrder config = .ok ordered ∧ ordered.Perm config.nodes ∧
      Graph.TopologicalOrder (config.nodes.map (·.id)) config.edges (ordered.map (·.id)) := by
  obtain ⟨ordered, hOrdered, hPerm, hIds⟩ := executionOrder_queue h hEdges
  refine ⟨ordered, hOrdered, hPerm, ?_⟩
  obtain ⟨hEmpty, rfl⟩ | hIds := hIds
  · refine ⟨.refl _, h.nodup, ?_⟩
    intro a b hEdge
    rw [hEmpty] at hEdge
    cases hEdge
  · rw [hIds]
    exact Graph.topologicalOrder_drain h.nodup hEdges h.inside h.acyclic

section Documents

def ExecutableNode (object : JsonObject) (id : StdString) : Prop :=
  ∃ values, findValue object "nodes" = some (.array values) ∧ ∃ node, .object node ∈ values ∧
    stringValue node "id" [] = .ok id ∧ ∃ type, stringValue node "type" [] = .ok type ∧ type ≠ "pointInput".toList

/-- A link of the document; the loader knows data and dependency links and refuses others. -/
def DocumentLink (object : JsonObject) (a b : StdString) : Prop :=
  ∃ values, findValue object "links" = some (.array values) ∧ ∃ value ∈ values, LinkEnds value a b

def ExecutableLink (object : JsonObject) (a b : StdString) : Prop :=
  DocumentLink object a b ∧ ExecutableNode object a ∧ ExecutableNode object b

variable {object : JsonObject} {stages : Stages}

theorem Loaded.executable (h : Loaded object stages) {id : StdString} (hNode : ExecutableNode object id) :
    Executable stages.read id := by
  obtain ⟨values, hValues, nodeObject, hMem, hId, type, hType, hNe⟩ := hNode
  obtain ⟨nodeValues, nodes, hFound, hRead, hSorted⟩ := h.reading
  obtain rfl : values = nodeValues := by
    rw [hValues] at hFound
    cases hFound
    rfl
  obtain ⟨i, hi⟩ := List.getElem?_of_mem hMem
  have hEntry : (JsonValue.object nodeObject, i) ∈ values.zipIdx := by
    rw [List.mem_zipIdx_iff_getElem?]
    exact hi
  obtain ⟨node, hNode, hReadAs⟩ := exists_right_of_forall₂ (readNodes_ok hRead).2 hEntry
  obtain ⟨readObject, hObject, hReadId, hReadType, -⟩ := hReadAs.text
  cases hObject
  refine ⟨node, ?_, ?_, ?_⟩
  · rw [hSorted]
    exact (List.perm_insertionSort _ nodes).mem_iff.mpr hNode
  · exact Except.ok.inj (hReadId.symm.trans hId)
  · have hSame : node.runtime.type = type := Except.ok.inj (hReadType.symm.trans hType)
    simpa [GraphEmsV2Node.isPointInput, hSame] using hNe

theorem Loaded.link_mem_edges (h : Loaded object stages) {a b : StdString} (hLink : ExecutableLink object a b) :
    (a, b) ∈ stages.config.edges := by
  obtain ⟨⟨values, hValues, value, hMem, hEnds⟩, ha, hb⟩ := hLink
  obtain ⟨linkValues, hFound, hLinked⟩ := h.linked
  obtain rfl : values = linkValues := by
    rw [hValues] at hFound
    cases hFound
    rfl
  exact hLinked.covered value hMem a b hEnds (h.executable ha) (h.executable hb)

theorem parseExecutableV2Graph_ok {order : IdOrder} {config : GraphEmsConfig}
    (h : parseExecutableV2Graph order object = .ok config) :
    ∃ stages, Loaded object stages ∧ stages.config = config ∧ Validated config ∧ config.edges.Nodup := by
  obtain ⟨stages, hStages, h⟩ := bind_ok_iff.mp h
  obtain ⟨⟨⟩, hValid, h⟩ := bind_ok_iff.mp h
  rw [pure_ok_iff] at h
  subst h
  have hLoaded := loadStages_ok hStages
  obtain ⟨linkValues, -, hLinked⟩ := hLoaded.linked
  exact ⟨stages, hLoaded, rfl, validateGraph_ok hValid, hLinked.nodup⟩

/-- An accepted document runs every node once and behind the nodes linked to it; a cycle is not accepted. -/
theorem accepted_graph_runs_in_link_order (order : IdOrder) (object : JsonObject) :
    (∀ config, parseExecutableV2Graph order object = .ok config →
      ∃ ordered, executionOrder config = .ok ordered ∧ ordered.Perm config.nodes ∧ (ordered.map (·.id)).Nodup ∧
        ∀ a b, ExecutableLink object a b → List.Sublist [a, b] (ordered.map (·.id))) ∧
    ∀ a, Relation.TransGen (ExecutableLink object) a a →
      ∃ message, parseExecutableV2Graph order object = .error message := by
  constructor
  · intro config h
    obtain ⟨stages, hLoaded, rfl, hValid, hEdges⟩ := parseExecutableV2Graph_ok h
    obtain ⟨ordered, hOrdered, hPerm, hTopological⟩ := executionOrder_ok hValid hEdges
    exact ⟨ordered, hOrdered, hPerm, hTopological.nodup,
      fun a b hLink => hTopological.before a b (hLoaded.link_mem_edges hLink)⟩
  · intro a hCycle
    cases h : parseExecutableV2Graph order object with
    | error message => exact ⟨message, rfl⟩
    | ok config =>
      obtain ⟨stages, hLoaded, rfl, hValid, -⟩ := parseExecutableV2Graph_ok h
      have hEdges : ∀ b c, ExecutableLink object b c → Graph.Leads stages.config.edges b c :=
        fun b c hLink => hLoaded.link_mem_edges hLink
      exact absurd (Relation.TransGen.mono hEdges _ _ hCycle) (hValid.acyclic a)

end Documents

namespace Written

def member (key : String) (value : JsonValue) : StdString × JsonValue := (key.toList, value)

def text (value : String) : JsonValue := .string value.toList

def whole (n : Nat) : JsonValue := .number ((Numerals.nearest false n 1).getD 0)

def port (id direction runtimePath : String) (binding : JsonObject) : JsonValue :=
  .object [member "id" (text id), member "direction" (text direction), member "runtimePath" (text runtimePath),
    member "binding" (.object binding)]

def bindPoint (index : Nat) : JsonObject := [member "kind" (text "point"), member "index" (whole index)]

def node (id type : String) (order : Nat) (parameters : JsonObject) (ports : List JsonValue) : JsonValue :=
  .object [member "id" (text id), member "type" (text type), member "order" (whole order),
    member "parameters" (.object parameters), member "ports" (.array ports)]

def dependency (id source target : String) : JsonValue :=
  .object [member "id" (text id), member "kind" (text "dependency"), member "fromNodeId" (text source),
    member "toNodeId" (text target)]

def document (preserve : Bool) (nodes links : List JsonValue) : JsonObject :=
  [member "graphCode" (text "G1"),
    member "compile" (.object [member "maxNodes" (whole 16), member "maxEdges" (whole 16),
      member "virtualIndexStart" (whole 1), member "virtualIndexEnd" (whole 99),
      member "preserveImportedBehavior" (.bool preserve)]),
    member "nodes" (.array nodes), member "links" (.array links)]

def clock (id : String) (order index : Nat) : JsonValue :=
  node id "timeSource" order [] [port "out" "output" "/outputIndex" (bindPoint index)]

end Written

def IdOrder.asGiven : IdOrder where
  arrange := id
  perm := fun _ => .refl _

theorem loaded_of_checks {object : JsonObject} {β : Type} {f : Stages → β} {b : β}
    (hChecked : ((loadStages object).bind fun stages => validateGraph .asGiven stages.config ['2']) = .ok ())
    (hValue : (loadStages object).map f = .ok b) :
    ∃ stages, loadStages object = .ok stages ∧ parseExecutableV2Graph .asGiven object = .ok stages.config ∧
      f stages = b := by
  obtain ⟨stages, hStages, hValid⟩ := bind_ok_iff.mp hChecked
  refine ⟨stages, hStages, ?_, ?_⟩
  · rw [parseExecutableV2Graph, hStages]
    change (validateGraph .asGiven stages.config ['2'] >>= fun _ => pure stages.config) = _
    rw [hValid]
    rfl
  · rw [hStages] at hValue
    exact Except.ok.inj hValue

end EdgeGateway.GraphEms
