import EdgeGateway.GraphEms.ExecutionOrder

/-! # Bindings and links as parameters -/

namespace EdgeGateway.GraphEms

open Numerals EdgeGateway.Fallible

/-- No count of a list is kept under the key. -/
def Plain (key : StdString) : Prop := ¬ ".count".toList <:+ key

instance (key : StdString) : Decidable (Plain key) := inferInstanceAs (Decidable (¬ _))

theorem plain_ne_count {key : StdString} (h : Plain key) (start : StdString) : key ≠ start ++ ".count".toList := by
  rintro rfl
  exact h (List.suffix_append start _)

theorem plain_append (start : StdString) {name : StdString} (hLength : 6 ≤ name.length) (h : Plain name) :
    Plain (start ++ name) := by
  intro hSuffix
  exact h (List.suffix_of_suffix_length_le hSuffix (List.suffix_append start name) hLength)

theorem raiseCounts_find {key : StdString} (hPlain : Plain key) (segments : List StdString) (start : StdString)
    (params : Params) {after : Params} (h : raiseCounts segments start params = .ok after) :
    after.find key = params.find key := by
  induction segments generalizing start params with
  | nil =>
    cases h
    rfl
  | cons segment segments ih =>
    rw [raiseCounts] at h
    dsimp only at h
    split at h
    · obtain ⟨required, -, h⟩ := bind_ok_iff.mp h
      obtain ⟨current, -, h⟩ := bind_ok_iff.mp h
      rw [ih _ _ h]
      split
      · rw [Params.find_set, if_neg (plain_ne_count hPlain start)]
      · rfl
    · exact ih _ _ h

theorem materialize_find {key : StdString} (hPlain : Plain key) {params after : Params} {parameterKey value : StdString}
    (h : materializeRuntimeParameter params parameterKey value = .ok after) :
    after.find key = if key = parameterKey then some value else params.find key := by
  rw [raiseCounts_find hPlain _ _ _ h, Params.find_set]

structure DistinctPorts (ports : List GraphEmsV2Port) : Prop where
  ids : (ports.map (·.id)).Nodup
  keys : (ports.map (·.parameterKey)).Nodup

theorem addPort_ok {node : GraphEmsNodeConfig} {ports ports' : List GraphEmsV2Port} {value : JsonValue}
    (h : addPort node ports value = .ok ports') :
    ∃ port portObject, ports' = ports ++ [port] ∧ parseV2Port portObject node.id node.params = .ok port ∧
      port.id ∉ ports.map (·.id) ∧ port.parameterKey ∉ ports.map (·.parameterKey) ∧
      (port.direction = .input ∨ port.constant = none) := by
  unfold addPort at h
  simp only [bind_ok_iff, require_ok_iff, pure_ok_iff] at h
  obtain ⟨portObject, -, port, hParsed, -, hId, -, hKey, -, -, -, hConstant, rfl⟩ := h
  refine ⟨port, portObject, rfl, hParsed, by simpa using hId, by simpa using hKey, ?_⟩
  simpa using hConstant

theorem distinctPorts_of_read {value : JsonValue} {node : GraphEmsV2Node} (h : ReadAs value node) :
    DistinctPorts node.ports := by
  obtain ⟨portValues, hPorts⟩ := h.ports
  refine foldlM_keeps DistinctPorts ?_ ⟨by simp, by simp⟩ hPorts
  intro portValue ports ports' hDistinct hPort
  obtain ⟨port, -, rfl, -, hId, hKey, -⟩ := addPort_ok hPort
  exact ⟨nodup_map_snoc hDistinct.ids hId, nodup_map_snoc hDistinct.keys hKey⟩

section Links

def JoinsAs (value : JsonValue) (a p b q : StdString) : Prop :=
  LinkEnds value a b ∧ ∃ link, value = .object link ∧ JoinsPorts link p q

def HasIndex (nodes : List GraphEmsV2Node) (a p : StdString) (index : UInt32) : Prop :=
  ∃ node ∈ nodes, node.runtime.id = a ∧ ∃ port ∈ node.ports, port.id = p ∧ port.index = some index

def Carries (nodes : List GraphEmsV2Node) (b q : StdString) (index : UInt32) : Prop :=
  ∀ node ∈ nodes, node.runtime.id = b → ∀ port ∈ node.ports, port.id = q →
    port.constant = none ∧ (∀ bound, port.index = some bound → bound = index) ∧
      (Plain port.parameterKey → node.runtime.params.find port.parameterKey = some (indexText index))

structure Joined (nodes : List GraphEmsV2Node) (passed : List JsonValue) (linking : Linking) : Prop where
  outlined : outlines linking.nodes = outlines nodes
  linked : ∀ key ∈ linking.linkedInputs, ∃ index, Carries linking.nodes key.1 key.2 index
  drawn : ∀ value ∈ passed, ∀ a p b q, JoinsAs value a p b q →
    (b, q) ∈ linking.linkedInputs ∧ ∃ index, HasIndex nodes a p index ∧ Carries linking.nodes b q index

variable {nodes : List GraphEmsV2Node}

theorem mem_setParams {id : StdString} {params : Params} {node : GraphEmsV2Node}
    (h : node ∈ setParams nodes id params) :
    ∃ before ∈ nodes, node.outline = before.outline ∧
      ((node = before ∧ before.runtime.id ≠ id) ∨ (before.runtime.id = id ∧ node.runtime.params = params)) := by
  obtain ⟨before, hBefore, rfl⟩ := List.mem_map.mp h
  refine ⟨before, hBefore, ?_⟩
  split
  · rename_i hId
    exact ⟨rfl, .inr ⟨hId, rfl⟩⟩
  · rename_i hId
    exact ⟨rfl, .inl ⟨rfl, hId⟩⟩

variable {linking : Linking} {source target : GraphEmsV2Node} {sourcePort targetPort : GraphEmsV2Port}
  {index : UInt32} {params : Params}

theorem Carries.after_link (hNodup : (linking.nodes.map (·.runtime.id)).Nodup)
    (hDistinct : ∀ node ∈ linking.nodes, DistinctPorts node.ports) (hTarget : target ∈ linking.nodes)
    (hConnects : Connects linking source target sourcePort targetPort index params) {b q : StdString} {other : UInt32}
    (hOther : (b, q) ≠ (target.runtime.id, targetPort.id)) (h : Carries linking.nodes b q other) :
    Carries (setParams linking.nodes target.runtime.id params) b q other := by
  intro node hNode hId port hPort hPortId
  obtain ⟨before, hBefore, hOutline, ⟨rfl, -⟩ | ⟨hSame, hParams⟩⟩ := mem_setParams hNode
  · exact h node hBefore hId port hPort hPortId
  · obtain rfl := List.inj_on_of_nodup_map hNodup hBefore hTarget hSame
    have hIds : node.runtime.id = before.runtime.id := congrArg (·.runtime.id) hOutline
    have hPorts : node.ports = before.ports := congrArg (·.ports) hOutline
    rw [hPorts] at hPort
    obtain ⟨hConstant, hIndex, hHeld⟩ := h before hBefore (hIds.symm.trans hId) port hPort hPortId
    refine ⟨hConstant, hIndex, fun hPlain => ?_⟩
    have hKey : port.parameterKey ≠ targetPort.parameterKey := by
      intro hKey
      have hSamePort := List.inj_on_of_nodup_map (hDistinct before hBefore).keys hPort hConnects.target_mem hKey
      exact hOther (by rw [← hId, hIds, ← hPortId, hSamePort])
    rw [hParams, materialize_find hPlain hConnects.params, if_neg hKey]
    exact hHeld hPlain

theorem carries_of_link (hNodup : (linking.nodes.map (·.runtime.id)).Nodup)
    (hDistinct : ∀ node ∈ linking.nodes, DistinctPorts node.ports) (hTarget : target ∈ linking.nodes)
    (hConnects : Connects linking source target sourcePort targetPort index params) :
    Carries (setParams linking.nodes target.runtime.id params) target.runtime.id targetPort.id index := by
  intro node hNode hId port hPort hPortId
  obtain ⟨before, hBefore, hOutline, ⟨rfl, hNe⟩ | ⟨hSame, hParams⟩⟩ := mem_setParams hNode
  · exact absurd hId hNe
  · obtain rfl := List.inj_on_of_nodup_map hNodup hBefore hTarget hSame
    have hPorts : node.ports = before.ports := congrArg (·.ports) hOutline
    rw [hPorts] at hPort
    obtain rfl := List.inj_on_of_nodup_map (hDistinct before hBefore).ids hPort hConnects.target_mem hPortId
    refine ⟨hConnects.no_constant, hConnects.target_index, fun hPlain => ?_⟩
    rw [hParams, materialize_find hPlain hConnects.params, if_pos rfl]

theorem JoinsAs.unique {value : JsonValue} {a p b q a' b' : StdString} {link : JsonObject} {p' q' : StdString}
    (h : JoinsAs value a p b q) (hEnds : LinkEnds value a' b') (hValue : value = .object link)
    (hJoins : JoinsPorts link p' q') : a = a' ∧ p = p' ∧ b = b' ∧ q = q' := by
  obtain ⟨hDrawn, link', hValue', hJoins'⟩ := h
  obtain ⟨rfl, rfl⟩ := hDrawn.unique hEnds
  rw [hValue] at hValue'
  cases hValue'
  exact ⟨rfl, Except.ok.inj (hJoins'.source.symm.trans hJoins.source), rfl,
    Except.ok.inj (hJoins'.target.symm.trans hJoins.target)⟩

theorem joined_step (hNodup : (nodes.map (·.runtime.id)).Nodup) (hDistinct : ∀ node ∈ nodes, DistinctPorts node.ports)
    {preserve : Bool} (passed : List JsonValue) (value : JsonValue) (linking next : Linking)
    (hJoined : Joined nodes passed linking) (h : addLink preserve linking value = .ok next) :
    Joined nodes (passed ++ [value]) next := by
  obtain ⟨link, source, target, hValue, hEnds, hSource, hTarget, -, hOutcome⟩ := addLink_cases h
  have hOutlined : outlines next.nodes = outlines nodes := hOutcome.outlines_eq.trans hJoined.outlined
  have hNodup' : (linking.nodes.map (·.runtime.id)).Nodup := outlines_ids hJoined.outlined ▸ hNodup
  have hDistinct' : ∀ node ∈ linking.nodes, DistinctPorts node.ports := by
    intro node hNode
    obtain ⟨other, hOther, hSame⟩ := exists_of_outlines hJoined.outlined hNode
    have hPorts : other.ports = node.ports := congrArg (·.ports) hSame
    exact hPorts ▸ hDistinct other hOther
  cases hOutcome with
  | dependency linkIds hKind hNext =>
    obtain ⟨hNodes, hInputs⟩ := addExecutionEdge_nodes { linking with linkIds := linkIds } source target
    rw [← hNext] at hNodes hInputs
    refine ⟨hOutlined, ?_, ?_⟩
    · rw [hNodes, hInputs]
      exact hJoined.linked
    · rw [hNodes, hInputs]
      intro other hOther a p b q hDrawn
      obtain hOld | hNew := List.mem_append.mp hOther
      · exact hJoined.drawn other hOld a p b q hDrawn
      · obtain rfl := List.mem_singleton.mp hNew
        obtain ⟨-, link', hValue', hJoins⟩ := hDrawn
        rw [hValue] at hValue'
        cases hValue'
        exact absurd hJoins (hKind p q)
  | data linkIds loadWarnings sourcePort targetPort index params hJoins hConnects hNext =>
    obtain ⟨hNodes, hInputs⟩ := addExecutionEdge_nodes
      { linking with
        nodes := setParams linking.nodes target.runtime.id params
        linkIds := linkIds
        linkedInputs := linking.linkedInputs ++ [(target.runtime.id, targetPort.id)]
        loadWarnings := loadWarnings } source target
    rw [← hNext] at hNodes hInputs
    have hKept : ∀ key ∈ linking.linkedInputs, ∀ other, Carries linking.nodes key.1 key.2 other →
        Carries next.nodes key.1 key.2 other := by
      intro key hKey other hCarries
      rw [hNodes]
      refine hCarries.after_link hNodup' hDistinct' hTarget hConnects ?_
      intro hSame
      exact hConnects.unlinked (hSame ▸ hKey)
    have hNew : Carries next.nodes target.runtime.id targetPort.id index := by
      rw [hNodes]
      exact carries_of_link hNodup' hDistinct' hTarget hConnects
    refine ⟨hOutlined, ?_, ?_⟩
    · rw [hInputs]
      intro key hKey
      obtain hOld | hLast := List.mem_append.mp hKey
      · obtain ⟨other, hCarries⟩ := hJoined.linked key hOld
        exact ⟨other, hKept key hOld other hCarries⟩
      · rw [List.mem_singleton.mp hLast]
        exact ⟨index, hNew⟩
    · rw [hInputs]
      intro other hOther a p b q hDrawn
      obtain hOld | hLast := List.mem_append.mp hOther
      · obtain ⟨hLinked, found, hFound, hCarries⟩ := hJoined.drawn other hOld a p b q hDrawn
        exact ⟨List.mem_append_left _ hLinked, found, hFound, hKept (b, q) hLinked found hCarries⟩
      · obtain rfl := List.mem_singleton.mp hLast
        obtain ⟨rfl, rfl, rfl, rfl⟩ := hDrawn.unique hEnds hValue hJoins
        refine ⟨List.mem_append_right _ (List.mem_singleton.mpr rfl), index, ?_, hNew⟩
        obtain ⟨read, hRead, hSame⟩ := exists_of_outlines hJoined.outlined hSource
        have hPorts : read.ports = source.ports := congrArg (·.ports) hSame
        exact ⟨read, hRead, congrArg (·.runtime.id) hSame, sourcePort, hPorts ▸ hConnects.source_mem, rfl,
          hConnects.source_index⟩

end Links

section Inputs

def GraphEmsV2Port.boundText (port : GraphEmsV2Port) : Option StdString :=
  match port.constant with
  | some constant => some constant
  | none => port.index.map indexText

variable {linkedInputs : List PortKey} {node : GraphEmsV2Node}

theorem bindInput_find {params after : Params} {port : GraphEmsV2Port}
    (h : bindInput linkedInputs node params port = .ok after) {key : StdString} (hPlain : Plain key) :
    after.find key = if port.direction = .input ∧ (node.runtime.id, port.id) ∉ linkedInputs ∧ key = port.parameterKey then
      (match port.boundText with
        | some text => some text
        | none => params.find key)
      else params.find key := by
  unfold bindInput at h
  split at h
  · rename_i hSkipped
    cases h
    rw [if_neg]
    rintro ⟨hInput, hUnlinked, -⟩
    exact hSkipped.elim (fun hNot => hNot hInput) hUnlinked
  · rename_i hTaken
    obtain ⟨hInput, hUnlinked⟩ : port.direction = .input ∧ (node.runtime.id, port.id) ∉ linkedInputs := by
      simpa using hTaken
    simp only [hInput, hUnlinked, not_false_eq_true, true_and]
    unfold GraphEmsV2Port.boundText
    cases hConstant : port.constant with
    | some constant =>
      rw [hConstant] at h
      exact materialize_find hPlain h
    | none =>
      cases hIndex : port.index with
      | some index =>
        rw [hConstant, hIndex] at h
        exact materialize_find hPlain h
      | none =>
        simp only [hConstant, hIndex, bind_ok_iff, pure_ok_iff] at h
        obtain ⟨-, -, -, -, rfl⟩ := h
        exact (ite_self _).symm

/-- Linked inputs keep what the link brought, the others hold what they are bound to. -/
theorem bindInputs_find {bound : GraphEmsV2Node} (h : bindInputs linkedInputs node = .ok bound)
    (hDistinct : DistinctPorts node.ports) {port : GraphEmsV2Port} (hPort : port ∈ node.ports)
    (hInput : port.direction = .input) (hPlain : Plain port.parameterKey) :
    ((node.runtime.id, port.id) ∈ linkedInputs →
      bound.runtime.params.find port.parameterKey = node.runtime.params.find port.parameterKey) ∧
    ((node.runtime.id, port.id) ∉ linkedInputs → ∀ text, port.boundText = some text →
      bound.runtime.params.find port.parameterKey = some text) := by
  obtain ⟨params, hParams, hBound⟩ := bind_ok_iff.mp h
  rw [pure_ok_iff] at hBound
  subst hBound
  -- the port is passed once, and no other port has its key
  have hRun := foldlM_rule (fun (passed : List GraphEmsV2Port) (after : Params) =>
    (∀ other ∈ passed, other.parameterKey = port.parameterKey → other = port) →
      (((node.runtime.id, port.id) ∈ linkedInputs →
        after.find port.parameterKey = node.runtime.params.find port.parameterKey) ∧
      (port ∈ passed → (node.runtime.id, port.id) ∉ linkedInputs → ∀ text, port.boundText = some text →
        after.find port.parameterKey = some text))) ?_ ?_ hParams
  · obtain ⟨hLinked, hUnlinked⟩ := hRun fun other hOther hKey =>
      List.inj_on_of_nodup_map hDistinct.keys hOther hPort hKey
    exact ⟨hLinked, hUnlinked hPort⟩
  · intro passed other before after hPassed hOther hKeys
    obtain ⟨hLinked, hUnlinked⟩ := hPassed fun third hThird => hKeys third (List.mem_append_left _ hThird)
    have hSame := hKeys other (List.mem_append_right _ (List.mem_singleton.mpr rfl))
    rw [bindInput_find hOther hPlain]
    constructor
    · intro hMem
      rw [if_neg]
      · exact hLinked hMem
      · rintro ⟨-, hNot, hKey⟩
        exact hNot (hSame hKey.symm ▸ hMem)
    · intro hMem hNot text hText
      by_cases hKey : other.parameterKey = port.parameterKey
      · obtain rfl := hSame hKey
        rw [if_pos ⟨hInput, hNot, rfl⟩, hText]
      · rw [if_neg fun hAll => hKey hAll.2.2.symm]
        refine hUnlinked ?_ hNot text hText
        obtain hOld | hLast := List.mem_append.mp hMem
        · exact hOld
        · exact absurd (congrArg (·.parameterKey) (List.mem_singleton.mp hLast)).symm hKey
  · intro _
    exact ⟨fun _ => rfl, fun hMem => absurd hMem List.not_mem_nil⟩

end Inputs

section Meaning

inductive Meaning where
  | point (index : UInt32)
  | constant (value : JsonValue)

def Meaning.text : Meaning → StdString
  | .point index => indexText index
  | .constant value => scalarToString value

inductive Means (object : JsonObject) (stages : Stages) (node : GraphEmsV2Node) (port : GraphEmsV2Port) : Meaning → Prop where
  | linked {values : List JsonValue} {value : JsonValue} {a p : StdString} {index : UInt32}
      (hLinks : findValue object "links" = some (.array values)) (hValue : value ∈ values)
      (hJoins : JoinsAs value a p node.runtime.id port.id) (hIndex : HasIndex stages.read a p index) :
      Means object stages node port (.point index)
  | bound {index : UInt32} (hBinding : port.index = some index) : Means object stages node port (.point index)
  | constant {value : JsonValue} (hBinding : port.binding = some (.constant value)) :
      Means object stages node port (.constant value)

variable {object : JsonObject} {stages : Stages}

theorem Loaded.readAs (h : Loaded object stages) {node : GraphEmsV2Node} (hNode : node ∈ stages.read) :
    ∃ value, ReadAs value node := by
  obtain ⟨nodeValues, nodes, -, hRead, hSorted⟩ := h.reading
  rw [hSorted] at hNode
  have hMem := (List.perm_insertionSort _ nodes).mem_iff.mp hNode
  obtain ⟨entry, -, hReadAs⟩ := exists_right_of_forall₂ (readNodes_ok hRead).2.flip hMem
  exact ⟨entry.1, hReadAs⟩

theorem Loaded.distinctPorts (h : Loaded object stages) {node : GraphEmsV2Node} (hNode : node ∈ stages.read) :
    DistinctPorts node.ports := by
  obtain ⟨value, hReadAs⟩ := h.readAs hNode
  exact distinctPorts_of_read hReadAs

theorem Loaded.joined (h : Loaded object stages) :
    ∃ linkValues, findValue object "links" = some (.array linkValues) ∧ Joined stages.read linkValues stages.linking := by
  obtain ⟨owned, hOwned, linkValues, hLinks, hLinking⟩ := h.owning
  refine ⟨linkValues, hLinks, foldlM_rule (Joined stages.read)
    (joined_step h.nodup_read fun node => h.distinctPorts) ?_ hLinking⟩
  exact ⟨ownNodes_outlines hOwned, by simp, by simp⟩

theorem HasIndex.unique (h : Loaded object stages) {a p : StdString} {index other : UInt32}
    (hIndex : HasIndex stages.read a p index) (hOther : HasIndex stages.read a p other) : index = other := by
  obtain ⟨node, hNode, hId, port, hPort, hPortId, hFound⟩ := hIndex
  obtain ⟨node', hNode', hId', port', hPort', hPortId', hFound'⟩ := hOther
  obtain rfl := List.inj_on_of_nodup_map h.nodup_read hNode hNode' (hId.trans hId'.symm)
  obtain rfl := List.inj_on_of_nodup_map (h.distinctPorts hNode).ids hPort hPort' (hPortId.trans hPortId'.symm)
  exact Option.some.inj (hFound.symm.trans hFound')

theorem GraphEmsV2Port.constant_of_index {port : GraphEmsV2Port} {index : UInt32} (h : port.index = some index) :
    port.constant = none := by
  unfold GraphEmsV2Port.index at h
  unfold GraphEmsV2Port.constant
  split at h
  · rename_i hBinding
    rw [hBinding]
  · rename_i hBinding
    rw [hBinding]
  · cases h

theorem Loaded.find_meaning (h : Loaded object stages) {node : GraphEmsV2Node} (hNode : node ∈ stages.bound)
    {port : GraphEmsV2Port} (hPort : port ∈ node.ports) (hInput : port.direction = .input)
    (hPlain : Plain port.parameterKey) {meaning : Meaning} (hMeans : Means object stages node port meaning) :
    node.runtime.params.find port.parameterKey = some meaning.text := by
  obtain ⟨linkValues, hLinks, hJoined⟩ := h.joined
  obtain ⟨before, hBefore, hBinds⟩ := exists_right_of_forall₂ (mapM_ok h.binding).flip hNode
  have hOutline := bindInputs_outline hBinds
  have hId : node.runtime.id = before.runtime.id := congrArg (·.runtime.id) hOutline
  have hPorts : node.ports = before.ports := congrArg (·.ports) hOutline
  rw [hPorts] at hPort
  have hDistinct : DistinctPorts before.ports := by
    obtain ⟨read, hRead, hSame⟩ := exists_of_outlines hJoined.outlined hBefore
    have hSamePorts : read.ports = before.ports := congrArg (·.ports) hSame
    exact hSamePorts ▸ h.distinctPorts hRead
  obtain ⟨hLinked, hUnlinked⟩ := bindInputs_find hBinds hDistinct hPort hInput hPlain
  cases hMeans with
  | @linked values value a p index hFound hValue hJoins hIndex =>
    rw [hLinks] at hFound
    cases hFound
    rw [hId] at hJoins
    obtain ⟨hMem, other, hOther, hCarries⟩ := hJoined.drawn value hValue a p _ _ hJoins
    obtain rfl := hIndex.unique h hOther
    rw [hLinked hMem]
    exact (hCarries before hBefore rfl port hPort rfl).2.2 hPlain
  | @bound index hBinding =>
    by_cases hMem : (before.runtime.id, port.id) ∈ stages.linking.linkedInputs
    · obtain ⟨other, hCarries⟩ := hJoined.linked _ hMem
      obtain ⟨-, hSame, hHeld⟩ := hCarries before hBefore rfl port hPort rfl
      rw [hLinked hMem, hHeld hPlain, ← hSame index hBinding]
      rfl
    · refine hUnlinked hMem _ ?_
      rw [GraphEmsV2Port.boundText, GraphEmsV2Port.constant_of_index hBinding, hBinding]
      rfl
  | @constant value hBinding =>
    have hConstant : port.constant = some (scalarToString value) := by
      rw [GraphEmsV2Port.constant, hBinding]
    by_cases hMem : (before.runtime.id, port.id) ∈ stages.linking.linkedInputs
    · obtain ⟨other, hCarries⟩ := hJoined.linked _ hMem
      have hNone := (hCarries before hBefore rfl port hPort rfl).1
      rw [hConstant] at hNone
      cases hNone
    · refine hUnlinked hMem _ ?_
      rw [GraphEmsV2Port.boundText, hConstant]
      rfl

end Meaning

end EdgeGateway.GraphEms
