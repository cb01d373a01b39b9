import EdgeGateway.Foundation.Run
import EdgeGateway.GraphEms.Engine
import EdgeGateway.GraphEms.Holdings

/-! # One producer for a point -/

namespace EdgeGateway.GraphEms

open Numerals EdgeGateway.Fallible

section Effects

def placeIndexes (params : Params) (places : List Place) : List UInt32 :=
  places.filterMap fun place => (place.index params).toOption

def setIndexes (node : GraphEmsNodeConfig) : List UInt32 :=
  placeIndexes node.params (((nodeType? node.type).map (setPlaces node.params)).getD [])

def targetIndexes (node : GraphEmsNodeConfig) : List UInt32 :=
  placeIndexes node.params (((nodeType? node.type).map (targetPlaces node.params)).getD [])

def stateIndexes (node : GraphEmsNodeConfig) : List UInt32 := placeIndexes node.params (nodeStatePlaces node)

inductive Effect where
  | set (node : StdString) (index : UInt32)
  | write (node : StdString) (index : UInt32)
  | restore (index : UInt32)
deriving DecidableEq

def Effect.index : Effect → UInt32
  | .set _ index | .write _ index | .restore index => index

/-- What a node does in its turn, by what it has read: the points it sets and the devices it writes to. -/
structure Turn where
  sets : List UInt32
  writes : List UInt32

/-- One `runOnce`: the points of the state file, and the turns of the nodes. -/
structure EngineCycle where
  restored : List UInt32
  turns : StdString → Turn

variable (routes : Routes) (profile : Params) (engine : GraphEmsEngine)

/-- The router takes nothing for an index it does not know. -/
def nodeEffects (node : GraphEmsNodeConfig) (turn : Turn) : List Effect :=
  (turn.sets.filter fun index => index ∈ setIndexes node && routes.routed index).map (.set node.id) ++
    (turn.writes.filter fun index => index ∈ targetIndexes node && routes.routed index).map (.write node.id)

def restoreEffects (restored : List UInt32) : List Effect :=
  (restored.filter fun index => index ∈ engine.stateIndexes && routes.routed index).map .restore

def runsNode (node : GraphEmsNodeConfig) : Bool := (shouldRunNode profile node).toOption.getD false

def cycleEffects (stateRestored : Bool) (cycle : EngineCycle) : List Effect :=
  (if stateRestored then [] else restoreEffects routes engine cycle.restored) ++
    (engine.executionOrder.filter (runsNode profile)).flatMap fun node => nodeEffects routes node (cycle.turns node.id)

/-- State is restored in the first cycle only. -/
def runEffects (cycles : List EngineCycle) : List Effect :=
  Run.trace (fun _ _ => true) (cycleEffects routes profile engine) false cycles

end Effects

structure SingleProducer (claims : List GraphEmsIndexClaim) (effects : List Effect) : Prop where
  sets : ∀ a b index, .set a index ∈ effects → .set b index ∈ effects → a = b
  writes : ∀ a b index, .write a index ∈ effects → .write b index ∈ effects → a = b
  claimed : ∀ effect ∈ effects, ∃ claim ∈ claims, claim.index = effect.index

structure Declared (routes : Routes) (node : GraphEmsV2Node) : Prop where
  outputs : ∀ index, index ∈ setIndexes node.runtime ∨ index ∈ stateIndexes node.runtime →
    routes.routed index = true → ∃ port ∈ node.ports, port.direction = .output ∧ port.index = some index
  targets : ∀ index ∈ targetIndexes node.runtime, routes.routed index = true →
    ∃ port ∈ node.ports, port.direction = .target ∧ port.index = some index

def heldBy (routes : Routes) (node : GraphEmsV2Node) (direction : PortDirection) (indexes : List UInt32) : Bool :=
  indexes.all fun index => !routes.routed index ||
    node.ports.any fun port => port.direction == direction && port.index == some index

theorem exists_port_of_heldBy {routes : Routes} {node : GraphEmsV2Node} {direction : PortDirection}
    {indexes : List UInt32} (h : heldBy routes node direction indexes = true) {index : UInt32} (hIndex : index ∈ indexes)
    (hRouted : routes.routed index = true) :
    ∃ port ∈ node.ports, port.direction = direction ∧ port.index = some index := by
  have hOne := List.all_eq_true.mp h index hIndex
  rw [hRouted, Bool.not_true, Bool.false_or] at hOne
  obtain ⟨port, hPort, hFields⟩ := List.any_eq_true.mp hOne
  rw [Bool.and_eq_true, beq_iff_eq, beq_iff_eq] at hFields
  exact ⟨port, hPort, hFields⟩

theorem declared_of_heldBy {routes : Routes} {node : GraphEmsV2Node}
    (hOutputs : heldBy routes node .output (setIndexes node.runtime ++ stateIndexes node.runtime) = true)
    (hTargets : heldBy routes node .target (targetIndexes node.runtime) = true) : Declared routes node where
  outputs _ hIndex hRouted := exists_port_of_heldBy hOutputs (List.mem_append.mpr hIndex) hRouted
  targets _ hIndex hRouted := exists_port_of_heldBy hTargets hIndex hRouted

section Grounded

variable {routes : Routes} {profile : Params} {engine : GraphEmsEngine}

def Grounded (routes : Routes) (engine : GraphEmsEngine) : Effect → Prop
  | .set id index => ∃ node ∈ engine.running, node.id = id ∧ index ∈ setIndexes node ∧ routes.routed index = true
  | .write id index => ∃ node ∈ engine.running, node.id = id ∧ index ∈ targetIndexes node ∧ routes.routed index = true
  | .restore index => ∃ node ∈ engine.running, index ∈ stateIndexes node ∧ routes.routed index = true

theorem nodeEffects_grounded {node : GraphEmsNodeConfig} (hNode : node ∈ engine.running) (turn : Turn) :
    ∀ effect ∈ nodeEffects routes node turn, Grounded routes engine effect := by
  intro effect hEffect
  obtain hSet | hWrite := List.mem_append.mp hEffect
  · obtain ⟨index, hIndex, rfl⟩ := List.mem_map.mp hSet
    have hTest := (List.mem_filter.mp hIndex).2
    rw [Bool.and_eq_true, decide_eq_true_eq] at hTest
    exact ⟨node, hNode, rfl, hTest.1, hTest.2⟩
  · obtain ⟨index, hIndex, rfl⟩ := List.mem_map.mp hWrite
    have hTest := (List.mem_filter.mp hIndex).2
    rw [Bool.and_eq_true, decide_eq_true_eq] at hTest
    exact ⟨node, hNode, rfl, hTest.1, hTest.2⟩

theorem mem_stateIndexes {node : GraphEmsNodeConfig} {indexes : List UInt32} (h : nodeStateIndexes node = .ok indexes)
    {index : UInt32} (hIndex : index ∈ indexes) : index ∈ stateIndexes node := by
  obtain ⟨place, hPlace, hRead⟩ := exists_right_of_forall₂ (mapM_ok h).flip hIndex
  refine List.mem_filterMap.mpr ⟨place, hPlace, ?_⟩
  rw [hRead]
  rfl

variable {config : GraphEmsConfig}

theorem restoreEffects_grounded (hCreated : Created routes.routed profile config engine) (restored : List UInt32) :
    ∀ effect ∈ restoreEffects routes engine restored, Grounded routes engine effect := by
  intro effect hEffect
  obtain ⟨index, hIndex, rfl⟩ := List.mem_map.mp hEffect
  have hTest := (List.mem_filter.mp hIndex).2
  rw [Bool.and_eq_true, decide_eq_true_eq] at hTest
  obtain ⟨running, hRunning, hState⟩ := bind_ok_iff.mp hCreated.state
  obtain ⟨lists, hLists, hAll⟩ := bind_ok_iff.mp hState
  rw [pure_ok_iff] at hAll
  obtain rfl := Except.ok.inj (hRunning.symm.trans hCreated.running)
  have hFlat : index ∈ lists.flatten.filter (· != 0) := hAll ▸ hTest.1
  obtain ⟨list, hList, hMem⟩ := List.mem_flatten.mp (List.mem_filter.mp hFlat).1
  obtain ⟨node, hNode, hIndexes⟩ := exists_right_of_forall₂ (mapM_ok hLists).flip hList
  exact ⟨node, hNode, mem_stateIndexes hIndexes hMem, hTest.2⟩

theorem runEffects_grounded (hCreated : Created routes.routed profile config engine)
    (hOrder : ∀ node ∈ engine.executionOrder, node ∈ config.nodes) (cycles : List EngineCycle) :
    ∀ effect ∈ runEffects routes profile engine cycles, Grounded routes engine effect := by
  refine Run.trace_invariant _ _ (fun (_ : Bool) log => ∀ effect ∈ log, Grounded routes engine effect) ?_ ?_ cycles
  · intro effect hEffect
    cases hEffect
  · intro stateRestored log cycle hLog effect hEffect
    obtain hOld | hNew := List.mem_append.mp hEffect
    · exact hLog effect hOld
    · obtain hRestored | hTurns := List.mem_append.mp hNew
      · split at hRestored
        · cases hRestored
        · exact restoreEffects_grounded hCreated cycle.restored effect hRestored
      · obtain ⟨node, hNode, hOwn⟩ := List.mem_flatMap.mp hTurns
        obtain ⟨hMem, hRuns⟩ := List.mem_filter.mp hNode
        have hShould : shouldRunNode profile node = .ok true := by
          unfold runsNode at hRuns
          cases hTest : shouldRunNode profile node with
          | error message =>
            rw [hTest] at hRuns
            cases hRuns
          | ok runs =>
            rw [hTest] at hRuns
            exact congrArg Except.ok hRuns
        refine nodeEffects_grounded ?_ (cycle.turns node.id) effect hOwn
        exact (mem_selectM hCreated.running).mpr ⟨hOrder node hMem, hShould⟩

end Grounded

section Accepted

theorem enabled_of_shouldRun {profile : Params} {node : GraphEmsNodeConfig} (h : shouldRunNode profile node = .ok true) :
    node.enabled = true := by
  unfold shouldRunNode at h
  split at h
  · rename_i hAllowed
    simp only [Bool.and_eq_true] at hAllowed
    exact hAllowed.1.1.1
  · cases h

variable {object : JsonObject} {stages : Stages}

theorem Loaded.holding (h : Loaded object stages) {node : GraphEmsV2Node} (hNode : node ∈ stages.bound)
    {port : GraphEmsV2Port} (hPort : port ∈ node.ports) (hDirection : port.direction ≠ .input) {index : UInt32}
    (hIndex : port.index = some index) :
    ∃ holding ∈ holdings stages.read, holding.node.outline = node.outline ∧ holding.port = port ∧
      holding.index = index := by
  obtain ⟨read, hRead, hSame⟩ := exists_of_outlines h.bound_outlines hNode
  have hPorts : read.ports = node.ports := congrArg (·.ports) hSame
  exact ⟨⟨read, port, index⟩, mem_holdings.mpr ⟨hRead, hPorts ▸ hPort, hDirection, hIndex⟩, hSame, rfl, rfl⟩

variable {routes : Routes} {profile : Params} {engine : GraphEmsEngine}

theorem running_node (hCreated : Created routes.routed profile stages.config engine) {node : GraphEmsNodeConfig}
    (hNode : node ∈ engine.running) :
    node.enabled = true ∧ ∃ loaded ∈ stages.bound, loaded.runtime = node ∧ loaded.isPointInput = false := by
  obtain ⟨hMem, hShould⟩ := (mem_selectM hCreated.running).mp hNode
  obtain ⟨loaded, hLoaded, rfl⟩ := List.mem_map.mp hMem
  obtain ⟨hBound, hType⟩ := List.mem_filter.mp hLoaded
  exact ⟨enabled_of_shouldRun hShould, loaded, hBound, rfl, by simpa using hType⟩

/-- A port of a node that runs is an enabled holding of the graph. -/
theorem running_holding (h : Loaded object stages) (hCreated : Created routes.routed profile stages.config engine)
    {node : GraphEmsNodeConfig} (hNode : node ∈ engine.running) {direction : PortDirection} (hKind : direction ≠ .input)
    {index : UInt32} (hHeld : ∀ loaded ∈ stages.bound, loaded.runtime = node →
      ∃ port ∈ loaded.ports, port.direction = direction ∧ port.index = some index) :
    ∃ holding ∈ holdings stages.read, holding.node.isPointInput = false ∧ holding.port.direction = direction ∧
      holding.isEnabled = true ∧ holding.node.runtime.id = node.id ∧ holding.index = index := by
  obtain ⟨hEnabled, loaded, hBound, rfl, hType⟩ := running_node hCreated hNode
  obtain ⟨port, hPort, rfl, hIndex⟩ := hHeld loaded hBound rfl
  obtain ⟨holding, hHolding, hSame, hSamePort, hSameIndex⟩ := h.holding hBound hPort hKind hIndex
  refine ⟨holding, hHolding, ?_, congrArg (·.direction) hSamePort, ?_, congrArg (·.runtime.id) hSame, hSameIndex⟩
  · have hSameType : holding.node.outline.isPointInput = loaded.outline.isPointInput :=
      congrArg GraphEmsV2Node.isPointInput hSame
    exact hSameType.trans hType
  · exact (congrArg (·.runtime.enabled) hSame).trans hEnabled

theorem produced_holding (h : Loaded object stages) (hCreated : Created routes.routed profile stages.config engine)
    (hDeclared : ∀ node ∈ stages.bound, node.runtime ∈ engine.running → Declared routes node)
    {node : GraphEmsNodeConfig} (hNode : node ∈ engine.running) {index : UInt32}
    (hIndex : index ∈ setIndexes node ∨ index ∈ stateIndexes node) (hRouted : routes.routed index = true) :
    ∃ holding ∈ holdings stages.read, holding.isProduced = true ∧ holding.isEnabled = true ∧
      holding.node.runtime.id = node.id ∧ holding.index = index := by
  obtain ⟨holding, hHolding, hType, hOutput, hRest⟩ := running_holding h hCreated hNode
    (by decide : PortDirection.output ≠ .input) fun loaded hBound hSame => by
      subst hSame
      exact (hDeclared loaded hBound hNode).outputs index hIndex hRouted
  refine ⟨holding, hHolding, ?_, hRest⟩
  rw [Holding.isProduced, hType, hOutput]
  rfl

theorem written_holding (h : Loaded object stages) (hCreated : Created routes.routed profile stages.config engine)
    (hDeclared : ∀ node ∈ stages.bound, node.runtime ∈ engine.running → Declared routes node)
    {node : GraphEmsNodeConfig} (hNode : node ∈ engine.running) {index : UInt32} (hIndex : index ∈ targetIndexes node)
    (hRouted : routes.routed index = true) :
    ∃ holding ∈ holdings stages.read, holding.isTarget = true ∧ holding.isEnabled = true ∧
      holding.node.runtime.id = node.id ∧ holding.index = index := by
  obtain ⟨holding, hHolding, -, hTarget, hRest⟩ := running_holding h hCreated hNode
    (by decide : PortDirection.target ≠ .input) fun loaded hBound hSame => by
      subst hSame
      exact (hDeclared loaded hBound hNode).targets index hIndex hRouted
  refine ⟨holding, hHolding, ?_, hRest⟩
  rw [Holding.isTarget, hTarget]
  rfl

theorem claim_of_holding (h : Loaded object stages) {holding : Holding} (hHolding : holding ∈ holdings stages.read)
    (hEnabled : holding.isEnabled = true) : ∃ claim ∈ stages.config.indexClaims, claim.index = holding.index := by
  refine ⟨holding.claim, ?_, rfl⟩
  have hClaims : stages.config.indexClaims = _ := h.owned.claims
  rw [hClaims]
  exact List.mem_map_of_mem (List.mem_filter.mpr ⟨hHolding, hEnabled⟩)

/-- In every run of a graph whose nodes hold the indexes they name, a point has one producer and is claimed. -/
theorem single_producer_of_declared (order : IdOrder) (object : JsonObject) (stages : Stages)
    (hStages : loadStages object = .ok stages) (hParsed : parseExecutableV2Graph order object = .ok stages.config)
    (hStrict : stages.config.preserveImportedBehavior = false) (routes : Routes) (profile : Params)
    (engine : GraphEmsEngine) (hEngine : createEngine routes.routed profile stages.config = .ok engine)
    (hDeclared : ∀ node ∈ stages.bound, node.runtime ∈ engine.running → Declared routes node)
    (cycles : List EngineCycle) :
    SingleProducer stages.config.indexClaims (runEffects routes profile engine cycles) := by
  have hLoaded := loadStages_ok hStages
  have hCreated := createEngine_ok hEngine
  obtain ⟨-, -, -, hValid, hEdges⟩ := parseExecutableV2Graph_ok hParsed
  have hOrder : ∀ node ∈ engine.executionOrder, node ∈ stages.config.nodes := by
    obtain ⟨ordered, hOrdered, hPerm, -⟩ := executionOrder_ok hValid hEdges
    obtain rfl := Except.ok.inj (hOrdered.symm.trans hCreated.ordered)
    exact fun node hNode => hPerm.mem_iff.mp hNode
  have hGrounded := runEffects_grounded hCreated hOrder cycles
  refine ⟨?_, ?_, ?_⟩
  · intro a b index ha hb
    obtain ⟨nodeA, hNodeA, rfl, hSetA, hRouted⟩ := hGrounded _ ha
    obtain ⟨nodeB, hNodeB, rfl, hSetB, -⟩ := hGrounded _ hb
    obtain ⟨holdingA, hHoldingA, hProducedA, -, hIdA, hIndexA⟩ :=
      produced_holding hLoaded hCreated hDeclared hNodeA (.inl hSetA) hRouted
    obtain ⟨holdingB, hHoldingB, hProducedB, -, hIdB, hIndexB⟩ :=
      produced_holding hLoaded hCreated hDeclared hNodeB (.inl hSetB) hRouted
    rw [← hIdA, ← hIdB, hLoaded.one_producer hStrict hHoldingA hHoldingB hProducedA hProducedB (hIndexA.trans hIndexB.symm)]
  · intro a b index ha hb
    obtain ⟨nodeA, hNodeA, rfl, hWriteA, hRouted⟩ := hGrounded _ ha
    obtain ⟨nodeB, hNodeB, rfl, hWriteB, -⟩ := hGrounded _ hb
    obtain ⟨holdingA, hHoldingA, hTargetA, -, hIdA, hIndexA⟩ :=
      written_holding hLoaded hCreated hDeclared hNodeA hWriteA hRouted
    obtain ⟨holdingB, hHoldingB, hTargetB, -, hIdB, hIndexB⟩ :=
      written_holding hLoaded hCreated hDeclared hNodeB hWriteB hRouted
    rw [← hIdA, ← hIdB, hLoaded.one_writer hStrict hHoldingA hHoldingB hTargetA hTargetB (hIndexA.trans hIndexB.symm)]
  · intro effect hEffect
    cases effect with
    | set id index =>
      obtain ⟨node, hNode, -, hSet, hRouted⟩ := hGrounded _ hEffect
      obtain ⟨holding, hHolding, -, hEnabled, -, rfl⟩ :=
        produced_holding hLoaded hCreated hDeclared hNode (.inl hSet) hRouted
      exact claim_of_holding hLoaded hHolding hEnabled
    | write id index =>
      obtain ⟨node, hNode, -, hWrite, hRouted⟩ := hGrounded _ hEffect
      obtain ⟨holding, hHolding, -, hEnabled, -, rfl⟩ :=
        written_holding hLoaded hCreated hDeclared hNode hWrite hRouted
      exact claim_of_holding hLoaded hHolding hEnabled
    | restore index =>
      obtain ⟨node, hNode, hState, hRouted⟩ := hGrounded _ hEffect
      obtain ⟨holding, hHolding, -, hEnabled, -, rfl⟩ :=
        produced_holding hLoaded hCreated hDeclared hNode (.inr hState) hRouted
      exact claim_of_holding hLoaded hHolding hEnabled

def twoClocks : JsonObject := Written.document false [Written.clock "a" 0 6, Written.clock "b" 1 7] []

def clockRoutes : Routes where
  routed := fun index => index == 6 || index == 7
  zero := rfl

def bothSet (a b : UInt32) : EngineCycle where
  restored := []
  turns := fun id => ⟨[if id = ['a'] then a else b], []⟩

theorem single_producer_of_declared_clocks :
    ∃ stages engine, loadStages twoClocks = .ok stages ∧
      parseExecutableV2Graph .asGiven twoClocks = .ok (Stages.config stages) ∧
      stages.config.preserveImportedBehavior = false ∧
      createEngine clockRoutes.routed [] stages.config = .ok engine ∧
      (∀ node ∈ stages.bound, node.runtime ∈ engine.running → Declared clockRoutes node) ∧
      runEffects clockRoutes [] engine [bothSet 6 7] = [.set ['a'] 6, .set ['b'] 7] ∧
      SingleProducer stages.config.indexClaims (runEffects clockRoutes [] engine [bothSet 6 7]) := by
  obtain ⟨stages, hStages, hParsed, hFacts⟩ := @loaded_of_checks twoClocks (Fallible (List Effect) × Bool × Bool)
    (fun stages => ((createEngine clockRoutes.routed [] stages.config).map fun engine =>
        runEffects clockRoutes [] engine [bothSet 6 7], stages.config.preserveImportedBehavior,
      stages.bound.all fun node =>
        heldBy clockRoutes node .output (setIndexes node.runtime ++ stateIndexes node.runtime) &&
          heldBy clockRoutes node .target (targetIndexes node.runtime)))
    (.ok [.set ['a'] 6, .set ['b'] 7], false, true) (by decide +kernel) (by decide +kernel)
  simp only [Prod.mk.injEq] at hFacts
  obtain ⟨hRun, hStrict, hHeld⟩ := hFacts
  obtain ⟨engine, hEngine, hEffects⟩ := map_ok_iff.mp hRun
  have hDeclared : ∀ node ∈ stages.bound, node.runtime ∈ engine.running → Declared clockRoutes node := by
    intro node hNode _
    have hBoth := List.all_eq_true.mp hHeld node hNode
    rw [Bool.and_eq_true] at hBoth
    exact declared_of_heldBy hBoth.1 hBoth.2
  exact ⟨stages, engine, hStages, hParsed, hStrict, hEngine, hDeclared, hEffects,
    single_producer_of_declared _ _ _ hStages hParsed hStrict _ _ _ hEngine hDeclared _⟩

def twoReserves : JsonObject :=
  Written.document false [Written.node "a" "reserveCapacity" 0 [] [], Written.node "b" "reserveCapacity" 1 [] []] []

def reserveRoutes : Routes where
  routed := fun index => index == 24
  zero := rfl

/-- The graph is accepted, both nodes set point 24, and nothing is claimed. -/
theorem default_output_set_twice :
    ∃ stages engine, loadStages twoReserves = .ok stages ∧
      parseExecutableV2Graph .asGiven twoReserves = .ok (Stages.config stages) ∧
      stages.config.preserveImportedBehavior = false ∧
      createEngine reserveRoutes.routed [] stages.config = .ok engine ∧ stages.config.indexClaims = [] ∧
      runEffects reserveRoutes [] engine [bothSet 24 24] = [.set ['a'] 24, .set ['b'] 24] ∧
      ¬ SingleProducer stages.config.indexClaims (runEffects reserveRoutes [] engine [bothSet 24 24]) := by
  obtain ⟨stages, hStages, hParsed, hFacts⟩ := @loaded_of_checks twoReserves
    (Fallible (List Effect) × Bool × List GraphEmsIndexClaim)
    (fun stages => ((createEngine reserveRoutes.routed [] stages.config).map fun engine =>
        runEffects reserveRoutes [] engine [bothSet 24 24], stages.config.preserveImportedBehavior,
      stages.config.indexClaims))
    (.ok [.set ['a'] 24, .set ['b'] 24], false, []) (by decide +kernel) (by decide +kernel)
  simp only [Prod.mk.injEq] at hFacts
  obtain ⟨hRun, hStrict, hClaims⟩ := hFacts
  obtain ⟨engine, hEngine, hEffects⟩ := map_ok_iff.mp hRun
  refine ⟨stages, engine, hStages, hParsed, hStrict, hEngine, hClaims, hEffects, fun hSingle => ?_⟩
  rw [hEffects] at hSingle
  have hSame := hSingle.sets ['a'] ['b'] 24 (by simp) (by simp)
  exact absurd hSame (by decide)

end Accepted

end EdgeGateway.GraphEms
