import EdgeGateway.Foundation.Priority
import EdgeGateway.GraphEms.ExecutionOrder

/-! # Ties in the order of execution -/

namespace EdgeGateway.GraphEms

open EdgeGateway.Fallible EdgeGateway.Graph

theorem textLess_irrefl (text : StdString) : textLess text text = false := by
  induction text with
  | nil => rfl
  | cons c text ih => simp [textLess, ih]

theorem textLess_trans {a b c : StdString} (hab : textLess a b = true) (hbc : textLess b c = true) :
    textLess a c = true := by
  induction a generalizing b c with
  | nil =>
    cases b with
    | nil => simp [textLess] at hab
    | cons _ b =>
      cases c with
      | nil => simp [textLess] at hbc
      | cons _ c => rfl
  | cons x a ih =>
    cases b with
    | nil => simp [textLess] at hab
    | cons y b =>
      cases c with
      | nil => simp [textLess] at hbc
      | cons z c =>
        simp only [textLess, Bool.or_eq_true, decide_eq_true_eq, Bool.and_eq_true, beq_iff_eq] at hab hbc ⊢
        obtain hxy | ⟨rfl, hab⟩ := hab
        · obtain hyz | ⟨rfl, -⟩ := hbc
          · exact .inl (Nat.lt_trans hxy hyz)
          · exact .inl hxy
        · obtain hyz | ⟨rfl, hbc⟩ := hbc
          · exact .inl hyz
          · exact .inr ⟨rfl, ih hab hbc⟩

theorem textLess_asymm {a b : StdString} (h : textLess a b = true) : textLess b a = false := by
  by_contra hBoth
  rw [Bool.not_eq_false] at hBoth
  have hSelf := textLess_trans h hBoth
  rw [textLess_irrefl] at hSelf
  cases hSelf

theorem textLess_total {a b : StdString} (h : a ≠ b) : textLess a b = true ∨ textLess b a = true := by
  induction a generalizing b with
  | nil =>
    cases b with
    | nil => exact absurd rfl h
    | cons _ b => exact .inl rfl
  | cons x a ih =>
    cases b with
    | nil => exact .inr rfl
    | cons y b =>
      simp only [textLess, Bool.or_eq_true, decide_eq_true_eq, Bool.and_eq_true, beq_iff_eq]
      obtain hxy | hxy | hxy := Nat.lt_trichotomy x.toNat y.toNat
      · exact .inl (.inl hxy)
      · obtain rfl : x = y := Char.toNat_inj.mp hxy
        obtain hab | hba := ih (fun hSame => h (by rw [hSame]))
        · exact .inl (.inr ⟨rfl, hab⟩)
        · exact .inr (.inr ⟨rfl, hba⟩)
      · exact .inr (.inl hxy)

def nodeBefore (left right : GraphEmsV2Node) : Bool :=
  decide (left.order < right.order) || (left.order == right.order && textLess left.runtime.id right.runtime.id)

def Before (nodes : List GraphEmsV2Node) (a b : StdString) : Prop :=
  ∃ left ∈ nodes, ∃ right ∈ nodes, left.runtime.id = a ∧ right.runtime.id = b ∧ nodeBefore left right = true

theorem nodeBefore_asymm {left right : GraphEmsV2Node} (h : nodeBefore left right = true) :
    nodeBefore right left = false := by
  simp only [nodeBefore, Bool.or_eq_true, decide_eq_true_eq, Bool.and_eq_true, beq_iff_eq] at h
  simp only [nodeBefore, Bool.or_eq_false_iff, decide_eq_false_iff_not, Bool.and_eq_false_iff, beq_eq_false_iff_ne]
  obtain hLess | ⟨hSame, hText⟩ := h
  · exact ⟨by omega, .inl (by omega)⟩
  · exact ⟨by omega, .inr (textLess_asymm hText)⟩

theorem Before.asymm {nodes : List GraphEmsV2Node} (hNodup : (nodes.map (·.runtime.id)).Nodup) {a b : StdString}
    (h : Before nodes a b) : ¬ Before nodes b a := by
  obtain ⟨left, hLeft, right, hRight, rfl, rfl, hBefore⟩ := h
  rintro ⟨right', hRight', left', hLeft', hRightId, hLeftId, hAfter⟩
  obtain rfl := List.inj_on_of_nodup_map hNodup hRight' hRight hRightId
  obtain rfl := List.inj_on_of_nodup_map hNodup hLeft' hLeft hLeftId
  rw [nodeBefore_asymm hBefore] at hAfter
  cases hAfter

theorem nodeLe_iff {left right : GraphEmsV2Node} : nodeLe left right = true ↔ nodeBefore right left = false := by
  simp only [nodeLe, nodeBefore, Bool.or_eq_true, decide_eq_true_eq, Bool.and_eq_true, beq_iff_eq, Bool.not_eq_true',
    Bool.or_eq_false_iff, decide_eq_false_iff_not, Bool.and_eq_false_iff, beq_eq_false_iff_ne]
  constructor
  · rintro (hLess | ⟨hSame, hText⟩)
    · exact ⟨by omega, .inl (by omega)⟩
    · exact ⟨by omega, .inr hText⟩
  · rintro ⟨hLe, hOther | hText⟩
    · exact .inl (by omega)
    · obtain hLess | hGe := Nat.lt_or_ge left.order right.order
      · exact .inl hLess
      · exact .inr ⟨by omega, hText⟩

theorem nodeLe_total (left right : GraphEmsV2Node) : nodeLe left right = true ∨ nodeLe right left = true := by
  rw [nodeLe_iff, nodeLe_iff]
  cases h : nodeBefore left right with
  | false => exact .inr rfl
  | true => exact .inl (nodeBefore_asymm h)

theorem not_textLess_trans {a b c : StdString} (hab : textLess b a = false) (hbc : textLess c b = false) :
    textLess c a = false := by
  by_contra hLess
  rw [Bool.not_eq_false] at hLess
  by_cases hSame : b = c
  · rw [hSame, hLess] at hab
    cases hab
  · obtain hText | hText := textLess_total hSame
    · rw [textLess_trans hText hLess] at hab
      cases hab
    · rw [hText] at hbc
      cases hbc

theorem nodeLe_trans (a b c : GraphEmsV2Node) (hab : nodeLe a b = true) (hbc : nodeLe b c = true) :
    nodeLe a c = true := by
  simp only [nodeLe, Bool.or_eq_true, decide_eq_true_eq, Bool.and_eq_true, beq_iff_eq, Bool.not_eq_true'] at hab hbc ⊢
  obtain hab | ⟨hab, hTextAB⟩ := hab
  · obtain hbc | ⟨hbc, -⟩ := hbc
    · exact .inl (by omega)
    · exact .inl (by omega)
  · obtain hbc | ⟨hbc, hTextBC⟩ := hbc
    · exact .inl (by omega)
    · exact .inr ⟨by omega, not_textLess_trans hTextAB hTextBC⟩

theorem edgeLe_total (left right : StdString × StdString) : edgeLe left right = true ∨ edgeLe right left = true := by
  simp only [edgeLe, Bool.or_eq_true, Bool.and_eq_true, beq_iff_eq, Bool.not_eq_true']
  by_cases hFrom : left.1 = right.1
  · cases hTo : textLess right.2 left.2 with
    | false => exact .inl (.inr ⟨hFrom, rfl⟩)
    | true => exact .inr (.inr ⟨hFrom.symm, textLess_asymm hTo⟩)
  · obtain hLess | hLess := textLess_total hFrom
    · exact .inl (.inl hLess)
    · exact .inr (.inl hLess)

theorem edgeLe_same {a b c : StdString} (h : edgeLe (a, b) (a, c) = true) (hNe : b ≠ c) : textLess b c = true := by
  simp only [edgeLe, textLess_irrefl, Bool.false_or, Bool.and_eq_true, Bool.not_eq_true'] at h
  obtain hLess | hLess := textLess_total hNe
  · exact hLess
  · rw [h.2] at hLess
    cases hLess

theorem edgeLe_trans {a b c : StdString × StdString} (hab : edgeLe a b = true) (hbc : edgeLe b c = true) :
    edgeLe a c = true := by
  simp only [edgeLe, Bool.or_eq_true, Bool.and_eq_true, beq_iff_eq, Bool.not_eq_true'] at hab hbc ⊢
  obtain hab | ⟨hab, hTextAB⟩ := hab
  · obtain hbc | ⟨hbc, -⟩ := hbc
    · exact .inl (textLess_trans hab hbc)
    · exact .inl (hbc ▸ hab)
  · obtain hbc | ⟨hbc, hTextBC⟩ := hbc
    · exact .inl (hab ▸ hbc)
    · exact .inr ⟨hab.trans hbc, not_textLess_trans hTextAB hTextBC⟩

theorem sorted_insertEdge {edges : List (StdString × StdString)} {edge : StdString × StdString}
    (h : edges.Pairwise fun left right => edgeLe left right = true) :
    (insertEdge edges edge).Pairwise fun left right => edgeLe left right = true := by
  have hTotal : Std.Total fun left right => edgeLe left right = true := ⟨edgeLe_total⟩
  have hTrans : IsTrans _ fun left right => edgeLe left right = true := ⟨fun _ _ _ => edgeLe_trans⟩
  unfold insertEdge
  split
  · exact h
  · exact List.Pairwise.orderedInsert edge edges h

theorem Loaded.sorted_edges {object : JsonObject} {stages : Stages} (h : Loaded object stages) :
    stages.config.edges.Pairwise fun left right => edgeLe left right = true := by
  obtain ⟨owned, -, linkValues, -, hLinking⟩ := h.owning
  refine foldlM_keeps (fun linking : Linking =>
    linking.executionEdges.Pairwise fun left right => edgeLe left right = true) ?_ List.Pairwise.nil hLinking
  intro value linking next hSorted hLink
  obtain ⟨link, source, target, -, -, -, -, -, hOutcome⟩ := addLink_cases hLink
  obtain ⟨before, hEdges, rfl⟩ := hOutcome.edges
  unfold addExecutionEdge
  split
  · exact sorted_insertEdge (hEdges ▸ hSorted)
  · exact hEdges ▸ hSorted

theorem sorted_outgoing {edges : List (StdString × StdString)} (hNodup : edges.Nodup)
    (h : edges.Pairwise fun left right => edgeLe left right = true) (id : StdString) :
    (outgoing edges id).Pairwise fun v w => textLess v w = true := by
  rw [outgoing, List.pairwise_map]
  refine ((h.and hNodup).filter _).imp_of_mem ?_
  rintro ⟨a, b⟩ ⟨c, d⟩ hLeft hRight ⟨hLe, hNe⟩
  obtain rfl : a = id := by simpa using (List.mem_filter.mp hLeft).2
  obtain rfl : c = a := by simpa using (List.mem_filter.mp hRight).2
  exact edgeLe_same hLe fun hSame => hNe (congrArg _ hSame)

theorem Loaded.config_ids {object : JsonObject} {stages : Stages} (h : Loaded object stages) :
    stages.config.nodes.map (·.id) = (stages.read.filter fun node => !node.isPointInput).map (·.runtime.id) := by
  have hFilter : ∀ list : List GraphEmsV2Node, (list.filter fun node => !node.isPointInput).map (·.runtime.id) =
      ((outlines list).filter fun node => !node.isPointInput).map (·.runtime.id) := by
    intro list
    rw [outlines, List.filter_map, List.map_map]
    rfl
  rw [Stages.config, List.map_map]
  exact (hFilter stages.bound).trans ((congrArg _ (congrArg _ h.bound_outlines)).trans (hFilter stages.read).symm)

theorem Loaded.sorted_nodes {object : JsonObject} {stages : Stages} (h : Loaded object stages) :
    (stages.config.nodes.map (·.id)).Pairwise (Before stages.read) := by
  obtain ⟨nodeValues, nodes, -, -, hSorted⟩ := h.reading
  have hLe : stages.read.Pairwise fun left right => nodeLe left right = true := by
    have hTotal : Std.Total fun left right => nodeLe left right = true := ⟨nodeLe_total⟩
    have hTrans : IsTrans _ fun left right => nodeLe left right = true := ⟨nodeLe_trans⟩
    rw [hSorted]
    exact List.pairwise_insertionSort _ nodes
  have hNodup : stages.read.Pairwise fun left right => left.runtime.id ≠ right.runtime.id :=
    List.pairwise_map.mp h.nodup_read
  rw [h.config_ids, List.pairwise_map]
  refine ((hLe.and hNodup).filter _).imp_of_mem fun {left right} hLeft hRight hBoth => ?_
  refine ⟨left, (List.mem_filter.mp hLeft).1, right, (List.mem_filter.mp hRight).1, rfl, rfl, ?_⟩
  have hNot := nodeLe_iff.mp hBoth.1
  have hText := textLess_total hBoth.2
  simp only [nodeBefore, Bool.or_eq_false_iff, decide_eq_false_iff_not, Bool.and_eq_false_iff,
    beq_eq_false_iff_ne] at hNot
  simp only [nodeBefore, Bool.or_eq_true, decide_eq_true_eq, Bool.and_eq_true, beq_iff_eq]
  obtain ⟨hOrder, hOther | hOther⟩ := hNot
  · exact .inl (by omega)
  · obtain hLess | hGe := Nat.lt_or_ge left.order right.order
    · exact .inl hLess
    · refine .inr ⟨by omega, hText.resolve_right ?_⟩
      rw [hOther]
      exact Bool.false_ne_true

def SharesOutput (left right : GraphEmsV2Node) : Prop :=
  ∃ index, (∃ port ∈ left.ports, port.direction = .output ∧ port.index = some index) ∧
    ∃ port ∈ right.ports, port.direction = .output ∧ port.index = some index

/-- Of two nodes that set the same point and do not depend on each other, the one that comes last in the stated
order runs last. -/
def SharedInOrder (stages : Stages) (order : List StdString) : Prop :=
  ∀ left ∈ stages.read, ∀ right ∈ stages.read, left.isPointInput = false → right.isPointInput = false →
    nodeBefore left right = true → SharesOutput left right →
    ¬ Relation.TransGen (Leads stages.config.edges) left.runtime.id right.runtime.id →
    ¬ Relation.TransGen (Leads stages.config.edges) right.runtime.id left.runtime.id →
    List.Sublist [left.runtime.id, right.runtime.id] order

/-- At each step the least of the nodes whose predecessors have all run. -/
structure RunsByPriority (stages : Stages) (order : List StdString) : Prop where
  least : PriorityRun (Before stages.read) (stages.config.nodes.map (·.id)) stages.config.edges order
  shared : SharedInOrder stages order

def BecomesReady (edges : List (StdString × StdString)) (earlier : List StdString) (id v : StdString) : Prop :=
  (id, v) ∈ edges ∧ Open edges (earlier ++ [id]) v

/-- What becomes ready comes behind what waits, and what becomes ready together is numbered by its ids. -/
structure ReadyInOrder (stages : Stages) (order : List StdString) : Prop where
  behind : ∀ earlier id later, order = earlier ++ id :: later → ∀ w ∈ later, Open stages.config.edges earlier w →
    ∀ v, BecomesReady stages.config.edges earlier id v → Before stages.read w v
  together : ∀ earlier id later, order = earlier ++ id :: later → ∀ v w,
    BecomesReady stages.config.edges earlier id v → BecomesReady stages.config.edges earlier id w →
    textLess v w = true → Before stages.read v w

theorem readyInOrder_iff_steady {object : JsonObject} {stages : Stages} (h : Loaded object stages)
    (hNodup : stages.config.edges.Nodup) {order : List StdString} :
    ReadyInOrder stages order ↔ Steady (Before stages.read) stages.config.edges order := by
  have hSorted : ∀ earlier id, (released stages.config.edges earlier id).Pairwise fun v w => textLess v w = true :=
    fun earlier id => (sorted_outgoing hNodup h.sorted_edges id).filter _
  constructor
  · intro hReady
    refine ⟨fun earlier id later hSplit w hw hOpen v hv => hReady.behind earlier id later hSplit w hw hOpen v
      (mem_released.mp hv), fun earlier id later hSplit => ?_⟩
    refine (hSorted earlier id).imp_of_mem fun hv hw hText => ?_
    exact hReady.together earlier id later hSplit _ _ (mem_released.mp hv) (mem_released.mp hw) hText
  · intro hSteady
    refine ⟨fun earlier id later hSplit w hw hOpen v hv => hSteady.behind earlier id later hSplit w hw hOpen v
      (mem_released.mpr hv), fun earlier id later hSplit v w hv hw hText => ?_⟩
    -- of two ids in a sorted list the smaller stands first
    have hForward : (released stages.config.edges earlier id).Pairwise fun v w =>
        textLess v w = true → Before stages.read v w :=
      (hSteady.together earlier id later hSplit).imp fun {v w} hBefore (_ : textLess v w = true) => hBefore
    have hBackward : (released stages.config.edges earlier id).Pairwise fun v w =>
        textLess w v = true → Before stages.read w v :=
      (hSorted earlier id).imp fun hLess hMore => absurd (textLess_asymm hLess) (by rw [hMore]; exact Bool.noConfusion)
    have hSelf : ∀ v ∈ released stages.config.edges earlier id, textLess v v = true → Before stages.read v v :=
      fun v _ hLess => absurd (textLess_irrefl v) (by rw [hLess]; exact Bool.noConfusion)
    exact hForward.forall_of_forall_of_flip hSelf hBackward (mem_released.mpr hv) (mem_released.mpr hw) hText

theorem priorityRun_nil {nodes : List StdString} {lt : StdString → StdString → Prop} (h : nodes.Pairwise lt) :
    PriorityRun lt nodes [] nodes ∧ Steady lt [] nodes := by
  have hOpen : ∀ earlier b, Open ([] : List (StdString × StdString)) earlier b := fun _ _ _ hEdge => by cases hEdge
  refine ⟨⟨.refl _, fun earlier b later hSplit => ⟨hOpen earlier b, fun c hc _ => ?_⟩⟩, ⟨?_, ?_⟩⟩
  · rw [hSplit] at h
    exact List.rel_of_pairwise_cons (List.pairwise_append.mp h).2.1 hc
  · intro earlier id later _ w _ _ v hv
    cases hv
  · intro earlier id later _
    exact .nil

/-- The engine keeps the stated order exactly where, in that order, nothing becomes ready before what waits. -/
theorem runs_by_priority_iff_ready_in_order (order : IdOrder) (object : JsonObject) (stages : Stages)
    (hStages : loadStages object = .ok stages) (hParsed : parseExecutableV2Graph order object = .ok stages.config) :
    (∃ ordered, executionOrder stages.config = .ok ordered ∧ RunsByPriority stages (ordered.map (·.id))) ↔
      ∃ stated, RunsByPriority stages stated ∧ ReadyInOrder stages stated := by
  have hLoaded := loadStages_ok hStages
  obtain ⟨-, -, -, hValid, hEdges⟩ := parseExecutableV2Graph_ok hParsed
  obtain ⟨ordered, hOrdered, -, hIds⟩ := executionOrder_queue hValid hEdges
  have hQueue := priorityRun_drain_iff hValid.nodup hEdges (fun a b hEdge => (hValid.inside a b hEdge).2)
    (fun a b hBefore => Before.asymm hLoaded.nodup_read hBefore) hLoaded.sorted_nodes
  have hSame : ordered.map (·.id) = ((Queue.initial (stages.config.nodes.map (·.id)) stages.config.edges).drain
      stages.config.edges (stages.config.nodes.map (·.id)).length).ordered := by
    obtain ⟨hEmpty, rfl⟩ | hIds := hIds
    · obtain ⟨hRun, hSteady⟩ := priorityRun_nil hLoaded.sorted_nodes
      rw [← hEmpty] at hRun hSteady
      exact ((hQueue fun drained => stages.config.nodes.map (·.id) = drained).mpr ⟨_, hRun, hSteady, rfl⟩).2
    · exact hIds
  have hReady := fun stated => @readyInOrder_iff_steady _ _ hLoaded hEdges stated
  constructor
  · rintro ⟨other, hOther, hRuns⟩
    rw [hOrdered] at hOther
    cases hOther
    rw [hSame] at hRuns
    obtain ⟨stated, hRun, hSteady, hShared⟩ := (hQueue (SharedInOrder stages)).mp ⟨hRuns.least, hRuns.shared⟩
    exact ⟨stated, ⟨hRun, hShared⟩, (hReady stated).mpr hSteady⟩
  · rintro ⟨stated, hRuns, hStated⟩
    obtain ⟨hRun, hShared⟩ := (hQueue (SharedInOrder stages)).mpr
      ⟨stated, hRuns.least, (hReady stated).mp hStated, hRuns.shared⟩
    exact ⟨ordered, hOrdered, by rw [hSame]; exact ⟨hRun, hShared⟩⟩

def relay : JsonObject := Written.document false [Written.clock "a" 0 6, Written.clock "b" 1 7] [Written.dependency "l1" "a" "b"]

theorem runs_by_priority_iff_ready_in_order_relay :
    ∃ stages, loadStages relay = .ok stages ∧ parseExecutableV2Graph .asGiven relay = .ok stages.config ∧
      ((∃ ordered, executionOrder stages.config = .ok ordered ∧ RunsByPriority stages (ordered.map (·.id))) ↔
        ∃ stated, RunsByPriority stages stated ∧ ReadyInOrder stages stated) := by
  obtain ⟨stages, hStages, hParsed, -⟩ := @loaded_of_checks relay _ (fun _ => ()) () (by decide +kernel)
    (by decide +kernel)
  exact ⟨stages, hStages, hParsed, runs_by_priority_iff_ready_in_order _ _ _ hStages hParsed⟩

def overtaking : JsonObject :=
  Written.document true [Written.clock "a" 0 6, Written.clock "b" 1 7, Written.clock "c" 2 7]
    [Written.dependency "l1" "a" "b"]

/-- The last node runs before the second, whose value stays. -/
theorem last_node_runs_before_released_node :
    ∃ stages, loadStages overtaking = .ok stages ∧ parseExecutableV2Graph .asGiven overtaking = .ok stages.config ∧
      (executionOrder stages.config).map (·.map (·.id)) = .ok [['a'], ['c'], ['b']] ∧
      ¬ ∃ ordered, executionOrder stages.config = .ok ordered ∧ RunsByPriority stages (ordered.map (·.id)) := by
  obtain ⟨stages, hStages, hParsed, hValue⟩ := @loaded_of_checks overtaking
    (Fallible (List StdString) × List (StdString × StdString) × Bool)
    (fun stages => ((executionOrder stages.config).map (·.map (·.id)), stages.config.edges, stages.read.any fun left =>
      stages.read.any fun right => left.runtime.id == ['c'] && right.runtime.id == ['b'] && nodeBefore left right))
    (.ok [['a'], ['c'], ['b']], [(['a'], ['b'])], false) (by decide +kernel) (by decide +kernel)
  simp only [Prod.mk.injEq] at hValue
  obtain ⟨hIds, hEdges, hAfter⟩ := hValue
  refine ⟨stages, hStages, hParsed, hIds, ?_⟩
  rintro ⟨ordered, hOrdered, hRuns⟩
  rw [hOrdered] at hIds
  have hList : ordered.map (·.id) = [['a']] ++ ['c'] :: [['b']] := Except.ok.inj hIds
  have hBefore : Before stages.read ['c'] ['b'] := by
    refine (hRuns.least.least _ _ _ hList).2 ['b'] List.mem_cons_self ?_
    intro a ha
    rw [hEdges, List.mem_singleton] at ha
    rw [(Prod.mk.inj ha).1]
    exact List.mem_cons_self
  obtain ⟨left, hLeft, right, hRight, hLeftId, hRightId, hSmaller⟩ := hBefore
  have hSome : (stages.read.any fun left => stages.read.any fun right =>
      left.runtime.id == ['c'] && right.runtime.id == ['b'] && nodeBefore left right) = true := by
    refine List.any_eq_true.mpr ⟨left, hLeft, List.any_eq_true.mpr ⟨right, hRight, ?_⟩⟩
    simp [hLeftId, hRightId, hSmaller]
  rw [hAfter] at hSome
  cases hSome

end EdgeGateway.GraphEms
