import Mathlib.Data.Set.Finite.Lattice

/-! # Directed graphs given by their edges

A depth-first visit of every node refuses exactly what lies on a cycle, and a queue of the nodes
without open predecessors empties over every node of an acyclic graph.
-/

namespace EdgeGateway.Graph

universe u

variable {α : Type u}

def Leads (edges : List (α × α)) (a b : α) : Prop := (a, b) ∈ edges

def Acyclic (edges : List (α × α)) : Prop := ∀ a, ¬ Relation.TransGen (Leads edges) a a

structure TopologicalOrder (nodes : List α) (edges : List (α × α)) (order : List α) : Prop where
  perm : order.Perm nodes
  nodup : order.Nodup
  before : ∀ a b, (a, b) ∈ edges → List.Sublist [a, b] order

section Exits

variable {next : α → α → Prop}

theorem exists_exit (h : ∀ a, ¬ Relation.TransGen next a a) {nodes : List α} (hNodes : nodes ≠ []) :
    ∃ a ∈ nodes, ∀ b ∈ nodes, ¬ next a b := by
  let r : {a // a ∈ nodes} → {a // a ∈ nodes} → Prop := fun b a => Relation.TransGen next a.1 b.1
  have hTrans : IsTrans _ r := ⟨fun _ _ _ hFirst hSecond => hSecond.trans hFirst⟩
  have hIrrefl : Std.Irrefl r := ⟨fun a => h a.1⟩
  have hFinite : Finite {a // a ∈ nodes} := List.finite_toSet nodes
  obtain ⟨first, hFirst⟩ := List.exists_mem_of_ne_nil nodes hNodes
  obtain ⟨a, -, ha⟩ := (Finite.wellFounded_of_trans_of_irrefl r).has_min Set.univ ⟨⟨first, hFirst⟩, trivial⟩
  exact ⟨a.1, a.2, fun b hb hNext => ha ⟨b, hb⟩ trivial (.single hNext)⟩

theorem Acyclic.exists_source {edges : List (α × α)} (h : Acyclic edges) {nodes : List α} (hNodes : nodes ≠ []) :
    ∃ b ∈ nodes, ∀ a ∈ nodes, (a, b) ∉ edges :=
  @exists_exit α (Function.swap (Leads edges)) (fun a hCycle => h a (Relation.transGen_swap.mp hCycle)) nodes hNodes

theorem wellFounded_of_exits {nodes : List α} (hNodes : ∀ a b, next a b → b ∈ nodes)
    (hExit : ∀ part : List α, part ≠ [] → part.Nodup → (∀ a ∈ part, a ∈ nodes) →
      ∃ a ∈ part, ∀ b ∈ part, ¬ next a b) : WellFounded fun b a => next a b := by
  classical
  rw [WellFounded.wellFounded_iff_has_min]
  rintro S ⟨first, hFirst⟩
  have hMem : ∀ a, a ∈ (nodes.filter (· ∈ S)).dedup ↔ a ∈ nodes ∧ a ∈ S := by
    intro a
    rw [List.mem_dedup, List.mem_filter, decide_eq_true_eq]
  obtain hEmpty | hSome := eq_or_ne (nodes.filter (· ∈ S)).dedup []
  · refine ⟨first, hFirst, fun b hb hNext => ?_⟩
    have hListed := (hMem b).mpr ⟨hNodes first b hNext, hb⟩
    rw [hEmpty] at hListed
    cases hListed
  · obtain ⟨a, ha, hOut⟩ := hExit _ hSome (List.nodup_dedup _) fun a ha => ((hMem a).mp ha).1
    refine ⟨a, ((hMem a).mp ha).2, fun b hb hNext => ?_⟩
    exact hOut b ((hMem b).mpr ⟨hNodes a b hNext, hb⟩) hNext

end Exits

section DepthFirst

variable [DecidableEq α]

inductive Refusal where
  | cycle
  /-- The bound on the depth is used up. -/
  | exhausted
deriving DecidableEq

/-- The nodes on the path to `id` are under visit; the result has the finished nodes, the last one first. -/
def visit (next : α → List α) : Nat → List α → List α → α → Except Refusal (List α)
  | 0, _, _, _ => .error .exhausted
  | fuel + 1, visiting, visited, id =>
    if id ∈ visited then .ok visited
    else if id ∈ visiting then .error .cycle
    else ((next id).foldlM (visit next fuel (id :: visiting)) visited).map (id :: ·)

def Finished (next : α → List α) : List α → Prop
  | [] => True
  | id :: visited => id ∉ visited ∧ (∀ n ∈ next id, n ∈ visited) ∧ Finished next visited

structure Explored (next : α → List α) (visiting visited : List α) (roots after : List α) : Prop where
  finished : Finished next after
  kept : ∀ n ∈ visited, n ∈ after
  reached : ∀ n ∈ roots, n ∈ after
  spared : ∀ n ∈ visiting, n ∈ after → n ∈ visited

variable {next : α → List α}

theorem explored_foldlM {fuel : Nat} {visiting : List α} {roots : List α}
    (hVisit : ∀ visited id after, Finished next visited → visit next fuel visiting visited id = .ok after →
      Explored next visiting visited [id] after) {visited after : List α} (hFinished : Finished next visited)
    (h : roots.foldlM (visit next fuel visiting) visited = .ok after) :
    Explored next visiting visited roots after := by
  induction roots generalizing visited with
  | nil =>
    cases h
    exact ⟨hFinished, fun _ h => h, by simp, fun _ _ h => h⟩
  | cons id roots ih =>
    rw [List.foldlM_cons] at h
    cases hHead : visit next fuel visiting visited id with
    | error e => simp [hHead, bind, Except.bind] at h
    | ok between =>
      rw [hHead] at h
      have hFirst := hVisit visited id between hFinished hHead
      have hRest := ih hFirst.finished h
      refine ⟨hRest.finished, fun n hn => hRest.kept n (hFirst.kept n hn), fun n hn => ?_,
        fun n hn hAfter => hFirst.spared n hn (hRest.spared n hn hAfter)⟩
      obtain rfl | hn := List.mem_cons.mp hn
      · exact hRest.kept n (hFirst.reached n List.mem_cons_self)
      · exact hRest.reached n hn

theorem explored_visit (fuel : Nat) (visiting visited : List α) (id : α) (after : List α)
    (hFinished : Finished next visited) (h : visit next fuel visiting visited id = .ok after) :
    Explored next visiting visited [id] after := by
  induction fuel generalizing visiting visited id after with
  | zero => cases h
  | succ fuel ih =>
    rw [visit] at h
    split at h
    · rename_i hVisited
      cases h
      exact ⟨hFinished, fun _ h => h, by simpa using hVisited, fun _ _ h => h⟩
    split at h
    · cases h
    rename_i hVisited hVisiting
    cases hLoop : (next id).foldlM (visit next fuel (id :: visiting)) visited with
    | error e =>
      rw [hLoop] at h
      cases h
    | ok between =>
      rw [hLoop] at h
      cases h
      have hInner := explored_foldlM (ih (id :: visiting)) hFinished hLoop
      have hFresh : id ∉ between := fun hMem => hVisited (hInner.spared id List.mem_cons_self hMem)
      refine ⟨⟨hFresh, hInner.reached, hInner.finished⟩, fun n hn => List.mem_cons_of_mem _ (hInner.kept n hn),
        by simp, fun n hn hAfter => ?_⟩
      obtain rfl | hAfter := List.mem_cons.mp hAfter
      · exact absurd hn hVisiting
      · exact hInner.spared n (List.mem_cons_of_mem _ hn) hAfter

omit [DecidableEq α] in
theorem Finished.closed {visited : List α} (h : Finished next visited) {a b : α} (ha : a ∈ visited)
    (hb : b ∈ next a) : b ∈ visited := by
  induction visited with
  | nil => simp at ha
  | cons id visited ih =>
    obtain rfl | ha := List.mem_cons.mp ha
    · exact List.mem_cons_of_mem _ (h.2.1 b hb)
    · exact List.mem_cons_of_mem _ (ih h.2.2 ha)

omit [DecidableEq α] in
theorem Finished.not_cyclic {visited : List α} (h : Finished next visited) {a : α} (ha : a ∈ visited) :
    ¬ Relation.TransGen (fun a b => b ∈ next a) a a := by
  induction visited with
  | nil => simp at ha
  | cons id visited ih =>
    obtain rfl | ha := List.mem_cons.mp ha
    · intro hCycle
      -- everything the head leads to lies in the rest, and the head does not
      have hRest : ∀ b, Relation.TransGen (fun a b => b ∈ next a) a b → b ∈ visited := by
        intro b hb
        induction hb with
        | single hStep => exact h.2.1 _ hStep
        | tail _ hStep hMem => exact h.2.2.closed hMem hStep
      exact h.1 (hRest a hCycle)
    · exact ih h.2.2 ha

def outgoing (edges : List (α × α)) (id : α) : List α := (edges.filter fun e => e.1 == id).map Prod.snd

theorem mem_outgoing {edges : List (α × α)} {id n : α} : n ∈ outgoing edges id ↔ (id, n) ∈ edges := by
  simp [outgoing]

theorem acyclic_of_visited {edges : List (α × α)} {roots visited : List α} {fuel : Nat}
    (hRoots : ∀ a b, (a, b) ∈ edges → a ∈ roots)
    (h : roots.foldlM (visit (outgoing edges) fuel []) [] = .ok visited) : Acyclic edges := by
  have hExplored : Explored (outgoing edges) [] [] roots visited := explored_foldlM (explored_visit fuel []) trivial h
  intro a hCycle
  have hStart : ∃ b, (a, b) ∈ edges := by
    cases hCycle with
    | single hStep => exact ⟨_, hStep⟩
    | tail hPath _ =>
      obtain ⟨b, hStep, -⟩ := Relation.TransGen.head'_iff.mp hPath
      exact ⟨b, hStep⟩
  obtain ⟨b, hStep⟩ := hStart
  apply hExplored.finished.not_cyclic (hExplored.reached a (hRoots a b hStep))
  have hSame : ∀ c d, Leads edges c d → d ∈ outgoing edges c := fun c d => mem_outgoing.mpr
  exact Relation.TransGen.mono hSame _ _ hCycle

end DepthFirst

section Queue

variable [DecidableEq α]

/-- The nodes taken so far, those without an open predecessor, and how many open predecessors each node has. -/
structure Queue (α : Type u) where
  ordered : List α
  ready : List α
  indegree : α → Nat

def Queue.initial (nodes : List α) (edges : List (α × α)) : Queue α :=
  let indegree := fun id => edges.countP fun e => e.2 == id
  { ordered := [], ready := nodes.filter fun id => indegree id == 0, indegree := indegree }

def Queue.release (q : Queue α) (next : α) : Queue α :=
  let left := q.indegree next - 1
  { q with
    indegree := Function.update q.indegree next left
    ready := if left = 0 then q.ready ++ [next] else q.ready }

def Queue.take (edges : List (α × α)) (q : Queue α) : Queue α :=
  match q.ready with
  | [] => q
  | id :: ready => (outgoing edges id).foldl Queue.release { q with ordered := q.ordered ++ [id], ready := ready }

def Queue.drain (edges : List (α × α)) : Nat → Queue α → Queue α
  | 0, q => q
  | fuel + 1, q => if q.ready = [] then q else Queue.drain edges fuel (q.take edges)

def Open (edges : List (α × α)) (taken : List α) (id : α) : Prop := ∀ a, (a, id) ∈ edges → a ∈ taken

instance (edges : List (α × α)) (taken : List α) (id : α) : Decidable (Open edges taken id) :=
  decidable_of_iff (∀ e ∈ edges, e.2 = id → e.1 ∈ taken)
    ⟨fun h a ha => h _ ha rfl, fun h e he hId => h e.1 (by rw [← hId]; exact he)⟩

structure Queue.Sound (nodes : List α) (edges : List (α × α)) (q : Queue α) : Prop where
  nodup : (q.ordered ++ q.ready).Nodup
  indegree : ∀ id, q.indegree id = edges.countP fun e => e.2 == id && e.1 ∉ q.ordered
  queued : ∀ id, id ∈ q.ordered ++ q.ready ↔ id ∈ nodes ∧ Open edges q.ordered id
  before : ∀ earlier b later, q.ordered = earlier ++ b :: later → ∀ a, (a, b) ∈ edges → a ∈ earlier

variable {nodes : List α} {edges : List (α × α)} {q : Queue α}

theorem nodup_outgoing (hNodup : edges.Nodup) (id : α) : (outgoing edges id).Nodup := by
  apply List.Nodup.map_on _ (hNodup.filter _)
  intro a ha b hb hSame
  simp only [List.mem_filter, beq_iff_eq] at ha hb
  exact Prod.ext (ha.2.trans hb.2.symm) hSame

theorem countP_eq_zero_iff_open {taken : List α} {id : α} :
    (edges.countP fun e => e.2 == id && e.1 ∉ taken) = 0 ↔ Open edges taken id := by
  rw [List.countP_eq_zero]
  constructor
  · intro h a ha
    simpa using h _ ha
  · intro h e he
    simp only [Bool.and_eq_true, beq_iff_eq, decide_eq_true_eq, not_and, not_not]
    rintro rfl
    exact h _ he

theorem Queue.foldl_release {targets : List α} (hNodup : targets.Nodup) (q : Queue α) :
    (∀ n ∈ targets, 0 < q.indegree n) → targets.foldl Queue.release q =
      { ordered := q.ordered
        ready := q.ready ++ targets.filter fun n => q.indegree n == 1
        indegree := fun n => if n ∈ targets then q.indegree n - 1 else q.indegree n } := by
  induction targets generalizing q with
  | nil => simp
  | cons t targets ih =>
    intro hPositive
    obtain ⟨hFresh, hNodup⟩ := List.nodup_cons.mp hNodup
    have hKept : ∀ n ∈ targets, (q.release t).indegree n = q.indegree n := by
      intro n hn
      have hOther : n ≠ t := fun hEq => hFresh (hEq ▸ hn)
      simp [Queue.release, hOther]
    rw [List.foldl_cons, ih hNodup]
    · have hFilter : (targets.filter fun n => (q.release t).indegree n == 1) =
          targets.filter fun n => q.indegree n == 1 :=
        List.filter_congr fun n hn => by rw [hKept n hn]
      have hHead := hPositive t List.mem_cons_self
      rw [hFilter]
      congr 1
      · by_cases hLast : q.indegree t = 1
        · simp [Queue.release, hLast]
        · have hMore : q.indegree t - 1 ≠ 0 := by omega
          simp [Queue.release, hLast, hMore]
      · funext n
        by_cases hEq : n = t
        · subst hEq
          simp [hFresh, Queue.release]
        · simp [Queue.release, hEq]
    · intro n hn
      rw [hKept n hn]
      exact hPositive n (List.mem_cons_of_mem _ hn)

theorem countP_open_snoc {taken : List α} {id : α} (hId : id ∉ taken) (n : α) :
    (edges.countP fun e => e.2 == n && e.1 ∉ taken) =
      (edges.countP fun e => e.2 == n && e.1 ∉ taken ++ [id]) + edges.count (id, n) := by
  induction edges with
  | nil => rfl
  | cons e edges ih =>
    rw [List.countP_cons, List.countP_cons, List.count_cons, ih]
    by_cases hTarget : e.2 = n
    · by_cases hSource : e.1 = id
      · have hSame : e = (id, n) := Prod.ext hSource hTarget
        simp [hSame, hId]
        omega
      · have hOther : e ≠ (id, n) := fun hEq => hSource (congrArg Prod.fst hEq)
        simp [hTarget, hSource, hOther]
        omega
    · have hOther : e ≠ (id, n) := fun hEq => hTarget (congrArg Prod.snd hEq)
      simp [hTarget, hOther]

omit [DecidableEq α] in
theorem Open.mono {taken : List α} {id n : α} (h : Open edges taken n) : Open edges (taken ++ [id]) n :=
  fun a ha => List.mem_append_left _ (h a ha)

theorem Queue.initial_sound (hNodes : nodes.Nodup) : (Queue.initial nodes edges).Sound nodes edges where
  nodup := hNodes.filter _
  indegree := fun id => by simp [Queue.initial]
  queued := fun id => by
    have hOpen : _ ↔ Open edges [] id := countP_eq_zero_iff_open
    simp only [List.not_mem_nil, not_false_eq_true, decide_true, Bool.and_true] at hOpen
    simp [Queue.initial, ← hOpen]
  before := fun earlier b later h => by simp [Queue.initial] at h

section Round

variable {id : α} {ready : List α} (h : q.Sound nodes edges) (hReady : q.ready = id :: ready)

include h hReady

theorem Queue.Sound.head_fresh : id ∉ q.ordered := by
  have hNodup := h.nodup
  rw [hReady] at hNodup
  exact fun hMem => (List.nodup_append.mp hNodup).2.2 id hMem id List.mem_cons_self rfl

theorem Queue.Sound.head_open : Open edges q.ordered id :=
  ((h.queued id).mp (List.mem_append_right _ (hReady ▸ List.mem_cons_self))).2

theorem Queue.Sound.indegree_pos {n : α} (hn : n ∈ outgoing edges id) : 0 < q.indegree n := by
  apply Nat.pos_of_ne_zero
  rw [h.indegree, Ne, countP_eq_zero_iff_open]
  exact fun hOpen => h.head_fresh hReady (hOpen id (mem_outgoing.mp hn))

theorem Queue.Sound.indegree_snoc (hEdges : edges.Nodup) (n : α) :
    (if n ∈ outgoing edges id then q.indegree n - 1 else q.indegree n) =
      edges.countP fun e => e.2 == n && e.1 ∉ q.ordered ++ [id] := by
  rw [h.indegree, countP_open_snoc (h.head_fresh hReady) n]
  by_cases hMem : (id, n) ∈ edges
  · rw [if_pos (mem_outgoing.mpr hMem), List.count_eq_one_of_mem hEdges hMem, Nat.add_sub_cancel]
  · rw [if_neg (mt mem_outgoing.mp hMem), List.count_eq_zero_of_not_mem hMem, Nat.add_zero]

theorem Queue.Sound.released_iff (hEdges : edges.Nodup) {n : α} :
    n ∈ (outgoing edges id).filter (fun n => q.indegree n == 1) ↔
      (id, n) ∈ edges ∧ Open edges (q.ordered ++ [id]) n := by
  rw [List.mem_filter, mem_outgoing, beq_iff_eq]
  refine and_congr_right fun hMem => ?_
  have hLeft := h.indegree_snoc hReady hEdges n
  have hPositive := h.indegree_pos hReady (mem_outgoing.mpr hMem)
  rw [if_pos (mem_outgoing.mpr hMem)] at hLeft
  rw [← countP_eq_zero_iff_open, ← hLeft]
  omega

theorem Queue.Sound.take_eq (hEdges : edges.Nodup) : q.take edges =
    { ordered := q.ordered ++ [id]
      ready := ready ++ (outgoing edges id).filter fun n => q.indegree n == 1
      indegree := fun n => if n ∈ outgoing edges id then q.indegree n - 1 else q.indegree n } := by
  rw [Queue.take, hReady]
  exact Queue.foldl_release (nodup_outgoing hEdges id) _ fun n hn => h.indegree_pos hReady hn

theorem Queue.Sound.take (hEdges : edges.Nodup) (hInside : ∀ a b, (a, b) ∈ edges → b ∈ nodes) :
    (q.take edges).Sound nodes edges := by
  have hReleased := @Queue.Sound.released_iff _ _ _ _ _ _ _ h hReady hEdges
  have hQueued : ∀ n, n ∈ q.ordered ++ id :: ready ↔ n ∈ nodes ∧ Open edges q.ordered n := hReady ▸ h.queued
  have hNodup : (q.ordered ++ id :: ready).Nodup := hReady ▸ h.nodup
  have hLists : ∀ released : List α, q.ordered ++ [id] ++ (ready ++ released) =
      q.ordered ++ id :: ready ++ released := fun released => by simp
  rw [h.take_eq hReady hEdges]
  constructor
  · show (q.ordered ++ [id] ++ (ready ++ _)).Nodup
    rw [hLists]
    refine hNodup.append ((nodup_outgoing hEdges id).filter _) fun n hOld hNew => ?_
    have hZero := countP_eq_zero_iff_open.mpr ((hQueued n).mp hOld).2
    rw [← h.indegree] at hZero
    have hOne := (List.mem_filter.mp hNew).2
    simp [hZero] at hOne
  · exact h.indegree_snoc hReady hEdges
  · intro n
    show n ∈ q.ordered ++ [id] ++ (ready ++ _) ↔ _
    rw [hLists, List.mem_append, hQueued, hReleased]
    constructor
    · rintro (⟨hNode, hOpen⟩ | ⟨hEdge, hOpen⟩)
      · exact ⟨hNode, hOpen.mono⟩
      · exact ⟨hInside _ _ hEdge, hOpen⟩
    · rintro ⟨hNode, hOpen⟩
      by_cases hEdge : (id, n) ∈ edges
      · exact .inr ⟨hEdge, hOpen⟩
      · refine .inl ⟨hNode, fun a ha => ?_⟩
        obtain hTaken | hTaken := List.mem_append.mp (hOpen a ha)
        · exact hTaken
        · exact absurd (List.mem_singleton.mp hTaken ▸ ha) hEdge
  · intro earlier b later hSplit a ha
    change q.ordered ++ [id] = _ at hSplit
    obtain rfl | ⟨later, last, rfl⟩ := List.eq_nil_or_concat later
    · obtain ⟨rfl, hLast⟩ := List.append_inj' hSplit rfl
      obtain rfl := List.cons.inj hLast |>.1
      exact h.head_open hReady a ha
    · rw [List.concat_eq_append, ← List.cons_append, ← List.append_assoc] at hSplit
      exact h.before earlier b later (List.append_inj' hSplit rfl).1 a ha

end Round

theorem Queue.Sound.length_le (h : q.Sound nodes edges) : q.ordered.length + q.ready.length ≤ nodes.length := by
  rw [← List.length_append]
  exact (List.subperm_of_subset h.nodup fun n hn => ((h.queued n).mp hn).1).length_le

theorem Queue.Sound.drain (hEdges : edges.Nodup) (hInside : ∀ a b, (a, b) ∈ edges → b ∈ nodes) (fuel : Nat)
    (q : Queue α) (h : q.Sound nodes edges) (hFuel : nodes.length ≤ fuel + q.ordered.length) :
    (q.drain edges fuel).Sound nodes edges ∧ (q.drain edges fuel).ready = [] := by
  induction fuel generalizing q with
  | zero =>
    have hLength := h.length_le
    have hNone : q.ready.length = 0 := by omega
    exact ⟨h, List.length_eq_zero_iff.mp hNone⟩
  | succ fuel ih =>
    rw [Queue.drain]
    split
    · rename_i hEmpty
      exact ⟨h, hEmpty⟩
    · rename_i hSome
      obtain ⟨id, ready, hReady⟩ := List.exists_cons_of_ne_nil hSome
      apply ih _ (h.take hReady hEdges hInside)
      rw [h.take_eq hReady hEdges]
      simp
      omega

theorem topologicalOrder_drain (hNodes : nodes.Nodup) (hEdges : edges.Nodup)
    (hInside : ∀ a b, (a, b) ∈ edges → a ∈ nodes ∧ b ∈ nodes) (hAcyclic : Acyclic edges) :
    TopologicalOrder nodes edges ((Queue.initial nodes edges).drain edges nodes.length).ordered := by
  obtain ⟨hSound, hEmpty⟩ := Queue.Sound.drain hEdges (fun a b hEdge => (hInside a b hEdge).2) nodes.length _
    (Queue.initial_sound hNodes) (Nat.le_add_right _ _)
  generalize (Queue.initial nodes edges).drain edges nodes.length = q at hSound hEmpty
  have hNodup : q.ordered.Nodup := by simpa [hEmpty] using hSound.nodup
  have hQueued : ∀ n, n ∈ q.ordered ↔ n ∈ nodes ∧ Open edges q.ordered n := by simpa [hEmpty] using hSound.queued
  have hAll : ∀ n ∈ nodes, n ∈ q.ordered := by
    intro n hn
    by_contra hOut
    have hNonempty : nodes.filter (· ∉ q.ordered) ≠ [] := List.ne_nil_of_mem (List.mem_filter.mpr ⟨hn, by simpa⟩)
    obtain ⟨b, hb, hSource⟩ := hAcyclic.exists_source hNonempty
    obtain ⟨hNode, hOut⟩ := List.mem_filter.mp hb
    refine absurd ((hQueued b).mpr ⟨hNode, fun a ha => ?_⟩) (by simpa using hOut)
    by_contra hNot
    exact hSource a (List.mem_filter.mpr ⟨(hInside a b ha).1, by simpa⟩) ha
  refine ⟨(List.perm_ext_iff_of_nodup hNodup hNodes).mpr fun n => ⟨fun hn => ((hQueued n).mp hn).1, hAll n⟩, hNodup,
    fun a b hEdge => ?_⟩
  obtain ⟨earlier, later, hSplit⟩ := List.append_of_mem (hAll b (hInside a b hEdge).2)
  rw [hSplit]
  exact (List.singleton_sublist.mpr (hSound.before earlier b later hSplit a hEdge)).append
    (List.singleton_sublist.mpr List.mem_cons_self)

end Queue

end EdgeGateway.Graph
