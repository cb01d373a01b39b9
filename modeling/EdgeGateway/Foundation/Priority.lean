import EdgeGateway.Foundation.Graph

/-! # Queues and priorities

A priority run takes the least of the nodes whose predecessors have been taken, a queue takes them
as they were released.
-/

namespace EdgeGateway.Graph

universe u

variable {α : Type u} [DecidableEq α] {lt : α → α → Prop} {nodes : List α} {edges : List (α × α)}

structure PriorityRun (lt : α → α → Prop) (nodes : List α) (edges : List (α × α)) (order : List α) : Prop where
  perm : order.Perm nodes
  least : ∀ earlier b later, order = earlier ++ b :: later →
    Open edges earlier b ∧ ∀ c ∈ later, Open edges earlier c → lt b c

def released (edges : List (α × α)) (earlier : List α) (id : α) : List α :=
  (outgoing edges id).filter fun n => Open edges (earlier ++ [id]) n

/-- Everything that is released belongs behind what waits, and is released in its own order. -/
structure Steady (lt : α → α → Prop) (edges : List (α × α)) (order : List α) : Prop where
  behind : ∀ earlier id later, order = earlier ++ id :: later →
    ∀ w ∈ later, Open edges earlier w → ∀ v ∈ released edges earlier id, lt w v
  together : ∀ earlier id later, order = earlier ++ id :: later → (released edges earlier id).Pairwise lt

/-- Behind a node stand those that waited with it, then those it released. -/
def Fifo (edges : List (α × α)) (order : List α) : Prop :=
  ∀ earlier id later, order = earlier ++ id :: later → ∃ waiting rest,
    later = waiting ++ released edges earlier id ++ rest ∧ ∀ w ∈ later, Open edges earlier w → w ∈ waiting

theorem Queue.Sound.released_eq {q : Queue α} (h : q.Sound nodes edges) {id : α} {ready : List α}
    (hReady : q.ready = id :: ready) (hEdges : edges.Nodup) :
    (outgoing edges id).filter (fun n => q.indegree n == 1) = released edges q.ordered id := by
  apply List.filter_congr
  intro n hn
  have hIff := @Queue.Sound.released_iff _ _ _ _ _ _ _ h hReady hEdges n
  rw [List.mem_filter] at hIff
  have hEdge := mem_outgoing.mp hn
  simp only [hn, hEdge, true_and] at hIff
  rw [Bool.eq_iff_iff, hIff, decide_eq_true_eq]

section Discipline

variable (hEdges : edges.Nodup) (hInside : ∀ a b, (a, b) ∈ edges → b ∈ nodes)

include hEdges hInside

theorem drain_prefix (fuel : Nat) (q : Queue α) (h : q.Sound nodes edges)
    (hFuel : nodes.length ≤ fuel + q.ordered.length) :
    ∃ rest, (q.drain edges fuel).ordered = q.ordered ++ q.ready ++ rest := by
  induction fuel generalizing q with
  | zero =>
    have hLength := h.length_le
    have hNone : q.ready = [] := List.length_eq_zero_iff.mp (by omega)
    exact ⟨[], by simp [Queue.drain, hNone]⟩
  | succ fuel ih =>
    rw [Queue.drain]
    split
    · rename_i hEmpty
      exact ⟨[], by simp [hEmpty]⟩
    · rename_i hSome
      obtain ⟨id, ready, hReady⟩ := List.exists_cons_of_ne_nil hSome
      have hTaken := h.take_eq hReady hEdges
      obtain ⟨rest, hRest⟩ := ih (q.take edges) (h.take hReady hEdges hInside) (by rw [hTaken]; simp; omega)
      refine ⟨released edges q.ordered id ++ rest, ?_⟩
      rw [hRest, hTaken, hReady, h.released_eq hReady hEdges]
      simp

theorem exists_state (fuel : Nat) (q : Queue α) (h : q.Sound nodes edges)
    (hFuel : nodes.length ≤ fuel + q.ordered.length) {earlier later : List α} {id : α}
    (hSplit : (q.drain edges fuel).ordered = earlier ++ id :: later) (hLater : q.ordered.length ≤ earlier.length) :
    ∃ (state : Queue α) (waiting rest : List α), state.Sound nodes edges ∧ state.ordered = earlier ∧
      state.ready = id :: waiting ∧ later = waiting ++ released edges earlier id ++ rest := by
  induction fuel generalizing q with
  | zero =>
    have hLength := h.length_le
    have hTotal := congrArg List.length hSplit
    simp only [Queue.drain, List.length_append, List.length_cons] at hTotal
    omega
  | succ fuel ih =>
    rw [Queue.drain] at hSplit
    split at hSplit
    · have hTotal := congrArg List.length hSplit
      simp only [List.length_append, List.length_cons] at hTotal
      omega
    · rename_i hSome
      obtain ⟨next, ready, hReady⟩ := List.exists_cons_of_ne_nil hSome
      have hTaken := h.take_eq hReady hEdges
      have hSound := h.take hReady hEdges hInside
      have hEnough : nodes.length ≤ fuel + (q.take edges).ordered.length := by
        rw [hTaken]
        simp
        omega
      obtain hMore | hNow := Nat.lt_or_ge q.ordered.length earlier.length
      · apply ih (q.take edges) hSound hEnough hSplit
        rw [hTaken, List.length_append]
        exact hMore
      · obtain ⟨rest, hRest⟩ := drain_prefix hEdges hInside fuel (q.take edges) hSound hEnough
        rw [hRest, hTaken] at hSplit
        have hLists : q.ordered ++ next :: (ready ++ released edges q.ordered next ++ rest) = earlier ++ id :: later := by
          rw [← hSplit, h.released_eq hReady hEdges]
          simp
        obtain ⟨hOrdered, hTail⟩ := List.append_inj hLists (Nat.le_antisymm hLater hNow)
        obtain ⟨rfl, hRelease⟩ := List.cons.inj hTail
        exact ⟨q, ready, rest, h, hOrdered, hReady, by rw [← hRelease, hOrdered]⟩

theorem fifo_drain (hNodes : nodes.Nodup) :
    Fifo edges ((Queue.initial nodes edges).drain edges nodes.length).ordered := by
  intro earlier id later hSplit
  have hSound := @Queue.initial_sound _ _ _ edges hNodes
  obtain ⟨state, waiting, rest, hState, hOrdered, hReady, hTail⟩ := exists_state hEdges hInside nodes.length _ hSound
    (Nat.le_add_right _ _) hSplit (Nat.zero_le _)
  refine ⟨waiting, rest, hTail, fun w hw hOpen => ?_⟩
  obtain ⟨hAll, -⟩ := Queue.Sound.drain hEdges hInside nodes.length _ hSound (Nat.le_add_right _ _)
  have hNodup := (List.nodup_append.mp hAll.nodup).1
  have hMem : w ∈ nodes := ((hAll.queued w).mp (by rw [hSplit]; simp [hw])).1
  rw [hSplit] at hNodup
  have hQueued := (hState.queued w).mpr ⟨hMem, hOrdered ▸ hOpen⟩
  rw [hOrdered, hReady, List.mem_append, List.mem_cons] at hQueued
  obtain ⟨-, hTailNodup, hDisjoint⟩ := List.nodup_append.mp hNodup
  obtain hEarlier | rfl | hWaiting := hQueued
  · exact absurd rfl (hDisjoint w hEarlier w (List.mem_cons_of_mem _ hw))
  · exact absurd hw (List.nodup_cons.mp hTailNodup).1
  · exact hWaiting

end Discipline

section Agreement

omit [DecidableEq α] in
theorem pairwise_of_splits {r : α → α → Prop} {l : List α}
    (h : ∀ earlier a later, l = earlier ++ a :: later → ∀ b ∈ later, r a b) : l.Pairwise r := by
  induction l with
  | nil => exact .nil
  | cons a l ih =>
    refine .cons (h [] a l rfl) (ih fun earlier b later hSplit => ?_)
    exact h (a :: earlier) b later (by rw [hSplit]; rfl)

omit [DecidableEq α] in
theorem Open.append {taken more : List α} {id : α} (h : Open edges taken id) : Open edges (taken ++ more) id :=
  fun a ha => List.mem_append_left _ (h a ha)

theorem mem_released {earlier : List α} {id n : α} :
    n ∈ released edges earlier id ↔ (id, n) ∈ edges ∧ Open edges (earlier ++ [id]) n := by
  rw [released, List.mem_filter, mem_outgoing, decide_eq_true_eq]

theorem steady_of_fifo {order : List α} (hFifo : Fifo edges order) (hRun : PriorityRun lt nodes edges order) :
    Steady lt edges order := by
  constructor
  · intro earlier id later hSplit w hw hOpen v hv
    obtain ⟨waiting, rest, hTail, hWaits⟩ := hFifo earlier id later hSplit
    obtain ⟨before, after, rfl⟩ := List.append_of_mem (hWaits w hw hOpen)
    have hOrder : order = (earlier ++ [id] ++ before) ++ w :: (after ++ released edges earlier id ++ rest) := by
      rw [hSplit, hTail]
      simp
    exact (hRun.least _ _ _ hOrder).2 v (by simp [hv]) (mem_released.mp hv).2.append
  · intro earlier id later hSplit
    obtain ⟨waiting, rest, hTail, -⟩ := hFifo earlier id later hSplit
    apply pairwise_of_splits
    intro before v after hReleased v' hv'
    have hOrder : order = (earlier ++ [id] ++ waiting ++ before) ++ v :: (after ++ rest) := by
      rw [hSplit, hTail, hReleased]
      simp
    have hMem : v' ∈ released edges earlier id := by
      rw [hReleased]
      simp [hv']
    refine (hRun.least _ _ _ hOrder).2 v' (by simp [hv']) ?_
    rw [List.append_assoc (earlier ++ [id])]
    exact (mem_released.mp hMem).2.append

variable (hNodes : nodes.Nodup) (hEdges : edges.Nodup) (hInside : ∀ a b, (a, b) ∈ edges → b ∈ nodes)

include hNodes hEdges hInside

theorem drain_eq_of_steady (hAsymm : ∀ a b, lt a b → ¬ lt b a) {order : List α}
    (hRun : PriorityRun lt nodes edges order) (hSteady : Steady lt edges order) (fuel : Nat) (q : Queue α)
    (h : q.Sound nodes edges) (hFuel : nodes.length ≤ fuel + q.ordered.length) (hSorted : q.ready.Pairwise lt)
    {rest : List α} (hOrder : order = q.ordered ++ rest) : (q.drain edges fuel).ordered = order := by
  have hOrderNodup : order.Nodup := hRun.perm.nodup_iff.mpr hNodes
  have hHead : ∀ {q : Queue α}, q.Sound nodes edges → ∀ {b later}, order = q.ordered ++ b :: later → b ∈ q.ready := by
    intro q h b later hSplit
    have hMem : b ∈ nodes := hRun.perm.mem_iff.mp (by rw [hSplit]; simp)
    have hQueued := (h.queued b).mpr ⟨hMem, (hRun.least _ _ _ hSplit).1⟩
    rw [hSplit] at hOrderNodup
    obtain hTaken | hReady := List.mem_append.mp hQueued
    · exact absurd rfl ((List.nodup_append.mp hOrderNodup).2.2 b hTaken b List.mem_cons_self)
    · exact hReady
  induction fuel generalizing q rest with
  | zero =>
    have hLength := h.length_le
    have hTotal := hRun.perm.length_eq
    rw [hOrder, List.length_append] at hTotal
    have hNone : rest = [] := List.length_eq_zero_iff.mp (by omega)
    rw [Queue.drain, hOrder, hNone, List.append_nil]
  | succ fuel ih =>
    rw [Queue.drain]
    split
    · rename_i hEmpty
      cases rest with
      | nil => rw [hOrder, List.append_nil]
      | cons b later =>
        have hMem := hHead h hOrder
        rw [hEmpty] at hMem
        cases hMem
    · rename_i hSome
      obtain ⟨id, ready, hReady⟩ := List.exists_cons_of_ne_nil hSome
      have hNotTaken := h.head_fresh hReady
      have hRemaining : ∀ n ∈ q.ready, n ∈ rest := by
        intro n hn
        have hQueued := (h.queued n).mp (List.mem_append_right _ hn)
        have hMem : n ∈ order := hRun.perm.mem_iff.mpr hQueued.1
        rw [hOrder] at hMem
        obtain hTaken | hRest := List.mem_append.mp hMem
        · exact absurd rfl ((List.nodup_append.mp h.nodup).2.2 n hTaken n hn)
        · exact hRest
      rw [hReady] at hRemaining hSorted
      cases rest with
      | nil => exact absurd (hRemaining id List.mem_cons_self) List.not_mem_nil
      | cons b later =>
        have hLeast := (hRun.least _ _ _ hOrder).2
        have hWaitingOpen : ∀ n ∈ id :: ready, Open edges q.ordered n := fun n hn =>
          ((h.queued n).mp (List.mem_append_right _ (hReady ▸ hn))).2
        -- the head of the queue is below everything that waits, so it is the least
        have hSame : b = id := by
          by_contra hOther
          have hLater : id ∈ later := (List.mem_cons.mp (hRemaining id List.mem_cons_self)).resolve_left (Ne.symm hOther)
          have hBelow : lt b id := hLeast id hLater (hWaitingOpen id List.mem_cons_self)
          have hMem := hHead h hOrder
          rw [hReady] at hMem
          exact hAsymm b id hBelow (List.rel_of_pairwise_cons hSorted ((List.mem_cons.mp hMem).resolve_left hOther))
        subst hSame
        have hFresh : b ∉ ready := by
          have hNodup := (List.nodup_append.mp h.nodup).2.1
          rw [hReady] at hNodup
          exact (List.nodup_cons.mp hNodup).1
        have hTaken := h.take_eq hReady hEdges
        rw [h.released_eq hReady hEdges] at hTaken
        have hNext : order = (q.take edges).ordered ++ later := by
          rw [hTaken, hOrder]
          simp
        refine ih (q.take edges) (h.take hReady hEdges hInside) ?_ ?_ hNext
        · rw [hTaken, List.length_append]
          simp
          omega
        · rw [hTaken]
          refine List.pairwise_append.mpr ⟨hSorted.of_cons, hSteady.together _ _ _ hOrder, fun w hw v hv => ?_⟩
          have hLater : w ∈ later := by
            obtain rfl | hLater := List.mem_cons.mp (hRemaining w (List.mem_cons_of_mem _ hw))
            · exact absurd hw hFresh
            · exact hLater
          exact hSteady.behind _ _ _ hOrder w hLater (hWaitingOpen w (List.mem_cons_of_mem _ hw)) v hv

/-- The queue runs by priority, and is ordered as is asked, exactly if a steady priority run is. -/
theorem priorityRun_drain_iff (hAsymm : ∀ a b, lt a b → ¬ lt b a) (hSorted : nodes.Pairwise lt)
    (ordered : List α → Prop) :
    (PriorityRun lt nodes edges ((Queue.initial nodes edges).drain edges nodes.length).ordered ∧
        ordered ((Queue.initial nodes edges).drain edges nodes.length).ordered) ↔
      ∃ order, PriorityRun lt nodes edges order ∧ Steady lt edges order ∧ ordered order := by
  constructor
  · rintro ⟨hRun, hOrdered⟩
    exact ⟨_, hRun, steady_of_fifo (fifo_drain hEdges hInside hNodes) hRun, hOrdered⟩
  · rintro ⟨order, hRun, hSteady, hOrdered⟩
    have hSame := drain_eq_of_steady hNodes hEdges hInside hAsymm hRun hSteady nodes.length _
      (Queue.initial_sound hNodes) (Nat.le_add_right _ _) (hSorted.filter _) rfl
    rw [hSame]
    exact ⟨hRun, hOrdered⟩

end Agreement

end EdgeGateway.Graph
