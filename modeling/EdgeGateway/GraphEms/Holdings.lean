import EdgeGateway.GraphEms.ExecutionOrder

/-! # What the ports of a graph hold -/

namespace EdgeGateway.GraphEms

open EdgeGateway.Fallible

structure Holding where
  node : GraphEmsV2Node
  port : GraphEmsV2Port
  index : UInt32

namespace Holding

def claim (holding : Holding) : GraphEmsIndexClaim :=
  ⟨holding.index, holding.node.runtime.id, holding.port.id, holding.port.direction, holding.node.order⟩

def isEnabled (holding : Holding) : Bool := holding.node.runtime.enabled

def isProduced (holding : Holding) : Bool := !holding.node.isPointInput && holding.port.direction == .output

def isTarget (holding : Holding) : Bool := holding.port.direction == .target

end Holding

def portHolding (node : GraphEmsV2Node) (port : GraphEmsV2Port) : Option Holding :=
  if port.direction = .input then none else port.index.map fun index => ⟨node, port, index⟩

def holdings (nodes : List GraphEmsV2Node) : List Holding :=
  nodes.flatMap fun node => node.ports.filterMap (portHolding node)

theorem mem_holdings {nodes : List GraphEmsV2Node} {holding : Holding} :
    holding ∈ holdings nodes ↔ holding.node ∈ nodes ∧ holding.port ∈ holding.node.ports ∧
      holding.port.direction ≠ .input ∧ holding.port.index = some holding.index := by
  rw [holdings, List.mem_flatMap]
  constructor
  · rintro ⟨node, hNode, hHolding⟩
    obtain ⟨port, hPort, hHeld⟩ := List.mem_filterMap.mp hHolding
    unfold portHolding at hHeld
    split at hHeld
    · cases hHeld
    · rename_i hDirection
      obtain ⟨index, hIndex, rfl⟩ := Option.map_eq_some_iff.mp hHeld
      exact ⟨hNode, hPort, hDirection, hIndex⟩
  · rintro ⟨hNode, hPort, hDirection, hIndex⟩
    refine ⟨holding.node, hNode, List.mem_filterMap.mpr ⟨holding.port, hPort, ?_⟩⟩
    rw [portHolding, if_neg hDirection, hIndex]
    rfl

section Owning

variable {compile : Compile}

structure Tracks (kind : Holding → Bool) (passed : List Holding) (indexes : List UInt32) : Prop where
  eq : indexes = (passed.filter kind).map Holding.index
  nodup : ((passed.filter kind).map Holding.index).Nodup

structure Owned (preserve : Bool) (passed : List Holding) (ownership : Ownership) : Prop where
  claims : ownership.indexClaims = (passed.filter Holding.isEnabled).map Holding.claim
  produced : preserve = false → Tracks Holding.isProduced passed (ownership.producedIndexOwners.map Prod.fst)
  targets : preserve = false → Tracks Holding.isTarget passed ownership.targetIndexes

theorem filter_snoc {α : Type} (p : α → Bool) (l : List α) (x : α) :
    (l ++ [x]).filter p = if p x then l.filter p ++ [x] else l.filter p := by
  rw [List.filter_append, List.filter_singleton]
  cases p x with
  | true => rfl
  | false => exact List.append_nil _

section Tracks

variable {kind : Holding → Bool} {passed : List Holding} {holding : Holding} {indexes : List UInt32}

theorem Tracks.add (h : Tracks kind passed indexes) (hKind : kind holding = true) (hFresh : holding.index ∉ indexes) :
    Tracks kind (passed ++ [holding]) (indexes ++ [holding.index]) := by
  rw [h.eq] at hFresh
  constructor
  · rw [filter_snoc, if_pos hKind, h.eq, List.map_append]
    rfl
  · rw [filter_snoc, if_pos hKind]
    exact nodup_map_snoc h.nodup hFresh

theorem Tracks.skip (h : Tracks kind passed indexes) (hKind : ¬ kind holding = true) :
    Tracks kind (passed ++ [holding]) indexes := by
  constructor
  · rw [filter_snoc, if_neg hKind]
    exact h.eq
  · rw [filter_snoc, if_neg hKind]
    exact h.nodup

end Tracks

variable {preserve : Bool} {before after : Ownership} {passed : List Holding} {holding : Holding}

theorem produce_ok (h : produce preserve holding.node holding.port holding.index before = .ok after) :
    after.indexClaims = before.indexClaims ∧ after.targetIndexes = before.targetIndexes ∧
      (preserve = false → holding.index ∉ before.producedIndexOwners.map Prod.fst ∧
        after.producedIndexOwners.map Prod.fst = before.producedIndexOwners.map Prod.fst ++ [holding.index]) := by
  unfold produce at h
  split at h
  · rename_i hNone
    cases h
    refine ⟨rfl, rfl, fun _ => ⟨?_, by simp⟩⟩
    intro hMem
    obtain ⟨owner, hOwner, hIndex⟩ := List.mem_map.mp hMem
    exact List.find?_eq_none.mp hNone owner hOwner (beq_iff_eq.mpr hIndex)
  · split at h
    · cases h
    · rename_i hPreserve
      cases h
      refine ⟨rfl, rfl, fun hFalse => ?_⟩
      rw [hFalse] at hPreserve
      exact absurd rfl hPreserve

theorem addTarget_ok (h : addTarget preserve holding.node holding.port holding.index before = .ok after) :
    after.indexClaims = before.indexClaims ∧ after.producedIndexOwners = before.producedIndexOwners ∧
      (preserve = false → holding.index ∉ before.targetIndexes ∧
        after.targetIndexes = before.targetIndexes ++ [holding.index]) := by
  unfold addTarget at h
  split at h
  · rename_i hFresh
    cases h
    exact ⟨rfl, rfl, fun _ => ⟨hFresh, rfl⟩⟩
  · split at h
    · cases h
    · rename_i hPreserve
      cases h
      refine ⟨rfl, rfl, fun hFalse => ?_⟩
      rw [hFalse] at hPreserve
      exact absurd rfl hPreserve

theorem produceOutput_ok (h : produceOutput preserve holding.node holding.port holding.index before = .ok after)
    (hTracks : preserve = false → Tracks Holding.isProduced passed (before.producedIndexOwners.map Prod.fst)) :
    after.indexClaims = before.indexClaims ∧ after.targetIndexes = before.targetIndexes ∧
      (preserve = false →
        Tracks Holding.isProduced (passed ++ [holding]) (after.producedIndexOwners.map Prod.fst)) := by
  unfold produceOutput at h
  split at h
  · rename_i hKind
    obtain ⟨hClaims, hTargets, hFresh⟩ := produce_ok h
    refine ⟨hClaims, hTargets, fun hFalse => ?_⟩
    obtain ⟨hNot, hOwners⟩ := hFresh hFalse
    rw [hOwners]
    exact (hTracks hFalse).add hKind hNot
  · rename_i hKind
    cases h
    exact ⟨rfl, rfl, fun hFalse => (hTracks hFalse).skip hKind⟩

theorem targetDevice_ok (h : targetDevice preserve holding.node holding.port holding.index before = .ok after)
    (hTracks : preserve = false → Tracks Holding.isTarget passed before.targetIndexes) :
    after.indexClaims = before.indexClaims ∧ after.producedIndexOwners = before.producedIndexOwners ∧
      (preserve = false → Tracks Holding.isTarget (passed ++ [holding]) after.targetIndexes) := by
  unfold targetDevice at h
  split at h
  · rename_i hKind
    obtain ⟨hClaims, hOwners, hFresh⟩ := addTarget_ok h
    refine ⟨hClaims, hOwners, fun hFalse => ?_⟩
    obtain ⟨hNot, hTargets⟩ := hFresh hFalse
    rw [hTargets]
    exact (hTracks hFalse).add hKind hNot
  · rename_i hKind
    cases h
    exact ⟨rfl, rfl, fun hFalse => (hTracks hFalse).skip hKind⟩

theorem claimIndex_claims (holding : Holding) (ownership : Ownership) :
    (claimIndex holding.node holding.port holding.index ownership).indexClaims =
      ownership.indexClaims ++ if holding.isEnabled then [holding.claim] else [] := by
  unfold claimIndex Holding.isEnabled
  split
  · rfl
  · exact (List.append_nil _).symm

theorem claimIndex_indexes (holding : Holding) (ownership : Ownership) :
    (claimIndex holding.node holding.port holding.index ownership).producedIndexOwners = ownership.producedIndexOwners ∧
      (claimIndex holding.node holding.port holding.index ownership).targetIndexes = ownership.targetIndexes := by
  unfold claimIndex
  split <;> exact ⟨rfl, rfl⟩

theorem ownIndex_ok (h : ownIndex compile holding.node holding.port holding.index before = .ok after)
    (hOwned : Owned compile.preserveImportedBehavior passed before) :
    Owned compile.preserveImportedBehavior (passed ++ [holding]) after := by
  unfold ownIndex at h
  simp only [bind_ok_iff, require_ok_iff, pure_ok_iff] at h
  obtain ⟨-, -, produced, hProduced, targeted, hTargeted, rfl⟩ := h
  obtain ⟨hClaims, hTargets, hFirst⟩ := produceOutput_ok hProduced hOwned.produced
  obtain ⟨hSame, hOwners, hSecond⟩ := targetDevice_ok hTargeted fun hFalse => by
    rw [hTargets]
    exact hOwned.targets hFalse
  obtain ⟨hKeptOwners, hKeptTargets⟩ := claimIndex_indexes holding targeted
  refine ⟨?_, fun hFalse => ?_, fun hFalse => ?_⟩
  · rw [claimIndex_claims, hSame, hClaims, hOwned.claims, filter_snoc]
    split
    · rw [List.map_append]
      rfl
    · exact List.append_nil _
  · rw [hKeptOwners, hOwners]
    exact hFirst hFalse
  · rw [hKeptTargets]
    exact hSecond hFalse

theorem ownPort_ok {node : GraphEmsV2Node} {port : GraphEmsV2Port} {before after : Ownership × Params}
    (h : ownPort compile node before port = .ok after) (hOwned : Owned compile.preserveImportedBehavior passed before.1) :
    Owned compile.preserveImportedBehavior (passed ++ (portHolding node port).toList) after.1 := by
  unfold ownPort at h
  unfold portHolding
  split at h
  · rename_i hInput
    cases h
    rw [if_pos hInput]
    simpa using hOwned
  · rename_i hInput
    rw [if_neg hInput]
    split at h
    · cases h
    · rename_i index hIndex
      simp only [bind_ok_iff, pure_ok_iff] at h
      obtain ⟨ownership, hOwnership, params, -, rfl⟩ := h
      rw [hIndex]
      exact @ownIndex_ok compile before.1 ownership passed ⟨node, port, index⟩ hOwnership hOwned

theorem filterMap_snoc {α β : Type} (f : α → Option β) (l : List α) (x : α) :
    (l ++ [x]).filterMap f = l.filterMap f ++ (f x).toList := by
  rw [List.filterMap_append, List.filterMap_cons]
  cases f x with
  | none => rfl
  | some y => rfl

theorem ownNodes_owned {nodes : List GraphEmsV2Node} {owned : Ownership × List GraphEmsV2Node}
    (h : ownNodes compile nodes = .ok owned) : Owned compile.preserveImportedBehavior (holdings nodes) owned.1 := by
  refine foldlM_rule (fun passed (state : Ownership × List GraphEmsV2Node) =>
    Owned compile.preserveImportedBehavior (holdings passed) state.1) ?_ ?_ h
  · intro passed node state state' hPassed hNode
    obtain ⟨params, hPorts, -⟩ := ownNode_ok hNode
    have hRun := foldlM_rule (fun (ports : List GraphEmsV2Port) (inner : Ownership × Params) =>
      Owned compile.preserveImportedBehavior (holdings passed ++ ports.filterMap (portHolding node)) inner.1) ?_ ?_ hPorts
    · rw [holdings, List.flatMap_append, List.flatMap_singleton]
      exact hRun
    · intro ports port inner inner' hInner hPort
      rw [filterMap_snoc, ← List.append_assoc]
      exact ownPort_ok hPort hInner
    · simpa using hPassed
  · exact ⟨rfl, fun _ => ⟨rfl, List.nodup_nil⟩, fun _ => ⟨rfl, List.nodup_nil⟩⟩

end Owning

section Loaded

variable {object : JsonObject} {stages : Stages}

theorem Loaded.owned (h : Loaded object stages) :
    Owned stages.compile.preserveImportedBehavior (holdings stages.read) stages.ownership := by
  obtain ⟨owned, hOwned, -⟩ := h.owning
  exact ownNodes_owned hOwned

theorem Loaded.one_producer (h : Loaded object stages) (hStrict : stages.compile.preserveImportedBehavior = false)
    {a b : Holding} (ha : a ∈ holdings stages.read) (hb : b ∈ holdings stages.read) (hA : a.isProduced = true)
    (hB : b.isProduced = true) (hSame : a.index = b.index) : a = b :=
  List.inj_on_of_nodup_map (h.owned.produced hStrict).nodup (List.mem_filter.mpr ⟨ha, hA⟩) (List.mem_filter.mpr ⟨hb, hB⟩)
    hSame

theorem Loaded.one_writer (h : Loaded object stages) (hStrict : stages.compile.preserveImportedBehavior = false)
    {a b : Holding} (ha : a ∈ holdings stages.read) (hb : b ∈ holdings stages.read) (hA : a.isTarget = true)
    (hB : b.isTarget = true) (hSame : a.index = b.index) : a = b :=
  List.inj_on_of_nodup_map (h.owned.targets hStrict).nodup (List.mem_filter.mpr ⟨ha, hA⟩) (List.mem_filter.mpr ⟨hb, hB⟩)
    hSame

end Loaded

end EdgeGateway.GraphEms
