import EdgeGateway.Foundation.Graph
import EdgeGateway.Foundation.Picking
import EdgeGateway.PointStore.System
import EdgeGateway.Router.LatestReads

/-! # A batch read and its single reads -/

namespace EdgeGateway.Router

open PointStore

namespace RouteReader

variable {reader : RouteReader} {segments : Segments} {nowMs : Int}

def NonRecursive (reader : RouteReader) : Prop := ∀ route, ¬ Relation.TransGen reader.LeadsTo route route

theorem pointCodeScan_mem {machineCode meterCode pointCode : StdString} {routes : List PointRoute}
    {fallback : Option PointRoute} {route : PointRoute}
    (h : pointCodeScan machineCode meterCode pointCode routes fallback = some route) :
    route ∈ routes ∨ fallback = some route := by
  induction routes generalizing fallback with
  | nil => exact .inr h
  | cons first rest ih =>
    rw [pointCodeScan] at h
    split at h
    · exact (ih h).imp_left (List.mem_cons_of_mem first)
    · split at h
      · obtain rfl := Option.some.inj h
        exact .inl List.mem_cons_self
      · obtain hRest | hFirst := ih h
        · exact .inl (List.mem_cons_of_mem first hRest)
        · obtain rfl := Option.some.inj hFirst
          exact .inl List.mem_cons_self

theorem LeadsTo.listed {route target : PointRoute} (h : reader.LeadsTo route target) :
    target ∈ reader.routes ∧ target.derived = true ∧ target.index ≠ route.index := by
  obtain ⟨rule, -, hTarget⟩ := h
  obtain ⟨hFound, hKind⟩ := Option.filter_eq_some_iff.mp hTarget
  obtain ⟨hOther, hDerived⟩ := Bool.and_eq_true_iff.mp hKind
  obtain hMem | hNone := pointCodeScan_mem hFound
  · exact ⟨hMem, hDerived, bne_iff_ne.mp hOther⟩
  · cases hNone

theorem NonRecursive.wellFounded (h : reader.NonRecursive) : WellFounded fun target route => reader.LeadsTo route target :=
  Graph.wellFounded_of_exits (fun _ _ hNext => hNext.listed.1) fun _ hSome _ _ => Graph.exists_exit h hSome

theorem NonRecursive.of_single (h : ∀ route ∈ reader.routes, ∀ other ∈ reader.routes, route.derived = true →
    other.derived = true → route = other) : reader.NonRecursive := by
  intro route hCycle
  obtain ⟨next, hFirst, -⟩ := Relation.TransGen.head'_iff.mp hCycle
  obtain ⟨last, -, hLast⟩ := Relation.TransGen.tail'_iff.mp hCycle
  obtain ⟨hNext, hNextDerived, hOther⟩ := hFirst.listed
  obtain ⟨hRoute, hDerived, -⟩ := hLast.listed
  exact hOther (congrArg (fun route => route.index) (h next hNext route hRoute hNextDerived hDerived))

theorem NonRecursive.returns (h : reader.NonRecursive) (route : PointRoute) : reader.Returns segments nowMs route :=
  h.wellFounded.induction route fun _ ih => .of_next fun _ target hTarget => ih target hTarget

section Singles

variable {index : UInt32} {value : StoredPointValue} {route : PointRoute}

theorem routeByIndex_index (h : reader.routeByIndex index = some route) : route.index = index :=
  eq_of_beq (List.find?_some (p := fun route : PointRoute => route.index == index) h)

theorem enrich_index (value : StoredPointValue) : (reader.enrich value).index = value.index := by
  rw [enrich]
  split <;> rfl

theorem getLatestByIndex_index {store : MemoryPointStore} {layout : SharedStoreLayout}
    (h : store.getLatestByIndex layout index nowMs = some value) : value.index = index := by
  rw [getLatestByIndex_singleSlot] at h
  obtain ⟨k, hSlot, rfl⟩ := Option.map_eq_some_iff.mp h
  rw [storedValue_index]
  exact (LatestTable.singleSlot_carries hSlot).2

theorem getRawLatestByRoute_index (h : reader.getRawLatestByRoute segments nowMs route = some value) :
    value.index = route.index := by
  rw [getRawLatestByRoute] at h
  split at h
  · cases h
  · obtain ⟨stored, hStored, rfl⟩ := Option.map_eq_some_iff.mp h
    rw [enrich_index, getLatestByIndex_index hStored]

theorem getDerivedLatestByRoute_index {depth : Nat}
    (h : reader.getDerivedLatestByRoute segments nowMs depth route = some (some value)) : value.index = route.index := by
  cases depth with
  | zero => cases h
  | succ depth =>
    rw [getDerivedLatestByRoute] at h
    split at h
    · cases h
    · split at h
      · obtain ⟨fault, -, hValue⟩ := Option.map_eq_some_iff.mp h
        rw [← Option.some.inj hValue]
        rfl
      · rw [← Option.some.inj (Option.some.inj h)]
        rfl

theorem getLatestByIndex_of_index {depth : Nat}
    (h : reader.getLatestByIndex segments nowMs depth index = some (some value)) : value.index = index := by
  rw [getLatestByIndex] at h
  split at h
  · cases h
  · rename_i route hRoute
    rw [← routeByIndex_index hRoute]
    split at h
    · exact getDerivedLatestByRoute_index h
    · exact getRawLatestByRoute_index (Option.some.inj h)

end Singles

section Batch

variable {depth : Nat} {single : UInt32 → Option StoredPointValue} {indexes : List UInt32}

theorem rawName_some {index : UInt32} {name : StdString} (h : reader.rawName index = some name) :
    ∃ route, reader.routeByIndex index = some route ∧ route.derived = false ∧ route.sharedMemoryName = name := by
  rw [rawName] at h
  split at h
  · cases h
  · rename_i route hRoute
    split at h
    · cases h
    · rename_i hRaw
      exact ⟨route, hRoute, Bool.eq_false_iff.mpr hRaw, Option.some.inj h⟩

theorem groupValues_eq (hSingle : ∀ index, reader.getLatestByIndex segments nowMs depth index = some (single index))
    (indexes : List UInt32) (name : StdString) :
    reader.groupValues segments nowMs indexes name =
      (indexes.filter fun index => reader.rawName index = some name).filterMap single := by
  have hRead : ∀ index ∈ indexes.filter (fun index => reader.rawName index = some name),
      single index = (reader.readableStore name).bind fun store =>
        (store.getLatestByIndex (segments name) index nowMs).map reader.enrich := by
    intro index hIndex
    obtain ⟨route, hRoute, hRaw, hName⟩ := rawName_some (of_decide_eq_true (List.mem_filter.mp hIndex).2)
    have hValue := hSingle index
    rw [getLatestByIndex, hRoute] at hValue
    dsimp only at hValue
    rw [if_neg (Bool.eq_false_iff.mp hRaw), getRawLatestByRoute, routeByIndex_index hRoute, hName] at hValue
    rw [← Option.some.inj hValue]
    cases reader.readableStore name <;> rfl
  rw [groupValues, List.filterMap_congr hRead]
  cases reader.readableStore name with
  | none => exact (List.filterMap_none _).symm
  | some store =>
    dsimp only
    rw [getLatestByIndexes_eq, List.map_filterMap]
    rfl

/-- The derived routes of a batch read what their indexes read. -/
theorem derivedOf_eq (hSingle : ∀ index, reader.getLatestByIndex segments nowMs depth index = some (single index))
    (indexes : List UInt32) :
    (reader.derivedOf indexes).mapM (reader.getDerivedLatestByRoute segments nowMs depth) =
      some ((reader.derivedOf indexes).map fun route => single route.index) ∧
    ((reader.derivedOf indexes).map fun route => single route.index).filterMap id =
      (indexes.filter fun index => !(reader.rawName index).isSome).filterMap single := by
  induction indexes with
  | nil => exact ⟨rfl, rfl⟩
  | cons index indexes ih =>
    obtain ⟨hRead, hValues⟩ := ih
    have hValue := hSingle index
    rw [getLatestByIndex] at hValue
    cases hRoute : reader.routeByIndex index with
    | none =>
      have hSame : reader.derivedOf (index :: indexes) = reader.derivedOf indexes := by
        rw [derivedOf, List.filterMap_cons_none hRoute]
        rfl
      have hName : reader.rawName index = none := by rw [rawName, hRoute]
      rw [hRoute] at hValue
      rw [hSame, List.filter_cons_of_pos (by rw [hName]; rfl), List.filterMap_cons_none (Option.some.inj hValue).symm]
      exact ⟨hRead, hValues⟩
    | some route =>
      rw [hRoute] at hValue
      dsimp only at hValue
      obtain hDerived | hRaw := Bool.eq_false_or_eq_true route.derived
      · have hNext : reader.derivedOf (index :: indexes) = route :: reader.derivedOf indexes := by
          rw [derivedOf, List.filterMap_cons_some hRoute, List.filter_cons_of_pos hDerived]
          rfl
        have hName : reader.rawName index = none := by
          rw [rawName, hRoute]
          exact if_pos hDerived
        rw [if_pos hDerived] at hValue
        rw [hNext, List.filter_cons_of_pos (by rw [hName]; rfl), List.mapM_cons, hValue, hRead, List.map_cons,
          routeByIndex_index hRoute]
        refine ⟨rfl, ?_⟩
        cases hSome : single index with
        | none => rw [List.filterMap_cons_none rfl, List.filterMap_cons_none hSome, hValues]
        | some value => rw [List.filterMap_cons_some (f := id) rfl, List.filterMap_cons_some hSome, hValues]
      · have hSame : reader.derivedOf (index :: indexes) = reader.derivedOf indexes := by
          rw [derivedOf, List.filterMap_cons_some hRoute, List.filter_cons_of_neg (Bool.eq_false_iff.mp hRaw)]
          rfl
        have hName : reader.rawName index = some route.sharedMemoryName := by
          rw [rawName, hRoute]
          exact if_neg (Bool.eq_false_iff.mp hRaw)
        rw [hSame, List.filter_cons_of_neg (by rw [hName]; exact Bool.false_ne_true)]
        exact ⟨hRead, hValues⟩

/-- Where every single read returns at a depth, the batch returns there with the single values in order. -/
theorem getLatestByIndexes_singles
    (hSingle : ∀ index, reader.getLatestByIndex segments nowMs depth index = some (single index))
    (order : GroupOrder) (indexes : List UInt32) :
    reader.getLatestByIndexes segments nowMs order depth indexes =
      some ((indexes.filterMap single).mergeSort fun lhs rhs => decide (lhs.index ≤ rhs.index)) := by
  obtain ⟨hRead, hValues⟩ := derivedOf_eq hSingle indexes
  have hGroups : ((order.arrange (indexes.filterMap reader.rawName).dedup).flatMap
      (reader.groupValues segments nowMs indexes)).Perm
        ((indexes.filter fun index => (reader.rawName index).isSome).filterMap single) := by
    have hValues : reader.groupValues segments nowMs indexes = fun name =>
        (indexes.filter fun index => reader.rawName index = some name).filterMap single :=
      funext (groupValues_eq hSingle indexes)
    rw [hValues, ← List.filterMap_flatMap]
    exact (Picking.flatMap_groups (order.perm _)).filterMap single
  have hSplit : ((order.arrange (indexes.filterMap reader.rawName).dedup).flatMap
      (reader.groupValues segments nowMs indexes) ++
        ((reader.derivedOf indexes).map fun route => single route.index).filterMap id).Perm (indexes.filterMap single) := by
    rw [hValues]
    refine (hGroups.append_right _).trans ?_
    rw [← List.filterMap_append]
    exact (List.filter_append_perm _ indexes).filterMap single
  rw [getLatestByIndexes, hRead, Option.map_some]
  congr 1
  have hIndex : ∀ value ∈ indexes.filterMap single, single value.index = some value := by
    intro value hMem
    obtain ⟨index, -, hFound⟩ := List.mem_filterMap.mp hMem
    rw [getLatestByIndex_of_index ((hSingle index).trans (congrArg some hFound)), hFound]
  have hTrans : ∀ a b c : StoredPointValue, decide (a.index ≤ b.index) = true → decide (b.index ≤ c.index) = true →
      decide (a.index ≤ c.index) = true := by
    intro a b c hab hbc
    exact decide_eq_true (UInt32.le_trans (of_decide_eq_true hab) (of_decide_eq_true hbc))
  have hTotal : ∀ a b : StoredPointValue, (decide (a.index ≤ b.index) || decide (b.index ≤ a.index)) = true := by
    intro a b
    rw [← Bool.decide_or, decide_eq_true_eq]
    exact UInt32.le_total a.index b.index
  refine List.Perm.eq_of_pairwise ?_ (List.pairwise_mergeSort hTrans hTotal _) (List.pairwise_mergeSort hTrans hTotal _)
    ((List.mergeSort_perm _ _).trans (hSplit.trans (List.mergeSort_perm _ _).symm))
  intro a b ha hb hab hba
  have hSame := UInt32.le_antisymm (of_decide_eq_true hab) (of_decide_eq_true hba)
  have haSingle := hIndex a (hSplit.mem_iff.mp (List.mem_mergeSort.mp ha))
  have hbSingle := hIndex b (List.mem_mergeSort.mp hb)
  rw [hSame, hbSingle] at haSingle
  exact (Option.some.inj haSingle).symm

end Batch

theorem NonRecursive.singles (h : reader.NonRecursive) (segments : Segments) (nowMs : Int) :
    ∃ (single : UInt32 → Option StoredPointValue) (enough : Nat), ∀ depth, enough ≤ depth → ∀ index,
      reader.getLatestByIndex segments nowMs depth index = some (single index) := by
  obtain ⟨enough, hEnough⟩ := common_depth reader.routes fun route _ => @NonRecursive.returns reader segments nowMs h route
  refine ⟨fun index => (reader.getLatestByIndex segments nowMs enough index).getD none, enough, ?_⟩
  intro depth hDepth index
  dsimp only
  rw [getLatestByIndex, getLatestByIndex]
  cases hRoute : reader.routeByIndex index with
  | none => rfl
  | some route =>
    dsimp only
    obtain hDerived | hRaw := Bool.eq_false_or_eq_true route.derived
    · obtain ⟨value, hValue⟩ := hEnough route (List.mem_of_find?_eq_some hRoute)
      rw [if_pos hDerived, if_pos hDerived, hValue, getDerivedLatestByRoute_le hDepth hValue]
      rfl
    · rw [if_neg (Bool.eq_false_iff.mp hRaw), if_neg (Bool.eq_false_iff.mp hRaw)]
      rfl

/-- A batch read of non-recursive routes is its present single reads, sorted by index. -/
theorem batch_reads_singles (reader : RouteReader) (hNonRecursive : reader.NonRecursive) (segments : Segments)
    (nowMs : Int) (order : GroupOrder) (indexes : List UInt32) :
    ∃ (single : UInt32 → Option StoredPointValue) (enough : Nat), ∀ depth, enough ≤ depth →
      (∀ index, reader.getLatestByIndex segments nowMs depth index = some (single index)) ∧
      reader.getLatestByIndexes segments nowMs order depth indexes =
        some ((indexes.filterMap single).mergeSort fun lhs rhs => decide (lhs.index ≤ rhs.index)) := by
  obtain ⟨single, enough, hSingle⟩ := hNonRecursive.singles segments nowMs
  exact ⟨single, enough, fun depth hDepth =>
    ⟨hSingle depth hDepth, getLatestByIndexes_singles (hSingle depth hDepth) order indexes⟩⟩

def measuredRoute : PointRoute where
  index := 7
  sharedMemoryName := "points".toList
  writable := false
  sourceIndex := 7
  machineCode := "M1".toList
  meterCode := "meter".toList
  pointCode := "raw".toList

def stateRoute : PointRoute :=
  { measuredRoute with
    index := 900
    pointCode := "state".toList
    derived := true
    normalize :=
      { enabled := true
        faultRules := [⟨"state".toList, "1".toList, 0⟩, ⟨"raw".toList, "1".toList, 0⟩] } }

def normalizedReader : RouteReader where
  routes := [measuredRoute, stateRoute]
  distinct := by decide
  stores := fun _ => some (rival false)
  mapped := fun _ => true

theorem normalizedReader_nonRecursive : normalizedReader.NonRecursive := by
  apply NonRecursive.of_single
  intro route hRoute other hOther hDerived hOtherDerived
  have hState : ∀ route ∈ normalizedReader.routes, route.derived = true → route = stateRoute := by decide
  rw [hState route hRoute hDerived, hState other hOther hOtherDerived]

theorem normalized_batch_reads : ∃ (single : UInt32 → Option StoredPointValue) (enough : Nat), ∀ depth, enough ≤ depth →
    (∀ index, normalizedReader.getLatestByIndex (fun _ => .initial) 0 depth index = some (single index)) ∧
    normalizedReader.getLatestByIndexes (fun _ => .initial) 0 ⟨id, .refl⟩ depth [7, 900, 7] =
      some (([7, 900, 7].filterMap single).mergeSort fun lhs rhs => decide (lhs.index ≤ rhs.index)) :=
  batch_reads_singles normalizedReader normalizedReader_nonRecursive (fun _ => .initial) 0 ⟨id, .refl⟩ [7, 900, 7]

end RouteReader

end EdgeGateway.Router
