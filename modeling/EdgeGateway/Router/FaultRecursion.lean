import EdgeGateway.Foundation.Fallible
import EdgeGateway.Router.BatchReads

/-! # When reading derived routes ends -/

namespace EdgeGateway.Router

open PointStore Fallible

/-- Each derived route stands for a raw one of the same memory, and no two for the same. -/
structure Sourced (routes : List PointRoute) : Prop where
  source : ∀ route ∈ routes, route.derived = true → ∃ raw ∈ routes, raw.derived = false ∧
    raw.index = route.sourceIndex ∧ raw.sharedMemoryName = route.sharedMemoryName
  single : ∀ route ∈ routes, ∀ other ∈ routes, route.derived = true → other.derived = true →
    route.sourceIndex = other.sourceIndex → route = other

namespace RouteTable

variable {table added : RouteTable} {route : PointRoute}

theorem addRoute_ok (h : table.addRoute route = .ok added) :
    added.routes = table.routes ++ [route] ∧ table.find route.index = none := by
  rw [addRoute] at h
  split at h
  · cases h
  · split at h
    · cases h
    · rename_i hFound
      rw [← Except.ok.inj h]
      exact ⟨rfl, hFound⟩

theorem allocateDerivedIndex_routes {configuredIndex index : UInt32}
    (h : table.allocateDerivedIndex configuredIndex = .ok (index, added)) : added.routes = table.routes := by
  rw [allocateDerivedIndex] at h
  split at h
  · rw [← (Prod.mk.inj (Except.ok.inj h)).2]
  · dsimp only at h
    split at h
    · cases h
    · rw [← (Prod.mk.inj (Except.ok.inj h)).2]

theorem addNormalizeRoute_ok {normalize : ValueNormalizeConfig} (h : table.addNormalizeRoute route normalize = .ok added) :
    added.routes = table.routes ∨ ∃ derived : PointRoute, added.routes = table.routes ++ [derived] ∧
      derived.derived = true ∧ derived.sourceIndex = route.index ∧
      derived.sharedMemoryName = route.sharedMemoryName := by
  rw [addNormalizeRoute] at h
  dsimp only at h
  generalize (if normalize.targetPointCode = [] then normalize.targetSemanticRole
    else normalize.targetPointCode) = targetPointCode at h
  split at h
  · exact .inl (by rw [Except.ok.inj h])
  · split at h
    · exact .inl (by rw [Except.ok.inj h])
    · split at h
      · exact .inl (by rw [Except.ok.inj h])
      · obtain ⟨⟨index, allocated⟩, hAllocated, hAdded⟩ := bind_ok_iff.mp h
        obtain ⟨hRoutes, -⟩ := addRoute_ok hAdded
        rw [allocateDerivedIndex_routes hAllocated] at hRoutes
        exact .inr ⟨_, hRoutes, rfl, rfl, rfl⟩

end RouteTable

section Sources

variable {routes : List PointRoute} {route : PointRoute}

theorem Sourced.perm (h : Sourced routes) {others : List PointRoute} (hPerm : others.Perm routes) : Sourced others where
  source := by
    intro route hRoute hDerived
    obtain ⟨raw, hRaw, hRest⟩ := h.source route (hPerm.mem_iff.mp hRoute) hDerived
    exact ⟨raw, hPerm.mem_iff.mpr hRaw, hRest⟩
  single := fun first hFirst second hSecond => h.single first (hPerm.mem_iff.mp hFirst) second (hPerm.mem_iff.mp hSecond)

theorem Sourced.snoc_raw (h : Sourced routes) (hRaw : route.derived = false) : Sourced (routes ++ [route]) := by
  have hDerived : ∀ other ∈ routes ++ [route], other.derived = true → other ∈ routes := by
    intro other hOther hKind
    obtain hMem | hLast := List.mem_append.mp hOther
    · exact hMem
    · rw [List.mem_singleton.mp hLast, hRaw] at hKind
      cases hKind
  constructor
  · intro other hOther hKind
    obtain ⟨raw, hMem, hSource⟩ := h.source other (hDerived other hOther hKind) hKind
    exact ⟨raw, List.mem_append_left _ hMem, hSource⟩
  · intro first hFirst second hSecond hFirstKind hSecondKind
    exact h.single first (hDerived first hFirst hFirstKind) second (hDerived second hSecond hSecondKind) hFirstKind
      hSecondKind

theorem Sourced.snoc_derived (h : Sourced routes) {raw : PointRoute} (hMem : raw ∈ routes) (hRaw : raw.derived = false)
    (hIndex : route.sourceIndex = raw.index) (hName : route.sharedMemoryName = raw.sharedMemoryName)
    (hFresh : ∀ other ∈ routes, other.derived = true → other.sourceIndex ≠ raw.index) : Sourced (routes ++ [route]) := by
  constructor
  · intro other hOther hKind
    obtain hOld | hNew := List.mem_append.mp hOther
    · obtain ⟨source, hSource, hRest⟩ := h.source other hOld hKind
      exact ⟨source, List.mem_append_left _ hSource, hRest⟩
    · obtain rfl := List.mem_singleton.mp hNew
      exact ⟨raw, List.mem_append_left _ hMem, hRaw, hIndex.symm, hName.symm⟩
  · intro first hFirst second hSecond hFirstKind hSecondKind hSame
    obtain hFirstOld | hFirstNew := List.mem_append.mp hFirst
    · obtain hSecondOld | hSecondNew := List.mem_append.mp hSecond
      · exact h.single first hFirstOld second hSecondOld hFirstKind hSecondKind hSame
      · rw [List.mem_singleton.mp hSecondNew, hIndex] at hSame
        exact absurd hSame (hFresh first hFirstOld hFirstKind)
    · obtain hSecondOld | hSecondNew := List.mem_append.mp hSecond
      · rw [List.mem_singleton.mp hFirstNew, hIndex] at hSame
        exact absurd hSame.symm (hFresh second hSecondOld hSecondKind)
      · rw [List.mem_singleton.mp hFirstNew, List.mem_singleton.mp hSecondNew]

theorem Sourced.addPoint {table added : RouteTable} (h : Sourced table.routes) (hRaw : route.derived = false)
    (hAdded : table.addPoint route = .ok added) : Sourced added.routes := by
  obtain ⟨between, hBetween, hNormalized⟩ := bind_ok_iff.mp hAdded
  obtain ⟨hRoutes, hFound⟩ := RouteTable.addRoute_ok hBetween
  have hRawSourced : Sourced between.routes := by
    rw [hRoutes]
    exact h.snoc_raw hRaw
  obtain hSame | ⟨derived, hSnoc, hKind, hSource, hName⟩ := RouteTable.addNormalizeRoute_ok hNormalized
  · rw [hSame]
    exact hRawSourced
  · rw [hSnoc]
    have hMem : route ∈ between.routes := by
      rw [hRoutes]
      exact List.mem_append_right _ List.mem_cons_self
    refine hRawSourced.snoc_derived hMem hRaw hSource hName ?_
    intro other hOther hOtherKind hIndex
    rw [hRoutes] at hOther
    obtain hOld | hNew := List.mem_append.mp hOther
    · obtain ⟨raw, hRawMem, -, hRawIndex, -⟩ := h.source other hOld hOtherKind
      exact table.find_eq_none hFound (List.mem_map.mpr ⟨raw, hRawMem, hRawIndex.trans hIndex⟩)
    · rw [List.mem_singleton.mp hNew, hRaw] at hOtherKind
      cases hOtherKind

end Sources

theorem configuredRoutes_raw (loadDlt645StandardPoints : StdString → List RoutedPoint) (fallback : StdString)
    (config : RoutedDeviceConfig) {route : PointRoute}
    (h : route ∈ configuredRoutes loadDlt645StandardPoints fallback config) : route.derived = false := by
  obtain hMeter | hPoint := List.mem_append.mp h
  · obtain ⟨⟨device, meterIndex⟩, -, hMeter⟩ := List.mem_flatMap.mp hMeter
    obtain ⟨point, -, rfl⟩ := List.mem_map.mp hMeter
    rfl
  · obtain ⟨point, -, rfl⟩ := List.mem_map.mp hPoint
    rfl

theorem addRoutesFromDeviceConfigs_sourced {loadDlt645StandardPoints : StdString → List RoutedPoint}
    {fallback : StdString} {deviceConfigs : List RoutedDeviceConfig} {table : RouteTable}
    (h : addRoutesFromDeviceConfigs loadDlt645StandardPoints fallback .empty deviceConfigs = .ok table) :
    Sourced table.routes := by
  have hRaw : ∀ route ∈ deviceConfigs.flatMap (configuredRoutes loadDlt645StandardPoints fallback),
      route.derived = false := by
    intro route hRoute
    obtain ⟨config, -, hConfigured⟩ := List.mem_flatMap.mp hRoute
    exact configuredRoutes_raw _ _ config hConfigured
  have hEmpty : Sourced RouteTable.empty.routes := ⟨List.forall_mem_nil _, List.forall_mem_nil _⟩
  refine foldlM_rule (fun passed added => (∀ route ∈ passed, route.derived = false) → Sourced added.routes)
    ?_ (fun _ => hEmpty) h hRaw
  intro passed route before added hBefore hAdded hAll
  obtain ⟨hPassed, hRoute⟩ := List.forall_mem_append.mp hAll
  exact (hBefore hPassed).addPoint (hRoute route List.mem_cons_self) hAdded

namespace RouteReader

/-- Derived routes with readable stores, each with a fault rule to one of them, no more in a memory than its
    slots. -/
structure FaultRing (reader : RouteReader) (ring : List PointRoute) : Prop where
  nonempty : ring ≠ []
  nodup : ring.Nodup
  listed : ∀ route ∈ ring, route ∈ reader.routes
  derived : ∀ route ∈ ring, route.derived = true
  readable : ∀ route ∈ ring, (reader.readableStore route.sharedMemoryName).isSome = true
  leads : ∀ route ∈ ring, ∃ target ∈ ring, reader.LeadsTo route target
  fits : ∀ name, (ring.filter fun route => route.sharedMemoryName = name).length ≤ kMaxLatestSlots

section Content

def sourceTable (members : List PointRoute) : LatestTable where
  latestCount := members.length
  latest := fun k =>
    if h : k.val < members.length then
      { index := members[k.val].sourceIndex, value := notANumber, quality := 1, occupied := true }
    else {}

def sourceSegments (ring : List PointRoute) : Segments := fun name =>
  { SharedStoreLayout.initial with table := sourceTable (ring.filter fun route => route.sharedMemoryName = name) }

variable {members ring : List PointRoute} {k : Fin kMaxLatestSlots} {index : UInt32}

theorem sourceTable_carries (h : (sourceTable members).Carries k index) :
    ∃ member ∈ members, member.sourceIndex = index ∧ (sourceTable members).latest k =
      { index := index, value := notANumber, quality := 1, occupied := true } := by
  obtain ⟨hOccupied, hIndex⟩ := h
  rw [sourceTable] at hOccupied hIndex ⊢
  dsimp only at hOccupied hIndex ⊢
  split at hOccupied
  · rename_i hLess
    rw [dif_pos hLess] at hIndex ⊢
    refine ⟨members[k.val], List.getElem_mem hLess, hIndex, ?_⟩
    rw [← hIndex]
  · cases hOccupied

theorem exists_sourceTable_carries (hFits : members.length ≤ kMaxLatestSlots) {member : PointRoute}
    (hMember : member ∈ members) : ∃ k, (sourceTable members).Carries k member.sourceIndex := by
  obtain ⟨i, hLess, rfl⟩ := List.getElem_of_mem hMember
  refine ⟨⟨i, Nat.lt_of_lt_of_le hLess hFits⟩, ?_⟩
  rw [LatestTable.Carries, sourceTable]
  dsimp only
  rw [dif_pos hLess]
  exact ⟨rfl, rfl⟩

end Content

section Reads

variable {reader : RouteReader} {segments : Segments} {nowMs : Int} {ring : List PointRoute} {route : PointRoute}
  {value : StoredPointValue}

theorem enrich_value (value : StoredPointValue) : (reader.enrich value).value = value.value ∧
    (reader.enrich value).quality = value.quality ∧ (reader.enrich value).stale = value.stale := by
  rw [enrich]
  split <;> exact ⟨rfl, rfl, rfl⟩

/-- The raw read of a route takes a slot that carries its index in its own memory. -/
theorem getRawLatestByRoute_some (h : reader.getRawLatestByRoute segments nowMs route = some value) :
    (reader.readableStore route.sharedMemoryName).isSome = true ∧
      ∃ k binding, (segments route.sharedMemoryName).table.Carries k route.index ∧
        value = reader.enrich
          (storedValue ((segments route.sharedMemoryName).table.latest k) binding nowMs) := by
  rw [getRawLatestByRoute] at h
  split at h
  · cases h
  · rename_i store hStore
    obtain ⟨stored, hStored, hValue⟩ := Option.map_eq_some_iff.mp h
    rw [getLatestByIndex_singleSlot] at hStored
    obtain ⟨k, hSlot, rfl⟩ := Option.map_eq_some_iff.mp hStored
    rw [hStore]
    exact ⟨rfl, k, _, LatestTable.singleSlot_carries hSlot, hValue.symm⟩

theorem getRawLatestByRoute_isSome {k : Fin kMaxLatestSlots}
    (hReadable : (reader.readableStore route.sharedMemoryName).isSome = true)
    (hCarries : (segments route.sharedMemoryName).table.Carries k route.index) :
    ∃ value, reader.getRawLatestByRoute segments nowMs route = some value := by
  obtain ⟨store, hStore⟩ := Option.isSome_iff_exists.mp hReadable
  have hSlot : ∃ j, (segments route.sharedMemoryName).table.singleSlot store.latestSlotByIndex route.index = some j := by
    rw [LatestTable.singleSlot]
    split
    · exact ⟨_, rfl⟩
    · rw [← Option.isSome_iff_exists, Option.isSome_iff_ne_none]
      intro hNone
      exact LatestTable.findLatestSlot_eq_none.mp hNone k hCarries
  obtain ⟨j, hj⟩ := hSlot
  rw [getRawLatestByRoute, hStore]
  dsimp only
  rw [getLatestByIndex_singleSlot, hj]
  exact ⟨_, rfl⟩

theorem getRawLatestByRoute_sourceSegments
    (h : reader.getRawLatestByRoute (sourceSegments ring) nowMs route = some value) :
    value.value = notANumber ∧ usable value = true ∧
      ∃ member ∈ ring, member.sharedMemoryName = route.sharedMemoryName ∧ member.sourceIndex = route.index := by
  obtain ⟨-, k, binding, hCarries, rfl⟩ := getRawLatestByRoute_some h
  obtain ⟨member, hMember, hIndex, hSlot⟩ := sourceTable_carries hCarries
  obtain ⟨hRing, hName⟩ := List.mem_filter.mp hMember
  have hLatest : (sourceSegments ring route.sharedMemoryName).table.latest k =
      { index := route.index, value := notANumber, quality := 1, occupied := true } := hSlot
  obtain ⟨hValue, hQuality, hStale⟩ := @enrich_value reader
    (storedValue ((sourceSegments ring route.sharedMemoryName).table.latest k) binding nowMs)
  refine ⟨?_, ?_, member, hRing, of_decide_eq_true hName, hIndex⟩
  · rw [hValue, hLatest]
    rfl
  · rw [usable, hQuality, hStale, hLatest]
    rfl

theorem routeByIndex_of_mem (h : route ∈ reader.routes) : reader.routeByIndex route.index = some route := by
  have hSome : (reader.routeByIndex route.index).isSome = true :=
    List.find?_isSome.mpr ⟨route, h, beq_self_eq_true route.index⟩
  obtain ⟨found, hFound⟩ := Option.isSome_iff_exists.mp hSome
  rw [hFound, List.inj_on_of_nodup_map reader.distinct (List.mem_of_find?_eq_some hFound) h (routeByIndex_index hFound)]

theorem sourceValue_eq (hSourced : Sourced reader.routes) (hMem : route ∈ reader.routes) (hDerived : route.derived = true) :
    ∃ raw : PointRoute, raw.index = route.sourceIndex ∧ raw.sharedMemoryName = route.sharedMemoryName ∧
      reader.sourceValue segments nowMs route = reader.getRawLatestByRoute segments nowMs raw := by
  obtain ⟨raw, hRaw, hKind, hIndex, hName⟩ := hSourced.source route hMem hDerived
  refine ⟨raw, hIndex, hName, ?_⟩
  rw [sourceValue, ← hIndex, routeByIndex_of_mem hRaw]
  dsimp only
  rw [if_neg (Bool.eq_false_iff.mp hKind)]

end Reads

section Divergence

variable {reader : RouteReader} {nowMs : Int} {ring : List PointRoute} {route : PointRoute}

theorem triggers_notANumber {value : StoredPointValue} (h : value.value = notANumber) (rule : ValueNormalizeFaultRule) :
    triggers (some value) rule = false := by
  rw [triggers, Option.any_some, h, valueMatches_notANumber, Bool.and_false]

theorem faultTarget_some {rule : ValueNormalizeFaultRule} {target : PointRoute}
    (h : reader.faultTarget route rule = some target) :
    reader.routeByPointCode route.machineCode route.meterCode rule.sourcePointCode = some target ∧
      target.index ≠ route.index ∧ target.derived = true := by
  obtain ⟨hFound, hKind⟩ := Option.filter_eq_some_iff.mp h
  obtain ⟨hOther, hDerived⟩ := Bool.and_eq_true_iff.mp hKind
  exact ⟨hFound, bne_iff_ne.mp hOther, hDerived⟩

/-- What a rule's source reads in the content of a ring triggers nothing, or its read has no end. -/
theorem faultValue_silent {recurse : PointRoute → Option (Option StoredPointValue)}
    (hRing : ∀ target ∈ ring, recurse target = none)
    (hOther : ∀ target ∈ reader.routes, target.derived = true → target ∉ ring →
      recurse target = none ∨ recurse target = some none)
    {faultRoute : PointRoute} (hListed : faultRoute ∈ reader.routes) (rule : ValueNormalizeFaultRule) :
    reader.faultValue (sourceSegments ring) nowMs recurse faultRoute = none ∨
      ∃ value, reader.faultValue (sourceSegments ring) nowMs recurse faultRoute = some value ∧
        triggers value rule = false := by
  rw [faultValue]
  split
  · rename_i hDerived
    obtain hMember | hOutside := Decidable.em (faultRoute ∈ ring)
    · exact .inl (hRing faultRoute hMember)
    · obtain hNone | hAbsent := hOther faultRoute hListed hDerived hOutside
      · exact .inl hNone
      · exact .inr ⟨none, hAbsent, rfl⟩
  · refine .inr ⟨_, rfl, ?_⟩
    cases hValue : reader.getRawLatestByRoute (sourceSegments ring) nowMs faultRoute with
    | none => rfl
    | some value => exact triggers_notANumber (getRawLatestByRoute_sourceSegments hValue).1 rule

/-- A loop over rules, one of which leads to a read without end, has no end itself. -/
theorem faultLoop_diverges {recurse : PointRoute → Option (Option StoredPointValue)}
    (hRing : ∀ target ∈ ring, recurse target = none)
    (hOther : ∀ target ∈ reader.routes, target.derived = true → target ∉ ring →
      recurse target = none ∨ recurse target = some none)
    {rules : List ValueNormalizeFaultRule} {rule : ValueNormalizeFaultRule} {target : PointRoute} (hRule : rule ∈ rules)
    (hTarget : reader.faultTarget route rule = some target) (hMember : target ∈ ring) :
    reader.faultLoop (sourceSegments ring) nowMs recurse route rules = none := by
  obtain ⟨hFound, hDifferent, hDerived⟩ := faultTarget_some hTarget
  induction rules with
  | nil => cases hRule
  | cons first rest ih =>
    rw [faultLoop]
    obtain rfl | hRest := List.mem_cons.mp hRule
    · rw [hFound]
      dsimp only
      rw [if_neg hDifferent, faultValue, if_pos hDerived, hRing target hMember]
    · cases hRoute : reader.routeByPointCode route.machineCode route.meterCode first.sourcePointCode with
      | none => exact ih hRest
      | some faultRoute =>
        dsimp only
        split
        · exact ih hRest
        · have hListed : faultRoute ∈ reader.routes := by
            obtain hMem | hNone := pointCodeScan_mem hRoute
            · exact hMem
            · cases hNone
          obtain hNone | ⟨value, hValue, hSilent⟩ := @faultValue_silent reader nowMs ring recurse hRing hOther
            faultRoute hListed first
          · rw [hNone]
          · rw [hValue]
            dsimp only
            rw [if_neg (Bool.eq_false_iff.mp hSilent)]
            exact ih hRest

theorem FaultRing.diverges (hSourced : Sourced reader.routes) (h : reader.FaultRing ring) (depth : Nat) :
    ∀ route ∈ ring, reader.getDerivedLatestByRoute (sourceSegments ring) nowMs depth route = none := by
  induction depth with
  | zero => exact fun _ _ => rfl
  | succ depth ih =>
    intro route hRoute
    obtain ⟨raw, hIndex, hName, hSource⟩ :=
      @sourceValue_eq reader (sourceSegments ring) nowMs route hSourced (h.listed route hRoute) (h.derived route hRoute)
    obtain ⟨k, hCarries⟩ := exists_sourceTable_carries (h.fits route.sharedMemoryName)
      (List.mem_filter.mpr ⟨hRoute, decide_eq_true rfl⟩)
    have hReadable : (reader.readableStore raw.sharedMemoryName).isSome = true := by
      rw [hName]
      exact h.readable route hRoute
    have hHeld : (sourceSegments ring raw.sharedMemoryName).table.Carries k raw.index := by
      rw [hName, hIndex]
      exact hCarries
    obtain ⟨value, hValue⟩ := @getRawLatestByRoute_isSome reader (sourceSegments ring) nowMs raw k hReadable hHeld
    obtain ⟨-, hUsable, -⟩ := getRawLatestByRoute_sourceSegments hValue
    obtain ⟨target, hMember, rule, hRule, hTarget⟩ := h.leads route hRoute
    rw [getDerivedLatestByRoute, hSource, hValue]
    dsimp only
    rw [if_pos hUsable, faultLoop_diverges ih ?_ hRule hTarget hMember]
    · rfl
    · intro other hListed hDerived hOutside
      cases depth with
      | zero => exact .inl rfl
      | succ depth =>
        refine .inr ?_
        obtain ⟨otherRaw, hOtherIndex, hOtherName, hOtherSource⟩ :=
          @sourceValue_eq reader (sourceSegments ring) nowMs other hSourced hListed hDerived
        rw [getDerivedLatestByRoute, hOtherSource]
        cases hRead : reader.getRawLatestByRoute (sourceSegments ring) nowMs otherRaw with
        | none => rfl
        | some read =>
          obtain ⟨-, -, member, hRing, -, hSame⟩ := getRawLatestByRoute_sourceSegments hRead
          have hOne := hSourced.single member (h.listed member hRing) other hListed (h.derived member hRing) hDerived
            (hSame.trans hOtherIndex)
          exact absurd (hOne ▸ hRing) hOutside

end Divergence

section Ending

variable {reader : RouteReader} {segments : Segments} {nowMs : Int} {route : PointRoute}

/-- The route's source reads a value, and one of its rules leads on. -/
structure Continues (reader : RouteReader) (segments : Segments) (nowMs : Int) (route target : PointRoute) : Prop where
  listed : route ∈ reader.routes
  derived : route.derived = true
  source : ∃ value, reader.sourceValue segments nowMs route = some value
  leads : reader.LeadsTo route target

theorem source_carries (hSourced : Sourced reader.routes) (hMem : route ∈ reader.routes) (hDerived : route.derived = true)
    {value : StoredPointValue} (hSource : reader.sourceValue segments nowMs route = some value) :
    (reader.readableStore route.sharedMemoryName).isSome = true ∧
      ∃ k, (segments route.sharedMemoryName).table.Carries k route.sourceIndex := by
  obtain ⟨raw, hIndex, hName, hRead⟩ := @sourceValue_eq reader segments nowMs route hSourced hMem hDerived
  rw [hRead] at hSource
  obtain ⟨hReadable, k, binding, hCarries, -⟩ := getRawLatestByRoute_some hSource
  rw [hName] at hReadable hCarries
  exact ⟨hReadable, k, hIndex ▸ hCarries⟩

theorem ring_of_continues (hSourced : Sourced reader.routes) {part : List PointRoute} (hSome : part ≠ [])
    (hNodup : part.Nodup) (h : ∀ route ∈ part, ∃ target ∈ part, reader.Continues segments nowMs route target) :
    reader.FaultRing part where
  nonempty := hSome
  nodup := hNodup
  listed := fun route hRoute => (h route hRoute).elim fun _ hNext => hNext.2.listed
  derived := fun route hRoute => (h route hRoute).elim fun _ hNext => hNext.2.derived
  readable := by
    intro route hRoute
    obtain ⟨target, -, hNext⟩ := h route hRoute
    obtain ⟨value, hSource⟩ := hNext.source
    exact (source_carries hSourced hNext.listed hNext.derived hSource).1
  leads := fun route hRoute => (h route hRoute).elim fun target hNext => ⟨target, hNext.1, hNext.2.leads⟩
  fits := by
    intro name
    have hDistinct : ((part.filter fun route => route.sharedMemoryName = name).map fun route =>
        route.sourceIndex).Nodup := by
      apply List.Nodup.map_on _ (hNodup.filter _)
      intro first hFirst second hSecond hSame
      obtain ⟨_, _, hFirstNext⟩ := h first (List.mem_filter.mp hFirst).1
      obtain ⟨_, _, hSecondNext⟩ := h second (List.mem_filter.mp hSecond).1
      exact hSourced.single first hFirstNext.listed second hSecondNext.listed hFirstNext.derived hSecondNext.derived hSame
    have hHeld : ((part.filter fun route => route.sharedMemoryName = name).map fun route => route.sourceIndex) ⊆
        (List.finRange kMaxLatestSlots).map fun k => ((segments name).table.latest k).index := by
      intro index hIndex
      obtain ⟨route, hRoute, rfl⟩ := List.mem_map.mp hIndex
      obtain ⟨hPart, hName⟩ := List.mem_filter.mp hRoute
      obtain ⟨target, -, hNext⟩ := h route hPart
      obtain ⟨value, hSource⟩ := hNext.source
      obtain ⟨-, k, hCarries⟩ := source_carries hSourced hNext.listed hNext.derived hSource
      rw [of_decide_eq_true hName] at hCarries
      exact List.mem_map.mpr ⟨k, List.mem_finRange k, hCarries.2⟩
    have hLength := (List.subperm_of_subset hDistinct hHeld).length_le
    rwa [List.length_map, List.length_map, List.length_finRange] at hLength

theorem returns_of_no_ring (hSourced : Sourced reader.routes) (h : ¬∃ ring, reader.FaultRing ring)
    (hMem : route ∈ reader.routes) (hDerived : route.derived = true) : reader.Returns segments nowMs route := by
  have hEnds : WellFounded fun target route => reader.Continues segments nowMs route target := by
    apply Graph.wellFounded_of_exits fun _ _ hNext => hNext.leads.listed.1
    intro part hSome hNodup _
    by_contra hNone
    refine h ⟨part, @ring_of_continues reader segments nowMs hSourced part hSome hNodup fun route hRoute => ?_⟩
    by_contra hStuck
    exact hNone ⟨route, hRoute, fun target hTarget hNext => hStuck ⟨target, hTarget, hNext⟩⟩
  induction route using hEnds.induction with
  | h route ih =>
    apply Returns.of_next
    rintro ⟨source, hSource, -⟩ target hTarget
    exact ih target ⟨hMem, hDerived, ⟨source, hSource⟩, hTarget⟩ hTarget.listed.1 hTarget.listed.2.1

theorem mapM_some {α β : Type} {f : α → Option β} {xs : List α} (h : ∀ x ∈ xs, ∃ y, f x = some y) :
    ∃ ys, xs.mapM f = some ys := by
  induction xs with
  | nil => exact ⟨[], rfl⟩
  | cons x xs ih =>
    obtain ⟨⟨y, hy⟩, hRest⟩ := List.forall_mem_cons.mp h
    obtain ⟨ys, hys⟩ := ih hRest
    exact ⟨y :: ys, by rw [List.mapM_cons, hy, hys]; rfl⟩

end Ending

/-- Every read returns for every content of the stores, iff no derived routes form a ring. -/
theorem derived_reads_return_iff (loadDlt645StandardPoints : StdString → List RoutedPoint) (fallback : StdString)
    (deviceConfigs : List RoutedDeviceConfig) (table : RouteTable)
    (hBuilt : addRoutesFromDeviceConfigs loadDlt645StandardPoints fallback .empty deviceConfigs = .ok table)
    (reader : RouteReader) (hRoutes : reader.routes.Perm table.routes) :
    (∀ segments nowMs, (∀ index, ∃ depth value, reader.getLatestByIndex segments nowMs depth index = some value) ∧
      ∀ order indexes, ∃ depth values, reader.getLatestByIndexes segments nowMs order depth indexes = some values) ↔
    ¬∃ ring, reader.FaultRing ring := by
  have hTable := addRoutesFromDeviceConfigs_sourced hBuilt
  have hSourced : Sourced reader.routes := hTable.perm hRoutes
  constructor
  · rintro hReturns ⟨ring, hRing⟩
    obtain ⟨route, hRoute⟩ := List.exists_mem_of_ne_nil ring hRing.nonempty
    obtain ⟨depth, value, hValue⟩ := (hReturns (sourceSegments ring) 0).1 route.index
    rw [getLatestByIndex, routeByIndex_of_mem (hRing.listed route hRoute)] at hValue
    dsimp only at hValue
    rw [if_pos (hRing.derived route hRoute), hRing.diverges hSourced depth route hRoute] at hValue
    cases hValue
  · intro hNone segments nowMs
    have hAll : ∀ route ∈ reader.routes, route.derived = true → reader.Returns segments nowMs route :=
      fun route hMem hDerived => returns_of_no_ring hSourced hNone hMem hDerived
    constructor
    · intro index
      cases hRoute : reader.routeByIndex index with
      | none => exact ⟨0, none, by rw [getLatestByIndex, hRoute]⟩
      | some route =>
        obtain hDerived | hRaw := Bool.eq_false_or_eq_true route.derived
        · obtain ⟨depth, value, hValue⟩ := hAll route (List.mem_of_find?_eq_some hRoute) hDerived
          refine ⟨depth, value, ?_⟩
          rw [getLatestByIndex, hRoute]
          dsimp only
          rw [if_pos hDerived, hValue]
        · refine ⟨0, reader.getRawLatestByRoute segments nowMs route, ?_⟩
          rw [getLatestByIndex, hRoute]
          dsimp only
          rw [if_neg (Bool.eq_false_iff.mp hRaw)]
    · intro order indexes
      have hDerived : ∀ route ∈ reader.derivedOf indexes, reader.Returns segments nowMs route := by
        intro route hRoute
        obtain ⟨hFound, hKind⟩ := List.mem_filter.mp hRoute
        obtain ⟨index, -, hIndex⟩ := List.mem_filterMap.mp hFound
        exact hAll route (List.mem_of_find?_eq_some hIndex) hKind
      obtain ⟨depth, hDepth⟩ := common_depth (reader.derivedOf indexes) hDerived
      obtain ⟨values, hValues⟩ := mapM_some hDepth
      exact ⟨depth, _, by rw [getLatestByIndexes, hValues]; rfl⟩

def switchPoint (index : UInt32) (pointCode target fault : StdString) : RoutedPoint where
  index := index
  pointCode := pointCode
  normalize :=
    { enabled := true
      targetIndex := index + 100
      targetPointCode := target
      faultRules := [⟨fault, "1".toList, 0⟩] }

def cabinet (points : List RoutedPoint) : RoutedDeviceConfig where
  machineCode := "M1".toList
  meterCode := "meter".toList
  sharedMemoryName := "points".toList
  protocolType := "modbus_tcp".toList
  standardPointsFile := []
  meters := []
  points := points

def switchRoute (point : RoutedPoint) : PointRoute := pointRoute (cabinet [point]) "points".toList "meter".toList point

def switchDerived (point : RoutedPoint) : PointRoute :=
  { switchRoute point with
    index := point.normalize.targetIndex
    pointCode := point.normalize.targetPointCode
    derived := true
    writable := false }

def switchReader (table : RouteTable) : RouteReader where
  routes := table.routes
  distinct := table.distinct
  stores := fun _ => some (rival false)
  mapped := fun _ => true

theorem switchReader_routes (table : RouteTable) : (switchReader table).routes = table.routes := rfl

def loneSwitch : RoutedPoint := switchPoint 1 "raw".toList "state".toList "state".toList

theorem loneSwitch_built : ∃ table, addRoutesFromDeviceConfigs (fun _ => []) [] .empty [cabinet [loneSwitch]] = .ok table ∧
    table.routes = [switchRoute loneSwitch, switchDerived loneSwitch] :=
  ⟨_, rfl, rfl⟩

theorem lone_switch_reads : ∃ table, addRoutesFromDeviceConfigs (fun _ => []) [] .empty [cabinet [loneSwitch]] = .ok table ∧
    ∀ segments nowMs, (∀ index, ∃ depth value,
      (switchReader table).getLatestByIndex segments nowMs depth index = some value) ∧
        ∀ order indexes, ∃ depth values,
          (switchReader table).getLatestByIndexes segments nowMs order depth indexes = some values := by
  obtain ⟨table, hBuilt, hRoutes⟩ := loneSwitch_built
  refine ⟨table, hBuilt, (derived_reads_return_iff _ _ _ table hBuilt (switchReader table) (.refl _)).mpr ?_⟩
  rintro ⟨ring, hRing⟩
  have hOnly : ∀ route ∈ ring, route = switchDerived loneSwitch := by
    intro route hRoute
    have hMem := hRing.listed route hRoute
    have hDerived := hRing.derived route hRoute
    rw [switchReader_routes, hRoutes, List.mem_cons, List.mem_singleton] at hMem
    obtain rfl | rfl := hMem
    · cases hDerived
    · rfl
  obtain ⟨route, hRoute⟩ := List.exists_mem_of_ne_nil ring hRing.nonempty
  obtain ⟨target, hTarget, hLeads⟩ := hRing.leads route hRoute
  refine hLeads.listed.2.2 ?_
  rw [hOnly route hRoute, hOnly target hTarget]

def firstSwitch : RoutedPoint := switchPoint 1 "a".toList "A".toList "B".toList

def secondSwitch : RoutedPoint := switchPoint 2 "b".toList "B".toList "A".toList

theorem switches_built : ∃ table,
    addRoutesFromDeviceConfigs (fun _ => []) [] .empty [cabinet [firstSwitch, secondSwitch]] = .ok table ∧
      table.routes =
        [switchRoute firstSwitch, switchDerived firstSwitch, switchRoute secondSwitch, switchDerived secondSwitch] :=
  ⟨_, rfl, rfl⟩

theorem switches_ring {table : RouteTable} (hRoutes : table.routes =
    [switchRoute firstSwitch, switchDerived firstSwitch, switchRoute secondSwitch, switchDerived secondSwitch]) :
    (switchReader table).FaultRing [switchDerived firstSwitch, switchDerived secondSwitch] where
  nonempty := List.cons_ne_nil _ _
  nodup := by decide
  listed := by
    rw [switchReader_routes, hRoutes]
    decide
  derived := by decide
  readable := fun _ _ => rfl
  leads := by
    have hScan : ∀ code, (switchReader table).routeByPointCode "M1".toList "meter".toList code =
        pointCodeScan "M1".toList "meter".toList code [switchRoute firstSwitch, switchDerived firstSwitch,
          switchRoute secondSwitch, switchDerived secondSwitch] none := by
      intro code
      rw [routeByPointCode, switchReader_routes, hRoutes]
    refine List.forall_mem_cons.mpr ⟨?_, List.forall_mem_singleton.mpr ?_⟩
    · refine ⟨switchDerived secondSwitch, by decide, ⟨"B".toList, "1".toList, 0⟩, by decide, ?_⟩
      rw [faultTarget]
      exact (congrArg _ (hScan "B".toList)).trans (by decide)
    · refine ⟨switchDerived firstSwitch, by decide, ⟨"A".toList, "1".toList, 0⟩, by decide, ?_⟩
      rw [faultTarget]
      exact (congrArg _ (hScan "A".toList)).trans (by decide)
  fits := by
    intro name
    refine (List.length_filter_le _ _).trans ?_
    rw [kMaxLatestSlots]
    decide

theorem mutual_switches_diverge : ∃ table,
    addRoutesFromDeviceConfigs (fun _ => []) [] .empty [cabinet [firstSwitch, secondSwitch]] = .ok table ∧
      ∃ segments nowMs, ∀ depth, (switchReader table).getLatestByIndex segments nowMs depth 101 = none ∧
        ∀ order, (switchReader table).getLatestByIndexes segments nowMs order depth [101] = none := by
  obtain ⟨table, hBuilt, hRoutes⟩ := switches_built
  have hSourced : Sourced (switchReader table).routes := addRoutesFromDeviceConfigs_sourced hBuilt
  refine ⟨table, hBuilt, sourceSegments [switchDerived firstSwitch, switchDerived secondSwitch], 0, fun depth => ?_⟩
  have hNone := @FaultRing.diverges (switchReader table) 0 _ hSourced (switches_ring hRoutes) depth
    (switchDerived firstSwitch) List.mem_cons_self
  have hRoute : (switchReader table).routeByIndex 101 = some (switchDerived firstSwitch) := by
    rw [routeByIndex, switchReader_routes, hRoutes]
    rfl
  constructor
  · rw [getLatestByIndex, hRoute]
    exact hNone
  · intro order
    have hDerived : (switchReader table).derivedOf [101] = [switchDerived firstSwitch] := by
      rw [derivedOf, List.filterMap_cons_some hRoute]
      rfl
    rw [getLatestByIndexes, hDerived, List.mapM_cons, hNone]
    rfl

end RouteReader

end EdgeGateway.Router
