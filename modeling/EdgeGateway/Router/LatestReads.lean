import EdgeGateway.PointStore.BatchReads
import EdgeGateway.Router.PointStoreRouter

/-! # Reading through the router

A read of a derived route recurses through its fault rules without a bound in the source. Here
it carries a depth; a read returns when some depth is enough for it.
-/

namespace EdgeGateway.Router

open PointStore

/-- The routes in the map's order, the stores by name and whether the mapping of a name can be refreshed. -/
structure RouteReader where
  routes : List PointRoute
  distinct : (routes.map fun route => route.index).Nodup
  stores : StdString → Option MemoryPointStore
  mapped : StdString → Bool

/-- The order in which a hash map hands out its groups, which the standard leaves open. -/
structure GroupOrder where
  arrange : List StdString → List StdString
  perm : ∀ names, (arrange names).Perm names

namespace RouteReader

variable (reader : RouteReader) (segments : Segments) (nowMs : Int)

def routeByIndex (index : UInt32) : Option PointRoute := reader.routes.find? fun route => route.index == index

def readableStore (name : StdString) : Option MemoryPointStore := if reader.mapped name then reader.stores name else none

/-- The scan of `routeByPointCode`: the first raw route, or the last derived one. -/
def pointCodeScan (machineCode meterCode pointCode : StdString) : List PointRoute → Option PointRoute → Option PointRoute
  | [], fallback => fallback
  | route :: rest, fallback =>
    if route.machineCode ≠ machineCode ∨ route.meterCode ≠ meterCode ∨ route.pointCode ≠ pointCode then
      pointCodeScan machineCode meterCode pointCode rest fallback
    else if !route.derived then some route
    else pointCodeScan machineCode meterCode pointCode rest (some route)

def routeByPointCode (machineCode meterCode pointCode : StdString) : Option PointRoute :=
  pointCodeScan machineCode meterCode pointCode reader.routes none

def enrich (value : StoredPointValue) : StoredPointValue :=
  match reader.routeByIndex value.index with
  | none => value
  | some route =>
    { value with
      machineCode := if value.machineCode = [] then route.machineCode else value.machineCode
      meterCode := if value.meterCode = [] then route.meterCode else value.meterCode
      pointCode := if value.pointCode = [] then route.pointCode else value.pointCode }

def getRawLatestByRoute (route : PointRoute) : Option StoredPointValue :=
  match reader.readableStore route.sharedMemoryName with
  | none => none
  | some store =>
    (store.getLatestByIndex (segments route.sharedMemoryName) route.index nowMs).map reader.enrich

def usable (value : StoredPointValue) : Bool := value.quality == 1 && !value.stale

/-- What a fault rule's source reads: through the recursion for a derived route. -/
def faultValue (recurse : PointRoute → Option (Option StoredPointValue)) (faultRoute : PointRoute) :
    Option (Option StoredPointValue) :=
  if faultRoute.derived then recurse faultRoute else some (reader.getRawLatestByRoute segments nowMs faultRoute)

def triggers (value : Option StoredPointValue) (rule : ValueNormalizeFaultRule) : Bool :=
  value.any fun value => usable value && valueMatches value.value rule.triggerValue

/-- The loop over the fault rules of a route; the outer option is the depth of the recursion. -/
def faultLoop (recurse : PointRoute → Option (Option StoredPointValue)) (route : PointRoute) :
    List ValueNormalizeFaultRule → Option (Option RawDouble)
  | [] => some none
  | rule :: rest =>
    match reader.routeByPointCode route.machineCode route.meterCode rule.sourcePointCode with
    | none => faultLoop recurse route rest
    | some faultRoute =>
      if faultRoute.index = route.index then faultLoop recurse route rest
      else
        match reader.faultValue segments nowMs recurse faultRoute with
        | none => none
        | some value => if triggers value rule then some (some rule.standardValue) else faultLoop recurse route rest

def mappedValue (normalize : ValueNormalizeConfig) (raw : RawDouble) : RawDouble :=
  match normalize.mappings.find? fun mapping => valueMatches raw mapping.rawValue with
  | some mapping => mapping.standardValue
  | none => normalize.unknownValue

def derivedValue (route : PointRoute) (sourceValue : StoredPointValue) (value : RawDouble) : StoredPointValue :=
  { sourceValue with
    index := route.index
    machineCode := route.machineCode
    meterCode := route.meterCode
    pointCode := route.pointCode
    value := value }

/-- The raw value that a derived route is computed from. -/
def sourceValue (route : PointRoute) : Option StoredPointValue :=
  match reader.routeByIndex route.sourceIndex with
  | none => none
  | some sourceRoute => if sourceRoute.derived then none else reader.getRawLatestByRoute segments nowMs sourceRoute

def getDerivedLatestByRoute : Nat → PointRoute → Option (Option StoredPointValue)
  | 0, _ => none
  | depth + 1, route =>
    match reader.sourceValue segments nowMs route with
    | none => some none
    | some source =>
      if usable source then
        (reader.faultLoop segments nowMs (getDerivedLatestByRoute depth) route route.normalize.faultRules).map fun fault =>
          some (derivedValue route source (fault.getD (mappedValue route.normalize source.value)))
      else some (some (derivedValue route source (mappedValue route.normalize source.value)))

def getLatestByIndex (depth : Nat) (index : UInt32) : Option (Option StoredPointValue) :=
  match reader.routeByIndex index with
  | none => some none
  | some route =>
    if route.derived then reader.getDerivedLatestByRoute segments nowMs depth route
    else some (reader.getRawLatestByRoute segments nowMs route)

def rawName (index : UInt32) : Option StdString :=
  match reader.routeByIndex index with
  | none => none
  | some route => if route.derived then none else some route.sharedMemoryName

def groupValues (indexes : List UInt32) (name : StdString) : List StoredPointValue :=
  match reader.readableStore name with
  | none => []
  | some store =>
    (store.getLatestByIndexes (segments name) (indexes.filter fun index => reader.rawName index = some name) nowMs).map
      reader.enrich

def derivedOf (indexes : List UInt32) : List PointRoute :=
  (indexes.filterMap reader.routeByIndex).filter fun route => route.derived

/-- The batch read, its groups in the order of the hash map. -/
def getLatestByIndexes (order : GroupOrder) (depth : Nat) (indexes : List UInt32) : Option (List StoredPointValue) :=
  ((reader.derivedOf indexes).mapM (reader.getDerivedLatestByRoute segments nowMs depth)).map fun derived =>
    ((order.arrange (indexes.filterMap reader.rawName).dedup).flatMap (reader.groupValues segments nowMs indexes) ++
      derived.filterMap id).mergeSort fun lhs rhs => decide (lhs.index ≤ rhs.index)

section Depth

variable {reader segments nowMs}

theorem faultValue_mono {recurse further : PointRoute → Option (Option StoredPointValue)}
    (h : ∀ route value, recurse route = some value → further route = some value) {faultRoute : PointRoute}
    {value : Option StoredPointValue} (hValue : reader.faultValue segments nowMs recurse faultRoute = some value) :
    reader.faultValue segments nowMs further faultRoute = some value := by
  rw [faultValue] at hValue ⊢
  split
  · rename_i hDerived
    rw [if_pos hDerived] at hValue
    exact h faultRoute value hValue
  · rename_i hRaw
    rw [if_neg hRaw] at hValue
    exact hValue

theorem faultLoop_mono {recurse further : PointRoute → Option (Option StoredPointValue)}
    (h : ∀ route value, recurse route = some value → further route = some value) {route : PointRoute}
    {rules : List ValueNormalizeFaultRule} {fault : Option RawDouble}
    (hLoop : reader.faultLoop segments nowMs recurse route rules = some fault) :
    reader.faultLoop segments nowMs further route rules = some fault := by
  induction rules with
  | nil => exact hLoop
  | cons rule rest ih =>
    rw [faultLoop] at hLoop ⊢
    cases hRoute : reader.routeByPointCode route.machineCode route.meterCode rule.sourcePointCode with
    | none =>
      rw [hRoute] at hLoop
      exact ih hLoop
    | some faultRoute =>
      rw [hRoute] at hLoop
      dsimp only at hLoop ⊢
      split
      · rename_i hSelf
        rw [if_pos hSelf] at hLoop
        exact ih hLoop
      · rename_i hOther
        rw [if_neg hOther] at hLoop
        cases hValue : reader.faultValue segments nowMs recurse faultRoute with
        | none =>
          rw [hValue] at hLoop
          cases hLoop
        | some value =>
          rw [hValue] at hLoop
          rw [faultValue_mono h hValue]
          dsimp only at hLoop ⊢
          split
          · rename_i hTriggers
            rw [if_pos hTriggers] at hLoop
            exact hLoop
          · rename_i hSilent
            rw [if_neg hSilent] at hLoop
            exact ih hLoop

theorem getDerivedLatestByRoute_succ {depth : Nat} {route : PointRoute} {value : Option StoredPointValue}
    (h : reader.getDerivedLatestByRoute segments nowMs depth route = some value) :
    reader.getDerivedLatestByRoute segments nowMs (depth + 1) route = some value := by
  induction depth generalizing route value with
  | zero => cases h
  | succ depth ih =>
    rw [getDerivedLatestByRoute] at h ⊢
    cases hSource : reader.sourceValue segments nowMs route with
    | none =>
      rw [hSource] at h
      exact h
    | some source =>
      rw [hSource] at h
      dsimp only at h ⊢
      split
      · rename_i hUsable
        rw [if_pos hUsable] at h
        obtain ⟨fault, hLoop, hResult⟩ := Option.map_eq_some_iff.mp h
        rw [faultLoop_mono (fun _ _ => ih) hLoop, ← hResult]
        rfl
      · rename_i hUnusable
        rw [if_neg hUnusable] at h
        exact h

theorem getDerivedLatestByRoute_le {depth further : Nat} (hLe : depth ≤ further) {route : PointRoute}
    {value : Option StoredPointValue} (h : reader.getDerivedLatestByRoute segments nowMs depth route = some value) :
    reader.getDerivedLatestByRoute segments nowMs further route = some value := by
  induction hLe with
  | refl => exact h
  | step _ ih => exact getDerivedLatestByRoute_succ ih

end Depth

def Returns (route : PointRoute) : Prop :=
  ∃ depth value, reader.getDerivedLatestByRoute segments nowMs depth route = some value

def faultTarget (route : PointRoute) (rule : ValueNormalizeFaultRule) : Option PointRoute :=
  (reader.routeByPointCode route.machineCode route.meterCode rule.sourcePointCode).filter fun faultRoute =>
    faultRoute.index != route.index && faultRoute.derived

def LeadsTo (route target : PointRoute) : Prop :=
  ∃ rule ∈ route.normalize.faultRules, reader.faultTarget route rule = some target

section Returning

variable {reader segments nowMs}

/-- A loop whose derived sources all return within a depth returns. -/
theorem faultLoop_returns {depth : Nat} {route : PointRoute} {rules : List ValueNormalizeFaultRule}
    (h : ∀ rule ∈ rules, ∀ target, reader.faultTarget route rule = some target →
      ∃ value, reader.getDerivedLatestByRoute segments nowMs depth target = some value) :
    ∃ fault, reader.faultLoop segments nowMs (reader.getDerivedLatestByRoute segments nowMs depth) route rules =
      some fault := by
  induction rules with
  | nil => exact ⟨none, rfl⟩
  | cons rule rest ih =>
    obtain ⟨hRule, hRest⟩ := List.forall_mem_cons.mp h
    obtain ⟨fault, hFault⟩ := ih hRest
    rw [faultLoop]
    cases hRoute : reader.routeByPointCode route.machineCode route.meterCode rule.sourcePointCode with
    | none => exact ⟨fault, hFault⟩
    | some faultRoute =>
      dsimp only
      split
      · exact ⟨fault, hFault⟩
      · rename_i hOther
        have hValue : ∃ value, reader.faultValue segments nowMs
            (reader.getDerivedLatestByRoute segments nowMs depth) faultRoute = some value := by
          rw [faultValue]
          split
          · rename_i hDerived
            apply hRule faultRoute
            rw [faultTarget, hRoute, Option.filter_some_pos]
            rw [hDerived, Bool.and_true]
            exact bne_iff_ne.mpr hOther
          · exact ⟨_, rfl⟩
        obtain ⟨value, hValue⟩ := hValue
        rw [hValue]
        dsimp only
        split
        · exact ⟨_, rfl⟩
        · exact ⟨fault, hFault⟩

theorem common_depth (targets : List PointRoute) (h : ∀ target ∈ targets, reader.Returns segments nowMs target) :
    ∃ depth, ∀ target ∈ targets, ∃ value, reader.getDerivedLatestByRoute segments nowMs depth target = some value := by
  induction targets with
  | nil => exact ⟨0, List.forall_mem_nil _⟩
  | cons target targets ih =>
    obtain ⟨⟨first, value, hFirst⟩, hRest⟩ := List.forall_mem_cons.mp h
    obtain ⟨depth, hDepth⟩ := ih hRest
    refine ⟨max first depth, List.forall_mem_cons.mpr ⟨⟨value, ?_⟩, ?_⟩⟩
    · exact getDerivedLatestByRoute_le (Nat.le_max_left _ _) hFirst
    · intro other hOther
      obtain ⟨value, hValue⟩ := hDepth other hOther
      exact ⟨value, getDerivedLatestByRoute_le (Nat.le_max_right _ _) hValue⟩

theorem Returns.of_next {route : PointRoute}
    (h : (∃ source, reader.sourceValue segments nowMs route = some source ∧ usable source = true) →
      ∀ target, reader.LeadsTo route target → reader.Returns segments nowMs target) :
    reader.Returns segments nowMs route := by
  cases hSource : reader.sourceValue segments nowMs route with
  | none => exact ⟨1, none, by rw [getDerivedLatestByRoute, hSource]⟩
  | some source =>
    obtain hUsable | hUnusable := Bool.eq_false_or_eq_true (usable source)
    · obtain ⟨depth, hDepth⟩ := common_depth (route.normalize.faultRules.filterMap (reader.faultTarget route))
        fun target hTarget => h ⟨source, hSource, hUsable⟩ target (by
          obtain ⟨rule, hRule, hFound⟩ := List.mem_filterMap.mp hTarget
          exact ⟨rule, hRule, hFound⟩)
      obtain ⟨fault, hFault⟩ := @faultLoop_returns reader segments nowMs depth route route.normalize.faultRules
        fun rule hRule target hTarget => hDepth target (List.mem_filterMap.mpr ⟨rule, hRule, hTarget⟩)
      refine ⟨depth + 1, some (derivedValue route source (fault.getD (mappedValue route.normalize source.value))), ?_⟩
      rw [getDerivedLatestByRoute, hSource]
      dsimp only
      rw [if_pos hUsable, hFault]
      rfl
    · refine ⟨1, some (derivedValue route source (mappedValue route.normalize source.value)), ?_⟩
      rw [getDerivedLatestByRoute, hSource]
      dsimp only
      rw [if_neg (Bool.eq_false_iff.mp hUnusable)]

end Returning

end RouteReader

end EdgeGateway.Router
