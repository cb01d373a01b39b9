import EdgeGateway.Compute.Service
import EdgeGateway.Foundation.Registry
import EdgeGateway.GraphEms.Engine
import EdgeGateway.GraphEms.Holdings
import Mathlib.Algebra.Order.Ring.Rat

/-! # Which rules may own an index -/

namespace EdgeGateway.Compute

open EdgeGateway.Fallible GraphEms

universe u

/-- What the text about an owner is made of; the name of an output is left out. -/
inductive OwnerDescription where
  | port (graphCode : StdString) (claim : GraphEmsIndexClaim)
  | output (script mode : StdString)
deriving DecidableEq

structure IndexOwner where
  index : UInt32
  ruleCode : StdString
  description : OwnerDescription
  preserveImportedBehavior : Bool := false
deriving DecidableEq

inductive StartError where
  | legacyEms (ruleCode : StdString)
  | preload (ruleCode message : StdString)
  | notPreloaded (ruleCode : StdString)
  | conflict (first duplicate : IndexOwner)
deriving DecidableEq

structure GraphEmsRuntimeState where
  config : GraphEmsConfig
  engine : GraphEmsEngine

abbrev GraphEmsStates := List (StdString × GraphEmsRuntimeState)

/-- What the rules of graphs are built from, outside of the configuration. -/
structure GraphSources (K : Type u) where
  order : IdOrder
  routed : UInt32 → Bool
  /-- The content of the graph file; an error where none is named or it cannot be read. -/
  document : ComputeRuleConfig K → GraphEms.Fallible JsonObject
  profile : ComputeRuleConfig K → Params

variable {K : Type u} (sources : GraphSources K)

def isGraphEms (rule : ComputeRuleConfig K) : Bool := rule.script.type = "graphEms".toList

def preloadGraphEmsEngine (states : GraphEmsStates) (rule : ComputeRuleConfig K) : GraphEms.Fallible GraphEmsStates := do
  let key := safeRuleCode rule
  require (states.lookup key).isNone ("duplicate enabled graphEms rule identity: ".toList ++ key)
  let object ← sources.document rule
  let config ← parseExecutableV2Graph sources.order object
  let engine ← createEngine sources.routed (sources.profile rule) config
  return states ++ [(key, ⟨config, engine⟩)]

def preloadRule (states : GraphEmsStates) (rule : ComputeRuleConfig K) : Except StartError GraphEmsStates :=
  if rule.script.type = "legacyEms".toList then .error (.legacyEms (safeRuleCode rule))
  else if !rule.enabled || !isGraphEms rule then .ok states
  else (preloadGraphEmsEngine sources states rule).mapError (.preload (safeRuleCode rule))

def registerOwner (owners : List IndexOwner) (owner : IndexOwner) : Except StartError (List IndexOwner) :=
  if owner.index = 0 then .ok owners
  else match owners.find? fun existing => existing.index == owner.index with
    | none => .ok (owners ++ [owner])
    | some existing =>
      if !existing.preserveImportedBehavior || !owner.preserveImportedBehavior then .error (.conflict existing owner)
      else .ok owners

def claimOwner (ruleCode : StdString) (graph : GraphEmsConfig) (claim : GraphEmsIndexClaim) : IndexOwner where
  index := claim.index
  ruleCode := ruleCode
  description := .port graph.graphCode claim
  preserveImportedBehavior := graph.preserveImportedBehavior

def outputOwner (rule : ComputeRuleConfig K) (output : ComputeOutputConfig K) : IndexOwner where
  index := output.index
  ruleCode := safeRuleCode rule
  description := .output rule.script.type output.mode

def ruleOwners (states : GraphEmsStates) (rule : ComputeRuleConfig K) : Except StartError (List IndexOwner) :=
  if isGraphEms rule then
    match states.lookup (safeRuleCode rule) with
    | none => .error (.notPreloaded (safeRuleCode rule))
    | some state => .ok (state.config.indexClaims.map (claimOwner (safeRuleCode rule) state.config))
  else .ok (rule.outputs.map (outputOwner rule))

def registerRule (states : GraphEmsStates) (owners : List IndexOwner) (rule : ComputeRuleConfig K) :
    Except StartError (List IndexOwner) :=
  if rule.enabled then do
    let new ← ruleOwners states rule
    new.foldlM registerOwner owners
  else .ok owners

def validateEnabledRuleIndexOwnership (states : GraphEmsStates) (rules : List (ComputeRuleConfig K)) :
    Except StartError Unit := do
  let _ ← rules.foldlM (registerRule states) []
  return ()

def preloadRules (rules : List (ComputeRuleConfig K)) : Except StartError GraphEmsStates :=
  rules.foldlM (preloadRule sources) []

def createService (rules : List (ComputeRuleConfig K)) : Except StartError GraphEmsStates := do
  let states ← preloadRules sources rules
  validateEnabledRuleIndexOwnership states rules
  return states

structure Use where
  index : UInt32
  preserve : Bool
  writes : Bool
deriving DecidableEq

def nonZero (index : UInt32) : Option UInt32 := if index = 0 then none else some index

def graphUses (stages : Stages) : List Use :=
  ((holdings stages.read).filter Holding.isEnabled).map fun holding =>
    ⟨holding.index, stages.compile.preserveImportedBehavior, !holding.node.isPointInput⟩

def ruleUses (rule : ComputeRuleConfig K) : List Use :=
  if isGraphEms rule then (((sources.document rule).bind loadStages).map graphUses).toOption.getD []
  else rule.outputs.map fun output => ⟨output.index, false, true⟩

def uses (rules : List (ComputeRuleConfig K)) : List Use := (rules.filter (·.enabled)).flatMap (ruleUses sources)

/-- Two uses of a non-zero index, not both by graphs that preserve imported behavior, cannot be together. -/
def Use.Tolerates (a b : Use) : Prop := Registry.Tolerates (fun use => nonZero use.index) Use.preserve a b

def writers (rules : List (ComputeRuleConfig K)) : List Use := (uses sources rules).filter Use.writes

def WritersConflictAt (rules : List (ComputeRuleConfig K)) (index : UInt32) : Prop :=
  ∃ a b, List.Sublist [a, b] (writers sources rules) ∧ a.index = index ∧ ¬ a.Tolerates b

/-- In the order of rules and ports, this is the first index to be named again without both preserving. -/
def ClashesFirst (rules : List (ComputeRuleConfig K)) (index : UInt32) : Prop :=
  Registry.ClashesFirstAt (fun use => nonZero use.index) Use.preserve (uses sources rules) index

/-- A conflict is reported if there is one between writers, and it is reported at such an index. -/
def ReportsWriterConflicts (rules : List (ComputeRuleConfig K)) : Prop :=
  ((∃ first duplicate, createService sources rules = .error (.conflict first duplicate)) ↔
    ∃ index, WritersConflictAt sources rules index) ∧
  ∀ first duplicate, createService sources rules = .error (.conflict first duplicate) →
    WritersConflictAt sources rules duplicate.index

variable {sources}

section Preloading

def Preloaded (sources : GraphSources K) (rules : List (ComputeRuleConfig K)) (states : GraphEmsStates) : Prop :=
  ∀ rule ∈ rules, rule.enabled = true → isGraphEms rule = true → ∃ object stages state,
    sources.document rule = .ok object ∧ loadStages object = .ok stages ∧
      states.lookup (safeRuleCode rule) = some state ∧ state.config = Stages.config stages

variable {states states' : GraphEmsStates} {rule : ComputeRuleConfig K} {rules : List (ComputeRuleConfig K)}

theorem preloadGraphEmsEngine_ok (h : preloadGraphEmsEngine sources states rule = .ok states') :
    ∃ object stages engine, states.lookup (safeRuleCode rule) = none ∧ sources.document rule = .ok object ∧
      loadStages object = .ok stages ∧ states' = states ++ [(safeRuleCode rule, ⟨Stages.config stages, engine⟩)] := by
  unfold preloadGraphEmsEngine at h
  simp only [bind_ok_iff, require_ok_iff, pure_ok_iff] at h
  obtain ⟨-, hFresh, object, hObject, config, hConfig, engine, -, hStates⟩ := h
  obtain ⟨stages, hStages, hRest⟩ := bind_ok_iff.mp hConfig
  obtain ⟨-, -, hSame⟩ := bind_ok_iff.mp hRest
  rw [pure_ok_iff] at hSame
  refine ⟨object, stages, engine, by simpa using hFresh, hObject, hStages, ?_⟩
  rw [hSame]
  exact hStates.symm

theorem Preloaded.keeps (h : Preloaded sources rules states) (key : StdString) (new : GraphEmsRuntimeState) :
    Preloaded sources rules (states ++ [(key, new)]) := by
  intro rule hRule hEnabled hGraph
  obtain ⟨object, stages, state, hObject, hStages, hState, hConfig⟩ := h rule hRule hEnabled hGraph
  refine ⟨object, stages, state, hObject, hStages, ?_, hConfig⟩
  rw [List.lookup_append, hState]
  rfl

theorem Preloaded.snoc (h : Preloaded sources rules states)
    (hLast : rule.enabled = true → isGraphEms rule = true → Preloaded sources [rule] states) :
    Preloaded sources (rules ++ [rule]) states := by
  intro other hOther hEnabled hGraph
  cases List.mem_append.mp hOther with
  | inl hOld => exact h other hOld hEnabled hGraph
  | inr hNew =>
    obtain rfl := List.mem_singleton.mp hNew
    exact hLast hEnabled hGraph other hNew hEnabled hGraph

theorem preloadRule_ok (h : preloadRule sources states rule = .ok states') (hPreloaded : Preloaded sources rules states) :
    Preloaded sources (rules ++ [rule]) states' := by
  unfold preloadRule at h
  split at h
  · cases h
  · split at h
    · rename_i hSkipped
      cases h
      refine hPreloaded.snoc fun hEnabled hGraph => ?_
      rw [hEnabled, hGraph] at hSkipped
      cases hSkipped
    · cases hEngine : preloadGraphEmsEngine sources states rule with
      | error message =>
        rw [hEngine] at h
        cases h
      | ok next =>
        rw [hEngine] at h
        cases h
        obtain ⟨object, stages, engine, hFresh, hObject, hStages, rfl⟩ := preloadGraphEmsEngine_ok hEngine
        refine (hPreloaded.keeps _ _).snoc fun _ _ other hOther _ _ => ?_
        obtain rfl := List.mem_singleton.mp hOther
        refine ⟨object, stages, ⟨stages.config, engine⟩, hObject, hStages, ?_, rfl⟩
        rw [List.lookup_append, hFresh]
        exact List.lookup_cons_self

theorem preloadRules_ok (h : preloadRules sources rules = .ok states) : Preloaded sources rules states := by
  refine foldlM_rule (Preloaded sources) ?_ ?_ h
  · intro passed rule states states' hPassed hRule
    exact preloadRule_ok hRule hPassed
  · intro rule hRule
    cases hRule

end Preloading

section Registering

variable {states : GraphEmsStates} {rules : List (ComputeRuleConfig K)}

def IndexOwner.held (owner : IndexOwner) : UInt32 × Bool := (owner.index, owner.preserveImportedBehavior)

def Use.held (use : Use) : UInt32 × Bool := (use.index, use.preserve)

theorem held_claims {object : JsonObject} {stages : Stages} (h : loadStages object = .ok stages) (ruleCode : StdString) :
    (stages.config.indexClaims.map (claimOwner ruleCode stages.config)).map IndexOwner.held =
      (graphUses stages).map Use.held := by
  have hClaims : stages.config.indexClaims = _ := (loadStages_ok h).owned.claims
  rw [hClaims, graphUses, List.map_map, List.map_map, List.map_map]
  rfl

theorem ruleOwners_ok (h : Preloaded sources rules states) {rule : ComputeRuleConfig K} (hRule : rule ∈ rules)
    (hEnabled : rule.enabled = true) :
    ∃ owners, ruleOwners states rule = .ok owners ∧ owners.map IndexOwner.held = (ruleUses sources rule).map Use.held := by
  unfold ruleOwners ruleUses
  split
  · rename_i hGraph
    obtain ⟨object, stages, state, hObject, hStages, hState, hConfig⟩ := h rule hRule hEnabled hGraph
    rw [hState, hObject]
    refine ⟨_, rfl, ?_⟩
    change _ = (((loadStages object).map graphUses).toOption.getD []).map Use.held
    rw [hStages, hConfig]
    exact held_claims hStages _
  · refine ⟨_, rfl, ?_⟩
    rw [List.map_map, List.map_map]
    rfl

theorem registerRules_eq (h : Preloaded sources rules states) :
    ∃ owners : List IndexOwner, owners.map IndexOwner.held = (uses sources rules).map Use.held ∧
      ∀ registered, rules.foldlM (registerRule states) registered = owners.foldlM registerOwner registered := by
  induction rules with
  | nil => exact ⟨[], rfl, fun _ => rfl⟩
  | cons rule rules ih =>
    obtain ⟨rest, hRest, hLoop⟩ := ih fun other hOther => h other (List.mem_cons_of_mem _ hOther)
    cases hEnabled : rule.enabled with
    | true =>
      obtain ⟨owners, hOwners, hHeld⟩ := ruleOwners_ok h List.mem_cons_self hEnabled
      refine ⟨owners ++ rest, ?_, fun registered => ?_⟩
      · rw [uses, List.filter_cons_of_pos hEnabled, List.flatMap_cons, List.map_append, List.map_append, hHeld]
        exact congrArg _ hRest
      · rw [List.foldlM_cons, List.foldlM_append, registerRule, if_pos hEnabled, hOwners]
        exact bind_congr hLoop
    | false =>
      refine ⟨rest, ?_, fun registered => ?_⟩
      · rw [uses, List.filter_cons_of_neg (by simp [hEnabled])]
        exact hRest
      · rw [List.foldlM_cons, registerRule, if_neg (by simp [hEnabled])]
        exact hLoop registered

theorem nonZero_eq_some {index k : UInt32} : nonZero index = some k ↔ index = k ∧ k ≠ 0 := by
  unfold nonZero
  split
  · rename_i hZero
    constructor
    · intro h
      cases h
    · rintro ⟨rfl, hk⟩
      exact absurd hZero hk
  · rename_i hZero
    constructor
    · intro h
      cases h
      exact ⟨rfl, hZero⟩
    · rintro ⟨rfl, -⟩
      rfl

theorem registerOwner_eq (owners : List IndexOwner) (owner : IndexOwner) :
    registerOwner owners owner =
      (Registry.register (fun owner => nonZero owner.index) IndexOwner.preserveImportedBehavior owners owner).mapError
        fun clash => .conflict clash.1 clash.2 := by
  unfold registerOwner Registry.register
  dsimp only
  by_cases hZero : owner.index = 0
  · rw [if_pos hZero, nonZero, if_pos hZero]
    rfl
  · have hKey : nonZero owner.index = some owner.index := nonZero_eq_some.mpr ⟨rfl, hZero⟩
    have hSame : (fun existing : IndexOwner => existing.index == owner.index) =
        fun existing => nonZero existing.index == some owner.index := by
      funext existing
      rw [Bool.eq_iff_iff, beq_iff_eq, beq_iff_eq, nonZero_eq_some]
      exact ⟨fun h => ⟨h, hZero⟩, fun h => h.1⟩
    rw [if_neg hZero, hKey, hSame]
    dsimp only
    cases owners.find? fun existing => nonZero existing.index == some owner.index with
    | none => rfl
    | some existing =>
      dsimp only
      cases existing.preserveImportedBehavior <;> cases owner.preserveImportedBehavior <;> rfl

theorem registerOwners_conflict_iff {owners : List IndexOwner} {first duplicate : IndexOwner} :
    owners.foldlM registerOwner [] = .error (.conflict first duplicate) ↔
      owners.foldlM (Registry.register (fun owner => nonZero owner.index) IndexOwner.preserveImportedBehavior) [] =
        .error (first, duplicate) := by
  have hStep : registerOwner = fun owners owner => (Registry.register (fun owner => nonZero owner.index)
      IndexOwner.preserveImportedBehavior owners owner).mapError fun clash => StartError.conflict clash.1 clash.2 := by
    funext owners owner
    exact registerOwner_eq owners owner
  rw [hStep, foldlM_mapError, mapError_error_iff]
  constructor
  · rintro ⟨⟨a, b⟩, hError, hConflict⟩
    cases hConflict
    exact hError
  · intro hError
    exact ⟨_, hError, rfl⟩

theorem clashesFirst_owners {owners : List IndexOwner}
    (h : owners.map IndexOwner.held = (uses sources rules).map Use.held) {index : UInt32} :
    Registry.ClashesFirstAt (fun owner : IndexOwner => nonZero owner.index) IndexOwner.preserveImportedBehavior owners
      index ↔ ClashesFirst sources rules index := by
  have hOwners := @Registry.clashesFirstAt_map _ _ (fun pair : UInt32 × Bool => nonZero pair.1) Prod.snd index _
    IndexOwner.held owners
  have hUses := @Registry.clashesFirstAt_map _ _ (fun pair : UInt32 × Bool => nonZero pair.1) Prod.snd index _
    Use.held (uses sources rules)
  rw [h] at hOwners
  exact hOwners.symm.trans hUses

theorem createService_error_iff (h : preloadRules sources rules = .ok states) {e : StartError} :
    createService sources rules = .error e ↔ rules.foldlM (registerRule states) [] = .error e := by
  unfold createService validateEnabledRuleIndexOwnership
  rw [h]
  change (((rules.foldlM (registerRule states) []) >>= fun _ => pure ()) >>= fun _ => pure states) = .error e ↔ _
  cases rules.foldlM (registerRule states) [] with
  | error e' =>
    constructor
    · intro hError
      exact congrArg Except.error (Except.error.inj hError)
    · intro hError
      exact congrArg Except.error (Except.error.inj hError)
  | ok owners =>
    constructor
    · intro hError
      cases hError
    · intro hError
      cases hError

theorem conflict_reported_iff (h : preloadRules sources rules = .ok states) {index : UInt32} :
    (∃ first duplicate, createService sources rules = .error (.conflict first duplicate) ∧ duplicate.index = index) ↔
      ClashesFirst sources rules index := by
  obtain ⟨owners, hHeld, hLoop⟩ := registerRules_eq (preloadRules_ok h)
  simp only [createService_error_iff h, hLoop, registerOwners_conflict_iff]
  rw [← clashesFirst_owners hHeld]
  constructor
  · rintro ⟨first, duplicate, hError, rfl⟩
    obtain ⟨_, hOk, -⟩ | ⟨_, _, k, hSame, hKey, hClash⟩ := Registry.registers_or_clashes
      (fun owner : IndexOwner => nonZero owner.index) IndexOwner.preserveImportedBehavior owners
    · rw [hError] at hOk
      cases hOk
    · rw [hError] at hSame
      cases hSame
      rw [(nonZero_eq_some.mp hKey).1]
      exact hClash
  · intro hClash
    obtain ⟨first, duplicate, hError, hKey⟩ := Registry.refused_of_clashesFirstAt hClash
    exact ⟨first, duplicate, hError, (nonZero_eq_some.mp hKey).1⟩

end Registering

theorem WritersConflictAt.clashes {rules : List (ComputeRuleConfig K)} {index : UInt32}
    (h : WritersConflictAt sources rules index) : ∃ first, ClashesFirst sources rules first := by
  obtain ⟨a, b, hSublist, -, hClash⟩ := h
  obtain hClashes | hPairwise := Registry.clashes_or_pairwise (fun use : Use => nonZero use.index) Use.preserve
    (uses sources rules)
  · exact hClashes
  · exact absurd (List.pairwise_iff_forall_sublist.mp hPairwise (hSublist.trans List.filter_sublist)) hClash

/-- Conflicts are those of writers exactly when the first index that clashes is one on which writers conflict. -/
theorem reports_writer_conflicts_iff (sources : GraphSources K) (rules : List (ComputeRuleConfig K))
    (states : GraphEmsStates) (hLoaded : preloadRules sources rules = .ok states) :
    ReportsWriterConflicts sources rules ↔
      ∀ index, ClashesFirst sources rules index → WritersConflictAt sources rules index := by
  constructor
  · rintro ⟨-, hReported⟩ index hClash
    obtain ⟨first, duplicate, hError, rfl⟩ := (conflict_reported_iff hLoaded).mpr hClash
    exact hReported first duplicate hError
  · intro hWriters
    have hReported : ∀ first duplicate, createService sources rules = .error (.conflict first duplicate) →
        WritersConflictAt sources rules duplicate.index := by
      intro first duplicate hError
      exact hWriters _ ((conflict_reported_iff hLoaded).mp ⟨first, duplicate, hError, rfl⟩)
    refine ⟨⟨?_, ?_⟩, hReported⟩
    · rintro ⟨first, duplicate, hError⟩
      exact ⟨duplicate.index, hReported first duplicate hError⟩
    · rintro ⟨index, hConflict⟩
      obtain ⟨clashing, hClash⟩ := hConflict.clashes
      obtain ⟨first, duplicate, hError, -⟩ := (conflict_reported_iff hLoaded).mpr hClash
      exact ⟨first, duplicate, hError⟩

namespace Configured

def rule (code type : String) (outputs : List (ComputeOutputConfig ℚ)) : ComputeRuleConfig ℚ where
  ruleCode := code.toList
  name := []
  trigger := { type := [], deadband := 0 }
  inputs := []
  outputs := outputs
  script := ⟨type.toList, []⟩

def graph (code : String) : ComputeRuleConfig ℚ := rule code "graphEms" []

def readFrom (object : JsonObject) : GraphSources ℚ where
  order := .asGiven
  routed := fun _ => true
  document := fun _ => .ok object
  profile := fun _ => []

def reader : JsonObject :=
  Written.document false
    [Written.node "p" "pointInput" 0 [] [Written.port "out" "output" "/outputIndex" (Written.bindPoint 5)]] []

def clock : JsonObject := Written.document false [Written.clock "c" 0 6] []

def clockAndOutput : List (ComputeRuleConfig ℚ) := [graph "a", rule "b" "expression" [⟨6, [], 600000, [], 0, 0⟩]]

theorem preloads_of_isOk {object : JsonObject} {rules : List (ComputeRuleConfig ℚ)}
    (h : (preloadRules (readFrom object) rules).isOk = true) :
    ∃ states, preloadRules (readFrom object) rules = .ok states := by
  cases hStates : preloadRules (readFrom object) rules with
  | ok states => exact ⟨states, rfl⟩
  | error e =>
    rw [hStates] at h
    cases h

end Configured

section Concrete

open Configured

theorem reports_writer_conflicts_iff_clock :
    ∃ states, preloadRules (readFrom clock) clockAndOutput = .ok states ∧
      WritersConflictAt (readFrom clock) clockAndOutput 6 ∧ ReportsWriterConflicts (readFrom clock) clockAndOutput := by
  obtain ⟨states, hStates⟩ := preloads_of_isOk
    (by decide +kernel : (preloadRules (readFrom clock) clockAndOutput).isOk = true)
  have hUses : uses (readFrom clock) clockAndOutput = [⟨6, false, true⟩, ⟨6, false, true⟩] := by decide +kernel
  have hConflict : WritersConflictAt (readFrom clock) clockAndOutput 6 := by
    refine ⟨⟨6, false, true⟩, ⟨6, false, true⟩, ?_, rfl, fun hTolerates => ?_⟩
    · rw [writers, hUses]
      exact .refl _
    · exact absurd (hTolerates 6 rfl rfl).1 (by decide)
  refine ⟨states, hStates, hConflict, (reports_writer_conflicts_iff _ _ states hStates).mpr ?_⟩
  rintro index ⟨done, entry, rest, hSplit, -, -, hKey⟩
  have hEntry : entry ∈ uses (readFrom clock) clockAndOutput := by
    rw [hSplit]
    exact List.mem_append_right _ List.mem_cons_self
  rw [hUses] at hEntry
  have hIndex : entry.index = 6 := by
    simp only [List.mem_cons, List.not_mem_nil, or_false, or_self] at hEntry
    rw [hEntry]
  rw [← (nonZero_eq_some.mp hKey).1, hIndex]
  exact hConflict

/-- Two graphs that read one point, and write nothing, are refused. -/
theorem read_point_reported_as_conflict :
    (∃ states, preloadRules (readFrom reader) [graph "a", graph "b"] = .ok states) ∧
      writers (readFrom reader) [graph "a", graph "b"] = [] ∧
      (∃ first duplicate, createService (readFrom reader) [graph "a", graph "b"] = .error (.conflict first duplicate) ∧
        duplicate.index = 5) ∧
      ¬ ReportsWriterConflicts (readFrom reader) [graph "a", graph "b"] := by
  obtain ⟨states, hStates⟩ := preloads_of_isOk
    (by decide +kernel : (preloadRules (readFrom reader) [graph "a", graph "b"]).isOk = true)
  have hUses : uses (readFrom reader) [graph "a", graph "b"] = [⟨5, false, false⟩, ⟨5, false, false⟩] := by
    decide +kernel
  have hWriters : writers (readFrom reader) [graph "a", graph "b"] = [] := by
    rw [writers, hUses]
    rfl
  have hClash : ClashesFirst (readFrom reader) [graph "a", graph "b"] 5 := by
    refine ⟨[⟨5, false, false⟩], ⟨5, false, false⟩, [], hUses, List.pairwise_singleton _ _, ⟨_, List.mem_cons_self, ?_⟩, rfl⟩
    intro hTolerates
    exact absurd (hTolerates 5 rfl rfl).1 (by decide)
  have hReported := (conflict_reported_iff hStates).mpr hClash
  refine ⟨⟨states, hStates⟩, hWriters, hReported, ?_⟩
  rintro ⟨-, hAll⟩
  obtain ⟨first, duplicate, hError, -⟩ := hReported
  obtain ⟨a, b, hSublist, -⟩ := hAll first duplicate hError
  rw [hWriters] at hSublist
  cases hSublist

end Concrete

end EdgeGateway.Compute
