import EdgeGateway.GraphEms.ExecutionOrder

/-! # The engine of a graph -/

namespace EdgeGateway.GraphEms

open Numerals QuotedText EdgeGateway.Fallible

section Profile

def stringEnabled (value : StdString) : Bool :=
  let trimmed := (((value.map Char.toLower).dropWhile isSpace).reverse.dropWhile isSpace).reverse
  if trimmed = [] then false
  else if trimmed ∈ ["true", "yes", "on"].map String.toList then true
  else if trimmed ∈ ["false", "no", "off"].map String.toList then false
  else (stod trimmed).any fun number => units number != 0

def stoi (text : StdString) : Option Int :=
  match stoll text with
  | some (n, _) => if -2 ^ 31 ≤ n ∧ n < 2 ^ 31 then some n else none
  | none => none

variable (profile : Params)

def profileEnabled (key : StdString) (defaultValue : Bool) : Bool :=
  match profile.find key with
  | none => defaultValue
  | some text => stringEnabled text

def profileInt (key : StdString) (defaultValue : Int) : Int :=
  ((profile.find key).bind stoi).getD defaultValue

def switchesAllow (params : Params) (keys : List String) (defaultValue wanted : Bool) : Bool :=
  keys.all fun key => match params.find key.toList with
    | none | some [] => true
    | some name => profileEnabled profile name defaultValue == wanted

def matchesInt (params : Params) (actual : Int) (key : String) : Fallible Bool :=
  match params.find key.toList with
  | none | some [] => .ok false
  | some text => match stoi text with
    | none => .error "stoi".toList
    | some value => .ok (actual == value)

def matchesProfileInt (params : Params) : Fallible Bool :=
  match params.find "profileIntKey".toList with
  | none | some [] => .ok true
  | some name => do
    let found ← ["profileIntValue", "profileIntValue2", "profileIntValue3", "profileIntValue4"].mapM
      (matchesInt params (profileInt profile name 0))
    return found.any id

def shouldRunNode (node : GraphEmsNodeConfig) : Fallible Bool :=
  if node.enabled &&
      switchesAllow profile node.params ["profileKey", "profileKey2", "profileKey3", "profileKey4"] true true &&
      switchesAllow profile node.params
        ["optionalProfileKey", "optionalProfileKey2", "optionalProfileKey3", "optionalProfileKey4"] false true &&
      switchesAllow profile node.params
        ["profileDisabledKey", "profileDisabledKey2", "profileDisabledKey3", "profileDisabledKey4"] false false then
    matchesProfileInt profile node.params
  else .ok false

end Profile

section Places

/-- A parameter that names a point, with the point that is meant where it is missing. -/
structure Place where
  key : StdString
  fallback : UInt32

def Place.index (params : Params) (place : Place) : Fallible UInt32 := paramIndex params place.key place.fallback

def named (places : List (String × UInt32)) : List Place := places.map fun place => ⟨place.1.toList, place.2⟩

def required (keys : List String) : List Place := named (keys.map fun key => (key, 0))

variable (params : Params)

def elementCount (key : String) : Nat := (paramCount params key.toList).toOption.getD 0

def listed (key : String) : List Place :=
  (List.range (elementCount params key)).map fun i => ⟨element key.toList i, 0⟩

def listedField (key field : String) : List Place :=
  (List.range (elementCount params key)).map fun i => ⟨element key.toList i ++ field.toList, 0⟩

def phasePlaces : List Place := listed params "activeOutputIndexes" ++ listed params "reactiveOutputIndexes"

def statePlaces : NodeType → List Place
  | .meterAverage => listedField params "mappings" ".output"
  | .derivedLoad => named
    [("fhPaOutput", 309), ("fhPbOutput", 310), ("fhPcOutput", 311), ("fhP3Output", 312), ("fhQaOutput", 313),
      ("fhQbOutput", 314), ("fhQcOutput", 315), ("fhQ3Output", 316), ("fhSaOutput", 317), ("fhSbOutput", 318),
      ("fhScOutput", 319), ("fhS3Output", 320), ("fhCosAOutput", 321), ("fhCosBOutput", 322), ("fhCosCOutput", 323),
      ("fhCos3Output", 324), ("fhBalanceOutput", 325)]
  | .bmsDerived => named
    [("chargeKwAllowOutput", 1552), ("dischargeKwAllowOutput", 1553), ("chargeKwhTodayOutput", 1615),
      ("dischargeKwhTodayOutput", 1616)]
  | .cosCompensation => named
    [("targetQaOutput", 505), ("targetQbOutput", 506), ("targetQcOutput", 507), ("targetQ3Output", 508),
      ("qaOutput", 601), ("qbOutput", 602), ("qcOutput", 603), ("q3Output", 604), ("runOutput", 8)]
  | .voltageCompensation => named
    [("lvPaOutput", 605), ("lvPbOutput", 606), ("lvPcOutput", 607), ("lvP3Output", 608), ("hvPaOutput", 609),
      ("hvPbOutput", 610), ("hvPcOutput", 611), ("hvP3Output", 612), ("lvRunOutput", 10), ("hvRunOutput", 12)]
  | .chargeDischarge => named
    [("cdRunOutput", 14), ("fdRunOutput", 16), ("cdP3Output", 613), ("fdP3Output", 614), ("phaseStateOutput", 0)]
  | .chargeDischargeCycleTest => named
    [("paOutput", 615), ("pbOutput", 616), ("pcOutput", 617), ("p3Output", 618), ("runOutput", 18),
      ("phaseStateOutput", 0)]
  | .timedChargeDischarge => named
    [("powerNowOutput", 461), ("socNowOutput", 462), ("paOutput", 615), ("pbOutput", 616), ("pcOutput", 617),
      ("p3Output", 618), ("runOutput", 18)]
  | .photovoltaicCharge => named
    [("paOutput", 619), ("pbOutput", 620), ("pcOutput", 621), ("p3Output", 622), ("runOutput", 22)]
  | .phaseBalance => named
    [("balanceOutput", 564), ("tqCnPaOutput", 565), ("tqCnPbOutput", 566), ("tqCnPcOutput", 567), ("paOutput", 623),
      ("pbOutput", 624), ("pcOutput", 625), ("runOutput", 20)]
  | .skOverride => named [("runOutput", 26)]
  | .reserveCapacity => named [("runOutput", 24)]
  | .scheduleSelect => required ["powerOutputIndex", "socOutputIndex", "modeOutputIndex", "enableOutputIndex"]
  | .phaseArbiter => phasePlaces params ++ listedField params "candidates" ".runOutputIndex"
  | .powerConstraint => phasePlaces params ++ required ["reserveRunOutputIndex"] ++
    listed params "lowStateClearIndexes" ++ listed params "highStateClearIndexes"
  | .voltageQualification => listed params "minuteAverageOutputIndexes" ++ required voltageScalarOutputs
  | .sequence => required ["stateOutputIndex"]
  | .formula | .timeSource | .windowAggregate | .switch | .controlGate | .feedbackVerify | .rateLimit | .hysteresis
  | .debounce => required ["outputIndex"]
  | .pcsPowerSolve => named
    [("zrRunOutput", 24), ("cosRunOutput", 8), ("lvRunOutput", 10), ("hvRunOutput", 12), ("gfRunOutput", 22),
      ("paOutput", 627), ("pbOutput", 628), ("pcOutput", 629), ("qaOutput", 630), ("qbOutput", 631), ("qcOutput", 632)]
  | .pointInput | .pcsWriteback | .controlWrite => []

/-- The points that a node sets; a meter average has metrics that no state file keeps. -/
def setPlaces (type : NodeType) : List Place :=
  match type with
  | .meterAverage => statePlaces params .meterAverage ++
    if paramBool params "deriveTqMetrics".toList false then named
      [("tqSaOutput", 217), ("tqSbOutput", 218), ("tqScOutput", 219), ("tqS3Output", 220), ("tqCosAOutput", 221),
        ("tqCosBOutput", 222), ("tqCosCOutput", 223), ("tqCos3Output", 224), ("tqBalanceOutput", 225)] else []
  | .chargeDischarge =>
    if params.find "mode".toList = some "dischargeThenCharge".toList then statePlaces params .chargeDischarge
    else named [("cdRunOutput", 14), ("fdRunOutput", 16), ("cdP3Output", 613), ("fdP3Output", 614)]
  | type => statePlaces params type

def pcsTargets : List Place := named
  [("pControlAIndex", 1318), ("pControlBIndex", 1319), ("pControlCIndex", 1320), ("qControlAIndex", 1321),
    ("qControlBIndex", 1322), ("qControlCIndex", 1323)]

def targetPlaces (type : NodeType) : List Place :=
  if paramBool params "submitWrites".toList false then
    match type with
    | .controlWrite => required ["targetIndex"]
    | .pcsPowerSolve | .pcsWriteback => pcsTargets
    | _ => []
  else []

end Places

section Construction

variable (routed : UInt32 → Bool) (profile : Params) (config : GraphEmsConfig)

def runningNodes : Fallible (List GraphEmsNodeConfig) := Fallible.selectM (shouldRunNode profile) config.nodes

def nodeStatePlaces (node : GraphEmsNodeConfig) : List Place :=
  ((nodeType? node.type).map (statePlaces node.params)).getD []

def nodeStateIndexes (node : GraphEmsNodeConfig) : Fallible (List UInt32) :=
  (nodeStatePlaces node).mapM (Place.index node.params)

def stateOutputIndexes : Fallible (List UInt32) := do
  let running ← runningNodes profile config
  let indexes ← running.mapM nodeStateIndexes
  return indexes.flatten.filter (· != 0)

def snapshotCandidate (text : StdString) : Option UInt32 :=
  match stoull text with
  | some (n, []) =>
    if 0 < n ∧ n < 2 ^ 32 ∧ routed (UInt32.ofNat n) then some (UInt32.ofNat n) else none
  | _ => none

structure GraphEmsEngine where
  config : GraphEmsConfig
  executionOrder : List GraphEmsNodeConfig
  running : List GraphEmsNodeConfig
  stateIndexes : List UInt32
  snapshotIndexes : List UInt32

/-- The constructor; the nodes that run and their outputs do not change after it. -/
def createEngine : Fallible GraphEmsEngine := do
  let ordered ← executionOrder config
  let running ← runningNodes profile config
  let stateIndexes ← stateOutputIndexes profile config
  let candidates := running.flatMap fun node => node.params.filterMap fun entry => snapshotCandidate routed entry.2
  return {
    config, running, stateIndexes
    executionOrder := ordered
    snapshotIndexes := (candidates ++ stateIndexes).dedup }

end Construction

structure Routes where
  routed : UInt32 → Bool
  zero : routed 0 = false

structure Created (routed : UInt32 → Bool) (profile : Params) (config : GraphEmsConfig) (engine : GraphEmsEngine) : Prop where
  config_eq : engine.config = config
  ordered : executionOrder config = .ok engine.executionOrder
  running : runningNodes profile config = .ok engine.running
  state : stateOutputIndexes profile config = .ok engine.stateIndexes
  snapshot : engine.snapshotIndexes = ((engine.running.flatMap fun node => node.params.filterMap fun entry =>
    snapshotCandidate routed entry.2) ++ engine.stateIndexes).dedup

theorem createEngine_ok {routed : UInt32 → Bool} {profile : Params} {config : GraphEmsConfig} {engine : GraphEmsEngine}
    (h : createEngine routed profile config = .ok engine) :
    Created routed profile config engine := by
  unfold createEngine at h
  simp only [bind_ok_iff, pure_ok_iff] at h
  obtain ⟨ordered, hOrdered, running, hRunning, stateIndexes, hState, rfl⟩ := h
  exact ⟨rfl, hOrdered, hRunning, hState, rfl⟩

end EdgeGateway.GraphEms
