import EdgeGateway.GraphEms.Operands

/-! # Whether an input keeps what it stands for -/

namespace EdgeGateway.GraphEms

open Numerals EdgeGateway.Fallible

def constantNumber : JsonValue → Option RawDouble
  | .number value => some value
  | .string text => stod text
  | .bool flag => some (flagNumber flag)
  | _ => none

def KeepsMeaning (params : Params) (type : NodeType) (key : StdString) : Meaning → Prop
  | .point index => ∀ latest value, latest index = some value → portNumber params type key latest = .ok (some value)
  | .constant constant => ∃ value, constantNumber constant = some value ∧
      ∀ latest, portNumber params type key latest = .ok (some value)

def Operand.TakesAsMeant (operand : Operand) : Meaning → Prop
  | .point _ => operand.reads = .index
  | .constant constant => operand.reads ≠ .index ∧ ∃ value, constantNumber constant = some value ∧
      literalNumber operand.reads (scalarToString constant) = some value

section Kept

variable {params : Params} {type : NodeType} {key : StdString}

theorem scalarToString_ne_nil {constant : JsonValue} {value : RawDouble} (h : constantNumber constant = some value) :
    scalarToString constant ≠ [] := by
  cases constant with
  | null => cases h
  | object _ => cases h
  | array _ => cases h
  | bool flag => cases flag <;> decide
  | string text =>
    rintro rfl
    have hNone : constantNumber (.string []) = none := by decide
    rw [hNone] at h
    cases h
  | number number =>
    have hFixed : fixedText number ≠ [] := List.append_ne_nil_of_right_ne_nil _ (List.cons_ne_nil _ _)
    unfold scalarToString
    dsimp only
    split
    · split
      · rename_i n _ _
        obtain ⟨c, text, hText, -⟩ := QuotedText.head_intText n
        rw [hText]
        exact List.cons_ne_nil _ _
      · exact hFixed
    · exact hFixed

theorem paramIndex_indexText {index : UInt32} (h : params.find key = some (indexText index)) :
    paramIndex params key 0 = .ok index := by
  have hText : indexText index ≠ [] := Nat.toDigits_ne_nil
  have hSmall : index.toNat < 2 ^ 64 := lt_trans index.toNat_lt (by decide)
  rw [paramIndex_of_find h hText, stoul, indexText, stoull_decimal hSmall]
  change Except.ok (UInt32.ofNat index.toNat) = _
  rw [UInt32.ofNat_toNat]

theorem exists_other (value : RawDouble) : ∃ other : RawDouble, other ≠ value := by
  by_cases hZero : value = 0
  · exact ⟨1, by rw [hZero]; decide⟩
  · exact ⟨0, Ne.symm hZero⟩

theorem not_keepsMeaning (h : operandAt params type key = none) (meaning : Meaning) :
    ¬ KeepsMeaning params type key meaning := by
  have hNone : ∀ latest, portNumber params type key latest = .ok none := by
    intro latest
    rw [portNumber, h]
  intro hKeeps
  cases meaning with
  | point index =>
    have hNumber := hKeeps (fun _ => some 0) 0 rfl
    rw [hNone] at hNumber
    cases hNumber
  | constant constant =>
    obtain ⟨value, -, hKeeps⟩ := hKeeps
    have hNumber := hKeeps fun _ => none
    rw [hNone] at hNumber
    cases hNumber

variable {operand : Operand}

theorem keepsMeaning_point_iff (hOperand : operandAt params type operand.key = some operand)
    (hSound : operand.Sound params) {index : UInt32} (hText : params.find operand.key = some (indexText index)) :
    KeepsMeaning params type operand.key (.point index) ↔ operand.reads = .index := by
  have hNumber : ∀ latest, portNumber params type operand.key latest = operand.number latest := by
    intro latest
    rw [portNumber, hOperand]
  have hNe : indexText index ≠ [] := Nat.toDigits_ne_nil
  constructor
  · intro hKeeps
    by_contra hReads
    -- a literal does not follow the point
    have hLiteral := hSound.literal _ hText hNe hReads
    obtain ⟨other, hOther⟩ := exists_other 0
    have hZero := (hLiteral _ _).mp ((hNumber _).symm.trans (hKeeps (fun _ => some 0) 0 rfl))
    have hSecond := (hLiteral _ _).mp ((hNumber _).symm.trans (hKeeps (fun _ => some other) other rfl))
    rw [hZero] at hSecond
    exact hOther (Option.some.inj hSecond).symm
  · intro hReads latest value hValue
    obtain ⟨read, hRead, hPoint⟩ := hSound.point _ hText hNe hReads
    rw [paramIndex_indexText hText] at hRead
    cases hRead
    rw [hNumber]
    exact hPoint latest value hValue

theorem keepsMeaning_constant_iff (hOperand : operandAt params type operand.key = some operand)
    (hSound : operand.Sound params) {constant : JsonValue}
    (hText : params.find operand.key = some (scalarToString constant)) :
    KeepsMeaning params type operand.key (.constant constant) ↔ operand.reads ≠ .index ∧
      ∃ value, constantNumber constant = some value ∧
        literalNumber operand.reads (scalarToString constant) = some value := by
  have hNumber : ∀ latest, portNumber params type operand.key latest = operand.number latest := by
    intro latest
    rw [portNumber, hOperand]
  constructor
  · rintro ⟨value, hConstant, hKeeps⟩
    have hNe := scalarToString_ne_nil hConstant
    have hReads : operand.reads ≠ .index := by
      intro hReads
      -- the point of that index may have any value
      obtain ⟨read, -, hPoint⟩ := hSound.point _ hText hNe hReads
      obtain ⟨other, hOther⟩ := exists_other value
      have hLooked := hPoint (fun _ => some other) other rfl
      rw [← hNumber, hKeeps] at hLooked
      exact hOther (Option.some.inj (Except.ok.inj hLooked)).symm
    refine ⟨hReads, value, hConstant, ?_⟩
    exact (hSound.literal _ hText hNe hReads (fun _ => none) value).mp ((hNumber _).symm.trans (hKeeps _))
  · rintro ⟨hReads, value, hConstant, hLiteral⟩
    refine ⟨value, hConstant, fun latest => ?_⟩
    rw [hNumber]
    exact (hSound.literal _ hText (scalarToString_ne_nil hConstant) hReads latest value).mpr hLiteral

theorem keepsMeaning_iff (hSound : ∀ operand ∈ operands params type, operand.Sound params) {meaning : Meaning}
    (hFound : Plain key → params.find key = some meaning.text) :
    KeepsMeaning params type key meaning ↔
      ∃ operand, operandAt params type key = some operand ∧ operand.TakesAsMeant meaning := by
  cases hOperand : operandAt params type key with
  | none =>
    constructor
    · exact fun hKeeps => absurd hKeeps (not_keepsMeaning hOperand meaning)
    · rintro ⟨operand, hNone, -⟩
      cases hNone
  | some operand =>
    obtain rfl : operand.key = key := by simpa using List.find?_some hOperand
    have hOwn := hSound operand (List.mem_of_find?_eq_some hOperand)
    have hText := hFound hOwn.plain
    have hTakes : KeepsMeaning params type operand.key meaning ↔ operand.TakesAsMeant meaning := by
      cases meaning with
      | point index => exact keepsMeaning_point_iff hOperand hOwn hText
      | constant constant => exact keepsMeaning_constant_iff hOperand hOwn hText
    rw [hTakes]
    constructor
    · exact fun h => ⟨operand, rfl, h⟩
    · rintro ⟨found, hSame, h⟩
      cases hSame
      exact h

end Kept

def computing : List NodeType := [.formula, .rateLimit, .hysteresis, .debounce, .windowAggregate]

/-- An input keeps its meaning exactly where the node takes the parameter of its port as it is drawn. -/
theorem number_of_input_iff_taken_as_meant (order : IdOrder) (object : JsonObject) (stages : Stages)
    (hStages : loadStages object = .ok stages) (hParsed : parseExecutableV2Graph order object = .ok stages.config)
    (node : GraphEmsV2Node) (hNode : node ∈ stages.bound) (type : NodeType)
    (hType : nodeType? node.runtime.type = some type) (hComputes : type ∈ computing) (port : GraphEmsV2Port)
    (hPort : port ∈ node.ports) (hInput : port.direction = .input) (meaning : Meaning)
    (hMeans : Means object stages node port meaning) :
    KeepsMeaning node.runtime.params type port.parameterKey meaning ↔
      ∃ operand, operandAt node.runtime.params type port.parameterKey = some operand ∧ operand.TakesAsMeant meaning := by
  have hLoaded := loadStages_ok hStages
  obtain ⟨-, -, -, hValid, -⟩ := parseExecutableV2Graph_ok hParsed
  have hExecuted : node.runtime ∈ stages.config.nodes := by
    refine List.mem_map_of_mem (List.mem_filter.mpr ⟨hNode, ?_⟩)
    rw [Bool.not_eq_true', Bool.eq_false_iff]
    intro hPointInput
    rw [GraphEmsV2Node.isPointInput, beq_iff_eq] at hPointInput
    have hNamed : nodeType? "pointInput".toList = some .pointInput := by decide
    rw [hPointInput, hNamed] at hType
    cases hType
    exact absurd hComputes (by decide)
  obtain ⟨checked, hChecked, hGeneric⟩ := hValid.checked node.runtime hExecuted
  rw [hType] at hChecked
  cases hChecked
  exact keepsMeaning_iff (operands_sound hGeneric) fun hPlain => hLoaded.find_meaning hNode hPort hInput hPlain hMeans

def magnitude (binding : JsonObject) : JsonObject :=
  Written.document false
    [Written.node "f" "formula" 0 [Written.member "operation" (Written.text "abs")]
      [Written.port "in" "input" "/inputs/0/index" binding,
        Written.port "out" "output" "/outputIndex" (Written.bindPoint 7)]] []

def magnitudeOfPoint : JsonObject := magnitude (Written.bindPoint 5)

theorem number_of_input_iff_taken_as_meant_point :
    ∃ stages, loadStages magnitudeOfPoint = .ok stages ∧
      parseExecutableV2Graph .asGiven magnitudeOfPoint = .ok stages.config ∧
      ∃ node ∈ stages.bound, nodeType? node.runtime.type = some .formula ∧ ∃ port ∈ node.ports,
        port.direction = .input ∧ Means magnitudeOfPoint stages node port (.point 5) ∧
        (KeepsMeaning node.runtime.params .formula port.parameterKey (.point 5) ↔
          ∃ operand, operandAt node.runtime.params .formula port.parameterKey = some operand ∧
            operand.TakesAsMeant (.point 5)) := by
  obtain ⟨stages, hStages, hParsed, hFound⟩ := @loaded_of_checks magnitudeOfPoint Bool
    (fun stages => stages.bound.any fun node => node.runtime.type == "formula".toList &&
      node.ports.any fun port => port.direction == .input && port.index == some 5) true (by decide +kernel)
    (by decide +kernel)
  obtain ⟨node, hNode, hFound⟩ := List.any_eq_true.mp hFound
  rw [Bool.and_eq_true, beq_iff_eq] at hFound
  obtain ⟨port, hPort, hFields⟩ := List.any_eq_true.mp hFound.2
  rw [Bool.and_eq_true, beq_iff_eq, beq_iff_eq] at hFields
  have hType : nodeType? node.runtime.type = some .formula := by
    rw [hFound.1]
    decide
  exact ⟨stages, hStages, hParsed, node, hNode, hType, port, hPort, hFields.1, .bound hFields.2,
    number_of_input_iff_taken_as_meant _ _ _ hStages hParsed _ hNode _ hType (by decide) _ hPort hFields.1 _
      (.bound hFields.2)⟩

def magnitudeOfFive : JsonObject :=
  magnitude [Written.member "kind" (Written.text "constant"), Written.member "constant" (Written.whole 5)]

def GraphEmsV2Port.constantBits (port : GraphEmsV2Port) : Option RawDouble :=
  match port.binding with
  | some (.constant (.number value)) => some value
  | _ => none

/-- The document is accepted, and the node computes with the value of the point number five. -/
theorem constant_looked_up_as_point :
    ∃ stages, loadStages magnitudeOfFive = .ok stages ∧
      parseExecutableV2Graph .asGiven magnitudeOfFive = .ok stages.config ∧
      ∃ node ∈ stages.bound, nodeType? node.runtime.type = some .formula ∧ ∃ port ∈ node.ports,
        port.direction = .input ∧ Means magnitudeOfFive stages node port (.constant (.number (double "5"))) ∧
        portNumber node.runtime.params .formula port.parameterKey (fun _ => some (double "42")) =
          .ok (some (double "42")) ∧
        ¬ KeepsMeaning node.runtime.params .formula port.parameterKey (.constant (.number (double "5"))) := by
  obtain ⟨stages, hStages, hParsed, hFound⟩ := @loaded_of_checks magnitudeOfFive Bool
    (fun stages => stages.bound.any fun node => node.runtime.type == "formula".toList &&
      node.ports.any fun port => port.direction == .input && port.constantBits == some (double "5") &&
        portNumber node.runtime.params .formula port.parameterKey (fun _ => some (double "42")) ==
          .ok (some (double "42"))) true (by decide +kernel) (by decide +kernel)
  obtain ⟨node, hNode, hFound⟩ := List.any_eq_true.mp hFound
  rw [Bool.and_eq_true, beq_iff_eq] at hFound
  obtain ⟨port, hPort, hFields⟩ := List.any_eq_true.mp hFound.2
  rw [Bool.and_eq_true, Bool.and_eq_true, beq_iff_eq, beq_iff_eq, beq_iff_eq] at hFields
  obtain ⟨⟨hInput, hConstant⟩, hNumber⟩ := hFields
  have hType : nodeType? node.runtime.type = some .formula := by
    rw [hFound.1]
    decide
  have hBinding : port.binding = some (.constant (.number (double "5"))) := by
    unfold GraphEmsV2Port.constantBits at hConstant
    split at hConstant
    · rename_i value hBinding
      rw [hBinding, Option.some.inj hConstant]
    · cases hConstant
  refine ⟨stages, hStages, hParsed, node, hNode, hType, port, hPort, hInput, .constant hBinding, hNumber, ?_⟩
  rintro ⟨value, hValue, hKeeps⟩
  have hSame := (hKeeps fun _ => some (double "42")).symm.trans hNumber
  rw [← hValue] at hSame
  exact absurd (Except.ok.inj hSame) (by decide +kernel)

end EdgeGateway.GraphEms
