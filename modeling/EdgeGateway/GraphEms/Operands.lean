import EdgeGateway.GraphEms.Materialized

/-! # The numbers a node computes with

By the key of a text the node takes it as the index of a point whose value it looks up, as a number
or as a flag; the editor's drawing of the input does not matter.
-/

namespace EdgeGateway.GraphEms

open Numerals EdgeGateway.Fallible

abbrev Latest := UInt32 → Option RawDouble

inductive Reads where
  | index
  | number
  | flag
deriving DecidableEq

structure Operand where
  key : StdString
  reads : Reads
  number : Latest → Fallible (Option RawDouble)

section Readers

variable (params : Params) (latest : Latest)

def flagNumber (flag : Bool) : RawDouble := if flag then double "1" else 0

def latestOfParam (key : String) : Fallible (Option RawDouble) := do
  return latest (← paramIndex params key.toList 0)

def paramOrLatestValue (valueKey indexKey : String) : Fallible (Option RawDouble) := do
  match ← paramDouble params valueKey.toList with
  | some literal => return some literal
  | none =>
    let index ← paramIndex params indexKey.toList 0
    return if index = 0 then none else latest index

def formulaInput (i : Nat) : Fallible (Option RawDouble) := do
  let start := element "inputs".toList i
  let index ← paramIndex params (start ++ ".index".toList) 0
  if index = 0 then paramDouble params (start ++ ".value".toList)
  else match latest index with
    | some value => return some value
    | none => return (← paramDouble params (start ++ ".defaultValue".toList)).filter isFinite

def configuredWindowSize : Fallible (Option RawDouble) := do
  let windowSize ← numberOr params "windowSize" (double "10")
  let windowSizeIndex ← paramIndex params "windowSizeIndex".toList 0
  return if windowSizeIndex = 0 then some windowSize else latest windowSizeIndex

end Readers

section Tables

variable (params : Params)

def pointOperand (key : String) : Operand := ⟨key.toList, .index, fun latest => latestOfParam params latest key⟩

def literalOperand (key : StdString) (fallback : Option RawDouble) : Operand :=
  ⟨key, .number, fun _ => do return (← paramDouble params key).or fallback⟩

def flagOperand (key : String) : Operand :=
  ⟨key.toList, .flag, fun _ => .ok (some (flagNumber (paramBool params key.toList false)))⟩

def formulaInputOperands (i : Nat) : List Operand :=
  let start := element "inputs".toList i
  [⟨start ++ ".index".toList, .index, fun latest => formulaInput params latest i⟩,
    ⟨start ++ ".value".toList, .number, fun latest => formulaInput params latest i⟩,
    literalOperand params (start ++ ".defaultValue".toList) none]

def boundOperands (valueKey indexKey : String) : List Operand :=
  [⟨valueKey.toList, .number, fun latest => paramOrLatestValue params latest valueKey indexKey⟩,
    ⟨indexKey.toList, .index, fun latest => paramOrLatestValue params latest valueKey indexKey⟩]

def formulaOperation : StdString := normalizedToken (paramText params "operation".toList [])

def inputCount : Nat := (paramCount params "inputs".toList).toOption.getD 0

def formulaOperands : List Operand :=
  (List.range (inputCount params)).flatMap (formulaInputOperands params) ++
    (if formulaOperation params = "clamp".toList then
      boundOperands params "lower" "lowerIndex" ++ boundOperands params "upper" "upperIndex" else []) ++
    (if formulaOperation params = "safedivide".toList then
      [literalOperand params "zeroDivisorValue".toList (some 0)] else [])

def windowOperands : List Operand :=
  [pointOperand params "inputIndex",
    ⟨"windowSize".toList, .number, configuredWindowSize params⟩,
    ⟨"windowSizeIndex".toList, .index, configuredWindowSize params⟩]

/-- The value at the output is where a limiter starts. -/
def rateLimitOperands : List Operand :=
  [pointOperand params "inputIndex", pointOperand params "outputIndex",
    literalOperand params "risePerSecond".toList none, literalOperand params "fallPerSecond".toList none,
    literalOperand params "minValue".toList none, literalOperand params "maxValue".toList none,
    literalOperand params "initialValue".toList (some 0)]

def switchingOperands (literals : List Operand) : List Operand :=
  [pointOperand params "inputIndex", pointOperand params "outputIndex", flagOperand params "invert",
    flagOperand params "initialState"] ++ literals

def hysteresisOperands : List Operand :=
  switchingOperands params
    [literalOperand params "lowThreshold".toList none, literalOperand params "highThreshold".toList none]

def debounceOperands : List Operand :=
  switchingOperands params
    [literalOperand params "onDelayMs".toList (some 0), literalOperand params "offDelayMs".toList (some 0)]

def operands : NodeType → List Operand
  | .formula => formulaOperands params
  | .windowAggregate => windowOperands params
  | .rateLimit => rateLimitOperands params
  | .hysteresis => hysteresisOperands params
  | .debounce => debounceOperands params
  | _ => []

def operandAt (type : NodeType) (key : StdString) : Option Operand :=
  (operands params type).find? fun operand => operand.key == key

def portNumber (type : NodeType) (key : StdString) (latest : Latest) : Fallible (Option RawDouble) :=
  match operandAt params type key with
  | some operand => operand.number latest
  | none => .ok none

end Tables

section Texts

variable {params : Params} {key text : StdString}

theorem hasParam_of_find (h : params.find key = some text) : hasParam params key = decide (text ≠ []) := by
  rw [hasParam, h]
  rfl

theorem find_of_not_hasParam (h : hasParam params key = false) : params.find key = none ∨ params.find key = some [] := by
  unfold hasParam at h
  cases hFound : params.find key with
  | none => exact .inl rfl
  | some found =>
    rw [hFound] at h
    exact .inr (congrArg some (by simpa using h))

theorem paramIndex_of_not_hasParam (h : hasParam params key = false) (defaultValue : UInt32) :
    paramIndex params key defaultValue = .ok defaultValue := by
  unfold paramIndex
  obtain hFound | hFound := find_of_not_hasParam h
  · rw [hFound]
  · rw [hFound]

theorem paramDouble_of_not_hasParam (h : hasParam params key = false) : paramDouble params key = .ok none := by
  unfold paramDouble
  obtain hFound | hFound := find_of_not_hasParam h
  · rw [hFound]
  · rw [hFound]

theorem paramIndex_of_find (h : params.find key = some text) (hText : text ≠ []) (defaultValue : UInt32) :
    paramIndex params key defaultValue = (stoul text).map UInt32.ofNat := by
  unfold paramIndex
  rw [h]
  cases text with
  | nil => exact absurd rfl hText
  | cons c text => rfl

theorem paramDouble_of_find (h : params.find key = some text) (hText : text ≠ []) :
    paramDouble params key = (match stod text with
      | none => .error "stod".toList
      | some value => .ok (some value)) := by
  unfold paramDouble
  rw [h]
  cases text with
  | nil => exact absurd rfl hText
  | cons c text => rfl

theorem paramBool_of_find (h : params.find key = some text) (hText : text ≠ []) (defaultValue : Bool) :
    paramBool params key defaultValue = (text == "1".toList || text == "true".toList || text == "TRUE".toList) := by
  unfold paramBool
  rw [h]
  cases text with
  | nil => exact absurd rfl hText
  | cons c text => rfl

theorem validatePositiveIndex_reads (h : validatePositiveIndex params key = .ok ())
    (hFound : params.find key = some text) (hText : text ≠ []) : ∃ n, stoll text = some (n, []) ∧ 0 < n ∧ n < 2 ^ 32 := by
  unfold validatePositiveIndex at h
  rw [hFound] at h
  cases text with
  | nil => exact absurd rfl hText
  | cons c text =>
    dsimp only at h
    split at h
    · rename_i n hRead
      exact ⟨n, hRead, by simpa using require_ok_iff.mp h⟩
    · cases h

theorem validatePositiveIndex_ok (h : validatePositiveIndex params key = .ok ()) (hFound : params.find key = some text)
    (hText : text ≠ []) : ∃ index, index ≠ 0 ∧ ∀ defaultValue, paramIndex params key defaultValue = .ok index := by
  obtain ⟨n, hRead, hPositive, hSmall⟩ := validatePositiveIndex_reads h hFound hText
  refine ⟨UInt32.ofNat n.toNat, ?_, ?_⟩
  · intro hZero
    have hNat := congrArg UInt32.toNat hZero
    rw [UInt32.toNat_ofNat'] at hNat
    simp at hNat
    omega
  · intro defaultValue
    rw [paramIndex_of_find hFound hText, stoul, stoull_of_stoll hRead hPositive]
    rfl

theorem requireIndex_ok {type name : String} (h : requireIndex params type name = .ok ()) :
    validatePositiveIndex params name.toList = .ok () := by
  obtain ⟨-, -, h⟩ := bind_ok_iff.mp h
  exact h

end Texts

section Sound

def literalNumber (reads : Reads) (text : StdString) : Option RawDouble :=
  match reads with
  | .index => none
  | .number => stod text
  | .flag => some (flagNumber (text == "1".toList || text == "true".toList || text == "TRUE".toList))

/-- A text under the key of an operand is looked up as an index or read as a literal, whatever else is configured. -/
structure Operand.Sound (params : Params) (operand : Operand) : Prop where
  plain : Plain operand.key
  point : ∀ text, params.find operand.key = some text → text ≠ [] → operand.reads = .index →
    ∃ index, paramIndex params operand.key 0 = .ok index ∧
      ∀ latest value, latest index = some value → operand.number latest = .ok (some value)
  literal : ∀ text, params.find operand.key = some text → text ≠ [] → operand.reads ≠ .index →
    ∀ latest value, operand.number latest = .ok (some value) ↔ literalNumber operand.reads text = some value

variable {params : Params}

theorem paramDouble_ok_iff {key text : StdString} (h : params.find key = some text) (hText : text ≠ []) {value : RawDouble} :
    paramDouble params key = .ok (some value) ↔ stod text = some value := by
  rw [paramDouble_of_find h hText]
  cases stod text with
  | none => simp
  | some found => simp

theorem literalOperand_sound {key : StdString} (hPlain : Plain key) (fallback : Option RawDouble) :
    (literalOperand params key fallback).Sound params where
  plain := hPlain
  point text hFound hText hReads := by cases hReads
  literal text hFound hText _ latest value := by
    have hNumber : (literalOperand params key fallback).number latest =
        (paramDouble params key).map fun found => found.or fallback := by
      unfold literalOperand
      dsimp only
      cases paramDouble params key with
      | error message => rfl
      | ok found => rfl
    have hDouble := paramDouble_of_find hFound hText
    dsimp only [literalOperand, literalNumber] at hNumber hDouble ⊢
    rw [hNumber, hDouble]
    cases stod text with
    | none => simp [Except.map]
    | some found => simp [Except.map]

theorem flagOperand_sound {key : String} (hPlain : Plain key.toList) : (flagOperand params key).Sound params where
  plain := hPlain
  point text hFound hText hReads := by cases hReads
  literal text hFound hText _ latest value := by
    have hBool := paramBool_of_find hFound hText false
    dsimp only [flagOperand, literalNumber] at hBool ⊢
    rw [hBool]
    simp

theorem pointOperand_sound {key : String} (hPlain : Plain key.toList)
    (hValid : validatePositiveIndex params key.toList = .ok ()) : (pointOperand params key).Sound params where
  plain := hPlain
  point text hFound hText _ := by
    obtain ⟨index, -, hIndex⟩ := validatePositiveIndex_ok hValid hFound hText
    refine ⟨index, hIndex 0, fun latest value hValue => ?_⟩
    simp [pointOperand, latestOfParam, hIndex 0, bind, Except.bind, pure, Except.pure, hValue]
  literal text hFound hText hReads := absurd rfl hReads

theorem boundOperands_sound {valueKey indexKey : String} (hValuePlain : Plain valueKey.toList)
    (hIndexPlain : Plain indexKey.toList)
    (hOne : hasParam params valueKey.toList ≠ hasParam params indexKey.toList)
    (hValid : validatePositiveIndex params indexKey.toList = .ok ()) :
    ∀ operand ∈ boundOperands params valueKey indexKey, operand.Sound params := by
  intro operand hOperand
  obtain rfl | rfl := List.mem_pair.mp hOperand
  · refine ⟨hValuePlain, fun _ _ _ hReads => (by cases hReads), ?_⟩
    intro text hFound hText _ latest value
    dsimp only [paramOrLatestValue, literalNumber]
    rw [paramDouble_of_find hFound hText]
    cases stod text with
    | none => simp [bind, Except.bind]
    | some found => simp [bind, Except.bind, pure, Except.pure]
  · refine ⟨hIndexPlain, ?_, fun _ _ _ hReads => absurd rfl hReads⟩
    intro text hFound hText _
    obtain ⟨index, hNe, hIndex⟩ := validatePositiveIndex_ok hValid hFound hText
    have hNoValue : hasParam params valueKey.toList = false := by
      rw [hasParam_of_find hFound, decide_eq_true hText] at hOne
      simpa using hOne
    refine ⟨index, hIndex 0, fun latest value hValue => ?_⟩
    simp [paramOrLatestValue, paramDouble_of_not_hasParam hNoValue, hIndex 0, bind, Except.bind, pure, Except.pure, hNe,
      hValue]

theorem formulaInput_of_index {i : Nat} {index : UInt32}
    (h : paramIndex params (element "inputs".toList i ++ ".index".toList) 0 = .ok index) (latest : Latest) :
    (index = 0 → formulaInput params latest i = paramDouble params (element "inputs".toList i ++ ".value".toList)) ∧
      (index ≠ 0 → ∀ value, latest index = some value → formulaInput params latest i = .ok (some value)) := by
  unfold formulaInput
  dsimp only
  rw [h]
  constructor
  · rintro rfl
    rfl
  · intro hNe value hValue
    change (if index = 0 then _ else _) = _
    rw [if_neg hNe, hValue]
    rfl

theorem formulaInputOperands_sound {i : Nat} (h : validateFormulaInput params i = .ok ()) :
    ∀ operand ∈ formulaInputOperands params i, operand.Sound params := by
  unfold validateFormulaInput at h
  simp only [bind_ok_iff, require_ok_iff] at h
  obtain ⟨-, hOne, hValid⟩ := h
  intro operand hOperand
  simp only [formulaInputOperands, List.mem_cons, List.not_mem_nil, or_false] at hOperand
  obtain rfl | rfl | rfl := hOperand
  · refine ⟨plain_append _ (by decide) (by decide), ?_, fun _ _ _ hReads => absurd rfl hReads⟩
    intro text hFound hText _
    obtain ⟨index, hNe, hIndex⟩ := validatePositiveIndex_ok hValid hFound hText
    exact ⟨index, hIndex 0, fun latest value hValue => (formulaInput_of_index (hIndex 0) latest).2 hNe value hValue⟩
  · refine ⟨plain_append _ (by decide) (by decide), fun _ _ _ hReads => (by cases hReads), ?_⟩
    intro text hFound hText _ latest value
    have hNoIndex : hasParam params (element "inputs".toList i ++ ".index".toList) = false := by
      rw [hasParam_of_find hFound, decide_eq_true hText] at hOne
      simpa using hOne
    dsimp only
    rw [(formulaInput_of_index (paramIndex_of_not_hasParam hNoIndex 0) latest).1 rfl]
    exact paramDouble_ok_iff hFound hText
  · exact literalOperand_sound (plain_append _ (by decide) (by decide)) none

theorem windowOperands_sound (h : validateWindowAggregate params = .ok ()) :
    ∀ operand ∈ windowOperands params, operand.Sound params := by
  unfold validateWindowAggregate at h
  simp only [bind_ok_iff, require_ok_iff] at h
  obtain ⟨-, -, ⟨⟩, hInput, -, -, -, -, -, -, -, -, -, -, -, hOne, ⟨⟩, hValid, -⟩ := h
  have hBoth : hasParam params "windowSize".toList = false ∨ hasParam params "windowSizeIndex".toList = false := by
    simpa using hOne
  intro operand hOperand
  simp only [windowOperands, List.mem_cons, List.not_mem_nil, or_false] at hOperand
  obtain rfl | rfl | rfl := hOperand
  · exact pointOperand_sound (by decide) hInput
  · refine ⟨(by decide : Plain "windowSize".toList), fun _ _ _ hReads => (by cases hReads), ?_⟩
    intro text hFound hText _ latest value
    have hNoIndex : hasParam params "windowSizeIndex".toList = false := by
      refine hBoth.resolve_left ?_
      rw [hasParam_of_find hFound, decide_eq_true hText]
      decide
    dsimp only [configuredWindowSize, numberOr, literalNumber]
    rw [paramDouble_of_find hFound hText, paramIndex_of_not_hasParam hNoIndex]
    cases stod text with
    | none => simp [bind, Except.bind]
    | some found => simp [bind, Except.bind, pure, Except.pure]
  · refine ⟨(by decide : Plain "windowSizeIndex".toList), ?_, fun _ _ _ hReads => absurd rfl hReads⟩
    intro text hFound hText _
    obtain ⟨index, hNe, hIndex⟩ := validatePositiveIndex_ok hValid hFound hText
    have hNoSize : hasParam params "windowSize".toList = false := by
      refine hBoth.resolve_right ?_
      rw [hasParam_of_find hFound, decide_eq_true hText]
      decide
    refine ⟨index, hIndex 0, fun latest value hValue => ?_⟩
    dsimp only [configuredWindowSize, numberOr]
    rw [paramDouble_of_not_hasParam hNoSize, hIndex 0]
    simp [bind, Except.bind, pure, Except.pure, hNe, hValue]

theorem endpoints_ok {type : String} (h : ["inputIndex", "outputIndex"].forM (requireIndex params type) = .ok ()) :
    (pointOperand params "inputIndex").Sound params ∧ (pointOperand params "outputIndex").Sound params := by
  have hEach := forM_ok_iff.mp h
  constructor
  · exact pointOperand_sound (by decide) (requireIndex_ok (hEach _ (by simp)))
  · exact pointOperand_sound (by decide) (requireIndex_ok (hEach _ (by simp)))

theorem rateLimitOperands_sound (h : validateRateLimit params = .ok ()) :
    ∀ operand ∈ rateLimitOperands params, operand.Sound params := by
  unfold validateRateLimit at h
  obtain ⟨⟨⟩, hEnds, -⟩ := bind_ok_iff.mp h
  obtain ⟨hInput, hOutput⟩ := endpoints_ok hEnds
  intro operand hOperand
  simp only [rateLimitOperands, List.mem_cons, List.not_mem_nil, or_false] at hOperand
  obtain rfl | rfl | rfl | rfl | rfl | rfl | rfl := hOperand
  · exact hInput
  · exact hOutput
  all_goals exact literalOperand_sound (by decide) _

theorem switchingOperands_sound {type : String} {literals : List Operand}
    (h : ["inputIndex", "outputIndex"].forM (requireIndex params type) = .ok ())
    (hLiterals : ∀ operand ∈ literals, operand.Sound params) :
    ∀ operand ∈ switchingOperands params literals, operand.Sound params := by
  obtain ⟨hInput, hOutput⟩ := endpoints_ok h
  intro operand hOperand
  obtain hOwn | hLiteral := List.mem_append.mp hOperand
  · simp only [List.mem_cons, List.not_mem_nil, or_false] at hOwn
    obtain rfl | rfl | rfl | rfl := hOwn
    · exact hInput
    · exact hOutput
    · exact flagOperand_sound (by decide)
    · exact flagOperand_sound (by decide)
  · exact hLiterals operand hLiteral

theorem literalPair_sound {first second : StdString} (hFirst : Plain first) (hSecond : Plain second)
    (fallback : Option RawDouble) :
    ∀ operand ∈ [literalOperand params first fallback, literalOperand params second fallback], operand.Sound params := by
  intro operand hOperand
  obtain rfl | rfl := List.mem_pair.mp hOperand
  · exact literalOperand_sound hFirst fallback
  · exact literalOperand_sound hSecond fallback

theorem formulaOperands_sound (h : validateFormula params = .ok ()) :
    ∀ operand ∈ formulaOperands params, operand.Sound params := by
  unfold validateFormula at h
  simp only [bind_ok_iff, require_ok_iff] at h
  obtain ⟨-, hKnown, count, hCount, -, -, -, -, -, -, ⟨⟩, hInputs, h⟩ := h
  have hOperation : formulaOperation params = normalizedToken ((params.find "operation".toList).getD []) := rfl
  have hSize : inputCount params = count := by
    rw [inputCount, hCount]
    rfl
  have hEach := forM_ok_iff.mp hInputs
  intro operand hOperand
  rw [formulaOperands, hSize] at hOperand
  obtain hOperand | hZero := List.mem_append.mp hOperand
  · obtain hInput | hBound := List.mem_append.mp hOperand
    · obtain ⟨i, hi, hOwn⟩ := List.mem_flatMap.mp hInput
      exact formulaInputOperands_sound (hEach i hi) operand hOwn
    · split at hBound
      · rename_i hClamp
        rw [hOperation] at hClamp
        simp only [hClamp, if_true, bind_ok_iff, require_ok_iff] at h
        obtain ⟨-, hOne, ⟨⟩, hLower, ⟨⟩, hUpper, -⟩ := h
        rw [Bool.and_eq_true, bne_iff_ne, bne_iff_ne] at hOne
        obtain hOwn | hOwn := List.mem_append.mp hBound
        · exact boundOperands_sound (by decide) (by decide) hOne.1 hLower operand hOwn
        · exact boundOperands_sound (by decide) (by decide) hOne.2 hUpper operand hOwn
      · cases hBound
  · split at hZero
    · rw [List.mem_singleton.mp hZero]
      exact literalOperand_sound (by decide) _
    · cases hZero

theorem operands_sound {type : NodeType} (h : validateGenericNode type params = .ok ()) :
    ∀ operand ∈ operands params type, operand.Sound params := by
  cases type with
  | formula => exact formulaOperands_sound h
  | windowAggregate => exact windowOperands_sound h
  | rateLimit => exact rateLimitOperands_sound h
  | hysteresis =>
    obtain ⟨⟨⟩, hEnds, -⟩ := bind_ok_iff.mp h
    exact switchingOperands_sound hEnds (literalPair_sound (by decide) (by decide) none)
  | debounce =>
    obtain ⟨⟨⟩, hEnds, -⟩ := bind_ok_iff.mp h
    exact switchingOperands_sound hEnds (literalPair_sound (by decide) (by decide) (some 0))
  | _ => exact fun operand hOperand => absurd hOperand List.not_mem_nil

end Sound

end EdgeGateway.GraphEms
