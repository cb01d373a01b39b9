import EdgeGateway.Compute.ExpressionTokens

/-! # The value of a rendering -/

namespace EdgeGateway.Compute

open QuotedText Numerals DecimalNumbers

section Operations

variable (doubles : DoubleOperations)

theorem truthy_eq (value : EvalValue) : doubles.truthy value = isTrue doubles value := by
  cases value <;> rfl

theorem combine_eq (op : BinaryOperator) (left right : EvalValue) :
    doubles.combine op left right = op.value doubles left right := by
  cases op with
  | or => rw [DoubleOperations.combine, truthy_eq, truthy_eq, BinaryOperator.value]
  | and => rw [DoubleOperations.combine, truthy_eq, truthy_eq, BinaryOperator.value]
  | _ =>
    cases left with
    | none => rfl
    | some a => cases right <;> rfl

theorem binaryMath_eq (left right : EvalValue) (fn : RawDouble → RawDouble → RawDouble) :
    binaryMath left right fn = strict (fun a b => some (fn a b)) left right := by
  cases left with
  | none => rfl
  | some a => cases right <;> rfl

theorem roundTo_eq (number digits : EvalValue) :
    doubles.roundTo number digits = strict (rounded doubles) number digits := by
  cases number with
  | none => rfl
  | some a =>
    cases digits with
    | none => rfl
    | some b =>
      change _ = rounded doubles a b
      rw [DoubleOperations.roundTo, rounded, unlessZero]
      cases doubles.isfinite (doubles.pow doubleTen b) with
      | false => rw [Bool.not_false, Bool.or_true, if_pos rfl, if_neg Bool.false_ne_true]
      | true => rw [Bool.not_true, Bool.or_false, if_pos rfl]

theorem clamp_eq (number low high : EvalValue) :
    doubles.clamp number low high =
      number.bind fun number => strict (fun low high => some (doubles.max low (doubles.min number high))) low high := by
  cases number with
  | none => rfl
  | some a =>
    cases low with
    | none => rfl
    | some b => cases high <;> rfl

end Operations

namespace ExpressionParser

variable (self : ExpressionParser)

theorem applyFunction_eq (function : ExpressionFunction) (args : Fin function.arity → EvalValue) (text : List Char) :
    self.applyFunction function.text (List.ofFn args) text = .ok (function.value self.doubles args) := by
  cases function with
  | abs => rfl
  | min => exact congrArg Except.ok (binaryMath_eq _ _ _)
  | max => exact congrArg Except.ok (binaryMath_eq _ _ _)
  | clamp => exact congrArg Except.ok (clamp_eq self.doubles _ _ _)
  | round => exact congrArg Except.ok (roundTo_eq self.doubles _ _)
  | «if» =>
    change Except.ok (if self.doubles.truthy _ then _ else _) = _
    rw [truthy_eq]
    rfl

theorem probe_eq (question : Probe) (input : StdString) :
    self.probe question.text input = question.value self.doubles (self.inputs input) := by
  cases question <;> rfl

theorem parse_skipWhitespace (fuel : Nat) (text : List Char) :
    (∀ level, self.parseLevel fuel level (skipWhitespace text) = self.parseLevel fuel level text) ∧
    (∀ rank, self.parseOperand fuel rank (skipWhitespace text) = self.parseOperand fuel rank text) ∧
    self.parseUnary fuel (skipWhitespace text) = self.parseUnary fuel text := by
  induction fuel with
  | zero => exact ⟨fun _ => rfl, fun rank => (by cases rank <;> rfl), rfl⟩
  | succ fuel ih =>
    obtain ⟨hLevel, hOperand, hUnary⟩ := ih
    refine ⟨fun level => ?_, fun rank => ?_, ?_⟩
    · rw [parseLevel, parseLevel, hOperand]
    · cases rank with
      | none => exact hUnary
      | some level => exact hLevel level
    · rw [parseUnary, parseUnary, matchToken_skipWhitespace, matchToken_skipWhitespace, skipWhitespace_idempotent]

theorem levelLoop_congr (fuel : Nat) (level : Level) (left : EvalValue) {text other : List Char}
    (h : skipWhitespace text = skipWhitespace other) :
    self.levelLoop fuel level left text = self.levelLoop fuel level left other := by
  cases fuel with
  | zero => rfl
  | succ fuel =>
    rw [levelLoop, levelLoop, ← level.match_skipWhitespace text, h, level.match_skipWhitespace]

theorem parseOperand_space (fuel : Nat) (rank : Option Level) {c : Char} (hc : isSpace c = true) (text : List Char) :
    self.parseOperand fuel rank (c :: text) = self.parseOperand fuel rank text := by
  rw [← (self.parse_skipWhitespace fuel (c :: text)).2.1, skipWhitespace_space hc,
    (self.parse_skipWhitespace fuel text).2.1]

theorem parseLevel_space (fuel : Nat) (level : Level) {c : Char} (hc : isSpace c = true) (text : List Char) :
    self.parseLevel fuel level (c :: text) = self.parseLevel fuel level text := by
  rw [← (self.parse_skipWhitespace fuel (c :: text)).1, skipWhitespace_space hc, (self.parse_skipWhitespace fuel text).1]

theorem parseArguments_skipWhitespace (fuel : Nat) (args : List EvalValue) (text : List Char) :
    self.parseArguments fuel args (skipWhitespace text) = self.parseArguments fuel args text := by
  cases fuel with
  | zero => rfl
  | succ fuel => rw [parseArguments, parseArguments, (self.parse_skipWhitespace fuel text).1]

def Operand (rank : Option Level) (e : Expr) (text : List Char) : Prop :=
  ∀ rest fuel, Follows rank rest → 16 * text.length + 15 ≤ fuel + 2 * rankOf rank →
    ∃ tail, self.parseOperand fuel rank (text ++ rest) = .ok (e.value self.doubles self.inputs, tail) ∧
      skipWhitespace tail = skipWhitespace rest

def Chained (level : Level) (e : Expr) (text : List Char) : Prop :=
  ∀ rest fuel, Follows level.next rest → 16 * text.length + 14 ≤ fuel + 2 * level.rank →
    ∃ left, fuel ≤ left + text.length + 1 ∧
      self.parseLevel fuel level (text ++ rest) = self.levelLoop left level (e.value self.doubles self.inputs) rest

def Parsed : Option Level → Expr → List Char → Prop
  | some level => self.Chained level
  | none => self.Operand none

section Chains

variable {self} {level : Level} {e : Expr} {text : List Char}

theorem Chained.parseLevel (h : self.Chained level e text) {rest : List Char} (hRest : Follows (some level) rest)
    {fuel : Nat} (hFuel : 16 * text.length + 14 ≤ fuel + 2 * level.rank) :
    self.parseLevel fuel level (text ++ rest) = .ok (e.value self.doubles self.inputs, skipWhitespace rest) := by
  obtain ⟨left, hLeft, hParse⟩ := h rest fuel hRest.next hFuel
  have hRank : level.rank ≤ 5 := by cases level <;> decide
  obtain ⟨left, rfl⟩ : ∃ n, left = n + 1 := Nat.exists_eq_add_one.mpr (by omega)
  rw [hParse, levelLoop, hRest.match_none]

theorem Chained.operand (h : self.Chained level e text) : self.Operand (some level) e text := by
  intro rest fuel hRest hFuel
  have hRank : level.rank ≤ 5 := by cases level <;> decide
  rw [rankOf] at hFuel
  obtain ⟨fuel, rfl⟩ : ∃ n, fuel = n + 1 := Nat.exists_eq_add_one.mpr (by omega)
  refine ⟨skipWhitespace rest, ?_, skipWhitespace_idempotent rest⟩
  exact h.parseLevel hRest (by omega)

theorem Parsed.operand : {rank : Option Level} → self.Parsed rank e text → self.Operand rank e text
  | some _, h => Chained.operand h
  | none, h => h

theorem Operand.chained (h : self.Operand level.next e text) : self.Chained level e text := by
  intro rest fuel hRest hFuel
  have hRank : level.rank ≤ 5 := by cases level <;> decide
  obtain ⟨fuel, rfl⟩ : ∃ n, fuel = n + 1 := Nat.exists_eq_add_one.mpr (by omega)
  obtain ⟨tail, hParse, hTail⟩ := h rest fuel hRest (by rw [rankOf_next]; omega)
  refine ⟨fuel, by omega, ?_⟩
  rw [ExpressionParser.parseLevel, hParse]
  exact self.levelLoop_congr fuel level _ hTail

theorem Chained.space {c : Char} (hc : isSpace c = true) (h : self.Chained level e text) :
    self.Chained level e (c :: text) := by
  intro rest fuel hRest hFuel
  rw [List.length_cons] at hFuel
  obtain ⟨left, hLeft, hParse⟩ := h rest fuel hRest (by omega)
  refine ⟨left, ?_, ?_⟩
  · rw [List.length_cons]
    omega
  · rw [List.cons_append, self.parseLevel_space fuel level hc, hParse]

theorem Chained.spaceAfter {c : Char} (hc : isSpace c = true) (h : self.Chained level e text) :
    self.Chained level e (text ++ [c]) := by
  intro rest fuel hRest hFuel
  rw [List.length_append, List.length_singleton] at hFuel
  obtain ⟨left, hLeft, hParse⟩ := h (c :: rest) fuel (hRest.space hc) (by omega)
  refine ⟨left, ?_, ?_⟩
  · rw [List.length_append]
    omega
  · rw [List.append_assoc, List.singleton_append, hParse]
    exact self.levelLoop_congr left level _ (skipWhitespace_space hc rest)

theorem Operand.space {rank : Option Level} {c : Char} (hc : isSpace c = true) (h : self.Operand rank e text) :
    self.Operand rank e (c :: text) := by
  intro rest fuel hRest hFuel
  rw [List.length_cons] at hFuel
  rw [List.cons_append, self.parseOperand_space fuel rank hc]
  exact h rest fuel hRest (by omega)

theorem Operand.spaceAfter {rank : Option Level} {c : Char} (hc : isSpace c = true) (h : self.Operand rank e text) :
    self.Operand rank e (text ++ [c]) := by
  intro rest fuel hRest hFuel
  rw [List.length_append, List.length_singleton] at hFuel
  obtain ⟨tail, hParse, hTail⟩ := h (c :: rest) fuel (hRest.space hc) (by omega)
  refine ⟨tail, ?_, hTail.trans (skipWhitespace_space hc rest)⟩
  rw [List.append_assoc, List.singleton_append, hParse]

theorem Chained.binary {op : BinaryOperator} {l r : Expr} {left right : List Char} (hOp : op ∈ level.operators)
    (hLeft : self.Chained level l left) (hRight : self.Operand level.next r right)
    (hHead : ∀ rest : List Char, ∀ c ∈ (right ++ rest).head?, c ≠ '=') :
    self.Chained level (.binary op l r) (left ++ (op.token ++ right)) := by
  intro rest fuel hRest hFuel
  obtain ⟨c, tokenTail, hToken, -⟩ := levelOfHead_operator hOp
  have hTokenLength : 1 ≤ op.token.length := by
    rw [hToken, List.length_cons]
    omega
  rw [List.length_append, List.length_append] at hFuel
  obtain ⟨more, hMore, hParse⟩ :=
    hLeft (op.token ++ (right ++ rest)) fuel (Follows.operator hOp _) (by omega)
  have hRank : level.rank ≤ 5 := by cases level <;> decide
  obtain ⟨more, rfl⟩ : ∃ n, more = n + 1 := Nat.exists_eq_add_one.mpr (by omega)
  obtain ⟨tail, hOperand, hTail⟩ := hRight rest more hRest (by rw [rankOf_next]; omega)
  refine ⟨more, ?_, ?_⟩
  · rw [List.length_append, List.length_append]
    omega
  · rw [List.append_assoc, List.append_assoc, hParse, levelLoop, Level.match_operator hOp (hHead rest)]
    change (do
      let read ← self.parseOperand more level.next (right ++ rest)
      self.levelLoop more level (self.doubles.combine op (l.value self.doubles self.inputs) read.1) read.2) = _
    rw [hOperand, Expr.value, ← combine_eq]
    exact self.levelLoop_congr more level _ hTail

end Chains

section Primaries

variable {self}

theorem parseUnary_eq {c : Char} (hSpace : isSpace c = false) (hNot : c ≠ '!') (hNeg : c ≠ '-') (text : List Char)
    (fuel : Nat) : self.parseUnary (fuel + 1) (c :: text) = self.parsePrimary fuel (c :: text) := by
  rw [parseUnary, matchToken_head hSpace hNot, matchToken_head hSpace hNeg, skipWhitespace_cons hSpace]

/-- What is neither an operator's operand nor behind a sign is read as a primary. -/
theorem operand_of_primary {e : Expr} {c : Char} {tail : List Char} (hSpace : isSpace c = false) (hNot : c ≠ '!')
    (hNeg : c ≠ '-')
    (h : ∀ rest fuel, Follows none rest → 16 * (c :: tail).length ≤ fuel →
      ∃ left, self.parsePrimary (fuel + 1) (c :: tail ++ rest) = .ok (e.value self.doubles self.inputs, left) ∧
        skipWhitespace left = skipWhitespace rest) : self.Operand none e (c :: tail) := by
  intro rest fuel hRest hFuel
  rw [rankOf] at hFuel
  obtain ⟨fuel, rfl⟩ : ∃ n, fuel = n + 3 := ⟨fuel - 3, by omega⟩
  rw [parseOperand, List.cons_append, parseUnary_eq hSpace hNot hNeg]
  exact h rest fuel hRest (by omega)

theorem Operand.unary {op : UnaryOperator} {e : Expr} {text : List Char} (h : self.Operand none e text) :
    self.Operand none (.unary op e) (op.token :: text) := by
  intro rest fuel hRest hFuel
  rw [rankOf, List.length_cons] at hFuel
  obtain ⟨fuel, rfl⟩ : ∃ n, fuel = n + 2 := ⟨fuel - 2, by omega⟩
  obtain ⟨tail, hParse, hTail⟩ := h rest (fuel + 1) hRest (by rw [rankOf]; omega)
  rw [parseOperand] at hParse
  refine ⟨tail, ?_, hTail⟩
  rw [parseOperand, parseUnary]
  cases op with
  | not =>
    have hNot : matchToken ['!'] (UnaryOperator.token .not :: text ++ rest) = some (text ++ rest) :=
      matchToken_append rfl (by decide) (text ++ rest)
    rw [hNot]
    change (do
      let read ← self.parseUnary fuel (text ++ rest)
      Except.ok (flag (!self.doubles.truthy read.1), read.2)) = _
    rw [hParse, Expr.value, UnaryOperator.value, ← truthy_eq]
    rfl
  | neg =>
    have hNot : matchToken ['!'] (UnaryOperator.token .neg :: text ++ rest) = none :=
      matchToken_head (by decide) (by decide) _
    have hNeg : matchToken ['-'] (UnaryOperator.token .neg :: text ++ rest) = some (text ++ rest) :=
      matchToken_append rfl (by decide) (text ++ rest)
    rw [hNot, hNeg]
    change (do
      let read ← self.parseUnary fuel (text ++ rest)
      Except.ok (read.1.map self.doubles.neg, read.2)) = _
    rw [hParse]
    rfl

theorem Operand.parentheses {e : Expr} {text : List Char} (h : self.Chained .logicalOr e text) :
    self.Operand none e ('(' :: (text ++ [')'])) := by
  refine operand_of_primary (by decide) (by decide) (by decide) fun rest fuel _ hFuel => ⟨rest, ?_, rfl⟩
  rw [List.length_cons, List.length_append, List.length_singleton] at hFuel
  have hInner := h.parseLevel (Follows.close (.inl rfl) rest) (show _ ≤ fuel + 2 * 0 by omega)
  have hText : '(' :: (text ++ [')']) ++ rest = '(' :: (text ++ (')' :: rest)) := by
    rw [List.cons_append, List.append_assoc, List.singleton_append]
  have hClose : self.expect [')'] (')' :: rest) = .ok rest := by
    rw [expect, show matchToken [')'] (')' :: rest) = some rest from matchToken_append rfl (by decide) rest]
  rw [hText, parsePrimary, skipWhitespace_cons (by decide)]
  dsimp only
  rw [if_pos rfl, hInner, skipWhitespace_cons (by decide)]
  change (do
    let rest ← self.expect [')'] (')' :: rest)
    Except.ok (e.value self.doubles self.inputs, rest)) = _
  rw [hClose]
  rfl

theorem Operand.number (literal : NumberLiteral) : self.Operand none (.number literal) literal.text := by
  have hEmpty : Ends [] := fun c hc => by cases hc
  obtain ⟨d, tail, hText, hHead, -⟩ := literal_head literal hEmpty
  rw [List.append_nil] at hText
  have hFirst : isSpace d = false ∧ d ≠ '!' ∧ d ≠ '-' ∧ d ≠ '(' ∧ (d.isDigit || d == '.') = true := by
    obtain hDigit | rfl := hHead
    · refine ⟨not_space_of_digit hDigit, ne_of_digit hDigit (by decide), ne_of_digit hDigit (by decide),
        ne_of_digit hDigit (by decide), ?_⟩
      rw [hDigit, Bool.true_or]
    · decide
  obtain ⟨hSpace, hNot, hNeg, hOpen, hNumber⟩ := hFirst
  rw [hText]
  refine operand_of_primary hSpace hNot hNeg fun rest fuel hRest _ => ⟨rest, ?_, rfl⟩
  have hValue := numberAt_literal literal hRest.ends
  have hAfter := afterNumber_literal literal hRest.ends
  rw [hText, List.cons_append] at hValue hAfter
  rw [List.cons_append, parsePrimary, skipWhitespace_cons hSpace]
  dsimp only
  rw [if_neg hOpen, if_pos hNumber, hValue, hAfter]
  rfl

section Names

variable {rest : List Char}

theorem parseIdentifier_identifier (name : Identifier) (hRest : Apart rest) :
    self.parseIdentifier (name.text ++ rest) = .ok (name.text, rest) := by
  rw [parseIdentifier, name.skipWhitespace_text, Identifier.text, List.cons_append]
  dsimp only
  rw [if_pos name.isStart, name.takeWhile_others hRest, name.dropWhile_others hRest]

theorem parsePrimary_identifier (name : Identifier) (hRest : Apart rest)
    (fuel : Nat) :
    self.parsePrimary (fuel + 1) (name.text ++ rest) =
      if name.text = "null".toList then .ok (none, rest)
      else if name.text = "true".toList then .ok (some doubleOne, rest)
      else if name.text = "false".toList then .ok (some doubleZero, rest)
      else
        match matchToken ['('] rest with
        | some rest => self.parseFunction fuel name.text rest
        | none => .ok (self.variableValue name.text, skipWhitespace rest) := by
  have hOpen : name.first ≠ '(' := by
    intro hEq
    have hStart := name.isStart
    rw [hEq] at hStart
    cases hStart
  have hNumber : ¬ (name.first.isDigit || name.first == '.') = true := by
    rw [Bool.or_eq_true, beq_iff_eq, not_or]
    constructor
    · intro hDigit
      have hStart := name.isStart
      rw [not_start_of_digit hDigit] at hStart
      cases hStart
    · intro hEq
      have hStart := name.isStart
      rw [hEq] at hStart
      cases hStart
  have hIdentifier : self.parseIdentifier (name.text ++ rest) = _ := parseIdentifier_identifier name hRest
  rw [parsePrimary, name.skipWhitespace_text]
  rw [Identifier.text, List.cons_append] at hIdentifier ⊢
  dsimp only
  rw [if_neg hOpen, if_neg hNumber, if_pos name.isStart, hIdentifier]
  rfl

theorem operand_of_identifier {e : Expr} {name : Identifier} {others : List Char}
    (h : ∀ rest fuel, Follows none rest → 16 * (name.text ++ others).length ≤ fuel →
      ∃ left, self.parsePrimary (fuel + 1) (name.text ++ (others ++ rest)) =
          .ok (e.value self.doubles self.inputs, left) ∧
        skipWhitespace left = skipWhitespace rest) : self.Operand none e (name.text ++ others) := by
  have hPart : isIdentifierPart name.first = true := identifierPart_iff.mpr (.inl name.isStart)
  have hOther {c : Char} (hc : isIdentifierStart c = false) : name.first ≠ c := by
    intro hEq
    have hStart := name.isStart
    rw [hEq, hc] at hStart
    cases hStart
  rw [Identifier.text, List.cons_append]
  refine operand_of_primary (not_space_of_identifierPart hPart) (hOther (by decide)) (hOther (by decide)) ?_
  intro rest fuel hRest hFuel
  obtain ⟨left, hParse, hLeft⟩ := h rest fuel hRest hFuel
  refine ⟨left, ?_, hLeft⟩
  rw [← hParse, Identifier.text, List.cons_append, List.cons_append, List.append_assoc]

theorem Operand.constant (constant : Constant) : self.Operand none (.constant constant) constant.text := by
  obtain ⟨name, hName⟩ := constant.identifier
  rw [← hName, ← List.append_nil name.text]
  refine operand_of_identifier fun rest fuel hRest _ => ⟨rest, ?_, rfl⟩
  rw [List.nil_append, parsePrimary_identifier name hRest.apart, hName]
  cases constant <;> rfl

theorem parsePrimary_input (name : InputName) (hRest : Apart rest) (fuel : Nat) :
    self.parsePrimary (fuel + 1) (name.text ++ rest) =
      match matchToken ['('] rest with
      | some rest => self.parseFunction fuel name.text rest
      | none => .ok (self.variableValue name.text, skipWhitespace rest) := by
  have hNull : name.text ≠ "null".toList := name.not_constant .null
  have hTrue : name.text ≠ "true".toList := name.not_constant .true
  have hFalse : name.text ≠ "false".toList := name.not_constant .false
  rw [parsePrimary_identifier name.toIdentifier hRest, if_neg hNull, if_neg hTrue, if_neg hFalse]

theorem variableValue_eq (name : StdString) :
    self.variableValue name = ((self.inputs name).filter (·.valid)).map (·.value) := by
  rw [variableValue]
  cases self.inputs name with
  | none => rfl
  | some state =>
    dsimp only
    rw [Option.filter_some]
    split <;> rfl

theorem Operand.input (name : InputName) : self.Operand none (.input name) name.text := by
  rw [← List.append_nil name.text]
  refine operand_of_identifier fun rest fuel hRest _ => ⟨skipWhitespace rest, ?_, skipWhitespace_idempotent rest⟩
  have hOpen : matchToken ['('] rest = none := by
    refine matchToken_none (fun c hc hHead => ?_) (List.cons_ne_nil _ [])
    exact (hRest.stops c hc).1 (Option.some.inj hHead).symm
  rw [List.nil_append, parsePrimary_input name hRest.apart, hOpen, variableValue_eq]
  rfl

end Names

theorem expect_of_match {token text rest : List Char} (h : matchToken token text = some rest) :
    self.expect token text = .ok rest := by
  rw [expect, h]

theorem parseArguments_last {fuel : Nat} {values : List EvalValue} {text rest : List Char} {value : EvalValue}
    (h : self.parseLevel fuel .logicalOr text = .ok (value, ')' :: rest)) :
    self.parseArguments (fuel + 1) values text = .ok (values ++ [value], rest) := by
  have hClose : matchToken [')'] (')' :: rest) = some rest := matchToken_append rfl (by decide) rest
  rw [parseArguments, h]
  dsimp only [bind, Except.bind]
  rw [hClose]

theorem parseArguments_next {fuel : Nat} {values : List EvalValue} {text rest : List Char} {value : EvalValue}
    (h : self.parseLevel fuel .logicalOr text = .ok (value, ',' :: rest)) :
    self.parseArguments (fuel + 1) values text = self.parseArguments fuel (values ++ [value]) rest := by
  have hClose : matchToken [')'] (',' :: rest) = none := matchToken_head (by decide) (by decide) rest
  have hComma : matchToken [','] (',' :: rest) = some rest := matchToken_append rfl (by decide) rest
  rw [parseArguments, h]
  dsimp only [bind, Except.bind]
  rw [hClose, expect_of_match hComma]

/-- Arguments are read one after the other up to the closing parenthesis. -/
theorem parseArguments_texts (args : List (Expr × List Char)) (hArgs : args ≠ [])
    (h : ∀ arg ∈ args, self.Chained .logicalOr arg.1 arg.2) (values : List EvalValue) (rest : List Char) (fuel : Nat)
    (hFuel : 16 * ([','].intercalate (args.map Prod.snd)).length + 16 ≤ fuel) :
    self.parseArguments fuel values ([','].intercalate (args.map Prod.snd) ++ ')' :: rest) =
      .ok (values ++ args.map fun arg => arg.1.value self.doubles self.inputs, rest) := by
  induction args generalizing values fuel with
  | nil => exact absurd rfl hArgs
  | cons arg args ih =>
    obtain ⟨hFirst, hOthers⟩ := List.forall_mem_cons.mp h
    obtain ⟨fuel, rfl⟩ : ∃ n, fuel = n + 1 := Nat.exists_eq_add_one.mpr (by omega)
    have hParse {c : Char} (hc : c = ')' ∨ c = ',') (hSpace : isSpace c = false) (rest : List Char)
        (hFuel : 16 * arg.2.length + 14 ≤ fuel) :
        self.parseLevel fuel .logicalOr (arg.2 ++ c :: rest) = .ok (arg.1.value self.doubles self.inputs, c :: rest) := by
      have hValue := hFirst.parseLevel (Follows.close hc rest) (show _ ≤ fuel + 2 * 0 from hFuel)
      rw [skipWhitespace_cons hSpace] at hValue
      exact hValue
    cases args with
    | nil =>
      rw [List.map_singleton, List.intercalate_singleton] at hFuel ⊢
      exact parseArguments_last (hParse (.inl rfl) (by decide) rest (by omega))
    | cons next args =>
      have hText : [','].intercalate ((arg :: next :: args).map Prod.snd) =
          arg.2 ++ ',' :: [','].intercalate ((next :: args).map Prod.snd) := by
        rw [List.map_cons, List.map_cons, List.intercalate_cons_cons, List.append_assoc]
        rfl
      rw [hText, List.length_append, List.length_cons] at hFuel
      rw [hText, List.append_assoc, List.cons_append,
        parseArguments_next (hParse (.inr rfl) (by decide) _ (by omega)),
        ih (List.cons_ne_nil _ _) hOthers _ fuel (by omega), List.append_assoc]
      rfl

theorem intercalate_starts {first tail : List Char} {d : Char} (hSkip : skipWhitespace first = d :: tail)
    (others : List (List Char)) (rest : List Char) :
    ∃ more, skipWhitespace ([','].intercalate (first :: others) ++ rest) = d :: more := by
  cases others with
  | nil =>
    rw [List.intercalate_singleton]
    exact ⟨_, skipWhitespace_append hSkip rest⟩
  | cons next others =>
    rw [List.intercalate_cons_cons, List.append_assoc, List.append_assoc]
    exact ⟨_, skipWhitespace_append hSkip _⟩

theorem parseFunction_call {name text rest : List Char} {values : List EvalValue} {value : EvalValue} {fuel : Nat}
    {d : Char} {tail : List Char} (hProbe : isProbe name = false) (hSkip : skipWhitespace text = d :: tail)
    (hHead : d ≠ ')') (hArgs : self.parseArguments fuel [] text = .ok (values, rest))
    (hApply : self.applyFunction name values rest = .ok value) :
    self.parseFunction (fuel + 1) name text = .ok (value, rest) := by
  have hClose : matchToken [')'] text = none := by
    rw [← matchToken_skipWhitespace, hSkip]
    exact matchToken_head (not_space_of_skipped hSkip) hHead tail
  rw [parseFunction, if_neg (Bool.eq_false_iff.mp hProbe), hClose, parseArguments_skipWhitespace, hArgs]
  dsimp only [bind, Except.bind]
  rw [hApply]

theorem parsePrimary_call (name : InputName) {gap text : List Char} (hGap : ∀ c ∈ gap, isSpace c = true) (fuel : Nat) :
    self.parsePrimary (fuel + 1) (name.text ++ (gap ++ '(' :: text)) = self.parseFunction fuel name.text text := by
  have hOpen : matchToken ['('] (gap ++ '(' :: text) = some text := by
    rw [matchToken_blank hGap]
    exact matchToken_append rfl (by decide) text
  rw [parsePrimary_input name (Apart.blank hGap isSymbol_open text), hOpen]

theorem Operand.call {function : ExpressionFunction} {args : Fin function.arity → Expr}
    {texts : Fin function.arity → List Char} {gap : List Char} (hGap : ∀ c ∈ gap, isSpace c = true)
    (hTexts : ∀ i, Renders (some .logicalOr) (args i) (texts i))
    (h : ∀ i, self.Chained .logicalOr (args i) (texts i)) :
    self.Operand none (.call function args)
      (function.text ++ (gap ++ '(' :: ([','].intercalate (List.ofFn texts) ++ [')']))) := by
  obtain ⟨name, hName, hProbe⟩ := function.identifier
  rw [← hName]
  refine operand_of_identifier fun rest fuel _ hFuel => ⟨rest, ?_, rfl⟩
  rw [List.length_append, List.length_append, List.length_cons, List.length_append, List.length_singleton] at hFuel
  obtain ⟨fuel, rfl⟩ : ∃ n, fuel = n + 1 := Nat.exists_eq_add_one.mpr (by omega)
  rw [List.append_assoc, List.cons_append, List.append_assoc, List.singleton_append, parsePrimary_call name hGap]
  have hText : List.ofFn texts = (List.ofFn fun i => (args i, texts i)).map Prod.snd := by
    rw [List.map_ofFn]
    rfl
  have hValues : (List.ofFn fun i => (args i).value self.doubles self.inputs) =
      (List.ofFn fun i => (args i, texts i)).map fun arg => arg.1.value self.doubles self.inputs := by
    rw [List.map_ofFn]
    rfl
  have hSome : (List.ofFn fun i => (args i, texts i)) ≠ [] := by
    intro hNil
    have hArity := congrArg List.length hNil
    rw [List.length_ofFn] at hArity
    cases function <;> cases hArity
  have hChained : ∀ arg ∈ List.ofFn (fun i => (args i, texts i)), self.Chained .logicalOr arg.1 arg.2 := by
    intro arg hArg
    obtain ⟨i, rfl⟩ := List.mem_ofFn.mp hArg
    exact h i
  have hArgs := parseArguments_texts _ hSome hChained [] rest fuel (by rw [← hText]; omega)
  rw [← hText, ← hValues, List.nil_append] at hArgs
  have hHead : ∃ d tail, skipWhitespace ([','].intercalate (List.ofFn texts) ++ ')' :: rest) = d :: tail ∧ d ≠ ')' := by
    obtain ⟨first, others, hFirst⟩ := List.exists_cons_of_ne_nil (hText ▸ mt List.map_eq_nil_iff.mp hSome)
    obtain ⟨i, hi⟩ := List.mem_ofFn.mp (hFirst ▸ List.mem_cons_self : first ∈ List.ofFn texts)
    obtain ⟨d, tail, hSkip, hStarts⟩ := (hTexts i).starts
    rw [hi] at hSkip
    obtain ⟨more, hMore⟩ := intercalate_starts hSkip others (')' :: rest)
    exact ⟨d, more, hFirst ▸ hMore, hStarts.ne (by decide) (by decide)⟩
  obtain ⟨d, tail, hSkip, hNe⟩ := hHead
  have hApply := self.applyFunction_eq function (fun i => (args i).value self.doubles self.inputs) rest
  rw [← hName] at hApply
  exact parseFunction_call hProbe hSkip hNe hArgs hApply

theorem Operand.probe {question : Probe} {input : Identifier} {gap before after : List Char}
    (hGap : ∀ c ∈ gap, isSpace c = true) (hBefore : ∀ c ∈ before, isSpace c = true)
    (hAfter : ∀ c ∈ after, isSpace c = true) :
    self.Operand none (.probe question input)
      (question.text ++ (gap ++ '(' :: (before ++ (input.text ++ (after ++ [')']))))) := by
  obtain ⟨name, hName, hProbe⟩ := question.identifier
  rw [← hName]
  refine operand_of_identifier fun rest fuel _ hFuel => ⟨rest, ?_, rfl⟩
  rw [List.length_append, List.length_append, List.length_cons] at hFuel
  obtain ⟨fuel, rfl⟩ : ∃ n, fuel = n + 1 := Nat.exists_eq_add_one.mpr (by omega)
  rw [List.append_assoc, List.cons_append, List.append_assoc, List.append_assoc, List.append_assoc,
    List.singleton_append, parsePrimary_call name hGap, parseFunction, if_pos hProbe, parseProbe]
  have hIdentifier : self.parseIdentifier (before ++ (input.text ++ (after ++ ')' :: rest))) =
      .ok (input.text, after ++ ')' :: rest) := by
    have hInput : self.parseIdentifier (input.text ++ (after ++ ')' :: rest)) = _ :=
      parseIdentifier_identifier input (Apart.blank hAfter isSymbol_close rest)
    rw [← hInput, parseIdentifier, parseIdentifier, skipWhitespace_blank hBefore]
  have hClose : matchToken [')'] (after ++ ')' :: rest) = some rest := by
    rw [matchToken_blank hAfter]
    exact matchToken_append rfl (by decide) rest
  rw [hIdentifier]
  dsimp only [bind, Except.bind]
  rw [expect_of_match hClose, hName, probe_eq]
  rfl

end Primaries

theorem parsed_of_renders {rank : Option Level} {e : Expr} {text : List Char} (h : Renders rank e text) :
    self.Parsed rank e text := by
  induction h with
  | @before rank e text c hc _ ih =>
    cases rank with
    | none => exact Operand.space hc ih
    | some level => exact Chained.space hc ih
  | @after rank e text c hc _ ih =>
    cases rank with
    | none => exact Operand.spaceAfter hc ih
    | some level => exact Chained.spaceAfter hc ih
  | operand _ ih => exact Operand.chained ih.operand
  | binary hOp _ hRight ihLeft ihRight => exact Chained.binary hOp ihLeft ihRight.operand hRight.head_ne
  | unary _ ih => exact Operand.unary ih
  | parentheses _ ih => exact Operand.parentheses ih
  | number literal => exact Operand.number literal
  | constant name => exact Operand.constant name
  | input name => exact Operand.input name
  | call hGap hTexts ih => exact Operand.call hGap hTexts ih
  | probe hGap hBefore hAfter => exact Operand.probe hGap hBefore hAfter

end ExpressionParser

/-- Every rendering of an expression evaluates to the value of the expression. -/
theorem parse_rendering (doubles : DoubleOperations) (inputs : NamedInputs RawDouble) (e : Expr) (text : List Char)
    (h : Renders (some .logicalOr) e text) :
    (ExpressionParser.mk doubles inputs text).parse = .ok (e.value doubles inputs) := by
  have hChained : (ExpressionParser.mk doubles inputs text).Chained .logicalOr e text :=
    ExpressionParser.parsed_of_renders _ h
  have hFuel : 16 * text.length + 14 ≤ ExpressionParser.fuelFor text + 2 * 0 := by
    rw [ExpressionParser.fuelFor]
    omega
  have hParse := hChained.parseLevel Follows.nil hFuel
  rw [List.append_nil] at hParse
  rw [ExpressionParser.parse, ExpressionParser.parseLogicalOr, hParse]
  rfl

/-- The operations that compare numbers or change a sign, on the bits; the others are never called with it. -/
def signOperations : DoubleOperations where
  add a _ := a
  sub a _ := a
  mul a _ := a
  div a _ := a
  fmod a _ := a
  pow a _ := a
  round a := a
  ofInt _ := doubleZero
  neg a := a ^^^ BitVec.ofNat 64 (2 ^ 63)
  fabs a := a &&& BitVec.ofNat 64 (2 ^ 63 - 1)
  equal a b := !isNaN a && !isNaN b && signedUnits a == signedUnits b
  less := Numerals.less
  lessEqual := Numerals.lessEq
  isfinite := Numerals.isFinite

theorem parse_rendering_comparison :
    (ExpressionParser.mk signOperations (fun _ => some ⟨true, false, doubleTen, 192, 0⟩) " -x <= 1.5".toList).parse =
      .ok (some doubleOne) := by
  let x : InputName := ⟨⟨'x', [], rfl, List.forall_mem_nil _⟩, fun c => by cases c <;> decide⟩
  let bound : NumberLiteral := ⟨['1'], some ['5'], none, by decide, List.all_eq_true.mp rfl⟩
  have hLeft : Renders none (.unary .neg (.input x)) " -x ".toList := .before rfl (.after rfl (.unary (.input x)))
  have hRight : Renders (some .addSub) (.number bound) " 1.5".toList := (Renders.before rfl (.number bound)).atLevel .addSub
  have hOp : BinaryOperator.le ∈ Level.comparison.operators := by decide
  have hComparison := @Renders.binary .comparison .le _ _ _ _ hOp (hLeft.atLevel .comparison) hRight
  have hAnd := @Renders.operand .logicalAnd _ _ (@Renders.operand .equality _ _ hComparison)
  rw [parse_rendering signOperations _ _ " -x <= 1.5".toList (@Renders.operand .logicalOr _ _ hAnd)]
  decide +kernel

end EdgeGateway.Compute
