import EdgeGateway.Compute.ExpressionGrammar
import Mathlib.Data.List.DropRight

/-! # Tokens of an expression -/

namespace EdgeGateway.Compute

open QuotedText Numerals DecimalNumbers

section WhiteSpace

variable {gap text : List Char}

theorem skipWhitespace_idempotent (text : List Char) : skipWhitespace (skipWhitespace text) = skipWhitespace text :=
  List.dropWhile_idempotent isSpace text

theorem skipWhitespace_space {c : Char} (hc : isSpace c = true) (text : List Char) :
    skipWhitespace (c :: text) = skipWhitespace text :=
  List.dropWhile_cons_of_pos hc

theorem skipWhitespace_blank (hGap : ∀ c ∈ gap, isSpace c = true) (text : List Char) :
    skipWhitespace (gap ++ text) = skipWhitespace text :=
  List.dropWhile_append_of_pos hGap

theorem blank_skipWhitespace (text : List Char) :
    ∃ gap, text = gap ++ skipWhitespace text ∧ ∀ c ∈ gap, isSpace c = true :=
  ⟨text.takeWhile isSpace, List.takeWhile_append_dropWhile.symm, fun _ hc => List.mem_takeWhile_imp hc⟩

theorem not_space_of_skipped {c : Char} {tail : List Char} (h : skipWhitespace text = c :: tail) : isSpace c = false := by
  have hHead := List.head?_dropWhile_not isSpace text
  rw [← skipWhitespace, h] at hHead
  exact hHead

end WhiteSpace

section Identifiers

variable {c : Char}

theorem le_of_space (hc : isSpace c = true) : c.val.toNat ≤ 32 := by
  simp only [isSpace, Bool.or_eq_true, beq_iff_eq, Bool.and_eq_true, decide_eq_true_eq, Char.le_def,
    UInt32.le_iff_toNat_le] at hc
  obtain rfl | ⟨-, hHigh⟩ := hc
  · decide
  · exact Nat.le_trans hHigh (by decide)

theorem le_of_identifierStart (hc : isIdentifierStart c = true) : 65 ≤ c.val.toNat := by
  rw [isIdentifierStart] at hc
  unfold Char.isAlpha Char.isUpper Char.isLower at hc
  simp only [Bool.or_eq_true, Bool.and_eq_true, decide_eq_true_eq, beq_iff_eq, ge_iff_le,
    UInt32.le_iff_toNat_le] at hc
  obtain (⟨hLow, -⟩ | ⟨hLow, -⟩) | rfl := hc
  · exact hLow
  · exact Nat.le_trans (by decide) hLow
  · decide

theorem digit_bounds (hc : c.isDigit = true) : 48 ≤ c.val.toNat ∧ c.val.toNat ≤ 57 := by
  simp only [Char.isDigit, Bool.and_eq_true, decide_eq_true_eq, ge_iff_le, UInt32.le_iff_toNat_le] at hc
  exact hc

theorem identifierPart_iff : isIdentifierPart c = true ↔ isIdentifierStart c = true ∨ c.isDigit = true := by
  simp only [isIdentifierPart, isIdentifierStart, Char.isAlphanum, Bool.or_eq_true]
  tauto

theorem le_of_identifierPart (hc : isIdentifierPart c = true) : 48 ≤ c.val.toNat := by
  obtain hStart | hDigit := identifierPart_iff.mp hc
  · exact Nat.le_trans (by decide) (le_of_identifierStart hStart)
  · exact (digit_bounds hDigit).1

theorem not_space_of_identifierPart (hc : isIdentifierPart c = true) : isSpace c = false := by
  rw [← Bool.not_eq_true]
  intro hSpace
  have hLow := le_of_identifierPart hc
  have hHigh := le_of_space hSpace
  omega

theorem not_start_of_digit (hc : c.isDigit = true) : isIdentifierStart c = false := by
  rw [← Bool.not_eq_true]
  intro hStart
  have hLow := le_of_identifierStart hStart
  have hHigh := (digit_bounds hc).2
  omega

theorem toLower_of_not_part (hc : isIdentifierPart c = false) : c.toLower = c := by
  refine dif_neg ?_
  intro hUpper
  have hLetter : c.isUpper = true := decide_eq_true hUpper
  rw [isIdentifierPart, Char.isAlphanum] at hc
  unfold Char.isAlpha at hc
  rw [hLetter] at hc
  cases hc

end Identifiers

section Tokens

variable {token text : List Char}

theorem matchToken_skipWhitespace (token text : List Char) :
    matchToken token (skipWhitespace text) = matchToken token text := by
  rw [matchToken, matchToken, skipWhitespace_idempotent]

theorem matchToken_append {c : Char} {tail : List Char} (hToken : token = c :: tail) (hc : isSpace c = false)
    (rest : List Char) : matchToken token (token ++ rest) = some rest := by
  have hSkip : skipWhitespace (token ++ rest) = token ++ rest := by
    rw [hToken]
    exact skipWhitespace_cons hc _
  rw [matchToken, hSkip, if_pos (List.isPrefixOf_iff_prefix.mpr ⟨rest, rfl⟩), List.drop_left]

theorem matchToken_none (hHead : ∀ c ∈ (skipWhitespace text).head?, token.head? ≠ some c) (hToken : token ≠ []) :
    matchToken token text = none := by
  rw [matchToken, if_neg]
  intro hPrefix
  obtain ⟨rest, hText⟩ := List.isPrefixOf_iff_prefix.mp hPrefix
  obtain ⟨c, tail, rfl⟩ := List.exists_cons_of_ne_nil hToken
  exact hHead c (by rw [← hText]; rfl) rfl

theorem matchToken_head {c d : Char} (hc : isSpace c = false) (h : c ≠ d) (rest : List Char) :
    matchToken [d] (c :: rest) = none := by
  refine matchToken_none ?_ (List.cons_ne_nil d [])
  rw [skipWhitespace_cons hc]
  intro e he hHead
  exact h ((Option.some.inj he).trans (Option.some.inj hHead).symm)

theorem matchToken_blank {gap : List Char} (hGap : ∀ c ∈ gap, isSpace c = true) (token text : List Char) :
    matchToken token (gap ++ text) = matchToken token text := by
  rw [← matchToken_skipWhitespace, skipWhitespace_blank hGap, matchToken_skipWhitespace]

theorem matchToken_some {rest : List Char} (h : matchToken token text = some rest) :
    ∃ gap, text = gap ++ (token ++ rest) ∧ ∀ c ∈ gap, isSpace c = true := by
  rw [matchToken, Option.ite_none_right_eq_some] at h
  obtain ⟨hPrefix, hRest⟩ := h
  obtain ⟨more, hText⟩ := List.isPrefixOf_iff_prefix.mp hPrefix
  rw [← hText, List.drop_left, Option.some.injEq] at hRest
  subst hRest
  obtain ⟨gap, hSplit, hGap⟩ := blank_skipWhitespace text
  exact ⟨gap, by rw [hText]; exact hSplit, hGap⟩

end Tokens

section Numbers

variable {rest : List Char}

theorem dropWhile_body_of_head {text : List Char} (hHead : ∀ c ∈ text.head?, c.isDigit = false ∧ c ≠ '.') :
    text.dropWhile (fun c => c.isDigit || c == '.') = text := by
  cases text with
  | nil => rfl
  | cons c text =>
    obtain ⟨hDigit, hPoint⟩ := hHead c rfl
    rw [List.dropWhile_cons_of_neg]
    rw [hDigit, Bool.false_or, beq_iff_eq]
    exact hPoint

theorem afterNumber_literal (literal : NumberLiteral) (hRest : Ends rest) :
    afterNumber (literal.text ++ rest) = rest := by
  have hIntegral : ∀ c ∈ literal.integral, (c.isDigit || c == '.') = true := by
    intro c hc
    rw [literal.isDigit c (List.mem_append_left _ hc), Bool.true_or]
  have hFraction : ∀ c ∈ literal.fractionText, (c.isDigit || c == '.') = true := by
    have hDigits : ∀ c ∈ literal.fraction.getD [], c.isDigit = true := fun c hc =>
      literal.isDigit c (List.mem_append_right _ hc)
    rw [NumberLiteral.fractionText]
    cases hPoint : literal.fraction with
    | none => exact List.forall_mem_nil _
    | some digits =>
      rw [hPoint] at hDigits
      refine List.forall_mem_cons.mpr ⟨by decide, fun c hc => ?_⟩
      rw [hDigits c hc, Bool.true_or]
  have hBody : (literal.text ++ rest).dropWhile (fun c => c.isDigit || c == '.') = literal.exponentText ++ rest := by
    rw [literal_append, List.dropWhile_append_of_pos hIntegral, List.dropWhile_append_of_pos hFraction]
    apply dropWhile_body_of_head
    intro c hc
    obtain ⟨hDigit, hPoint, -⟩ := exponent_head literal.exponent hRest c hc
    exact ⟨hDigit, hPoint⟩
  rw [afterNumber, hBody, NumberLiteral.exponentText]
  cases literal.exponent with
  | none =>
    cases rest with
    | nil => rfl
    | cons c rest =>
      obtain ⟨-, -, hMark, -⟩ := hRest c rfl
      have hOther : ¬ (c == 'e' || c == 'E') = true := by
        rw [Bool.or_eq_true, beq_iff_eq, beq_iff_eq]
        rintro (rfl | rfl) <;> exact hMark (by decide)
      exact if_neg hOther
  | some exponent =>
    have hMark : (exponent.marker == 'e' || exponent.marker == 'E') = true := by
      rw [Exponent.marker]
      split <;> decide
    have hDigits : (exponent.digits ++ rest).dropWhile Char.isDigit = rest :=
      dropWhile_digits exponent.isDigit hRest.not_digit
    rw [Option.map_some, Option.getD_some, Exponent.text, List.cons_append, List.append_assoc]
    dsimp only
    rw [if_pos hMark, Exponent.signText]
    cases exponent.sign with
    | none =>
      obtain ⟨d, digits, hText⟩ := List.exists_cons_of_ne_nil exponent.digits_ne
      have hd : d.isDigit = true := exponent.isDigit d (hText ▸ List.mem_cons_self)
      have hSign : ¬ (d == '+' || d == '-') = true := by
        rw [Bool.or_eq_true, beq_iff_eq, beq_iff_eq]
        exact not_or.mpr ⟨ne_of_digit hd (by decide), ne_of_digit hd (by decide)⟩
      rw [hText] at hDigits ⊢
      dsimp only [List.nil_append, List.cons_append]
      rw [if_neg hSign]
      exact hDigits
    | some minus => cases minus <;> exact hDigits

theorem numberAt_literal (literal : NumberLiteral) (hRest : Ends rest) :
    numberAt (literal.text ++ rest) = literal.double := by
  rw [numberAt, strtod_literal literal hRest]
  rfl

end Numbers

theorem Constant.identifier (constant : Constant) : ∃ name : Identifier, name.text = constant.text := by
  cases constant with
  | null => exact ⟨⟨'n', "ull".toList, by decide, List.all_eq_true.mp rfl⟩, rfl⟩
  | true => exact ⟨⟨'t', "rue".toList, by decide, List.all_eq_true.mp rfl⟩, rfl⟩
  | false => exact ⟨⟨'f', "alse".toList, by decide, List.all_eq_true.mp rfl⟩, rfl⟩

theorem ExpressionFunction.identifier (function : ExpressionFunction) :
    ∃ name : InputName, name.text = function.text ∧ ExpressionParser.isProbe name.text = false := by
  cases function with
  | abs =>
    exact ⟨⟨⟨'a', "bs".toList, by decide, List.all_eq_true.mp rfl⟩, fun c => by cases c <;> decide⟩, rfl, by decide⟩
  | min =>
    exact ⟨⟨⟨'m', "in".toList, by decide, List.all_eq_true.mp rfl⟩, fun c => by cases c <;> decide⟩, rfl, by decide⟩
  | max =>
    exact ⟨⟨⟨'m', "ax".toList, by decide, List.all_eq_true.mp rfl⟩, fun c => by cases c <;> decide⟩, rfl, by decide⟩
  | clamp =>
    exact ⟨⟨⟨'c', "lamp".toList, by decide, List.all_eq_true.mp rfl⟩, fun c => by cases c <;> decide⟩, rfl, by decide⟩
  | round =>
    exact ⟨⟨⟨'r', "ound".toList, by decide, List.all_eq_true.mp rfl⟩, fun c => by cases c <;> decide⟩, rfl, by decide⟩
  | «if» =>
    exact ⟨⟨⟨'i', "f".toList, by decide, List.all_eq_true.mp rfl⟩, fun c => by cases c <;> decide⟩, rfl, by decide⟩

theorem Probe.identifier (question : Probe) :
    ∃ name : InputName, name.text = question.text ∧ ExpressionParser.isProbe name.text = true := by
  cases question with
  | valid =>
    exact ⟨⟨⟨'v', "alid".toList, by decide, List.all_eq_true.mp rfl⟩, fun c => by cases c <;> decide⟩, rfl, by decide⟩
  | stale =>
    exact ⟨⟨⟨'s', "tale".toList, by decide, List.all_eq_true.mp rfl⟩, fun c => by cases c <;> decide⟩, rfl, by decide⟩
  | quality =>
    exact ⟨⟨⟨'q', "uality".toList, by decide, List.all_eq_true.mp rfl⟩, fun c => by cases c <;> decide⟩, rfl, by decide⟩

theorem Identifier.skipWhitespace_text (name : Identifier) (rest : List Char) :
    skipWhitespace (name.text ++ rest) = name.text ++ rest :=
  skipWhitespace_cons (not_space_of_identifierPart (identifierPart_iff.mpr (.inl name.isStart))) _

def StartsOperand (c : Char) : Prop := isIdentifierPart c = true ∨ c ∈ ['(', '.', '!', '-']

theorem StartsOperand.ne {c d : Char} (h : StartsOperand c) (hPart : isIdentifierPart d = false)
    (hOther : d ∉ ['(', '.', '!', '-']) : c ≠ d := by
  rintro rfl
  obtain h | h := h
  · rw [h] at hPart
    cases hPart
  · exact hOther h

theorem Identifier.starts (name : Identifier) (rest : List Char) :
    ∃ c tail, skipWhitespace (name.text ++ rest) = c :: tail ∧ StartsOperand c := by
  rw [name.skipWhitespace_text]
  exact ⟨name.first, name.others ++ rest, rfl, .inl (identifierPart_iff.mpr (.inl name.isStart))⟩

theorem Renders.starts {rank : Option Level} {e : Expr} {text : List Char} (h : Renders rank e text) :
    ∃ c tail, skipWhitespace text = c :: tail ∧ StartsOperand c := by
  induction h with
  | before hc _ ih =>
    rw [skipWhitespace_space hc]
    exact ih
  | @after rank e text c hc _ ih =>
    obtain ⟨d, tail, hSkip, hStarts⟩ := ih
    exact ⟨d, tail ++ [c], skipWhitespace_append hSkip [c], hStarts⟩
  | operand _ ih => exact ih
  | @binary level op l r left right _ _ _ ih _ =>
    obtain ⟨d, tail, hSkip, hStarts⟩ := ih
    exact ⟨d, tail ++ (op.token ++ right), skipWhitespace_append hSkip _, hStarts⟩
  | @unary op e text _ _ =>
    cases op with
    | not => exact ⟨'!', text, skipWhitespace_cons (by decide) text, .inr (by decide)⟩
    | neg => exact ⟨'-', text, skipWhitespace_cons (by decide) text, .inr (by decide)⟩
  | @parentheses e text _ _ => exact ⟨'(', text ++ [')'], skipWhitespace_cons (by decide) _, .inr (by decide)⟩
  | number literal =>
    have hEnds : Ends [] := fun c hc => by cases hc
    obtain ⟨d, tail, hText, hHead, -⟩ := literal_head literal hEnds
    rw [List.append_nil] at hText
    rw [hText]
    obtain hDigit | rfl := hHead
    · exact ⟨d, tail, skipWhitespace_cons (not_space_of_digit hDigit) tail, .inl (identifierPart_iff.mpr (.inr hDigit))⟩
    · exact ⟨'.', tail, skipWhitespace_cons (by decide) tail, .inr (by decide)⟩
  | constant constant =>
    obtain ⟨name, hName⟩ := constant.identifier
    rw [← hName, ← List.append_nil name.text]
    exact name.starts []
  | input name =>
    rw [← List.append_nil name.text]
    exact name.starts []
  | @call function args texts gap _ _ _ =>
    obtain ⟨name, hName, -⟩ := function.identifier
    rw [← hName]
    exact name.starts _
  | @probe question input gap before after _ _ _ =>
    obtain ⟨name, hName, -⟩ := question.identifier
    rw [← hName]
    exact name.starts _

theorem Renders.head_ne {rank : Option Level} {e : Expr} {text : List Char} (h : Renders rank e text)
    (rest : List Char) : ∀ c ∈ (text ++ rest).head?, c ≠ '=' := by
  obtain ⟨d, tail, hSkip, hStarts⟩ := h.starts
  rintro c hc rfl
  have hSkipRest := skipWhitespace_append hSkip rest
  cases hText : text ++ rest with
  | nil =>
    rw [hText] at hc
    cases hc
  | cons e more =>
    rw [hText] at hc hSkipRest
    obtain rfl : e = '=' := Option.some.inj hc
    rw [skipWhitespace_cons (by decide)] at hSkipRest
    exact hStarts.ne (by decide) (by decide) (List.cons.inj hSkipRest).1.symm

def Level.rank : Level → Nat
  | .logicalOr => 0
  | .logicalAnd => 1
  | .equality => 2
  | .comparison => 3
  | .addSub => 4
  | .mulDiv => 5

def rankOf : Option Level → Nat
  | some level => level.rank
  | none => 6

theorem rankOf_next (level : Level) : rankOf level.next = level.rank + 1 := by
  cases level <;> rfl

def levelOfHead (c : Char) : Level :=
  if c = '|' then .logicalOr
  else if c = '&' then .logicalAnd
  else if c = '=' ∨ c = '!' then .equality
  else if c = '>' ∨ c = '<' then .comparison
  else if c = '+' ∨ c = '-' then .addSub
  else .mulDiv

theorem levelOfHead_operator {level : Level} {op : BinaryOperator} (h : op ∈ level.operators) :
    ∃ c tail, op.token = c :: tail ∧ levelOfHead c = level ∧ c ∉ ['(', ')', ','] ∧ isSpace c = false := by
  revert h
  cases level with
  | logicalOr =>
    intro h
    obtain rfl := List.mem_singleton.mp h
    exact ⟨_, _, rfl, by decide⟩
  | logicalAnd =>
    intro h
    obtain rfl := List.mem_singleton.mp h
    exact ⟨_, _, rfl, by decide⟩
  | equality =>
    rw [Level.operators, List.mem_pair]
    rintro (rfl | rfl) <;> exact ⟨_, _, rfl, by decide⟩
  | comparison =>
    rw [Level.operators, List.mem_cons, List.mem_cons, List.mem_pair]
    rintro (rfl | rfl | rfl | rfl) <;> exact ⟨_, _, rfl, by decide⟩
  | addSub =>
    rw [Level.operators, List.mem_pair]
    rintro (rfl | rfl) <;> exact ⟨_, _, rfl, by decide⟩
  | mulDiv =>
    rw [Level.operators, List.mem_cons, List.mem_pair]
    rintro (rfl | rfl | rfl) <;> exact ⟨_, _, rfl, by decide⟩

theorem Level.match_skipWhitespace (level : Level) (text : List Char) :
    level.match (skipWhitespace text) = level.match text := by
  rw [Level.match, Level.match]
  simp only [matchToken_skipWhitespace]

theorem Level.match_operator {level : Level} {op : BinaryOperator} (h : op ∈ level.operators) {text : List Char}
    (hText : ∀ c ∈ text.head?, c ≠ '=') : level.match (op.token ++ text) = some (op, text) := by
  obtain ⟨c, tail, hToken, -, -, hSpace⟩ := levelOfHead_operator h
  have hFound := matchToken_append hToken hSpace text
  have hSkip : skipWhitespace (op.token ++ text) = op.token ++ text := by
    rw [hToken]
    exact skipWhitespace_cons hSpace _
  have hMatch (before after : List BinaryOperator) (hSplit : level.operators = before ++ op :: after)
      (hBefore : ∀ other ∈ before, other.token.isPrefixOf (op.token ++ text) = false) :
      level.match (op.token ++ text) = some (op, text) := by
    rw [Level.match, List.findSome?_eq_some_iff]
    refine ⟨before, op, after, hSplit, by rw [hFound]; rfl, fun other hMem => ?_⟩
    rw [matchToken, hSkip, hBefore other hMem, if_neg Bool.false_ne_true]
    rfl
  have hEqual : ['='].isPrefixOf text = false := by
    cases text with
    | nil => rfl
    | cons d text =>
      rw [List.isPrefixOf, beq_false_of_ne (hText d rfl).symm, Bool.false_and]
  cases level with
  | logicalOr =>
    obtain rfl := List.mem_singleton.mp h
    exact hMatch [] [] rfl (List.forall_mem_nil _)
  | logicalAnd =>
    obtain rfl := List.mem_singleton.mp h
    exact hMatch [] [] rfl (List.forall_mem_nil _)
  | equality =>
    obtain rfl | rfl := List.mem_pair.mp h
    · exact hMatch [] [.ne] rfl (List.forall_mem_nil _)
    · exact hMatch [.eq] [] rfl (List.forall_mem_singleton.mpr rfl)
  | comparison =>
    rw [Level.operators, List.mem_cons, List.mem_cons, List.mem_pair] at h
    obtain rfl | rfl | rfl | rfl := h
    · exact hMatch [] [.le, .gt, .lt] rfl (List.forall_mem_nil _)
    · exact hMatch [.ge] [.gt, .lt] rfl (List.forall_mem_singleton.mpr rfl)
    · exact hMatch [.ge, .le] [.lt] rfl (List.forall_mem_cons.mpr ⟨hEqual, List.forall_mem_singleton.mpr rfl⟩)
    · refine hMatch [.ge, .le, .gt] [] rfl (List.forall_mem_cons.mpr ⟨rfl, List.forall_mem_cons.mpr ⟨hEqual, ?_⟩⟩)
      exact List.forall_mem_singleton.mpr rfl
  | addSub =>
    obtain rfl | rfl := List.mem_pair.mp h
    · exact hMatch [] [.sub] rfl (List.forall_mem_nil _)
    · exact hMatch [.add] [] rfl (List.forall_mem_singleton.mpr rfl)
  | mulDiv =>
    rw [Level.operators, List.mem_cons, List.mem_pair] at h
    obtain rfl | rfl | rfl := h
    · exact hMatch [] [.div, .mod] rfl (List.forall_mem_nil _)
    · exact hMatch [.mul] [.mod] rfl (List.forall_mem_singleton.mpr rfl)
    · exact hMatch [.mul, .div] [] rfl (List.forall_mem_cons.mpr ⟨rfl, List.forall_mem_singleton.mpr rfl⟩)

section Symbols

variable {rest : List Char}

def IsSymbol (c : Char) : Prop := isIdentifierPart c = false ∧ c ≠ '.'

instance (c : Char) : Decidable (IsSymbol c) := inferInstanceAs (Decidable (_ ∧ _))

theorem isSymbol_of_space {c : Char} (hc : isSpace c = true) : IsSymbol c := by
  constructor
  · rw [← Bool.not_eq_true]
    intro hPart
    rw [not_space_of_identifierPart hPart] at hc
    cases hc
  · rintro rfl
    cases hc

theorem BinaryOperator.isSymbol (op : BinaryOperator) : ∀ c ∈ op.token, IsSymbol c := by
  have hAll : ∀ c ∈ ['|', '&', '=', '!', '>', '<', '+', '-', '*', '/', '%'], IsSymbol c := by
    intro c hc
    constructor
    · exact Bool.eq_false_of_not_eq_true (List.any_eq_false.mp rfl c hc)
    · rintro rfl
      revert hc
      decide
  have hSubset : op.token ⊆ ['|', '&', '=', '!', '>', '<', '+', '-', '*', '/', '%'] := by
    cases op <;> decide
  exact fun c hc => hAll c (hSubset hc)

def Apart (rest : List Char) : Prop := ∀ c ∈ rest.head?, IsSymbol c

theorem Apart.cons {c : Char} (hc : IsSymbol c) (rest : List Char) : Apart (c :: rest) := by
  intro d hd
  obtain rfl : c = d := Option.some.inj hd
  exact hc

theorem Apart.ends (h : Apart rest) : Ends rest := by
  intro c hc
  obtain ⟨hPart, hPoint⟩ := h c hc
  have hNot := hPart
  rw [← Bool.not_eq_true, identifierPart_iff, not_or] at hNot
  rw [toLower_of_not_part hPart]
  refine ⟨Bool.eq_false_iff.mpr hNot.2, hPoint, ?_, ?_⟩
  · rintro rfl
    cases hPart
  · rintro rfl
    cases hPart

theorem Apart.operator (op : BinaryOperator) (rest : List Char) : Apart (op.token ++ rest) := by
  intro c hc
  refine op.isSymbol c ?_
  cases op <;> exact Option.some.inj hc ▸ List.mem_cons_self

theorem Apart.blank {gap : List Char} (hGap : ∀ c ∈ gap, isSpace c = true) {c : Char} (hc : IsSymbol c)
    (rest : List Char) : Apart (gap ++ c :: rest) := by
  cases gap with
  | nil => exact Apart.cons hc rest
  | cons d gap => exact Apart.cons (isSymbol_of_space (hGap d List.mem_cons_self)) _

theorem Identifier.dropWhile_others (name : Identifier) (hRest : Apart rest) :
    (name.others ++ rest).dropWhile isIdentifierPart = rest := by
  rw [List.dropWhile_append_of_pos name.isPart]
  cases rest with
  | nil => rfl
  | cons c rest => rw [List.dropWhile_cons_of_neg (by rw [(hRest c rfl).1]; exact Bool.false_ne_true)]

theorem Identifier.takeWhile_others (name : Identifier) (hRest : Apart rest) :
    (name.others ++ rest).takeWhile isIdentifierPart = name.others := by
  rw [List.takeWhile_append_of_pos name.isPart]
  cases rest with
  | nil => rw [List.takeWhile_nil, List.append_nil]
  | cons c rest =>
    rw [List.takeWhile_cons_of_neg (by rw [(hRest c rfl).1]; exact Bool.false_ne_true), List.append_nil]

theorem isSymbol_open : IsSymbol '(' := by decide

theorem isSymbol_close : IsSymbol ')' := by decide

theorem isSymbol_comma : IsSymbol ',' := by decide

end Symbols

structure Follows (rank : Option Level) (rest : List Char) : Prop where
  apart : Apart rest
  stops : ∀ c ∈ (skipWhitespace rest).head?, c ≠ '(' ∧
    ∀ level : Level, rankOf rank ≤ level.rank → ∀ op ∈ level.operators, op.token.head? ≠ some c

namespace Follows

variable {rank : Option Level} {rest : List Char}

theorem next {level : Level} (h : Follows (some level) rest) : Follows level.next rest where
  apart := h.apart
  stops c hc := by
    obtain ⟨hOpen, hStops⟩ := h.stops c hc
    refine ⟨hOpen, fun other hRank => hStops other ?_⟩
    rw [rankOf_next] at hRank
    exact Nat.le_of_succ_le hRank

theorem space {c : Char} (h : Follows rank rest) (hc : isSpace c = true) : Follows rank (c :: rest) where
  apart := Apart.cons (isSymbol_of_space hc) rest
  stops := by
    rw [skipWhitespace_space hc]
    exact h.stops

theorem nil : Follows rank [] := ⟨fun c hc => (by cases hc), fun c hc => (by cases hc)⟩

theorem close {c : Char} (hc : c = ')' ∨ c = ',') (rest : List Char) : Follows rank (c :: rest) where
  apart := by
    refine Apart.cons ?_ rest
    obtain rfl | rfl := hc <;> decide
  stops d hd := by
    have hSpace : isSpace c = false := by obtain rfl | rfl := hc <;> decide
    rw [skipWhitespace_cons hSpace] at hd
    obtain rfl : c = d := Option.some.inj hd
    refine ⟨by obtain rfl | rfl := hc <;> decide, fun level _ op hOp hHead => ?_⟩
    obtain ⟨e, tail, hToken, -, hNot, -⟩ := levelOfHead_operator hOp
    rw [hToken, List.head?_cons, Option.some.injEq] at hHead
    subst hHead
    obtain rfl | rfl := hc <;> exact hNot (by decide)

theorem operator {level : Level} {op : BinaryOperator} (h : op ∈ level.operators) (rest : List Char) :
    Follows level.next (op.token ++ rest) := by
  obtain ⟨c, tail, hToken, hLevel, hNot, hSpace⟩ := levelOfHead_operator h
  refine ⟨Apart.operator op rest, ?_⟩
  rw [hToken, List.cons_append]
  intro d hd
  rw [skipWhitespace_cons hSpace] at hd
  obtain rfl : c = d := Option.some.inj hd
  constructor
  · rintro rfl
    exact hNot (by decide)
  · intro other hRank otherOp hOther hHead
    obtain ⟨e, otherTail, hOtherToken, hOtherLevel, -⟩ := levelOfHead_operator hOther
    rw [hOtherToken, List.head?_cons, Option.some.injEq] at hHead
    subst hHead
    have hSame : level = other := hLevel.symm.trans hOtherLevel
    rw [rankOf_next, hSame] at hRank
    omega

theorem ends (h : Follows rank rest) : Ends rest := h.apart.ends

theorem match_none {level : Level} (h : Follows (some level) rest) : level.match rest = none := by
  rw [Level.match, List.findSome?_eq_none_iff]
  intro op hOp
  obtain ⟨c, tail, hToken, -⟩ := levelOfHead_operator hOp
  rw [Option.map_eq_none_iff]
  refine matchToken_none (fun d hd => (h.stops d hd).2 level le_rfl op hOp) ?_
  rw [hToken]
  exact List.cons_ne_nil c tail

end Follows

end EdgeGateway.Compute
