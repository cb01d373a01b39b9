import EdgeGateway.Compute.ExpressionValue
import EdgeGateway.Foundation.Fallible

/-! # Which texts the parser accepts -/

namespace EdgeGateway.Compute

open Fallible QuotedText Numerals DecimalNumbers

section Lexing

def numberToken (text : List Char) : List Char := text.take (text.length - (afterNumber text).length)

theorem afterNumber_suffix (text : List Char) : afterNumber text <:+ text := by
  have hBody := List.dropWhile_suffix (fun c => Char.isDigit c || c == '.') (l := text)
  refine List.IsSuffix.trans ?_ hBody
  rw [afterNumber]
  cases text.dropWhile fun c => Char.isDigit c || c == '.' with
  | nil => exact List.suffix_refl []
  | cons mark rest =>
    dsimp only
    split
    · refine List.IsSuffix.trans (List.dropWhile_suffix Char.isDigit) (List.IsSuffix.trans ?_ (List.suffix_cons mark rest))
      cases rest with
      | nil => exact List.suffix_refl []
      | cons sign digits =>
        dsimp only
        split
        · exact List.suffix_cons sign digits
        · exact List.suffix_refl _
    · exact List.suffix_refl _

theorem numberToken_append (text : List Char) : numberToken text ++ afterNumber text = text := by
  obtain ⟨token, hText⟩ := afterNumber_suffix text
  have hLength := congrArg List.length hText
  rw [List.length_append] at hLength
  have hToken : numberToken text = token := by
    rw [numberToken, ← hLength, Nat.add_sub_cancel]
    conv_lhs => rw [← hText]
    exact List.take_left
  rw [hToken, hText]

theorem length_afterNumber {c : Char} (hc : (c.isDigit || c == '.') = true) (text : List Char) :
    (afterNumber (c :: text)).length < (c :: text).length := by
  have hSuffix : afterNumber (c :: text) = afterNumber text := by
    rw [afterNumber, afterNumber, List.dropWhile_cons_of_pos (p := fun ch => Char.isDigit ch || ch == '.') hc]
  rw [hSuffix, List.length_cons]
  exact Nat.lt_succ_of_le (afterNumber_suffix text).length_le

theorem length_dropWhile {α : Type} (p : α → Bool) (l : List α) : (l.dropWhile p).length ≤ l.length :=
  (List.dropWhile_suffix p).length_le

def numberTokens : List Char → List (List Char)
  | [] => []
  | c :: text =>
    if isIdentifierStart c then numberTokens (text.dropWhile isIdentifierPart)
    else if c.isDigit || c == '.' then numberToken (c :: text) :: numberTokens (afterNumber (c :: text))
    else numberTokens text
termination_by text => text.length
decreasing_by
  · exact Nat.lt_succ_of_le (length_dropWhile isIdentifierPart text)
  · exact length_afterNumber ‹_› text
  · exact Nat.lt_succ_self text.length

def WellNumbered (text : List Char) : Prop := ∀ token ∈ numberTokens text, ∃ literal : NumberLiteral, literal.text = token

variable {text rest : List Char}

theorem numberTokens_symbol {c : Char} (hc : IsSymbol c) (text : List Char) :
    numberTokens (c :: text) = numberTokens text := by
  have hPart := hc.1
  rw [← Bool.not_eq_true, identifierPart_iff, not_or] at hPart
  rw [numberTokens, if_neg hPart.1, if_neg]
  rw [Bool.or_eq_true, beq_iff_eq]
  exact not_or.mpr ⟨hPart.2, hc.2⟩

theorem numberTokens_symbols {token : List Char} (hToken : ∀ c ∈ token, IsSymbol c) (text : List Char) :
    numberTokens (token ++ text) = numberTokens text := by
  induction token with
  | nil => rfl
  | cons c token ih =>
    obtain ⟨hc, hToken⟩ := List.forall_mem_cons.mp hToken
    rw [List.cons_append, numberTokens_symbol hc, ih hToken]

theorem numberTokens_blank {gap : List Char} (hGap : ∀ c ∈ gap, isSpace c = true) (text : List Char) :
    numberTokens (gap ++ text) = numberTokens text :=
  numberTokens_symbols (fun c hc => isSymbol_of_space (hGap c hc)) text

theorem numberTokens_skipWhitespace (text : List Char) : numberTokens (skipWhitespace text) = numberTokens text := by
  obtain ⟨gap, hText, hGap⟩ := blank_skipWhitespace text
  conv_rhs => rw [hText, numberTokens_blank hGap]

theorem numberTokens_name {c : Char} (hc : isIdentifierStart c = true) (text : List Char) :
    numberTokens (c :: text) = numberTokens (text.dropWhile isIdentifierPart) := by
  rw [numberTokens, if_pos hc]

theorem not_start_of_number {c : Char} (hc : (c.isDigit || c == '.') = true) : isIdentifierStart c = false := by
  rw [Bool.or_eq_true, beq_iff_eq] at hc
  obtain hDigit | rfl := hc
  · exact not_start_of_digit hDigit
  · rfl

theorem numberTokens_number {c : Char} (hc : (c.isDigit || c == '.') = true) (text : List Char) :
    numberTokens (c :: text) = numberToken (c :: text) :: numberTokens (afterNumber (c :: text)) := by
  rw [numberTokens, if_neg (Bool.eq_false_iff.mp (not_start_of_number hc)), if_pos hc]

theorem numberTokens_match {token : List Char} (hToken : ∀ c ∈ token, IsSymbol c)
    (h : matchToken token text = some rest) : numberTokens text = numberTokens rest := by
  obtain ⟨gap, rfl, hGap⟩ := matchToken_some h
  rw [numberTokens_blank hGap, numberTokens_symbols hToken]

end Lexing

section Renderings

variable {rest : List Char}

theorem WellNumbered.cons {c : Char} (hc : IsSymbol c) (h : WellNumbered rest) : WellNumbered (c :: rest) := by
  rw [WellNumbered, numberTokens_symbol hc]
  exact h

theorem WellNumbered.blank {gap : List Char} (hGap : ∀ c ∈ gap, isSpace c = true) (h : WellNumbered rest) :
    WellNumbered (gap ++ rest) := by
  rw [WellNumbered, numberTokens_blank hGap]
  exact h

theorem WellNumbered.name (name : Identifier) (hApart : Apart rest) (h : WellNumbered rest) :
    WellNumbered (name.text ++ rest) := by
  rw [WellNumbered, Identifier.text, List.cons_append, numberTokens_name name.isStart,
    name.dropWhile_others hApart]
  exact h

theorem numberToken_literal (literal : NumberLiteral) (hRest : Ends rest) :
    numberToken (literal.text ++ rest) = literal.text := by
  have hSplit := numberToken_append (literal.text ++ rest)
  rw [afterNumber_literal literal hRest] at hSplit
  exact List.append_cancel_right hSplit

theorem WellNumbered.number (literal : NumberLiteral) (hApart : Apart rest) (h : WellNumbered rest) :
    WellNumbered (literal.text ++ rest) := by
  obtain ⟨d, text, hText, hHead, -⟩ := literal_head literal hApart.ends
  have hNumber : (d.isDigit || d == '.') = true := by
    rw [Bool.or_eq_true, beq_iff_eq]
    exact hHead
  rw [WellNumbered, hText, numberTokens_number hNumber, ← hText, numberToken_literal literal hApart.ends,
    afterNumber_literal literal hApart.ends]
  exact List.forall_mem_cons.mpr ⟨⟨literal, rfl⟩, h⟩

def Numbered (text : List Char) : Prop := ∀ rest, Apart rest → WellNumbered rest → WellNumbered (text ++ rest)

theorem Numbered.texts {texts : List (List Char)} (h : ∀ text ∈ texts, Numbered text) (hRest : WellNumbered rest) :
    WellNumbered ([','].intercalate texts ++ ')' :: rest) := by
  have hClose : WellNumbered (')' :: rest) := hRest.cons isSymbol_close
  induction texts with
  | nil => exact hClose
  | cons text texts ih =>
    obtain ⟨hText, hOthers⟩ := List.forall_mem_cons.mp h
    cases texts with
    | nil =>
      rw [List.intercalate_singleton]
      exact hText _ (Apart.cons isSymbol_close rest) hClose
    | cons next texts =>
      rw [List.intercalate_cons_cons, List.append_assoc, List.append_assoc, List.singleton_append]
      exact hText _ (Apart.cons isSymbol_comma _) ((ih hOthers).cons isSymbol_comma)

theorem numbered_of_renders {rank : Option Level} {e : Expr} {text : List Char} (h : Renders rank e text) :
    Numbered text := by
  induction h with
  | before hc _ ih =>
    intro rest hApart hRest
    exact (ih rest hApart hRest).cons (isSymbol_of_space hc)
  | after hc _ ih =>
    intro rest _ hRest
    rw [List.append_assoc, List.singleton_append]
    exact ih _ (Apart.cons (isSymbol_of_space hc) rest) (hRest.cons (isSymbol_of_space hc))
  | operand _ ih => exact ih
  | @binary level op l r left right _ _ _ ihLeft ihRight =>
    intro rest hApart hRest
    rw [List.append_assoc, List.append_assoc]
    refine ihLeft _ (Apart.operator op _) ?_
    rw [WellNumbered, numberTokens_symbols op.isSymbol]
    exact ihRight rest hApart hRest
  | @unary op e text _ ih =>
    intro rest hApart hRest
    have hToken : IsSymbol op.token := by cases op <;> decide
    exact (ih rest hApart hRest).cons hToken
  | parentheses _ ih =>
    intro rest _ hRest
    rw [List.cons_append, List.append_assoc, List.singleton_append]
    exact (ih _ (Apart.cons isSymbol_close rest) (hRest.cons isSymbol_close)).cons isSymbol_open
  | number literal => exact fun rest hApart hRest => hRest.number literal hApart
  | constant constant =>
    obtain ⟨name, hName⟩ := constant.identifier
    rw [← hName]
    exact fun rest hApart hRest => hRest.name name hApart
  | input name => exact fun rest hApart hRest => hRest.name name.toIdentifier hApart
  | @call function args texts gap hGap _ ih =>
    obtain ⟨name, hName, -⟩ := function.identifier
    rw [← hName]
    intro rest _ hRest
    rw [List.append_assoc, List.append_assoc, List.cons_append, List.append_assoc, List.singleton_append]
    have hTexts : ∀ text ∈ List.ofFn texts, Numbered text := by
      intro text hText
      obtain ⟨i, rfl⟩ := List.mem_ofFn.mp hText
      exact ih i
    have hArgs : WellNumbered ('(' :: ([','].intercalate (List.ofFn texts) ++ ')' :: rest)) :=
      (Numbered.texts hTexts hRest).cons isSymbol_open
    exact (hArgs.blank hGap).name name.toIdentifier (Apart.blank hGap isSymbol_open _)
  | @probe question input gap before after hGap hBefore hAfter =>
    obtain ⟨name, hName, -⟩ := question.identifier
    rw [← hName]
    intro rest _ hRest
    rw [List.append_assoc, List.append_assoc, List.cons_append, List.append_assoc, List.append_assoc, List.append_assoc,
      List.singleton_append]
    have hInput : WellNumbered (input.text ++ (after ++ ')' :: rest)) :=
      ((hRest.cons isSymbol_close).blank hAfter).name input (Apart.blank hAfter isSymbol_close rest)
    have hInner : WellNumbered ('(' :: (before ++ (input.text ++ (after ++ ')' :: rest)))) :=
      (hInput.blank hBefore).cons isSymbol_open
    exact (hInner.blank hGap).name name.toIdentifier (Apart.blank hGap isSymbol_open _)

theorem wellNumbered_of_renders {rank : Option Level} {e : Expr} {text : List Char} (h : Renders rank e text) :
    WellNumbered text := by
  have hEmpty : WellNumbered [] := by
    rw [WellNumbered, numberTokens]
    exact List.forall_mem_nil _
  have hText := numbered_of_renders h [] (fun c hc => (by cases hc)) hEmpty
  rw [List.append_nil] at hText
  exact hText

end Renderings

section Blanks

variable {rank : Option Level} {e : Expr} {text gap : List Char}

theorem Renders.blankBefore (hGap : ∀ c ∈ gap, isSpace c = true) (h : Renders rank e text) :
    Renders rank e (gap ++ text) := by
  induction gap with
  | nil => exact h
  | cons c gap ih =>
    obtain ⟨hc, hGap⟩ := List.forall_mem_cons.mp hGap
    exact Renders.before hc (ih hGap)

theorem Renders.blankAfter (hGap : ∀ c ∈ gap, isSpace c = true) (h : Renders rank e text) :
    Renders rank e (text ++ gap) := by
  induction gap generalizing text with
  | nil =>
    rw [List.append_nil]
    exact h
  | cons c gap ih =>
    obtain ⟨hc, hGap⟩ := List.forall_mem_cons.mp hGap
    have hMore := ih hGap (Renders.after hc h)
    rw [List.append_assoc, List.singleton_append] at hMore
    exact hMore

end Blanks

namespace ExpressionParser

variable (self : ExpressionParser)

/-- What was read is a rendering of the value, unless what follows would be read with a number. -/
def Reads (rank : Option Level) (text : List Char) (value : EvalValue) (rest : List Char) : Prop :=
  WellNumbered text → WellNumbered rest ∧
    (Ends (skipWhitespace rest) →
      ∃ e read, text = read ++ rest ∧ Renders rank e read ∧ e.value self.doubles self.inputs = value)

theorem ends_of_skipWhitespace {rest : List Char} (h : Ends (skipWhitespace rest)) : Ends rest := by
  cases rest with
  | nil => exact h
  | cons c rest =>
    cases hc : isSpace c with
    | true => exact (Apart.cons (isSymbol_of_space hc) rest).ends
    | false =>
      rw [skipWhitespace_cons hc] at h
      exact h

theorem Level.match_some {level : Level} {text rest : List Char} {op : BinaryOperator}
    (h : level.match text = some (op, rest)) : op ∈ level.operators ∧ matchToken op.token text = some rest := by
  rw [Level.match] at h
  obtain ⟨other, hMem, hOther⟩ := List.exists_of_findSome?_eq_some h
  obtain ⟨more, hMore, hEq⟩ := Option.map_eq_some_iff.mp hOther
  obtain ⟨rfl, rfl⟩ := Prod.mk.inj hEq
  exact ⟨hMem, hMore⟩

section Steps

variable {self} {level : Level} {rank : Option Level} {text rest : List Char} {value : EvalValue}

theorem Reads.operand (h : self.Reads level.next text value rest) : self.Reads (some level) text value rest := by
  intro hText
  obtain ⟨hRest, hRead⟩ := h hText
  refine ⟨hRest, fun hEnds => ?_⟩
  obtain ⟨e, read, hSplit, hRenders, hValue⟩ := hRead hEnds
  exact ⟨e, read, hSplit, hRenders.operand, hValue⟩

theorem Reads.blankAfter (h : self.Reads rank text value rest) : self.Reads rank text value (skipWhitespace rest) := by
  intro hText
  obtain ⟨hRest, hRead⟩ := h hText
  constructor
  · rw [WellNumbered, numberTokens_skipWhitespace]
    exact hRest
  · intro hEnds
    rw [skipWhitespace_idempotent] at hEnds
    obtain ⟨e, read, hSplit, hRenders, hValue⟩ := hRead hEnds
    obtain ⟨gap, hGapSplit, hGap⟩ := blank_skipWhitespace rest
    refine ⟨e, read ++ gap, ?_, hRenders.blankAfter hGap, hValue⟩
    rw [List.append_assoc, ← hGapSplit, hSplit]

theorem Reads.blankBefore (h : self.Reads rank (skipWhitespace text) value rest) : self.Reads rank text value rest := by
  intro hText
  rw [WellNumbered, ← numberTokens_skipWhitespace] at hText
  obtain ⟨hRest, hRead⟩ := h hText
  refine ⟨hRest, fun hEnds => ?_⟩
  obtain ⟨e, read, hSplit, hRenders, hValue⟩ := hRead hEnds
  obtain ⟨gap, hGapSplit, hGap⟩ := blank_skipWhitespace text
  refine ⟨e, gap ++ read, ?_, hRenders.blankBefore hGap, hValue⟩
  rw [List.append_assoc, ← hSplit]
  exact hGapSplit

theorem Reads.binary {op : BinaryOperator} {before : List Char} {left right : EvalValue} {more : List Char}
    (hOp : level.match text = some (op, more)) (hLeft : self.Reads (some level) before left text)
    (hRight : self.Reads level.next more right rest) :
    self.Reads (some level) before (self.doubles.combine op left right) rest := by
  intro hBefore
  obtain ⟨hMem, hToken⟩ := Level.match_some hOp
  obtain ⟨hText, hReadLeft⟩ := hLeft hBefore
  rw [WellNumbered, numberTokens_match op.isSymbol hToken] at hText
  obtain ⟨hRest, hReadRight⟩ := hRight hText
  refine ⟨hRest, fun hEnds => ?_⟩
  obtain ⟨gap, rfl, hGap⟩ := matchToken_some hToken
  have hSkip : Ends (skipWhitespace (gap ++ (op.token ++ more))) := by
    obtain ⟨c, tail, hHead, -, -, hSpace⟩ := levelOfHead_operator hMem
    have hApart := (Apart.operator op more).ends
    rw [skipWhitespace_blank hGap]
    rw [hHead, List.cons_append] at hApart ⊢
    rw [skipWhitespace_cons hSpace]
    exact hApart
  obtain ⟨l, readLeft, rfl, hRendersLeft, rfl⟩ := hReadLeft hSkip
  obtain ⟨r, readRight, rfl, hRendersRight, rfl⟩ := hReadRight hEnds
  refine ⟨.binary op l r, readLeft ++ gap ++ (op.token ++ readRight), ?_,
    Renders.binary hMem (hRendersLeft.blankAfter hGap) hRendersRight, ?_⟩
  · rw [List.append_assoc, List.append_assoc, List.append_assoc]
  · rw [combine_eq, Expr.value]

theorem Reads.unary {op : UnaryOperator} {more : List Char} (hToken : matchToken [op.token] text = some more)
    (h : self.Reads none more value rest) : self.Reads none text (op.value self.doubles value) rest := by
  intro hText
  have hSymbol : ∀ c ∈ [op.token], IsSymbol c := List.forall_mem_singleton.mpr (by cases op <;> decide)
  rw [WellNumbered, numberTokens_match hSymbol hToken] at hText
  obtain ⟨hRest, hRead⟩ := h hText
  refine ⟨hRest, fun hEnds => ?_⟩
  obtain ⟨gap, rfl, hGap⟩ := matchToken_some hToken
  obtain ⟨e, read, rfl, hRenders, rfl⟩ := hRead hEnds
  refine ⟨.unary op e, gap ++ op.token :: read, ?_, hRenders.unary.blankBefore hGap, rfl⟩
  rw [List.append_assoc]
  rfl

theorem ends_of_match {c : Char} (hSymbol : IsSymbol c) (hSpace : isSpace c = false)
    (h : matchToken [c] text = some rest) : Ends (skipWhitespace text) := by
  obtain ⟨gap, rfl, hGap⟩ := matchToken_some h
  rw [skipWhitespace_blank hGap, List.singleton_append, skipWhitespace_cons hSpace]
  exact (Apart.cons hSymbol rest).ends

theorem Reads.parentheses {inner : List Char} (h : self.Reads (some .logicalOr) text value inner)
    (hClose : matchToken [')'] inner = some rest) : self.Reads none ('(' :: text) value rest := by
  intro hText
  rw [WellNumbered, numberTokens_symbol isSymbol_open] at hText
  obtain ⟨hInner, hRead⟩ := h hText
  have hSymbol : ∀ c ∈ [')'], IsSymbol c := List.forall_mem_singleton.mpr (by decide)
  rw [WellNumbered, numberTokens_match hSymbol hClose] at hInner
  refine ⟨hInner, fun _ => ?_⟩
  obtain ⟨e, read, hSplit, hRenders, hValue⟩ := hRead (ends_of_match isSymbol_close (by decide) hClose)
  obtain ⟨gap, rfl, hGap⟩ := matchToken_some hClose
  refine ⟨e, '(' :: (read ++ gap ++ [')']), ?_, Renders.parentheses (hRenders.blankAfter hGap), hValue⟩
  simp only [hSplit, List.cons_append, List.append_assoc]

theorem Reads.number {c : Char} (hc : (c.isDigit || c == '.') = true) (text : List Char) :
    self.Reads none (c :: text) (some (numberAt (c :: text))) (afterNumber (c :: text)) := by
  intro hText
  rw [WellNumbered, numberTokens_number hc] at hText
  obtain ⟨⟨literal, hLiteral⟩, hRest⟩ := List.forall_mem_cons.mp hText
  refine ⟨hRest, fun hEnds => ?_⟩
  have hSplit := (numberToken_append (c :: text)).symm
  rw [← hLiteral] at hSplit
  refine ⟨.number literal, literal.text, hSplit, Renders.number literal, ?_⟩
  have hValue := numberAt_literal literal (ends_of_skipWhitespace hEnds)
  rw [← hSplit] at hValue
  rw [hValue]
  rfl

theorem expect_ok {token : List Char} (h : self.expect token text = .ok rest) : matchToken token text = some rest := by
  rw [expect] at h
  cases hMatch : matchToken token text with
  | none =>
    rw [hMatch] at h
    cases h
  | some more =>
    rw [hMatch] at h
    cases h
    rfl

theorem parseIdentifier_ok {name : StdString} (h : self.parseIdentifier text = .ok (name, rest)) :
    ∃ identifier : Identifier, name = identifier.text ∧ skipWhitespace text = identifier.text ++ rest ∧
      numberTokens text = numberTokens rest := by
  rw [parseIdentifier] at h
  rw [← numberTokens_skipWhitespace]
  cases hSkip : skipWhitespace text with
  | nil =>
    rw [hSkip] at h
    cases h
  | cons first others =>
    rw [hSkip] at h
    dsimp only at h
    cases hStart : isIdentifierStart first with
    | false =>
      rw [hStart, if_neg Bool.false_ne_true] at h
      cases h
    | true =>
      rw [hStart, if_pos rfl] at h
      cases h
      refine ⟨⟨first, others.takeWhile isIdentifierPart, hStart, fun c hc => List.mem_takeWhile_imp hc⟩, rfl, ?_,
        numberTokens_name hStart others⟩
      rw [Identifier.text, List.cons_append, List.takeWhile_append_dropWhile]

def Called (self : ExpressionParser) (name : StdString) (text : List Char) (value : EvalValue) (rest : List Char) : Prop :=
  WellNumbered text → WellNumbered rest ∧
    ∃ e inner, text = inner ++ rest ∧ e.value self.doubles self.inputs = value ∧
      ∀ gap, (∀ c ∈ gap, isSpace c = true) → Renders none e (name ++ (gap ++ '(' :: inner))

theorem Reads.call {name : Identifier} {more : List Char} (hText : numberTokens text = numberTokens rest)
    (hName : text = name.text ++ rest) (hOpen : matchToken ['('] rest = some more) {left : List Char}
    (h : self.Called name.text more value left) : self.Reads none text value left := by
  intro hNumbered
  have hSymbol : ∀ c ∈ ['('], IsSymbol c := List.forall_mem_singleton.mpr (by decide)
  rw [WellNumbered, hText, numberTokens_match hSymbol hOpen] at hNumbered
  obtain ⟨hLeft, e, inner, rfl, hValue, hRenders⟩ := h hNumbered
  obtain ⟨gap, rfl, hGap⟩ := matchToken_some hOpen
  refine ⟨hLeft, fun _ => ⟨e, name.text ++ (gap ++ '(' :: inner), ?_, hRenders gap hGap, hValue⟩⟩
  simp only [hName, List.cons_append, List.append_assoc, List.nil_append]

theorem Called.probe {question : Probe} (h : self.parseProbe question.text text = .ok (value, rest)) :
    self.Called question.text text value rest := by
  intro hText
  obtain ⟨⟨name, inner⟩, hName, h⟩ := bind_ok_iff.mp h
  obtain ⟨left, hClose, h⟩ := bind_ok_iff.mp h
  cases h
  obtain ⟨identifier, rfl, hSplit, hTokens⟩ := parseIdentifier_ok hName
  have hMatch := expect_ok hClose
  have hSymbol : ∀ c ∈ [')'], IsSymbol c := List.forall_mem_singleton.mpr (by decide)
  rw [WellNumbered, hTokens, numberTokens_match hSymbol hMatch] at hText
  obtain ⟨after, rfl, hAfter⟩ := matchToken_some hMatch
  obtain ⟨before, hBeforeSplit, hBefore⟩ := blank_skipWhitespace text
  refine ⟨hText, .probe question identifier, before ++ (identifier.text ++ (after ++ [')'])), ?_, ?_,
    fun gap hGap => Renders.probe hGap hBefore hAfter⟩
  · rw [hSplit] at hBeforeSplit
    simp only [hBeforeSplit, List.append_assoc]
  · rw [Expr.value, probe_eq]

def ReadsArguments (self : ExpressionParser) (text : List Char) (values : List EvalValue) (rest : List Char) : Prop :=
  WellNumbered text → WellNumbered rest ∧
    ∃ args : List (Expr × List Char), (∀ arg ∈ args, Renders (some .logicalOr) arg.1 arg.2) ∧ args ≠ [] ∧
      text = [','].intercalate (args.map Prod.snd) ++ ')' :: rest ∧
      values = args.map fun arg => arg.1.value self.doubles self.inputs

theorem ReadsArguments.last {inner : List Char} (h : self.Reads (some .logicalOr) text value inner)
    (hClose : matchToken [')'] inner = some rest) : self.ReadsArguments text [value] rest := by
  intro hText
  obtain ⟨hInner, hRead⟩ := h hText
  have hSymbol : ∀ c ∈ [')'], IsSymbol c := List.forall_mem_singleton.mpr (by decide)
  rw [WellNumbered, numberTokens_match hSymbol hClose] at hInner
  obtain ⟨e, read, hSplit, hRenders, rfl⟩ := hRead (ends_of_match isSymbol_close (by decide) hClose)
  obtain ⟨gap, rfl, hGap⟩ := matchToken_some hClose
  refine ⟨hInner, [(e, read ++ gap)], List.forall_mem_singleton.mpr (hRenders.blankAfter hGap), List.cons_ne_nil _ _, ?_,
    rfl⟩
  rw [hSplit, List.map_singleton, List.intercalate_singleton, List.append_assoc]
  rfl

theorem ReadsArguments.next {inner more : List Char} {values : List EvalValue}
    (h : self.Reads (some .logicalOr) text value inner) (hComma : matchToken [','] inner = some more)
    (hMore : self.ReadsArguments more values rest) : self.ReadsArguments text (value :: values) rest := by
  intro hText
  obtain ⟨hInner, hRead⟩ := h hText
  have hSymbol : ∀ c ∈ [','], IsSymbol c := List.forall_mem_singleton.mpr (by decide)
  rw [WellNumbered, numberTokens_match hSymbol hComma] at hInner
  obtain ⟨e, read, hSplit, hRenders, rfl⟩ := hRead (ends_of_match isSymbol_comma (by decide) hComma)
  obtain ⟨gap, rfl, hGap⟩ := matchToken_some hComma
  obtain ⟨hRest, args, hArgs, hSome, rfl, rfl⟩ := hMore hInner
  refine ⟨hRest, (e, read ++ gap) :: args, List.forall_mem_cons.mpr ⟨hRenders.blankAfter hGap, hArgs⟩,
    List.cons_ne_nil _ _, ?_, rfl⟩
  rw [hSplit, List.map_cons, List.intercalate_cons_of_ne_nil (mt List.map_eq_nil_iff.mp hSome)]
  simp only [List.append_assoc]

theorem requireArgs_ok {name : StdString} {args : List EvalValue} {count : Nat} {result : EvalValue}
    (h : requireArgs name args count result = .ok value) : args.length = count := by
  rw [requireArgs] at h
  split at h
  · assumption
  · cases h

theorem applyFunction_ok {name : StdString} {args : List EvalValue} (h : self.applyFunction name args text = .ok value) :
    ∃ function : ExpressionFunction, function.text = name ∧ args.length = function.arity := by
  rw [applyFunction] at h
  dsimp only at h
  split at h
  · rename_i hName
    split at h
    · rename_i hCount
      exact ⟨.if, hName.symm, hCount⟩
    · cases h
  split at h
  · rename_i hName
    exact ⟨.abs, hName.symm, requireArgs_ok h⟩
  split at h
  · rename_i hName
    exact ⟨.min, hName.symm, requireArgs_ok h⟩
  split at h
  · rename_i hName
    exact ⟨.max, hName.symm, requireArgs_ok h⟩
  split at h
  · rename_i hName
    exact ⟨.clamp, hName.symm, requireArgs_ok h⟩
  split at h
  · rename_i hName
    exact ⟨.round, hName.symm, requireArgs_ok h⟩
  · cases h

theorem exists_ofFn {α : Type} {l : List α} {n : Nat} (h : l.length = n) : ∃ f : Fin n → α, l = List.ofFn f := by
  subst h
  exact ⟨fun i => l[i], List.ofFn_getElem.symm⟩

theorem Called.call {name : StdString} {values : List EvalValue} {left : List Char}
    (hArgs : self.ReadsArguments text values rest) (hApply : self.applyFunction name values left = .ok value) :
    self.Called name text value rest := by
  intro hText
  obtain ⟨hRest, args, hRenders, -, hSplit, rfl⟩ := hArgs hText
  obtain ⟨function, rfl, hCount⟩ := applyFunction_ok hApply
  rw [List.length_map] at hCount
  obtain ⟨pairs, rfl⟩ := exists_ofFn hCount
  rw [List.map_ofFn] at hSplit hApply
  have hValue := self.applyFunction_eq function (fun i => (pairs i).1.value self.doubles self.inputs) left
  refine ⟨hRest, .call function fun i => (pairs i).1, [','].intercalate (List.ofFn fun i => (pairs i).2) ++ [')'], ?_, ?_,
    fun gap hGap => Renders.call hGap fun i => hRenders _ (List.mem_ofFn.mpr ⟨i, rfl⟩)⟩
  · rw [hSplit, List.append_assoc]
    rfl
  · rw [Expr.value]
    exact Except.ok.inj (hValue.symm.trans hApply)

theorem Reads.identifier {first : Char} {others : List Char} {fuel : Nat} (hOpen : first ≠ '(')
    (hNumber : (first.isDigit || first == '.') = false) (hSpace : isSpace first = false)
    (hFunction : ∀ name text value rest, self.parseFunction fuel name text = .ok (value, rest) →
      self.Called name text value rest)
    (h : self.parsePrimary (fuel + 1) (first :: others) = .ok (value, rest)) :
    self.Reads none (first :: others) value rest := by
  rw [parsePrimary, skipWhitespace_cons hSpace] at h
  dsimp only at h
  rw [if_neg hOpen, if_neg (Bool.eq_false_iff.mp hNumber)] at h
  split at h
  · obtain ⟨⟨name, inner⟩, hName, h⟩ := bind_ok_iff.mp h
    obtain ⟨identifier, rfl, hSplit, hTokens⟩ := parseIdentifier_ok hName
    rw [skipWhitespace_cons hSpace] at hSplit
    have hConstant (constant : Constant) (hText : identifier.text = constant.text) :
        self.Reads none (first :: others) constant.value inner := by
      intro hNumbered
      rw [WellNumbered, hTokens] at hNumbered
      refine ⟨hNumbered, fun _ => ⟨.constant constant, constant.text, hText ▸ hSplit, Renders.constant constant, rfl⟩⟩
    dsimp only at h
    split at h
    · rename_i hText
      cases h
      exact hConstant .null hText
    rename_i hNull
    split at h
    · rename_i hText
      cases h
      exact hConstant .true hText
    rename_i hTrue
    split at h
    · rename_i hText
      cases h
      exact hConstant .false hText
    rename_i hFalse
    cases hCall : matchToken ['('] inner with
    | some more =>
      rw [hCall] at h
      exact Reads.call hTokens hSplit hCall (hFunction _ _ _ _ h)
    | none =>
      rw [hCall] at h
      cases h
      refine Reads.blankAfter fun hNumbered => ?_
      rw [WellNumbered, hTokens] at hNumbered
      have hInput : ∀ constant : Constant, identifier.text ≠ constant.text := by
        intro constant
        cases constant with
        | null => exact hNull
        | true => exact hTrue
        | false => exact hFalse
      refine ⟨hNumbered, fun _ => ⟨.input ⟨identifier, hInput⟩, identifier.text, hSplit, Renders.input _, ?_⟩⟩
      rw [variableValue_eq]
      rfl
  · cases h

theorem Called.parseFunction {name : StdString} {fuel : Nat}
    (hArguments : ∀ values text all rest, self.parseArguments fuel values text = .ok (all, rest) →
      ∃ more, all = values ++ more ∧ self.ReadsArguments text more rest)
    (h : self.parseFunction (fuel + 1) name text = .ok (value, rest)) : self.Called name text value rest := by
  rw [ExpressionParser.parseFunction] at h
  split at h
  · rename_i hProbe
    have hName : ∃ question : Probe, name = question.text := by
      rw [isProbe, decide_eq_true_eq] at hProbe
      obtain rfl | rfl | rfl := hProbe
      · exact ⟨.valid, rfl⟩
      · exact ⟨.stale, rfl⟩
      · exact ⟨.quality, rfl⟩
    obtain ⟨question, rfl⟩ := hName
    exact Called.probe h
  · cases hClose : matchToken [')'] text with
    | some more =>
      rw [hClose] at h
      obtain ⟨⟨args, inner⟩, hArgs, h⟩ := bind_ok_iff.mp h
      cases hArgs
      obtain ⟨result, hApply, -⟩ := bind_ok_iff.mp h
      obtain ⟨function, -, hCount⟩ := applyFunction_ok hApply
      cases function <;> cases hCount
    | none =>
      rw [hClose] at h
      obtain ⟨⟨args, inner⟩, hArgs, h⟩ := bind_ok_iff.mp h
      obtain ⟨result, hApply, h⟩ := bind_ok_iff.mp h
      cases h
      rw [parseArguments_skipWhitespace] at hArgs
      obtain ⟨values, rfl, hReads⟩ := hArguments [] text args rest hArgs
      exact Called.call hReads hApply

end Steps

structure Sound (parser : ExpressionParser) (fuel : Nat) : Prop where
  level : ∀ level text value rest, parser.parseLevel fuel level text = .ok (value, rest) →
    parser.Reads (some level) text value rest
  operand : ∀ rank text value rest, parser.parseOperand fuel rank text = .ok (value, rest) →
    parser.Reads rank text value rest
  loop : ∀ level before left text value rest, parser.Reads (some level) before left text →
    parser.levelLoop fuel level left text = .ok (value, rest) → parser.Reads (some level) before value rest
  unary : ∀ text value rest, parser.parseUnary fuel text = .ok (value, rest) → parser.Reads none text value rest
  primary : ∀ text value rest, parser.parsePrimary fuel text = .ok (value, rest) → parser.Reads none text value rest
  function : ∀ name text value rest, parser.parseFunction fuel name text = .ok (value, rest) →
    parser.Called name text value rest
  arguments : ∀ values text all rest, parser.parseArguments fuel values text = .ok (all, rest) →
    ∃ more, all = values ++ more ∧ parser.ReadsArguments text more rest

variable {parser : ExpressionParser}

theorem sound_zero : parser.Sound 0 where
  level _ _ _ _ h := by cases h
  operand rank _ _ _ h := by cases rank <;> cases h
  loop _ _ _ _ _ _ _ h := by cases h
  unary _ _ _ h := by cases h
  primary _ _ _ h := by cases h
  function _ _ _ _ h := by cases h
  arguments _ _ _ _ h := by cases h

theorem sound_succ {fuel : Nat} (ih : parser.Sound fuel) : parser.Sound (fuel + 1) where
  level level text value rest h := by
    rw [parseLevel] at h
    obtain ⟨⟨left, inner⟩, hOperand, hLoop⟩ := bind_ok_iff.mp h
    exact ih.loop level text left inner value rest (ih.operand level.next text left inner hOperand).operand hLoop
  operand rank text value rest h := by
    cases rank with
    | none => exact ih.unary text value rest h
    | some level => exact ih.level level text value rest h
  loop level before left text value rest hLeft h := by
    rw [levelLoop] at h
    cases hOp : level.match text with
    | none =>
      rw [hOp] at h
      cases h
      exact hLeft.blankAfter
    | some found =>
      obtain ⟨op, more⟩ := found
      rw [hOp] at h
      obtain ⟨⟨right, inner⟩, hOperand, hLoop⟩ := bind_ok_iff.mp h
      have hRight := ih.operand level.next more right inner hOperand
      exact ih.loop level before _ inner value rest (Reads.binary hOp hLeft hRight) hLoop
  unary text value rest h := by
    rw [parseUnary] at h
    cases hNot : matchToken ['!'] text with
    | some more =>
      rw [hNot] at h
      obtain ⟨⟨operand, inner⟩, hOperand, hResult⟩ := bind_ok_iff.mp h
      cases hResult
      have hUnary : parser.Reads none text (UnaryOperator.value parser.doubles .not operand) rest :=
        Reads.unary hNot (ih.unary more operand rest hOperand)
      rw [truthy_eq]
      exact hUnary
    | none =>
      rw [hNot] at h
      cases hNeg : matchToken ['-'] text with
      | some more =>
        rw [hNeg] at h
        obtain ⟨⟨operand, inner⟩, hOperand, hResult⟩ := bind_ok_iff.mp h
        cases hResult
        have hUnary : parser.Reads none text (UnaryOperator.value parser.doubles .neg operand) rest :=
          Reads.unary hNeg (ih.unary more operand rest hOperand)
        exact hUnary
      | none =>
        rw [hNeg] at h
        exact (ih.primary _ value rest h).blankBefore
  primary text value rest h := by
    cases hSkip : skipWhitespace text with
    | nil =>
      rw [parsePrimary, hSkip] at h
      cases h
    | cons first others =>
      have hSpace := not_space_of_skipped hSkip
      have hParse : parser.parsePrimary (fuel + 1) (first :: others) = .ok (value, rest) := by
        rw [parsePrimary, skipWhitespace_cons hSpace, ← hSkip, ← parsePrimary]
        exact h
      refine Reads.blankBefore ?_
      rw [hSkip]
      obtain rfl | hOpen := eq_or_ne first '('
      · rw [parsePrimary, skipWhitespace_cons hSpace] at hParse
        dsimp only at hParse
        rw [if_pos rfl] at hParse
        obtain ⟨⟨inside, inner⟩, hInside, hParse⟩ := bind_ok_iff.mp hParse
        obtain ⟨left, hClose, hParse⟩ := bind_ok_iff.mp hParse
        cases hParse
        exact Reads.parentheses (ih.level .logicalOr others _ inner hInside) (expect_ok hClose)
      · cases hNumber : first.isDigit || first == '.' with
        | true =>
          rw [parsePrimary, skipWhitespace_cons hSpace] at hParse
          dsimp only at hParse
          rw [if_neg hOpen, if_pos hNumber] at hParse
          cases hParse
          exact Reads.number hNumber others
        | false => exact Reads.identifier hOpen hNumber hSpace ih.function hParse
  function name text value rest h := Called.parseFunction ih.arguments h
  arguments values text all rest h := by
    rw [parseArguments] at h
    obtain ⟨⟨value, inner⟩, hValue, h⟩ := bind_ok_iff.mp h
    have hReads := ih.level .logicalOr text value inner hValue
    dsimp only at h
    cases hClose : matchToken [')'] inner with
    | some left =>
      rw [hClose] at h
      cases h
      exact ⟨[value], rfl, ReadsArguments.last hReads hClose⟩
    | none =>
      rw [hClose] at h
      obtain ⟨left, hComma, hMore⟩ := bind_ok_iff.mp h
      obtain ⟨more, rfl, hArgs⟩ := ih.arguments _ left all rest hMore
      exact ⟨value :: more, List.append_assoc _ _ _, ReadsArguments.next hReads (expect_ok hComma) hArgs⟩

theorem sound (fuel : Nat) : parser.Sound fuel := by
  induction fuel with
  | zero => exact sound_zero
  | succ fuel ih => exact sound_succ ih

theorem parse_ok {value : EvalValue} (h : parser.parse = .ok value) (hNumbered : WellNumbered parser.expression) :
    ∃ e, Renders (some .logicalOr) e parser.expression ∧ e.value parser.doubles parser.inputs = value := by
  obtain ⟨⟨result, rest⟩, hParse, h⟩ := bind_ok_iff.mp h
  dsimp only at h
  split at h
  · rename_i hEnd
    cases h
    obtain ⟨-, hRead⟩ := (sound _).level _ _ _ _ hParse hNumbered
    have hEnds : Ends (skipWhitespace rest) := by
      rw [hEnd]
      exact fun c hc => (by cases hc)
    obtain ⟨e, read, hSplit, hRenders, hValue⟩ := hRead hEnds
    obtain ⟨gap, hGapSplit, hGap⟩ := blank_skipWhitespace rest
    rw [hEnd, List.append_nil] at hGapSplit
    refine ⟨e, ?_, hValue⟩
    rw [hSplit, hGapSplit]
    exact hRenders.blankAfter hGap
  · cases h

end ExpressionParser

/-- What is accepted renders an expression with the returned value exactly when every number in the text is a
    literal. -/
theorem accepted_text_iff (parser : ExpressionParser) (value : EvalValue) (h : parser.parse = .ok value) :
    (∃ e, Renders (some .logicalOr) e parser.expression ∧ e.value parser.doubles parser.inputs = value) ↔
      WellNumbered parser.expression := by
  constructor
  · rintro ⟨e, hRenders, -⟩
    exact wellNumbered_of_renders hRenders
  · exact ExpressionParser.parse_ok h

theorem accepted_text_iff_comparison :
    (∃ e, Renders (some .logicalOr) e "1.5 <= 2".toList ∧ e.value signOperations (fun _ => none) = some doubleOne) ↔
      WellNumbered "1.5 <= 2".toList :=
  accepted_text_iff (.mk signOperations (fun _ => none) "1.5 <= 2".toList) (some doubleOne) (by decide +kernel)

theorem count_point (literal : NumberLiteral) : literal.text.count '.' ≤ 1 := by
  have hDigits {digits : List Char} (h : ∀ c ∈ digits, c.isDigit = true) : digits.count '.' = 0 :=
    List.count_eq_zero_of_not_mem (digits_not_mem h (by decide))
  have hIntegral : literal.integral.count '.' = 0 := hDigits fun c hc => literal.isDigit c (List.mem_append_left _ hc)
  have hFraction : literal.fractionText.count '.' ≤ 1 := by
    have hAll : ∀ c ∈ literal.fraction.getD [], c.isDigit = true := fun c hc =>
      literal.isDigit c (List.mem_append_right _ hc)
    rw [NumberLiteral.fractionText]
    cases hPoint : literal.fraction with
    | none => exact Nat.zero_le 1
    | some digits =>
      rw [hPoint] at hAll
      have hOther : digits.count '.' = 0 := hDigits hAll
      rw [Option.map_some, Option.getD_some, List.count_append, hOther]
      decide
  have hExponent : literal.exponentText.count '.' = 0 := by
    rw [NumberLiteral.exponentText]
    cases literal.exponent with
    | none => rfl
    | some exponent =>
      have hMarker : exponent.marker ≠ '.' := by
        rw [Exponent.marker]
        split <;> decide
      have hSign : exponent.signText.count '.' = 0 := by
        rw [Exponent.signText]
        split <;> decide
      rw [Option.map_some, Option.getD_some, Exponent.text, List.count_cons_of_ne hMarker, List.count_append, hSign,
        hDigits exponent.isDigit]
  rw [NumberLiteral.text, List.count_append, List.count_append]
  omega

/-- The scanner takes the second point as well, and the conversion leaves it out. -/
theorem two_points_accepted :
    (ExpressionParser.mk signOperations (fun _ => none) "1.2.3".toList).parse =
        .ok (some (BitVec.ofNat 64 0x3FF3333333333333)) ∧
      ¬ ∃ e, Renders (some .logicalOr) e "1.2.3".toList := by
  refine ⟨by decide +kernel, ?_⟩
  rintro ⟨e, hRenders⟩
  have hToken : "1.2.3".toList ∈ numberTokens "1.2.3".toList := by
    rw [String.toList_ofList, numberTokens_number (by decide)]
    exact List.mem_cons_self
  obtain ⟨literal, hText⟩ := wellNumbered_of_renders hRenders _ hToken
  have hCount := count_point literal
  rw [hText] at hCount
  revert hCount
  decide

end EdgeGateway.Compute
