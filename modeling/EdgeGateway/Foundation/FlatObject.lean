import EdgeGateway.Foundation.Numerals

/-! # Flat objects in any spelling -/

namespace EdgeGateway.FlatObject

open QuotedText Numerals

structure Blank where
  text : List Char
  blank : ∀ c ∈ text, c = ' ' ∨ c = '\t' ∨ c = '\n' ∨ c = '\r'

inductive Escape where
  | quote
  | backslash
  | slash
  | backspace
  | formFeed
  | lineFeed
  | carriageReturn
  | tab
deriving DecidableEq, Repr

def Escape.letter : Escape → Char
  | .quote => '"'
  | .backslash => '\\'
  | .slash => '/'
  | .backspace => 'b'
  | .formFeed => 'f'
  | .lineFeed => 'n'
  | .carriageReturn => 'r'
  | .tab => 't'

def Escape.char : Escape → Char
  | .quote => '"'
  | .backslash => '\\'
  | .slash => '/'
  | .backspace => '\x08'
  | .formFeed => '\x0c'
  | .lineFeed => '\n'
  | .carriageReturn => '\r'
  | .tab => '\t'

inductive Piece where
  | plain (c : Char) (h : c ≠ '"' ∧ c ≠ '\\')
  | short (escape : Escape)
  | unicode (digits : List Char) (h : digits.length = 4 ∧ ∀ c ∈ digits, isHexDigit c = true)

def Piece.spelling : Piece → List Char
  | .plain c _ => [c]
  | .short escape => ['\\', escape.letter]
  | .unicode digits _ => '\\' :: 'u' :: digits

def spelling (content : List Piece) : List Char := content.flatMap Piece.spelling

def codeUnit (digits : List Char) : Nat := digits.foldl (fun n c => n * 16 + hexValue c) 0

def utf8 (codePoint : Nat) : List Char :=
  (String.utf8EncodeChar (Char.ofNat codePoint)).map fun byte => Char.ofNat byte.toNat

def isHighSurrogate (unit : Nat) : Bool := 0xd800 ≤ unit && unit < 0xdc00

def isLowSurrogate (unit : Nat) : Bool := 0xdc00 ≤ unit && unit < 0xe000

/-- The value of a string; two units of four digits may stand for one character. -/
def decode : List Piece → List Char
  | [] => []
  | .plain c _ :: rest => c :: decode rest
  | .short escape :: rest => escape.char :: decode rest
  | .unicode high _ :: .unicode low hLow :: rest =>
    if isHighSurrogate (codeUnit high) && isLowSurrogate (codeUnit low) then
      utf8 (0x10000 + (codeUnit high - 0xd800) * 0x400 + (codeUnit low - 0xdc00)) ++ decode rest
    else utf8 (codeUnit high) ++ decode (.unicode low hLow :: rest)
  | .unicode digits _ :: rest => utf8 (codeUnit digits) ++ decode rest

def Piece.isUnicode : Piece → Bool
  | .unicode .. => true
  | _ => false

/-- What is written of a string behind its last quote. -/
def endingFrom (segment : List Char) : List Piece → List Char
  | [] => segment
  | .short .quote :: content => endingFrom [] content
  | piece :: content => endingFrom (segment ++ piece.spelling) content

def ending (content : List Piece) : List Char := endingFrom [] content

inductive Value where
  | text (content : List Piece)
  | bare (literal : List Char) (h : '"' ∉ literal)

def Value.written : Value → List Char
  | .text content => '"' :: (spelling content ++ ['"'])
  | .bare literal _ => literal

structure Member where
  name : List Char
  letters : ∀ c ∈ name, c.isAlpha = true
  value : Value
  beforeName : Blank
  beforeColon : Blank
  afterColon : Blank
  afterValue : Blank

def Member.hides (name : List Char) (member : Member) : Bool :=
  match member.value with
  | .text content => decide (ending content = name)
  | .bare .. => false

def Member.text (member : Member) (rest : List Char) : List Char :=
  member.beforeName.text ++ (quoted member.name ++ (member.beforeColon.text ++ ':' :: (member.afterColon.text ++
    (member.value.written ++ (member.afterValue.text ++ rest)))))

structure Object where
  before : Blank
  inner : Blank
  after : Blank
  members : List Member

def tailText (after : Blank) : List Member → List Char
  | [] => '}' :: after.text
  | member :: members => ',' :: member.text (tailText after members)

def Object.text (object : Object) : List Char :=
  object.before.text ++ '{' :: match object.members with
    | [] => object.inner.text ++ '}' :: object.after.text
    | member :: members => member.text (tailText object.after members)

def visible (name : List Char) : List Member → Option Member
  | [] => none
  | member :: members =>
    if member.name = name then some member else if member.hides name then none else visible name members

section Search

variable {name gap rest : List Char}

theorem Blank.quote_not_mem (blank : Blank) : '"' ∉ blank.text := by
  intro hMem
  obtain h | h | h | h := blank.blank '"' hMem <;> exact absurd h (by decide)

theorem after_gap {c : Char} (hGap : '"' ∉ gap) (hc : c ∈ gap) (hName : c ∉ name) :
    after (quoted name) ('"' :: (gap ++ rest)) = after (quoted name) rest := by
  rw [after, if_neg, after_append hGap]
  intro hPrefix
  rw [quoted, List.isPrefixOf_iff_prefix, List.cons_prefix_cons] at hPrefix
  obtain hShort | hLong := List.prefix_or_prefix_of_prefix hPrefix.2 (List.prefix_append gap rest)
  · exact hGap (hShort.subset (List.mem_append_right _ List.mem_cons_self))
  · obtain hMem | hQuote := List.mem_append.mp (hLong.subset hc)
    · exact hName hMem
    · exact hGap (List.mem_singleton.mp hQuote ▸ hc)

theorem not_mem_letters {c : Char} (hName : ∀ c ∈ name, c.isAlpha = true) (hc : c.isAlpha = false) : c ∉ name := by
  intro hMem
  rw [hName c hMem] at hc
  cases hc

theorem Piece.quote_not_mem {piece : Piece} (h : piece ≠ .short .quote) : '"' ∉ piece.spelling := by
  cases piece with
  | plain c hPlain =>
    rw [spelling, List.mem_singleton]
    exact hPlain.1.symm
  | short escape =>
    cases escape with
    | quote => exact absurd rfl h
    | _ => decide
  | unicode digits hDigits =>
    intro hMem
    obtain hSlash | hMem := List.mem_cons.mp hMem
    · exact absurd hSlash (by decide)
    · obtain hU | hMem := List.mem_cons.mp hMem
      · exact absurd hU (by decide)
      · exact absurd (hDigits.2 _ hMem) (by decide)

theorem spelling_cons (piece : Piece) (content : List Piece) :
    spelling (piece :: content) = piece.spelling ++ spelling content := rfl

theorem endingFrom_cons {piece : Piece} (h : piece ≠ .short .quote) (segment : List Char) (content : List Piece) :
    endingFrom segment (piece :: content) = endingFrom (segment ++ piece.spelling) content := by
  cases piece with
  | short escape =>
    cases escape with
    | quote => exact absurd rfl h
    | _ => rfl
  | _ => rfl

theorem after_content (hName : ∀ c ∈ name, c.isAlpha = true) (content : List Piece) (segment : List Char)
    (hSegment : '"' ∉ segment) :
    after (quoted name) ('"' :: (segment ++ (spelling content ++ '"' :: rest))) =
      if endingFrom segment content = name then some rest else after (quoted name) ('"' :: rest) := by
  have hQuote : '"' ∉ name := not_mem_letters hName (by decide)
  induction content generalizing segment with
  | nil => exact after_segment hQuote hSegment
  | cons piece content ih =>
    obtain rfl | hPiece := Classical.em (piece = .short .quote)
    · -- the backslash before the quote is no letter, so the name does not end here
      have hSlash : '\\' ∈ segment ++ ['\\'] := List.mem_append_right _ List.mem_cons_self
      have hFree : '"' ∉ segment ++ ['\\'] := by
        rw [List.mem_append, not_or]
        exact ⟨hSegment, by decide⟩
      have hGap := @after_gap name (segment ++ ['\\']) ('"' :: (spelling content ++ '"' :: rest)) '\\' hFree hSlash
        (not_mem_letters hName (by decide))
      rw [List.append_assoc] at hGap
      exact hGap.trans (ih [] List.not_mem_nil)
    · have hNext := ih (segment ++ piece.spelling) (by
        rw [List.mem_append, not_or]
        exact ⟨hSegment, Piece.quote_not_mem hPiece⟩)
      rw [List.append_assoc] at hNext
      rw [spelling_cons, List.append_assoc, endingFrom_cons hPiece]
      exact hNext

theorem tailText_head (after : Blank) (members : List Member) :
    ∃ c text, tailText after members = c :: text ∧ (c = ',' ∨ c = '}') := by
  cases members with
  | nil => exact ⟨'}', _, rfl, .inr rfl⟩
  | cons member members => exact ⟨',', _, rfl, .inl rfl⟩

theorem after_tailText (hName : ∀ c ∈ name, c.isAlpha = true) (after : Blank) (members : List Member)
    (hGap : '"' ∉ gap) :
    QuotedText.after (quoted name) ('"' :: (gap ++ tailText after members)) =
      QuotedText.after (quoted name) (tailText after members) := by
  obtain ⟨c, text, hText, hc⟩ := tailText_head after members
  have hLetter : c.isAlpha = false := by
    obtain rfl | rfl := hc <;> decide
  have hPlain : '"' ≠ c := by
    obtain rfl | rfl := hc <;> decide
  have hFree : '"' ∉ gap ++ [c] := by
    rw [List.mem_append, not_or]
    exact ⟨hGap, fun hMem => hPlain (List.mem_singleton.mp hMem)⟩
  have hPassed := @after_gap name (gap ++ [c]) text c hFree (List.mem_append_right _ List.mem_cons_self)
    (not_mem_letters hName hLetter)
  rw [List.append_assoc] at hPassed
  rw [hText, after_cons_ne hPlain.symm]
  exact hPassed

def locate (name : List Char) (after : Blank) : List Member → Option (List Char)
  | [] => none
  | member :: members =>
    if member.name = name then
      some (member.beforeColon.text ++ ':' :: (member.afterColon.text ++
        (member.value.written ++ (member.afterValue.text ++ tailText after members))))
    else if member.hides name then some (member.afterValue.text ++ tailText after members)
    else locate name after members

theorem after_member (hName : ∀ c ∈ name, c.isAlpha = true) (after : Blank) (member : Member) (members : List Member) :
    QuotedText.after (quoted name) (member.text (tailText after members)) =
      if member.name = name then
        some (member.beforeColon.text ++ ':' :: (member.afterColon.text ++
          (member.value.written ++ (member.afterValue.text ++ tailText after members))))
      else if member.hides name then some (member.afterValue.text ++ tailText after members)
      else QuotedText.after (quoted name) (tailText after members) := by
  have hQuote : ∀ {word : List Char}, (∀ c ∈ word, c.isAlpha = true) → '"' ∉ word :=
    fun hWord => not_mem_letters hWord (by decide)
  have hColon : ':' ∉ name := not_mem_letters hName (by decide)
  rw [Member.text, after_append member.beforeName.quote_not_mem, quoted_append,
    after_segment (hQuote hName) (hQuote member.letters)]
  split
  · rfl
  · rw [Member.hides]
    cases member.value with
    | text content =>
      have hFree : '"' ∉ member.beforeColon.text ++ ':' :: member.afterColon.text := by
        rw [List.mem_append, List.mem_cons, not_or, not_or]
        exact ⟨member.beforeColon.quote_not_mem, by decide, member.afterColon.quote_not_mem⟩
      have hGap := @after_gap name (member.beforeColon.text ++ ':' :: member.afterColon.text)
        ('"' :: (spelling content ++ '"' :: (member.afterValue.text ++ tailText after members))) ':' hFree
        (List.mem_append_right _ List.mem_cons_self) hColon
      have hContent := @after_content name (member.afterValue.text ++ tailText after members) hName content []
        List.not_mem_nil
      rw [after_tailText hName after members member.afterValue.quote_not_mem] at hContent
      rw [List.append_assoc, List.cons_append] at hGap
      rw [Value.written, List.cons_append, List.append_assoc, List.singleton_append, hGap]
      dsimp only
      simp only [decide_eq_true_eq]
      exact hContent
    | bare literal hLiteral =>
      have hFree : '"' ∉ member.beforeColon.text ++ ':' :: (member.afterColon.text ++ (literal ++ member.afterValue.text)) := by
        rw [List.mem_append, List.mem_cons, List.mem_append, List.mem_append, not_or, not_or, not_or, not_or]
        exact ⟨member.beforeColon.quote_not_mem, by decide, member.afterColon.quote_not_mem, hLiteral,
          member.afterValue.quote_not_mem⟩
      have hGap := after_tailText hName after members hFree
      rw [List.append_assoc, List.cons_append, List.append_assoc, List.append_assoc] at hGap
      exact hGap

theorem after_tail (hName : ∀ c ∈ name, c.isAlpha = true) (after : Blank) (members : List Member) :
    QuotedText.after (quoted name) (tailText after members) = locate name after members := by
  induction members with
  | nil =>
    rw [tailText]
    apply after_none
    rw [List.mem_cons, not_or]
    exact ⟨by decide, after.quote_not_mem⟩
  | cons member members ih => rw [tailText, after_cons_ne (by decide), after_member hName, locate, ih]

theorem after_text (hName : ∀ c ∈ name, c.isAlpha = true) (object : Object) :
    QuotedText.after (quoted name) object.text = locate name object.after object.members := by
  rw [Object.text, after_append object.before.quote_not_mem, after_cons_ne (by decide)]
  cases object.members with
  | nil =>
    apply after_none
    rw [List.mem_append, List.mem_cons, not_or, not_or]
    exact ⟨object.inner.quote_not_mem, by decide, object.after.quote_not_mem⟩
  | cons member members => rw [after_member hName, locate, after_tail hName]

end Search

end EdgeGateway.FlatObject
