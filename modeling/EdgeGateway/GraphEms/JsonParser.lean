import EdgeGateway.Foundation.DecimalNumbers
import EdgeGateway.Foundation.Fallible
import EdgeGateway.Foundation.FlatObject
import EdgeGateway.GraphEms.Document

/-! # The JSON parser

A recursive descent over the bytes of a text, and a grammar that leaves open what
counts as white space, as a string and as a number.
-/

namespace EdgeGateway.GraphEms

open Numerals QuotedText FlatObject EdgeGateway.Fallible

/-- What `fail` and `std::stod` throw; `unfinished` where the fuel was too little. -/
inductive JsonError where
  | thrown (message : String)
  | unfinished
deriving DecidableEq, Repr

abbrev Parsing := Except JsonError

def fail {α : Type} (message : String) : Parsing α := .error (.thrown message)

def consume (expected : Char) : List Char → Parsing (List Char)
  | [] => fail "unexpected json character"
  | c :: text => if c = expected then .ok text else fail "unexpected json character"

def consumeLiteral : List Char → List Char → Parsing (List Char)
  | [], text => .ok text
  | c :: literal, text => do
    let text ← consume c text
    consumeLiteral literal text

def unescaped : Char → Option Char
  | '"' => some '"'
  | '\\' => some '\\'
  | '/' => some '/'
  | 'b' => some '\x08'
  | 'f' => some '\x0c'
  | 'n' => some '\n'
  | 'r' => some '\r'
  | 't' => some '\t'
  | _ => none

/-- `parseString` behind its opening quote. -/
def parseString : List Char → Parsing (StdString × List Char)
  | [] => fail "unterminated json string"
  | '"' :: text => .ok ([], text)
  | ['\\'] => fail "unterminated json escape"
  | '\\' :: c :: text =>
    match unescaped c with
    | some d => do
      let (value, rest) ← parseString text
      return (d :: value, rest)
    | none => fail "unsupported json escape"
  | c :: text => do
    let (value, rest) ← parseString text
    return (c :: value, rest)

def afterDigits (text : List Char) : List Char := text.dropWhile Char.isDigit

/-- The text behind one of the signs, if it starts with one. -/
def afterSign (signs : List Char) : List Char → List Char
  | [] => []
  | c :: text => if c ∈ signs then text else c :: text

/-- The text behind a part of a number that starts with one of the marks. -/
def afterMarked (marks signs : List Char) : List Char → List Char
  | [] => []
  | c :: text => if c ∈ marks then afterDigits (afterSign signs text) else c :: text

def afterNumber (text : List Char) : List Char :=
  afterMarked ['e', 'E'] ['-', '+'] (afterMarked ['.'] [] (afterDigits (afterSign ['-'] text)))

def parseNumber (text : List Char) : Parsing (RawDouble × List Char) :=
  match stod (text.take (text.length - (afterNumber text).length)) with
  | some value => .ok (value, afterNumber text)
  | none => fail "stod"

inductive Bracket where
  | object
  | array

namespace Bracket

def opening : Bracket → Char
  | object => '{'
  | array => '['

def closing : Bracket → Char
  | object => '}'
  | array => ']'

/-- The entries of an array have no keys. -/
def build (entries : JsonObject) : Bracket → JsonValue
  | object => .object entries
  | array => .array (entries.map Prod.snd)

end Bracket

def parseKey : Bracket → List Char → Parsing (StdString × List Char)
  | .object, text => do
    let text ← consume '"' (skipWhitespace text)
    let (key, text) ← parseString text
    let text ← consume ':' (skipWhitespace text)
    return (key, text)
  | .array, text => .ok ([], text)

/-- `parseObject` and `parseArray` behind the opening bracket, with their loop. -/
def parseBracket (bracket : Bracket) (loop : List Char → Parsing (JsonObject × List Char)) (text : List Char) :
    Parsing (JsonValue × List Char) :=
  match consume bracket.closing (skipWhitespace text) with
  | .ok rest => .ok (bracket.build [], rest)
  | .error _ => do
    let (entries, rest) ← loop text
    return (bracket.build entries, rest)

mutual

def parseValue : Nat → List Char → Parsing (JsonValue × List Char)
  | 0, _ => .error .unfinished
  | fuel + 1, text =>
    match skipWhitespace text with
    | [] => fail "unexpected end of json"
    | c :: text =>
      if c = '{' then parseBracket .object (parseEntries fuel .object) text
      else if c = '[' then parseBracket .array (parseEntries fuel .array) text
      else if c = '"' then do
        let (value, rest) ← parseString text
        return (.string value, rest)
      else if c = 't' then do
        let rest ← consumeLiteral "true".toList (c :: text)
        return (.bool true, rest)
      else if c = 'f' then do
        let rest ← consumeLiteral "false".toList (c :: text)
        return (.bool false, rest)
      else if c = 'n' then do
        let rest ← consumeLiteral "null".toList (c :: text)
        return (.null, rest)
      else if c = '-' ∨ c.isDigit = true then do
        let (value, rest) ← parseNumber (c :: text)
        return (.number value, rest)
      else fail "unexpected json token"

def parseEntries : Nat → Bracket → List Char → Parsing (JsonObject × List Char)
  | 0, _, _ => .error .unfinished
  | fuel + 1, bracket, text => do
    let (key, text) ← parseKey bracket text
    let (value, text) ← parseValue fuel text
    match consume bracket.closing (skipWhitespace text) with
    | .ok rest => return ([(key, value)], rest)
    | .error _ =>
      let text ← consume ',' (skipWhitespace text)
      let (entries, rest) ← parseEntries fuel bracket text
      return ((key, value) :: entries, rest)

end

structure Lexicon where
  blank : Char → Bool
  string : List Char → StdString → Prop
  number : List Char → RawDouble → Prop

inductive Phrase where
  | value (value : JsonValue)
  | entries (bracket : Bracket) (entries : JsonObject)

namespace Lexicon

variable (lexicon : Lexicon)

def Gap (text behind : List Char) : Prop := ∃ blanks, (∀ c ∈ blanks, lexicon.blank c = true) ∧ text = blanks ++ behind

def Key (text : List Char) (key : StdString) (behind : List Char) : Bracket → Prop
  | .object => ∃ body colon, lexicon.Gap text ('"' :: (body ++ '"' :: colon)) ∧ lexicon.string body key ∧
      lexicon.Gap colon (':' :: behind)
  | .array => key = [] ∧ text = behind

end Lexicon

/-- A text with a phrase in front, and what follows the phrase. -/
inductive Derives (lexicon : Lexicon) : Phrase → List Char → List Char → Prop where
  | null {text rest : List Char} : lexicon.Gap text ("null".toList ++ rest) → Derives lexicon (.value .null) text rest
  | bool {text rest : List Char} {value : Bool} :
      lexicon.Gap text ((if value then "true".toList else "false".toList) ++ rest) →
        Derives lexicon (.value (.bool value)) text rest
  | number {text rest literal : List Char} {value : RawDouble} : lexicon.Gap text (literal ++ rest) →
      lexicon.number literal value → Derives lexicon (.value (.number value)) text rest
  | string {text rest body : List Char} {value : StdString} : lexicon.Gap text ('"' :: (body ++ '"' :: rest)) →
      lexicon.string body value → Derives lexicon (.value (.string value)) text rest
  | empty {text inner rest : List Char} {bracket : Bracket} : lexicon.Gap text (bracket.opening :: inner) →
      lexicon.Gap inner (bracket.closing :: rest) → Derives lexicon (.value (bracket.build [])) text rest
  | nested {text inner rest : List Char} {bracket : Bracket} {entries : JsonObject} :
      lexicon.Gap text (bracket.opening :: inner) → Derives lexicon (.entries bracket entries) inner rest →
      Derives lexicon (.value (bracket.build entries)) text rest
  | last {text inner behind rest : List Char} {bracket : Bracket} {key : StdString} {value : JsonValue} :
      lexicon.Key text key inner bracket → Derives lexicon (.value value) inner behind →
      lexicon.Gap behind (bracket.closing :: rest) → Derives lexicon (.entries bracket [(key, value)]) text rest
  | more {text inner behind later rest : List Char} {bracket : Bracket} {key : StdString} {value : JsonValue}
      {entries : JsonObject} : lexicon.Key text key inner bracket → Derives lexicon (.value value) inner behind →
      lexicon.Gap behind (',' :: later) → Derives lexicon (.entries bracket entries) later rest →
      Derives lexicon (.entries bracket ((key, value) :: entries)) text rest

structure NumberParts where
  sign : List Char
  integral : List Char
  point : List Char
  exponent : List Char

def NumberParts.text (parts : NumberParts) : List Char :=
  parts.sign ++ (parts.integral ++ (parts.point ++ parts.exponent))

def Digits (digits : List Char) : Prop := ∀ c ∈ digits, c.isDigit = true

def Signs (signs part : List Char) : Prop := part = [] ∨ ∃ c ∈ signs, part = [c]

def Marked (marks signs part : List Char) : Prop :=
  part = [] ∨ ∃ mark ∈ marks, ∃ sign digits, Signs signs sign ∧ Digits digits ∧ part = mark :: (sign ++ digits)

/-- What the scanner takes for a number. -/
structure NumberParts.Scanned (parts : NumberParts) : Prop where
  sign : Signs ['-'] parts.sign
  integral : Digits parts.integral
  point : Marked ['.'] [] parts.point
  exponent : Marked ['e', 'E'] ['-', '+'] parts.exponent
  start : parts.sign ≠ [] ∨ parts.integral ≠ []

/-- The numbers of RFC 8259. -/
structure NumberParts.Proper (parts : NumberParts) : Prop extends NumberParts.Scanned parts where
  integral_ne : parts.integral ≠ []
  leading : parts.integral.head? = some '0' → parts.integral = ['0']
  point_ne : parts.point ≠ ['.']
  exponent_ends : ∀ c ∈ parts.exponent.getLast?, c.isDigit = true

/-- What `JsonParser` goes by. -/
def scanned : Lexicon where
  blank := isSpace
  string body value := ∃ content : List Piece, (∀ piece ∈ content, piece.isUnicode = false) ∧ body = spelling content ∧
    value = decode content
  number literal value := ∃ parts : NumberParts, parts.Scanned ∧ literal = parts.text ∧ stod literal = some value

section Tokens

variable {text rest behind body literal : List Char} {value : StdString}

theorem Lexicon.Gap.skip {c : Char} (h : scanned.Gap text (c :: rest)) (hc : isSpace c = false) :
    skipWhitespace text = c :: rest := by
  obtain ⟨blanks, hBlanks, rfl⟩ := h
  exact (List.dropWhile_append_of_pos hBlanks).trans (skipWhitespace_cons hc rest)

theorem Lexicon.Gap.length_le {lexicon : Lexicon} (h : lexicon.Gap text behind) : behind.length ≤ text.length := by
  obtain ⟨blanks, -, rfl⟩ := h
  rw [List.length_append]
  exact Nat.le_add_left _ _

end Tokens

section Numbers

variable {text rest taken : List Char}

/-- What may stand behind a value. -/
def Follows (rest : List Char) : Prop := ∀ c ∈ rest.head?, isSpace c = true ∨ c = ',' ∨ c = ']' ∨ c = '}'

theorem Follows.stops (h : Follows rest) :
    ∀ c ∈ rest.head?, c.isDigit = false ∧ c ∉ ['.', 'e', 'E', '-', '+'] := by
  intro c hc
  obtain hSpace | rfl | rfl | rfl := h c hc
  · constructor
    · refine Bool.eq_false_iff.mpr fun hDigit => ?_
      rw [not_space_of_digit hDigit] at hSpace
      cases hSpace
    · intro hMem
      simp only [List.mem_cons, List.not_mem_nil, or_false] at hMem
      obtain rfl | rfl | rfl | rfl | rfl := hMem <;> cases hSpace
  all_goals decide

theorem Marked.head {marks signs : List Char} {p : Char → Prop} (h : Marked marks signs taken) (hMarks : ∀ c ∈ marks, p c)
    (hRest : ∀ c ∈ rest.head?, p c) : ∀ c ∈ (taken ++ rest).head?, p c := by
  obtain rfl | ⟨mark, hMark, _, _, -, -, rfl⟩ := h
  · exact hRest
  · intro c hc
    obtain rfl : mark = c := Option.some.inj hc
    exact hMarks mark hMark

theorem NumberParts.Scanned.head {parts : NumberParts} (h : parts.Scanned) :
    ∃ c tail, parts.text = c :: tail ∧ (c = '-' ∨ c.isDigit = true) := by
  obtain ⟨sign, integral, point, exponent⟩ := parts
  obtain rfl | ⟨c, hc, rfl⟩ := h.sign
  · cases integral with
    | nil => exact absurd rfl (h.start.resolve_left (fun hNe => hNe rfl))
    | cons d integral => exact ⟨d, _, rfl, .inr (h.integral d List.mem_cons_self)⟩
  · exact ⟨c, _, rfl, .inl (List.mem_singleton.mp hc)⟩

end Numbers

section Descent

variable {phrase : Phrase} {text rest behind : List Char} {c : Char}

theorem Lexicon.Key.length_le {lexicon : Lexicon} {bracket : Bracket} {key : StdString} (h : lexicon.Key text key rest bracket) :
    rest.length ≤ text.length := by
  cases bracket with
  | object =>
    obtain ⟨body, colon, hQuote, -, hColon⟩ := h
    have hQuoted := hQuote.length_le
    have hLater := hColon.length_le
    simp only [List.length_cons, List.length_append] at hQuoted hLater
    omega
  | array => exact h.2 ▸ Nat.le_refl _

theorem Lexicon.Gap.follows (h : scanned.Gap behind (c :: rest)) (hc : c = ',' ∨ c = ']' ∨ c = '}') : Follows behind := by
  obtain ⟨blanks, hBlanks, rfl⟩ := h
  cases blanks with
  | nil =>
    rintro d hd
    obtain rfl := Option.some.inj hd
    exact .inr hc
  | cons blank blanks =>
    rintro d hd
    obtain rfl := Option.some.inj hd
    exact .inl (hBlanks _ List.mem_cons_self)

/-- With enough fuel the phrase is read. -/
def Phrase.Parsed (text rest : List Char) : Phrase → Prop
  | .value v => Follows rest → ∀ fuel, 2 * text.length < fuel → parseValue fuel text = .ok (v, rest)
  | .entries bracket vs => ∀ fuel, 2 * text.length + 1 < fuel → parseEntries fuel bracket text = .ok (vs, rest)

end Descent

section Documents

variable {text : List Char} {value : JsonValue}

/-- Every blank, string and number of the one is one of the other. -/
structure Lexicon.Within (lexicon wider : Lexicon) : Prop where
  blank : ∀ c, lexicon.blank c = true → wider.blank c = true
  string : ∀ body value, lexicon.string body value → wider.string body value
  number : ∀ literal value, lexicon.number literal value → wider.number literal value

theorem Lexicon.Gap.mono {lexicon wider : Lexicon} (hWithin : lexicon.Within wider) {behind : List Char}
    (h : lexicon.Gap text behind) : wider.Gap text behind := by
  obtain ⟨blanks, hBlanks, hText⟩ := h
  exact ⟨blanks, fun c hc => hWithin.blank c (hBlanks c hc), hText⟩

theorem Lexicon.Key.mono {lexicon wider : Lexicon} (hWithin : lexicon.Within wider) {bracket : Bracket} {key : StdString}
    {behind : List Char} (h : lexicon.Key text key behind bracket) : wider.Key text key behind bracket := by
  cases bracket with
  | object =>
    obtain ⟨body, colon, hQuote, hBody, hColon⟩ := h
    exact ⟨body, colon, hQuote.mono hWithin, hWithin.string _ _ hBody, hColon.mono hWithin⟩
  | array => exact h

theorem Derives.mono {lexicon wider : Lexicon} (hWithin : lexicon.Within wider) {phrase : Phrase} {rest : List Char}
    (h : Derives lexicon phrase text rest) : Derives wider phrase text rest := by
  induction h with
  | null h => exact .null (h.mono hWithin)
  | bool h => exact .bool (h.mono hWithin)
  | number h hLiteral => exact .number (h.mono hWithin) (hWithin.number _ _ hLiteral)
  | string h hBody => exact .string (h.mono hWithin) (hWithin.string _ _ hBody)
  | empty h hClose => exact .empty (h.mono hWithin) (hClose.mono hWithin)
  | nested h _ ih => exact .nested (h.mono hWithin) ih
  | last hKey _ hClose ih => exact .last (hKey.mono hWithin) ih (hClose.mono hWithin)
  | more hKey _ hComma _ ih ihLater => exact .more (hKey.mono hWithin) ih (hComma.mono hWithin) ihLater

end Documents

end EdgeGateway.GraphEms
