import Mathlib.Algebra.Order.Ring.Int
import Mathlib.Data.List.Basic
import Mathlib.Data.List.TakeWhile

/-! # Fields found by searching for their quoted key

String values are escaped. A reader that searches the whole text for a quoted key may stop inside an
earlier value: exactly when what follows its last quote is the key.
-/

namespace EdgeGateway.QuotedText

def after (needle : List Char) : List Char → Option (List Char)
  | [] => if needle.isPrefixOf [] then some [] else none
  | c :: text => if needle.isPrefixOf (c :: text) then some ((c :: text).drop needle.length) else after needle text

def quoted (key : List Char) : List Char := '"' :: (key ++ ['"'])

section Segments

variable {key segment text : List Char}

theorem after_cons_ne {c : Char} (hc : c ≠ '"') : after (quoted key) (c :: text) = after (quoted key) text := by
  rw [after, if_neg]
  intro hPrefix
  rw [quoted, List.isPrefixOf_iff_prefix, List.cons_prefix_cons] at hPrefix
  exact hc hPrefix.1.symm

theorem after_append (hSegment : '"' ∉ segment) : after (quoted key) (segment ++ text) = after (quoted key) text := by
  induction segment with
  | nil => rfl
  | cons c segment ih =>
    rw [List.mem_cons, not_or] at hSegment
    rw [List.cons_append, after_cons_ne (Ne.symm hSegment.1), ih hSegment.2]

theorem after_none (hText : '"' ∉ text) : after (quoted key) text = none := by
  rw [← List.append_nil text, after_append hText]
  rfl

theorem prefix_segment (hKey : '"' ∉ key) (hSegment : '"' ∉ segment)
    (hPrefix : key ++ ['"'] <+: segment ++ '"' :: text) : segment = key := by
  induction key generalizing segment with
  | nil =>
    cases segment with
    | nil => rfl
    | cons c segment =>
      have hHead := (List.cons_prefix_cons.mp hPrefix).1
      exact absurd (hHead ▸ List.mem_cons_self) hSegment
  | cons k key ih =>
    rw [List.mem_cons, not_or] at hKey
    cases segment with
    | nil => exact absurd (List.cons_prefix_cons.mp hPrefix).1.symm hKey.1
    | cons c segment =>
      rw [List.mem_cons, not_or] at hSegment
      obtain ⟨rfl, hTail⟩ := List.cons_prefix_cons.mp hPrefix
      rw [ih hKey.2 hSegment.2 hTail]

theorem after_segment (hKey : '"' ∉ key) (hSegment : '"' ∉ segment) :
    after (quoted key) ('"' :: (segment ++ '"' :: text)) =
      if segment = key then some text else after (quoted key) ('"' :: text) := by
  rw [after]
  by_cases hEq : segment = key
  · subst hEq
    have hPrefix : (quoted segment).isPrefixOf ('"' :: (segment ++ '"' :: text)) = true := by
      rw [quoted, List.isPrefixOf_iff_prefix, List.cons_prefix_cons]
      exact ⟨rfl, text, by simp⟩
    have hDrop : ('"' :: (segment ++ '"' :: text)).drop (quoted segment).length = text := by
      simp [quoted]
    rw [if_pos hPrefix, if_pos rfl, hDrop]
  · rw [if_neg hEq, if_neg, after_append hSegment]
    intro hPrefix
    rw [quoted, List.isPrefixOf_iff_prefix, List.cons_prefix_cons] at hPrefix
    exact hEq (prefix_segment hKey hSegment hPrefix.2)

theorem after_open (hSegment : '"' ∉ segment) : after (quoted key) ('"' :: segment) = none := by
  rw [after, if_neg, after_none hSegment]
  intro hPrefix
  rw [quoted, List.isPrefixOf_iff_prefix, List.cons_prefix_cons] at hPrefix
  exact hSegment (hPrefix.2.subset (List.mem_append_right _ List.mem_cons_self))

end Segments

/-- A writer that puts a backslash before some characters, perhaps with another letter for them. -/
structure Escaping where
  image : Char → Option Char
  quote : image '"' = some '"'
  backslash : image '\\' = some '\\'
  quote_only : ∀ c, image c = some '"' → c = '"'
  plain_alpha : ∀ c, c.isAlpha = true → image c = none

namespace Escaping

variable (e : Escaping)

def escapeChar (c : Char) : List Char :=
  match e.image c with
  | some d => ['\\', d]
  | none => [c]

def escape (value : List Char) : List Char := value.flatMap e.escapeChar

/-- What a reader that only drops backslashes makes of an escaped value. -/
def readBack (value : List Char) : List Char := value.map fun c => (e.image c).getD c

theorem escape_cons (c : Char) (value : List Char) : e.escape (c :: value) = e.escapeChar c ++ e.escape value := rfl

theorem quote_not_mem_escapeChar {c : Char} (hc : c ≠ '"') : '"' ∉ e.escapeChar c := by
  unfold escapeChar
  cases hImage : e.image c with
  | none => simpa using Ne.symm hc
  | some d =>
    have hd : d ≠ '"' := by
      rintro rfl
      exact hc (e.quote_only c hImage)
    simpa using Ne.symm hd

theorem quote_not_mem_escape {value : List Char} (hValue : '"' ∉ value) : '"' ∉ e.escape value := by
  induction value with
  | nil => exact List.not_mem_nil
  | cons c value ih =>
    rw [List.mem_cons, not_or] at hValue
    rw [escape_cons, List.mem_append, not_or]
    exact ⟨e.quote_not_mem_escapeChar (Ne.symm hValue.1), ih hValue.2⟩

theorem backslash_not_alpha {key : List Char} (hKey : ∀ c ∈ key, c.isAlpha = true) : '\\' ∉ key :=
  fun hMem => absurd (hKey _ hMem) (by decide)

theorem escape_eq_key {key value : List Char} (hKey : ∀ c ∈ key, c.isAlpha = true) :
    e.escape value = key ↔ value = key := by
  constructor
  · intro hEq
    induction value generalizing key with
    | nil => exact hEq
    | cons c value ih =>
      rw [escape_cons, escapeChar] at hEq
      cases hImage : e.image c with
      | some d =>
        rw [hImage] at hEq
        exact absurd (hEq ▸ List.mem_cons_self) (backslash_not_alpha hKey)
      | none =>
        rw [hImage] at hEq
        cases key with
        | nil => cases hEq
        | cons k key =>
          obtain ⟨rfl, hTail⟩ := List.cons.inj hEq
          rw [ih (fun x hx => hKey x (List.mem_cons_of_mem _ hx)) hTail]
  · rintro rfl
    induction value with
    | nil => rfl
    | cons c value ih =>
      rw [escape_cons, escapeChar, e.plain_alpha c (hKey c List.mem_cons_self),
        ih fun x hx => hKey x (List.mem_cons_of_mem _ hx)]
      rfl

end Escaping

def afterLastQuote : List Char → List Char
  | [] => []
  | c :: value => if '"' ∈ value then afterLastQuote value else if c = '"' then value else c :: value

def Shadows (key value : List Char) : Prop := afterLastQuote value = key

instance (key value : List Char) : Decidable (Shadows key value) := inferInstanceAs (Decidable (_ = _))

theorem afterLastQuote_of_not_mem {value : List Char} (hValue : '"' ∉ value) : afterLastQuote value = value := by
  cases value with
  | nil => rfl
  | cons c value =>
    rw [List.mem_cons, not_or] at hValue
    rw [afterLastQuote, if_neg hValue.2, if_neg (Ne.symm hValue.1)]

theorem afterLastQuote_of_mem {value : List Char} (hValue : '"' ∈ value) :
    ∃ front, value = front ++ '"' :: afterLastQuote value ∧ '"' ∉ afterLastQuote value := by
  induction value with
  | nil => cases hValue
  | cons c value ih =>
    by_cases hTail : '"' ∈ value
    · obtain ⟨front, hEq, hFree⟩ := ih hTail
      refine ⟨c :: front, ?_, ?_⟩
      · rw [afterLastQuote, if_pos hTail, List.cons_append, ← hEq]
      · rw [afterLastQuote, if_pos hTail]
        exact hFree
    · have hHead : c = '"' := by
        obtain hHead | hMem := List.mem_cons.mp hValue
        · exact hHead.symm
        · exact absurd hMem hTail
      subst hHead
      refine ⟨[], ?_, ?_⟩
      · rw [afterLastQuote, if_neg hTail, if_pos rfl, List.nil_append]
      · rw [afterLastQuote, if_neg hTail, if_pos rfl]
        exact hTail

section Value

variable (e : Escaping) {key : List Char}

theorem quote_not_alpha (hKey : ∀ c ∈ key, c.isAlpha = true) : '"' ∉ key :=
  fun hMem => absurd (hKey _ hMem) (by decide)

theorem after_escaped_quote (hKey : ∀ c ∈ key, c.isAlpha = true) (front text : List Char) (segment : List Char)
    (hSegment : '"' ∉ segment) :
    after (quoted key) ('"' :: (segment ++ (e.escape front ++ '\\' :: '"' :: text))) =
      after (quoted key) ('"' :: text) := by
  have hStop : ∀ (segment text : List Char), '"' ∉ segment →
      after (quoted key) ('"' :: (segment ++ '\\' :: '"' :: text)) = after (quoted key) ('"' :: text) := by
    intro segment text hSegment
    have hFree : '"' ∉ segment ++ ['\\'] := by
      rw [List.mem_append, not_or]
      exact ⟨hSegment, by decide⟩
    have hSlash : segment ++ ['\\'] ≠ key := by
      rintro rfl
      exact Escaping.backslash_not_alpha hKey (List.mem_append_right _ List.mem_cons_self)
    have hFound := @after_segment key (segment ++ ['\\']) text (quote_not_alpha hKey) hFree
    rw [if_neg hSlash, List.append_assoc] at hFound
    exact hFound
  induction front generalizing segment with
  | nil => exact hStop segment text hSegment
  | cons c front ih =>
    rw [Escaping.escape_cons]
    by_cases hc : c = '"'
    · subst hc
      have hChar : e.escapeChar '"' = ['\\', '"'] := by rw [Escaping.escapeChar, e.quote]
      rw [hChar]
      refine (hStop segment (e.escape front ++ '\\' :: '"' :: text) hSegment).trans ?_
      exact ih [] List.not_mem_nil
    · have hNext := ih (segment ++ e.escapeChar c) (by
        rw [List.mem_append, not_or]
        exact ⟨hSegment, e.quote_not_mem_escapeChar hc⟩)
      rw [List.append_assoc] at hNext ⊢
      exact hNext

theorem after_value (hKey : ∀ c ∈ key, c.isAlpha = true) (value text : List Char) :
    after (quoted key) ('"' :: (e.escape value ++ '"' :: text)) =
      if Shadows key value then some text else after (quoted key) ('"' :: text) := by
  have hTail : ∀ tail, '"' ∉ tail → tail = afterLastQuote value →
      after (quoted key) ('"' :: (e.escape tail ++ '"' :: text)) =
        if Shadows key value then some text else after (quoted key) ('"' :: text) := by
    intro tail hFree hTail
    rw [after_segment (quote_not_alpha hKey) (e.quote_not_mem_escape hFree)]
    by_cases hShadows : Shadows key value
    · rw [if_pos hShadows, if_pos ((e.escape_eq_key hKey).mpr (hTail.trans hShadows))]
    · rw [if_neg hShadows, if_neg fun hEq => hShadows (hTail.symm.trans ((e.escape_eq_key hKey).mp hEq))]
  by_cases hQuote : '"' ∈ value
  · obtain ⟨front, hEq, hFree⟩ := afterLastQuote_of_mem hQuote
    have hEscape : e.escape value = e.escape front ++ '\\' :: '"' :: e.escape (afterLastQuote value) := by
      conv_lhs => rw [hEq]
      rw [Escaping.escape, List.flatMap_append, List.flatMap_cons, Escaping.escapeChar, e.quote]
      rfl
    have hFront := after_escaped_quote e hKey front (e.escape (afterLastQuote value) ++ '"' :: text) []
      List.not_mem_nil
    rw [List.nil_append] at hFront
    rw [hEscape, List.append_assoc]
    exact hFront.trans (hTail _ hFree rfl)
  · exact hTail value hQuote (afterLastQuote_of_not_mem hQuote).symm

end Value

section Members

inductive Member where
  | text (key value : List Char)
  | plain (key literal : List Char)
deriving DecidableEq, Repr

namespace Member

def key : Member → List Char
  | .text key _ => key
  | .plain key _ => key

def value (e : Escaping) : Member → List Char
  | .text _ value => '"' :: (e.escape value ++ ['"'])
  | .plain _ literal => literal

def Shadows (key : List Char) : Member → Prop
  | .text _ value => QuotedText.Shadows key value
  | .plain _ _ => False

instance (key : List Char) : (member : Member) → Decidable (member.Shadows key)
  | .text _ value => inferInstanceAs (Decidable (QuotedText.Shadows key value))
  | .plain _ _ => inferInstanceAs (Decidable False)

def WellFormed : Member → Prop
  | .text key _ => ∀ c ∈ key, c.isAlpha = true
  | .plain key literal => (∀ c ∈ key, c.isAlpha = true) ∧ '"' ∉ literal

end Member

def renderTail (e : Escaping) : List Member → List Char
  | [] => ['}']
  | member :: members => ',' :: (quoted member.key ++ ':' :: (member.value e ++ renderTail e members))

def renderObject (e : Escaping) (member : Member) (members : List Member) : List Char :=
  '{' :: (quoted member.key ++ ':' :: (member.value e ++ renderTail e members))

/-- Where the search for a key ends up: behind the key of its member, or behind a value before it
that shadows the key. -/
def locate (e : Escaping) (key : List Char) : List Member → Option (List Char)
  | [] => none
  | member :: members =>
    if member.key = key then some (':' :: (member.value e ++ renderTail e members))
    else if member.Shadows key then some (renderTail e members)
    else locate e key members

variable (e : Escaping) {key : List Char}

theorem locate_text_self (key value : List Char) (members : List Member) :
    locate e key (.text key value :: members) =
      some (':' :: (Member.value e (.text key value) ++ renderTail e members)) := by
  rw [locate, if_pos (by rfl)]

theorem locate_plain_self (key literal : List Char) (members : List Member) :
    locate e key (.plain key literal :: members) = some (':' :: (literal ++ renderTail e members)) := by
  rw [locate, if_pos (by rfl)]
  rfl

theorem locate_text_ne {word : List Char} (hWord : word ≠ key) (value : List Char) (members : List Member) :
    locate e key (.text word value :: members) =
      if QuotedText.Shadows key value then some (renderTail e members) else locate e key members := by
  rw [locate, if_neg (by exact hWord)]
  rfl

theorem locate_plain_ne {word : List Char} (hWord : word ≠ key) (literal : List Char) (members : List Member) :
    locate e key (.plain word literal :: members) = locate e key members := by
  rw [locate, if_neg (by exact hWord), if_neg (by exact id)]

theorem locate_hidden {front : List Member} (hKeys : ∀ m ∈ front, m.key ≠ key) (rest : List Member)
    (hHidden : ∃ m ∈ front, m.Shadows key) : ∃ members, locate e key (front ++ rest) = some (renderTail e members) := by
  induction front with
  | nil =>
    obtain ⟨m, hMem, -⟩ := hHidden
    cases hMem
  | cons member front ih =>
    rw [List.cons_append, locate, if_neg (hKeys member List.mem_cons_self)]
    split
    · exact ⟨_, rfl⟩
    · rename_i hClear
      apply ih fun m hm => hKeys m (List.mem_cons_of_mem _ hm)
      obtain ⟨m, hMem, hShadow⟩ := hHidden
      obtain rfl | hMem := List.mem_cons.mp hMem
      · exact absurd hShadow hClear
      · exact ⟨m, hMem, hShadow⟩

theorem locate_clear {front : List Member} (hKeys : ∀ m ∈ front, m.key ≠ key) (rest : List Member)
    (hClear : ¬ ∃ m ∈ front, m.Shadows key) : locate e key (front ++ rest) = locate e key rest := by
  induction front with
  | nil => rfl
  | cons member front ih =>
    have hHead : ¬ member.Shadows key := fun h => hClear ⟨member, List.mem_cons_self, h⟩
    rw [List.cons_append, locate, if_neg (hKeys member List.mem_cons_self), if_neg hHead]
    apply ih fun m hm => hKeys m (List.mem_cons_of_mem _ hm)
    rintro ⟨m, hMem, hShadow⟩
    exact hClear ⟨m, List.mem_cons_of_mem _ hMem, hShadow⟩

theorem quoted_append (word text : List Char) : quoted word ++ text = '"' :: (word ++ '"' :: text) := by
  simp [quoted]

theorem after_quote_renderTail (hKey : ∀ c ∈ key, c.isAlpha = true) (members : List Member) :
    after (quoted key) ('"' :: renderTail e members) = after (quoted key) (renderTail e members) := by
  cases members with
  | nil => rw [renderTail, after_open (by decide), after_none (by decide)]
  | cons member members =>
    have hComma : [','] ≠ key := by
      rintro rfl
      exact absurd (hKey _ List.mem_cons_self) (by decide)
    have hFound := @after_segment key [','] (member.key ++ '"' :: (':' :: (member.value e ++ renderTail e members)))
      (quote_not_alpha hKey) (by decide)
    rw [if_neg hComma] at hFound
    rw [renderTail, quoted_append, after_cons_ne (by decide : ',' ≠ '"')]
    exact hFound

theorem after_member (hKey : ∀ c ∈ key, c.isAlpha = true) {member : Member} (hMember : member.WellFormed)
    (members : List Member) :
    after (quoted key) (quoted member.key ++ ':' :: (member.value e ++ renderTail e members)) =
      if member.key = key then some (':' :: (member.value e ++ renderTail e members))
      else if member.Shadows key then some (renderTail e members)
      else after (quoted key) (renderTail e members) := by
  have hColon : ∀ segment, ':' :: segment ≠ key := by
    rintro segment rfl
    exact absurd (hKey _ List.mem_cons_self) (by decide)
  have hWord : '"' ∉ member.key := by
    cases member with
    | text word _ => exact quote_not_alpha hMember
    | plain word _ => exact quote_not_alpha hMember.1
  have hHead := @after_segment key member.key (':' :: (member.value e ++ renderTail e members))
    (quote_not_alpha hKey) hWord
  rw [quoted_append, hHead]
  by_cases hFound : member.key = key
  · rw [if_pos hFound, if_pos hFound]
  · rw [if_neg hFound, if_neg hFound]
    cases member with
    | text word value =>
      have hGap := @after_segment key [':'] (e.escape value ++ '"' :: renderTail e members)
        (quote_not_alpha hKey) (by decide)
      rw [if_neg (hColon [])] at hGap
      have hValue := after_value e hKey value (renderTail e members)
      rw [after_quote_renderTail e hKey] at hValue
      rw [Member.value, List.cons_append, List.append_assoc]
      exact hGap.trans hValue
    | plain word literal =>
      rw [Member.value, if_neg (by exact id)]
      cases members with
      | nil =>
        have hFree : '"' ∉ ':' :: (literal ++ renderTail e []) := by
          have hLiteral := hMember.2
          simpa [renderTail] using hLiteral
        rw [after_open hFree, renderTail, after_none (by decide)]
      | cons next members =>
        have hFree : '"' ∉ ':' :: (literal ++ [',']) := by
          have hLiteral := hMember.2
          simpa using hLiteral
        have hGap := @after_segment key (':' :: (literal ++ [',']))
          (next.key ++ '"' :: (':' :: (next.value e ++ renderTail e members))) (quote_not_alpha hKey) hFree
        rw [if_neg (hColon _)] at hGap
        have hTail : '"' :: (':' :: (literal ++ renderTail e (next :: members))) =
            '"' :: (':' :: (literal ++ [',']) ++
              '"' :: (next.key ++ '"' :: (':' :: (next.value e ++ renderTail e members)))) := by
          simp [renderTail, quoted]
        rw [hTail, hGap, renderTail, after_cons_ne (by decide : ',' ≠ '"'), quoted_append]

theorem after_renderTail (hKey : ∀ c ∈ key, c.isAlpha = true) (members : List Member)
    (hMembers : ∀ member ∈ members, member.WellFormed) :
    after (quoted key) (renderTail e members) = locate e key members := by
  induction members with
  | nil =>
    rw [renderTail]
    exact after_none (by decide)
  | cons member members ih =>
    rw [renderTail, after_cons_ne (by decide), after_member e hKey (hMembers member List.mem_cons_self), locate,
      ih fun m hm => hMembers m (List.mem_cons_of_mem _ hm)]

theorem after_renderObject (hKey : ∀ c ∈ key, c.isAlpha = true) (member : Member) (members : List Member)
    (hMembers : ∀ m ∈ member :: members, m.WellFormed) :
    after (quoted key) (renderObject e member members) = locate e key (member :: members) := by
  rw [renderObject, after_cons_ne (by decide), after_member e hKey (hMembers member List.mem_cons_self), locate,
    after_renderTail e hKey members fun m hm => hMembers m (List.mem_cons_of_mem _ hm)]

end Members

section Readers

def isSpace (c : Char) : Bool := c == ' ' || ('\t' ≤ c && c ≤ '\r')

def skipWhitespace (text : List Char) : List Char := text.dropWhile isSpace

/-- A string up to its closing quote; a backslash stands for the character behind it. -/
def scanString : List Char → Option (List Char)
  | [] => none
  | '"' :: _ => some []
  | '\\' :: c :: text => (scanString text).map (c :: ·)
  | c :: text => (scanString text).map (c :: ·)

def afterColon (text : List Char) : Option (List Char) :=
  match skipWhitespace text with
  | ':' :: text => some (skipWhitespace text)
  | _ => none

def openString : List Char → Option (List Char)
  | '"' :: text => scanString text
  | _ => none

def stringMember (key text : List Char) : List Char :=
  (((after (quoted key) text).bind afterColon).bind openString).getD []

def intText (n : Int) : List Char :=
  if n < 0 then '-' :: Nat.toDigits 10 n.natAbs else Nat.toDigits 10 n.natAbs

def IsInt64 (n : Int) : Prop := -2 ^ 63 ≤ n ∧ n < 2 ^ 63

instance (n : Int) : Decidable (IsInt64 n) := inferInstanceAs (Decidable (_ ∧ _))

def signAndDigits : List Char → Bool × List Char
  | '-' :: text => (true, text.takeWhile Char.isDigit)
  | '+' :: text => (false, text.takeWhile Char.isDigit)
  | text => (false, text.takeWhile Char.isDigit)

def signedValue (negative : Bool) (digits : List Char) : Int :=
  if negative then -(Nat.ofDigitChars 10 digits 0 : Int) else Nat.ofDigitChars 10 digits 0

/-- A number as `stoll` converts it: nothing without digits or outside of the type. -/
def scanInt64 (text : List Char) : Option Int :=
  match signAndDigits text with
  | (negative, digits) =>
    if digits = [] ∨ ¬ IsInt64 (signedValue negative digits) then none else some (signedValue negative digits)

variable (e : Escaping)

theorem scanString_escape (value text : List Char) :
    scanString (e.escape value ++ '"' :: text) = some (e.readBack value) := by
  induction value with
  | nil => rfl
  | cons c value ih =>
    rw [Escaping.escape_cons, Escaping.escapeChar, Escaping.readBack, List.map_cons, ← Escaping.readBack]
    cases hImage : e.image c with
    | some d =>
      change (scanString (e.escape value ++ '"' :: text)).map (d :: ·) = _
      rw [ih]
      rfl
    | none =>
      have hQuote : c ≠ '"' := by
        rintro rfl
        cases e.quote.symm.trans hImage
      have hSlash : c ≠ '\\' := by
        rintro rfl
        cases e.backslash.symm.trans hImage
      have hStep : scanString (c :: (e.escape value ++ '"' :: text)) =
          (scanString (e.escape value ++ '"' :: text)).map (c :: ·) := by
        rw [scanString]
        · exact hQuote
        · intro d rest hc
          exact absurd hc hSlash
      change scanString (c :: (e.escape value ++ '"' :: text)) = _
      rw [hStep, ih]
      rfl

theorem takeWhile_digits {digits text : List Char} (hDigits : ∀ c ∈ digits, c.isDigit = true)
    (hText : ∀ c ∈ text.head?, c.isDigit = false) : (digits ++ text).takeWhile Char.isDigit = digits := by
  rw [List.takeWhile_append_of_pos hDigits]
  cases text with
  | nil => simp
  | cons c text =>
    have hHead := hText c rfl
    rw [List.takeWhile_cons_of_neg (by simp [hHead]), List.append_nil]

theorem isDigit_toDigits (n : Nat) : ∀ c ∈ Nat.toDigits 10 n, c.isDigit = true :=
  fun _ hc => Nat.isDigit_of_mem_toDigits (by decide) (by decide) hc

theorem not_space_of_digit {c : Char} (hc : c.isDigit = true) : isSpace c = false := by
  have hBound : 48 ≤ c.val.toNat := by
    simp only [Char.isDigit, Bool.and_eq_true, decide_eq_true_eq, ge_iff_le] at hc
    exact hc.1
  have hSpace : c ≠ ' ' := by
    rintro rfl
    exact absurd hBound (by decide)
  have hRange : ¬ c ≤ '\r' := by
    intro hc
    have : c.val.toNat ≤ 13 := hc
    omega
  simp [isSpace, hSpace, hRange]

theorem signAndDigits_digits {digits text : List Char} (hDigits : ∀ c ∈ digits, c.isDigit = true)
    (hNe : digits ≠ []) (hText : ∀ c ∈ text.head?, c.isDigit = false) :
    signAndDigits (digits ++ text) = (false, digits) := by
  cases digits with
  | nil => exact absurd rfl hNe
  | cons d digits =>
    have hd := hDigits d List.mem_cons_self
    have hMinus : d ≠ '-' := by
      rintro rfl
      exact absurd hd (by decide)
    have hPlus : d ≠ '+' := by
      rintro rfl
      exact absurd hd (by decide)
    rw [List.cons_append, signAndDigits, ← List.cons_append, takeWhile_digits hDigits hText]
    · intro rest hRest
      exact hMinus (List.cons.inj hRest).1
    · intro rest hRest
      exact hPlus (List.cons.inj hRest).1

theorem scanInt64_of_digits {negative : Bool} {digits text : List Char} {n : Int}
    (hText : signAndDigits text = (negative, digits)) (hDigits : digits ≠ [])
    (hn : signedValue negative digits = n) (hRange : IsInt64 n) : scanInt64 text = some n := by
  rw [scanInt64, hText]
  change (if digits = [] ∨ ¬ IsInt64 (signedValue negative digits) then none else _) = _
  rw [hn, if_neg]
  rintro (hNil | hOut)
  · exact hDigits hNil
  · exact hOut hRange

theorem scanInt64_intText {n : Int} (hn : IsInt64 n) {text : List Char}
    (hText : ∀ c ∈ text.head?, c.isDigit = false) : scanInt64 (intText n ++ text) = some n := by
  have hValue : Nat.ofDigitChars 10 (Nat.toDigits 10 n.natAbs) 0 = n.natAbs := Nat.ofDigitChars_ten_toDigits
  rw [intText]
  split
  · rename_i hNegative
    apply @scanInt64_of_digits true (Nat.toDigits 10 n.natAbs) _ _ _ Nat.toDigits_ne_nil _ hn
    · rw [List.cons_append, signAndDigits, takeWhile_digits (isDigit_toDigits _) hText]
    · rw [signedValue, if_pos rfl, hValue]
      omega
  · rename_i hPositive
    apply @scanInt64_of_digits false (Nat.toDigits 10 n.natAbs) _ _ _ Nat.toDigits_ne_nil _ hn
    · exact signAndDigits_digits (isDigit_toDigits _) Nat.toDigits_ne_nil hText
    · rw [signedValue, if_neg (by decide), hValue]
      omega

theorem head_intText (n : Int) : ∃ c text, intText n = c :: text ∧ isSpace c = false := by
  unfold intText
  split
  · exact ⟨'-', _, rfl, by decide⟩
  · cases hDigits : Nat.toDigits 10 n.natAbs with
    | nil => exact absurd hDigits Nat.toDigits_ne_nil
    | cons c text =>
      refine ⟨c, text, rfl, ?_⟩
      exact not_space_of_digit (isDigit_toDigits _ c (hDigits ▸ List.mem_cons_self))

theorem not_mem_intText {c : Char} (hDigit : c.isDigit = false) (hMinus : c ≠ '-') (n : Int) : c ∉ intText n := by
  have hDigits : c ∉ Nat.toDigits 10 n.natAbs := by
    intro hMem
    rw [isDigit_toDigits _ c hMem] at hDigit
    cases hDigit
  unfold intText
  split
  · rw [List.mem_cons, not_or]
    exact ⟨hMinus, hDigits⟩
  · exact hDigits

theorem skipWhitespace_cons {c : Char} (hc : isSpace c = false) (text : List Char) :
    skipWhitespace (c :: text) = c :: text := by
  rw [skipWhitespace, List.dropWhile_cons_of_neg (by simp [hc])]

theorem skipWhitespace_intText (n : Int) (text : List Char) :
    skipWhitespace (intText n ++ text) = intText n ++ text := by
  obtain ⟨c, digits, hText, hc⟩ := head_intText n
  rw [hText, List.cons_append, skipWhitespace_cons hc]

theorem head_renderTail (members : List Member) :
    ∃ c text, renderTail e members = c :: text ∧ (c = ',' ∨ c = '}') := by
  cases members with
  | nil => exact ⟨'}', [], rfl, .inr rfl⟩
  | cons member members => exact ⟨',', _, rfl, .inl rfl⟩

theorem head_renderTail_not_digit (members : List Member) :
    ∀ c ∈ (renderTail e members).head?, c.isDigit = false := by
  intro c hc
  obtain ⟨d, text, hText, hd⟩ := head_renderTail e members
  rw [hText, List.head?_cons, Option.mem_some_iff] at hc
  subst hc
  rcases hd with rfl | rfl <;> decide

theorem afterColon_of_prefix {rest : List Char} {members : List Member} (hRest : rest <+: renderTail e members) :
    afterColon rest = none := by
  cases rest with
  | nil => rfl
  | cons c rest =>
    obtain ⟨d, text, hText, hd⟩ := head_renderTail e members
    rw [hText, List.cons_prefix_cons] at hRest
    obtain rfl := hRest.1
    rw [afterColon]
    obtain rfl | rfl := hd
    · rw [skipWhitespace_cons (by decide)]
      rfl
    · rw [skipWhitespace_cons (by decide)]
      rfl

theorem afterColon_colon (text : List Char) : afterColon (':' :: text) = some (skipWhitespace text) := by
  rw [afterColon, skipWhitespace_cons (by decide)]
  rfl

theorem stringMember_of_found {key text value rest : List Char}
    (hFound : after (quoted key) text = some (':' :: (Member.value e (.text key value) ++ rest))) :
    stringMember key text = e.readBack value := by
  rw [stringMember, hFound, Option.bind_some, afterColon_colon, Option.bind_some, Member.value, List.cons_append,
    skipWhitespace_cons (by decide), openString, List.append_assoc]
  change (scanString (e.escape value ++ '"' :: rest)).getD [] = _
  rw [scanString_escape, Option.getD_some]

theorem stringMember_of_shadow {key text rest : List Char} {members : List Member}
    (hFound : after (quoted key) text = some rest) (hRest : rest <+: renderTail e members) :
    stringMember key text = [] := by
  rw [stringMember, hFound, Option.bind_some, afterColon_of_prefix e hRest]
  rfl

theorem after_char_self (c : Char) (text : List Char) : after [c] (c :: text) = some text := by
  simp [after]

theorem after_char_append {c : Char} {segment : List Char} (hSegment : c ∉ segment) (text : List Char) :
    after [c] (segment ++ text) = after [c] text := by
  induction segment with
  | nil => rfl
  | cons d segment ih =>
    rw [List.mem_cons, not_or] at hSegment
    rw [List.cons_append, after, if_neg (by simpa using hSegment.1), ih hSegment.2]

/-- A character that is neither escaped nor written for another is first met where the value has it. -/
theorem after_char_escape {c : Char} (hPlain : e.image c = none) (hImage : ∀ d, e.image d ≠ some c)
    (value text : List Char) :
    after [c] (e.escape value ++ text) =
      match after [c] value with
      | some rest => some (e.escape rest ++ text)
      | none => after [c] text := by
  induction value with
  | nil => rfl
  | cons d value ih =>
    rw [Escaping.escape_cons, List.append_assoc]
    by_cases hd : c = d
    · subst hd
      rw [Escaping.escapeChar, hPlain, after_char_self]
      exact after_char_self c _
    · have hFree : c ∉ e.escapeChar d := by
        unfold Escaping.escapeChar
        cases hImaged : e.image d with
        | none => simpa using hd
        | some i =>
          have hi : c ≠ i := by
            rintro rfl
            exact hImage d hImaged
          have hSlash : c ≠ '\\' := by
            rintro rfl
            cases e.backslash.symm.trans hPlain
          simp [hi, hSlash]
      have hHere : after [c] (d :: value) = after [c] value :=
        @after_char_append c [d] (by simpa using hd) value
      rw [after_char_append hFree, ih, hHere]

def IsCut (cut : List Char) : Prop := cut = [] ∨ cut = ['}']

theorem after_cut {needle cut : List Char} (hNe : needle ≠ []) (hNeedle : '}' ∉ needle) (hCut : IsCut cut)
    (view : List Char) : after needle (view ++ cut) = (after needle view).map (· ++ cut) := by
  obtain rfl | rfl := hCut
  · rw [List.append_nil]
    cases after needle view <;> simp
  · induction view with
    | nil =>
      cases needle with
      | nil => exact absurd rfl hNe
      | cons c needle =>
        rw [List.mem_cons, not_or] at hNeedle
        have hHead : c ≠ '}' := Ne.symm hNeedle.1
        simp [after, List.isPrefixOf, hHead]
    | cons d view ih =>
      have hPrefix : needle <+: d :: view ++ ['}'] ↔ needle <+: d :: view := by
        rw [List.prefix_concat_iff]
        constructor
        · rintro (rfl | hHere)
          · exact absurd (List.mem_append_right _ List.mem_cons_self) hNeedle
          · exact hHere
        · exact .inr
      by_cases hHere : needle <+: d :: view
      · have hDrop : (d :: view ++ ['}']).drop needle.length = (d :: view).drop needle.length ++ ['}'] :=
          List.drop_append_of_le_length hHere.length_le
        rw [List.cons_append, after, ← List.cons_append, if_pos (List.isPrefixOf_iff_prefix.mpr (hPrefix.mpr hHere)),
          after, if_pos (List.isPrefixOf_iff_prefix.mpr hHere), hDrop]
        rfl
      · have hMiss : ¬ needle <+: d :: view ++ ['}'] := fun h => hHere (hPrefix.mp h)
        rw [List.cons_append, after, ← List.cons_append,
          if_neg (fun h => hMiss (List.isPrefixOf_iff_prefix.mp h)), ih, after,
          if_neg (fun h => hHere (List.isPrefixOf_iff_prefix.mp h))]

theorem renderTail_eq_snoc (members : List Member) : ∃ body, renderTail e members = body ++ ['}'] := by
  induction members with
  | nil => exact ⟨[], rfl⟩
  | cons member members ih =>
    obtain ⟨body, hBody⟩ := ih
    refine ⟨',' :: (quoted member.key ++ ':' :: (member.value e ++ body)), ?_⟩
    rw [renderTail, hBody]
    simp

theorem exists_cut {front rest cut : List Char} (hCut : IsCut cut) (members : List Member)
    (hRest : rest ++ cut = front ++ renderTail e members) : ∃ body, rest = front ++ body := by
  obtain rfl | rfl := hCut
  · exact ⟨_, by rw [← hRest, List.append_nil]⟩
  · obtain ⟨body, hBody⟩ := renderTail_eq_snoc e members
    rw [hBody, ← List.append_assoc] at hRest
    exact ⟨body, List.append_cancel_right hRest⟩

theorem length_le_of_after {needle view rest : List Char} (hFound : after needle view = some rest) :
    needle.length ≤ view.length := by
  induction view with
  | nil =>
    rw [after] at hFound
    split at hFound
    · rename_i hPrefix
      exact (List.isPrefixOf_iff_prefix.mp hPrefix).length_le
    · cases hFound
  | cons c view ih =>
    rw [after] at hFound
    split at hFound
    · rename_i hPrefix
      exact (List.isPrefixOf_iff_prefix.mp hPrefix).length_le
    · have hTail := ih hFound
      rw [List.length_cons]
      omega

theorem after_append_some {needle view rest : List Char} (hFound : after needle view = some rest) (more : List Char) :
    after needle (view ++ more) = some (rest ++ more) := by
  induction view with
  | nil =>
    rw [after] at hFound
    split at hFound
    · rename_i hPrefix
      obtain rfl := Option.some.inj hFound
      cases needle with
      | nil => cases more <;> rfl
      | cons c needle => cases hPrefix
    · cases hFound
  | cons c view ih =>
    rw [after] at hFound
    split at hFound
    · rename_i hHere
      have hPrefix := List.isPrefixOf_iff_prefix.mp hHere
      have hLonger : needle.isPrefixOf (c :: (view ++ more)) = true :=
        List.isPrefixOf_iff_prefix.mpr (hPrefix.trans (List.prefix_append (c :: view) more))
      obtain rfl := Option.some.inj hFound
      rw [List.cons_append, after, if_pos hLonger, ← List.cons_append, List.drop_append_of_le_length hPrefix.length_le]
    · rename_i hMiss
      -- a longer text offers no earlier match: the needle fits into the view
      have hFits := length_le_of_after hFound
      have hLonger : ¬ needle.isPrefixOf (c :: (view ++ more)) = true := by
        intro hPrefix
        rw [List.isPrefixOf_iff_prefix] at hPrefix
        apply hMiss
        rw [List.isPrefixOf_iff_prefix]
        apply List.prefix_of_prefix_length_le hPrefix (List.prefix_append (c :: view) more)
        rw [List.length_cons]
        omega
      rw [List.cons_append, after, if_neg hLonger, ih hFound]

theorem scanString_append_some {view value : List Char} (hFound : scanString view = some value) (more : List Char) :
    scanString (view ++ more) = some value := by
  fun_induction scanString view generalizing value with
  | case1 => cases hFound
  | case2 text => exact hFound
  | case3 c text ih =>
    obtain ⟨rest, hRest, rfl⟩ := Option.map_eq_some_iff.mp hFound
    change (scanString (text ++ more)).map (c :: ·) = _
    rw [ih hRest]
    rfl
  | case4 c text hQuote hSlash ih =>
    obtain ⟨rest, hRest, rfl⟩ := Option.map_eq_some_iff.mp hFound
    have hPlain : c ≠ '\\' := by
      rintro rfl
      cases text with
      | nil => cases hRest
      | cons d text => exact hSlash d text rfl rfl
    rw [List.cons_append, scanString, ih hRest]
    · rfl
    · exact hQuote
    · intro d tail hc
      exact absurd hc hPlain

theorem skipWhitespace_append {view rest : List Char} {c : Char} (hView : skipWhitespace view = c :: rest)
    (more : List Char) : skipWhitespace (view ++ more) = c :: (rest ++ more) := by
  rw [skipWhitespace] at hView ⊢
  rw [List.dropWhile_append, if_neg, hView, List.cons_append]
  rw [hView]
  simp

theorem openString_append_some {view value : List Char}
    (hFound : (afterColon view).bind openString = some value) (more : List Char) :
    (afterColon (view ++ more)).bind openString = some value := by
  obtain ⟨rest, hColon, hOpen⟩ := Option.bind_eq_some_iff.mp hFound
  unfold openString at hOpen
  split at hOpen
  · rename_i text
    unfold afterColon at hColon
    split at hColon
    · rename_i tail hTail
      have hQuote : skipWhitespace tail = '"' :: text := Option.some.inj hColon
      have hLonger : afterColon (view ++ more) = some ('"' :: (text ++ more)) := by
        rw [afterColon, skipWhitespace_append hTail]
        change some (skipWhitespace (tail ++ more)) = _
        rw [skipWhitespace_append hQuote]
      rw [hLonger, Option.bind_some]
      exact scanString_append_some hOpen more
    · cases hColon
  · cases hOpen

theorem stringMember_prefix (key view more : List Char) :
    stringMember key view = [] ∨ stringMember key view = stringMember key (view ++ more) := by
  unfold stringMember
  cases hFound : after (quoted key) view with
  | none => exact .inl rfl
  | some rest =>
    rw [after_append_some hFound, Option.bind_some, Option.bind_some]
    cases hValue : (afterColon rest).bind openString with
    | none => exact .inl rfl
    | some value => exact .inr (by rw [openString_append_some hValue])

end Readers

end EdgeGateway.QuotedText
