import EdgeGateway.Foundation.Numerals

/-! # Decimal numbers as they are written

`strtod` takes exactly the text of a number with sign, digits and exponent and gives the double
nearest to its value; a whole number of at most 53 bits is that double.
-/

namespace EdgeGateway.DecimalNumbers

open QuotedText Numerals

structure Exponent where
  capital : Bool
  sign : Option Bool
  digits : List Char
  digits_ne : digits ≠ []
  isDigit : ∀ c ∈ digits, c.isDigit = true

/-- A number without a sign. Digits may be missing on one side of the point, but not on both. -/
structure NumberLiteral where
  integral : List Char
  fraction : Option (List Char)
  exponent : Option Exponent
  digits_ne : integral ++ fraction.getD [] ≠ []
  isDigit : ∀ c ∈ integral ++ fraction.getD [], c.isDigit = true

structure DecimalNumber where
  negative : Bool
  integral : List Char
  fraction : List Char
  exponent : Option Exponent
  integral_ne : integral ≠ []
  integral_isDigit : ∀ c ∈ integral, c.isDigit = true
  fraction_isDigit : ∀ c ∈ fraction, c.isDigit = true

namespace Exponent

variable (self : Exponent)

def marker : Char := if self.capital then 'E' else 'e'

def signText : List Char :=
  match self.sign with
  | none => []
  | some true => ['-']
  | some false => ['+']

def text : List Char := self.marker :: (self.signText ++ self.digits)

def value : Int := signedValue (self.sign == some true) self.digits

end Exponent

namespace NumberLiteral

variable (self : NumberLiteral)

def fractionText : List Char := (self.fraction.map (['.'] ++ ·)).getD []

def exponentText : List Char := (self.exponent.map Exponent.text).getD []

def text : List Char := self.integral ++ (self.fractionText ++ self.exponentText)

def power : Int := (self.exponent.map Exponent.value).getD 0

def numerator : Nat := Nat.ofDigitChars 10 (self.integral ++ self.fraction.getD []) 0 * 10 ^ self.power.toNat

def denominator : Nat := 10 ^ (self.fraction.getD []).length * 10 ^ (-self.power).toNat

def double : BitVec 64 := nearestOrLimit false self.numerator self.denominator

end NumberLiteral

namespace DecimalNumber

variable (self : DecimalNumber)

def exponentText : List Char := (self.exponent.map Exponent.text).getD []

def fractionText : List Char := if self.fraction = [] then [] else '.' :: self.fraction

def unsigned (rest : List Char) : List Char := self.integral ++ (self.fractionText ++ (self.exponentText ++ rest))

def text (rest : List Char) : List Char := (if self.negative then ['-'] else []) ++ self.unsigned rest

def power : Int := (self.exponent.map Exponent.value).getD 0

def numerator : Nat := Nat.ofDigitChars 10 (self.integral ++ self.fraction) 0 * 10 ^ self.power.toNat

def denominator : Nat := 10 ^ self.fraction.length * 10 ^ (-self.power).toNat

def Equals (n : Int) : Prop := (if self.negative then -(self.numerator : Int) else self.numerator) = n * self.denominator

instance (n : Int) : Decidable (self.Equals n) := inferInstanceAs (Decidable (_ = _))

def double : BitVec 64 := nearestOrLimit self.negative self.numerator self.denominator

end DecimalNumber

theorem DecimalNumber.text_append (number : DecimalNumber) (rest : List Char) :
    number.text [] ++ rest = number.text rest := by
  rw [text, text, unsigned, unsigned, List.append_nil, List.append_assoc, List.append_assoc, List.append_assoc]

theorem digits_not_mem {digits : List Char} {c : Char} (hDigits : ∀ d ∈ digits, d.isDigit = true)
    (hc : c.isDigit = false) : c ∉ digits := by
  intro hMem
  rw [hDigits c hMem] at hc
  cases hc

theorem DecimalNumber.quote_not_mem (number : DecimalNumber) : '"' ∉ number.text [] := by
  have hSign : '"' ∉ if number.negative then ['-'] else [] := by
    split <;> decide
  have hFraction : '"' ∉ number.fractionText := by
    rw [fractionText]
    split
    · exact List.not_mem_nil
    · rw [List.mem_cons, not_or]
      exact ⟨by decide, digits_not_mem number.fraction_isDigit (by decide)⟩
  have hExponent : '"' ∉ number.exponentText := by
    rw [exponentText]
    cases number.exponent with
    | none => exact List.not_mem_nil
    | some exponent =>
      have hMarker : '"' ≠ exponent.marker := by
        rw [Exponent.marker]
        split <;> decide
      have hSignText : '"' ∉ exponent.signText := by
        rw [Exponent.signText]
        split <;> decide
      rw [Option.map_some, Option.getD_some, Exponent.text, List.mem_cons, List.mem_append, not_or, not_or]
      exact ⟨hMarker, hSignText, digits_not_mem exponent.isDigit (by decide)⟩
  rw [text, unsigned, List.mem_append, List.mem_append, List.mem_append, List.mem_append, not_or, not_or, not_or, not_or]
  exact ⟨hSign, digits_not_mem number.integral_isDigit (by decide), hFraction, hExponent, List.not_mem_nil⟩

def Ends (rest : List Char) : Prop :=
  ∀ c ∈ rest.head?, c.isDigit = false ∧ c ≠ '.' ∧ c.toLower ≠ 'e' ∧ c.toLower ≠ 'x'

section Scanning

variable {digits rest : List Char}

theorem toLower_of_digit {c : Char} (hc : c.isDigit = true) : c.toLower = c := by
  refine dif_neg ?_
  intro hUpper
  have hDigit : c.val.toNat ≤ 57 := by
    simp only [Char.isDigit, Bool.and_eq_true, decide_eq_true_eq, ge_iff_le] at hc
    exact hc.2
  have hLetter : 65 ≤ c.val.toNat := hUpper.1
  omega

theorem dropWhile_digits (hDigits : ∀ c ∈ digits, c.isDigit = true) (hRest : ∀ c ∈ rest.head?, c.isDigit = false) :
    (digits ++ rest).dropWhile Char.isDigit = rest := by
  rw [List.dropWhile_append_of_pos hDigits]
  cases rest with
  | nil => rfl
  | cons c rest => rw [List.dropWhile_cons_of_neg (by rw [hRest c rfl]; exact Bool.false_ne_true)]

theorem foldl_hexValue (hDigits : ∀ c ∈ digits, c.isDigit = true) :
    digits.foldl (fun n c => n * 10 + hexValue c) 0 = Nat.ofDigitChars 10 digits 0 := by
  rw [Nat.ofDigitChars]
  apply List.foldl_ext
  intro n c hc
  rw [hexValue, if_pos (hDigits c hc), Nat.mul_comm]

theorem Ends.not_digit (h : Ends rest) : ∀ c ∈ rest.head?, c.isDigit = false := fun c hc => (h c hc).1

end Scanning

section Strtod

variable {rest : List Char}

theorem exponent_head (exponent : Option Exponent) (hRest : Ends rest) :
    ∀ c ∈ ((exponent.map Exponent.text).getD [] ++ rest).head?, c.isDigit = false ∧ c ≠ '.' ∧ c.toLower ≠ 'x' := by
  cases exponent with
  | none =>
    intro c hc
    obtain ⟨hDigit, hPoint, -, hHex⟩ := hRest c hc
    exact ⟨hDigit, hPoint, hHex⟩
  | some exponent =>
    intro c hc
    have hMarker : exponent.marker = c := Option.some.inj hc
    rw [← hMarker, Exponent.marker]
    split <;> decide

theorem withoutSign_of_ne {d : Char} (hMinus : d ≠ '-') (hPlus : d ≠ '+') (text : List Char) :
    (match d :: text with
      | '-' :: body => body
      | '+' :: body => body
      | body => body) = d :: text := by
  split
  · rename_i hEq
    exact absurd (List.cons.inj hEq).1 hMinus
  · rename_i hEq
    exact absurd (List.cons.inj hEq).1 hPlus
  · rfl

theorem head_ne_minus {d : Char} (hMinus : d ≠ '-') (text : List Char) :
    ((d :: text).head? == some '-') = false :=
  beq_false_of_ne fun hEq => hMinus (Option.some.inj hEq)

theorem ne_of_digit {c d : Char} (hd : d.isDigit = true) (hc : c.isDigit = false) : d ≠ c := by
  rintro rfl
  rw [hd] at hc
  cases hc

theorem exponentPart_cons {marker c : Char} {body unsigned : List Char} {negative : Bool}
    (hUnsigned : (match body with
      | '-' :: body => body
      | '+' :: body => body
      | body => body) = unsigned) (hNegative : (body.head? == some '-') = negative) :
    exponentPart marker (c :: body) =
      if c.toLower ≠ marker ∨ unsigned.takeWhile Char.isDigit = [] then (0, c :: body)
      else (signedValue negative (unsigned.takeWhile Char.isDigit), unsigned.dropWhile Char.isDigit) := by
  subst hNegative hUnsigned
  rfl

theorem exponentPart_text (exponent : Exponent) (hRest : Ends rest) :
    exponentPart 'e' (exponent.text ++ rest) = (exponent.value, rest) := by
  have hMarker : exponent.marker.toLower = 'e' := by
    rw [Exponent.marker]
    split <;> rfl
  have hTake := takeWhile_digits exponent.isDigit hRest.not_digit
  have hDrop := dropWhile_digits exponent.isDigit hRest.not_digit
  have hParts : ((exponent.signText ++ (exponent.digits ++ rest)).head? == some '-') = (exponent.sign == some true) ∧
      (match exponent.signText ++ (exponent.digits ++ rest) with
        | '-' :: body => body
        | '+' :: body => body
        | body => body) = exponent.digits ++ rest := by
    obtain ⟨d, digits, hDigits⟩ := List.exists_cons_of_ne_nil exponent.digits_ne
    have hd : d.isDigit = true := exponent.isDigit d (hDigits ▸ List.mem_cons_self)
    have hMinus : d ≠ '-' := ne_of_digit hd (by decide)
    rw [Exponent.signText, hDigits]
    cases exponent.sign with
    | none => exact ⟨head_ne_minus hMinus _, withoutSign_of_ne hMinus (ne_of_digit hd (by decide)) _⟩
    | some minus => cases minus <;> exact ⟨rfl, rfl⟩
  rw [Exponent.text, List.cons_append, List.append_assoc, exponentPart_cons hParts.2 hParts.1, hTake, hDrop,
    if_neg (not_or.mpr ⟨not_not.mpr hMarker, exponent.digits_ne⟩)]
  rfl

theorem exponentPart_optional (exponent : Option Exponent) (hRest : Ends rest) :
    exponentPart 'e' ((exponent.map Exponent.text).getD [] ++ rest) = ((exponent.map Exponent.value).getD 0, rest) := by
  cases exponent with
  | none =>
    cases rest with
    | nil => rfl
    | cons c rest =>
      rw [Option.map_none, Option.getD_none, List.nil_append, exponentPart_cons rfl rfl]
      exact if_pos (.inl (hRest c rfl).2.2.1)
  | some exponent => exact exponentPart_text exponent hRest

theorem magnitudePart_of_parts {negative : Bool} {text integral behind fractional tail : List Char}
    (hParts : (match behind with
        | '.' :: rest => rest.takeWhile Char.isDigit
        | _ => []) = fractional ∧
      (match behind with
        | '.' :: rest => rest.dropWhile Char.isDigit
        | rest => rest) = tail)
    (hTake : text.takeWhile Char.isDigit = integral) (hDrop : text.dropWhile Char.isDigit = behind) :
    magnitudePart false negative text =
      if integral ++ fractional = [] then none
      else
        some (nearestOrLimit negative
          ((integral ++ fractional).foldl (fun n c => n * 10 + hexValue c) 0 * 10 ^ (exponentPart 'e' tail).1.toNat)
          (10 ^ fractional.length * 10 ^ (-(exponentPart 'e' tail).1).toNat), (exponentPart 'e' tail).2) := by
  obtain ⟨rfl, rfl⟩ := hParts
  subst hTake hDrop
  rfl

section Literals

variable (literal : NumberLiteral)

theorem literal_append (rest : List Char) :
    literal.text ++ rest = literal.integral ++ (literal.fractionText ++ (literal.exponentText ++ rest)) := by
  rw [NumberLiteral.text, List.append_assoc, List.append_assoc]

theorem fractionText_head (hRest : Ends rest) :
    ∀ c ∈ (literal.fractionText ++ (literal.exponentText ++ rest)).head?, c.isDigit = false ∧ c.toLower ≠ 'x' := by
  rw [NumberLiteral.fractionText]
  cases literal.fraction with
  | none =>
    intro c hc
    obtain ⟨hDigit, -, hHex⟩ := exponent_head literal.exponent hRest c hc
    exact ⟨hDigit, hHex⟩
  | some fraction =>
    intro c hc
    obtain rfl : '.' = c := Option.some.inj hc
    decide

theorem magnitudePart_literal (hRest : Ends rest) (negative : Bool) :
    magnitudePart false negative (literal.text ++ rest) =
      some (nearestOrLimit negative literal.numerator literal.denominator, rest) := by
  have hIntegral : ∀ c ∈ literal.integral, c.isDigit = true := fun c hc =>
    literal.isDigit c (List.mem_append_left _ hc)
  have hTake : (literal.text ++ rest).takeWhile Char.isDigit = literal.integral := by
    rw [literal_append]
    exact takeWhile_digits hIntegral fun c hc => (fractionText_head literal hRest c hc).1
  have hDrop : (literal.text ++ rest).dropWhile Char.isDigit =
      literal.fractionText ++ (literal.exponentText ++ rest) := by
    rw [literal_append]
    exact dropWhile_digits hIntegral fun c hc => (fractionText_head literal hRest c hc).1
  have hHead : ∀ c ∈ (literal.exponentText ++ rest).head?, c.isDigit = false ∧ c ≠ '.' ∧ c.toLower ≠ 'x' :=
    exponent_head literal.exponent hRest
  have hParts : (match literal.fractionText ++ (literal.exponentText ++ rest) with
        | '.' :: rest => rest.takeWhile Char.isDigit
        | _ => []) = literal.fraction.getD [] ∧
      (match literal.fractionText ++ (literal.exponentText ++ rest) with
        | '.' :: rest => rest.dropWhile Char.isDigit
        | rest => rest) = literal.exponentText ++ rest := by
    have hFraction : ∀ c ∈ literal.fraction.getD [], c.isDigit = true := fun c hc =>
      literal.isDigit c (List.mem_append_right _ hc)
    rw [NumberLiteral.fractionText]
    cases hPoint : literal.fraction with
    | none =>
      rw [Option.map_none, Option.getD_none, List.nil_append]
      constructor
      · split
        · rename_i tail hTail
          rw [hTail] at hHead
          exact absurd rfl (hHead '.' rfl).2.1
        · rfl
      · split
        · rename_i tail hTail
          rw [hTail] at hHead
          exact absurd rfl (hHead '.' rfl).2.1
        · rfl
    | some fraction =>
      rw [hPoint] at hFraction
      exact ⟨takeWhile_digits hFraction fun c hc => (hHead c hc).1, dropWhile_digits hFraction fun c hc => (hHead c hc).1⟩
  rw [magnitudePart_of_parts hParts hTake hDrop, if_neg literal.digits_ne, foldl_hexValue literal.isDigit,
    NumberLiteral.exponentText, exponentPart_optional literal.exponent hRest]
  rfl

theorem literal_head (hRest : Ends rest) :
    ∃ d text, literal.text ++ rest = d :: text ∧ (d.isDigit = true ∨ d = '.') ∧ ∀ c ∈ text.head?, c.toLower ≠ 'x' := by
  have hNotHex {c : Char} (hc : c.isDigit = true) : c.toLower ≠ 'x' := by
    rw [toLower_of_digit hc]
    exact ne_of_digit hc (by decide)
  have hHead := fractionText_head literal hRest
  have hDigits := literal.isDigit
  have hSome := literal.digits_ne
  rw [literal_append]
  cases hIntegral : literal.integral with
  | nil =>
    rw [hIntegral, List.nil_append] at hDigits hSome
    cases hFraction : literal.fraction with
    | none =>
      rw [hFraction] at hSome
      exact absurd rfl hSome
    | some fraction =>
      rw [hFraction, Option.getD_some] at hDigits hSome
      obtain ⟨d, digits, rfl⟩ := List.exists_cons_of_ne_nil hSome
      rw [NumberLiteral.fractionText, hFraction]
      refine ⟨'.', d :: digits ++ (literal.exponentText ++ rest), rfl, .inr rfl, fun c hc => ?_⟩
      obtain rfl : d = c := Option.some.inj hc
      exact hNotHex (hDigits d List.mem_cons_self)
  | cons d digits =>
    rw [hIntegral] at hDigits
    refine ⟨d, digits ++ (literal.fractionText ++ (literal.exponentText ++ rest)), rfl,
      .inl (hDigits d List.mem_cons_self), ?_⟩
    cases digits with
    | nil => exact fun c hc => (hHead c hc).2
    | cons e digits =>
      intro c hc
      obtain rfl : e = c := Option.some.inj hc
      exact hNotHex (hDigits e (List.mem_cons_of_mem d List.mem_cons_self))

end Literals

theorem startsWithIgnoringCase_of_ne {d : Char} (hd : d.toLower = d) {w : Char} {word text : List Char}
    (hWord : w ≠ d) : startsWithIgnoringCase (w :: word) (d :: text) = false := by
  rw [startsWithIgnoringCase, List.length_cons, List.take_succ_cons, List.map_cons, hd]
  exact beq_false_of_ne fun hEq => hWord (List.cons.inj hEq).1.symm

theorem isHexNumber_of_second {d : Char} {body : List Char} (hSecond : ∀ c ∈ body.head?, c.toLower ≠ 'x') :
    isHexNumber (d :: body) = false := by
  rw [isHexNumber, Bool.and_eq_false_iff]
  left
  apply beq_false_of_ne
  cases body with
  | nil =>
    intro hEq
    cases congrArg List.length hEq
  | cons c body =>
    intro hEq
    exact hSecond c rfl (List.cons.inj (List.cons.inj hEq).2).1

theorem strtod_of_parts {text skipped body : List Char} {negative : Bool}
    (hBody : (match skipped with
      | '-' :: body => body
      | '+' :: body => body
      | body => body) = body)
    (hNegative : (skipped.head? == some '-') = negative) (hSkip : skipWhitespace text = skipped) :
    strtod text =
      let sign := if negative then 2 ^ 63 else 0
      if startsWithIgnoringCase "infinity".toList body then some (BitVec.ofNat 64 (sign + 2047 * 2 ^ 52), body.drop 8)
      else if startsWithIgnoringCase "inf".toList body then some (BitVec.ofNat 64 (sign + 2047 * 2 ^ 52), body.drop 3)
      else if startsWithIgnoringCase "nan".toList body then
        some (BitVec.ofNat 64 (sign + 2047 * 2 ^ 52 + 2 ^ 51), afterNan (body.drop 3))
      else magnitudePart (isHexNumber body) negative (if isHexNumber body then body.drop 2 else body) := by
  subst hSkip hNegative hBody
  rfl

/-- Where a number in base ten starts, `strtod` reads a magnitude. -/
theorem strtod_of_head {text skipped body : List Char} {negative : Bool} {d : Char}
    (hBody : (match skipped with
      | '-' :: body => body
      | '+' :: body => body
      | body => body) = d :: body)
    (hNegative : (skipped.head? == some '-') = negative) (hSkip : skipWhitespace text = skipped)
    (hd : d.isDigit = true ∨ d = '.') (hSecond : ∀ c ∈ body.head?, c.toLower ≠ 'x') :
    strtod text = magnitudePart false negative (d :: body) := by
  have hFirst : d.toLower = d ∧ 'i' ≠ d ∧ 'n' ≠ d := by
    obtain hd | rfl := hd
    · exact ⟨toLower_of_digit hd, (ne_of_digit hd (by decide)).symm, (ne_of_digit hd (by decide)).symm⟩
    · decide
  obtain ⟨hLower, hi, hn⟩ := hFirst
  have hHex := isHexNumber_of_second (d := d) hSecond
  rw [strtod_of_parts hBody hNegative hSkip]
  dsimp only
  rw [if_neg, if_neg, if_neg, hHex, if_neg Bool.false_ne_true]
  · exact Bool.eq_false_iff.mp (startsWithIgnoringCase_of_ne hLower hn)
  · exact Bool.eq_false_iff.mp (startsWithIgnoringCase_of_ne hLower hi)
  · exact Bool.eq_false_iff.mp (startsWithIgnoringCase_of_ne hLower hi)

theorem strtod_literal (literal : NumberLiteral) (hRest : Ends rest) :
    strtod (literal.text ++ rest) = some (literal.double, rest) := by
  obtain ⟨d, text, hText, hd, hSecond⟩ := literal_head literal hRest
  have hSign : d ≠ '-' ∧ d ≠ '+' ∧ isSpace d = false := by
    obtain hd | rfl := hd
    · exact ⟨ne_of_digit hd (by decide), ne_of_digit hd (by decide), not_space_of_digit hd⟩
    · decide
  obtain ⟨hMinus, hPlus, hSpace⟩ := hSign
  have hMagnitude := magnitudePart_literal literal hRest false
  rw [hText] at hMagnitude
  rw [hText, strtod_of_head (withoutSign_of_ne hMinus hPlus text) (head_ne_minus hMinus text)
    (skipWhitespace_cons hSpace text) hd hSecond, hMagnitude]
  rfl

section SignedNumbers

variable (number : DecimalNumber)

def DecimalNumber.literal : NumberLiteral where
  integral := number.integral
  fraction := if number.fraction = [] then none else some number.fraction
  exponent := number.exponent
  digits_ne := List.append_ne_nil_of_left_ne_nil number.integral_ne _
  isDigit := by
    refine List.forall_mem_append.mpr ⟨number.integral_isDigit, ?_⟩
    split
    · exact List.forall_mem_nil _
    · exact number.fraction_isDigit

theorem literal_fraction : number.literal.fraction.getD [] = number.fraction := by
  rw [DecimalNumber.literal]
  split
  · rename_i hNone
    exact hNone.symm
  · rfl

theorem unsigned_eq (rest : List Char) : number.unsigned rest = number.literal.text ++ rest := by
  have hFraction : number.fractionText = number.literal.fractionText := by
    rw [DecimalNumber.fractionText, NumberLiteral.fractionText, DecimalNumber.literal]
    split <;> rfl
  rw [DecimalNumber.unsigned, literal_append, hFraction]
  rfl

theorem magnitudePart_unsigned (hRest : Ends rest) (negative : Bool) :
    magnitudePart false negative (number.unsigned rest) =
      some (nearestOrLimit negative number.numerator number.denominator, rest) := by
  have hNumerator : number.literal.numerator = number.numerator := by
    rw [NumberLiteral.numerator, literal_fraction]
    rfl
  have hDenominator : number.literal.denominator = number.denominator := by
    rw [NumberLiteral.denominator, literal_fraction]
    rfl
  rw [unsigned_eq, magnitudePart_literal number.literal hRest, hNumerator, hDenominator]

theorem unsigned_head (hRest : Ends rest) :
    ∃ d text, number.unsigned rest = d :: text ∧ d.isDigit = true ∧ ∀ c ∈ text.head?, c.toLower ≠ 'x' := by
  obtain ⟨d, text, hText, -, hSecond⟩ := literal_head number.literal hRest
  obtain ⟨c, digits, hDigits⟩ := List.exists_cons_of_ne_nil number.integral_ne
  have hHead : number.unsigned rest = d :: text := by rw [unsigned_eq, hText]
  have hFirst := hHead
  rw [DecimalNumber.unsigned, hDigits] at hFirst
  have hc : c.isDigit = true := number.integral_isDigit c (hDigits ▸ List.mem_cons_self)
  exact ⟨d, text, hHead, (List.cons.inj hFirst).1 ▸ hc, hSecond⟩

theorem text_head (hRest : Ends rest) :
    ∃ d tail, number.text rest = d :: tail ∧ (d = '-' ∨ d.isDigit = true) ∧ isSpace d = false := by
  obtain ⟨d, tail, hText, hd, -⟩ := unsigned_head number hRest
  rw [DecimalNumber.text, hText]
  cases number.negative with
  | true => exact ⟨'-', d :: tail, rfl, .inl rfl, by decide⟩
  | false => exact ⟨d, tail, rfl, .inr hd, not_space_of_digit hd⟩

theorem strtod_text (hRest : Ends rest) : strtod (number.text rest) = some (number.double, rest) := by
  obtain ⟨d, text, hText, hd, hSecond⟩ := unsigned_head number hRest
  have hMinus : d ≠ '-' := ne_of_digit hd (by decide)
  have hSkip : skipWhitespace (number.text rest) = number.text rest := by
    obtain ⟨c, tail, hHead, -, hSpace⟩ := text_head number hRest
    rw [hHead]
    exact skipWhitespace_cons hSpace tail
  have hNegative : ((number.text rest).head? == some '-') = number.negative := by
    rw [DecimalNumber.text, hText]
    cases number.negative with
    | true => rfl
    | false => exact head_ne_minus hMinus text
  have hBody : (match number.text rest with
      | '-' :: body => body
      | '+' :: body => body
      | body => body) = d :: text := by
    rw [DecimalNumber.text, hText]
    cases number.negative with
    | true => rfl
    | false => exact withoutSign_of_ne hMinus (ne_of_digit hd (by decide)) text
  have hMagnitude := magnitudePart_unsigned number hRest number.negative
  rw [hText] at hMagnitude
  rw [strtod_of_head hBody hNegative hSkip (.inl hd) hSecond, hMagnitude]
  rfl

end SignedNumbers

end Strtod

section WholeNumbers

variable {numerator denominator k : Nat}

theorem roundHalfEven_exact (q : Nat) {d : Nat} (hd : 0 < d) : roundHalfEven (q * d) d = q := by
  rw [roundHalfEven, Nat.mul_mod_left, Nat.mul_div_cancel q hd, Nat.mul_zero]
  exact if_pos (.inl hd)

theorem log2_mul_two_pow (hk : 0 < k) (n : Nat) : (k * 2 ^ n).log2 = k.log2 + n := by
  have hNe : k ≠ 0 := Nat.ne_of_gt hk
  have hPow : 0 < 2 ^ n := Nat.two_pow_pos n
  rw [Nat.log2_eq_iff (Nat.ne_of_gt (Nat.mul_pos hk hPow))]
  constructor
  · rw [Nat.pow_add]
    exact Nat.mul_le_mul_right _ (Nat.log2_self_le hNe)
  · rw [Nat.add_right_comm, Nat.pow_add]
    exact (Nat.mul_lt_mul_right hPow).mpr Nat.lt_log2_self

theorem units_ofNat {e m : Nat} (negative : Bool) (he : e < 2046) (hLow : 2 ^ 52 ≤ m) (hHigh : m < 2 ^ 53) :
    units (BitVec.ofNat 64 ((if negative then 2 ^ 63 else 0) + (e * 2 ^ 52 + m))) = m * 2 ^ e ∧
      isNegative (BitVec.ofNat 64 ((if negative then 2 ^ 63 else 0) + (e * 2 ^ 52 + m))) = negative := by
  have hBits : (BitVec.ofNat 64 ((if negative then 2 ^ 63 else 0) + (e * 2 ^ 52 + m))).toNat =
      (if negative then 2 ^ 63 else 0) + (e * 2 ^ 52 + m) := by
    rw [BitVec.toNat_ofNat, Nat.mod_eq_of_lt]
    split <;> omega
  have hExponent : exponent (BitVec.ofNat 64 ((if negative then 2 ^ 63 else 0) + (e * 2 ^ 52 + m))) = e + 1 := by
    rw [exponent, hBits]
    split <;> omega
  have hFraction : fraction (BitVec.ofNat 64 ((if negative then 2 ^ 63 else 0) + (e * 2 ^ 52 + m))) = m - 2 ^ 52 := by
    rw [fraction, hBits]
    split <;> omega
  constructor
  · rw [units, hExponent, hFraction, if_neg (Nat.succ_ne_zero e), Nat.add_sub_cancel, Nat.add_sub_cancel' hLow]
  · rw [isNegative, BitVec.msb_eq_decide, hBits]
    cases negative with
    | true => exact decide_eq_true (Nat.le_add_right _ _)
    | false =>
      apply decide_eq_false
      rw [if_neg Bool.false_ne_true]
      omega

theorem nearestOrLimit_of_parts {negative : Bool} {shift rounded : Nat}
    (hShift : (numerator * 2 ^ 1074 / denominator).log2 - 52 = shift)
    (hRounded : roundHalfEven (numerator * 2 ^ 1074) (denominator * 2 ^ shift) = rounded)
    (hBound : shift * 2 ^ 52 + rounded ≤ 2047 * 2 ^ 52) :
    nearestOrLimit negative numerator denominator =
      BitVec.ofNat 64 ((if negative then 2 ^ 63 else 0) + (shift * 2 ^ 52 + rounded)) := by
  subst hShift hRounded
  have hMin := Nat.min_eq_left hBound
  rw [nearestOrLimit]
  exact congrArg (fun magnitude => BitVec.ofNat 64 ((if negative then 2 ^ 63 else 0) + magnitude)) hMin

theorem nearestOrLimit_whole (negative : Bool) (hDenominator : 0 < denominator) (hValue : numerator = k * denominator)
    (hPositive : 0 < k) (hSmall : k < 2 ^ 53) :
    units (nearestOrLimit negative numerator denominator) = k * 2 ^ 1074 ∧
      isNegative (nearestOrLimit negative numerator denominator) = negative := by
  have hNe : k ≠ 0 := Nat.ne_of_gt hPositive
  have hLog : k.log2 < 53 := (Nat.log2_lt hNe).mpr hSmall
  obtain ⟨gap, hGap⟩ : ∃ gap, 52 = k.log2 + gap := ⟨52 - k.log2, by omega⟩
  have hLow : 2 ^ 52 ≤ k * 2 ^ gap := by
    rw [hGap, Nat.pow_add]
    exact Nat.mul_le_mul_right _ (Nat.log2_self_le hNe)
  have hHigh : k * 2 ^ gap < 2 ^ 53 := by
    have hPower : 53 = k.log2 + 1 + gap := by omega
    rw [hPower, Nat.pow_add]
    exact (Nat.mul_lt_mul_right (Nat.two_pow_pos gap)).mpr Nat.lt_log2_self
  have hBound : (k.log2 + 1022) * 2 ^ 52 + k * 2 ^ gap ≤ 2047 * 2 ^ 52 := by omega
  have hScaled : numerator * 2 ^ 1074 = k * 2 ^ gap * (denominator * 2 ^ (k.log2 + 1022)) := by
    have hPower : 1074 = gap + (k.log2 + 1022) := by omega
    rw [hValue, hPower, Nat.pow_add, Nat.mul_mul_mul_comm, Nat.mul_mul_mul_comm, Nat.mul_comm k]
  have hShift : (numerator * 2 ^ 1074 / denominator).log2 - 52 = k.log2 + 1022 := by
    rw [hValue, Nat.mul_right_comm, Nat.mul_div_cancel _ hDenominator, log2_mul_two_pow hPositive 1074]
    omega
  have hExact : roundHalfEven (numerator * 2 ^ 1074) (denominator * 2 ^ (k.log2 + 1022)) = k * 2 ^ gap := by
    rw [hScaled]
    exact roundHalfEven_exact _ (Nat.mul_pos hDenominator (Nat.two_pow_pos _))
  obtain ⟨hUnits, hSign⟩ := units_ofNat negative (show k.log2 + 1022 < 2046 by omega) hLow hHigh
  rw [nearestOrLimit_of_parts hShift hExact hBound]
  refine ⟨?_, hSign⟩
  have hPower : 1074 = gap + (k.log2 + 1022) := by omega
  rw [hUnits, hPower, Nat.mul_assoc, Nat.pow_add 2 gap]

theorem DecimalNumber.denominator_pos (number : DecimalNumber) : 0 < number.denominator :=
  Nat.mul_pos (Nat.pow_pos (by decide)) (Nat.pow_pos (by decide))

theorem DecimalNumber.double_whole (number : DecimalNumber) (hValue : number.Equals k) (hPositive : 0 < k)
    (hSmall : k < 2 ^ 53) : units number.double = k * 2 ^ 1074 ∧ isNegative number.double = false := by
  have hProduct : 0 < k * number.denominator := Nat.mul_pos hPositive number.denominator_pos
  have hSign : number.negative = false := by
    apply Bool.eq_false_iff.mpr
    intro hNegative
    rw [Equals, if_pos hNegative] at hValue
    omega
  rw [Equals, hSign, if_neg Bool.false_ne_true] at hValue
  have hNumerator : number.numerator = k * number.denominator := by exact_mod_cast hValue
  have hDouble := nearestOrLimit_whole number.negative number.denominator_pos hNumerator hPositive hSmall
  rw [double, hDouble.2]
  exact ⟨hDouble.1, hSign⟩

end WholeNumbers

end EdgeGateway.DecimalNumbers
