import EdgeGateway.Foundation.QuotedText

/-! # Numbers in texts

The conversions between decimal texts and integers or doubles. A double is its 64 bits; a finite one
is a whole number of units of `2 ^ -1074`.
-/

namespace EdgeGateway.Numerals

open QuotedText

def scanInteger (text : List Char) : Option (Bool × Nat × List Char) :=
  let text := skipWhitespace text
  let (negative, body) : Bool × List Char := match text with
    | '-' :: body => (true, body)
    | '+' :: body => (false, body)
    | body => (false, body)
  let digits := body.takeWhile Char.isDigit
  if digits = [] then none
  else some (negative, Nat.ofDigitChars 10 digits 0, body.dropWhile Char.isDigit)

/-- `std::stoull`, with the part it did not consume; a minus sign wraps. -/
def stoull (text : List Char) : Option (Nat × List Char) :=
  match scanInteger text with
  | none => none
  | some (negative, n, rest) =>
    if 2 ^ 64 ≤ n then none else some (if negative then (2 ^ 64 - n) % 2 ^ 64 else n, rest)

def stoll (text : List Char) : Option (Int × List Char) :=
  match scanInteger text with
  | none => none
  | some (negative, n, rest) =>
    let value : Int := if negative then -n else n
    if IsInt64 value then some (value, rest) else none

def decimal (n : Nat) : List Char := Nat.toDigits 10 n

theorem scanInteger_digits {digits : List Char} (hDigits : ∀ c ∈ digits, c.isDigit = true) (hNe : digits ≠ []) :
    scanInteger digits = some (false, Nat.ofDigitChars 10 digits 0, []) := by
  obtain ⟨c, rest, rfl⟩ := List.exists_cons_of_ne_nil hNe
  have hHead : c.isDigit = true := hDigits c List.mem_cons_self
  have hMinus : c ≠ '-' := fun hEq => absurd (hEq ▸ hHead) (by decide)
  have hPlus : c ≠ '+' := fun hEq => absurd (hEq ▸ hHead) (by decide)
  have hSkip : skipWhitespace (c :: rest) = c :: rest := skipWhitespace_cons (not_space_of_digit hHead) rest
  have hTake : (c :: rest).takeWhile Char.isDigit = c :: rest := List.takeWhile_eq_self_iff.mpr hDigits
  have hDrop : (c :: rest).dropWhile Char.isDigit = [] := List.dropWhile_eq_nil_iff.mpr hDigits
  unfold scanInteger
  rw [hSkip]
  have hSign : (match c :: rest with
      | '-' :: body => (true, body)
      | '+' :: body => (false, body)
      | body => (false, body)) = (false, c :: rest) := by
    split
    · rename_i hEq
      exact absurd (List.cons.inj hEq).1 hMinus
    · rename_i hEq
      exact absurd (List.cons.inj hEq).1 hPlus
    · rfl
  simp only [hSign, hTake, hDrop]
  rw [if_neg (List.cons_ne_nil c rest)]

theorem scanInteger_decimal (n : Nat) : scanInteger (decimal n) = some (false, n, []) := by
  have hValue : Nat.ofDigitChars 10 (decimal n) 0 = n := Nat.ofDigitChars_ten_toDigits
  have hDigits : ∀ c ∈ decimal n, c.isDigit = true := isDigit_toDigits n
  rw [scanInteger_digits hDigits Nat.toDigits_ne_nil, hValue]

theorem stoull_decimal {n : Nat} (h : n < 2 ^ 64) : stoull (decimal n) = some (n, []) := by
  rw [stoull, scanInteger_decimal]
  simp only [if_neg (Nat.not_le.mpr h), Bool.false_eq_true, if_false]

theorem stoull_of_stoll {text rest : List Char} {n : Int} (h : stoll text = some (n, rest)) (hPositive : 0 < n) :
    stoull text = some (n.toNat, rest) := by
  unfold stoll at h
  unfold stoull
  cases hScan : scanInteger text with
  | none =>
    rw [hScan] at h
    cases h
  | some scanned =>
    obtain ⟨negative, m, tail⟩ := scanned
    simp only [hScan, Option.ite_none_right_eq_some, Option.some.injEq, Prod.mk.injEq] at h
    obtain ⟨hRange, rfl, rfl⟩ := h
    cases negative with
    | true =>
      simp only [if_true] at hPositive
      omega
    | false =>
      simp only [Bool.false_eq_true, if_false] at hRange ⊢
      have hSmall : m < 2 ^ 63 := by exact_mod_cast hRange.2
      rw [if_neg (by omega), Int.toNat_natCast]

def exponent (bits : BitVec 64) : Nat := bits.toNat / 2 ^ 52 % 2 ^ 11

def fraction (bits : BitVec 64) : Nat := bits.toNat % 2 ^ 52

def isNegative (bits : BitVec 64) : Bool := bits.msb

def isFinite (bits : BitVec 64) : Bool := exponent bits != 2047

def isNaN (bits : BitVec 64) : Bool := exponent bits == 2047 && fraction bits != 0

/-- The magnitude in units of `2 ^ -1074`; an infinity is above every finite one. -/
def units (bits : BitVec 64) : Nat :=
  if exponent bits = 0 then fraction bits else (2 ^ 52 + fraction bits) * 2 ^ (exponent bits - 1)

def signedUnits (bits : BitVec 64) : Int := if isNegative bits then -units bits else units bits

def less (a b : BitVec 64) : Bool := !isNaN a && !isNaN b && decide (signedUnits a < signedUnits b)

def lessEq (a b : BitVec 64) : Bool := !isNaN a && !isNaN b && decide (signedUnits a ≤ signedUnits b)

def wholeNumber (bits : BitVec 64) : Option Int :=
  if isFinite bits ∧ units bits % 2 ^ 1074 = 0 then some (signedUnits bits / 2 ^ 1074) else none

def roundHalfEven (numerator denominator : Nat) : Nat :=
  let quotient := numerator / denominator
  let twice := 2 * (numerator % denominator)
  if twice < denominator ∨ (twice = denominator ∧ quotient % 2 = 0) then quotient else quotient + 1

def padLeft (width : Nat) (digits : List Char) : List Char :=
  List.replicate (width - digits.length) '0' ++ digits

/-- `std::to_string` of a finite double: six digits behind the point. -/
def fixedText (bits : BitVec 64) : List Char :=
  let millionths := roundHalfEven (units bits * 10 ^ 6) (2 ^ 1074)
  (if isNegative bits then ['-'] else []) ++ decimal (millionths / 10 ^ 6) ++
    '.' :: padLeft 6 (decimal (millionths % 10 ^ 6))

/-- The double nearest to a ratio; nothing where `strtod` reports a range error. -/
def nearest (negative : Bool) (numerator denominator : Nat) : Option (BitVec 64) :=
  let scaled := numerator * 2 ^ 1074
  let shift := Nat.log2 (scaled / denominator) - 52
  let magnitude := shift * 2 ^ 52 + roundHalfEven scaled (denominator * 2 ^ shift)
  if 2047 * 2 ^ 52 ≤ magnitude then none
  else if magnitude < 2 ^ 52 ∧ scaled % denominator ≠ 0 then none
  else some (BitVec.ofNat 64 ((if negative then 2 ^ 63 else 0) + magnitude))

/-- Exponents of a text are cut where the result is out of range in any case. -/
def scanExponent (marker : Char) (text : List Char) : Int :=
  match text with
  | c :: text =>
    if c.toLower ≠ marker then 0
    else
      let digits := (match text with
        | '-' :: text => text
        | '+' :: text => text
        | text => text).takeWhile Char.isDigit
      let size := min 5000 (Nat.ofDigitChars 10 digits 0)
      if text.head? = some '-' then -size else size
  | [] => 0

def hexValue (c : Char) : Nat :=
  if c.isDigit then c.toNat - '0'.toNat else c.toLower.toNat - 'a'.toNat + 10

def isHexDigit (c : Char) : Bool := c.isDigit || ('a' ≤ c.toLower && c.toLower ≤ 'f')

/-- Digits with an optional point and exponent, in base ten or sixteen. -/
def scanMagnitude (hex negative : Bool) (text : List Char) : Option (BitVec 64) :=
  let isDigit := if hex then isHexDigit else Char.isDigit
  let base := if hex then 16 else 10
  let integral := text.takeWhile isDigit
  let rest := text.dropWhile isDigit
  let fractional := match rest with
    | '.' :: rest => rest.takeWhile isDigit
    | _ => []
  let tail := match rest with
    | '.' :: rest => rest.dropWhile isDigit
    | rest => rest
  let digits := integral ++ fractional
  if digits = [] then none
  else
    let mantissa := digits.foldl (fun n c => n * base + hexValue c) 0
    let power := scanExponent (if hex then 'p' else 'e') tail
    let powerBase := if hex then 2 else 10
    nearest negative (mantissa * powerBase ^ power.toNat) (base ^ fractional.length * powerBase ^ (-power).toNat)

def startsWithIgnoringCase (word text : List Char) : Bool := (text.take word.length).map Char.toLower == word

def isHexNumber (text : List Char) : Bool :=
  startsWithIgnoringCase "0x".toList text && match text.drop 2 with
    | '.' :: c :: _ => isHexDigit c
    | c :: _ => isHexDigit c
    | [] => false

def stod (text : List Char) : Option (BitVec 64) :=
  let text := skipWhitespace text
  let negative := text.head? == some '-'
  let body := match text with
    | '-' :: body => body
    | '+' :: body => body
    | body => body
  let sign := if negative then 2 ^ 63 else 0
  if startsWithIgnoringCase "inf".toList body then some (BitVec.ofNat 64 (sign + 2047 * 2 ^ 52))
  else if startsWithIgnoringCase "nan".toList body then some (BitVec.ofNat 64 (sign + 2047 * 2 ^ 52 + 2 ^ 51))
  else scanMagnitude (isHexNumber body) negative (if isHexNumber body then body.drop 2 else body)

/-- The double nearest to a ratio; infinity above the range, a subnormal or zero below it. -/
def nearestOrLimit (negative : Bool) (numerator denominator : Nat) : BitVec 64 :=
  let scaled := numerator * 2 ^ 1074
  let shift := Nat.log2 (scaled / denominator) - 52
  let magnitude := shift * 2 ^ 52 + roundHalfEven scaled (denominator * 2 ^ shift)
  BitVec.ofNat 64 ((if negative then 2 ^ 63 else 0) + min magnitude (2047 * 2 ^ 52))

/-- The exponent behind a mantissa, when its marker is followed by digits, and what follows it. -/
def exponentPart (marker : Char) (text : List Char) : Int × List Char :=
  match text with
  | c :: body =>
    let negative := body.head? == some '-'
    let unsigned := match body with
      | '-' :: body => body
      | '+' :: body => body
      | body => body
    let digits := unsigned.takeWhile Char.isDigit
    if c.toLower ≠ marker ∨ digits = [] then (0, text)
    else
      let size : Int := Nat.ofDigitChars 10 digits 0
      (if negative then -size else size, unsigned.dropWhile Char.isDigit)
  | [] => (0, text)

def magnitudePart (hex negative : Bool) (text : List Char) : Option (BitVec 64 × List Char) :=
  let isDigit := if hex then isHexDigit else Char.isDigit
  let base := if hex then 16 else 10
  let integral := text.takeWhile isDigit
  let rest := text.dropWhile isDigit
  let fractional := match rest with
    | '.' :: rest => rest.takeWhile isDigit
    | _ => []
  let tail := match rest with
    | '.' :: rest => rest.dropWhile isDigit
    | rest => rest
  let digits := integral ++ fractional
  if digits = [] then none
  else
    let mantissa := digits.foldl (fun n c => n * base + hexValue c) 0
    let exponent := exponentPart (if hex then 'p' else 'e') tail
    let powerBase := if hex then 2 else 10
    some (nearestOrLimit negative (mantissa * powerBase ^ exponent.1.toNat)
      (base ^ fractional.length * powerBase ^ (-exponent.1).toNat), exponent.2)

/-- What follows the word `nan`: a sequence in parentheses belongs to it. -/
def afterNan (text : List Char) : List Char :=
  match text with
  | '(' :: body =>
    match body.dropWhile fun c => c.isAlphanum || c == '_' with
    | ')' :: rest => rest
    | _ => text
  | _ => text

/-- `std::strtod` with the part it did not consume; nothing when there is no number. -/
def strtod (text : List Char) : Option (BitVec 64 × List Char) :=
  let text := skipWhitespace text
  let negative := text.head? == some '-'
  let body := match text with
    | '-' :: body => body
    | '+' :: body => body
    | body => body
  let sign := if negative then 2 ^ 63 else 0
  if startsWithIgnoringCase "infinity".toList body then some (BitVec.ofNat 64 (sign + 2047 * 2 ^ 52), body.drop 8)
  else if startsWithIgnoringCase "inf".toList body then some (BitVec.ofNat 64 (sign + 2047 * 2 ^ 52), body.drop 3)
  else if startsWithIgnoringCase "nan".toList body then
    some (BitVec.ofNat 64 (sign + 2047 * 2 ^ 52 + 2 ^ 51), afterNan (body.drop 3))
  else magnitudePart (isHexNumber body) negative (if isHexNumber body then body.drop 2 else body)

def roundedUnits (n : Nat) : Nat :=
  let shift := Nat.log2 n - 52
  roundHalfEven n (2 ^ shift) * 2 ^ shift

/-- The test `fabs(a - b) <= bound` of finite doubles, false for an infinity or a NaN. -/
def differsAtMost (a b bound : BitVec 64) : Bool :=
  isFinite a && isFinite b && decide (roundedUnits (signedUnits a - signedUnits b).natAbs ≤ units bound)

end EdgeGateway.Numerals
