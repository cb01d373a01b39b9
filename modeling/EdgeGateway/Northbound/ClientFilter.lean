import EdgeGateway.Foundation.Numerals
import EdgeGateway.Foundation.Splitting
import EdgeGateway.Models

/-! # The client filter of the northbound server

Octets and prefix lengths are read by `strtol`, which stops where it stops: blanks
and a sign in front, an empty text and what stands behind a NUL are let through.
-/

namespace EdgeGateway.Northbound

open QuotedText Numerals Splitting

def nul : Char := Char.ofNat 0

def cText (text : StdString) : StdString := text.takeWhile (· ≠ nul)

/-- `std::strtol` to base ten, and what stands at its end pointer. -/
def strtol (text : StdString) : Int × StdString :=
  match scanInteger text with
  | none => (0, text)
  | some (negative, n, rest) => (max (-2 ^ 63) (min (if negative then -n else n) (2 ^ 63 - 1)), rest)

/-- `std::getline` up to a dot, and what is left in the stream. -/
def getPart (stream : StdString) : Option (StdString × StdString) :=
  if stream = [] then none else some (stream.takeWhile (· ≠ '.'), (stream.dropWhile (· ≠ '.')).drop 1)

def parseOctets : Nat → BitVec 32 → StdString → Option (BitVec 32 × StdString)
  | 0, result, stream => some (result, stream)
  | count + 1, result, stream =>
    match getPart stream with
    | none => none
    | some (part, stream) =>
      if part = [] then none
      else
        let octet := strtol (cText part)
        if octet.2 ≠ [] ∨ octet.1 < 0 ∨ 255 < octet.1 then none
        else parseOctets count (result <<< 8 ||| BitVec.ofInt 32 octet.1) stream

def parseIpv4 (value : StdString) : Option (BitVec 32) :=
  match parseOctets 4 0 value with
  | none => none
  | some (result, stream) => if getPart stream = none then some result else none

structure Decimal (text : StdString) (n : Nat) : Prop where
  ne_nil : text ≠ []
  digits : ∀ c ∈ text, c.isDigit = true
  value : Nat.ofDigitChars 10 text 0 = n

def dotted (parts : List StdString) : StdString := ['.'].intercalate parts

def pushOctet (result : BitVec 32) (octet : Nat) : BitVec 32 := result <<< 8 ||| BitVec.ofNat 32 octet

def joinOctets (octets : List Nat) : BitVec 32 := octets.foldl pushOctet 0

def Quad (Part : StdString → Nat → Prop) (text : StdString) (address : BitVec 32) : Prop :=
  ∃ parts octets, parts.length = 4 ∧ List.Forall₂ (fun part octet => Part part octet ∧ octet ≤ 255) parts octets ∧
    text = dotted parts ∧ address = joinOctets octets

structure WellFormedCidr (entry : StdString) (network : BitVec 32) (length : Nat) : Prop where
  written : ∃ address lengthText, entry = address ++ '/' :: lengthText ∧ Quad Decimal address network ∧
    Decimal lengthText length
  bound : length ≤ 32

def SamePrefix (length : Nat) (a b : BitVec 32) : Prop := ∀ i < length, a.getMsbD i = b.getMsbD i

structure ClientAddress where
  text : StdString
  value : BitVec 32
  dotted : Quad Decimal text value

def Covers (Cidr : StdString → BitVec 32 → Nat → Prop) (entry : StdString) (client : ClientAddress) : Prop :=
  ∃ network length, Cidr entry network length ∧ SamePrefix length client.value network

def Admitted (allowed : List StdString) (client : ClientAddress) : Prop :=
  allowed = [] ∨ client.text ∈ allowed ∨ ∃ entry ∈ allowed, Covers WellFormedCidr entry client

inductive Loose : StdString → Nat → Prop
  | empty : Loose [] 0
  | number {blanks sign digits : StdString} {n : Nat} : (∀ c ∈ blanks, isSpace c = true) →
      (sign = [] ∨ sign = ['+'] ∨ sign = ['-'] ∧ n = 0) → Decimal digits n → Loose (blanks ++ (sign ++ digits)) n
  | cut {text more : StdString} {n : Nat} : Loose text n → Loose (text ++ nul :: more) n

structure LoosePart (part : StdString) (octet : Nat) : Prop where
  ne_nil : part ≠ []
  dots : '.' ∉ part
  number : Loose part octet

structure LooseCidr (entry : StdString) (network : BitVec 32) (length : Nat) : Prop where
  written : ∃ address ending lengthText, entry = address ++ ending ++ '/' :: lengthText ∧ '/' ∉ address ∧
    (ending = [] ∨ ending = ['.']) ∧ Quad LoosePart address network ∧ Loose lengthText length
  bound : length ≤ 32

section Numbers

variable {text digits : StdString} {n : Nat}

theorem Decimal.takeWhile_isDigit (h : Decimal digits n) : digits.takeWhile Char.isDigit = digits :=
  List.takeWhile_eq_self_iff.mpr h.digits

theorem Decimal.dropWhile_isDigit (h : Decimal digits n) : digits.dropWhile Char.isDigit = [] :=
  List.dropWhile_eq_nil_iff.mpr h.digits

theorem Decimal.not_mem (h : Decimal text n) {c : Char} (hc : c.isDigit = false) : c ∉ text := by
  intro hMem
  rw [h.digits c hMem] at hc
  cases hc

theorem scanInteger_blanks {blanks : StdString} (hBlanks : ∀ c ∈ blanks, isSpace c = true) (text : StdString) :
    scanInteger (blanks ++ text) = scanInteger text := by
  unfold scanInteger
  rw [skipWhitespace, skipWhitespace, List.dropWhile_append_of_pos hBlanks]

theorem Decimal.scanInteger (h : Decimal digits n) : scanInteger digits = some (false, n, []) := by
  rw [scanInteger_digits h.digits h.ne_nil, h.value]

theorem scanInteger_plus (h : Decimal digits n) : scanInteger ('+' :: digits) = some (false, n, []) := by
  have hSkip : skipWhitespace ('+' :: digits) = '+' :: digits := skipWhitespace_cons (by decide) digits
  unfold scanInteger
  rw [hSkip]
  simp only [h.takeWhile_isDigit, h.dropWhile_isDigit, if_neg h.ne_nil, h.value]

theorem scanInteger_minus (h : Decimal digits n) : scanInteger ('-' :: digits) = some (true, n, []) := by
  have hSkip : skipWhitespace ('-' :: digits) = '-' :: digits := skipWhitespace_cons (by decide) digits
  unfold scanInteger
  rw [hSkip]
  simp only [h.takeWhile_isDigit, h.dropWhile_isDigit, if_neg h.ne_nil, h.value]

theorem scanInteger_whole {negative : Bool} (h : scanInteger text = some (negative, n, [])) :
    ∃ blanks sign digits, text = blanks ++ (sign ++ digits) ∧ (∀ c ∈ blanks, isSpace c = true) ∧ Decimal digits n ∧
      (sign = [] ∧ negative = false ∨ sign = ['+'] ∧ negative = false ∨ sign = ['-'] ∧ negative = true) := by
  have hBlanks : ∀ c ∈ text.takeWhile isSpace, isSpace c = true := fun _ => List.mem_takeWhile_imp
  have hText : text = text.takeWhile isSpace ++ skipWhitespace text := List.takeWhile_append_dropWhile.symm
  have hDigits : ∀ (sign : Bool) (body : StdString),
      (if body.takeWhile Char.isDigit = [] then none
        else some (sign, Nat.ofDigitChars 10 (body.takeWhile Char.isDigit) 0, body.dropWhile Char.isDigit)) =
          some (negative, n, []) → sign = negative ∧ Decimal body n := by
    intro sign body hBody
    rw [Option.ite_none_left_eq_some, Option.some.injEq, Prod.mk.injEq, Prod.mk.injEq] at hBody
    obtain ⟨hSome, hSign, hValue, hAll⟩ := hBody
    have hWhole : body.takeWhile Char.isDigit = body :=
      List.takeWhile_eq_self_iff.mpr (List.dropWhile_eq_nil_iff.mp hAll)
    rw [hWhole] at hSome hValue
    exact ⟨hSign, hSome, List.dropWhile_eq_nil_iff.mp hAll, hValue⟩
  unfold EdgeGateway.Numerals.scanInteger at h
  generalize skipWhitespace text = body at h hText
  dsimp only at h
  split at h
  · rename_i rest
    obtain ⟨rfl, hNumber⟩ := hDigits true rest h
    exact ⟨_, ['-'], rest, hText, hBlanks, hNumber, .inr (.inr ⟨rfl, rfl⟩)⟩
  · rename_i rest
    obtain ⟨rfl, hNumber⟩ := hDigits false rest h
    exact ⟨_, ['+'], rest, hText, hBlanks, hNumber, .inr (.inl ⟨rfl, rfl⟩)⟩
  · obtain ⟨rfl, hNumber⟩ := hDigits false body h
    exact ⟨_, [], body, hText, hBlanks, hNumber, .inl ⟨rfl, rfl⟩⟩

theorem cText_of_not_mem (h : nul ∉ text) : cText text = text := takeWhile_ne_of_not_mem h

theorem cText_append (h : nul ∉ text) (more : StdString) : cText (text ++ nul :: more) = text :=
  takeWhile_ne_append h more

theorem not_mem_cText (text : StdString) : nul ∉ cText text := by
  intro hMem
  rw [cText] at hMem
  have hNot := List.mem_takeWhile_imp hMem
  exact absurd hNot (by decide)

theorem eq_cText_or_cut (text : StdString) : text = cText text ∨ ∃ more, text = cText text ++ nul :: more := by
  by_cases hNul : nul ∈ text
  · obtain ⟨seen, more, rfl, hSeen⟩ := List.eq_append_cons_of_mem hNul
    exact .inr ⟨more, by rw [cText_append hSeen]⟩
  · exact .inl (cText_of_not_mem hNul).symm

theorem cText_cut (text more : StdString) : cText (text ++ nul :: more) = cText text := by
  by_cases hNul : nul ∈ text
  · obtain ⟨seen, rest, rfl, hSeen⟩ := List.eq_append_cons_of_mem hNul
    rw [List.append_assoc, List.cons_append, cText_append hSeen, cText_append hSeen]
  · rw [cText_append hNul, cText_of_not_mem hNul]

theorem strtol_of_scan {negative : Bool} {rest : StdString} (h : scanInteger text = some (negative, n, rest)) :
    strtol text = (max (-2 ^ 63) (min (if negative then -(n : Int) else n) (2 ^ 63 - 1)), rest) := by
  rw [strtol, h]

theorem strtol_of_loose (h : Loose text n) (hSmall : n < 2 ^ 63) : strtol (cText text) = ((n : Int), []) := by
  induction h with
  | empty => rfl
  | @number blanks sign digits n hBlanks hSign hDigits =>
    have hNul : nul ∉ blanks ++ (sign ++ digits) := by
      rw [List.mem_append, List.mem_append, not_or, not_or]
      refine ⟨fun hMem => absurd (hBlanks _ hMem) (by decide), ?_, hDigits.not_mem (by decide)⟩
      obtain rfl | rfl | ⟨rfl, -⟩ := hSign <;> decide
    rw [cText_of_not_mem hNul]
    obtain rfl | rfl | ⟨rfl, rfl⟩ := hSign
    · have hScan : scanInteger (blanks ++ ([] ++ digits)) = some (false, n, []) :=
        (scanInteger_blanks hBlanks _).trans hDigits.scanInteger
      rw [strtol_of_scan hScan]
      rw [if_neg (by decide), Prod.mk.injEq]
      exact ⟨by omega, rfl⟩
    · have hScan : scanInteger (blanks ++ (['+'] ++ digits)) = some (false, n, []) :=
        (scanInteger_blanks hBlanks _).trans (scanInteger_plus hDigits)
      rw [strtol_of_scan hScan]
      rw [if_neg (by decide), Prod.mk.injEq]
      exact ⟨by omega, rfl⟩
    · have hScan : scanInteger (blanks ++ (['-'] ++ digits)) = some (true, 0, []) :=
        (scanInteger_blanks hBlanks _).trans (scanInteger_minus hDigits)
      rw [strtol_of_scan hScan]
      rfl
  | cut _ ih =>
    rw [cText_cut]
    exact ih hSmall

theorem loose_of_strtol (hNul : nul ∉ text) (hWhole : strtol text = ((n : Int), [])) (hSmall : n < 2 ^ 63 - 1) :
    Loose text n := by
  rw [strtol] at hWhole
  cases hScan : scanInteger text with
  | none =>
    rw [hScan, Prod.mk.injEq] at hWhole
    obtain ⟨hn, rfl⟩ := hWhole
    obtain rfl : n = 0 := by exact_mod_cast hn.symm
    exact .empty
  | some scanned =>
    obtain ⟨negative, m, rest⟩ := scanned
    simp only [hScan, Prod.mk.injEq] at hWhole
    obtain ⟨hValue, rfl⟩ := hWhole
    obtain ⟨blanks, sign, digits, rfl, hBlanks, hDigits, hSign⟩ := scanInteger_whole hScan
    obtain ⟨rfl, rfl⟩ | ⟨rfl, rfl⟩ | ⟨rfl, rfl⟩ := hSign
    · rw [if_neg (by decide)] at hValue
      obtain rfl : m = n := by omega
      exact .number hBlanks (.inl rfl) hDigits
    · rw [if_neg (by decide)] at hValue
      obtain rfl : m = n := by omega
      exact .number hBlanks (.inr (.inl rfl)) hDigits
    · rw [if_pos rfl] at hValue
      obtain ⟨rfl, rfl⟩ : m = 0 ∧ n = 0 := by omega
      exact .number hBlanks (.inr (.inr ⟨rfl, rfl⟩)) hDigits

theorem strtol_cText_iff (hSmall : n < 2 ^ 63 - 1) : strtol (cText text) = ((n : Int), []) ↔ Loose text n := by
  constructor
  · intro hWhole
    have hRead := loose_of_strtol (not_mem_cText text) hWhole hSmall
    obtain hText | ⟨more, hText⟩ := eq_cText_or_cut text
    · rwa [hText]
    · rw [hText]
      exact hRead.cut
  · exact fun h => strtol_of_loose h (by omega)

end Numbers

section Parsing

variable {stream part rest text : StdString} {result address : BitVec 32}

theorem getPart_eq_none_iff : getPart stream = none ↔ stream = [] := by
  rw [getPart]
  split <;> simp_all

theorem getPart_eq_some_iff :
    getPart stream = some (part, rest) ↔
      stream ≠ [] ∧ '.' ∉ part ∧ (stream = part ++ '.' :: rest ∨ stream = part ∧ rest = []) := by
  rw [getPart, Option.ite_none_left_eq_some, Option.some.injEq, Prod.mk.injEq]
  refine and_congr_right fun _ => ?_
  constructor
  · rintro ⟨rfl, rfl⟩
    by_cases hDot : '.' ∈ stream
    · obtain ⟨front, rest, rfl, hFront⟩ := List.eq_append_cons_of_mem hDot
      rw [takeWhile_ne_append hFront, dropWhile_ne_append hFront]
      exact ⟨hFront, .inl rfl⟩
    · rw [takeWhile_ne_of_not_mem hDot, dropWhile_ne_of_not_mem hDot]
      exact ⟨hDot, .inr ⟨rfl, rfl⟩⟩
  · rintro ⟨hPart, rfl | ⟨rfl, rfl⟩⟩
    · rw [takeWhile_ne_append hPart, dropWhile_ne_append hPart]
      exact ⟨rfl, rfl⟩
    · rw [takeWhile_ne_of_not_mem hPart, dropWhile_ne_of_not_mem hPart]
      exact ⟨rfl, rfl⟩

theorem parseOctets_succ_eq_some_iff {count : Nat} :
    parseOctets (count + 1) result stream = some (address, rest) ↔
      ∃ part more octet, getPart stream = some (part, more) ∧ LoosePart part octet ∧ octet ≤ 255 ∧
        parseOctets count (pushOctet result octet) more = some (address, rest) := by
  constructor
  · intro h
    rw [parseOctets] at h
    cases hPart : getPart stream with
    | none =>
      rw [hPart] at h
      cases h
    | some found =>
      obtain ⟨part, more⟩ := found
      simp only [hPart, Option.ite_none_left_eq_some, not_or, not_not] at h
      obtain ⟨hSome, ⟨hWhole, hLow, hHigh⟩, h⟩ := h
      obtain ⟨octet, hOctet⟩ := Int.eq_ofNat_of_zero_le (Int.not_lt.mp hLow)
      rw [hOctet] at hHigh h
      have hBound : octet ≤ 255 := by omega
      have hRead : Loose part octet := by
        rw [← strtol_cText_iff (by omega)]
        exact Prod.ext hOctet hWhole
      exact ⟨part, more, octet, rfl, ⟨hSome, (getPart_eq_some_iff.mp hPart).2.1, hRead⟩, hBound, h⟩
  · rintro ⟨part, more, octet, hPart, hOctet, hBound, h⟩
    have hRead := (strtol_cText_iff (by omega)).mpr hOctet.number
    have hRange : ¬ (([] : StdString) ≠ [] ∨ (octet : Int) < 0 ∨ 255 < (octet : Int)) := by
      rintro (hNil | hLow | hHigh)
      · exact hNil rfl
      · omega
      · omega
    rw [parseOctets, hPart]
    dsimp only
    rw [if_neg hOctet.ne_nil, hRead, if_neg hRange]
    exact h

theorem dotted_singleton (part : StdString) : dotted [part] = part := List.intercalate_singleton

theorem dotted_cons {parts : List StdString} (h : parts ≠ []) (part : StdString) :
    dotted (part :: parts) = part ++ '.' :: dotted parts := by
  rw [dotted, List.intercalate_cons_of_ne_nil h, List.append_assoc]
  rfl

theorem dotted_ne_nil {part : StdString} (h : part ≠ []) (parts : List StdString) : dotted (part :: parts) ≠ [] := by
  cases parts with
  | nil => rwa [dotted_singleton]
  | cons next parts =>
    rw [dotted_cons (List.cons_ne_nil next parts)]
    exact fun hNil => h (List.append_eq_nil_iff.mp hNil).1

theorem parseOctets_eq_some_iff {count : Nat} :
    parseOctets (count + 1) result stream = some (address, []) ↔
      ∃ parts octets ending, parts.length = count + 1 ∧
        List.Forall₂ (fun part octet => LoosePart part octet ∧ octet ≤ 255) parts octets ∧
        (ending = [] ∨ ending = ['.']) ∧ stream = dotted parts ++ ending ∧ address = octets.foldl pushOctet result := by
  rw [parseOctets_succ_eq_some_iff]
  induction count generalizing result stream with
  | zero =>
    constructor
    · rintro ⟨part, more, octet, hPart, hOctet, hBound, h⟩
      rw [parseOctets, Option.some.injEq, Prod.mk.injEq] at h
      obtain ⟨rfl, rfl⟩ := h
      obtain ⟨-, -, rfl | ⟨rfl, -⟩⟩ := getPart_eq_some_iff.mp hPart
      · exact ⟨[part], [octet], ['.'], rfl, .cons ⟨hOctet, hBound⟩ .nil, .inr rfl, by rw [dotted_singleton], rfl⟩
      · exact ⟨[stream], [octet], [], rfl, .cons ⟨hOctet, hBound⟩ .nil, .inl rfl,
          by rw [dotted_singleton, List.append_nil], rfl⟩
    · rintro ⟨parts, octets, ending, hLength, hParts, hEnding, rfl, rfl⟩
      obtain ⟨part, rfl⟩ := List.length_eq_one_iff.mp hLength
      cases hParts with
      | cons hPart hNone =>
        cases hNone
        rw [dotted_singleton]
        refine ⟨part, [], _, getPart_eq_some_iff.mpr ⟨?_, hPart.1.dots, ?_⟩, hPart.1, hPart.2, rfl⟩
        · exact fun hNil => hPart.1.ne_nil (List.append_eq_nil_iff.mp hNil).1
        · obtain rfl | rfl := hEnding
          · exact .inr ⟨List.append_nil part, rfl⟩
          · exact .inl rfl
  | succ count ih =>
    constructor
    · rintro ⟨part, more, octet, hPart, hOctet, hBound, h⟩
      rw [parseOctets_succ_eq_some_iff, ih] at h
      obtain ⟨parts, octets, ending, hLength, hParts, hEnding, rfl, rfl⟩ := h
      have hSome : parts ≠ [] := List.ne_nil_of_length_eq_add_one hLength
      obtain ⟨-, -, rfl | ⟨rfl, hNil⟩⟩ := getPart_eq_some_iff.mp hPart
      · refine ⟨part :: parts, octet :: octets, ending, by rw [List.length_cons, hLength],
          .cons ⟨hOctet, hBound⟩ hParts, hEnding, ?_, rfl⟩
        rw [dotted_cons hSome, List.append_assoc, List.cons_append]
      · cases hParts with
        | nil => cases hLength
        | cons hFirst _ =>
          exact absurd (List.append_eq_nil_iff.mp hNil).1 (dotted_ne_nil hFirst.1.ne_nil _)
    · rintro ⟨parts, octets, ending, hLength, hParts, hEnding, rfl, rfl⟩
      cases hParts with
      | nil => cases hLength
      | @cons part octet parts octets hPart hParts =>
        have hRest : parts.length = count + 1 := by simpa using hLength
        have hSome : parts ≠ [] := List.ne_nil_of_length_eq_add_one hRest
        refine ⟨part, dotted parts ++ ending, octet, getPart_eq_some_iff.mpr ⟨?_, hPart.1.dots, .inl ?_⟩, hPart.1,
          hPart.2, ?_⟩
        · rw [dotted_cons hSome]
          simp
        · rw [dotted_cons hSome, List.append_assoc, List.cons_append]
        · rw [parseOctets_succ_eq_some_iff, ih]
          exact ⟨parts, octets, ending, hRest, hParts, hEnding, rfl, rfl⟩

theorem parseIpv4_eq_some_iff :
    parseIpv4 text = some address ↔
      ∃ front ending, text = front ++ ending ∧ (ending = [] ∨ ending = ['.']) ∧ Quad LoosePart front address := by
  have hWhole : parseIpv4 text = some address ↔ parseOctets 4 0 text = some (address, []) := by
    rw [parseIpv4]
    cases parseOctets 4 0 text with
    | none => simp
    | some found =>
      obtain ⟨result, stream⟩ := found
      dsimp only
      rw [Option.ite_none_right_eq_some, getPart_eq_none_iff, Option.some.injEq, Option.some.injEq, Prod.mk.injEq,
        and_comm]
  rw [hWhole, parseOctets_eq_some_iff]
  constructor
  · rintro ⟨parts, octets, ending, hLength, hParts, hEnding, rfl, rfl⟩
    exact ⟨dotted parts, ending, rfl, hEnding, parts, octets, hLength, hParts, rfl, rfl⟩
  · rintro ⟨front, ending, rfl, hEnding, parts, octets, hLength, hParts, rfl, rfl⟩
    exact ⟨parts, octets, ending, hLength, hParts, hEnding, rfl, rfl⟩

theorem Decimal.loose {n : Nat} (h : Decimal text n) : Loose text n :=
  @Loose.number [] [] text n (fun _ hc => absurd hc List.not_mem_nil) (.inl rfl) h

theorem Decimal.loosePart {n : Nat} (h : Decimal text n) : LoosePart text n :=
  ⟨h.ne_nil, h.not_mem (by decide), h.loose⟩

theorem Quad.loose (h : Quad Decimal text address) : Quad LoosePart text address := by
  obtain ⟨parts, octets, hLength, hParts, hText, hAddress⟩ := h
  exact ⟨parts, octets, hLength, hParts.imp fun _ _ hPart => ⟨hPart.1.loosePart, hPart.2⟩, hText, hAddress⟩

end Parsing

section Masks

variable {length : Nat} {a b : BitVec 32}

end Masks

section Filter

variable {entry : StdString} {network : BitVec 32} {length : Nat} {client : ClientAddress} {allowed : List StdString}

theorem looseCidr_iff :
    LooseCidr entry network length ↔
      ∃ front lengthText, entry = front ++ '/' :: lengthText ∧ '/' ∉ front ∧ parseIpv4 front = some network ∧
        strtol (cText lengthText) = ((length : Int), []) ∧ length ≤ 32 := by
  constructor
  · rintro ⟨⟨address, ending, lengthText, rfl, hAddress, hEnding, hQuad, hLength⟩, hBound⟩
    refine ⟨address ++ ending, lengthText, rfl, ?_, parseIpv4_eq_some_iff.mpr ⟨address, ending, rfl, hEnding, hQuad⟩,
      (strtol_cText_iff (by omega)).mpr hLength, hBound⟩
    rw [List.mem_append, not_or]
    obtain rfl | rfl := hEnding
    · exact ⟨hAddress, List.not_mem_nil⟩
    · exact ⟨hAddress, by decide⟩
  · rintro ⟨front, lengthText, rfl, hFront, hParse, hLength, hBound⟩
    obtain ⟨address, ending, rfl, hEnding, hQuad⟩ := parseIpv4_eq_some_iff.mp hParse
    exact ⟨⟨address, ending, lengthText, rfl, fun hMem => hFront (List.mem_append_left _ hMem), hEnding, hQuad,
      (strtol_cText_iff (by omega)).mp hLength⟩, hBound⟩

theorem not_mem_dotted {c : Char} (hDot : c ≠ '.') (hDigit : c.isDigit = false) {parts : List StdString}
    {octets : List Nat} (hParts : List.Forall₂ (fun part octet => Decimal part octet ∧ octet ≤ 255) parts octets) :
    c ∉ dotted parts := by
  induction hParts with
  | nil => exact List.not_mem_nil
  | @cons part octet parts octets hPart _ ih =>
    by_cases hSome : parts = []
    · rw [hSome, dotted_singleton]
      exact hPart.1.not_mem hDigit
    · rw [dotted_cons hSome, List.mem_append, List.mem_cons, not_or, not_or]
      exact ⟨hPart.1.not_mem hDigit, hDot, ih⟩

theorem Quad.not_mem {c : Char} {text : StdString} (h : Quad Decimal text network) (hDot : c ≠ '.')
    (hDigit : c.isDigit = false) : c ∉ text := by
  obtain ⟨parts, octets, -, hParts, rfl, -⟩ := h
  exact not_mem_dotted hDot hDigit hParts

theorem WellFormedCidr.loose (h : WellFormedCidr entry network length) : LooseCidr entry network length := by
  obtain ⟨⟨address, lengthText, rfl, hQuad, hLength⟩, hBound⟩ := h
  exact ⟨⟨address, [], lengthText, by rw [List.append_nil], hQuad.not_mem (by decide) (by decide), .inl rfl, hQuad.loose,
    hLength.loose⟩, hBound⟩

theorem LooseCidr.unique {other : BitVec 32} {otherLength : Nat} (h : LooseCidr entry network length)
    (hOther : LooseCidr entry other otherLength) : network = other ∧ length = otherLength := by
  obtain ⟨front, lengthText, rfl, hFront, hParse, hRead, -⟩ := looseCidr_iff.mp h
  obtain ⟨front', lengthText', hEntry, hFront', hParse', hRead', -⟩ := looseCidr_iff.mp hOther
  obtain ⟨rfl, hRest⟩ : front = front' ∧ '/' :: lengthText = '/' :: lengthText' := by
    have hTake := congrArg (List.takeWhile (· ≠ '/')) hEntry
    rw [takeWhile_ne_append hFront, takeWhile_ne_append hFront'] at hTake
    subst hTake
    exact ⟨rfl, List.append_cancel_left hEntry⟩
  obtain rfl := (List.cons.inj hRest).2
  rw [hParse] at hParse'
  rw [hRead] at hRead'
  exact ⟨Option.some.inj hParse', by exact_mod_cast (Prod.mk.inj hRead').1⟩

end Filter

end EdgeGateway.Northbound
