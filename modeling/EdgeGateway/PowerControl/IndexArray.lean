import EdgeGateway.PowerControl.Ownership

/-! # Reading the target indexes -/

namespace EdgeGateway.PowerControl

open QuotedText

def isListChar (c : Char) : Bool := c == ',' || isSpace c || c.isDigit

theorem length_skipWhitespace_le (text : StdString) : (skipWhitespace text).length ≤ text.length :=
  (List.dropWhile_sublist _).length_le

theorem length_dropWhile_lt {text : StdString} (hDigits : text.takeWhile Char.isDigit ≠ []) :
    (text.dropWhile Char.isDigit).length < text.length := by
  have hSplit := congrArg List.length (@List.takeWhile_append_dropWhile _ Char.isDigit text)
  rw [List.length_append] at hSplit
  have hPos := List.length_pos_of_ne_nil hDigits
  omega

theorem indexLoop_nil (fuel : Nat) : indexLoop fuel [] = .ok [] := by
  cases fuel <;> rfl

theorem indexLoop_fuel (fuel other : Nat) (text : StdString) (hFuel : text.length ≤ fuel)
    (hOther : text.length ≤ other) : indexLoop fuel text = indexLoop other text := by
  induction fuel generalizing other text with
  | zero =>
    obtain rfl := List.eq_nil_of_length_eq_zero (Nat.le_zero.mp hFuel)
    rw [indexLoop_nil, indexLoop_nil]
  | succ fuel ih =>
    cases other with
    | zero =>
      obtain rfl := List.eq_nil_of_length_eq_zero (Nat.le_zero.mp hOther)
      rw [indexLoop_nil, indexLoop_nil]
    | succ other =>
      have hSkip := length_skipWhitespace_le text
      rw [indexLoop, indexLoop]
      split
      · rename_i rest hText
        rw [hText, List.length_cons] at hSkip
        exact ih other rest (by omega) (by omega)
      · by_cases hDigits : (skipWhitespace text).takeWhile Char.isDigit = []
        · rw [if_pos hDigits, if_pos hDigits]
        · have hRest := length_dropWhile_lt hDigits
          rw [if_neg hDigits, if_neg hDigits, ih other _ (by omega) (by omega)]

theorem indexLoop_eq {fuel : Nat} {text : StdString} (hFuel : text.length ≤ fuel) :
    indexLoop fuel text = readIndexes text := indexLoop_fuel fuel _ text hFuel (Nat.le_refl _)

theorem readIndexes_nil : readIndexes [] = .ok [] := rfl

theorem readIndexes_comma (text : StdString) : readIndexes (',' :: text) = readIndexes text := by
  rw [readIndexes, List.length_cons, indexLoop, skipWhitespace_cons (by decide)]
  rfl

theorem readIndexes_space {c : Char} (hc : isSpace c = true) (text : StdString) :
    readIndexes (c :: text) = readIndexes text := by
  have hSkip : skipWhitespace (c :: text) = skipWhitespace text := by
    rw [skipWhitespace, List.dropWhile_cons_of_pos hc, skipWhitespace]
  rw [← @indexLoop_eq (text.length + 1) text (Nat.le_succ _), readIndexes, List.length_cons, indexLoop, indexLoop,
    hSkip]

theorem readIndexes_stop {c : Char} (hc : isListChar c = false) (text : StdString) :
    readIndexes (c :: text) = .ok [] := by
  simp only [isListChar, Bool.or_eq_false_iff, beq_eq_false_iff_ne] at hc
  obtain ⟨⟨hComma, hSpace⟩, hDigit⟩ := hc
  rw [readIndexes, List.length_cons, indexLoop, skipWhitespace_cons hSpace]
  split
  · rename_i rest hText
    exact absurd (List.cons.inj hText).1 hComma
  · rw [if_pos (List.takeWhile_cons_of_neg (by simp [hDigit]))]

theorem dropWhile_digits {digits rest : StdString} (hDigits : ∀ c ∈ digits, c.isDigit = true)
    (hRest : ∀ c ∈ rest.head?, c.isDigit = false) : (digits ++ rest).dropWhile Char.isDigit = rest := by
  rw [List.dropWhile_append_of_pos hDigits]
  cases rest with
  | nil => rfl
  | cons c rest =>
    have hHead := hRest c rfl
    rw [List.dropWhile_cons_of_neg (by simp [hHead])]

theorem readIndexes_number {digits : StdString} (hNe : digits ≠ []) (hDigits : ∀ c ∈ digits, c.isDigit = true)
    {rest : StdString} (hRest : ∀ c ∈ rest.head?, c.isDigit = false) :
    readIndexes (digits ++ rest) =
      if 2 ^ 64 ≤ Nat.ofDigitChars 10 digits 0 then .error .outOfRange
      else (UInt32.ofNat (Nat.ofDigitChars 10 digits 0) :: ·) <$> readIndexes rest := by
  obtain ⟨d, tail, rfl⟩ := List.exists_cons_of_ne_nil hNe
  have hd := hDigits d List.mem_cons_self
  have hComma : d ≠ ',' := by
    rintro rfl
    exact absurd hd (by decide)
  have hLength : rest.length ≤ (tail ++ rest).length := by simp
  rw [readIndexes, List.cons_append, List.length_cons, indexLoop, skipWhitespace_cons (not_space_of_digit hd)]
  split
  · rename_i other hText
    exact absurd (List.cons.inj hText).1 hComma
  · rw [← List.cons_append, takeWhile_digits hDigits hRest, dropWhile_digits hDigits hRest, if_neg hNe,
      indexLoop_eq hLength]
    split
    · rfl
    · cases readIndexes rest <;> rfl

theorem head_dropWhile_digits (text : StdString) :
    ∀ c ∈ (text.dropWhile Char.isDigit).head?, c.isDigit = false := by
  intro c hc
  have hHead := List.head?_dropWhile_not Char.isDigit text
  rw [Option.mem_def] at hc
  rw [hc] at hHead
  exact hHead

theorem head_takeWhile {p : Char → Bool} {q : Char → Prop} {text : StdString} (hText : ∀ c ∈ text.head?, q c) :
    ∀ c ∈ (text.takeWhile p).head?, q c := by
  cases text with
  | nil => exact hText
  | cons d text =>
    intro c hc
    rw [List.takeWhile_cons] at hc
    split at hc
    · exact hText c hc
    · cases hc

theorem readIndexes_takeWhile (text : StdString) : readIndexes text = readIndexes (text.takeWhile isListChar) := by
  induction hLength : text.length using Nat.strong_induction_on generalizing text with
  | _ n ih =>
    cases text with
    | nil => rfl
    | cons c text =>
      rw [List.length_cons] at hLength
      cases hList : isListChar c with
      | false =>
        rw [readIndexes_stop hList, List.takeWhile_cons_of_neg (by simp [hList]), readIndexes_nil]
      | true =>
        have hTail := ih text.length (by omega) text rfl
        have hCases := hList
        simp only [isListChar, Bool.or_eq_true, beq_iff_eq] at hCases
        obtain (rfl | hSpace) | hDigit := hCases
        · rw [List.takeWhile_cons_of_pos hList, readIndexes_comma, readIndexes_comma, hTail]
        · rw [List.takeWhile_cons_of_pos hList, readIndexes_space hSpace, readIndexes_space hSpace, hTail]
        · have hNe : (c :: text).takeWhile Char.isDigit ≠ [] := by
            rw [List.takeWhile_cons_of_pos hDigit]
            exact List.cons_ne_nil _ _
          have hAll : ∀ d ∈ (c :: text).takeWhile Char.isDigit, d.isDigit = true :=
            fun d hd => List.mem_takeWhile_imp hd
          have hChars : ∀ d ∈ (c :: text).takeWhile Char.isDigit, isListChar d = true := by
            intro d hd
            simp [isListChar, hAll d hd]
          have hRest := ih ((c :: text).dropWhile Char.isDigit).length
            (by have := length_dropWhile_lt hNe; rw [List.length_cons] at this; omega) _ rfl
          have hHead := head_dropWhile_digits (c :: text)
          rw [← @List.takeWhile_append_dropWhile _ Char.isDigit (c :: text), List.takeWhile_append_of_pos hChars,
            readIndexes_number hNe hAll hHead, readIndexes_number hNe hAll (head_takeWhile hHead), hRest]

theorem indexesText_cons (index : UInt32) (indexes : List UInt32) :
    indexesText (index :: indexes) =
      indexText index ++ (if indexes = [] then [] else ',' :: indexesText indexes) := by
  cases indexes with
  | nil => simp [indexesText]
  | cons next indexes => simp [indexesText, List.intercalate]

theorem mem_indexesText {c : Char} {indexes : List UInt32} (hc : c ∈ indexesText indexes) :
    c = ',' ∨ c.isDigit = true := by
  induction indexes with
  | nil => exact absurd hc List.not_mem_nil
  | cons index indexes ih =>
    rw [indexesText_cons, List.mem_append] at hc
    obtain hc | hc := hc
    · exact .inr (isDigit_toDigits _ c hc)
    · split at hc
      · cases hc
      · obtain hComma | hRest := List.mem_cons.mp hc
        · exact .inl hComma
        · exact ih hRest

theorem readIndexes_indexesText (indexes : List UInt32) : readIndexes (indexesText indexes) = .ok indexes := by
  induction indexes with
  | nil => rfl
  | cons index indexes ih =>
    have hValue : Nat.ofDigitChars 10 (indexText index) 0 = index.toNat := Nat.ofDigitChars_ten_toDigits
    have hBound := index.toNat_lt
    have hSmall : ¬ 2 ^ 64 ≤ index.toNat := by omega
    have hNe : indexText index ≠ [] := Nat.toDigits_ne_nil
    have hDigits : ∀ c ∈ indexText index, c.isDigit = true := isDigit_toDigits _
    rw [indexesText_cons, readIndexes_number hNe hDigits, hValue, if_neg hSmall, UInt32.ofNat_toNat]
    · cases indexes with
      | nil => rfl
      | cons next indexes =>
        rw [if_neg (List.cons_ne_nil _ _), readIndexes_comma, ih]
        rfl
    · intro c hc
      split at hc
      · cases hc
      · obtain rfl := Option.some.inj hc
        rfl

end EdgeGateway.PowerControl
