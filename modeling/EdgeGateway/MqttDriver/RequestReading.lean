import EdgeGateway.Foundation.DecimalNumbers
import EdgeGateway.Foundation.FlatObject
import EdgeGateway.MqttDriver.CommandRequest

/-! # What is read of a command object -/

namespace EdgeGateway.MqttDriver

open QuotedText Numerals DecimalNumbers FlatObject FlatJsonReader

inductive TextField where
  | cmdId
  | machineCode
  | meterCode
  | pointCode
  | source
deriving DecidableEq, Repr

inductive NumberField where
  | index
  | value
  | ts
deriving DecidableEq, Repr

def TextField.name : TextField → StdString
  | .cmdId => "cmdId".toList
  | .machineCode => "machineCode".toList
  | .meterCode => "meterCode".toList
  | .pointCode => "pointCode".toList
  | .source => "source".toList

def NumberField.name : NumberField → StdString
  | .index => "index".toList
  | .value => "value".toList
  | .ts => "ts".toList

def flagName : StdString := "highPriority".toList

theorem flagName_letters : ∀ c ∈ flagName, c.isAlpha = true :=
  List.all_eq_true.mp (by decide)

theorem TextField.name_letters (field : TextField) : ∀ c ∈ field.name, c.isAlpha = true := by
  cases field <;> exact List.all_eq_true.mp (by decide)

theorem NumberField.name_letters (field : NumberField) : ∀ c ∈ field.name, c.isAlpha = true := by
  cases field <;> exact List.all_eq_true.mp (by decide)

theorem name_ne_number (field : TextField) (other : NumberField) : other.name ≠ field.name := by
  cases field <;> cases other <;> decide

theorem text_name_ne_flag (field : TextField) : flagName ≠ field.name := by
  cases field <;> decide

theorem number_name_ne_flag (field : NumberField) : flagName ≠ field.name := by
  cases field <;> decide

def TextField.fallback : TextField → StdString
  | .source => "mqtt".toList
  | _ => []

def MqttCommandRequest.text (request : MqttCommandRequest) : TextField → StdString
  | .cmdId => request.cmdId
  | .machineCode => request.machineCode
  | .meterCode => request.meterCode
  | .pointCode => request.pointCode
  | .source => request.source

inductive CommandMember where
  | text (field : TextField) (content : List Piece)
  | number (field : NumberField) (number : DecimalNumber)
  | flag (highPriority : Bool)

namespace CommandMember

def name : CommandMember → StdString
  | .text field _ => field.name
  | .number field _ => field.name
  | .flag _ => flagName

def content : CommandMember → Option (List Piece)
  | .text _ content => some content
  | _ => none

def decimal : CommandMember → Option DecimalNumber
  | .number _ n => some n
  | _ => none

def highPriority : CommandMember → Option Bool
  | .flag highPriority => some highPriority
  | _ => none

def flagLiteral (highPriority : Bool) : StdString := if highPriority then "true".toList else "false".toList

def value : CommandMember → Value
  | .text _ content => .text content
  | .number _ n => .bare (n.text []) n.quote_not_mem
  | .flag highPriority => .bare (flagLiteral highPriority) (by cases highPriority <;> decide)

theorem name_letters (member : CommandMember) : ∀ c ∈ member.name, c.isAlpha = true := by
  cases member with
  | text field _ => exact field.name_letters
  | number field _ => exact field.name_letters
  | flag _ => exact flagName_letters

theorem content_of_name {member : CommandMember} {field : TextField} (h : member.name = field.name) :
    ∃ content, member.content = some content ∧ member.value = .text content := by
  cases member with
  | text other content => exact ⟨content, rfl, rfl⟩
  | number other n => exact absurd h (name_ne_number field other)
  | flag _ => exact absurd h (text_name_ne_flag field)

theorem decimal_of_name {member : CommandMember} {field : NumberField} (h : member.name = field.name) :
    ∃ n, member.decimal = some n ∧ member.value.written = n.text [] := by
  cases member with
  | text other content => exact absurd h.symm (name_ne_number other field)
  | number other n => exact ⟨n, rfl, rfl⟩
  | flag _ => exact absurd h (number_name_ne_flag field)

theorem highPriority_of_name {member : CommandMember} (h : member.name = flagName) :
    ∃ highPriority, member.highPriority = some highPriority ∧ member.value.written = flagLiteral highPriority := by
  cases member with
  | text other content => exact absurd h.symm (text_name_ne_flag other)
  | number other n => exact absurd h.symm (number_name_ne_flag other)
  | flag highPriority => exact ⟨highPriority, rfl, rfl⟩

end CommandMember

structure SpacedMember where
  member : CommandMember
  beforeName : Blank
  beforeColon : Blank
  afterColon : Blank
  afterValue : Blank

def SpacedMember.written (spaced : SpacedMember) : FlatObject.Member where
  name := spaced.member.name
  letters := spaced.member.name_letters
  value := spaced.member.value
  beforeName := spaced.beforeName
  beforeColon := spaced.beforeColon
  afterColon := spaced.afterColon
  afterValue := spaced.afterValue

def isNamed (name : StdString) (spaced : SpacedMember) : Bool := decide (spaced.member.name = name)

def shadowed (name : StdString) : List SpacedMember → Bool
  | [] => false
  | spaced :: members =>
    if spaced.member.name = name then false else spaced.written.hides name || shadowed name members

def seen (name : StdString) (members : List SpacedMember) : Option SpacedMember :=
  if shadowed name members then none else members.find? (isNamed name)

/-- A flat object with each field of a command at most once. -/
structure CommandObject where
  before : Blank
  inner : Blank
  after : Blank
  members : List SpacedMember
  distinct : (members.map fun spaced => spaced.member.name).Nodup

namespace CommandObject

variable (object : CommandObject)

def written : Object where
  before := object.before
  inner := object.inner
  after := object.after
  members := object.members.map SpacedMember.written

def text : StdString := object.written.text

def memberOf (name : StdString) : Option CommandMember :=
  (object.members.find? (isNamed name)).map SpacedMember.member

def contentOf (field : TextField) : Option (List Piece) := (object.memberOf field.name).bind CommandMember.content

def decimalOf (field : NumberField) : Option DecimalNumber := (object.memberOf field.name).bind CommandMember.decimal

def flagOf : Option Bool := (object.memberOf flagName).bind CommandMember.highPriority

def meaning (field : TextField) : StdString :=
  let value := ((object.contentOf field).map decode).getD []
  if value = [] then field.fallback else value

end CommandObject

section Finding

variable {name rest : StdString}

theorem isSpace_blank {c : Char} (hc : c = ' ' ∨ c = '\t' ∨ c = '\n' ∨ c = '\r') : isSpace c = true := by
  obtain rfl | rfl | rfl | rfl := hc <;> decide

theorem skipWhitespace_blank (blank : Blank) (rest : StdString) :
    skipWhitespace (blank.text ++ rest) = skipWhitespace rest := by
  rw [skipWhitespace, skipWhitespace, List.dropWhile_append_of_pos fun c hc => isSpace_blank (blank.blank c hc)]

theorem ends_tail (blank after : Blank) (members : List FlatObject.Member) : Ends (blank.text ++ tailText after members) := by
  intro c hc
  cases hBlank : blank.text with
  | nil =>
    obtain ⟨d, text, hText, hd⟩ := tailText_head after members
    rw [hBlank, List.nil_append, hText] at hc
    obtain rfl : d = c := Option.some.inj hc
    obtain rfl | rfl := hd <;> decide
  | cons d text =>
    have hd := blank.blank d (hBlank ▸ List.mem_cons_self)
    rw [hBlank] at hc
    obtain rfl : d = c := Option.some.inj hc
    obtain rfl | rfl | rfl | rfl := hd <;> decide

theorem findKey_hidden {text : StdString} {blank after : Blank} {members : List FlatObject.Member}
    (h : QuotedText.after (quoted name) text = some (blank.text ++ tailText after members)) : findKey text name = none := by
  obtain ⟨c, tail, hTail, hc⟩ := tailText_head after members
  have hSpace : isSpace c = false := by
    obtain rfl | rfl := hc <;> decide
  rw [findKey, h]
  dsimp only
  rw [skipWhitespace_blank, hTail, skipWhitespace_cons hSpace]
  obtain rfl | rfl := hc <;> rfl

theorem findKey_found {text : StdString} {blank : Blank}
    (h : QuotedText.after (quoted name) text = some (blank.text ++ ':' :: rest)) : findKey text name = some rest := by
  rw [findKey, h]
  dsimp only
  rw [skipWhitespace_blank, skipWhitespace_cons (by decide)]
  rfl

theorem findKey_seen {text : StdString} {after : Blank} {members : List SpacedMember}
    (h : QuotedText.after (quoted name) text = FlatObject.locate name after (members.map SpacedMember.written)) :
    (seen name members = none → findKey text name = none) ∧
      ∀ spaced, seen name members = some spaced → spaced.member.name = name ∧ ∃ tail,
        findKey text name = some (spaced.afterColon.text ++ (spaced.member.value.written ++
          (spaced.afterValue.text ++ tailText after tail))) := by
  induction members with
  | nil =>
    constructor
    · intro _
      rw [findKey, h]
      rfl
    · rintro spaced ⟨⟩
  | cons spaced members ih =>
    rw [List.map_cons, FlatObject.locate] at h
    rw [seen, shadowed]
    obtain hName | hOther := Classical.em (spaced.member.name = name)
    · have hNamed : isNamed name spaced = true := decide_eq_true hName
      rw [if_pos hName, if_neg Bool.false_ne_true, List.find?_cons_of_pos hNamed]
      refine ⟨fun hNone => (Option.some_ne_none _ hNone).elim, ?_⟩
      rintro _ ⟨⟩
      rw [if_pos (show spaced.written.name = name from hName)] at h
      exact ⟨hName, _, findKey_found h⟩
    · rw [if_neg (show ¬spaced.written.name = name from hOther)] at h
      have hNotNamed : ¬isNamed name spaced = true := fun hNamed => hOther (of_decide_eq_true hNamed)
      rw [if_neg hOther, List.find?_cons_of_neg hNotNamed]
      obtain hHides | hClear := Bool.eq_false_or_eq_true (spaced.written.hides name)
      · rw [if_pos hHides] at h
        rw [hHides, Bool.true_or, if_pos rfl]
        constructor
        · intro _
          exact findKey_hidden h
        · rintro other ⟨⟩
      · rw [if_neg (Bool.eq_false_iff.mp hClear)] at h
        rw [hClear, Bool.false_or]
        exact ih h

theorem CommandObject.findKey_text (object : CommandObject) (hName : ∀ c ∈ name, c.isAlpha = true) :
    (seen name object.members = none → findKey object.text name = none) ∧
      ∀ spaced, seen name object.members = some spaced → spaced.member.name = name ∧ ∃ tail,
        findKey object.text name = some (spaced.afterColon.text ++ (spaced.member.value.written ++
          (spaced.afterValue.text ++ tailText object.after tail))) :=
  findKey_seen (after_text hName object.written)

theorem CommandObject.memberOf_seen {object : CommandObject} {spaced : SpacedMember}
    (h : seen name object.members = some spaced) :
    shadowed name object.members = false ∧ object.memberOf name = some spaced.member := by
  rw [seen] at h
  split at h
  · cases h
  · rename_i hClear
    refine ⟨Bool.eq_false_iff.mpr hClear, ?_⟩
    rw [memberOf, h]
    rfl

theorem CommandObject.memberOf_unseen {object : CommandObject} (h : seen name object.members = none) :
    shadowed name object.members = true ∨ object.memberOf name = none := by
  rw [seen] at h
  split at h
  · exact .inl ‹_›
  · right
    rw [memberOf, h]
    rfl

end Finding

section Reading

variable {rest : StdString}

theorem unescape_letter (escape : Escape) : unescape escape.letter = some escape.char := by
  cases escape <;> rfl

theorem scanContent_spelling (content : List Piece) :
    scanContent (spelling content ++ '"' :: rest) =
      if content.any Piece.isUnicode then none else some (decode content) := by
  induction content with
  | nil => rfl
  | cons piece content ih =>
    rw [spelling_cons, List.append_assoc]
    cases piece with
    | plain c hPlain =>
      have hStep : scanContent (c :: (spelling content ++ '"' :: rest)) =
          (scanContent (spelling content ++ '"' :: rest)).map (c :: ·) := by
        rw [scanContent]
        · exact hPlain.1
        · intro hSlash
          exact absurd hSlash hPlain.2
        · intro esc tail hSlash
          exact absurd hSlash hPlain.2
      have hPiece : (Piece.plain c hPlain).isUnicode = false := rfl
      refine hStep.trans ?_
      rw [ih, List.any_cons, hPiece, Bool.false_or]
      split <;> rfl
    | short escape =>
      have hStep : scanContent ('\\' :: escape.letter :: (spelling content ++ '"' :: rest)) =
          (scanContent (spelling content ++ '"' :: rest)).map (escape.char :: ·) := by
        rw [scanContent, unescape_letter]
      have hPiece : (Piece.short escape).isUnicode = false := rfl
      refine hStep.trans ?_
      rw [ih, List.any_cons, hPiece, Bool.false_or]
      split <;> rfl
    | unicode digits hDigits => rfl

theorem length_skipSign_le (text : StdString) : (skipSign text).length ≤ text.length := by
  rw [skipSign.eq_def]
  split
  · exact Nat.le_succ _
  · exact Nat.le_succ _
  · exact le_rfl

theorem length_skipFraction_le (text : StdString) : (skipFraction text).length ≤ text.length := by
  rw [skipFraction.eq_def]
  split
  · exact ((List.dropWhile_sublist _).length_le).trans (Nat.le_succ _)
  · exact le_rfl

theorem length_skipExponent_le (text : StdString) : (skipExponent text).length ≤ text.length := by
  rw [skipExponent.eq_def]
  split
  · exact le_rfl
  · split
    · exact (((List.dropWhile_sublist _).length_le).trans (length_skipSign_le _)).trans (Nat.le_succ _)
    · exact le_rfl

theorem skipNumber_ne {d : Char} {tail : StdString} (hd : d = '-' ∨ d.isDigit = true) :
    skipNumber (d :: tail) ≠ d :: tail := by
  have hShorter : ((skipSign (d :: tail)).dropWhile Char.isDigit).length ≤ tail.length := by
    obtain rfl | hDigit := hd
    · exact (List.dropWhile_sublist _).length_le
    · have hSign : skipSign (d :: tail) = d :: tail := by
        rw [skipSign.eq_def]
        split
        · rename_i hEq
          rw [(List.cons.inj hEq).1] at hDigit
          exact absurd hDigit (by decide)
        · rename_i hEq
          rw [(List.cons.inj hEq).1] at hDigit
          exact absurd hDigit (by decide)
        · rfl
      rw [hSign, List.dropWhile_cons_of_pos hDigit]
      exact (List.dropWhile_sublist _).length_le
  intro hSame
  have hLength := (length_skipExponent_le _).trans ((length_skipFraction_le _).trans hShorter)
  rw [skipNumber] at hSame
  rw [hSame, List.length_cons] at hLength
  omega

namespace CommandObject

variable (object : CommandObject)

def plainText (content : List Piece) : Option StdString :=
  if content.any Piece.isUnicode then none else some (decode content)

def readText (field : TextField) : Option StdString :=
  if shadowed field.name object.members then none else (object.contentOf field).bind plainText

def readDouble (field : NumberField) : Option RawDouble :=
  if shadowed field.name object.members then none else (object.decimalOf field).map DecimalNumber.double

def readFlag : Option Bool := if shadowed flagName object.members then none else object.flagOf

theorem tryGetString_text (field : TextField) : tryGetString object.text field.name = object.readText field := by
  obtain ⟨hNone, hSome⟩ := object.findKey_text field.name_letters
  rw [tryGetString, readText]
  cases hSeen : seen field.name object.members with
  | none =>
    rw [hNone hSeen]
    obtain hShadowed | hAbsent := memberOf_unseen hSeen
    · rw [if_pos hShadowed]
    · rw [contentOf, hAbsent, Option.bind_none, Option.bind_none]
      exact (ite_self _).symm
  | some spaced =>
    obtain ⟨hName, tail, hFound⟩ := hSome spaced hSeen
    obtain ⟨hClear, hMember⟩ := memberOf_seen hSeen
    obtain ⟨content, hContent, hValue⟩ := CommandMember.content_of_name hName
    rw [hFound, hClear, contentOf, hMember, Option.bind_some, hContent, Option.bind_some, if_neg Bool.false_ne_true]
    dsimp only
    rw [skipWhitespace_blank, hValue, Value.written, List.cons_append, skipWhitespace_cons (by decide),
      List.append_assoc]
    exact scanContent_spelling content

theorem tryGetDouble_text (field : NumberField) : tryGetDouble object.text field.name = object.readDouble field := by
  obtain ⟨hNone, hSome⟩ := object.findKey_text field.name_letters
  rw [tryGetDouble, readDouble]
  cases hSeen : seen field.name object.members with
  | none =>
    rw [hNone hSeen]
    obtain hShadowed | hAbsent := memberOf_unseen hSeen
    · rw [if_pos hShadowed]
    · rw [decimalOf, hAbsent, Option.bind_none, Option.map_none]
      exact (ite_self _).symm
  | some spaced =>
    obtain ⟨hName, tail, hFound⟩ := hSome spaced hSeen
    obtain ⟨hClear, hMember⟩ := memberOf_seen hSeen
    obtain ⟨n, hNumber, hValue⟩ := CommandMember.decimal_of_name hName
    have hEnds := ends_tail spaced.afterValue object.after tail
    obtain ⟨d, digits, hText, hd, hSpace⟩ := text_head n hEnds
    rw [hFound, hClear, decimalOf, hMember, Option.bind_some, hNumber, Option.map_some, if_neg Bool.false_ne_true]
    dsimp only
    rw [skipWhitespace_blank, hValue, n.text_append, hText, skipWhitespace_cons hSpace, if_neg (skipNumber_ne hd),
      ← hText, strtod_text n hEnds]
    rfl

theorem tryGetBool_text : tryGetBool object.text flagName = object.readFlag := by
  obtain ⟨hNone, hSome⟩ := @findKey_text flagName object flagName_letters
  rw [tryGetBool, readFlag]
  cases hSeen : seen flagName object.members with
  | none =>
    rw [hNone hSeen]
    obtain hShadowed | hAbsent := memberOf_unseen hSeen
    · rw [if_pos hShadowed]
    · rw [flagOf, hAbsent, Option.bind_none]
      exact (ite_self _).symm
  | some spaced =>
    obtain ⟨hName, tail, hFound⟩ := hSome spaced hSeen
    obtain ⟨hClear, hMember⟩ := memberOf_seen hSeen
    obtain ⟨highPriority, hFlag, hValue⟩ := CommandMember.highPriority_of_name hName
    rw [hFound, hClear, flagOf, hMember, Option.bind_some, hFlag, if_neg Bool.false_ne_true]
    dsimp only
    rw [skipWhitespace_blank, hValue]
    cases highPriority <;> rfl

theorem tryGetBool_absent {name : StdString} (hLetters : ∀ c ∈ name, c.isAlpha = true)
    (hName : ∀ member : CommandMember, member.name ≠ name) : tryGetBool object.text name = none := by
  obtain ⟨hNone, hSome⟩ := object.findKey_text hLetters
  rw [tryGetBool]
  cases hSeen : seen name object.members with
  | none => rw [hNone hSeen]
  | some spaced => exact absurd (hSome spaced hSeen).1 (hName spaced.member)

end CommandObject

end Reading

end EdgeGateway.MqttDriver
