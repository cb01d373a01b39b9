import EdgeGateway.MqttDriver.RequestReading

/-! # Commands read as they are meant -/

namespace EdgeGateway.MqttDriver

open QuotedText Numerals DecimalNumbers FlatObject FlatJsonReader

namespace CommandObject

variable (object : CommandObject) (casts : Casts)

def HasIndex : Prop := ∃ n k, object.decimalOf .index = some n ∧ 1 ≤ k ∧ k < 2 ^ 32 ∧ n.Equals (k : Nat)

structure IsCommand : Prop where
  cmdId : object.meaning .cmdId ≠ []
  index : object.HasIndex
  value : object.decimalOf .value ≠ none

/-- The request has the values of the members, a number as the double nearest to it. -/
structure Carries (request : MqttCommandRequest) : Prop where
  text : ∀ field, request.text field = object.meaning field
  index : ∃ n, object.decimalOf .index = some n ∧ n.Equals request.index.toNat
  value : ∃ n, object.decimalOf .value = some n ∧ request.value = n.double
  ts : (∀ n, object.decimalOf .ts = some n → n.Equals request.ts) ∧ (object.decimalOf .ts = none → request.ts = 0)
  highPriority : request.highPriority = object.flagOf.getD false

/-- The object is answered as it is meant. -/
structure Answered : Prop where
  accepted : object.IsCommand → ∃ request, parseCommandRequest casts object.text = .ok request ∧ object.Carries request
  refused : ¬object.IsCommand → ∃ error, parseCommandRequest casts object.text = .error error

def IsHidden (name : StdString) : Prop := shadowed name object.members = true

/-- The string of the field is hidden, or has an escape of four digits. -/
def IsUnread (field : TextField) : Prop :=
  object.IsHidden field.name ∨ ∃ content, object.contentOf field = some content ∧ content.any Piece.isUnicode = true

/-- An unread member holds what its absence stands for, and a time comes back from its double. -/
structure LegibleCommand : Prop where
  text : ∀ field, object.IsUnread field → object.meaning field = field.fallback
  index : ¬object.IsHidden NumberField.index.name
  value : ¬object.IsHidden NumberField.value.name
  ts : ∀ n, object.decimalOf .ts = some n →
    n.Equals (if shadowed NumberField.ts.name object.members then 0 else casts.toInt64 n.double)
  highPriority : object.IsHidden flagName → object.flagOf.getD false = false

/-- The index is negative or converts to zero, or a required member is unread. -/
def IsRefusedIndex (n : DecimalNumber) : Prop :=
  object.IsUnread .cmdId ∨ object.IsHidden NumberField.index.name ∨ object.IsHidden NumberField.value.name ∨
    less n.double 0 = true ∨ casts.toUInt32 n.double = 0

structure Legible : Prop where
  command : object.IsCommand → object.LegibleCommand casts
  index : object.meaning .cmdId ≠ [] → object.decimalOf .value ≠ none → ¬object.HasIndex →
    ∀ n, object.decimalOf .index = some n → object.IsRefusedIndex casts n

def readIndex : Option UInt32 :=
  match object.readDouble .index with
  | none => none
  | some index => if less index 0 then none else some (casts.toUInt32 index)

def reading (field : TextField) : StdString :=
  let value := (object.readText field).getD []
  if value = [] then field.fallback else value

def readRequest (value : RawDouble) : MqttCommandRequest where
  cmdId := object.reading .cmdId
  machineCode := object.reading .machineCode
  meterCode := object.reading .meterCode
  pointCode := object.reading .pointCode
  index := (object.readIndex casts).getD 0
  value := value
  source := object.reading .source
  ts := ((object.readDouble .ts).map casts.toInt64).getD 0
  highPriority := object.readFlag.getD false

theorem readRequest_text (value : RawDouble) (field : TextField) :
    (object.readRequest casts value).text field = object.reading field := by
  cases field <;> rfl

theorem reading_unchanged {field : TextField} (h : field.fallback = []) :
    object.reading field = (object.readText field).getD [] := by
  rw [reading, h]
  split
  · rename_i hEmpty
    exact hEmpty.symm
  · rfl

theorem tryGetBool_other {name : StdString} (hLetters : ∀ c ∈ name, c.isAlpha = true)
    (hText : ∀ field : TextField, field.name ≠ name) (hNumber : ∀ field : NumberField, field.name ≠ name)
    (hFlag : flagName ≠ name) : tryGetBool object.text name = none := by
  apply object.tryGetBool_absent hLetters
  intro member
  cases member with
  | text field _ => exact hText field
  | number field _ => exact hNumber field
  | flag _ => exact hFlag

theorem parse_text : parseCommandRequest casts object.text =
    if object.reading .cmdId = [] then .error .cmdIdRequired
    else if (object.readIndex casts).getD 0 = 0 then .error .indexRequired
    else
      match object.readDouble .value with
      | none => .error .valueRequired
      | some value => .ok (object.readRequest casts value) := by
  have hCmdId : tryGetString object.text "cmdId".toList = object.readText .cmdId := object.tryGetString_text .cmdId
  have hMachineCode : tryGetString object.text "machineCode".toList = object.readText .machineCode :=
    object.tryGetString_text .machineCode
  have hMeterCode : tryGetString object.text "meterCode".toList = object.readText .meterCode := object.tryGetString_text .meterCode
  have hPointCode : tryGetString object.text "pointCode".toList = object.readText .pointCode := object.tryGetString_text .pointCode
  have hSource : tryGetString object.text "source".toList = object.readText .source := object.tryGetString_text .source
  have hIndexDouble : tryGetDouble object.text "index".toList = object.readDouble .index := object.tryGetDouble_text .index
  have hIndex : tryGetUInt32 casts object.text "index".toList = object.readIndex casts := by
    rw [tryGetUInt32, hIndexDouble]
    rfl
  have hValue : tryGetDouble object.text "value".toList = object.readDouble .value := object.tryGetDouble_text .value
  have hTsDouble : tryGetDouble object.text "ts".toList = object.readDouble .ts := object.tryGetDouble_text .ts
  have hFlag : tryGetBool object.text "highPriority".toList = object.readFlag := object.tryGetBool_text
  have hPriority : tryGetBool object.text "priority".toList = none := by
    apply object.tryGetBool_other (List.all_eq_true.mp (by decide)) _ _ (by decide)
    · intro field
      cases field <;> decide
    · intro field
      cases field <;> decide
  have hControl : tryGetBool object.text "priorityControl".toList = none := by
    apply object.tryGetBool_other (List.all_eq_true.mp (by decide)) _ _ (by decide)
    · intro field
      cases field <;> decide
    · intro field
      cases field <;> decide
  rw [parseCommandRequest, hCmdId, hMachineCode, hMeterCode, hPointCode, hSource, hIndex, hValue, tryGetInt64, hTsDouble,
    hFlag, hPriority, hControl, Option.or_none, Option.or_none, @reading_unchanged object .cmdId rfl]
  dsimp only
  split
  · rfl
  · split
    · rfl
    · cases object.readDouble .value with
      | none => rfl
      | some value =>
        unfold readRequest
        rw [@reading_unchanged object .cmdId rfl, @reading_unchanged object .machineCode rfl,
          @reading_unchanged object .meterCode rfl, @reading_unchanged object .pointCode rfl]
        rfl

theorem parse_error_iff : (∃ error, parseCommandRequest casts object.text = .error error) ↔
    object.reading .cmdId = [] ∨ (object.readIndex casts).getD 0 = 0 ∨ object.readDouble .value = none := by
  rw [parse_text]
  split
  · rename_i hCmdId
    exact ⟨fun _ => .inl hCmdId, fun _ => ⟨_, rfl⟩⟩
  · rename_i hCmdId
    split
    · rename_i hIndex
      exact ⟨fun _ => .inr (.inl hIndex), fun _ => ⟨_, rfl⟩⟩
    · rename_i hIndex
      cases object.readDouble .value with
      | none => exact ⟨fun _ => .inr (.inr rfl), fun _ => ⟨_, rfl⟩⟩
      | some value =>
        constructor
        · rintro ⟨error, hError⟩
          cases hError
        · rintro (h | h | h)
          · exact absurd h hCmdId
          · exact absurd h hIndex
          · cases h

theorem parse_ok_iff {request : MqttCommandRequest} : parseCommandRequest casts object.text = .ok request ↔
    object.reading .cmdId ≠ [] ∧ (object.readIndex casts).getD 0 ≠ 0 ∧
      ∃ value, object.readDouble .value = some value ∧ object.readRequest casts value = request := by
  rw [parse_text]
  constructor
  · intro h
    split at h
    · cases h
    · rename_i hCmdId
      split at h
      · cases h
      · rename_i hIndex
        split at h
        · cases h
        · rename_i value hValue
          exact ⟨hCmdId, hIndex, value, hValue, Except.ok.inj h⟩
  · rintro ⟨hCmdId, hIndex, value, hValue, rfl⟩
    rw [if_neg hCmdId, if_neg hIndex, hValue]

section Reading

variable {object casts}

theorem reading_unread {field : TextField} (h : object.IsUnread field) : object.reading field = field.fallback := by
  have hNone : object.readText field = none := by
    rw [readText]
    split
    · rfl
    · rename_i hClear
      obtain hHidden | ⟨content, hContent, hUnicode⟩ := h
      · exact absurd hHidden hClear
      · rw [hContent, Option.bind_some, plainText, if_pos hUnicode]
  rw [reading, hNone]
  rfl

theorem reading_read {field : TextField} (h : ¬object.IsUnread field) : object.reading field = object.meaning field := by
  have hText : object.readText field = (object.contentOf field).map decode := by
    rw [readText, if_neg (show ¬shadowed field.name object.members = true from fun hHidden => h (.inl hHidden))]
    cases hContent : object.contentOf field with
    | none => rfl
    | some content =>
      rw [Option.bind_some, plainText, if_neg fun hUnicode => h (.inr ⟨content, hContent, hUnicode⟩)]
      rfl
  rw [reading, meaning, hText]

theorem readDouble_hidden {field : NumberField} (h : object.IsHidden field.name) : object.readDouble field = none :=
  if_pos h

theorem readDouble_clear {field : NumberField} (h : ¬object.IsHidden field.name) :
    object.readDouble field = (object.decimalOf field).map DecimalNumber.double :=
  if_neg h

theorem readIndex_eq_zero {n : DecimalNumber} (hIndex : object.decimalOf .index = some n) :
    (object.readIndex casts).getD 0 = 0 ↔
      object.IsHidden NumberField.index.name ∨ less n.double 0 = true ∨ casts.toUInt32 n.double = 0 := by
  rw [readIndex]
  obtain hHidden | hClear := Classical.em (object.IsHidden NumberField.index.name)
  · rw [readDouble_hidden hHidden, Option.getD_none]
    exact ⟨fun _ => .inl hHidden, fun _ => rfl⟩
  · rw [readDouble_clear hClear, hIndex, Option.map_some]
    dsimp only
    split
    · rename_i hNegative
      rw [Option.getD_none]
      exact ⟨fun _ => .inr (.inl hNegative), fun _ => rfl⟩
    · rename_i hPositive
      rw [Option.getD_some]
      constructor
      · exact fun hZero => .inr (.inr hZero)
      · rintro (hHidden | hNegative | hZero)
        · exact absurd hHidden hClear
        · exact absurd hNegative hPositive
        · exact hZero

theorem readTs_eq {n : DecimalNumber} (hTs : object.decimalOf .ts = some n) :
    ((object.readDouble .ts).map casts.toInt64).getD 0 =
      if shadowed NumberField.ts.name object.members then 0 else casts.toInt64 n.double := by
  rw [readDouble, hTs]
  split
  · rw [Option.map_none, Option.getD_none]
  · rw [Option.map_some, Option.map_some, Option.getD_some]

theorem readTs_absent (hTs : object.decimalOf .ts = none) : ((object.readDouble .ts).map casts.toInt64).getD 0 = 0 := by
  rw [readDouble, hTs]
  split <;> rfl

theorem whole_of_units {value : RawDouble} {k : Nat} (hUnits : units value = k * 2 ^ 1074)
    (hSign : isNegative value = false) : Casts.whole value = k := by
  have hPower : (2 : Int) ^ 1074 = ((2 ^ 1074 : Nat) : Int) := (Int.natCast_pow 2 1074).symm
  have hPositive : ((2 ^ 1074 : Nat) : Int) ≠ 0 := Int.natCast_ne_zero.mpr (Nat.ne_of_gt (Nat.two_pow_pos 1074))
  rw [Casts.whole, signedUnits, if_neg (Bool.eq_false_iff.mp hSign), hUnits, hPower, Int.natCast_mul]
  exact Int.mul_tdiv_cancel _ hPositive

theorem toUInt32_double {n : DecimalNumber} {k : Nat} (hLow : 1 ≤ k) (hHigh : k < 2 ^ 32) (hValue : n.Equals k) :
    less n.double 0 = false ∧ (casts.toUInt32 n.double).toNat = k := by
  obtain ⟨hUnits, hSign⟩ := n.double_whole hValue hLow (hHigh.trans (by decide))
  have hWhole : Casts.whole n.double = k := whole_of_units hUnits hSign
  constructor
  · have hZero : signedUnits 0 = 0 := by decide
    have hOrder : ¬signedUnits n.double < signedUnits 0 := by
      rw [hZero, signedUnits, if_neg (Bool.eq_false_iff.mp hSign)]
      omega
    rw [less, decide_eq_false hOrder, Bool.and_false]
  · rw [Casts.toUInt32, hWhole, if_pos (by omega), Int.toNat_natCast]
    exact UInt32.toNat_ofNat_of_lt' hHigh

end Reading

/-- A flat object of command fields is answered as it is meant if and only if it is legible. -/
theorem answered_iff_legible (casts : Casts) (object : CommandObject) : object.Answered casts ↔ object.Legible casts := by
  constructor
  · intro hAnswered
    constructor
    · intro hCommand
      obtain ⟨request, hOk, hCarries⟩ := hAnswered.accepted hCommand
      obtain ⟨hCmdId, hIndex, value, hValue, rfl⟩ := (object.parse_ok_iff casts).mp hOk
      constructor
      · intro field hUnread
        rw [← hCarries.text field, readRequest_text, reading_unread hUnread]
      · intro hHidden
        rw [readIndex, readDouble_hidden hHidden] at hIndex
        exact hIndex rfl
      · intro hHidden
        rw [readDouble_hidden hHidden] at hValue
        cases hValue
      · intro n hTs
        have hEquals := hCarries.ts.1 n hTs
        rw [← readTs_eq hTs]
        exact hEquals
      · intro hHidden
        rw [← hCarries.highPriority]
        exact congrArg (fun flag : Option Bool => flag.getD false) (if_pos hHidden)
    · intro hCmdId hValue hIndex n hNumber
      have hError := (object.parse_error_iff casts).mp (hAnswered.refused fun hCommand => hIndex hCommand.index)
      obtain hEmpty | hZero | hAbsent := hError
      · left
        by_contra hRead
        rw [reading_read hRead] at hEmpty
        exact hCmdId hEmpty
      · obtain hHidden | hRest := (readIndex_eq_zero hNumber).mp hZero
        · exact .inr (.inl hHidden)
        · exact .inr (.inr (.inr hRest))
      · right; right; left
        by_contra hClear
        rw [readDouble_clear hClear] at hAbsent
        exact hValue (Option.map_eq_none_iff.mp hAbsent)
  · intro hLegible
    constructor
    · intro hCommand
      have hMembers := hLegible.command hCommand
      have hReading : ∀ field, object.reading field = object.meaning field := by
        intro field
        obtain hUnread | hRead := Classical.em (object.IsUnread field)
        · rw [reading_unread hUnread, hMembers.text field hUnread]
        · exact reading_read hRead
      obtain ⟨value, hValue⟩ := Option.ne_none_iff_exists'.mp hCommand.value
      obtain ⟨n, k, hNumber, hLow, hHigh, hEquals⟩ := hCommand.index
      obtain ⟨hNegative, hIndex⟩ := @toUInt32_double casts n k hLow hHigh hEquals
      have hReadIndex : (object.readIndex casts).getD 0 = casts.toUInt32 n.double := by
        rw [readIndex, readDouble_clear hMembers.index, hNumber, Option.map_some]
        dsimp only
        rw [if_neg (Bool.eq_false_iff.mp hNegative), Option.getD_some]
      refine ⟨object.readRequest casts value.double, (object.parse_ok_iff casts).mpr ⟨?_, ?_, value.double, ?_, rfl⟩, ?_⟩
      · rw [hReading]
        exact hCommand.cmdId
      · rw [hReadIndex]
        intro hZero
        rw [hZero] at hIndex
        exact Nat.ne_of_gt hLow hIndex.symm
      · rw [readDouble_clear hMembers.value, hValue, Option.map_some]
      · constructor
        · intro field
          rw [readRequest_text, hReading]
        · refine ⟨n, hNumber, ?_⟩
          have hSame : (object.readRequest casts value.double).index.toNat = k := (congrArg UInt32.toNat hReadIndex).trans hIndex
          rw [hSame]
          exact hEquals
        · exact ⟨value, hValue, rfl⟩
        · constructor
          · intro n hTs
            have hEquals := hMembers.ts n hTs
            rw [← readTs_eq hTs] at hEquals
            exact hEquals
          · intro hAbsent
            exact readTs_absent hAbsent
        · obtain hHidden | hClear := Classical.em (object.IsHidden flagName)
          · rw [hMembers.highPriority hHidden]
            exact congrArg (fun flag : Option Bool => flag.getD false) (if_pos hHidden)
          · exact congrArg (fun flag : Option Bool => flag.getD false) (if_neg hClear)
    · intro hOther
      rw [parse_error_iff]
      by_contra hRead
      rw [not_or, not_or] at hRead
      obtain ⟨hCmdId, hIndex, hValue⟩ := hRead
      have hReadId : ¬object.IsUnread .cmdId := fun hUnread => hCmdId (reading_unread hUnread)
      have hId : object.meaning .cmdId ≠ [] := by
        rw [← reading_read hReadId]
        exact hCmdId
      have hPresent : object.decimalOf .value ≠ none := by
        intro hAbsent
        rw [readDouble, hAbsent, Option.map_none] at hValue
        exact hValue (ite_self _)
      refine hOther ⟨hId, ?_, hPresent⟩
      by_contra hOutside
      cases hNumber : object.decimalOf .index with
      | none =>
        rw [readIndex, readDouble, hNumber, Option.map_none, ite_self] at hIndex
        exact hIndex rfl
      | some n =>
        obtain hUnread | hHidden | hHidden | hConverted := hLegible.index hId hPresent hOutside n hNumber
        · exact hReadId hUnread
        · exact hIndex ((readIndex_eq_zero hNumber).mpr (.inl hHidden))
        · exact hValue (readDouble_hidden hHidden)
        · exact hIndex ((readIndex_eq_zero hNumber).mpr (.inr hConverted))

end CommandObject

section HiddenValue

open CommandObject

def noBlank : Blank := ⟨[], List.forall_mem_nil _⟩

def compact (member : CommandMember) : SpacedMember := ⟨member, noBlank, noBlank, noBlank, noBlank⟩

def digit (c : Char) (h : c.isDigit = true) : DecimalNumber where
  negative := false
  integral := [c]
  fraction := []
  exponent := none
  integral_ne := List.cons_ne_nil c []
  integral_isDigit := List.forall_mem_singleton.mpr h
  fraction_isDigit := List.forall_mem_nil _

def hiddenValue : CommandObject where
  before := noBlank
  inner := noBlank
  after := noBlank
  members :=
    [compact (.text .cmdId [.plain 'v' (by decide), .plain 'a' (by decide), .plain 'l' (by decide),
        .plain 'u' (by decide), .plain 'e' (by decide)]),
      compact (.number .index (digit '1' (by decide))), compact (.number .value (digit '5' (by decide)))]
  distinct := by decide

theorem hiddenValue_isCommand : hiddenValue.IsCommand where
  cmdId := by decide
  index := ⟨digit '1' (by decide), 1, rfl, by decide, by decide, by decide⟩
  value := Option.some_ne_none _

/-- The search for the value stops at the identifier, and the command is refused. -/
theorem hidden_value_refused :
    hiddenValue.text = "\x7b\"cmdId\":\"value\",\"index\":1,\"value\":5\x7d".toList ∧ hiddenValue.IsCommand ∧
      ¬hiddenValue.Answered ⟨fun _ => 0, fun _ => 0⟩ := by
  refine ⟨by decide, hiddenValue_isCommand, fun hAnswered => ?_⟩
  obtain ⟨request, hOk, -⟩ := hAnswered.accepted hiddenValue_isCommand
  obtain ⟨-, -, value, hValue, -⟩ := (hiddenValue.parse_ok_iff _).mp hOk
  have hHidden : hiddenValue.IsHidden NumberField.value.name := show shadowed _ _ = true by decide
  rw [readDouble_hidden hHidden] at hValue
  cases hValue

end HiddenValue

end EdgeGateway.MqttDriver
