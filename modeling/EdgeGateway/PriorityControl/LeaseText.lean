import EdgeGateway.PriorityControl.Lease

/-! # What the priority lease file says -/

namespace EdgeGateway.PriorityControl

open QuotedText

def jsonImage (c : Char) : Option Char :=
  match c with
  | '\\' => some '\\'
  | '"' => some '"'
  | '\n' => some 'n'
  | '\r' => some 'r'
  | '\t' => some 't'
  | _ => none

def jsonEscaping : Escaping where
  image := jsonImage
  quote := rfl
  backslash := rfl
  quote_only := by
    intro c hc
    unfold jsonImage at hc
    split at hc <;> first | rfl | cases hc
  plain_alpha := by
    intro c hc
    unfold jsonImage
    split <;> first | rfl | cases hc

theorem escapeJson_eq (value : StdString) : escapeJson value = jsonEscaping.escape value := by
  have hChar : escapeJsonChar = jsonEscaping.escapeChar := by
    funext c
    rw [Escaping.escapeChar, show jsonEscaping.image c = jsonImage c from rfl]
    unfold escapeJsonChar jsonImage
    split <;> simp_all
  rw [escapeJson, hChar, Escaping.escape]

def Plain (value : StdString) : Prop := '\n' ∉ value ∧ '\r' ∉ value ∧ '\t' ∉ value

instance (value : StdString) : Decidable (Plain value) := inferInstanceAs (Decidable (_ ∧ _))

theorem readBack_char (c : Char) : (jsonImage c).getD c = c ↔ c ≠ '\n' ∧ c ≠ '\r' ∧ c ≠ '\t' := by
  unfold jsonImage
  split <;> simp_all

theorem readBack_eq_iff (value : StdString) : jsonEscaping.readBack value = value ↔ Plain value := by
  induction value with
  | nil => simp [Escaping.readBack, Plain]
  | cons c value ih =>
    have hCons : jsonEscaping.readBack (c :: value) = (jsonImage c).getD c :: jsonEscaping.readBack value := rfl
    rw [hCons, List.cons.injEq, readBack_char, ih]
    simp only [Plain, List.mem_cons, not_or]
    tauto

namespace PriorityControlLeaseState

variable (state : PriorityControlLeaseState)

def strings : List Member :=
  [.text "owner".toList state.owner, .text "cmdId".toList state.cmdId, .text "meterCode".toList state.meterCode]

def numbers : List Member :=
  [.plain "index".toList (intText state.index.toNat), .plain "createdAtMs".toList (intText state.createdAtMs),
    .plain "expireAtMs".toList (intText state.expireAtMs)]

theorem leaseText_eq :
    leaseText state = renderObject jsonEscaping (.text "owner".toList state.owner)
      (.text "cmdId".toList state.cmdId :: .text "meterCode".toList state.meterCode :: state.numbers) := by
  have hOwner : "\x7b\"owner\":\"".toList = '{' :: (quoted "owner".toList ++ [':', '"']) := by decide
  have hCmdId : "\",\"cmdId\":\"".toList = '"' :: ',' :: (quoted "cmdId".toList ++ [':', '"']) := by decide
  have hMeter : "\",\"meterCode\":\"".toList = '"' :: ',' :: (quoted "meterCode".toList ++ [':', '"']) := by decide
  have hIndex : "\",\"index\":".toList = '"' :: ',' :: (quoted "index".toList ++ [':']) := by decide
  have hCreated : ",\"createdAtMs\":".toList = ',' :: (quoted "createdAtMs".toList ++ [':']) := by decide
  have hExpire : ",\"expireAtMs\":".toList = ',' :: (quoted "expireAtMs".toList ++ [':']) := by decide
  have hEnd : "\x7d".toList = ['}'] := by decide
  unfold leaseText
  simp only [hOwner, hCmdId, hMeter, hIndex, hCreated, hExpire, hEnd, renderObject, renderTail, numbers,
    escapeJson_eq, Member.key, Member.value, List.append_assoc, List.cons_append, List.nil_append]

theorem members_wellFormed : ∀ member ∈ state.strings ++ state.numbers, member.WellFormed := by
  have hInt : ∀ n, '"' ∉ intText n := not_mem_intText (by decide) (by decide)
  intro member hMember
  simp only [strings, numbers, List.cons_append, List.nil_append, List.mem_cons, List.not_mem_nil, or_false] at hMember
  obtain rfl | rfl | rfl | rfl | rfl | rfl := hMember
  · simp [Member.WellFormed]
  · simp [Member.WellFormed]
  · simp [Member.WellFormed]
  · exact ⟨by simp, hInt _⟩
  · exact ⟨by simp, hInt _⟩
  · exact ⟨by simp, hInt _⟩

theorem after_leaseText (key : StdString) (hKey : ∀ c ∈ key, c.isAlpha = true) :
    after (quoted key) (leaseText state) = locate jsonEscaping key (state.strings ++ state.numbers) := by
  rw [leaseText_eq]
  exact after_renderObject jsonEscaping hKey _ _ state.members_wellFormed

def Hides (key : StdString) : Prop :=
  Shadows key state.owner ∨ Shadows key state.cmdId ∨ Shadows key state.meterCode

instance (key : StdString) : Decidable (state.Hides key) := inferInstanceAs (Decidable (_ ∨ _))

theorem hides_iff (key : StdString) : state.Hides key ↔ ∃ m ∈ state.strings, m.Shadows key := by
  simp [Hides, strings, Member.Shadows]

end PriorityControlLeaseState

theorem extractInt64Field_of_found {text key rest : StdString} {n fallback : Int} (hn : IsInt64 n)
    (hFound : after (quoted key) text = some (':' :: (intText n ++ rest)))
    (hRest : ∀ c ∈ rest.head?, c.isDigit = false) : extractInt64Field text key fallback = n := by
  rw [extractInt64Field, hFound, Option.bind_some, afterColon_colon, Option.bind_some, skipWhitespace_intText,
    scanInt64_intText hn hRest, Option.getD_some]

theorem extractInt64Field_of_shadow {text key : StdString} {members : List Member} {fallback : Int}
    (hFound : after (quoted key) text = some (renderTail jsonEscaping members)) :
    extractInt64Field text key fallback = fallback := by
  rw [extractInt64Field, hFound, Option.bind_some, afterColon_of_prefix jsonEscaping (List.prefix_refl _)]
  rfl

theorem extractInt64Field_leaseText (state : PriorityControlLeaseState) (front : List Member) {rest : List Member}
    {key : StdString} {n fallback : Int} (hKey : ∀ c ∈ key, c.isAlpha = true) (hn : IsInt64 n)
    (hNumbers : state.numbers = front ++ .plain key (intText n) :: rest)
    (hStrings : ∀ m ∈ state.strings, m.key ≠ key) (hFront : ∀ m ∈ front, m.key ≠ key ∧ ¬ m.Shadows key) :
    extractInt64Field (leaseText state) key fallback = if state.Hides key then fallback else n := by
  have hFound := state.after_leaseText key hKey
  split
  · rename_i hHidden
    obtain ⟨members, hTail⟩ := locate_hidden jsonEscaping hStrings state.numbers ((state.hides_iff key).mp hHidden)
    exact extractInt64Field_of_shadow (hFound.trans hTail)
  · rename_i hClear
    have hSkip : ¬ ∃ m ∈ front, m.Shadows key := by
      rintro ⟨m, hMem, hShadow⟩
      exact (hFront m hMem).2 hShadow
    rw [locate_clear jsonEscaping hStrings _ (fun h => hClear ((state.hides_iff key).mpr h)), hNumbers,
      locate_clear jsonEscaping (fun m hm => (hFront m hm).1) _ hSkip, locate_plain_self] at hFound
    exact extractInt64Field_of_found hn hFound (head_renderTail_not_digit _ _)

theorem extractStringField_owner (state : PriorityControlLeaseState) :
    extractStringField (leaseText state) "owner".toList = jsonEscaping.readBack state.owner := by
  have hFound := state.after_leaseText "owner".toList (by simp)
  rw [PriorityControlLeaseState.strings, List.cons_append, locate_text_self] at hFound
  exact stringMember_of_found jsonEscaping hFound

theorem extractStringField_cmdId (state : PriorityControlLeaseState) {view cut : StdString} (hCut : IsCut cut)
    (hView : view ++ cut = leaseText state) :
    extractStringField view "cmdId".toList =
      if Shadows "cmdId".toList state.owner then [] else jsonEscaping.readBack state.cmdId := by
  have hFound := state.after_leaseText "cmdId".toList (by simp)
  rw [← hView, after_cut (by simp [quoted]) (by decide) hCut, PriorityControlLeaseState.strings, List.cons_append,
    locate_text_ne _ (by decide), List.cons_append, locate_text_self] at hFound
  split
  · rename_i hShadow
    rw [if_pos hShadow] at hFound
    obtain ⟨rest, hRest, hTail⟩ := Option.map_eq_some_iff.mp hFound
    exact stringMember_of_shadow jsonEscaping hRest ⟨cut, hTail⟩
  · rename_i hClear
    rw [if_neg hClear] at hFound
    obtain ⟨rest, hRest, hTail⟩ := Option.map_eq_some_iff.mp hFound
    obtain ⟨body, rfl⟩ := @exists_cut jsonEscaping
      (':' :: Member.value jsonEscaping (.text "cmdId".toList state.cmdId)) rest cut hCut _ hTail
    exact stringMember_of_found jsonEscaping hRest

theorem extractStringField_meterCode (state : PriorityControlLeaseState) :
    extractStringField (leaseText state) "meterCode".toList =
      if Shadows "meterCode".toList state.owner ∨ Shadows "meterCode".toList state.cmdId then []
      else jsonEscaping.readBack state.meterCode := by
  have hFound := state.after_leaseText "meterCode".toList (by simp)
  have hKeys : ∀ m ∈ [Member.text "owner".toList state.owner, .text "cmdId".toList state.cmdId],
      m.key ≠ "meterCode".toList := by
    simp [Member.key]
  have hHidden : (∃ m ∈ [Member.text "owner".toList state.owner, .text "cmdId".toList state.cmdId],
      m.Shadows "meterCode".toList) ↔
        Shadows "meterCode".toList state.owner ∨ Shadows "meterCode".toList state.cmdId := by
    simp [Member.Shadows]
  split
  · rename_i hShadow
    obtain ⟨members, hTail⟩ := locate_hidden jsonEscaping hKeys
      (.text "meterCode".toList state.meterCode :: state.numbers) (hHidden.mpr hShadow)
    exact stringMember_of_shadow jsonEscaping (hFound.trans hTail) (List.prefix_refl _)
  · rename_i hClear
    have hTail := locate_clear jsonEscaping hKeys
      (.text "meterCode".toList state.meterCode :: state.numbers) (fun h => hClear (hHidden.mp h))
    rw [locate_text_self] at hTail
    exact stringMember_of_found jsonEscaping (hFound.trans hTail)

/-! ## A priority lease is known by what was written

Exactly when the text fits the reader's limit, the strings hold no control character and none of
them is mistaken for a key.
-/

def escapedSize (value : StdString) : Nat := value.length + value.countP fun c => (jsonImage c).isSome

theorem length_escapeJson (value : StdString) : (escapeJson value).length = escapedSize value := by
  rw [escapeJson_eq]
  induction value with
  | nil => rfl
  | cons c value ih =>
    rw [Escaping.escape_cons, List.length_append, ih, escapedSize, escapedSize, List.length_cons, List.countP_cons]
    rw [Escaping.escapeChar, show jsonEscaping.image c = jsonImage c from rfl]
    cases jsonImage c with
    | some d =>
      simp
      omega
    | none =>
      simp
      omega

namespace PriorityControlLeaseState

variable (state : PriorityControlLeaseState)

def writtenSize : Nat :=
  76 + escapedSize state.owner + escapedSize state.cmdId + escapedSize state.meterCode +
    (intText state.index.toNat).length + (intText state.createdAtMs).length + (intText state.expireAtMs).length

theorem length_leaseText : (leaseText state).length = state.writtenSize := by
  unfold leaseText
  simp only [List.length_append, length_escapeJson, writtenSize, String.length_toList]
  change 10 + _ + 11 + _ + 15 + _ + 10 + _ + 15 + _ + 14 + _ + 1 = _
  omega

theorem leaseText_ne_nil : leaseText state ≠ [] := by
  intro hNil
  have hLength := state.length_leaseText
  rw [hNil, writtenSize, List.length_nil] at hLength
  omega

def readAs : PriorityControlLeaseState where
  owner := jsonEscaping.readBack state.owner
  cmdId := if Shadows "cmdId".toList state.owner then [] else jsonEscaping.readBack state.cmdId
  meterCode :=
    if Shadows "meterCode".toList state.owner ∨ Shadows "meterCode".toList state.cmdId then []
    else jsonEscaping.readBack state.meterCode
  index := if state.Hides "index".toList then 0 else state.index
  createdAtMs := if state.Hides "createdAtMs".toList then 0 else state.createdAtMs
  expireAtMs := if state.Hides "expireAtMs".toList then 0 else state.expireAtMs

end PriorityControlLeaseState

theorem extractInt64Field_expireAtMs (state : PriorityControlLeaseState) (hExpire : IsInt64 state.expireAtMs) :
    extractInt64Field (leaseText state) "expireAtMs".toList 0 = state.readAs.expireAtMs := by
  apply extractInt64Field_leaseText state [_, _] (by simp) hExpire rfl
  · simp [PriorityControlLeaseState.strings, Member.key]
  · simp [Member.key, Member.Shadows]

theorem extractInt64Field_createdAtMs (state : PriorityControlLeaseState) (hNow : IsInt64 state.createdAtMs) :
    extractInt64Field (leaseText state) "createdAtMs".toList 0 = state.readAs.createdAtMs := by
  apply extractInt64Field_leaseText state [_] (by simp) hNow rfl
  · simp [PriorityControlLeaseState.strings, Member.key]
  · simp [Member.key, Member.Shadows]

theorem extractUInt32Field_index (state : PriorityControlLeaseState) :
    extractUInt32Field (leaseText state) "index".toList 0 = state.readAs.index := by
  have hBound := state.index.toNat_lt
  have hRange : IsInt64 (state.index.toNat : Int) := ⟨by omega, by omega⟩
  have hRead : extractInt64Field (leaseText state) "index".toList 0 =
      if state.Hides "index".toList then 0 else (state.index.toNat : Int) := by
    apply extractInt64Field_leaseText state [] (by simp) hRange rfl
    · simp [PriorityControlLeaseState.strings, Member.key]
    · simp
  have hFallback : ((0 : UInt32).toNat : Int) = 0 := rfl
  unfold extractUInt32Field
  rw [hFallback, hRead, PriorityControlLeaseState.readAs]
  by_cases hHidden : state.Hides "index".toList
  · rw [if_pos hHidden, if_pos hHidden]
    rfl
  · rw [if_neg hHidden, if_neg hHidden]
    simp

namespace PriorityControlLeaseState

variable (state : PriorityControlLeaseState)

structure Legible : Prop where
  size : state.writtenSize ≤ 16 * 1024
  owner : Plain state.owner
  cmdId : if Shadows "cmdId".toList state.owner then state.cmdId = [] else Plain state.cmdId
  meterCode :
    if Shadows "meterCode".toList state.owner ∨ Shadows "meterCode".toList state.cmdId then state.meterCode = []
    else Plain state.meterCode
  index : state.Hides "index".toList → state.index = 0
  createdAtMs : state.Hides "createdAtMs".toList → state.createdAtMs = 0
  expireAtMs : state.Hides "expireAtMs".toList → state.expireAtMs = 0

theorem readBack_if_eq {p : Prop} [Decidable p] (value : StdString) :
    (if p then [] else jsonEscaping.readBack value) = value ↔ if p then value = [] else Plain value := by
  split
  · exact eq_comm
  · exact readBack_eq_iff value

theorem readAs_eq_iff (hSize : state.writtenSize ≤ 16 * 1024) : state.readAs = state ↔ state.Legible := by
  obtain ⟨owner, cmdId, meterCode, index, createdAtMs, expireAtMs⟩ := state
  rw [readAs, PriorityControlLeaseState.mk.injEq]
  simp only [readBack_eq_iff, readBack_if_eq, ite_eq_right_iff]
  constructor
  · rintro ⟨hOwner, hCmdId, hMeter, hIndex, hCreated, hExpire⟩
    exact ⟨hSize, hOwner, hCmdId, hMeter, fun h => (hIndex h).symm, fun h => (hCreated h).symm,
      fun h => (hExpire h).symm⟩
  · rintro ⟨-, hOwner, hCmdId, hMeter, hIndex, hCreated, hExpire⟩
    exact ⟨hOwner, hCmdId, hMeter, fun h => (hIndex h).symm, fun h => (hCreated h).symm,
      fun h => (hExpire h).symm⟩

end PriorityControlLeaseState

namespace PriorityControlLease

variable {self : PriorityControlLease} {state : PriorityControlLeaseState}

theorem enabled_of_path (hPath : self.path ≠ []) : self.enabled = true := by
  simpa [enabled] using hPath

theorem activeLease_leaseText (hPath : self.path ≠ []) (hSize : state.writtenSize ≤ 16 * 1024)
    (hNow : IsInt64 state.createdAtMs) (hExpire : IsInt64 state.expireAtMs) (t : Int) :
    self.activeLease (some (leaseText state)) t =
      if state.readAs.expireAtMs ≤ t then none else some state.readAs := by
  have hText : readTextFile (some (leaseText state)) (16 * 1024) = leaseText state :=
    if_neg (by rw [PriorityControlLeaseState.length_leaseText]; omega)
  have hNe := state.leaseText_ne_nil
  unfold activeLease
  simp only [enabled_of_path hPath, hText, hNe, Bool.not_true, Bool.false_eq_true, if_false,
    extractInt64Field_expireAtMs state hExpire, extractInt64Field_createdAtMs state hNow,
    extractUInt32Field_index, extractStringField_owner, extractStringField_meterCode,
    extractStringField_cmdId state (.inl rfl) (List.append_nil _)]
  rfl

theorem activeLease_oversized (hSize : ¬ state.writtenSize ≤ 16 * 1024) (t : Int) :
    self.activeLease (some (leaseText state)) t = none := by
  have hText : readTextFile (some (leaseText state)) (16 * 1024) = [] :=
    if_pos (by rw [PriorityControlLeaseState.length_leaseText]; omega)
  unfold activeLease
  rw [hText]
  split <;> rfl

theorem activeLease_eq_iff (hPath : self.path ≠ []) (hNow : IsInt64 state.createdAtMs)
    (hExpire : IsInt64 state.expireAtMs) {t : Int} (ht : t < state.expireAtMs) :
    self.activeLease (some (leaseText state)) t = some state ↔ state.Legible := by
  by_cases hSize : state.writtenSize ≤ 16 * 1024
  · rw [activeLease_leaseText hPath hSize hNow hExpire, ← state.readAs_eq_iff hSize]
    constructor
    · intro hLease
      split at hLease
      · cases hLease
      · exact Option.some.inj hLease
    · intro hRead
      rw [hRead, if_neg (not_le.mpr ht)]
  · rw [activeLease_oversized hSize]
    constructor
    · intro hLease
      cases hLease
    · intro hLegible
      exact absurd hLegible.size hSize

theorem readBuffer_leaseText (hSize : state.writtenSize ≤ 16 * 1024) :
    ∃ cut, IsCut cut ∧ readBuffer (leaseText state) ++ cut = leaseText state := by
  obtain ⟨body, hBody⟩ : ∃ body, leaseText state = body ++ ['}'] := by
    unfold leaseText
    exact ⟨_, rfl⟩
  have hLength := state.length_leaseText
  obtain hShort | hFull := Nat.lt_or_ge state.writtenSize (16 * 1024)
  · refine ⟨[], .inl rfl, ?_⟩
    rw [List.append_nil, readBuffer, List.take_of_length_le (by omega)]
  · refine ⟨['}'], .inr rfl, ?_⟩
    have hTake : 16 * 1024 - 1 = body.length := by
      rw [hBody, List.length_append, List.length_singleton] at hLength
      omega
    rw [readBuffer, hTake, hBody, List.take_left]

theorem readBuffer_ne_nil : readBuffer (leaseText state) ≠ [] := by
  intro hNil
  have hLength := congrArg List.length hNil
  rw [readBuffer, List.length_take, PriorityControlLeaseState.length_leaseText,
    PriorityControlLeaseState.writtenSize, List.length_nil] at hLength
  omega

theorem releaseMatches_leaseText (hLegible : state.Legible) {io : Outcome} (hRead : io.read = true) {cmdId : StdString}
    (hCmdId : cmdId ≠ []) : releaseMatches io (leaseText state) cmdId = true ↔ cmdId = state.cmdId := by
  obtain ⟨cut, hCut, hView⟩ := @readBuffer_leaseText state hLegible.size
  have hFound := extractStringField_cmdId state hCut hView
  rw [(PriorityControlLeaseState.readBack_if_eq state.cmdId).mpr hLegible.cmdId] at hFound
  have hBuffer := @readBuffer_ne_nil state
  simp only [releaseMatches, hRead, hFound, List.isEmpty_iff, hCmdId, hBuffer, Bool.or_eq_true, Bool.not_true,
    Bool.false_eq_true, decide_eq_true_eq, false_or]
  exact eq_comm

theorem release_leaseText (hPath : self.path ≠ []) (hLegible : state.Legible) {cmdId : StdString}
    (hCmdId : cmdId ≠ []) :
    self.release ⟨true, true, true, true, true, true⟩ (some (leaseText state)) cmdId = none ↔ cmdId = state.cmdId := by
  rw [← @releaseMatches_leaseText state hLegible ⟨true, true, true, true, true, true⟩ rfl cmdId hCmdId]
  unfold release
  rw [enabled_of_path hPath]
  cases hMatches : releaseMatches ⟨true, true, true, true, true, true⟩ (leaseText state) cmdId <;> simp [hMatches]

theorem acquire_ok {io : Outcome} {file installed : Option StdString} {cmdId meterCode : StdString} {index : UInt32}
    {nowMs ttlMs : Int} (hPath : self.path ≠ [])
    (hAcquire : self.acquire io file cmdId meterCode index nowMs ttlMs = (.ok (), installed)) :
    installed = some (leaseText (self.leaseFor cmdId meterCode index nowMs ttlMs)) := by
  unfold acquire at hAcquire
  rw [enabled_of_path hPath] at hAcquire
  split_ifs at hAcquire with hOff
  · cases hOff
  · cases hAcquire
  · cases hAcquire
  · cases hAcquire
  · exact (Prod.mk.inj hAcquire).2.symm

end PriorityControlLease

/-- The lease comes back unchanged and is released under its own command only, exactly when it is legible. -/
theorem lease_identity_iff (self : PriorityControlLease) (hPath : self.path ≠ []) (io : Outcome)
    (file installed : Option StdString) (cmdId meterCode : StdString) (index : UInt32) (nowMs ttlMs t : Int)
    (hNow : IsInt64 nowMs) (hExpire : IsInt64 (nowMs + ttlMs)) (ht : t < nowMs + ttlMs)
    (hAcquire : self.acquire io file cmdId meterCode index nowMs ttlMs = (.ok (), installed)) :
    (self.activeLease installed t = some (self.leaseFor cmdId meterCode index nowMs ttlMs) ∧
      ∀ x, x ≠ [] → (self.release ⟨true, true, true, true, true, true⟩ installed x = none ↔ x = cmdId)) ↔
      (self.leaseFor cmdId meterCode index nowMs ttlMs).Legible := by
  obtain rfl := PriorityControlLease.acquire_ok hPath hAcquire
  have hLease := @PriorityControlLease.activeLease_eq_iff self (self.leaseFor cmdId meterCode index nowMs ttlMs)
    hPath hNow hExpire t ht
  constructor
  · rintro ⟨hActive, -⟩
    exact hLease.mp hActive
  · intro hLegible
    refine ⟨hLease.mpr hLegible, ?_⟩
    intro x hx
    exact PriorityControlLease.release_leaseText hPath hLegible hx

theorem legible_command_lease :
    (PriorityControlLease.leaseFor ⟨"lease".toList, "hmi".toList⟩ "cmd-7".toList "m1".toList 12 1000 5000).Legible where
  size := by decide
  owner := by decide
  cmdId := by decide
  meterCode := by decide
  index := fun hHides => absurd hHides (by decide)
  createdAtMs := fun hHides => absurd hHides (by decide)
  expireAtMs := fun hHides => absurd hHides (by decide)

theorem command_lease_identified :
    PriorityControlLease.activeLease ⟨"lease".toList, "hmi".toList⟩
        (some (leaseText (PriorityControlLease.leaseFor ⟨"lease".toList, "hmi".toList⟩ "cmd-7".toList "m1".toList 12 1000
          5000))) 2000 =
      some (PriorityControlLease.leaseFor ⟨"lease".toList, "hmi".toList⟩ "cmd-7".toList "m1".toList 12 1000 5000) :=
  ((lease_identity_iff ⟨"lease".toList, "hmi".toList⟩ (by decide) ⟨true, true, true, true, true, true⟩ none _
    "cmd-7".toList "m1".toList 12 1000 5000 2000 (by decide) (by decide) (by decide) rfl).mpr legible_command_lease).1

/-- A line feed in the command is written as the letter `n` and read as that letter. -/
theorem line_feed_changes_command :
    ∃ installed, PriorityControlLease.acquire ⟨"lease".toList, "hmi".toList⟩ ⟨true, true, true, true, true, true⟩ none
        "cmd\n7".toList "m1".toList 12 1000 5000 = (.ok (), installed) ∧ (1000 : Int) < 2000 ∧ (2000 : Int) < 1000 + 5000 ∧
      PriorityControlLease.activeLease ⟨"lease".toList, "hmi".toList⟩ installed 2000 ≠
        some (PriorityControlLease.leaseFor ⟨"lease".toList, "hmi".toList⟩ "cmd\n7".toList "m1".toList 12 1000 5000) := by
  refine ⟨_, rfl, by decide, by decide, ?_⟩
  intro hActive
  have hLegible := (PriorityControlLease.activeLease_eq_iff (by decide) (by decide) (by decide) (by decide)).mp hActive
  exact absurd hLegible.cmdId (by decide)

end EdgeGateway.PriorityControl
