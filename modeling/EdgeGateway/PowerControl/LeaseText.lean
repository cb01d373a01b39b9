import EdgeGateway.PowerControl.IndexArray

/-! # What the lease file says -/

namespace EdgeGateway.PowerControl

open QuotedText

def jsonEscaping : Escaping where
  image c := if c = '\\' ∨ c = '"' then some c else none
  quote := rfl
  backslash := rfl
  quote_only := by
    intro c hc
    split at hc
    · exact Option.some.inj hc
    · cases hc
  plain_alpha := by
    intro c hc
    rw [if_neg]
    rintro (rfl | rfl) <;> exact absurd hc (by decide)

theorem escapeJson_eq (value : StdString) : escapeJson value = jsonEscaping.escape value := by
  have hChar : (fun ch => if ch = '\\' ∨ ch = '"' then ['\\', ch] else [ch]) = jsonEscaping.escapeChar := by
    funext c
    unfold Escaping.escapeChar jsonEscaping
    by_cases hc : c = '\\' ∨ c = '"' <;> simp [hc]
  rw [escapeJson, hChar, Escaping.escape]

theorem readBack_jsonEscaping (value : StdString) : jsonEscaping.readBack value = value := by
  have hChar : (fun c => (jsonEscaping.image c).getD c) = id := by
    funext c
    unfold jsonEscaping
    by_cases hc : c = '\\' ∨ c = '"' <;> simp [hc]
  rw [Escaping.readBack, hChar, List.map_id]

namespace PowerControlOwnershipState

variable (state : PowerControlOwnershipState)

def numbers : List Member :=
  [.plain "heartbeatAtMs".toList (intText state.heartbeatAtMs),
    .plain "expireAtMs".toList (intText state.expireAtMs),
    .plain "targetIndexes".toList ('[' :: (indexesText state.targetIndexes ++ [']']))]

def members : List Member :=
  .text "owner".toList state.owner :: .text "sessionId".toList state.sessionId :: state.numbers

theorem stateText_eq :
    stateText state = renderObject jsonEscaping (.text "scope".toList state.scope) state.members := by
  have hScope : "\x7b\"scope\":\"".toList = '{' :: (quoted "scope".toList ++ [':', '"']) := by decide
  have hOwner : "\",\"owner\":\"".toList = '"' :: ',' :: (quoted "owner".toList ++ [':', '"']) := by decide
  have hSession : "\",\"sessionId\":\"".toList = '"' :: ',' :: (quoted "sessionId".toList ++ [':', '"']) := by decide
  have hHeartbeat : "\",\"heartbeatAtMs\":".toList = '"' :: ',' :: (quoted "heartbeatAtMs".toList ++ [':']) := by
    decide
  have hExpire : ",\"expireAtMs\":".toList = ',' :: (quoted "expireAtMs".toList ++ [':']) := by decide
  have hTargets : ",\"targetIndexes\":[".toList = ',' :: (quoted "targetIndexes".toList ++ [':', '[']) := by decide
  have hEnd : "]\x7d".toList = [']', '}'] := by decide
  unfold stateText
  simp only [hScope, hOwner, hSession, hHeartbeat, hExpire, hTargets, hEnd, renderObject, renderTail, members, numbers, escapeJson_eq, Member.key, Member.value, List.append_assoc,
    List.cons_append, List.nil_append]

theorem members_wellFormed :
    ∀ member ∈ Member.text "scope".toList state.scope :: state.members, member.WellFormed := by
  have hTargets : '"' ∉ '[' :: (indexesText state.targetIndexes ++ [']']) := by
    intro hMem
    simp only [List.mem_cons, List.mem_append, List.not_mem_nil, or_false] at hMem
    obtain hMem | hMem | hMem := hMem
    · cases hMem
    · obtain hComma | hDigit := mem_indexesText hMem
      · cases hComma
      · cases hDigit
    · cases hMem
  have hInt : ∀ n, '"' ∉ intText n := not_mem_intText (by decide) (by decide)
  intro member hMember
  simp only [members, numbers, List.mem_cons, List.not_mem_nil, or_false] at hMember
  obtain rfl | rfl | rfl | rfl | rfl | rfl := hMember
  · simp [Member.WellFormed]
  · simp [Member.WellFormed]
  · simp [Member.WellFormed]
  · exact ⟨by simp, hInt _⟩
  · exact ⟨by simp, hInt _⟩
  · exact ⟨by simp, hTargets⟩

theorem after_stateText (key : StdString) (hKey : ∀ c ∈ key, c.isAlpha = true) :
    after (quoted key) (stateText state) =
      locate jsonEscaping key (.text "scope".toList state.scope :: state.members) := by
  rw [stateText_eq]
  exact after_renderObject jsonEscaping hKey _ _ state.members_wellFormed

theorem stringField_scope : stringField (stateText state) "scope".toList = state.scope := by
  have hFound := state.after_stateText "scope".toList (by simp)
  rw [locate_text_self] at hFound
  rw [stringField, stringMember_of_found jsonEscaping hFound, readBack_jsonEscaping]

theorem stringField_owner :
    stringField (stateText state) "owner".toList =
      if Shadows "owner".toList state.scope then [] else state.owner := by
  have hFound := state.after_stateText "owner".toList (by simp)
  rw [locate_text_ne _ (by decide)] at hFound
  split
  · rename_i hScope
    rw [if_pos hScope] at hFound
    exact stringMember_of_shadow jsonEscaping hFound (List.prefix_refl _)
  · rename_i hScope
    rw [if_neg hScope, members, locate_text_self] at hFound
    rw [stringField, stringMember_of_found jsonEscaping hFound, readBack_jsonEscaping]

theorem stringField_sessionId :
    stringField (stateText state) "sessionId".toList =
      if Shadows "sessionId".toList state.scope ∨ Shadows "sessionId".toList state.owner then []
      else state.sessionId := by
  have hFound := state.after_stateText "sessionId".toList (by simp)
  rw [locate_text_ne _ (by decide), members, locate_text_ne _ (by decide), locate_text_self] at hFound
  by_cases hScope : Shadows "sessionId".toList state.scope
  · rw [if_pos hScope] at hFound
    rw [if_pos (.inl hScope)]
    exact stringMember_of_shadow jsonEscaping hFound (List.prefix_refl _)
  · rw [if_neg hScope] at hFound
    by_cases hOwner : Shadows "sessionId".toList state.owner
    · rw [if_pos hOwner] at hFound
      rw [if_pos (.inr hOwner)]
      exact stringMember_of_shadow jsonEscaping hFound (List.prefix_refl _)
    · rw [if_neg hOwner] at hFound
      rw [if_neg (not_or.mpr ⟨hScope, hOwner⟩), stringField, stringMember_of_found jsonEscaping hFound,
        readBack_jsonEscaping]

theorem intField_of_found {text key rest : StdString} {n : Int} (hn : IsInt64 n)
    (hFound : after (quoted key) text = some (':' :: (intText n ++ rest)))
    (hRest : ∀ c ∈ rest.head?, c.isDigit = false) : intField text key = n := by
  rw [intField, hFound, Option.bind_some, after_char_self]
  change (scanInt64 (skipWhitespace (intText n ++ rest))).getD 0 = n
  rw [skipWhitespace_intText, scanInt64_intText hn hRest, Option.getD_some]

theorem after_colon_renderTail {member : Member} (hKey : ∀ c ∈ member.key, c.isAlpha = true)
    (members : List Member) :
    after [':'] (renderTail jsonEscaping (member :: members)) =
      some (member.value jsonEscaping ++ renderTail jsonEscaping members) := by
  have hFree : ':' ∉ ',' :: quoted member.key := by
    have hColon : ':' ∉ member.key := fun hMem => absurd (hKey _ hMem) (by decide)
    simpa [quoted] using hColon
  rw [renderTail, ← List.cons_append, after_char_append hFree, after_char_self]

theorem intField_of_shadow_text {text key word value : StdString} {members : List Member}
    (hWord : ∀ c ∈ word, c.isAlpha = true)
    (hFound : after (quoted key) text = some (renderTail jsonEscaping (.text word value :: members))) :
    intField text key = 0 := by
  rw [intField, hFound, Option.bind_some, after_colon_renderTail (by exact hWord)]
  rfl

theorem intField_of_shadow_plain {text key word : StdString} {n : Int} (hn : IsInt64 n) {members : List Member}
    (hWord : ∀ c ∈ word, c.isAlpha = true)
    (hFound : after (quoted key) text = some (renderTail jsonEscaping (.plain word (intText n) :: members))) :
    intField text key = n := by
  rw [intField, hFound, Option.bind_some, after_colon_renderTail (by exact hWord)]
  change (scanInt64 (skipWhitespace (intText n ++ _))).getD 0 = n
  rw [skipWhitespace_intText, scanInt64_intText hn (head_renderTail_not_digit _ _), Option.getD_some]

theorem intField_behind_texts {key : StdString} {n : Int} (hKey : ∀ c ∈ key, c.isAlpha = true)
    (hScopeKey : "scope".toList ≠ key) (hOwnerKey : "owner".toList ≠ key)
    (hSession : after (quoted key) (stateText state) =
      locate jsonEscaping key (.text "sessionId".toList state.sessionId :: state.numbers) →
        intField (stateText state) key = n) :
    intField (stateText state) key = if Shadows key state.scope ∨ Shadows key state.owner then 0 else n := by
  have hFound := state.after_stateText key hKey
  rw [locate_text_ne _ hScopeKey, members, locate_text_ne _ hOwnerKey] at hFound
  split_ifs at hFound with hScope hOwner
  · rw [if_pos (.inl hScope)]
    exact intField_of_shadow_text (by simp) hFound
  · rw [if_pos (.inr hOwner)]
    exact intField_of_shadow_text (by simp) hFound
  · rw [if_neg (not_or.mpr ⟨hScope, hOwner⟩)]
    exact hSession hFound

theorem intField_heartbeatAtMs (hn : IsInt64 state.heartbeatAtMs) :
    intField (stateText state) "heartbeatAtMs".toList =
      if Shadows "heartbeatAtMs".toList state.scope ∨ Shadows "heartbeatAtMs".toList state.owner then 0
      else state.heartbeatAtMs := by
  refine state.intField_behind_texts (by simp) (by decide) (by decide) fun hFound => ?_
  rw [locate_text_ne _ (by decide), numbers, locate_plain_self] at hFound
  -- behind the session the next number is the heartbeat itself
  split_ifs at hFound
  · exact intField_of_shadow_plain hn (by simp) hFound
  · exact intField_of_found hn hFound (head_renderTail_not_digit _ _)

theorem intField_expireAtMs (hn : IsInt64 state.heartbeatAtMs) (hExpire : IsInt64 state.expireAtMs) :
    intField (stateText state) "expireAtMs".toList =
      if Shadows "expireAtMs".toList state.scope ∨ Shadows "expireAtMs".toList state.owner then 0
      else if Shadows "expireAtMs".toList state.sessionId then state.heartbeatAtMs
      else state.expireAtMs := by
  refine state.intField_behind_texts (by simp) (by decide) (by decide) fun hFound => ?_
  rw [locate_text_ne _ (by decide), numbers, locate_plain_ne _ (by decide), locate_plain_self] at hFound
  split_ifs at hFound ⊢
  · exact intField_of_shadow_plain hn (by simp) hFound
  · exact intField_of_found hExpire hFound (head_renderTail_not_digit _ _)

theorem after_bracket_member {member : Member} (hKey : ∀ c ∈ member.key, c.isAlpha = true) (members : List Member) :
    after ['['] (renderTail jsonEscaping (member :: members)) =
      after ['['] (member.value jsonEscaping ++ renderTail jsonEscaping members) := by
  have hWord : '[' ∉ member.key := fun hMem => absurd (hKey _ hMem) (by decide)
  have hFree : '[' ∉ ',' :: (quoted member.key ++ [':']) := by
    simp [quoted, hWord]
  have hSplit : renderTail jsonEscaping (member :: members) =
      ',' :: (quoted member.key ++ [':']) ++ (member.value jsonEscaping ++ renderTail jsonEscaping members) := by
    simp [renderTail]
  rw [hSplit, after_char_append hFree]

theorem after_bracket_plain {word literal : StdString} (hWord : ∀ c ∈ word, c.isAlpha = true)
    (hLiteral : '[' ∉ literal) (members : List Member) :
    after ['['] (renderTail jsonEscaping (.plain word literal :: members)) =
      after ['['] (renderTail jsonEscaping members) := by
  rw [after_bracket_member (by exact hWord)]
  exact after_char_append hLiteral _

theorem after_bracket_text {word : StdString} (hWord : ∀ c ∈ word, c.isAlpha = true) (value : StdString)
    (members : List Member) :
    after ['['] (renderTail jsonEscaping (.text word value :: members)) =
      match after ['['] value with
      | some list => some (jsonEscaping.escape list ++ '"' :: renderTail jsonEscaping members)
      | none => after ['['] (renderTail jsonEscaping members) := by
  have hImage : ∀ d, jsonEscaping.image d ≠ some '[' := by
    intro d hd
    simp only [jsonEscaping] at hd
    split at hd
    · rename_i hEscaped
      obtain rfl := Option.some.inj hd
      exact absurd hEscaped (by decide)
    · cases hd
  have hValue : Member.value jsonEscaping (.text word value) ++ renderTail jsonEscaping members =
      ['"'] ++ (jsonEscaping.escape value ++ '"' :: renderTail jsonEscaping members) := by
    simp [Member.value]
  rw [after_bracket_member (by exact hWord), hValue, after_char_append (by decide),
    after_char_escape jsonEscaping (by decide) hImage]
  cases after ['['] value with
  | some list => rfl
  | none =>
    change after ['['] (['"'] ++ renderTail jsonEscaping members) = _
    rw [after_char_append (by decide)]

theorem after_bracket_numbers :
    after ['['] (renderTail jsonEscaping state.numbers) = some (indexesText state.targetIndexes ++ [']', '}']) := by
  have hInt : ∀ n, '[' ∉ intText n := not_mem_intText (by decide) (by decide)
  have hFree : '[' ∉ ',' :: (quoted "targetIndexes".toList ++ [':']) := by decide
  have hSplit : renderTail jsonEscaping
      [.plain "targetIndexes".toList ('[' :: (indexesText state.targetIndexes ++ [']']))] =
        ',' :: (quoted "targetIndexes".toList ++ [':']) ++
          '[' :: (indexesText state.targetIndexes ++ [']', '}']) := by
    simp only [renderTail, Member.key, Member.value, List.append_assoc, List.cons_append, List.nil_append]
  rw [numbers, after_bracket_plain (by simp) (hInt _), after_bracket_plain (by simp) (hInt _), hSplit,
    after_char_append hFree, after_char_self]

def strayList : Option StdString :=
  if Shadows "targetIndexes".toList state.scope then after ['['] state.owner <|> after ['['] state.sessionId
  else if Shadows "targetIndexes".toList state.owner then after ['['] state.sessionId
  else none

theorem takeWhile_escape (value rest : StdString) :
    (jsonEscaping.escape value ++ '"' :: rest).takeWhile isListChar = value.takeWhile isListChar := by
  induction value with
  | nil => exact List.takeWhile_cons_of_neg (by decide)
  | cons c value ih =>
    rw [Escaping.escape_cons, Escaping.escapeChar]
    cases hImage : jsonEscaping.image c with
    | some d =>
      have hStop : isListChar c = false := by
        simp only [jsonEscaping] at hImage
        split at hImage
        · rename_i hc
          rcases hc with rfl | rfl <;> decide
        · cases hImage
      rw [List.takeWhile_cons_of_neg (by simp [hStop])]
      exact List.takeWhile_cons_of_neg (by decide)
    | none =>
      change (c :: (jsonEscaping.escape value ++ '"' :: rest)).takeWhile isListChar = _
      rw [List.takeWhile_cons, List.takeWhile_cons, ih]

theorem readIndexes_takeWhile_bracket (text : StdString) :
    readIndexes (text.takeWhile (· ≠ ']')) = readIndexes text := by
  have hChars : ∀ c, (isListChar c = true ∧ c ≠ ']') ↔ isListChar c = true := by
    intro c
    constructor
    · exact And.left
    · rintro hc
      refine ⟨hc, ?_⟩
      rintro rfl
      exact absurd hc (by decide)
  rw [readIndexes_takeWhile, List.takeWhile_takeWhile, readIndexes_takeWhile text]
  simp only [decide_eq_true_eq, hChars, Bool.decide_eq_true]

theorem indexArray_of_list {text list : StdString}
    (hFound : (after (quoted "targetIndexes".toList) text).bind (after ['[']) = some list) (hEnd : ']' ∈ list) :
    indexArray text = readIndexes list := by
  rw [indexArray, hFound]
  change (if ']' ∈ list then _ else _) = _
  rw [if_pos hEnd, readIndexes_takeWhile_bracket]

theorem readIndexes_escape (list rest : StdString) :
    readIndexes (jsonEscaping.escape list ++ '"' :: rest) = readIndexes list := by
  rw [readIndexes_takeWhile, takeWhile_escape, ← readIndexes_takeWhile]

theorem readIndexes_targets : readIndexes (indexesText state.targetIndexes ++ [']', '}']) = .ok state.targetIndexes := by
  have hList : ∀ c ∈ indexesText state.targetIndexes, isListChar c = true := by
    intro c hc
    obtain rfl | hDigit := mem_indexesText hc
    · decide
    · simp [isListChar, hDigit]
  rw [readIndexes_takeWhile, List.takeWhile_append_of_pos hList, List.takeWhile_cons_of_neg (by decide),
    List.append_nil, readIndexes_indexesText]

theorem bracket_mem_numbers : ']' ∈ renderTail jsonEscaping state.numbers := by
  simp [numbers, renderTail, Member.value]

theorem indexArray_of_targets {text : StdString}
    (hFound : (after (quoted "targetIndexes".toList) text).bind (after ['[']) =
      some (indexesText state.targetIndexes ++ [']', '}'])) :
    indexArray text = .ok state.targetIndexes := by
  rw [indexArray_of_list hFound (by simp), readIndexes_targets]

theorem indexArray_of_sessionId {text : StdString}
    (hFound : (after (quoted "targetIndexes".toList) text).bind (after ['[']) =
      after ['['] (renderTail jsonEscaping (.text "sessionId".toList state.sessionId :: state.numbers))) :
    indexArray text =
      match after ['['] state.sessionId with
      | some list => readIndexes list
      | none => .ok state.targetIndexes := by
  rw [after_bracket_text (by simp), after_bracket_numbers] at hFound
  cases hBracket : after ['['] state.sessionId with
  | some list =>
    rw [hBracket] at hFound
    rw [indexArray_of_list hFound, readIndexes_escape]
    exact List.mem_append_right _ (List.mem_cons_of_mem _ state.bracket_mem_numbers)
  | none =>
    rw [hBracket] at hFound
    exact state.indexArray_of_targets hFound

theorem indexArray_of_owner {text : StdString}
    (hFound : (after (quoted "targetIndexes".toList) text).bind (after ['[']) =
      after ['['] (renderTail jsonEscaping state.members)) :
    indexArray text =
      match after ['['] state.owner <|> after ['['] state.sessionId with
      | some list => readIndexes list
      | none => .ok state.targetIndexes := by
  rw [members, after_bracket_text (by simp)] at hFound
  cases hBracket : after ['['] state.owner with
  | some list =>
    rw [hBracket] at hFound
    rw [indexArray_of_list hFound, readIndexes_escape]
    · rfl
    · refine List.mem_append_right _ (List.mem_cons_of_mem _ ?_)
      simp [renderTail, numbers, Member.value]
  | none =>
    rw [hBracket] at hFound
    exact state.indexArray_of_sessionId hFound

theorem indexArray_stateText :
    indexArray (stateText state) =
      match state.strayList with
      | some list => readIndexes list
      | none => .ok state.targetIndexes := by
  have hFound := state.after_stateText "targetIndexes".toList (by simp)
  have hTail := @locate_text_ne jsonEscaping "targetIndexes".toList "owner".toList (by decide) state.owner
    (.text "sessionId".toList state.sessionId :: state.numbers)
  rw [locate_text_ne _ (by decide), members, hTail, ← members] at hFound
  unfold strayList
  split_ifs with hScope hOwner
  · rw [if_pos hScope] at hFound
    exact state.indexArray_of_owner (by rw [hFound, Option.bind_some])
  · rw [if_neg hScope, if_pos hOwner] at hFound
    exact state.indexArray_of_sessionId (by rw [hFound, Option.bind_some])
  · rw [if_neg hScope, if_neg hOwner, locate_text_ne _ (by decide)] at hFound
    apply state.indexArray_of_targets
    by_cases hSession : Shadows "targetIndexes".toList state.sessionId
    · rw [hFound, if_pos hSession, Option.bind_some, after_bracket_numbers]
    · rw [hFound, if_neg hSession, numbers, locate_plain_ne _ (by decide), locate_plain_ne _ (by decide),
        locate_plain_self, Option.bind_some]
      change after ['['] ([':'] ++ '[' :: (indexesText state.targetIndexes ++ [']'] ++ ['}'])) = _
      rw [after_char_append (by decide), after_char_self, List.append_assoc]
      rfl

end PowerControlOwnershipState

end EdgeGateway.PowerControl
