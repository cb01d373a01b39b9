import EdgeGateway.Modbus.FrameExtraction

/-! # Finding a response behind noise -/

namespace EdgeGateway.Modbus.ModbusRtuClient.Expectation

variable {e : Expectation}

def AnnouncesMore (e : Expectation) (bytes : List UInt8) : Prop :=
  bytes[0]? = some e.slave ∧ bytes[1]? = some e.function ∧
    ∃ count, bytes[2]? = some count ∧ bytes.length < count.toNat + 5

def StartsFrame (e : Expectation) (bytes : List UInt8) : Prop := ∃ frame rest, bytes = frame ++ rest ∧ e.IsResponse frame

structure IsNormalResponse (e : Expectation) (frame : List UInt8) : Prop extends e.IsResponse frame where
  normal : frame[1]? = some e.function

theorem IsResponse.length_ge {frame : List UInt8} (h : e.IsResponse frame) : 4 ≤ frame.length := by
  by_contra hShort
  have hValid := h.valid
  rw [hasValidCrc, if_pos (Nat.not_le.mp hShort)] at hValid
  cases hValid

theorem exists_header {bytes : List UInt8} {responseFunction : UInt8} (hSlave : bytes[0]? = some e.slave)
    (hFunction : bytes[1]? = some responseFunction) : ∃ rest, bytes = e.slave :: responseFunction :: rest := by
  match bytes with
  | [] => cases hSlave
  | [_] => cases hFunction
  | start :: second :: rest =>
    obtain rfl := Option.some.inj hSlave
    obtain rfl := Option.some.inj hFunction
    exact ⟨rest, rfl⟩

theorem verdict_of_header {bytes : List UInt8} {responseFunction : UInt8} (hSlave : bytes[0]? = some e.slave)
    (hFunction : bytes[1]? = some responseFunction) : e.verdict bytes = e.judge bytes responseFunction := by
  obtain ⟨rest, rfl⟩ := exists_header hSlave hFunction
  exact verdict_slave responseFunction rest

theorem verdict_of_isResponse {frame : List UInt8} (h : e.IsResponse frame) (rest : List UInt8) :
    e.verdict (frame ++ rest) = .frame frame.length := by
  have hLong := h.length_ge
  have hAt : ∀ i, i < 4 → (frame ++ rest)[i]? = frame[i]? := by
    intro i hi
    rw [List.getElem?_append_left (by omega)]
  have hSlave : (frame ++ rest)[0]? = some e.slave := (hAt 0 (by decide)).trans h.slave
  have hEnough : ¬(frame ++ rest).length < frame.length := by
    rw [List.length_append]
    omega
  have hFrame : ∀ responseFunction, (frame ++ rest)[1]? = some responseFunction →
      (responseFunction = e.function ∨ responseFunction = e.function ||| 0x80) →
      expectedResponseSize e.function (frame ++ rest) e.minResponseSize = frame.length →
      ¬(isReadFunction e.function ∧ responseFunction &&& 0x80 = 0 ∧ frame.length ≠ e.minResponseSize) →
      e.verdict (frame ++ rest) = .frame frame.length := by
    intro responseFunction hFunction hMatches hSize hExpected
    rw [verdict_of_header hSlave hFunction, judge, if_neg (matches_iff.mpr hMatches), hSize, if_neg hEnough,
      if_neg hExpected, List.take_left, if_pos h.valid]
  obtain ⟨hException, hLength⟩ | ⟨hNormal, hLength, hCount⟩ := h.function
  · have hFunction : (frame ++ rest)[1]? = some (e.function ||| 0x80) := (hAt 1 (by decide)).trans hException
    refine hFrame _ hFunction (.inr rfl) ?_ fun hRead => function_bit.2 hRead.2.1
    rw [size_of_exception hFunction, hLength]
  · have hFunction : (frame ++ rest)[1]? = some e.function := (hAt 1 (by decide)).trans hNormal
    rw [normalSize] at hLength
    refine hFrame _ hFunction (.inl rfl) ?_ ?_
    · rw [size_of_normal hFunction, hAt 2 (by decide)]
      split
      · next hRead =>
        rw [hCount hRead, Option.getD_some, hLength, if_pos hRead]
      · next hRead => rw [hLength, if_neg hRead]
    · rintro ⟨hRead, -, hOther⟩
      rw [if_pos hRead] at hLength
      exact hOther hLength

theorem verdict_frame_iff {bytes : List UInt8} :
    (∃ length, e.verdict bytes = .frame length) ↔ e.StartsFrame bytes := by
  constructor
  · rintro ⟨length, hFrame⟩
    obtain ⟨responseFunction, rest, -, hJudged⟩ := verdict_frame hFrame
    have hInside := (judge_frame hJudged).2.2.1
    refine ⟨bytes.take length, bytes.drop length, (List.take_append_drop length bytes).symm, ?_⟩
    apply isResponse_of_verdict
    rw [List.take_append_drop, List.length_take, Nat.min_eq_left hInside]
    exact hFrame
  · rintro ⟨frame, rest, rfl, hResponse⟩
    exact ⟨_, verdict_of_isResponse hResponse rest⟩

theorem verdict_wait_iff (hRead : isReadFunction e.function = true) {bytes : List UInt8} (hLength : 5 ≤ bytes.length) :
    e.verdict bytes = .wait ↔ e.AnnouncesMore bytes := by
  have hThird : ∃ count, bytes[2]? = some count := ⟨_, List.getElem?_eq_getElem (by omega)⟩
  obtain ⟨count, hCount⟩ := hThird
  constructor
  · intro hWait
    match bytes with
    | start :: responseFunction :: rest =>
      by_cases hStart : start = e.slave
      · subst hStart
        rw [verdict_slave, judge] at hWait
        split at hWait
        · cases hWait
        · next hMatches =>
          split at hWait
          · next hShort =>
            obtain rfl | rfl := matches_iff.mp hMatches
            · have hSize := @size_of_normal e (e.slave :: e.function :: rest) rfl
              rw [if_pos hRead, hCount, Option.map_some, Option.getD_some] at hSize
              rw [hSize] at hShort
              exact ⟨rfl, rfl, count, hCount, hShort⟩
            · rw [size_of_exception rfl] at hShort
              omega
          · split at hWait
            · cases hWait
            · split at hWait <;> cases hWait
      · rw [verdict_other hStart] at hWait
        cases hWait
  · rintro ⟨hSlave, hFunction, count', hCount', hShort⟩
    have hSize := size_of_normal hFunction
    rw [if_pos hRead, hCount', Option.map_some, Option.getD_some] at hSize
    rw [verdict_of_header hSlave hFunction, judge, if_neg (matches_iff.mpr (.inl rfl)), hSize, if_pos hShort]

theorem verdict_drop_iff (hRead : isReadFunction e.function = true) {bytes : List UInt8} (hLength : 5 ≤ bytes.length) :
    e.verdict bytes = .drop ↔ ¬e.AnnouncesMore bytes ∧ ¬e.StartsFrame bytes := by
  rw [← verdict_wait_iff hRead hLength, ← verdict_frame_iff]
  cases hVerdict : e.verdict bytes <;> simp

theorem tryExtract_eq_iff {buffer frame rest : List UInt8} :
    e.tryExtract buffer = some ⟨some frame, rest⟩ ↔ e.scanner.scan buffer = (some frame, rest) := by
  obtain ⟨⟨found, left⟩, hExtract, hFollows⟩ := @tryExtract_follows e buffer
  rw [hExtract]
  constructor
  · intro hSame
    obtain ⟨rfl, rfl⟩ := Extraction.mk.inj (Option.some.inj hSame)
    exact hFollows.found frame rfl
  · intro hScan
    cases found with
    | none =>
      have hNone := (hFollows.waiting rfl).1
      rw [hScan] at hNone
      cases hNone
    | some other =>
      obtain ⟨hFrame, rfl⟩ := Prod.mk.inj ((hFollows.found other rfl).symm.trans hScan)
      rw [hFrame]

/-- It is returned exactly when no part of the noise starts a longer response than has arrived, or a frame
    that runs into it. -/
theorem resynchronises_iff (e : Expectation) (hRead : isReadFunction e.function = true) (noise response : List UInt8)
    (hResponse : e.IsNormalResponse response) :
    e.tryExtract (noise ++ response) = some ⟨some response, []⟩ ↔
      ∀ before after, noise = before ++ after → after ≠ [] →
        ¬e.AnnouncesMore (after ++ response) ∧ ¬e.StartsFrame (after ++ response) := by
  have hLong := hResponse.length_ge
  have hFrame : e.scanner.verdict response = .frame response.length := by
    have hVerdict := verdict_of_isResponse hResponse.toIsResponse []
    rw [List.append_nil] at hVerdict
    exact hVerdict
  have hSome : response ≠ [] := by
    rintro rfl
    exact absurd hLong (by decide)
  rw [tryExtract_eq_iff, Scanner.scan_last_iff hFrame hSome]
  refine forall₂_congr fun before after => forall₂_congr fun _ hAfter => ?_
  apply verdict_drop_iff hRead
  have hPos := List.length_pos_iff.mpr hAfter
  rw [List.length_append]
  omega

def oneRegister : Expectation := ofRegisterRead 1 (by decide) (by decide) 1 true

def registerResponse : List UInt8 := appendCrc [1, 3, 2, 0, 10]

theorem registerResponse_normal : oneRegister.IsNormalResponse registerResponse where
  valid := by decide +kernel
  slave := rfl
  function := .inr ⟨rfl, rfl, fun _ => rfl⟩
  normal := rfl

theorem resynchronises_behind_other_slave :
    isReadFunction oneRegister.function = true ∧ oneRegister.IsNormalResponse registerResponse ∧
      (oneRegister.tryExtract ([2] ++ registerResponse) = some ⟨some registerResponse, []⟩ ↔
        ∀ before after, [2] = before ++ after → after ≠ [] →
          ¬oneRegister.AnnouncesMore (after ++ registerResponse) ∧ ¬oneRegister.StartsFrame (after ++ registerResponse)) :=
  ⟨rfl, registerResponse_normal, resynchronises_iff oneRegister rfl [2] registerResponse registerResponse_normal⟩

/-- Three bytes of noise that announce a response of 260 bytes, and the response behind them is not found. -/
theorem longer_announcement_holds_up :
    oneRegister.IsNormalResponse registerResponse ∧
      (∀ before frame after, [1, 3, 255] = before ++ frame ++ after → ¬oneRegister.IsResponse frame) ∧
      oneRegister.tryExtract ([1, 3, 255] ++ registerResponse) = some ⟨none, [1, 3, 255] ++ registerResponse⟩ := by
  refine ⟨registerResponse_normal, ?_, by decide +kernel⟩
  intro before frame after hSplit hResponse
  have hLong := hResponse.length_ge
  have hLength := congrArg List.length hSplit
  rw [List.length_append, List.length_append] at hLength
  exact absurd hLength (by simp only [List.length_cons, List.length_nil]; omega)

end EdgeGateway.Modbus.ModbusRtuClient.Expectation
