import EdgeGateway.MqttDriver.RealtimeChunks

/-! # The size of a chunk -/

namespace EdgeGateway.MqttDriver

theorem length_commaSeparated (texts : List StdString) :
    (commaSeparated texts).length = separatedBytes (texts.map List.length) := by
  rw [commaSeparated]
  induction texts with
  | nil => rfl
  | cons text texts ih =>
    cases texts with
    | nil =>
      rw [List.intercalate_singleton]
      rfl
    | cons next texts =>
      rw [List.intercalate_cons_cons, List.length_append, List.length_append, ih, separatedBytes, separatedBytes]
      simp only [List.map_cons, List.sum_cons, List.length_cons, List.length_nil]
      omega

theorem length_meterJson (meter : MeterEntry) : (meterJson meter).length = meterBytes meter := by
  unfold meterJson
  rw [meterBytes, meterWrapperBytes, ← length_commaSeparated]
  simp only [List.length_append, String.length_toList]
  change 14 + _ + 12 + _ + 2 = 28 + _ + _
  omega

theorem length_countText_pos (count : Nat) : 0 < (countText count).length := by
  rw [countText, String.length_toList]
  exact Nat.length_repr_pos

def extraDigits (number count : Nat) : Nat := (countText number).length - 1 + ((countText count).length - 1)

theorem length_buildRealtimeChunkJson (type machineCode chunkId : StdString) (number count : Nat)
    (meters : List MeterEntry) :
    (buildRealtimeChunkJson type machineCode chunkId number count meters).length =
      realtimeChunkBaseBytes type machineCode chunkId + contentBytes meters + extraDigits number count := by
  have hMeters : (commaSeparated (meters.map meterJson)).length = contentBytes meters := by
    rw [length_commaSeparated, contentBytes, List.map_map]
    exact congrArg separatedBytes (List.map_congr_left fun meter _ => length_meterJson meter)
  have hNumber := length_countText_pos number
  have hCount := length_countText_pos count
  have hOne : (countText 1).length = 1 := rfl
  have hNone : (commaSeparated (([] : List MeterEntry).map meterJson)).length = 0 := rfl
  unfold realtimeChunkBaseBytes buildRealtimeChunkJson extraDigits
  simp only [List.length_append, String.length_toList, hMeters, hOne, hNone]
  change 9 + _ + 17 + _ + 28 + _ + 15 + _ + 14 + _ + 11 + _ + 2 =
    9 + _ + 17 + _ + 28 + _ + 15 + _ + 14 + _ + 11 + _ + 2 + _ + _
  omega

section Chunks

variable (valueText : RawDouble → StdString) (type chunkId : StdString) (values : List StoredPointValue)
  (maxPayloadBytes : Nat) (format : PointValueJsonFormat) (fallbackMachineCode : StdString)

theorem packed_within (limit baseBytes : Nat) (packed : List PackedValue) :
    ∀ chunk ∈ (nextFit limit baseBytes).groups packed, 1 < chunk.length →
      baseBytes + contentBytes (metersOf chunk) ≤ limit := by
  have hJoin : ∀ chunk value, (1 < chunk.length → baseBytes + contentBytes (metersOf chunk) ≤ limit) → True →
      (nextFit limit baseBytes).joins chunk value = true → 1 < ((nextFit limit baseBytes).join chunk value).length →
      baseBytes + contentBytes (metersOf ((nextFit limit baseBytes).join chunk value)) ≤ limit :=
    fun _ _ _ _ hJoins _ => of_decide_eq_true hJoins
  refine Grouping.groups_keep hJoin (fun _ _ (_ : True) => trivial) (fun _ _ _ h => h) packed ?_ ?_
  · intro value _ hSeveral
    exact absurd hSeveral (Nat.lt_irrefl 1)
  · exact List.pairwise_of_forall fun _ _ => trivial

def LeavesRoom (limit baseBytes : Nat) (chunks : List (List PackedValue)) : Prop :=
  ∀ number chunk, chunks[number]? = some chunk → 1 < chunk.length →
    extraDigits (number + 1) chunks.length ≤ limit - (baseBytes + contentBytes (metersOf chunk))

theorem getElem?_realtimeChunks {number : Nat} {meters : List MeterEntry} (hSeveral : 1 < (entriesOf meters).length) :
    (realtimeChunks valueText type chunkId values maxPayloadBytes format fallbackMachineCode)[number]? = some meters ↔
      ∃ chunk, (packedChunks valueText type chunkId values maxPayloadBytes format fallbackMachineCode)[number]? =
        some chunk ∧ metersOf chunk = meters := by
  rw [realtimeChunks_eq]
  split
  · rename_i hNone
    rw [hNone]
    constructor
    · intro hMeters
      rw [List.mem_singleton.mp (List.mem_of_getElem? hMeters)] at hSeveral
      exact absurd hSeveral (Nat.not_lt_zero _)
    · rintro ⟨chunk, hChunk, -⟩
      cases hChunk
  · rw [List.getElem?_map, Option.map_eq_some_iff]

theorem length_realtimeChunks
    (h : packedChunks valueText type chunkId values maxPayloadBytes format fallbackMachineCode ≠ []) :
    (realtimeChunks valueText type chunkId values maxPayloadBytes format fallbackMachineCode).length =
      (packedChunks valueText type chunkId values maxPayloadBytes format fallbackMachineCode).length := by
  rw [realtimeChunks_eq, if_neg h, List.length_map]

/-- The length of the payload of a packed chunk. -/
theorem payload_of_packed {number : Nat} {chunk : List PackedValue}
    (h : (packedChunks valueText type chunkId values maxPayloadBytes format fallbackMachineCode)[number]? = some chunk) :
    ∃ payload, (encodeRealtimeChunks valueText type chunkId values maxPayloadBytes format fallbackMachineCode)[number]? =
        some payload ∧
      payload.length = baseBytesOf type chunkId values fallbackMachineCode + contentBytes (metersOf chunk) +
        extraDigits (number + 1)
          (packedChunks valueText type chunkId values maxPayloadBytes format fallbackMachineCode).length := by
  have hSome : packedChunks valueText type chunkId values maxPayloadBytes format fallbackMachineCode ≠ [] := by
    intro hNone
    rw [hNone] at h
    cases h
  have hMeters : (realtimeChunks valueText type chunkId values maxPayloadBytes format fallbackMachineCode)[number]? =
      some (metersOf chunk) := by
    rw [realtimeChunks_eq, if_neg hSome, List.getElem?_map, h]
    rfl
  refine ⟨_, getElem?_encodeRealtimeChunks _ _ _ _ _ _ _ hMeters, ?_⟩
  rw [length_buildRealtimeChunkJson, length_realtimeChunks _ _ _ _ _ _ _ hSome]
  rfl

/-- They fit exactly when the digits of the numbers and of the count find room in the packed chunks. -/
theorem payloads_within_limit_iff :
    (∀ (number : Nat) (meters : List MeterEntry) (payload : StdString),
      (realtimeChunks valueText type chunkId values maxPayloadBytes format fallbackMachineCode)[number]? = some meters →
      1 < (entriesOf meters).length →
      (encodeRealtimeChunks valueText type chunkId values maxPayloadBytes format fallbackMachineCode)[number]? =
        some payload →
      payload.length ≤ max 4096 maxPayloadBytes) ↔
    LeavesRoom (max 4096 maxPayloadBytes) (baseBytesOf type chunkId values fallbackMachineCode)
      (packedChunks valueText type chunkId values maxPayloadBytes format fallbackMachineCode) := by
  constructor
  · intro hWithin number chunk hChunk hSeveral
    obtain ⟨payload, hPayload, hLength⟩ := payload_of_packed _ _ _ _ _ _ _ hChunk
    have hEntries : 1 < (entriesOf (metersOf chunk)).length := by
      rw [entriesOf_metersOf]
      exact hSeveral
    have hMeters := (getElem?_realtimeChunks valueText type chunkId values maxPayloadBytes format fallbackMachineCode
      hEntries).mpr ⟨chunk, hChunk, rfl⟩
    have hLimit := hWithin number _ payload hMeters hEntries hPayload
    omega
  · intro hRoom number meters payload hMeters hSeveral hPayload
    obtain ⟨chunk, hChunk, rfl⟩ := (getElem?_realtimeChunks _ _ _ _ _ _ _ hSeveral).mp hMeters
    rw [entriesOf_metersOf] at hSeveral
    obtain ⟨other, hOther, hLength⟩ := payload_of_packed _ _ _ _ _ _ _ hChunk
    obtain rfl := Option.some.inj (hOther.symm.trans hPayload)
    have hSpare := hRoom number chunk hChunk hSeveral
    have hPacked := packed_within _ _ _ chunk (List.mem_of_getElem? hChunk) hSeveral
    omega

end Chunks

/-- Values that come in pairs: two of them fill a chunk. -/
theorem groupsFrom_pairs {limit baseBytes : Nat} {value : PackedValue}
    (hTwo : (nextFit limit baseBytes).joins [value] value = true)
    (hThree : (nextFit limit baseBytes).joins [value, value] value = false) (count : Nat) :
    (nextFit limit baseBytes).groupsFrom [value] (List.replicate (2 * count + 1) value) =
      List.replicate (count + 1) [value, value] := by
  induction count with
  | zero =>
    change (nextFit limit baseBytes).groupsFrom [value] [value] = _
    rw [Grouping.groupsFrom, if_pos hTwo]
    rfl
  | succ count ih =>
    have hCount : 2 * (count + 1) + 1 = 2 * count + 1 + 1 + 1 := by omega
    rw [hCount, List.replicate_succ, List.replicate_succ, Grouping.groupsFrom, if_pos hTwo]
    change (nextFit limit baseBytes).groupsFrom [value, value] _ = _
    rw [Grouping.groupsFrom, if_neg (by rw [hThree]; decide)]
    exact congrArg (List.cons [value, value]) ih

theorem metersOf_replicate (meterCode text : StdString) (count : Nat) :
    metersOf (List.replicate (count + 1) (meterCode, text)) = [(meterCode, List.replicate (count + 1) text)] := by
  induction count with
  | zero => rfl
  | succ count ih =>
    rw [List.replicate_succ', metersOf_snoc, ih, List.replicate_succ' (n := count + 1)]
    exact @addValue_back (meterCode, text) [] (List.replicate (count + 1) text)

def zeroText (_ : RawDouble) : StdString := ['0']

def wideValue : StoredPointValue := ⟨1, [], ['m'], List.replicate 1958 'x', 0, 1, 0, 0, false⟩

def twentyValues : List StoredPointValue := List.replicate 20 wideValue

def wideText : StdString := appendPointValueJson zeroText .compactArray wideValue

theorem escapeJson_replicate (count : Nat) : escapeJson (List.replicate count 'x') = List.replicate count 'x' := by
  induction count with
  | zero => rfl
  | succ count ih => exact congrArg (List.cons 'x') ih

theorem length_wideText : wideText.length = 1978 := by
  have hCode : (escapeJson wideValue.pointCode).length = 1958 := by
    rw [wideValue, escapeJson_replicate, List.length_replicate]
  change (appendCompactPointValueJson zeroText wideValue).length = _
  unfold appendCompactPointValueJson
  simp only [List.length_append, hCode, String.length_toList]
  rfl

theorem contentBytes_wide (count : Nat) :
    contentBytes (metersOf (List.replicate (count + 1) (['m'], wideText))) = 29 + (1979 * count + 1978) := by
  have hSizes : (List.replicate (count + 1) wideText).map List.length = List.replicate (count + 1) 1978 := by
    rw [List.map_replicate, length_wideText]
  have hWrapper : meterWrapperBytes ['m'] = 29 := rfl
  rw [metersOf_replicate, contentBytes, List.map_singleton, separatedBytes, meterBytes, hSizes, separatedBytes, hWrapper]
  simp
  omega

theorem baseBytes_twentyValues : baseBytesOf "telemetry".toList "1-1".toList twentyValues [] = 110 := by
  have hCode : firstMachineCode twentyValues [] = [] := rfl
  rw [baseBytesOf, hCode, realtimeChunkBaseBytes]
  unfold buildRealtimeChunkJson
  simp only [List.length_append, String.length_toList]
  rfl

def widePair : List PackedValue := [(['m'], wideText), (['m'], wideText)]

theorem contentBytes_widePair : contentBytes (metersOf widePair) = 3986 := contentBytes_wide 1

theorem packedChunks_twentyValues :
    packedChunks zeroText "telemetry".toList "1-1".toList twentyValues 4096 .compactArray [] =
      List.replicate 10 widePair := by
  have hValues : packedValues zeroText twentyValues .compactArray = List.replicate 20 (['m'], wideText) := rfl
  have hTwo : (nextFit 4096 110).joins [(['m'], wideText)] (['m'], wideText) = true := by
    have hFits : contentBytes (metersOf ([(['m'], wideText)] ++ [(['m'], wideText)])) = 29 + (1979 * 1 + 1978) :=
      contentBytes_wide 1
    rw [joins_nextFit, hFits]
    decide
  have hThree : (nextFit 4096 110).joins [(['m'], wideText), (['m'], wideText)] (['m'], wideText) = false := by
    have hOver : contentBytes (metersOf ([(['m'], wideText), (['m'], wideText)] ++ [(['m'], wideText)])) =
        29 + (1979 * 2 + 1978) := contentBytes_wide 2
    rw [joins_nextFit, hOver]
    decide
  rw [packedChunks, baseBytes_twentyValues, hValues]
  exact groupsFrom_pairs hTwo hThree 9

/-- Ten chunks of two values each, as long as the limit with a one-digit count. -/
theorem ten_full_chunks :
    ¬ ∀ (number : Nat) (meters : List MeterEntry) (payload : StdString),
      (realtimeChunks zeroText "telemetry".toList "1-1".toList twentyValues 4096 .compactArray [])[number]? = some meters →
      1 < (entriesOf meters).length →
      (encodeRealtimeChunks zeroText "telemetry".toList "1-1".toList twentyValues 4096 .compactArray [])[number]? =
        some payload →
      payload.length ≤ max 4096 4096 := by
  intro hWithin
  have hChunk : (packedChunks zeroText "telemetry".toList "1-1".toList twentyValues 4096 .compactArray [])[0]? =
      some widePair := by
    rw [packedChunks_twentyValues]
    rfl
  have hEntries : 1 < (entriesOf (metersOf widePair)).length := by
    rw [entriesOf_metersOf]
    exact Nat.lt_succ_self 1
  have hDigits : extraDigits (0 + 1) 10 = 1 := by decide
  have hCount : (packedChunks zeroText "telemetry".toList "1-1".toList twentyValues 4096 .compactArray []).length = 10 := by
    rw [packedChunks_twentyValues]
    exact List.length_replicate
  obtain ⟨payload, hPayload, hLength⟩ := payload_of_packed _ _ _ _ _ _ _ hChunk
  have hLimit := hWithin 0 _ payload ((getElem?_realtimeChunks _ _ _ _ _ _ _ hEntries).mpr ⟨_, hChunk, rfl⟩) hEntries
    hPayload
  rw [hCount, baseBytes_twentyValues, contentBytes_widePair, hDigits] at hLength
  omega

end EdgeGateway.MqttDriver
