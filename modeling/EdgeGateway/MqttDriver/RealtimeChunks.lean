import EdgeGateway.Models
import EdgeGateway.Foundation.Grouping

/-! # Realtime values in chunks

The values are grouped by meter and put into the open chunk one by one; one that would make it too
long opens the next.
-/

namespace EdgeGateway.MqttDriver

structure StoredPointValue where
  index : UInt32
  machineCode : StdString
  meterCode : StdString
  pointCode : StdString
  value : RawDouble
  quality : Int
  ts : Int
  expireAt : Int
  stale : Bool

inductive PointValueJsonFormat where
  | compactArray
  | object
deriving DecidableEq, Repr

abbrev MeterEntry := StdString × List StdString

def escapedChar (ch : Char) : StdString :=
  if ch = '\\' then ['\\', '\\']
  else if ch = '"' then ['\\', '"']
  else if ch = '\n' then ['\\', 'n']
  else if ch = '\r' then ['\\', 'r']
  else if ch = '\t' then ['\\', 't']
  else [ch]

def escapeJson (value : StdString) : StdString := value.flatMap escapedChar

def numberText (number : Int) : StdString := (toString number).toList

def countText (count : Nat) : StdString := (toString count).toList

def boolText (b : Bool) : StdString := if b then "true".toList else "false".toList

def commaSeparated (texts : List StdString) : StdString := [','].intercalate texts

section Texts

-- `valueText` is `operator<<` of a `double`.
variable (valueText : RawDouble → StdString)

def appendCompactPointValueJson (item : StoredPointValue) : StdString :=
  "[".toList ++ countText item.index.toNat ++ ",\"".toList ++ escapeJson item.pointCode ++ "\",".toList ++
    valueText item.value ++ ",".toList ++ numberText item.quality ++ ",".toList ++ numberText item.ts ++
    ",".toList ++ numberText item.expireAt ++ ",".toList ++ boolText item.stale ++ "]".toList

def appendObjectPointValueJson (item : StoredPointValue) : StdString :=
  "\x7b\"index\":".toList ++ countText item.index.toNat ++ ",\"pointCode\":\"".toList ++ escapeJson item.pointCode ++
    "\",\"value\":".toList ++ valueText item.value ++ ",\"quality\":".toList ++ numberText item.quality ++
    ",\"ts\":".toList ++ numberText item.ts ++ ",\"expireAt\":".toList ++ numberText item.expireAt ++
    ",\"stale\":".toList ++ boolText item.stale ++ "\x7d".toList

def appendPointValueJson (format : PointValueJsonFormat) (item : StoredPointValue) : StdString :=
  match format with
  | .object => appendObjectPointValueJson valueText item
  | .compactArray => appendCompactPointValueJson valueText item

end Texts

def firstMachineCode (values : List StoredPointValue) (fallback : StdString) : StdString :=
  ((values.find? fun item => decide (item.machineCode ≠ [])).map (·.machineCode)).getD fallback

def meterJson (meter : MeterEntry) : StdString :=
  "\x7b\"meterCode\":\"".toList ++ escapeJson meter.1 ++ "\",\"values\":[".toList ++ commaSeparated meter.2 ++
    "]\x7d".toList

def buildRealtimeChunkJson (type machineCode chunkId : StdString) (chunkIndex chunkCount : Nat)
    (meters : List MeterEntry) : StdString :=
  "\x7b\"type\":\"".toList ++ escapeJson type ++ "\",\"machineCode\":\"".toList ++ escapeJson machineCode ++
    "\",\"chunked\":true,\"chunkId\":\"".toList ++ escapeJson chunkId ++ "\",\"chunkIndex\":".toList ++
    countText chunkIndex ++ ",\"chunkCount\":".toList ++ countText chunkCount ++ ",\"meters\":[".toList ++
    commaSeparated (meters.map meterJson) ++ "]\x7d".toList

def realtimeChunkBaseBytes (type machineCode chunkId : StdString) : Nat :=
  (buildRealtimeChunkJson type machineCode chunkId 1 1 []).length

def meterWrapperBytes (meterCode : StdString) : Nat :=
  "\x7b\"meterCode\":\"\",\"values\":[]\x7d".toList.length + (escapeJson meterCode).length

structure Packing where
  chunks : List (List MeterEntry)
  currentMeters : List MeterEntry
  currentBytes : Nat

namespace Packing

variable (limit baseBytes : Nat)

def flushCurrent (st : Packing) : Packing :=
  if st.currentMeters = [] then st else ⟨st.chunks ++ [st.currentMeters], [], baseBytes⟩

def appendMeter (meterCode : StdString) (st : Packing) : Packing :=
  let separatorBytes := if st.currentMeters = [] then 0 else 1
  { st with
    currentMeters := st.currentMeters ++ [(meterCode, [])]
    currentBytes := st.currentBytes + (separatorBytes + meterWrapperBytes meterCode) }

def backValues (st : Packing) : List StdString := (st.currentMeters.getLast?.map Prod.snd).getD []

def pushValue (itemPayload : StdString) (addedBytes : Nat) (st : Packing) : Packing :=
  { st with
    currentMeters := st.currentMeters.dropLast ++
      (st.currentMeters.getLast?.map fun meter => (meter.1, meter.2 ++ [itemPayload])).toList
    currentBytes := st.currentBytes + addedBytes }

def addedBytes (itemPayload : StdString) (st : Packing) : Nat :=
  (if st.backValues = [] then 0 else 1) + itemPayload.length

/-- The meter just appended is taken back, its wrapper and separator with it. -/
def popMeter (meterCode : StdString) (st : Packing) : Packing :=
  { st with
    currentMeters := st.currentMeters.dropLast
    currentBytes := st.currentBytes - (1 + meterWrapperBytes meterCode) }

def openMeter (meterCode : StdString) (st : Packing) : Packing :=
  if st.currentMeters.getLast?.map Prod.fst = some meterCode then st else st.appendMeter meterCode

/-- A meter just appended whose first value does not fit goes to the next chunk. -/
def makeRoom (meterCode itemPayload : StdString) (st : Packing) : Packing :=
  if st.backValues = [] ∧ 1 < st.currentMeters.length ∧ limit < st.currentBytes + st.addedBytes itemPayload then
    ((st.popMeter meterCode).flushCurrent baseBytes).appendMeter meterCode
  else st

def placeValue (meterCode itemPayload : StdString) (st : Packing) : Packing :=
  if st.currentBytes + st.addedBytes itemPayload ≤ limit ∨ st.backValues = [] then
    st.pushValue itemPayload (st.addedBytes itemPayload)
  else ((st.flushCurrent baseBytes).appendMeter meterCode).pushValue itemPayload itemPayload.length

/-- The body of the loop over the values of a meter. -/
def packItem (meterCode itemPayload : StdString) (st : Packing) : Packing :=
  ((st.openMeter meterCode).makeRoom limit baseBytes meterCode itemPayload).placeValue limit baseBytes meterCode itemPayload

end Packing

section Encode

variable (valueText : RawDouble → StdString) (type chunkId : StdString) (values : List StoredPointValue)
  (maxPayloadBytes : Nat) (format : PointValueJsonFormat) (fallbackMachineCode : StdString)

def groupedValues : List (StdString × List StoredPointValue) :=
  KeyedGroups.groups (·.meterCode) (values.filter fun item => decide (item.meterCode ≠ []))

def baseBytesOf : Nat := realtimeChunkBaseBytes type (firstMachineCode values fallbackMachineCode) chunkId

def packGroups (limit baseBytes : Nat) (groups : List (StdString × List StoredPointValue)) : Packing :=
  groups.foldl (fun st group => group.2.foldl
    (fun st item => st.packItem limit baseBytes group.1 (appendPointValueJson valueText format item)) st)
    ⟨[], [], baseBytes⟩

def realtimeChunks : List (List MeterEntry) :=
  let baseBytes := baseBytesOf type chunkId values fallbackMachineCode
  let packed := packGroups valueText format (max 4096 maxPayloadBytes) baseBytes (groupedValues values)
  let chunks := (packed.flushCurrent baseBytes).chunks
  if chunks = [] then [[]] else chunks

def encodeRealtimeChunks : List StdString :=
  let machineCode := firstMachineCode values fallbackMachineCode
  let chunks := realtimeChunks valueText type chunkId values maxPayloadBytes format fallbackMachineCode
  (chunks.zipIdx 1).map fun chunk => buildRealtimeChunkJson type machineCode chunkId chunk.2 chunks.length chunk.1

end Encode

abbrev PackedValue := StdString × StdString

def addValue (meters : List MeterEntry) (value : PackedValue) : List MeterEntry :=
  if meters.getLast?.map Prod.fst = some value.1 then
    meters.dropLast ++ (meters.getLast?.map fun meter => (meter.1, meter.2 ++ [value.2])).toList
  else meters ++ [(value.1, [value.2])]

def metersOf (values : List PackedValue) : List MeterEntry := values.foldl addValue []

def entriesOf (meters : List MeterEntry) : List PackedValue :=
  meters.flatMap fun meter => meter.2.map (Prod.mk meter.1)

def separatedBytes (sizes : List Nat) : Nat := sizes.sum + (sizes.length - 1)

def meterBytes (meter : MeterEntry) : Nat := meterWrapperBytes meter.1 + separatedBytes (meter.2.map List.length)

/-- What a chunk is longer than an empty one by, its number and count apart. -/
def contentBytes (meters : List MeterEntry) : Nat := separatedBytes (meters.map meterBytes)

section OpenChunk

variable (meters : List MeterEntry) (value : PackedValue)

theorem addValue_back {front : List MeterEntry} {payloads : List StdString} :
    addValue (front ++ [(value.1, payloads)]) value = front ++ [(value.1, payloads ++ [value.2])] := by
  rw [addValue, List.getLast?_append_cons, List.dropLast_concat]
  exact if_pos rfl

theorem addValue_other (h : meters.getLast?.map Prod.fst ≠ some value.1) :
    addValue meters value = meters ++ [(value.1, [value.2])] := if_neg h

theorem back_cases (meters : List MeterEntry) (meterCode : StdString) :
    (∃ front payloads, meters = front ++ [(meterCode, payloads)]) ∨ meters.getLast?.map Prod.fst ≠ some meterCode := by
  obtain rfl | ⟨front, last, rfl⟩ := List.eq_nil_or_concat' meters
  · exact .inr nofun
  · rw [List.getLast?_append_cons]
    obtain rfl | hOther := eq_or_ne last.1 meterCode
    · exact .inl ⟨front, last.2, rfl⟩
    · exact .inr fun h => hOther (Option.some.inj h)

theorem entriesOf_append (front back : List MeterEntry) : entriesOf (front ++ back) = entriesOf front ++ entriesOf back :=
  List.flatMap_append

theorem entriesOf_addValue : entriesOf (addValue meters value) = entriesOf meters ++ [value] := by
  obtain ⟨front, payloads, rfl⟩ | hOther := back_cases meters value.1
  · rw [addValue_back, entriesOf_append, entriesOf_append, entriesOf, entriesOf, entriesOf, List.flatMap_singleton,
      List.flatMap_singleton, List.map_append, List.append_assoc]
    rfl
  · rw [addValue_other _ _ hOther, entriesOf_append]
    rfl

theorem metersOf_snoc (values : List PackedValue) : metersOf (values ++ [value]) = addValue (metersOf values) value :=
  List.foldl_concat _ _ _ _

theorem entriesOf_metersOf (values : List PackedValue) : entriesOf (metersOf values) = values := by
  induction values using List.reverseRecOn with
  | nil => rfl
  | append_singleton values value ih => rw [metersOf_snoc, entriesOf_addValue, ih]

theorem forall_addValue (h : ∀ meter ∈ meters, meter.2 ≠ []) : ∀ meter ∈ addValue meters value, meter.2 ≠ [] := by
  intro meter hMeter
  obtain ⟨front, payloads, rfl⟩ | hOther := back_cases meters value.1
  · rw [addValue_back] at hMeter
    obtain hFront | hLast := List.mem_append.mp hMeter
    · exact h meter (List.mem_append_left _ hFront)
    · rw [List.mem_singleton.mp hLast]
      exact List.append_ne_nil_of_right_ne_nil _ (List.cons_ne_nil _ _)
  · rw [addValue_other _ _ hOther] at hMeter
    obtain hFront | hLast := List.mem_append.mp hMeter
    · exact h meter hFront
    · rw [List.mem_singleton.mp hLast]
      exact List.cons_ne_nil _ _

theorem metersOf_ne_nil (values : List PackedValue) : ∀ meter ∈ metersOf values, meter.2 ≠ [] := by
  induction values using List.reverseRecOn with
  | nil => exact nofun
  | append_singleton values value ih =>
    rw [metersOf_snoc]
    exact forall_addValue _ _ ih

end OpenChunk

theorem separatedBytes_snoc (sizes : List Nat) (size : Nat) :
    separatedBytes (sizes ++ [size]) = separatedBytes sizes + (if sizes = [] then 0 else 1) + size := by
  rw [separatedBytes, separatedBytes, List.sum_append, List.length_append, List.sum_singleton, List.length_singleton]
  split
  · rename_i hNone
    rw [hNone]
    rfl
  · rename_i hSome
    have hLength := List.length_pos_iff.mpr hSome
    omega

theorem contentBytes_snoc (meters : List MeterEntry) (meter : MeterEntry) :
    contentBytes (meters ++ [meter]) = contentBytes meters + (if meters = [] then 0 else 1) + meterBytes meter := by
  rw [contentBytes, contentBytes, List.map_append, List.map_singleton, separatedBytes_snoc]
  simp only [List.map_eq_nil_iff]

theorem meterBytes_snoc (meterCode itemPayload : StdString) (payloads : List StdString) :
    meterBytes (meterCode, payloads ++ [itemPayload]) =
      meterBytes (meterCode, payloads) + ((if payloads = [] then 0 else 1) + itemPayload.length) := by
  rw [meterBytes, meterBytes, List.map_append, List.map_singleton, separatedBytes_snoc]
  simp only [List.map_eq_nil_iff]
  omega

namespace Packing

/-- The state of the loop with these closed chunks and this open one, counted right. -/
def holding (baseBytes : Nat) (chunks : List (List MeterEntry)) (meters : List MeterEntry) : Packing :=
  ⟨chunks, meters, baseBytes + contentBytes meters⟩

variable (limit baseBytes : Nat) (chunks : List (List MeterEntry)) (meters front : List MeterEntry)
  (meterCode itemPayload : StdString) (payloads : List StdString)

theorem appendMeter_holding :
    (holding baseBytes chunks meters).appendMeter meterCode = holding baseBytes chunks (meters ++ [(meterCode, [])]) := by
  have hBytes : meterBytes (meterCode, []) = meterWrapperBytes meterCode := rfl
  rw [holding, holding, appendMeter, contentBytes_snoc, hBytes]
  dsimp only
  congr 1
  omega

theorem flushCurrent_holding (h : meters ≠ []) :
    (holding baseBytes chunks meters).flushCurrent baseBytes = holding baseBytes (chunks ++ [meters]) [] := if_neg h

theorem backValues_holding :
    (holding baseBytes chunks (front ++ [(meterCode, payloads)])).backValues = payloads := by
  rw [holding, backValues, List.getLast?_append_cons]
  rfl

theorem addedBytes_holding :
    (holding baseBytes chunks (front ++ [(meterCode, payloads)])).addedBytes itemPayload =
      (if payloads = [] then 0 else 1) + itemPayload.length := by
  rw [addedBytes, backValues_holding]

theorem bytes_holding_push :
    (holding baseBytes chunks (front ++ [(meterCode, payloads)])).currentBytes +
        ((if payloads = [] then 0 else 1) + itemPayload.length) =
      baseBytes + contentBytes (front ++ [(meterCode, payloads ++ [itemPayload])]) := by
  rw [holding, contentBytes_snoc, contentBytes_snoc, meterBytes_snoc]
  dsimp only
  omega

theorem pushValue_holding :
    (holding baseBytes chunks (front ++ [(meterCode, payloads)])).pushValue itemPayload
        ((if payloads = [] then 0 else 1) + itemPayload.length) =
      holding baseBytes chunks (front ++ [(meterCode, payloads ++ [itemPayload])]) := by
  rw [pushValue, bytes_holding_push]
  rw [holding, holding, List.dropLast_concat, List.getLast?_append_cons]
  rfl

theorem popMeter_holding (h : meters ≠ []) :
    (holding baseBytes chunks (meters ++ [(meterCode, [])])).popMeter meterCode = holding baseBytes chunks meters := by
  have hBytes : meterBytes (meterCode, []) = meterWrapperBytes meterCode := rfl
  rw [holding, popMeter, holding, List.dropLast_concat, contentBytes_snoc, if_neg h, hBytes]
  dsimp only
  congr 1
  omega

theorem open_holding :
    ((holding baseBytes chunks []).appendMeter meterCode).pushValue itemPayload itemPayload.length =
      holding baseBytes chunks [(meterCode, [itemPayload])] := by
  have hPush := pushValue_holding baseBytes chunks [] meterCode itemPayload []
  rw [if_pos rfl, Nat.zero_add] at hPush
  rw [appendMeter_holding]
  exact hPush

theorem openMeter_holding_back :
    (holding baseBytes chunks (front ++ [(meterCode, payloads)])).openMeter meterCode =
      holding baseBytes chunks (front ++ [(meterCode, payloads)]) := by
  rw [openMeter, holding, List.getLast?_append_cons]
  exact if_pos rfl

theorem openMeter_holding_other (h : meters.getLast?.map Prod.fst ≠ some meterCode) :
    (holding baseBytes chunks meters).openMeter meterCode = holding baseBytes chunks (meters ++ [(meterCode, [])]) := by
  rw [openMeter, holding]
  dsimp only
  rw [if_neg h]
  exact appendMeter_holding baseBytes chunks meters meterCode

variable {limit baseBytes meters payloads}

theorem makeRoom_holding_back (h : payloads ≠ []) :
    (holding baseBytes chunks (front ++ [(meterCode, payloads)])).makeRoom limit baseBytes meterCode itemPayload =
      holding baseBytes chunks (front ++ [(meterCode, payloads)]) := by
  rw [makeRoom, backValues_holding]
  exact if_neg fun hNone => h hNone.1

theorem makeRoom_holding_fits
    (h : front = [] ∨ baseBytes + contentBytes (front ++ [(meterCode, [itemPayload])]) ≤ limit) :
    (holding baseBytes chunks (front ++ [(meterCode, [])])).makeRoom limit baseBytes meterCode itemPayload =
      holding baseBytes chunks (front ++ [(meterCode, [])]) := by
  rw [makeRoom, if_neg]
  rintro ⟨-, hLength, hOver⟩
  rw [addedBytes_holding, bytes_holding_push] at hOver
  obtain rfl | hFits := h
  · exact absurd hLength (Nat.lt_irrefl 1)
  · exact absurd hOver (Nat.not_lt.mpr hFits)

theorem makeRoom_holding_overflows (hOpen : front ≠ [])
    (h : limit < baseBytes + contentBytes (front ++ [(meterCode, [itemPayload])])) :
    (holding baseBytes chunks (front ++ [(meterCode, [])])).makeRoom limit baseBytes meterCode itemPayload =
      holding baseBytes (chunks ++ [front]) [(meterCode, [])] := by
  rw [makeRoom, if_pos, popMeter_holding _ _ _ _ hOpen, flushCurrent_holding _ _ _ hOpen, appendMeter_holding]
  · rfl
  · refine ⟨backValues_holding _ _ _ _ _, ?_, ?_⟩
    · have hLength := List.length_pos_iff.mpr hOpen
      rw [holding]
      dsimp only
      rw [List.length_append, List.length_singleton]
      omega
    · rw [addedBytes_holding, bytes_holding_push]
      exact h

theorem placeValue_holding_fits
    (h : payloads = [] ∨ baseBytes + contentBytes (front ++ [(meterCode, payloads ++ [itemPayload])]) ≤ limit) :
    (holding baseBytes chunks (front ++ [(meterCode, payloads)])).placeValue limit baseBytes meterCode itemPayload =
      holding baseBytes chunks (front ++ [(meterCode, payloads ++ [itemPayload])]) := by
  rw [placeValue, backValues_holding, addedBytes_holding, bytes_holding_push, if_pos h.symm]
  exact pushValue_holding _ _ _ _ _ _

theorem placeValue_holding_overflows (hSome : payloads ≠ [])
    (h : limit < baseBytes + contentBytes (front ++ [(meterCode, payloads ++ [itemPayload])])) :
    (holding baseBytes chunks (front ++ [(meterCode, payloads)])).placeValue limit baseBytes meterCode itemPayload =
      holding baseBytes (chunks ++ [front ++ [(meterCode, payloads)]]) [(meterCode, [itemPayload])] := by
  have hOpen : front ++ [(meterCode, payloads)] ≠ [] := List.append_ne_nil_of_right_ne_nil _ (List.cons_ne_nil _ _)
  rw [placeValue, backValues_holding, addedBytes_holding, bytes_holding_push, if_neg, flushCurrent_holding _ _ _ hOpen,
    open_holding]
  rintro (hFits | hNone)
  · exact absurd h (Nat.not_lt.mpr hFits)
  · exact hSome hNone

variable {value : PackedValue}

theorem packItem_fits (hFull : ∀ meter ∈ meters, meter.2 ≠ [])
    (h : meters = [] ∨ baseBytes + contentBytes (addValue meters value) ≤ limit) :
    (holding baseBytes chunks meters).packItem limit baseBytes value.1 value.2 =
      holding baseBytes chunks (addValue meters value) := by
  rw [packItem]
  obtain ⟨front, payloads, rfl⟩ | hOther := back_cases meters value.1
  · have hSome : payloads ≠ [] := hFull (value.1, payloads) (List.mem_append_right _ (List.mem_singleton_self _))
    have hFits := h.resolve_left (List.append_ne_nil_of_right_ne_nil _ (List.cons_ne_nil _ _))
    rw [addValue_back] at hFits ⊢
    rw [openMeter_holding_back, makeRoom_holding_back _ _ _ _ hSome, placeValue_holding_fits _ _ _ _ (.inr hFits)]
  · rw [addValue_other _ _ hOther] at h ⊢
    rw [openMeter_holding_other _ _ _ _ hOther, makeRoom_holding_fits _ _ _ _ h,
      placeValue_holding_fits _ _ _ _ (.inl rfl)]
    rfl

theorem packItem_overflows (hOpen : meters ≠ []) (hFull : ∀ meter ∈ meters, meter.2 ≠ [])
    (h : limit < baseBytes + contentBytes (addValue meters value)) :
    (holding baseBytes chunks meters).packItem limit baseBytes value.1 value.2 =
      holding baseBytes (chunks ++ [meters]) [(value.1, [value.2])] := by
  rw [packItem]
  obtain ⟨front, payloads, rfl⟩ | hOther := back_cases meters value.1
  · have hSome : payloads ≠ [] := hFull (value.1, payloads) (List.mem_append_right _ (List.mem_singleton_self _))
    rw [addValue_back] at h
    rw [openMeter_holding_back, makeRoom_holding_back _ _ _ _ hSome, placeValue_holding_overflows _ _ _ _ hSome h]
  · rw [addValue_other _ _ hOther] at h
    rw [openMeter_holding_other _ _ _ _ hOther, makeRoom_holding_overflows _ _ _ _ hOpen h]
    exact placeValue_holding_fits _ [] _ _ (.inl rfl)

end Packing

section NextFit

variable (limit baseBytes : Nat)

def nextFit : Grouping PackedValue (List PackedValue) where
  joins chunk value := decide (baseBytes + contentBytes (metersOf (chunk ++ [value])) ≤ limit)
  join chunk value := chunk ++ [value]
  single value := [value]

theorem joins_nextFit (chunk : List PackedValue) (value : PackedValue) :
    (nextFit limit baseBytes).joins chunk value =
      decide (baseBytes + contentBytes (metersOf (chunk ++ [value])) ≤ limit) := rfl

theorem metersOf_eq_nil {values : List PackedValue} : metersOf values = [] ↔ values = [] := by
  constructor
  · intro h
    rw [← entriesOf_metersOf values, h]
    rfl
  · rintro rfl
    rfl

def packValue (st : Packing) (value : PackedValue) : Packing := st.packItem limit baseBytes value.1 value.2

theorem packing_groupsFrom (chunks : List (List MeterEntry)) (chunk values : List PackedValue) (hOpen : chunk ≠ []) :
    ((values.foldl (packValue limit baseBytes) (.holding baseBytes chunks (metersOf chunk))).flushCurrent baseBytes).chunks =
      chunks ++ ((nextFit limit baseBytes).groupsFrom chunk values).map metersOf := by
  have hMeters : metersOf chunk ≠ [] := mt metersOf_eq_nil.mp hOpen
  induction values generalizing chunks chunk with
  | nil => rw [List.foldl_nil, Packing.flushCurrent_holding _ _ _ hMeters]; rfl
  | cons value values ih =>
    rw [List.foldl_cons, packValue, Grouping.groupsFrom]
    split
    · rename_i hJoins
      have hFits := of_decide_eq_true hJoins
      have hSome : chunk ++ [value] ≠ [] := List.append_ne_nil_of_right_ne_nil _ (List.cons_ne_nil _ _)
      rw [metersOf_snoc] at hFits
      rw [Packing.packItem_fits _ (metersOf_ne_nil chunk) (.inr hFits), ← metersOf_snoc]
      exact ih chunks (chunk ++ [value]) hSome (mt metersOf_eq_nil.mp hSome)
    · rename_i hFull
      have hOver := Nat.lt_of_not_le (mt decide_eq_true hFull)
      have hSome : [value] ≠ [] := List.cons_ne_nil _ _
      rw [metersOf_snoc] at hOver
      rw [Packing.packItem_overflows _ hMeters (metersOf_ne_nil chunk) hOver, List.map_cons]
      have hRest := ih (chunks ++ [metersOf chunk]) [value] hSome (mt metersOf_eq_nil.mp hSome)
      rw [List.append_assoc, List.singleton_append] at hRest
      exact hRest

theorem packing_groups (values : List PackedValue) :
    ((values.foldl (packValue limit baseBytes) (.holding baseBytes [] [])).flushCurrent baseBytes).chunks =
      ((nextFit limit baseBytes).groups values).map metersOf := by
  cases values with
  | nil => rfl
  | cons value values =>
    rw [List.foldl_cons, packValue, Packing.packItem_fits _ (List.forall_mem_nil _) (.inl rfl)]
    exact packing_groupsFrom limit baseBytes [] [value] values (List.cons_ne_nil _ _)

end NextFit

section Chunks

variable (valueText : RawDouble → StdString) (type chunkId : StdString) (values : List StoredPointValue)
  (maxPayloadBytes : Nat) (format : PointValueJsonFormat) (fallbackMachineCode : StdString)

def packedValue (item : StoredPointValue) : PackedValue := (item.meterCode, appendPointValueJson valueText format item)

def packedValues : List PackedValue := (KeyedGroups.elements (groupedValues values)).map (packedValue valueText format)

def packedChunks : List (List PackedValue) :=
  (nextFit (max 4096 maxPayloadBytes) (baseBytesOf type chunkId values fallbackMachineCode)).groups
    (packedValues valueText values format)

theorem packGroups_eq (limit baseBytes : Nat) :
    packGroups valueText format limit baseBytes (groupedValues values) =
      (packedValues valueText values format).foldl (packValue limit baseBytes) (.holding baseBytes [] []) := by
  have hKeyed : ∀ group ∈ groupedValues values, ∀ item ∈ group.2, item.meterCode = group.1 :=
    fun group hGroup => ((KeyedGroups.keyed_groups _).inGroup group hGroup).2
  rw [packGroups, packedValues, KeyedGroups.elements, List.foldl_map, List.foldl_flatMap]
  refine List.foldl_ext _ _ _ fun st group hGroup => List.foldl_ext _ _ _ fun st item hItem => ?_
  rw [packValue, packedValue, hKeyed group hGroup item hItem]

theorem realtimeChunks_eq :
    realtimeChunks valueText type chunkId values maxPayloadBytes format fallbackMachineCode =
      if packedChunks valueText type chunkId values maxPayloadBytes format fallbackMachineCode = [] then [[]]
      else (packedChunks valueText type chunkId values maxPayloadBytes format fallbackMachineCode).map metersOf := by
  rw [realtimeChunks, packGroups_eq, packing_groups]
  simp only [List.map_eq_nil_iff]
  rfl

theorem getElem?_encodeRealtimeChunks {number : Nat} {meters : List MeterEntry}
    (h : (realtimeChunks valueText type chunkId values maxPayloadBytes format fallbackMachineCode)[number]? =
      some meters) :
    (encodeRealtimeChunks valueText type chunkId values maxPayloadBytes format fallbackMachineCode)[number]? =
      some (buildRealtimeChunkJson type (firstMachineCode values fallbackMachineCode) chunkId (number + 1)
        (realtimeChunks valueText type chunkId values maxPayloadBytes format fallbackMachineCode).length meters) := by
  rw [encodeRealtimeChunks, List.getElem?_map, List.getElem?_zipIdx, h, Nat.add_comm number 1]
  rfl

end Chunks

end EdgeGateway.MqttDriver
