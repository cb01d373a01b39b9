import EdgeGateway.Foundation.Fallible
import EdgeGateway.Iec.Asdu
import Mathlib.Tactic.FinCases
import Mathlib.Tactic.IntervalCases

/-! # Lists of objects in a unit -/

namespace EdgeGateway.Iec

open Fallible

section Fields

variable {before part after : List UInt8} {i width : Nat}

theorem byteAt_middle (h : i < part.length) : byteAt (before ++ part ++ after) (before.length + i) = byteAt part i := by
  rw [byteAt, byteAt, List.getD_append _ _ _ _ (by rw [List.length_append]; omega),
    List.getD_append_right _ _ _ _ (by omega), Nat.add_sub_cancel_left]

theorem take_middle (h : i + width ≤ part.length) :
    ((before ++ part ++ after).drop (before.length + i)).take width = (part.drop i).take width := by
  rw [List.append_assoc, ← List.drop_drop, List.drop_left' rfl, List.drop_append_of_le_length (by omega),
    List.take_append_of_le_length (by rw [List.length_drop]; omega)]

theorem readLe_middle (h : i + width ≤ part.length) :
    readLe (before ++ part ++ after) (before.length + i) width = readLe part i width := by
  rw [readLe, readLe, take_middle h, List.length_append, List.length_append]
  by_cases hWidth : 4 < width
  · rw [if_pos (.inl hWidth), if_pos (.inl hWidth)]
  · rw [if_neg (by omega), if_neg (by omega)]

theorem readLe_field (hWidth : part.length ≤ 3) :
    readLe (before ++ part ++ after) before.length part.length = .ok (Bytes.ofLittleEndian part : Int) := by
  have hRead := @readLe_middle before part after 0 part.length (by omega)
  have hBound : Bytes.ofLittleEndian part < 256 ^ 3 :=
    (Bytes.ofLittleEndian_lt part).trans_le (Nat.pow_le_pow_right (by decide) hWidth)
  rw [Nat.add_zero] at hRead
  rw [hRead, readLe, if_neg (by omega), List.drop_zero, List.take_length, Int.bmod_eq_of_le (by omega) (by omega)]

end Fields

theorem readLe_littleEndian {before after : List UInt8} {width value : Nat} (hWidth : width ≤ 3) (hFits : value < 256 ^ width) :
    readLe (before ++ Bytes.littleEndian width value ++ after) before.length width = .ok (value : Int) := by
  have hRead := @readLe_field before (Bytes.littleEndian width value) after (by rw [Bytes.length_littleEndian]; exact hWidth)
  rwa [Bytes.length_littleEndian, Bytes.ofLittleEndian_littleEndian, Nat.mod_eq_of_lt hFits] at hRead

section Objects

variable {α : Type} {ioaSize size : Nat} (hIoa : ioaSize ≤ 3) {decode : List UInt8 → Nat → Int → Except String α}
  {value : Int → List UInt8 → α}

def DecodesAnywhere (decode : List UInt8 → Nat → Int → Except String α) (size : Nat) (value : Int → List UInt8 → α) : Prop :=
  ∀ before payload after ioa, payload.length = size →
    decode (before ++ payload ++ after) before.length ioa = .ok (value ioa payload)

def encodeAddressed (ioaSize : Nat) (objects : List (Nat × List UInt8)) : List UInt8 :=
  objects.flatMap fun object => Bytes.littleEndian ioaSize object.1 ++ object.2

include hIoa in
theorem decodeObjects_addressed (hDecode : DecodesAnywhere decode size value) {objects : List (Nat × List UInt8)}
    (hObjects : ∀ object ∈ objects, object.1 < 256 ^ ioaSize ∧ object.2.length = size) {before bytes : List UInt8}
    (hBytes : bytes = before ++ encodeAddressed ioaSize objects) (i : Nat) :
    decodeObjects (addressedObject bytes ioaSize size fun place ioa => (decode bytes place ioa).map fun a => (a, size))
      objects.length i before.length = .ok (objects.map fun object => value object.1 object.2) := by
  induction objects generalizing before i with
  | nil => rfl
  | cons object objects ih =>
    obtain ⟨hFits, hSize⟩ := hObjects object List.mem_cons_self
    have hRest : bytes = before ++ (Bytes.littleEndian ioaSize object.1 ++ object.2) ++ encodeAddressed ioaSize objects := by
      rw [hBytes, encodeAddressed, List.flatMap_cons, ← List.append_assoc]
      rfl
    have hAddress : readLe bytes before.length ioaSize = .ok (object.1 : Int) := by
      rw [hRest, ← List.append_assoc, List.append_assoc]
      exact readLe_littleEndian hIoa hFits
    have hValue : decode bytes (before.length + ioaSize) object.1 = .ok (value object.1 object.2) := by
      have hAt := hDecode (before ++ Bytes.littleEndian ioaSize object.1) object.2 (encodeAddressed ioaSize objects)
        object.1 hSize
      rw [List.length_append, Bytes.length_littleEndian] at hAt
      rw [hRest, ← List.append_assoc]
      exact hAt
    have hLong : ¬bytes.length < before.length + ioaSize + size := by
      rw [hRest, List.length_append, List.length_append, List.length_append, Bytes.length_littleEndian, hSize]
      omega
    have hNext := ih (fun other hOther => hObjects other (List.mem_cons_of_mem _ hOther)) hRest (i + 1)
    rw [List.length_append, List.length_append, Bytes.length_littleEndian, hSize, ← Nat.add_assoc] at hNext
    have hObject : addressedObject bytes ioaSize size (fun place ioa => (decode bytes place ioa).map fun a => (a, size)) i
        before.length = .ok (some (value object.1 object.2, before.length + ioaSize + size)) := by
      rw [addressedObject, if_neg hLong, hAddress]
      change ((decode bytes (before.length + ioaSize) object.1).map _).bind _ = _
      rw [hValue]
      rfl
    rw [List.length_cons, decodeObjects, hObject]
    change (decodeObjects _ objects.length (i + 1) _).map _ = _
    rw [hNext]
    rfl

theorem decodeObjects_sequential (hDecode : DecodesAnywhere decode size value) {payloads : List (List UInt8)}
    (hPayloads : ∀ payload ∈ payloads, payload.length = size) {before bytes : List UInt8}
    (hBytes : bytes = before ++ payloads.flatten) (baseIoa : Int) (i : Nat) :
    decodeObjects (sequentialObject bytes baseIoa size fun place ioa => (decode bytes place ioa).map fun a => (a, size))
      payloads.length i before.length = .ok ((payloads.zipIdx i).map fun object => value (baseIoa + object.2) object.1) := by
  induction payloads generalizing before i with
  | nil => rfl
  | cons payload payloads ih =>
    have hSize := hPayloads payload List.mem_cons_self
    have hRest : bytes = before ++ payload ++ payloads.flatten := by
      rw [hBytes, List.flatten_cons, List.append_assoc]
    have hLong : ¬bytes.length < before.length + size := by
      rw [hRest, List.length_append, List.length_append, hSize]
      omega
    have hNext := ih (fun other hOther => hPayloads other (List.mem_cons_of_mem _ hOther)) hRest (i + 1)
    rw [List.length_append, hSize] at hNext
    have hObject : sequentialObject bytes baseIoa size (fun place ioa => (decode bytes place ioa).map fun a => (a, size)) i
        before.length = .ok (some (value (baseIoa + i) payload, before.length + size)) := by
      rw [sequentialObject, if_neg hLong]
      change ((decode bytes before.length (baseIoa + i)).map _).bind _ = _
      rw [hRest, hDecode before payload _ _ hSize]
      rfl
    rw [List.length_cons, decodeObjects, hObject]
    change (decodeObjects _ payloads.length (i + 1) _).map _ = _
    rw [hNext]
    rfl

end Objects

/-! ## Types of elements

The objects of a unit either follow one base address or carry an address each.
Both forms decode to the same unit.
-/

/-- The types with a payload, apart from protection events: by what an element of the type reads. -/
def valueTypes : List Nat :=
  [1, 2, 30, 45] ++ [3, 4, 31, 46] ++ [20] ++ [5, 6, 32, 11, 12, 35, 49] ++ [9, 10, 34, 21, 48] ++
    [7, 8, 33, 15, 16, 37] ++ [13, 14, 36, 50]

theorem typePayloadSize_large {typeId : Nat} (h : 50 < typeId) : typePayloadSize typeId = 0 := by
  unfold typePayloadSize
  split <;> omega

theorem mem_valueTypes {typeId : Nat} (hSize : typePayloadSize typeId ≠ 0) (hValue : isProtectionType typeId = false) :
    typeId ∈ valueTypes := by
  have hSmall : typeId < 51 := by
    by_contra hLarge
    exact hSize (typePayloadSize_large (by omega))
  have hAll : ∀ t < 51, typePayloadSize t ≠ 0 → isProtectionType t = false → t ∈ valueTypes := by decide
  exact hAll typeId hSmall hSize hValue

theorem protection_size {typeId : Nat} (h : isProtectionType typeId = true) : 6 ≤ typePayloadSize typeId := by
  have hRange := of_decide_eq_true h
  have hAll : ∀ t < 41, isProtectionType t = true → 6 ≤ typePayloadSize t := by decide
  exact hAll typeId (by omega) h

section Elements

variable {K : Type} [Field K] {platform : Platform K} {typeId : Nat}

/-- What an element reads: its first byte, its first word and its first double word. -/
theorem elementValue_congr {bytes bytes' : List UInt8} {offset offset' : Nat} (h : typeId ∈ valueTypes)
    (hByte : byteAt bytes offset = byteAt bytes' offset')
    (hWord : 2 ≤ typePayloadSize typeId → wordAt bytes offset = wordAt bytes' offset')
    (hLong : 4 ≤ typePayloadSize typeId → readUInt32Le bytes offset = readUInt32Le bytes' offset') :
    elementValue platform bytes offset typeId = elementValue platform bytes' offset' typeId := by
  have hInt16 : 2 ≤ typePayloadSize typeId → readInt16Le bytes offset = readInt16Le bytes' offset' :=
    fun hSize => congrArg (fun word : Nat => Int.bmod word (2 ^ 16)) (hWord hSize)
  have hInt32 : 4 ≤ typePayloadSize typeId → readInt32Le bytes offset = readInt32Le bytes' offset' :=
    fun hSize => congrArg (fun long : Nat => Int.bmod long (2 ^ 32)) (hLong hSize)
  simp only [valueTypes, List.mem_append] at h
  obtain (((((h | h) | h) | h) | h) | h) | h := h
  · fin_cases h <;> exact congrArg (fun byte : UInt8 => (.ok ((byte &&& 0x01).toNat : K) : Except String K)) hByte
  · fin_cases h <;> exact congrArg (fun byte : UInt8 => (.ok ((byte &&& 0x03).toNat : K) : Except String K)) hByte
  · fin_cases h
    exact congrArg (fun byte : UInt8 => (.ok (byte.toNat : K) : Except String K)) hByte
  · fin_cases h <;> exact congrArg (fun n : Int => (.ok (n : K) : Except String K)) (hInt16 (by decide))
  · fin_cases h <;> exact congrArg (fun n : Int => (.ok ((n : K) / 32768) : Except String K)) (hInt16 (by decide))
  · fin_cases h <;> exact congrArg (fun n : Int => (.ok (n : K) : Except String K)) (hInt32 (by decide))
  · fin_cases h <;>
      exact congrArg (fun bits : Nat => (.ok (platform.ofFloatBits bits) : Except String K)) (hLong (by decide))

theorem elementValue_ok (h : typeId ∈ valueTypes) (bytes : List UInt8) (offset : Nat) :
    ∃ value, elementValue platform bytes offset typeId = .ok value := by
  simp only [valueTypes, List.mem_append] at h
  obtain (((((h | h) | h) | h) | h) | h) | h := h <;> fin_cases h <;> exact ⟨_, rfl⟩

def elementNumber (platform : Platform K) (typeId : Nat) (payload : List UInt8) : K :=
  match elementValue platform payload 0 typeId with
  | .ok value => value
  | .error _ => 0

theorem elementValue_eq (h : typeId ∈ valueTypes) (payload : List UInt8) :
    elementValue platform payload 0 typeId = .ok (elementNumber platform typeId payload) := by
  obtain ⟨value, hValue⟩ := @elementValue_ok K _ platform typeId h payload 0
  rw [elementNumber, hValue]

variable {cause commonAddress : Int}

theorem decodesAnywhere_information (h : typeId ∈ valueTypes) :
    DecodesAnywhere (fun bytes place ioa => decodeInformationObject platform bytes place typeId cause commonAddress ioa)
      (typePayloadSize typeId)
      (fun ioa payload => ⟨commonAddress, ioa, typeId, cause, elementNumber platform typeId payload⟩) := by
  intro before payload after ioa hSize
  have hAll : ∀ t ∈ valueTypes, 0 < typePayloadSize t := by decide
  have hPos := hAll typeId h
  have hSame : elementValue platform (before ++ payload ++ after) before.length typeId = elementValue platform payload 0 typeId := by
    have hByte := @byteAt_middle before payload after 0 (by omega)
    rw [Nat.add_zero] at hByte
    refine elementValue_congr h hByte (fun hWord => ?_) (fun hLong => ?_)
    · rw [wordAt, wordAt, ← @take_middle before payload after 0 2 (by omega), Nat.add_zero]
    · rw [readUInt32Le, readUInt32Le, ← @take_middle before payload after 0 4 (by omega), Nat.add_zero]
  have hRoom : ¬(typePayloadSize typeId = 0 ∨ (before ++ payload ++ after).length < before.length + typePayloadSize typeId) := by
    rw [List.length_append, List.length_append]
    omega
  change decodeInformationObject platform _ _ _ _ _ _ = _
  rw [decodeInformationObject, if_neg hRoom, hSame, elementValue_eq h]
  rfl

def protectionEvent (typeId : Nat) (cause commonAddress ioa : Int) (payload : List UInt8) : IecProtectionEvent :=
  ⟨commonAddress, ioa, typeId, cause, (byteAt payload 0 &&& 0x03).toNat, wordAt payload 1, wordAt payload 3⟩

theorem readLe_word {payload : List UInt8} {offset : Nat} (h : offset + 2 ≤ payload.length) :
    readLe payload offset 2 = .ok (wordAt payload offset : Int) := by
  have hBound := Bytes.ofLittleEndian_lt ((payload.drop offset).take 2)
  have hLength : ((payload.drop offset).take 2).length = 2 := by
    rw [List.length_take, List.length_drop]
    omega
  rw [hLength] at hBound
  rw [readLe, if_neg (by omega), wordAt, Int.bmod_eq_of_le (by omega) (by omega)]

theorem decodesAnywhere_protection (h : isProtectionType typeId = true) :
    DecodesAnywhere (fun bytes place ioa => decodeProtectionEvent bytes place typeId cause commonAddress ioa)
      (typePayloadSize typeId) (protectionEvent typeId cause commonAddress) := by
  intro before payload after ioa hSize
  have hLarge := protection_size h
  have hRoom : ¬(before ++ payload ++ after).length < before.length + typePayloadSize typeId := by
    rw [List.length_append, List.length_append]
    omega
  have hByte := @byteAt_middle before payload after 0 (by omega)
  change decodeProtectionEvent _ _ _ _ _ _ = _
  rw [decodeProtectionEvent, if_neg hRoom, readLe_middle (by omega), readLe_middle (by omega), readLe_word (by omega),
    readLe_word (by omega), protectionEvent, ← hByte]
  rfl

end Elements

def sequentialAsdu (ioaSize typeId : Nat) (cot ca : List UInt8) (base : Nat) (payloads : List (List UInt8)) : List UInt8 :=
  [UInt8.ofNat typeId, UInt8.ofNat (128 + payloads.length)] ++ cot ++ ca ++
    (Bytes.littleEndian ioaSize base ++ payloads.flatten)

def addressed (base : Nat) (payloads : List (List UInt8)) : List (Nat × List UInt8) :=
  payloads.zipIdx.map fun object => (base + object.2, object.1)

def individualAsdu (ioaSize typeId : Nat) (cot ca : List UInt8) (objects : List (Nat × List UInt8)) : List UInt8 :=
  [UInt8.ofNat typeId, UInt8.ofNat objects.length] ++ cot ++ ca ++ encodeAddressed ioaSize objects

section Units

variable {K : Type} [Field K] (platform : Platform K)

def objectsAsdu (typeId : Nat) (cot ca : List UInt8) (objects : List (Nat × List UInt8)) : IecAsdu K :=
  let cause : Int := (Bytes.ofLittleEndian cot : Int) % 64
  let commonAddress : Int := Bytes.ofLittleEndian ca
  if isProtectionType typeId then
    { typeId, cause, commonAddress,
      protectionEvents := objects.map fun object => protectionEvent typeId cause commonAddress object.1 object.2 }
  else
    { typeId, cause, commonAddress,
      values := objects.map fun object =>
        ⟨commonAddress, object.1, typeId, cause, elementNumber platform typeId object.2⟩ }

variable {platform} {config : IecProtocolConfig} {typeId : Nat} {cot ca : List UInt8}

theorem decodeAsdu_of_elements {vsq : Nat} {rest : List UInt8} {objects : List (Nat × List UInt8)}
    (hCot : cot.length = config.cotSize) (hCotSize : config.cotSize ≤ 2) (hCa : ca.length = config.caSize)
    (hCaSize : config.caSize ≤ 2) (hType : typePayloadSize typeId ≠ 0) (hVsq : vsq < 256) (hCount : vsq % 128 ≠ 0)
    (hElements : ∀ {α : Type} {decode : List UInt8 → Nat → Int → Except String α} {value : Int → List UInt8 → α},
      DecodesAnywhere decode (typePayloadSize typeId) value →
      decodeElements ([UInt8.ofNat typeId, UInt8.ofNat vsq] ++ cot ++ ca ++ rest) config (128 ≤ vsq) (vsq % 128)
        (2 + config.cotSize + config.caSize) (typePayloadSize typeId)
        (decode ([UInt8.ofNat typeId, UInt8.ofNat vsq] ++ cot ++ ca ++ rest)) =
          .ok (objects.map fun object => value object.1 object.2)) :
    decodeAsdu platform config ([UInt8.ofNat typeId, UInt8.ofNat vsq] ++ cot ++ ca ++ rest) =
      .ok (objectsAsdu platform typeId cot ca objects) := by
  have hSmall : typeId ≤ 50 := by
    by_contra hLarge
    exact hType (typePayloadSize_large (by omega))
  have hTypeByte : (UInt8.ofNat typeId).toNat = typeId := by
    rw [UInt8.toNat_ofNat']
    omega
  have hVsqByte : (UInt8.ofNat vsq).toNat = vsq := by
    rw [UInt8.toNat_ofNat']
    omega
  have hCause : readLe ([UInt8.ofNat typeId, UInt8.ofNat vsq] ++ cot ++ ca ++ rest) 2 config.cotSize =
      .ok (Bytes.ofLittleEndian cot : Int) := by
    rw [← hCot, List.append_assoc]
    exact @readLe_field [UInt8.ofNat typeId, UInt8.ofNat vsq] cot (ca ++ rest) (by omega)
  have hAddress : readLe ([UInt8.ofNat typeId, UInt8.ofNat vsq] ++ cot ++ ca ++ rest) (2 + config.cotSize) config.caSize =
      .ok (Bytes.ofLittleEndian ca : Int) := by
    have hField := @readLe_field ([UInt8.ofNat typeId, UInt8.ofNat vsq] ++ cot) ca rest (by omega)
    rwa [List.length_append, hCot, hCa] at hField
  have hParameter : isParameterType typeId = false := decide_eq_false (by omega)
  have hFile : isFileType typeId = false := decide_eq_false (by omega)
  have hFirst : byteAt ([UInt8.ofNat typeId, UInt8.ofNat vsq] ++ cot ++ ca ++ rest) 0 = UInt8.ofNat typeId := rfl
  have hSecond : byteAt ([UInt8.ofNat typeId, UInt8.ofNat vsq] ++ cot ++ ca ++ rest) 1 = UInt8.ofNat vsq := rfl
  rw [decodeAsdu, if_neg (by simp only [List.length_append, List.length_cons, List.length_nil]; omega)]
  refine bind_ok_iff.mpr ⟨_, hCause, bind_ok_iff.mpr ⟨_, hAddress, ?_⟩⟩
  rw [hFirst, hSecond, hTypeByte, hVsqByte, hParameter, hFile, if_neg Bool.false_ne_true, if_neg Bool.false_ne_true,
    if_neg (not_or.mpr ⟨hType, hCount⟩)]
  cases hProtection : isProtectionType typeId with
  | true =>
    rw [objectsAsdu, hProtection, if_pos rfl, if_pos rfl]
    exact bind_ok_iff.mpr ⟨_, hElements (decodesAnywhere_protection hProtection), rfl⟩
  | false =>
    rw [objectsAsdu, hProtection, if_neg Bool.false_ne_true, if_neg Bool.false_ne_true]
    exact bind_ok_iff.mpr ⟨_, hElements (decodesAnywhere_information (mem_valueTypes hType hProtection)), rfl⟩

variable (hCot : cot.length = config.cotSize) (hCotSize : config.cotSize ≤ 2) (hCa : ca.length = config.caSize)
  (hCaSize : config.caSize ≤ 2) (hIoaSize : config.ioaSize ≤ 3) (hType : typePayloadSize typeId ≠ 0)

include hCot hCotSize hCa hCaSize hIoaSize hType

theorem decodeAsdu_individual {objects : List (Nat × List UInt8)} (hSome : objects ≠ []) (hCount : objects.length ≤ 127)
    (hObjects : ∀ object ∈ objects, object.1 < 256 ^ config.ioaSize ∧ object.2.length = typePayloadSize typeId) :
    decodeAsdu platform config (individualAsdu config.ioaSize typeId cot ca objects) =
      .ok (objectsAsdu platform typeId cot ca objects) := by
  have hPos := List.length_pos_of_ne_nil hSome
  have hVsq : objects.length % 128 = objects.length := Nat.mod_eq_of_lt (by omega)
  refine decodeAsdu_of_elements hCot hCotSize hCa hCaSize hType (by omega) (by omega) ?_
  intro α decode value hDecode
  have hHeader : 2 + config.cotSize + config.caSize =
      ([UInt8.ofNat typeId, UInt8.ofNat objects.length] ++ cot ++ ca).length := by
    rw [List.length_append, List.length_append, hCot, hCa]
    rfl
  rw [hVsq, hHeader, decodeElements, if_neg (by rw [decide_eq_true_iff]; omega)]
  exact decodeObjects_addressed hIoaSize hDecode hObjects rfl 0

theorem decodeAsdu_sequential {base : Nat} {payloads : List (List UInt8)} (hSome : payloads ≠ []) (hCount : payloads.length ≤ 127)
    (hPayloads : ∀ payload ∈ payloads, payload.length = typePayloadSize typeId) (hBase : base < 256 ^ config.ioaSize) :
    decodeAsdu platform config (sequentialAsdu config.ioaSize typeId cot ca base payloads) =
      .ok (objectsAsdu platform typeId cot ca (addressed base payloads)) := by
  have hPos := List.length_pos_of_ne_nil hSome
  have hVsq : (128 + payloads.length) % 128 = payloads.length := by omega
  refine decodeAsdu_of_elements hCot hCotSize hCa hCaSize hType (by omega) (by omega) ?_
  intro α decode value hDecode
  have hHeader : 2 + config.cotSize + config.caSize =
      ([UInt8.ofNat typeId, UInt8.ofNat (128 + payloads.length)] ++ cot ++ ca).length := by
    rw [List.length_append, List.length_append, hCot, hCa]
    rfl
  have hRead := @readLe_littleEndian ([UInt8.ofNat typeId, UInt8.ofNat (128 + payloads.length)] ++ cot ++ ca)
    payloads.flatten config.ioaSize base hIoaSize hBase
  rw [List.append_assoc] at hRead
  have hLoop := @decodeObjects_sequential α (typePayloadSize typeId) decode value hDecode payloads hPayloads
    ([UInt8.ofNat typeId, UInt8.ofNat (128 + payloads.length)] ++ cot ++ ca ++ Bytes.littleEndian config.ioaSize base) _ rfl
    base 0
  rw [List.length_append, Bytes.length_littleEndian, List.append_assoc] at hLoop
  rw [hVsq, hHeader, decodeElements, if_pos (by rw [decide_eq_true_iff]; omega)]
  refine bind_ok_iff.mpr ⟨_, hRead, hLoop.trans ?_⟩
  rw [addressed, List.map_map]
  rfl

end Units

end EdgeGateway.Iec
