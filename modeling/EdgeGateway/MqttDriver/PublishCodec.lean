import EdgeGateway.MqttDriver.Packet
import EdgeGateway.Foundation.Bytes
import EdgeGateway.Foundation.FixedDigits
import EdgeGateway.Foundation.Fallible

/-! # The PUBLISH codec -/

namespace EdgeGateway.MqttDriver

open Fallible

theorem varint_eq (value : Nat) : varint value = SevenBit.encode value := by
  induction value using Nat.strongRecOn with
  | ind value ih =>
    rw [varint, SevenBit.encode]
    split
    · rfl
    · rw [ih (value / 128) (by omega)]

theorem remainingLengthLoop_eq (value used : Nat) (bytes : List UInt8) :
    remainingLengthLoop (128 ^ used) value used bytes =
      match SevenBit.decode bytes with
      | none => .error "mqtt malformed remaining length"
      | some (number, taken) =>
        if used + taken ≤ 4 then .ok (value + number * 128 ^ used, used + taken)
        else .error "mqtt malformed remaining length" := by
  induction bytes generalizing value used with
  | nil => rfl
  | cons byte rest ih =>
    have hRange : 128 * 128 * 128 < 128 ^ used ↔ 4 ≤ used := Nat.pow_lt_pow_iff_right (n := 3) (by decide : 1 < 128)
    rw [remainingLengthLoop]
    split
    · rename_i hLong
      have hUsed := hRange.mp hLong
      cases hDecoded : SevenBit.decode (byte :: rest) with
      | none => rfl
      | some decoded =>
        have hTaken := SevenBit.decode_used_pos hDecoded
        exact (if_neg (by omega)).symm
    · rename_i hShort
      have hUsed : used + 1 ≤ 4 := by omega
      split
      · rename_i hMore
        rw [SevenBit.decode_continued hMore, ← Nat.pow_succ, ih]
        cases SevenBit.decode rest with
        | none => rfl
        | some decoded =>
          have hValue : value + (byte &&& 0x7F).toNat * 128 ^ used + decoded.1 * 128 ^ (used + 1) =
              value + ((byte &&& 0x7F).toNat + 128 * decoded.1) * 128 ^ used := by
            rw [Nat.pow_succ]
            ring
          have hTaken : used + 1 + decoded.2 = used + (decoded.2 + 1) := by omega
          dsimp only [Option.map_some]
          rw [hValue, hTaken]
      · rename_i hLast
        rw [SevenBit.decode_last (not_not.mp hLast)]
        dsimp only
        rw [if_pos hUsed]

/-- Both the sum and the multiplier of the loop are those of the number, taken as machine words. -/
theorem propertyLengthLoop_eq (multiplier length used : Nat) (bytes : List UInt8) :
    propertyLengthLoop (multiplier % 2 ^ 64) length used bytes =
      match SevenBit.decode bytes with
      | none => .error "mqtt publish properties malformed"
      | some (number, taken) => .ok ((length + number * multiplier) % 2 ^ 64, used + taken) := by
  induction bytes generalizing multiplier length used with
  | nil => rfl
  | cons byte rest ih =>
    have hSum : (length + (byte &&& 0x7F).toNat * (multiplier % 2 ^ 64)) % 2 ^ 64 ≡
        length + (byte &&& 0x7F).toNat * multiplier [MOD 2 ^ 64] :=
      (Nat.mod_modEq _ _).trans ((Nat.mod_modEq multiplier _).mul_left _ |>.add_left _)
    rw [propertyLengthLoop]
    split
    · rename_i hMore
      rw [Nat.mod_mul_mod, ih, SevenBit.decode_continued hMore]
      cases SevenBit.decode rest with
      | none => rfl
      | some decoded =>
        have hValue : length + (byte &&& 0x7F).toNat * multiplier + decoded.1 * (multiplier * 128) =
            length + ((byte &&& 0x7F).toNat + 128 * decoded.1) * multiplier := by ring
        have hTaken : used + 1 + decoded.2 = used + (decoded.2 + 1) := by omega
        have hLength := hSum.add_right (decoded.1 * (multiplier * 128))
        rw [hValue] at hLength
        dsimp only [Option.map_some]
        rw [hLength, hTaken]
    · rename_i hLast
      rw [SevenBit.decode_last (not_not.mp hLast)]
      dsimp only
      rw [← Nat.mod_mod]
      exact congrArg (fun length => Except.ok (length, used + 1)) hSum

theorem decodeRemainingLength_eq (packet : Packet) :
    decodeRemainingLength packet =
      match SevenBit.decode (packet.drop 1) with
      | none => .error "mqtt malformed remaining length"
      | some (number, taken) =>
        if taken ≤ 4 then .ok (number, 1 + taken) else .error "mqtt malformed remaining length" := by
  have hLoop := remainingLengthLoop_eq 0 0 (packet.drop 1)
  rw [Nat.pow_zero] at hLoop
  rw [decodeRemainingLength, hLoop]
  cases SevenBit.decode (packet.drop 1) with
  | none => rfl
  | some decoded =>
    dsimp only
    rw [Nat.zero_add, Nat.zero_add, Nat.mul_one]
    split <;> rfl

theorem decodeRemainingLength_varint (first : UInt8) {value : Nat} (h : value < 2 ^ 28) (rest : List UInt8) :
    decodeRemainingLength (first :: varint value ++ rest) = .ok (value, 1 + (varint value).length) := by
  have hLength : (SevenBit.encode value).length ≤ 3 + 1 := (SevenBit.length_encode_le_iff value 3).mpr h
  rw [decodeRemainingLength_eq, List.cons_append, List.drop_one, List.tail_cons, varint_eq, SevenBit.decode_encode]
  exact if_pos hLength

theorem decodeRemainingLength_beyond (first : UInt8) {value : Nat} (h : 2 ^ 28 ≤ value) (rest : List UInt8) :
    decodeRemainingLength (first :: varint value ++ rest) = .error "mqtt malformed remaining length" := by
  have hLength : ¬ (SevenBit.encode value).length ≤ 3 + 1 := by
    rw [SevenBit.length_encode_le_iff]
    exact Nat.not_lt.mpr h
  rw [decodeRemainingLength_eq, List.cons_append, List.drop_one, List.tail_cons, varint_eq, SevenBit.decode_encode]
  exact if_neg hLength

theorem decodeRemainingLength_long (first : UInt8) {leading : List UInt8} (hCount : leading.length = 4)
    (hMore : ∀ byte ∈ leading, byte &&& 0x80 ≠ 0) (rest : List UInt8) :
    decodeRemainingLength (first :: leading ++ rest) = .error "mqtt malformed remaining length" := by
  have hDecoded : ∀ (leading : List UInt8), (∀ byte ∈ leading, byte &&& 0x80 ≠ 0) → ∀ number taken,
      SevenBit.decode (leading ++ rest) = some (number, taken) → leading.length < taken := by
    intro leading hMore
    induction leading with
    | nil => exact fun number taken h => SevenBit.decode_used_pos h
    | cons byte leading ih =>
      intro number taken h
      obtain ⟨hByte, hLeading⟩ := List.forall_mem_cons.mp hMore
      rw [List.cons_append, SevenBit.decode_continued hByte] at h
      obtain ⟨decoded, hRest, hSame⟩ := Option.map_eq_some_iff.mp h
      rw [← (Prod.mk.inj hSame).2, List.length_cons]
      exact Nat.succ_lt_succ (ih hLeading _ _ hRest)
  rw [decodeRemainingLength_eq, List.cons_append, List.drop_one, List.tail_cons]
  cases hFound : SevenBit.decode (leading ++ rest) with
  | none => rfl
  | some decoded =>
    have hTaken := hDecoded leading hMore _ _ hFound
    exact if_neg (by omega)

section Parse

variable (config : MqttConfig) (packet : Packet)

def topicLengthAt (headerSize : Nat) : Nat :=
  (bytesWord (packet.getD headerSize 0) (packet.getD (headerSize + 1) 0)).toNat

def topicAt (headerSize : Nat) : StdString :=
  bytesText ((packet.drop (headerSize + 2)).take (topicLengthAt packet headerSize))

def topicEnd (headerSize : Nat) : Nat := headerSize + 2 + topicLengthAt packet headerSize

def bodyStart (headerSize : Nat) : Nat := if 0 < packetQos packet then topicEnd packet headerSize + 2 else topicEnd packet headerSize

def packetIdAt (headerSize : Nat) : UInt16 :=
  if 0 < packetQos packet then
    bytesWord (packet.getD (topicEnd packet headerSize) 0) (packet.getD (topicEnd packet headerSize + 1) 0)
  else 0

def requestEntry (topic : StdString) : Option (StdString × MqttIncomingType) :=
  config.requestTopics.find? fun entry => topic = scopedTopic entry.1 config.topicMachineCode

variable {config packet}

theorem parsePublishPacket_some_iff {publish : Publish} :
    parsePublishPacket config packet = .ok (some publish) ↔
      packetType packet = 0x30 ∧ ∃ remainingLength headerSize,
        decodeRemainingLength packet = .ok (remainingLength, headerSize) ∧
        remainingLength ≤ incomingPacketLimit config ∧ packet.length ≤ headerSize + incomingPacketLimit config ∧
        headerSize + 2 ≤ packet.length ∧ bodyStart packet headerSize ≤ packet.length ∧
        ∃ cursor entry, skipProperties config packet (bodyStart packet headerSize) = .ok cursor ∧
          requestEntry config (topicAt packet headerSize) = some entry ∧
          publish = ⟨⟨entry.2, topicAt packet headerSize, bytesText (packet.drop cursor)⟩, packetIdAt packet headerSize⟩ := by
  constructor
  · intro h
    rw [parsePublishPacket] at h
    split at h
    · cases h
    · rename_i hType
      obtain ⟨⟨remainingLength, headerSize⟩, hRemaining, h⟩ := bind_ok_iff.mp h
      dsimp only at h
      split at h
      · cases h
      · rename_i hSize
        split at h
        · cases h
        · rename_i hTopicLength
          split at h
          · cases h
          · rename_i hTopic
            split at h
            · cases h
            · rename_i hIdentifier
              obtain ⟨cursor, hCursor, h⟩ := bind_ok_iff.mp h
              have hStart : bodyStart packet headerSize ≤ packet.length := by
                rw [bodyStart, topicEnd, topicLengthAt]
                split <;> omega
              split at h
              · cases h
              · rename_i entry hEntry
                refine ⟨not_not.mp hType, remainingLength, headerSize, hRemaining, by omega, by omega, by omega, hStart,
                  cursor, entry, hCursor, hEntry, ?_⟩
                exact (Option.some.inj (Except.ok.inj h)).symm
  · rintro ⟨hType, remainingLength, headerSize, hRemaining, hLimit, hSize, hTopicLength, hStart, cursor, entry, hCursor,
      hEntry, rfl⟩
    rw [bodyStart, topicEnd, topicLengthAt] at hStart
    have hTopic : ¬ packet.length < headerSize + 2 + topicLengthAt packet headerSize := by
      rw [topicLengthAt]
      split at hStart <;> omega
    have hIdentifier : ¬ (0 < packetQos packet ∧ packet.length < headerSize + 2 + topicLengthAt packet headerSize + 2) := by
      rintro ⟨hQos, hShort⟩
      rw [if_pos hQos] at hStart
      rw [topicLengthAt] at hShort
      omega
    rw [parsePublishPacket, if_neg (not_not.mpr hType)]
    refine bind_ok_iff.mpr ⟨_, hRemaining, ?_⟩
    dsimp only
    rw [if_neg (by omega), if_neg (by omega)]
    refine (if_neg hTopic).trans ((if_neg hIdentifier).trans (bind_ok_iff.mpr ⟨cursor, hCursor, ?_⟩))
    rw [requestEntry, topicAt, topicLengthAt] at hEntry
    rw [hEntry]
    rfl

theorem propertyLength_eq (bytes : List UInt8) :
    propertyLengthLoop 1 0 0 bytes =
      match SevenBit.decode bytes with
      | none => .error "mqtt publish properties malformed"
      | some (number, taken) => .ok (number % 2 ^ 64, taken) := by
  have hOne : 1 % 2 ^ 64 = 1 := by decide
  have hLoop := propertyLengthLoop_eq 1 0 0 bytes
  rw [hOne] at hLoop
  rw [hLoop]
  cases SevenBit.decode bytes with
  | none => rfl
  | some decoded =>
    dsimp only
    rw [Nat.zero_add, Nat.zero_add, Nat.mul_one]

/-- The cursor behind the properties, as the machine word that it is. -/
theorem skipProperties_ok_iff {start cursor : Nat} :
    skipProperties config packet start = .ok cursor ↔
      if config.mqtt5 then ∃ number used, SevenBit.decode (packet.drop start) = some (number, used) ∧
        cursor = (start + used + number) % 2 ^ 64 ∧ cursor ≤ packet.length
      else cursor = start := by
  rw [skipProperties]
  split
  · rw [bind_ok_iff, propertyLength_eq]
    cases hDecoded : SevenBit.decode (packet.drop start) with
    | none =>
      constructor
      · rintro ⟨length, hLength, -⟩
        cases hLength
      · rintro ⟨number, used, hNone, -⟩
        cases hNone
    | some decoded =>
      constructor
      · rintro ⟨length, hLength, h⟩
        obtain rfl := Except.ok.inj hLength
        dsimp only at h
        rw [Nat.add_mod_mod] at h
        split at h
        · cases h
        · rename_i hFits
          obtain rfl := Except.ok.inj h
          exact ⟨decoded.1, decoded.2, rfl, rfl, Nat.le_of_not_lt hFits⟩
      · rintro ⟨number, used, hSame, rfl, hFits⟩
        obtain rfl := Option.some.inj hSame
        refine ⟨_, rfl, ?_⟩
        dsimp only
        rw [Nat.add_mod_mod, if_neg (Nat.not_lt.mpr hFits)]
        rfl
  · rw [pure_ok_iff]
    exact eq_comm

def PayloadAt (config : MqttConfig) (packet : Packet) (start position : Nat) : Prop :=
  if config.mqtt5 then ∃ number used, SevenBit.decode (packet.drop start) = some (number, used) ∧
    position = start + used + number ∧ position ≤ packet.length
  else position = start

/-- The payload is what is left of the packet behind its topic, its identifier and its properties. -/
def PayloadExact (config : MqttConfig) (packet : Packet) (publish : Publish) : Prop :=
  ∃ remainingLength headerSize position, decodeRemainingLength packet = .ok (remainingLength, headerSize) ∧
    bodyStart packet headerSize ≤ packet.length ∧ PayloadAt config packet (bodyStart packet headerSize) position ∧
    publish.message.payload = bytesText (packet.drop position)

/-- The end of the properties, by their declared length, is a machine word. -/
def DeclaresWord (config : MqttConfig) (packet : Packet) : Prop :=
  config.mqtt5 = true → ∀ remainingLength headerSize number used,
    decodeRemainingLength packet = .ok (remainingLength, headerSize) →
    SevenBit.decode (packet.drop (bodyStart packet headerSize)) = some (number, used) →
    bodyStart packet headerSize + used + number < 2 ^ 64

theorem payloadExact_iff {publish : Publish} (hSize : packet.length < 2 ^ 64)
    (h : parsePublishPacket config packet = .ok (some publish)) :
    PayloadExact config packet publish ↔ DeclaresWord config packet := by
  obtain ⟨-, remainingLength, headerSize, hRemaining, -, -, -, hStart, cursor, entry, hCursor, -, rfl⟩ :=
    parsePublishPacket_some_iff.mp h
  rw [skipProperties_ok_iff] at hCursor
  constructor
  · rintro ⟨remaining, header, position, hHeader, -, hPosition, -⟩ hFive other another number used hOther hDecoded
    obtain ⟨-, rfl⟩ := Prod.mk.inj (Except.ok.inj (hHeader.symm.trans hOther))
    rw [PayloadAt, if_pos hFive] at hPosition
    obtain ⟨declared, taken, hDeclared, hEnd, hFits⟩ := hPosition
    obtain ⟨rfl, rfl⟩ := Prod.mk.inj (Option.some.inj (hDeclared.symm.trans hDecoded))
    omega
  · intro hWord
    refine ⟨remainingLength, headerSize, cursor, hRemaining, hStart, ?_, rfl⟩
    rw [PayloadAt]
    split at hCursor
    · rename_i hFive
      obtain ⟨number, used, hDecoded, hEnd, hFits⟩ := hCursor
      have hBelow := hWord hFive _ _ _ _ hRemaining hDecoded
      rw [Nat.mod_eq_of_lt hBelow] at hEnd
      rw [if_pos hFive]
      exact ⟨number, used, hDecoded, hEnd, hFits⟩
    · rename_i hThree
      rw [if_neg hThree]
      exact hCursor

end Parse

section RoundTrip

theorem textBytes_bytesText (bytes : List UInt8) : textBytes (bytesText bytes) = bytes := by
  have hByte : ∀ byte : UInt8, UInt8.ofNat (Char.ofNat byte.toNat).toNat = byte := by
    intro byte
    have hRange := byte.toNat_lt
    have hValid : byte.toNat.isValidChar := .inl (by omega)
    have hChar : (Char.ofNat byte.toNat).toNat = byte.toNat := by
      rw [Char.ofNat, dif_pos hValid]
      rfl
    rw [hChar]
    exact UInt8.ofNat_toNat
  rw [textBytes, bytesText, List.map_map]
  exact (List.map_congr_left fun byte _ => hByte byte).trans (List.map_id bytes)

theorem length_bytesText (bytes : List UInt8) : (bytesText bytes).length = bytes.length := List.length_map _

theorem bytesWord_wordBytes (value : UInt16) : bytesWord (value >>> 8).toUInt8 value.toUInt8 = value :=
  Bytes.join_halves value

/-- A packet whose fixed header is `front`, taken apart. -/
theorem read_parts {front topic rest : List UInt8} {identifier length : UInt16} {packet : Packet}
    (hLength : length.toNat = topic.length)
    (hPacket : packet = front ++ (wordBytes length ++ (topic ++
      ((if 0 < packetQos packet then wordBytes identifier else []) ++ rest)))) :
    topicAt packet front.length = bytesText topic ∧
      packetIdAt packet front.length = (if 0 < packetQos packet then identifier else 0) ∧
      bodyStart packet front.length + rest.length = packet.length ∧
      packet.drop (bodyStart packet front.length) = rest ∧ front.length + 2 ≤ packet.length := by
  have hGet : ∀ place offset, packet.getD (place + offset) 0 = (packet.drop place).getD offset 0 := by
    intro place offset
    rw [List.getD_eq_getElem?_getD, List.getD_eq_getElem?_getD, List.getElem?_drop]
  have hBody : packet.drop front.length = wordBytes length ++ (topic ++
      ((if 0 < packetQos packet then wordBytes identifier else []) ++ rest)) := by
    conv_lhs => rw [hPacket]
    exact List.drop_left
  have hWord : ∀ value : UInt16, (wordBytes value).length = 2 := fun _ => rfl
  have hTopicLength : topicLengthAt packet front.length = topic.length := by
    rw [topicLengthAt, ← Nat.add_zero front.length, hGet, Nat.add_zero, hGet, hBody, ← hLength]
    exact congrArg UInt16.toNat (bytesWord_wordBytes length)
  have hAfterWord : packet.drop (front.length + 2) = topic ++
      ((if 0 < packetQos packet then wordBytes identifier else []) ++ rest) := by
    rw [← List.drop_drop, hBody, ← hWord length, List.drop_left]
  have hEnd : topicEnd packet front.length = front.length + 2 + topic.length := by rw [topicEnd, hTopicLength]
  have hAfterTopic : packet.drop (topicEnd packet front.length) =
      (if 0 < packetQos packet then wordBytes identifier else []) ++ rest := by
    rw [hEnd, ← List.drop_drop, hAfterWord, List.drop_left]
  have hTotal := congrArg List.length hPacket
  rw [List.length_append, List.length_append, List.length_append, List.length_append, hWord] at hTotal
  have hTopic : topicAt packet front.length = bytesText topic := by
    rw [topicAt, hTopicLength, hAfterWord, List.take_left]
  rw [packetIdAt, bodyStart]
  split
  · rename_i hQos
    rw [if_pos hQos] at hAfterTopic
    rw [if_pos hQos, hWord] at hTotal
    refine ⟨hTopic, ?_, by omega, ?_, by omega⟩
    · rw [← Nat.add_zero (topicEnd packet front.length), hGet, Nat.add_zero, hGet, hAfterTopic]
      exact bytesWord_wordBytes identifier
    · rw [← List.drop_drop, hAfterTopic, ← hWord identifier, List.drop_left]
  · rename_i hQos
    rw [if_neg hQos] at hAfterTopic
    rw [if_neg hQos, List.length_nil] at hTotal
    exact ⟨hTopic, rfl, by omega, hAfterTopic, by omega⟩

def publishFirst (qos : Int) : UInt8 :=
  if clampQos qos = 0 then kPacketPublishQos0 else if clampQos qos = 1 then kPacketPublishQos1 else kPacketPublishQos2

theorem publishFirst_reads (qos : Int) :
    publishFirst qos &&& 0xF0 = 0x30 ∧ ((publishFirst qos >>> 1) &&& 0x03).toNat = clampQos qos := by
  have hRange : clampQos qos = 0 ∨ clampQos qos = 1 ∨ clampQos qos = 2 := by
    rw [clampQos]
    omega
  rw [publishFirst]
  obtain h | h | h := hRange
  · rw [h]
    decide
  · rw [h]
    decide
  · rw [h]
    decide

variable (config : MqttConfig) (topic payload : List UInt8) (packetId : UInt16) (qos : Int)

def publishHeader : List UInt8 :=
  wordBytes (UInt16.ofNat topic.length) ++ topic ++ (if 0 < clampQos qos then wordBytes packetId else []) ++
    if config.mqtt5 then varint 0 else []

theorem buildPublishPacket_eq (hTopic : topic.length ≤ 0xFFFF) :
    buildPublishPacket config (bytesText topic) (bytesText payload) packetId qos =
      .ok (publishFirst qos :: varint ((publishHeader config topic packetId qos).length + payload.length) ++
        publishHeader config topic packetId qos ++ payload) := by
  have hHeader : appendString [] (bytesText topic) = .ok (wordBytes (UInt16.ofNat topic.length) ++ topic) := by
    rw [appendString, length_bytesText, if_neg (Nat.not_lt.mpr hTopic), textBytes_bytesText, List.nil_append]
  rw [buildPublishPacket, hHeader]
  change Except.ok _ = Except.ok _
  rw [length_bytesText, textBytes_bytesText]
  rfl

def announcedBytes : Nat := (publishHeader config topic packetId qos).length + payload.length

theorem parse_buildPublishPacket (hTopic : topic.length ≤ 0xFFFF) {entry : StdString × MqttIncomingType}
    (hEntry : requestEntry config (bytesText topic) = some entry)
    (hLimit : announcedBytes config topic payload packetId qos ≤ incomingPacketLimit config)
    (hSize : announcedBytes config topic payload packetId qos < 2 ^ 28) :
    ∃ packet, buildPublishPacket config (bytesText topic) (bytesText payload) packetId qos = .ok packet ∧
      parsePublishPacket config packet =
        .ok (some ⟨⟨entry.2, bytesText topic, bytesText payload⟩, if 0 < clampQos qos then packetId else 0⟩) := by
  refine ⟨_, buildPublishPacket_eq config topic payload packetId qos hTopic, ?_⟩
  obtain ⟨hType, hQos⟩ := publishFirst_reads qos
  have hWord : (UInt16.ofNat topic.length).toNat = topic.length := by
    rw [UInt16.toNat_ofNat']
    omega
  rw [announcedBytes] at hLimit hSize
  generalize hCount : (publishHeader config topic packetId qos).length + payload.length = count at hLimit hSize
  generalize hPacket : publishFirst qos :: varint count ++ publishHeader config topic packetId qos ++ payload = packet
  have hFirst : firstByte packet = publishFirst qos := by rw [← hPacket]; rfl
  have hPacketQos : packetQos packet = clampQos qos := by rw [packetQos, hFirst, hQos]
  have hParts : packet = (publishFirst qos :: varint count) ++ (wordBytes (UInt16.ofNat topic.length) ++ (topic ++
      ((if 0 < packetQos packet then wordBytes packetId else []) ++
        ((if config.mqtt5 then varint 0 else []) ++ payload)))) := by
    rw [hPacketQos, ← hPacket, publishHeader]
    simp only [List.append_assoc]
  obtain ⟨hTopicAt, hIdentifier, hTotal, hRest, hFront⟩ := read_parts hWord hParts
  have hFrontLength : (publishFirst qos :: varint count).length = 1 + (varint count).length := by
    rw [List.length_cons, Nat.add_comm]
  have hVarint : (varint count).length ≤ 4 := by
    rw [varint_eq]
    exact (SevenBit.length_encode_le_iff count 3).mpr hSize
  have hLength : packet.length = (publishFirst qos :: varint count).length + count := by
    rw [← hPacket, List.length_append, List.length_append, Nat.add_assoc, hCount]
  have hRemaining : decodeRemainingLength packet = .ok (count, (publishFirst qos :: varint count).length) := by
    rw [hFrontLength, ← hPacket, List.append_assoc]
    exact decodeRemainingLength_varint _ hSize _
  have hSkip : ∃ cursor, skipProperties config packet (bodyStart packet (publishFirst qos :: varint count).length) =
      .ok cursor ∧ packet.drop cursor = payload := by
    simp only [skipProperties_ok_iff]
    split
    · rename_i hFive
      rw [if_pos hFive] at hRest hTotal
      have hZero : varint 0 = [0x00] := by rw [varint]; rfl
      rw [hZero] at hRest hTotal
      rw [List.length_append, List.length_singleton] at hTotal
      refine ⟨bodyStart packet (publishFirst qos :: varint count).length + 1, ⟨0, 1, ?_, ?_, ?_⟩, ?_⟩
      · rw [hRest]
        rfl
      · rw [Nat.add_zero, Nat.mod_eq_of_lt]
        omega
      · omega
      · rw [← List.drop_drop, hRest]
        rfl
    · rename_i hThree
      rw [if_neg hThree] at hRest
      exact ⟨_, rfl, hRest⟩
  obtain ⟨cursor, hCursor, hPayload⟩ := hSkip
  rw [parsePublishPacket_some_iff]
  refine ⟨?_, count, _, hRemaining, hLimit, by omega, hFront, by omega, cursor, entry, hCursor, ?_, ?_⟩
  · rw [packetType, hFirst, hType]
  · rw [hTopicAt]
    exact hEntry
  · rw [hTopicAt, hPayload, hIdentifier, hPacketQos]

end RoundTrip

theorem requestEntry_exists {config : MqttConfig} {topic : StdString} {entry : StdString × MqttIncomingType}
    (hEntry : entry ∈ config.requestTopics) (hTopic : topic = scopedTopic entry.1 config.topicMachineCode) :
    ∃ found, requestEntry config topic = some found := by
  rw [requestEntry, ← Option.isSome_iff_exists, List.find?_isSome]
  exact ⟨entry, hEntry, decide_eq_true hTopic⟩

/-- A request is read back, remaining lengths below 2^28 are, and a payload is exact unless its properties
    wrap. -/
theorem publish_codec (config : MqttConfig) :
    (∀ (topic payload : List UInt8) (packetId : UInt16) (qos : Int), topic.length ≤ 0xFFFF →
      (∃ entry ∈ config.requestTopics, bytesText topic = scopedTopic entry.1 config.topicMachineCode) →
      announcedBytes config topic payload packetId qos ≤ incomingPacketLimit config →
      announcedBytes config topic payload packetId qos < 2 ^ 28 →
      ∃ packet type, buildPublishPacket config (bytesText topic) (bytesText payload) packetId qos = .ok packet ∧
        parsePublishPacket config packet =
          .ok (some ⟨⟨type, bytesText topic, bytesText payload⟩, if 0 < clampQos qos then packetId else 0⟩)) ∧
    (∀ (first : UInt8) (value : Nat) (rest : List UInt8), value < 2 ^ 28 →
      decodeRemainingLength (first :: varint value ++ rest) = .ok (value, 1 + (varint value).length)) ∧
    (∀ (first : UInt8) (value : Nat) (rest : List UInt8), 2 ^ 28 ≤ value →
      decodeRemainingLength (first :: varint value ++ rest) = .error "mqtt malformed remaining length") ∧
    (∀ (first : UInt8) (leading rest : List UInt8), leading.length = 4 → (∀ byte ∈ leading, byte &&& 0x80 ≠ 0) →
      decodeRemainingLength (first :: leading ++ rest) = .error "mqtt malformed remaining length") ∧
    ∀ (packet : Packet) (publish : Publish), packet.length < 2 ^ 64 →
      parsePublishPacket config packet = .ok (some publish) →
      (PayloadExact config packet publish ↔ DeclaresWord config packet) := by
  refine ⟨?_, fun first value rest h => decodeRemainingLength_varint first h rest,
    fun first value rest h => decodeRemainingLength_beyond first h rest,
    fun first leading rest hCount hMore => decodeRemainingLength_long first hCount hMore rest,
    fun packet publish => payloadExact_iff⟩
  rintro topic payload packetId qos hTopic ⟨entry, hEntry, hSame⟩ hLimit hSize
  obtain ⟨found, hFound⟩ := requestEntry_exists hEntry hSame
  obtain ⟨packet, hBuilt, hParsed⟩ := parse_buildPublishPacket config topic payload packetId qos hTopic hFound hLimit hSize
  exact ⟨packet, found.2, hBuilt, hParsed⟩

def mqtt5Config : MqttConfig := { protocolVersion := "mqtt5".toList }

def wrappedPacket : Packet :=
  [0x30, 33, 0, 20] ++ textBytes "edge/command/request".toList ++
    [0xFF, 0xFF, 0xFF, 0xFF, 0xFF, 0xFF, 0xFF, 0xFF, 0xFF, 0x01] ++ [0x31]

def wrappedPublish : Publish := ⟨⟨.commandRequest, "edge/command/request".toList, [Char.ofNat 1, '1']⟩, 0⟩

/-- The cursor goes back into the property length, and its last byte becomes part of the payload. -/
theorem property_length_moves_cursor_back :
    parsePublishPacket mqtt5Config wrappedPacket = .ok (some wrappedPublish) ∧
      ¬ PayloadExact mqtt5Config wrappedPacket wrappedPublish := by
  have hParsed : parsePublishPacket mqtt5Config wrappedPacket = .ok (some wrappedPublish) := by decide +kernel
  refine ⟨hParsed, fun hExact => ?_⟩
  have hWord := (payloadExact_iff (by decide) hParsed).mp hExact
  have hRemaining : decodeRemainingLength wrappedPacket = .ok (33, 2) := by decide +kernel
  have hDeclared : SevenBit.decode (wrappedPacket.drop (bodyStart wrappedPacket 2)) = some (2 ^ 64 - 1, 10) := by
    decide +kernel
  have hBelow := hWord (by decide) 33 2 _ _ hRemaining hDeclared
  omega

end EdgeGateway.MqttDriver
