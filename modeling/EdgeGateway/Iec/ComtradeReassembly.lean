import EdgeGateway.Iec.Iec103Codec

/-! # COMTRADE files out of numbered packets

The assembler stores the packets 0, 1, 2, … of one file in their order, passes a
stored packet that comes again and turns down everything else.
-/

namespace EdgeGateway.Iec

namespace ComtradeAssembler

theorem takePacket_cases (assembler : ComtradeAssembler) (chunk : ComtradeChunk) :
    (∃ message, assembler.takePacket chunk = .error message) ∨
      (assembler.takePacket chunk = .ok assembler ∧ 0 ≤ chunk.packetNumber ∧
        chunk.packetNumber < assembler.nextPacketNumber ∧
        assembler.packets[chunk.packetNumber.toNat]? = some chunk.data) ∨
      (chunk.packetNumber = assembler.nextPacketNumber ∧ assembler.complete = false ∧
        chunk.data.length ≤ assembler.maxBytes - min assembler.maxBytes assembler.bytes.length ∧
        assembler.takePacket chunk = .ok {
          maxBytes := assembler.maxBytes
          fileType := assembler.fileType
          nextPacketNumber := assembler.nextPacketNumber + 1
          complete := chunk.lastPacket
          packets := assembler.packets ++ [chunk.data]
          bytes := assembler.bytes ++ chunk.data }) := by
  rw [takePacket]
  split
  · exact .inl ⟨_, rfl⟩
  · rename_i hSign
    split
    · rename_i hStored
      split
      · exact .inl ⟨_, rfl⟩
      · rename_i hSame
        exact .inr (.inl ⟨rfl, by omega, hStored, not_not.mp hSame⟩)
    · split
      · exact .inl ⟨_, rfl⟩
      · rename_i hOpen
        split
        · exact .inl ⟨_, rfl⟩
        · rename_i hNumber
          split
          · exact .inl ⟨_, rfl⟩
          · rename_i hRoom
            exact .inr (.inr ⟨not_not.mp hNumber, Bool.eq_false_of_not_eq_true hOpen, by omega, rfl⟩)

theorem add_error {assembler : ComtradeAssembler} {chunk : ComtradeChunk} {message : String}
    (h : (assembler.add chunk).2 = .error message) :
    (assembler.add chunk).1 = assembler ∨ (assembler.fileType = 0 ∨ assembler.fileType = chunk.fileType) ∧
      (assembler.add chunk).1 = { assembler with fileType := chunk.fileType } := by
  rw [add] at h ⊢
  split
  · exact .inl rfl
  · split
    · exact .inl rfl
    · rename_i hWrong hOther
      rw [if_neg hWrong, if_neg hOther] at h
      dsimp only at h ⊢
      refine .inr ⟨by omega, ?_⟩
      split
      · rename_i hTaken
        rw [hTaken] at h
        cases h
      · rfl

theorem add_ok {assembler : ComtradeAssembler} {chunk : ComtradeChunk} (h : (assembler.add chunk).2 = .ok ()) :
    (chunk.fileType = 0x51 ∨ chunk.fileType = 0x52) ∧
      (assembler.fileType = 0 ∨ assembler.fileType = chunk.fileType) ∧
      ({ assembler with fileType := chunk.fileType } : ComtradeAssembler).takePacket chunk =
        .ok (assembler.add chunk).1 := by
  rw [add] at h ⊢
  split at h
  · cases h
  · split at h
    · cases h
    · rename_i hWrong hOther
      rw [if_neg hWrong, if_neg hOther]
      dsimp only at h ⊢
      refine ⟨by omega, by omega, ?_⟩
      cases hTaken : ({ assembler with fileType := chunk.fileType } : ComtradeAssembler).takePacket chunk with
      | ok after => rfl
      | error message =>
        rw [hTaken] at h
        cases h

theorem add_of_takePacket {assembler after : ComtradeAssembler} {chunk : ComtradeChunk}
    (hType : chunk.fileType = 0x51 ∨ chunk.fileType = 0x52)
    (hSame : assembler.fileType = 0 ∨ assembler.fileType = chunk.fileType)
    (h : ({ assembler with fileType := chunk.fileType } : ComtradeAssembler).takePacket chunk = .ok after) :
    assembler.add chunk = (after, .ok ()) := by
  rw [add, if_neg (by omega), if_neg (by omega)]
  dsimp only
  rw [h]

structure Holds (assembler : ComtradeAssembler) (accepted : List ComtradeChunk) : Prop where
  counted : assembler.nextPacketNumber = accepted.length
  stored : assembler.packets = accepted.map (·.data)
  joined : assembler.bytes = accepted.flatMap (·.data)
  within : assembler.bytes.length ≤ assembler.maxBytes
  flagged : assembler.complete = accepted.getLast?.any (·.lastPacket)
  numbered : accepted.map (·.packetNumber) = (List.range accepted.length).map Int.ofNat
  sameType : ∀ chunk ∈ accepted, chunk.fileType = assembler.fileType
  comtrade : ∀ chunk ∈ accepted, chunk.fileType = 0x51 ∨ chunk.fileType = 0x52

variable {assembler : ComtradeAssembler} {accepted : List ComtradeChunk} {chunk : ComtradeChunk}

theorem holds_new (maxBytes : Nat) : Holds (new maxBytes) [] where
  counted := rfl
  stored := rfl
  joined := rfl
  within := Nat.zero_le _
  flagged := rfl
  numbered := rfl
  sameType _ h := nomatch h
  comtrade _ h := nomatch h

theorem Holds.number (h : Holds assembler accepted) {number : Nat} (hAt : accepted[number]? = some chunk) :
    chunk.packetNumber = number := by
  obtain ⟨hNumber, -⟩ := List.getElem?_eq_some_iff.mp hAt
  have hSame := congrArg (fun numbers => numbers[number]?) h.numbered
  rw [List.getElem?_map, hAt, List.getElem?_map, List.getElem?_range hNumber] at hSame
  exact Option.some.inj hSame

theorem Holds.retyped (h : Holds assembler accepted) {fileType : Int}
    (hType : assembler.fileType = 0 ∨ assembler.fileType = fileType) :
    Holds { assembler with fileType } accepted := by
  refine { h with sameType := ?_ }
  intro chunk hChunk
  have hSame := h.sameType chunk hChunk
  have hKind := h.comtrade chunk hChunk
  change chunk.fileType = fileType
  omega

theorem Holds.add_error (h : Holds assembler accepted) {message : String}
    (hError : (assembler.add chunk).2 = .error message) : Holds (assembler.add chunk).1 accepted := by
  obtain hSame | ⟨hType, hSame⟩ := ComtradeAssembler.add_error hError
  · rw [hSame]
    exact h
  · rw [hSame]
    exact h.retyped hType

theorem Holds.add_stored (h : Holds assembler accepted) (hOk : (assembler.add chunk).2 = .ok ())
    (hStored : chunk.packetNumber < assembler.nextPacketNumber) : Holds (assembler.add chunk).1 accepted := by
  obtain ⟨-, hType, hTaken⟩ := add_ok hOk
  obtain ⟨message, hError⟩ | ⟨hSame, -⟩ | ⟨hNumber, -⟩ :=
    takePacket_cases { assembler with fileType := chunk.fileType } chunk
  · rw [hTaken] at hError
    cases hError
  · rw [Except.ok.inj (hTaken.symm.trans hSame)]
    exact h.retyped hType
  · exact absurd hNumber (Int.ne_of_lt hStored)

theorem Holds.add_next (h : Holds assembler accepted) (hOk : (assembler.add chunk).2 = .ok ())
    (hNext : assembler.nextPacketNumber ≤ chunk.packetNumber) :
    Holds (assembler.add chunk).1 (accepted ++ [chunk]) := by
  obtain ⟨hKind, hType, hTaken⟩ := add_ok hOk
  have hTyped := h.retyped hType
  obtain ⟨message, hError⟩ | ⟨-, -, hBelow, -⟩ | ⟨hNumber, -, hRoom, hAfter⟩ :=
    takePacket_cases { assembler with fileType := chunk.fileType } chunk
  · rw [hTaken] at hError
    cases hError
  · exact absurd hBelow (Int.not_lt.mpr hNext)
  · rw [Except.ok.inj (hTaken.symm.trans hAfter)]
    dsimp only at hNumber hRoom
    have hWithin := h.within
    constructor
    · rw [List.length_append, ← h.counted]
      rfl
    · rw [List.map_append, ← h.stored]
      rfl
    · rw [List.flatMap_append, ← h.joined, List.flatMap_singleton]
    · dsimp only
      rw [List.length_append]
      omega
    · rw [List.getLast?_append_cons]
      rfl
    · rw [List.map_append, h.numbered, List.length_append, List.length_singleton, List.range_succ, List.map_append,
        List.map_singleton, hNumber, h.counted]
      rfl
    · intro other hOther
      obtain hOther | hOther := List.mem_append.mp hOther
      · exact hTyped.sameType other hOther
      · rw [List.mem_singleton.mp hOther]
    · intro other hOther
      obtain hOther | hOther := List.mem_append.mp hOther
      · exact h.comtrade other hOther
      · rw [List.mem_singleton.mp hOther]
        exact hKind

theorem Holds.add_again (h : Holds assembler accepted) (hChunk : chunk ∈ accepted) :
    assembler.add chunk = (assembler, .ok ()) := by
  obtain ⟨number, hAt⟩ := List.mem_iff_getElem?.mp hChunk
  obtain ⟨hBelow, -⟩ := List.getElem?_eq_some_iff.mp hAt
  have hNumber := h.number hAt
  have hType := h.sameType chunk hChunk
  have hCounted := h.counted
  apply add_of_takePacket (h.comtrade chunk hChunk) (.inr hType.symm)
  rw [hType]
  change assembler.takePacket chunk = _
  rw [takePacket, if_neg (by omega), if_pos (by omega), hNumber, Int.toNat_natCast, if_neg]
  rw [not_not, h.stored, List.getElem?_map, hAt]
  rfl

def received (maxBytes : Nat) (chunks : List ComtradeChunk) : ComtradeAssembler :=
  chunks.foldl (fun assembler chunk => (assembler.add chunk).1) (new maxBytes)

def stores (assembler : ComtradeAssembler) (chunk : ComtradeChunk) : Bool :=
  (assembler.add chunk).2.isOk && decide (assembler.nextPacketNumber ≤ chunk.packetNumber)

def acceptedFrom : ComtradeAssembler → List ComtradeChunk → List ComtradeChunk
  | _, [] => []
  | assembler, chunk :: chunks =>
    if assembler.stores chunk then chunk :: acceptedFrom (assembler.add chunk).1 chunks
    else acceptedFrom (assembler.add chunk).1 chunks

def acceptedPackets (maxBytes : Nat) (chunks : List ComtradeChunk) : List ComtradeChunk :=
  acceptedFrom (new maxBytes) chunks

theorem maxBytes_add (assembler : ComtradeAssembler) (chunk : ComtradeChunk) :
    (assembler.add chunk).1.maxBytes = assembler.maxBytes := by
  cases hResult : (assembler.add chunk).2 with
  | error message =>
    obtain hSame | ⟨-, hSame⟩ := ComtradeAssembler.add_error hResult
    · rw [hSame]
    · rw [hSame]
  | ok done =>
    obtain ⟨-, -, hTaken⟩ := add_ok hResult
    obtain ⟨message, hError⟩ | ⟨hSame, -⟩ | ⟨-, -, -, hAfter⟩ :=
      takePacket_cases { assembler with fileType := chunk.fileType } chunk
    · rw [hTaken] at hError
      cases hError
    · rw [Except.ok.inj (hTaken.symm.trans hSame)]
    · rw [Except.ok.inj (hTaken.symm.trans hAfter)]

theorem Holds.add (h : Holds assembler accepted) (chunk : ComtradeChunk) :
    Holds (assembler.add chunk).1 (if assembler.stores chunk then accepted ++ [chunk] else accepted) := by
  cases hResult : (assembler.add chunk).2 with
  | error message =>
    rw [stores, hResult]
    exact h.add_error hResult
  | ok done =>
    rw [stores, hResult]
    obtain hStored | hNext := Int.lt_or_le chunk.packetNumber assembler.nextPacketNumber
    · rw [decide_eq_false (Int.not_le.mpr hStored)]
      exact h.add_stored hResult hStored
    · rw [decide_eq_true hNext]
      exact h.add_next hResult hNext

theorem Holds.foldl (h : Holds assembler accepted) (chunks : List ComtradeChunk) :
    Holds (chunks.foldl (fun assembler chunk => (assembler.add chunk).1) assembler)
      (accepted ++ acceptedFrom assembler chunks) := by
  induction chunks generalizing assembler accepted with
  | nil =>
    rw [acceptedFrom, List.append_nil]
    exact h
  | cons chunk chunks ih =>
    have hNext := ih (h.add chunk)
    rw [List.foldl_cons, acceptedFrom]
    split at hNext
    · rename_i hStores
      rw [if_pos hStores]
      rwa [List.append_assoc] at hNext
    · rename_i hPassed
      rw [if_neg hPassed]
      exact hNext

theorem holds_received (maxBytes : Nat) (chunks : List ComtradeChunk) :
    Holds (received maxBytes chunks) (acceptedPackets maxBytes chunks) :=
  (holds_new maxBytes).foldl chunks

theorem maxBytes_received (maxBytes : Nat) (chunks : List ComtradeChunk) :
    (received maxBytes chunks).maxBytes = max 1 maxBytes := by
  have hFold : ∀ assembler : ComtradeAssembler,
      (chunks.foldl (fun assembler chunk => (assembler.add chunk).1) assembler).maxBytes = assembler.maxBytes := by
    induction chunks with
    | nil => exact fun _ => rfl
    | cons chunk chunks ih =>
      intro assembler
      rw [List.foldl_cons, ih, maxBytes_add]
  exact hFold _

end ComtradeAssembler

section Sending

variable (config : Iec103Config)

/-- The bytes of an ASDU 80 that `decodeIec103ComtradeChunk` does not look at. -/
structure Asdu80Envelope where
  link : List UInt8
  qualifier : UInt8
  causeFlags : Fin 4
  commonAddress : UInt8
  functionType : UInt8
  link_length : link.length = 1 + config.linkAddressSize

structure ComtradeFile where
  fileType : UInt8
  packets : List (List UInt8)
  comtrade : fileType = 0x51 ∨ fileType = 0x52
  nonempty : packets ≠ []
  countable : packets.length ≤ 32768
  short : ∀ data ∈ packets, data.length ≤ 240

variable {config} in
def asdu80UserData (envelope : Asdu80Envelope config) (fileType : UInt8) (number : Nat) (last : Bool)
    (data : List UInt8) : List UInt8 :=
  envelope.link ++ ([0x50, envelope.qualifier, UInt8.ofNat (0x14 + 64 * envelope.causeFlags.val), envelope.commonAddress,
    envelope.functionType, fileType, UInt8.ofNat number, UInt8.ofNat (number / 256 + if last then 128 else 0)] ++ data)

namespace ComtradeFile

def chunk (file : ComtradeFile) (number : Nat) : ComtradeChunk where
  fileType := file.fileType.toNat
  packetNumber := number
  lastPacket := decide (number + 1 = file.packets.length)
  data := file.packets.getD number []

def chunks (file : ComtradeFile) (count : Nat) : List ComtradeChunk := (List.range count).map file.chunk

variable {config} in
def userData (file : ComtradeFile) (number : Nat) (envelope : Asdu80Envelope config) : List UInt8 :=
  asdu80UserData envelope file.fileType number (decide (number + 1 = file.packets.length)) (file.packets.getD number [])

end ComtradeFile

/-- The packets as they are sent, from `count` of them to `reached`: each time the next one, or one of those
    before. -/
inductive SentInOrder : Nat → List Nat → Nat → Prop
  | done {count : Nat} : SentInOrder count [] count
  | next {count reached : Nat} {order : List Nat} (hRest : SentInOrder (count + 1) order reached) :
      SentInOrder count (count :: order) reached
  | again {count number reached : Nat} {order : List Nat} (hSent : number < count)
      (hRest : SentInOrder count order reached) : SentInOrder count (number :: order) reached

theorem SentInOrder.le {count reached : Nat} {order : List Nat} (h : SentInOrder count order reached) :
    count ≤ reached := by
  induction h with
  | done => exact Nat.le_refl _
  | next hRest ih => exact Nat.le_of_succ_le ih
  | again hSent hRest ih => exact ih

theorem byteAt_append (front back : List UInt8) (offset : Nat) :
    byteAt (front ++ back) (front.length + offset) = byteAt back offset := by
  rw [byteAt, byteAt, List.getD_eq_getElem?_getD, List.getD_eq_getElem?_getD,
    List.getElem?_append_right (Nat.le_add_right _ _), Nat.add_sub_cancel_left]

theorem cause_of_flags : ∀ flags : Fin 4, UInt8.ofNat (0x14 + 64 * flags.val) &&& 0x3F = 0x14 := by decide

theorem toNat_sequenceLow (number : Nat) : (UInt8.ofNat number).toNat = number % 256 := UInt8.toNat_ofNat'

theorem toNat_sequenceHigh {number : Nat} (h : number < 32768) (last : Bool) :
    (UInt8.ofNat (number / 256 + if last then 128 else 0)).toNat = number / 256 + if last then 128 else 0 := by
  rw [toNat_sequenceLow, Nat.mod_eq_of_lt]
  split <;> omega

variable {config}

theorem decode_asdu80UserData (envelope : Asdu80Envelope config) (fileType : UInt8) {number : Nat}
    (hNumber : number < 32768) (last : Bool) {data : List UInt8} (hShort : data.length ≤ 240) :
    decodeIec103ComtradeChunk config (asdu80UserData envelope fileType number last data) =
      .ok ⟨fileType.toNat, number, last, data⟩ := by
  rw [asdu80UserData, decodeIec103ComtradeChunk, ← envelope.link_length]
  dsimp only
  have hData : ∀ body : List UInt8, body.length = 8 →
      (envelope.link ++ (body ++ data)).drop (envelope.link.length + 8) = data := by
    intro body hBody
    rw [← hBody, ← List.length_append, ← List.append_assoc, List.drop_left]
  have hBytes := byteAt_append envelope.link ([0x50, envelope.qualifier, UInt8.ofNat (0x14 + 64 * envelope.causeFlags.val),
    envelope.commonAddress, envelope.functionType, fileType, UInt8.ofNat number,
    UInt8.ofNat (number / 256 + if last then 128 else 0)] ++ data)
  rw [if_neg, hBytes 2, hBytes 5, hBytes 6, hBytes 7, hData _ rfl]
  · change (if ((UInt8.ofNat (0x14 + 64 * envelope.causeFlags.val) &&& 0x3F).toNat) ≠ 0x14 then _ else _) = _
    rw [cause_of_flags, if_neg (by decide), if_neg (by omega)]
    change Except.ok (ComtradeChunk.mk _ (((UInt8.ofNat number).toNat +
      (UInt8.ofNat (number / 256 + if last then 128 else 0)).toNat % 128 * 256 : Nat) : Int)
      (decide (128 ≤ (UInt8.ofNat (number / 256 + if last then 128 else 0)).toNat)) data) = _
    rw [toNat_sequenceLow, toNat_sequenceHigh hNumber]
    congr
    · split <;> omega
    · cases last with
      | false => simp; omega
      | true => simp
  · rintro (hLength | hFirst)
    · simp at hLength
      omega
    · exact hFirst (hBytes 0)

open ComtradeAssembler

namespace ComtradeFile

variable {file : ComtradeFile} {assembler : ComtradeAssembler} {count number : Nat}

theorem fileType_toNat (file : ComtradeFile) :
    (file.fileType.toNat : Int) = 0x51 ∨ (file.fileType.toNat : Int) = 0x52 := by
  obtain h | h := file.comtrade
  · rw [h]
    exact .inl rfl
  · rw [h]
    exact .inr rfl

theorem getD_packets (file : ComtradeFile) (h : number < file.packets.length) :
    file.packets.getD number [] ∈ file.packets := by
  rw [List.getD_eq_getElem _ _ h]
  exact List.getElem_mem h

theorem flatMap_chunks (file : ComtradeFile) (h : count ≤ file.packets.length) :
    (file.chunks count).flatMap (·.data) = (file.packets.take count).flatten := by
  induction count with
  | zero => rfl
  | succ count ih =>
    rw [chunks, List.range_succ, List.map_append, List.flatMap_append, List.take_succ_eq_append_getElem h,
      List.flatten_append, ← ih (by omega), List.map_singleton, List.flatMap_singleton, List.flatten_singleton, chunk,
      List.getD_eq_getElem _ _ h]
    rfl

theorem length_flatMap_chunks_succ_le (file : ComtradeFile) (h : count < file.packets.length) :
    ((file.chunks count).flatMap (·.data)).length + (file.chunk count).data.length ≤ file.packets.flatten.length := by
  have hNext := congrArg List.length (file.flatMap_chunks (show count + 1 ≤ _ from h))
  rw [chunks, List.range_succ, List.map_append, List.flatMap_append, List.length_append, List.map_singleton,
    List.flatMap_singleton] at hNext
  have hWhole := congrArg (fun packets => (List.flatten packets).length) (List.take_append_drop (count + 1) file.packets)
  rw [List.flatten_append, List.length_append] at hWhole
  rw [chunks]
  omega

structure OnItsWay (file : ComtradeFile) (count : Nat) (assembler : ComtradeAssembler) : Prop where
  holds : Holds assembler (file.chunks count)
  typed : assembler.fileType = 0 ∨ assembler.fileType = file.fileType.toNat
  fits : file.packets.flatten.length ≤ assembler.maxBytes

theorem OnItsWay.next (h : OnItsWay file count assembler) (hMore : count < file.packets.length) :
    (assembler.add (file.chunk count)).2 = .ok () ∧ OnItsWay file (count + 1) (assembler.add (file.chunk count)).1 := by
  have hCounted : assembler.nextPacketNumber = count := by
    rw [h.holds.counted, chunks, List.length_map, List.length_range]
  have hOpen : assembler.complete = false := by
    rw [h.holds.flagged, chunks]
    cases count with
    | zero => rfl
    | succ count =>
      rw [List.range_succ, List.map_append, List.map_singleton, List.getLast?_append_cons]
      exact decide_eq_false (by omega)
  have hRoom := file.length_flatMap_chunks_succ_le hMore
  rw [← h.holds.joined] at hRoom
  have hFits := h.fits
  have hNumber : (file.chunk count).packetNumber = count := rfl
  have hOk : (assembler.add (file.chunk count)).2 = .ok () := by
    rw [add_of_takePacket file.fileType_toNat h.typed]
    rw [takePacket, if_neg (by omega), if_neg (by rw [hNumber, hCounted]; exact Int.lt_irrefl _),
      if_neg (by rw [hOpen]; decide), if_neg (by rw [hNumber, hCounted, not_not]), if_neg (by dsimp only; omega)]
  have hNext := h.holds.add_next hOk (by rw [hCounted]; exact Int.le_refl _)
  have hChunks : file.chunks count ++ [file.chunk count] = file.chunks (count + 1) := by
    rw [chunks, chunks, List.range_succ, List.map_append, List.map_singleton]
  refine ⟨hOk, hChunks ▸ hNext, .inr ?_, ?_⟩
  · exact (hNext.sameType _ (List.mem_append_right _ (List.mem_singleton_self _))).symm
  · rw [maxBytes_add]
    exact hFits

theorem OnItsWay.again (h : OnItsWay file count assembler) (hSent : number < count) :
    assembler.add (file.chunk number) = (assembler, .ok ()) :=
  h.holds.add_again (List.mem_map_of_mem (List.mem_range.mpr hSent))

theorem addDecoded_userData (envelope : Asdu80Envelope config) (h : number < file.packets.length) :
    addDecoded config assembler (file.userData number envelope) =
      (assembler.add (file.chunk number)).2.map fun _ => (assembler.add (file.chunk number)).1 := by
  rw [addDecoded, userData, decode_asdu80UserData envelope file.fileType (by have := file.countable; omega) _
    (file.short _ (file.getD_packets h))]
  rfl

theorem OnItsWay.delivered {reached : Nat} {sent : List (Nat × Asdu80Envelope config)}
    (h : OnItsWay file count assembler) (hOrder : SentInOrder count (sent.map Prod.fst) reached)
    (hReached : reached ≤ file.packets.length) :
    ∃ after, (sent.map fun packet => file.userData packet.1 packet.2).foldlM (addDecoded config) assembler = .ok after ∧
      OnItsWay file reached after := by
  induction sent generalizing count assembler with
  | nil =>
    cases hOrder with
    | done => exact ⟨assembler, rfl, h⟩
  | cons packet sent ih =>
    obtain ⟨number, envelope⟩ := packet
    have hOrder : SentInOrder count (number :: sent.map Prod.fst) reached := hOrder
    rw [List.map_cons, List.foldlM_cons]
    cases hOrder with
    | next hRest =>
      have hMore : count < file.packets.length := Nat.lt_of_lt_of_le hRest.le hReached
      obtain ⟨hOk, hNext⟩ := h.next hMore
      rw [addDecoded_userData envelope hMore, hOk]
      exact ih hNext hRest
    | again hSent hRest =>
      have hCount := hRest.le
      rw [addDecoded_userData envelope (by omega), h.again hSent]
      exact ih h hRest

theorem delivered (file : ComtradeFile) {maxBytes : Nat} (hFits : file.packets.flatten.length ≤ max 1 maxBytes)
    (sent : List (Nat × Asdu80Envelope config)) (hOrder : SentInOrder 0 (sent.map Prod.fst) file.packets.length) :
    ∃ after, (sent.map fun packet => file.userData packet.1 packet.2).foldlM (addDecoded config) (new maxBytes) = .ok after ∧
      after.bytes = file.packets.flatten ∧ after.complete = true := by
  have hStart : OnItsWay file 0 (new maxBytes) := ⟨holds_new maxBytes, .inl rfl, hFits⟩
  obtain ⟨after, hRun, hHolds, -, -⟩ := hStart.delivered hOrder (Nat.le_refl _)
  refine ⟨after, hRun, ?_, ?_⟩
  · rw [hHolds.joined, file.flatMap_chunks (Nat.le_refl _), List.take_length]
  · obtain ⟨last, hLast⟩ := Nat.exists_eq_succ_of_ne_zero (mt List.length_eq_zero_iff.mp file.nonempty)
    rw [hHolds.flagged, chunks, hLast, List.range_succ, List.map_append, List.map_singleton, List.getLast?_append_cons]
    exact decide_eq_true hLast.symm

end ComtradeFile

end Sending

open ComtradeAssembler

/-- What holds of the assembler after any calls, and what becomes of a file that is sent to a new one. -/
theorem comtrade_reassembly (maxBytes : Nat) :
    (∀ chunks : List ComtradeChunk,
      (acceptedPackets maxBytes chunks).map (·.packetNumber) =
          (List.range (received maxBytes chunks).nextPacketNumber).map Int.ofNat ∧
        (received maxBytes chunks).bytes = (acceptedPackets maxBytes chunks).flatMap (·.data) ∧
        (received maxBytes chunks).bytes.length ≤ max 1 maxBytes ∧
        ((received maxBytes chunks).complete = true ↔
          ∃ last, (acceptedPackets maxBytes chunks).getLast? = some last ∧ last.lastPacket = true) ∧
        (∀ chunk message, ((received maxBytes chunks).add chunk).2 = .error message →
          (received maxBytes (chunks ++ [chunk])).bytes = (received maxBytes chunks).bytes ∧
            (received maxBytes (chunks ++ [chunk])).complete = (received maxBytes chunks).complete) ∧
        ∀ chunk ∈ acceptedPackets maxBytes chunks,
          (received maxBytes chunks).add chunk = (received maxBytes chunks, .ok ())) ∧
      ∀ (config : Iec103Config) (file : ComtradeFile) (sent : List (Nat × Asdu80Envelope config)),
        file.packets.flatten.length ≤ max 1 maxBytes → SentInOrder 0 (sent.map Prod.fst) file.packets.length →
        ∃ after, (sent.map fun packet => file.userData packet.1 packet.2).foldlM (addDecoded config) (new maxBytes) =
          .ok after ∧ after.bytes = file.packets.flatten ∧ after.complete = true := by
  refine ⟨fun chunks => ?_, fun config file sent hFits hOrder => file.delivered hFits sent hOrder⟩
  have hHolds := holds_received maxBytes chunks
  refine ⟨?_, hHolds.joined, ?_, ?_, ?_, fun chunk hChunk => hHolds.add_again hChunk⟩
  · rw [hHolds.numbered, hHolds.counted]
  · rw [← maxBytes_received maxBytes chunks]
    exact hHolds.within
  · rw [hHolds.flagged, Option.any_eq_true]
  · intro chunk message hError
    have hNext : received maxBytes (chunks ++ [chunk]) = ((received maxBytes chunks).add chunk).1 := by
      rw [received, List.foldl_append]
      rfl
    rw [hNext]
    obtain hSame | ⟨-, hSame⟩ := add_error hError
    · rw [hSame]
      exact ⟨rfl, rfl⟩
    · rw [hSame]
      exact ⟨rfl, rfl⟩

/-- An assembler for files of no bytes takes one byte. -/
theorem byte_beyond_empty_limit : ¬ (received 0 [⟨0x51, 0, true, [0x16]⟩]).bytes.length ≤ 0 := by decide

def threeByteFile : ComtradeFile := ⟨0x51, [[0x41, 0x42], [0x43]], .inl rfl, by decide, by decide, by decide⟩

def sampleEnvelope : Asdu80Envelope {} := ⟨[0x53, 0x01], 0x81, 0, 0x01, 0xFF, rfl⟩

/-- A packet ahead of its turn leaves everything as it is; a file whose first packet comes three times arrives. -/
theorem three_bytes_delivered :
    ((received 3 ([⟨0x51, 0, false, [0x41]⟩] ++ [⟨0x51, 2, true, [0x42]⟩])).bytes =
        (received 3 [⟨0x51, 0, false, [0x41]⟩]).bytes ∧
      (received 3 ([⟨0x51, 0, false, [0x41]⟩] ++ [⟨0x51, 2, true, [0x42]⟩])).complete =
        (received 3 [⟨0x51, 0, false, [0x41]⟩]).complete) ∧
    ∃ after, ([(0, sampleEnvelope), (0, sampleEnvelope), (1, sampleEnvelope), (0, sampleEnvelope)].map
      fun packet => threeByteFile.userData packet.1 packet.2).foldlM (addDecoded {}) (new 3) = .ok after ∧
        after.bytes = threeByteFile.packets.flatten ∧ after.complete = true := by
  obtain ⟨hStates, hFiles⟩ := comtrade_reassembly 3
  constructor
  · exact (hStates _).2.2.2.2.1 ⟨0x51, 2, true, [0x42]⟩ "IEC103 COMTRADE packet gap: expected 1 but received 2"
      (by decide +kernel)
  · exact hFiles {} threeByteFile _ (by decide) (.next (.again (by decide) (.next (.again (by decide) .done))))

end EdgeGateway.Iec
