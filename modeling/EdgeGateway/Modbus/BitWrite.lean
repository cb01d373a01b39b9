import EdgeGateway.Modbus.CommandExecutor
import EdgeGateway.Modbus.RegisterRoundTrip

/-! # Writing a bit of a register -/

namespace EdgeGateway.Modbus

open Fallible ModbusCodec CommandExecutor

def sourceBit (byteOrder : StdString) (b : Nat) : Nat :=
  match byteOrder with
  | [high, low] => (if (if 8 ≤ b then high else low) = 'A' then 8 else 0) + b % 8
  | _ => b

section Bit

variable {word : BitVec 16} {b k : Nat}

def withBit (word : BitVec 16) (b : Nat) (on : Bool) : BitVec 16 :=
  if on then word ||| 1#16 <<< b else word &&& ~~~(1#16 <<< b)

theorem getLsbD_withBit (on : Bool) (hk : k < 16) : (withBit word b on).getLsbD k = if k = b then on else word.getLsbD k := by
  have hMask := @BitField.getLsbD_one_shiftLeft 16 b k hk
  rw [withBit]
  cases on with
  | true =>
    rw [if_pos rfl, BitVec.getLsbD_or, hMask]
    by_cases hSame : k = b <;> simp [hSame]
  | false =>
    rw [if_neg Bool.false_ne_true, BitVec.getLsbD_and, BitVec.getLsbD_not, hMask]
    by_cases hSame : k = b <;> simp [hSame, hk]

theorem toNat_lowBit (n : Nat) : (word >>> n &&& 0x1).toNat = (word.getLsbD n).toNat := by
  have hOne : (0x1 : BitVec 16) = 1#16 := rfl
  rw [hOne, BitVec.and_one_eq_setWidth_ofBool_getLsbD, BitVec.getLsbD_ushiftRight, Nat.add_zero, BitVec.toNat_setWidth,
    BitVec.toNat_ofBool]
  cases word.getLsbD n <;> rfl

theorem getLsbD_word (high low : BitVec 8) (hb : b < 16) :
    (high.setWidth 16 <<< 8 ||| low.setWidth 16).getLsbD b = (if 8 ≤ b then high else low).getLsbD (b % 8) := by
  rw [BitVec.getLsbD_or, BitVec.getLsbD_shiftLeft, BitVec.getLsbD_setWidth, BitVec.getLsbD_setWidth]
  obtain hLow | hHigh := Nat.lt_or_ge b 8
  · rw [if_neg (Nat.not_le.mpr hLow), Nat.mod_eq_of_lt hLow]
    simp [hLow, hb]
  · rw [if_pos hHigh, BitVec.getLsbD_of_ge low b hHigh]
    have hSame : b - 8 = b % 8 := by omega
    have hWidth : b % 8 < 16 := by omega
    simp [hSame, hHigh, hb, hWidth]

def letterByte (word : BitVec 16) (token : Char) : BitVec 8 :=
  if token = 'A' then (word >>> 8 &&& 0xFF).setWidth 8 else (word &&& 0xFF).setWidth 8

theorem getLsbD_letterByte (token : Char) {r : Nat} (hr : r < 8) :
    (letterByte word token).getLsbD r = word.getLsbD ((if token = 'A' then 8 else 0) + r) := by
  rw [letterByte]
  split
  · rw [BitField.setWidth_low_byte _ (by decide), BitVec.getLsbD_setWidth, BitVec.getLsbD_ushiftRight, decide_eq_true hr,
      Bool.true_and]
  · rw [BitField.setWidth_low_byte _ (by decide), BitVec.getLsbD_setWidth, decide_eq_true hr, Bool.true_and, Nat.zero_add]

end Bit

def ValidOrder (byteOrder : StdString) : Prop :=
  byteOrder = [] ∨ ∃ high low, byteOrder = [high, low] ∧ (high = 'A' ∨ high = 'B') ∧ (low = 'A' ∨ low = 'B')

theorem reorder_register {byteOrder : StdString} (hOrder : ValidOrder byteOrder) (word : BitVec 16) :
    ∃ high low, reorderBytes (writeUint16BigEndian word) byteOrder = .ok [high, low] ∧
      ∀ b, b < 16 → (if 8 ≤ b then high else low).getLsbD (b % 8) = word.getLsbD (sourceBit byteOrder b) := by
  obtain rfl | ⟨high, low, rfl, hHigh, hLow⟩ := hOrder
  · refine ⟨letterByte word 'A', letterByte word 'B', rfl, fun b hb => ?_⟩
    have hMod : b % 8 < 8 := Nat.mod_lt _ (by decide)
    have hSource : sourceBit [] b = b := rfl
    rw [← apply_ite (letterByte word), getLsbD_letterByte _ hMod, hSource]
    congr 1
    by_cases hByte : 8 ≤ b
    · rw [if_pos hByte, if_pos rfl]
      omega
    · rw [if_neg hByte, if_neg (by decide)]
      omega
  · refine ⟨letterByte word high, letterByte word low, ?_, fun b hb => ?_⟩
    · obtain rfl | rfl := hHigh <;> obtain rfl | rfl := hLow <;> rfl
    · rw [← apply_ite (letterByte word), getLsbD_letterByte _ (Nat.mod_lt _ (by decide)), sourceBit]

section Dispatch

variable {K : Type} {client : Client K} {config : DeviceConfig K} {point : PointDefinition K} {b : Nat}
  {raw : BitVec 16}

structure ReadsBit (read : ReadSpec K) (b : Nat) : Prop where
  enable : read.enable = true
  function : read.function = 3
  length : read.length = 1
  dataType : read.dataType = "bit".toList
  bit : read.bit = b
  bit_lt : b < 16
  order : ValidOrder read.byteOrder

structure BitPoint (point : PointDefinition K) (b : Nat) : Prop where
  reads : ReadsBit point.read b
  function : point.write.function = 6
  isBit : isBitWrite point = true
  address : writeAddressOf point = point.address

theorem dispatchWrite_bit (hPoint : BitPoint point b)
    (hRegister : client.readHoldingRegisters config.protocol.slave point.address 1 = .ok [raw]) (word : BitVec 16) :
    dispatchWrite client config point [word] =
      .ok (modbusWrite config point (.singleRegister (withBit raw b (word != 0)))) := by
  have hRange : ¬(point.read.bit < 0 ∨ 15 < point.read.bit) := by
    have hLt := hPoint.reads.bit_lt
    rw [hPoint.reads.bit]
    omega
  have hMerge : mergeBitWrite client config point (word != 0) = .ok (withBit raw b (word != 0)) := by
    rw [mergeBitWrite, if_neg hRange, hPoint.address, hRegister]
    dsimp only
    rw [hPoint.reads.bit, Int.toNat_natCast]
    rfl
  rw [dispatchWrite, hPoint.function, if_neg (by decide), if_pos rfl, if_pos hPoint.isBit, hMerge]
  rfl

end Dispatch

section Points

variable {K : Type} [Field K] [LinearOrder K] [FloorRing K] {platform : Platform K} {point : PointDefinition K} {b : Nat}

omit [LinearOrder K] [FloorRing K] in
theorem decode_bit {read : ReadSpec K} (hReads : ReadsBit read b) (word : BitVec 16) :
    decodeRawValue platform [word] read =
      .ok (((word.getLsbD (sourceBit read.byteOrder b)).toNat : K), writeUint16BigEndian word) := by
  obtain ⟨high, low, hReorder, hBits⟩ := reorder_register hReads.order word
  have hRaw : rawBytesOf [word] read = writeUint16BigEndian word := by
    rw [rawBytesOf, hReads.length]
    rfl
  have hEnable : ¬read.enable = false := by
    rw [hReads.enable]
    decide
  have hEnough : ¬[word].length < toSize read.length := by
    rw [hReads.length, List.length_singleton]
    decide
  have hFunction : ¬(read.function = 1 ∨ read.function = 2) := by
    rw [hReads.function]
    decide
  have hRange : ¬(read.bit < 0 ∨ 15 < read.bit) := by
    have hLt := hReads.bit_lt
    rw [hReads.bit]
    omega
  rw [decodeRawValue, if_neg hEnable]
  dsimp only
  rw [if_neg hEnough, if_pos hReads.dataType, if_neg hFunction, hRaw, hReorder, bind_ok_iff]
  refine ⟨[high, low], rfl, ?_⟩
  rw [if_neg hRange, bind_ok_iff]
  refine ⟨high.setWidth 16 <<< 8 ||| low.setWidth 16, rfl, ?_⟩
  rw [hReads.bit, Int.toNat_natCast, toNat_lowBit, getLsbD_word _ _ hReads.bit_lt, hBits _ hReads.bit_lt]

theorem decodesTo_bit_iff (hReads : ReadsBit point.read b) {word : BitVec 16} {rawValue : K} :
    DecodesTo platform point [word] rawValue ↔
      ((word.getLsbD (sourceBit point.read.byteOrder b)).toNat : K) = rawValue := by
  have hDecode := @decode_bit K _ platform b point.read hReads word
  constructor
  · rintro ⟨rawBytes, hOk, -⟩
    exact (Prod.mk.inj (Except.ok.inj (hDecode.symm.trans hOk))).1
  · rintro rfl
    exact ⟨_, hDecode, map_ok_iff.mpr ⟨_, hDecode, rfl⟩⟩

theorem toNat_cast_inj {on on' : Bool} : ((on.toNat : K) = on'.toNat) ↔ on = on' := by
  cases on <;> cases on' <;> simp

/-- After the write the point reads as what was written, and the points of the other bits read as before. -/
def WritesBit (platform : Platform K) (client : Client K) (config : DeviceConfig K) (point : PointDefinition K)
    (b : Nat) (word raw : BitVec 16) : Prop :=
  ∃ new, dispatchWrite client config point [word] =
      .ok ⟨.modbus config.protocol.slave point.address, .singleRegister new, point.write⟩ ∧
    DecodesTo platform point [new] ((word != 0).toNat : K) ∧
    ∀ other b', ReadsBit other.read b' → b' ≠ b → other.read.byteOrder = point.read.byteOrder →
      ∀ rawValue, DecodesTo platform other [new] rawValue ↔ DecodesTo platform other [raw] rawValue

theorem sourceBit_lt (byteOrder : StdString) (hb : b < 16) : sourceBit byteOrder b < 16 := by
  rw [sourceBit.eq_def]
  split
  · next high low =>
    have hMod : b % 8 < 8 := Nat.mod_lt _ (by decide)
    have hByte : (if (if 8 ≤ b then high else low) = 'A' then 8 else 0) ≤ 8 := by
      split <;> split <;> omega
    omega
  · exact hb

theorem writesBit_iff (platform : Platform K) (client : Client K) (config : DeviceConfig K) (point : PointDefinition K)
    (b : Nat) (word raw : BitVec 16) (hPoint : BitPoint point b)
    (hRegister : client.readHoldingRegisters config.protocol.slave point.address 1 = .ok [raw]) :
    WritesBit platform client config point b word raw ↔
      (sourceBit point.read.byteOrder b = b ∨ raw.getLsbD (sourceBit point.read.byteOrder b) = (word != 0)) ∧
        ∀ b', b' < 16 → b' ≠ b → sourceBit point.read.byteOrder b' = b → raw.getLsbD b = (word != 0) := by
  have hDispatch := dispatchWrite_bit hPoint hRegister word
  rw [modbusWrite, hPoint.address] at hDispatch
  have hOwn := @getLsbD_withBit raw b _ (word != 0) (sourceBit_lt point.read.byteOrder hPoint.reads.bit_lt)
  constructor
  · rintro ⟨new, hNew, hReads, hOthers⟩
    rw [hDispatch, Except.ok.injEq, DeviceWrite.mk.injEq, WritePayload.singleRegister.injEq] at hNew
    obtain ⟨-, rfl, -⟩ := hNew
    rw [decodesTo_bit_iff hPoint.reads, toNat_cast_inj, hOwn] at hReads
    refine ⟨?_, fun b' hb' hOther hSource => ?_⟩
    · by_cases hSame : sourceBit point.read.byteOrder b = b
      · exact .inl hSame
      · rw [if_neg hSame] at hReads
        exact .inr hReads
    · let other : PointDefinition K := { point with read := { point.read with bit := b' } }
      have hOtherReads : ReadsBit other.read b' :=
        ⟨hPoint.reads.enable, hPoint.reads.function, hPoint.reads.length, hPoint.reads.dataType, rfl, hb', hPoint.reads.order⟩
      have hKept := (hOthers other b' hOtherReads hOther rfl _).mpr ((decodesTo_bit_iff hOtherReads).mpr rfl)
      have hOrder : other.read.byteOrder = point.read.byteOrder := rfl
      rw [decodesTo_bit_iff hOtherReads, toNat_cast_inj, hOrder, hSource, getLsbD_withBit _ hPoint.reads.bit_lt, if_pos rfl]
        at hKept
      exact hKept.symm
  · rintro ⟨hOwnBit, hOtherBits⟩
    refine ⟨_, hDispatch, ?_, fun other b' hOtherReads hOther hOrder rawValue => ?_⟩
    · rw [decodesTo_bit_iff hPoint.reads, toNat_cast_inj, hOwn]
      split
      · rfl
      · next hMoved => exact hOwnBit.resolve_left hMoved
    · rw [decodesTo_bit_iff hOtherReads, decodesTo_bit_iff hOtherReads, hOrder,
        getLsbD_withBit _ (sourceBit_lt _ hOtherReads.bit_lt)]
      split
      · next hSource => rw [hSource, hOtherBits b' hOtherReads.bit_lt hOther hSource]
      · rfl

end Points

def registerBit (b : Int) (byteOrder : StdString) : PointDefinition ℚ where
  index := 1
  pointCode := "relay".toList
  enabled := true
  address := 5
  read := { enable := true, dataType := "bit".toList, bit := b, byteOrder := byteOrder, scale := 1, offset := 0 }
  write := { enable := true, dataType := "bit".toList, scale := 1, offset := 0, step := 0 }

def relayBoard : DeviceConfig ℚ where
  machineCode := "gateway".toList
  meterCode := "board".toList
  points := [registerBit 0 "BA".toList]

def allOff : Client ℚ where
  readHoldingRegisters := fun _ _ _ => .ok [0]
  write := fun _ _ => .ok ()
  verifyRead := fun _ _ _ _ => .ok [0]
  readValue := fun _ => .ok false
  putLatest := fun _ _ => .ok ()

theorem bitPoint_registerBit {byteOrder : StdString} (hOrder : ValidOrder byteOrder) :
    BitPoint (registerBit 0 byteOrder) 0 :=
  ⟨⟨rfl, rfl, rfl, rfl, rfl, by decide, hOrder⟩, rfl, rfl, rfl⟩

theorem writesBit_registerBit : BitPoint (registerBit 0 "AB".toList) 0 ∧
    ∀ platform : Platform ℚ, WritesBit platform allOff relayBoard (registerBit 0 "AB".toList) 0 1 0 := by
  have hPoint : BitPoint (registerBit 0 "AB".toList) 0 :=
    bitPoint_registerBit (.inr ⟨'A', 'B', rfl, .inl rfl, .inr rfl⟩)
  refine ⟨hPoint, fun platform => ?_⟩
  apply (writesBit_iff platform allOff relayBoard _ 0 1 0 hPoint rfl).mpr
  exact ⟨.inl rfl, by decide⟩

/-- With its bytes swapped the point does not read as what was written. -/
theorem swapped_bit_not_written : BitPoint (registerBit 0 "BA".toList) 0 ∧
    allOff.readHoldingRegisters relayBoard.protocol.slave 5 1 = .ok [0] ∧
    ∀ platform : Platform ℚ, DecodesTo platform (registerBit 0 "BA".toList) [1] 0 ∧
      ¬WritesBit platform allOff relayBoard (registerBit 0 "BA".toList) 0 1 0 := by
  have hPoint : BitPoint (registerBit 0 "BA".toList) 0 :=
    bitPoint_registerBit (.inr ⟨'B', 'A', rfl, .inr rfl, .inl rfl⟩)
  refine ⟨hPoint, rfl, fun platform => ⟨?_, ?_⟩⟩
  · rw [decodesTo_bit_iff hPoint.reads]
    rfl
  · rintro ⟨new, hNew, hReads, -⟩
    rw [@dispatchWrite_bit _ _ _ _ _ 0 hPoint rfl, Except.ok.injEq, modbusWrite, DeviceWrite.mk.injEq,
      WritePayload.singleRegister.injEq] at hNew
    obtain ⟨-, rfl, -⟩ := hNew
    rw [decodesTo_bit_iff hPoint.reads, toNat_cast_inj] at hReads
    exact absurd hReads (by decide)

end EdgeGateway.Modbus
