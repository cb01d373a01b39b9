import EdgeGateway.Foundation.BitField
import EdgeGateway.Foundation.Fallible
import EdgeGateway.Foundation.Scatter
import EdgeGateway.Modbus.Codec
import Mathlib.Data.Rat.Floor

/-! # What comes back from the registers -/

namespace EdgeGateway.Modbus.ModbusCodec

open Fallible Scatter

theorem shift_or (a b k : Nat) (hb : b < 2 ^ k) : a <<< k ||| b = 2 ^ k * a + b := by
  rw [Nat.shiftLeft_eq, Nat.mul_comm, Nat.two_pow_add_eq_or_of_lt hb]

theorem toNat_shifted (w k : Nat) (byte : BitVec 8) (hFits : k + 8 ≤ w) :
    (byte.setWidth w <<< k).toNat = byte.toNat <<< k := by
  have hByte := byte.isLt
  have hPower : 2 ^ 8 * 2 ^ k ≤ 2 ^ w := by
    rw [← Nat.pow_add]
    exact Nat.pow_le_pow_right (by decide) (by omega)
  have hWidth : 2 ^ 8 ≤ 2 ^ w := Nat.pow_le_pow_right (by decide) (by omega)
  rw [BitVec.toNat_shiftLeft, BitVec.toNat_setWidth, Nat.mod_eq_of_lt (by omega : byte.toNat < 2 ^ w), Nat.shiftLeft_eq]
  exact Nat.mod_eq_of_lt ((Nat.mul_lt_mul_of_pos_right hByte (Nat.two_pow_pos k)).trans_le hPower)

theorem toNat_byte {w : Nat} (hw : 8 ≤ w) (value : BitVec w) :
    ((value &&& 0xFF).setWidth 8).toNat = value.toNat % 256 := by
  rw [BitField.setWidth_low_byte _ hw, BitVec.toNat_setWidth]

theorem toNat_shifted_byte {w : Nat} (hw : 8 ≤ w) (value : BitVec w) (k : Nat) :
    ((value >>> k &&& 0xFF).setWidth 8).toNat = value.toNat / 2 ^ k % 256 := by
  rw [toNat_byte hw, BitVec.toNat_ushiftRight, Nat.shiftRight_eq_div_pow]

theorem toNat_word (b₀ b₁ : BitVec 8) :
    (b₀.setWidth 16 <<< 8 ||| b₁.setWidth 16).toNat = 256 * b₀.toNat + b₁.toNat := by
  have h₁ := b₁.isLt
  rw [BitVec.toNat_or, toNat_shifted _ _ _ (by decide), BitVec.toNat_setWidth, Nat.mod_eq_of_lt (by omega),
    shift_or _ _ _ h₁]
  rfl

theorem toNat_doubleWord (b₀ b₁ b₂ b₃ : BitVec 8) :
    (b₀.setWidth 32 <<< 24 ||| b₁.setWidth 32 <<< 16 ||| b₂.setWidth 32 <<< 8 ||| b₃.setWidth 32).toNat =
      256 * (256 * (256 * b₀.toNat + b₁.toNat) + b₂.toNat) + b₃.toNat := by
  have h₁ := b₁.isLt
  have h₂ := b₂.isLt
  have h₃ := b₃.isLt
  have hTop : b₀.toNat <<< 24 ||| b₁.toNat <<< 16 = (256 * b₀.toNat + b₁.toNat) <<< 16 := by
    rw [shift_or _ _ _ (by rw [Nat.shiftLeft_eq]; omega), Nat.shiftLeft_eq, Nat.shiftLeft_eq]
    omega
  have hMiddle : (256 * b₀.toNat + b₁.toNat) <<< 16 ||| b₂.toNat <<< 8 =
      (256 * (256 * b₀.toNat + b₁.toNat) + b₂.toNat) <<< 8 := by
    rw [shift_or _ _ _ (by rw [Nat.shiftLeft_eq]; omega), Nat.shiftLeft_eq, Nat.shiftLeft_eq]
    omega
  rw [BitVec.toNat_or, BitVec.toNat_or, BitVec.toNat_or, toNat_shifted _ _ _ (by decide), toNat_shifted _ _ _ (by decide),
    toNat_shifted _ _ _ (by decide), BitVec.toNat_setWidth, Nat.mod_eq_of_lt (by omega), hTop, hMiddle, shift_or _ _ _ h₃]
  rfl

theorem readUint16BigEndian_iff (bytes : List (BitVec 8)) (value : BitVec 16) :
    readUint16BigEndian bytes = .ok value ↔ bytes = writeUint16BigEndian value := by
  constructor
  · intro hRead
    rw [readUint16BigEndian.eq_def] at hRead
    split at hRead
    · next b₀ b₁ =>
      cases hRead
      have h₀ := b₀.isLt
      have h₁ := b₁.isLt
      rw [writeUint16BigEndian, List.cons.injEq, List.cons.injEq]
      refine ⟨BitVec.eq_of_toNat_eq ?_, BitVec.eq_of_toNat_eq ?_, rfl⟩
      · rw [toNat_shifted_byte (by decide), toNat_word]
        omega
      · rw [toNat_byte (by decide), toNat_word]
        omega
    · cases hRead
  · rintro rfl
    have hValue := value.isLt
    rw [writeUint16BigEndian, readUint16BigEndian]
    congr 1
    apply BitVec.eq_of_toNat_eq
    rw [toNat_word, toNat_shifted_byte (by decide), toNat_byte (by decide)]
    omega

theorem readUint32BigEndian_iff (bytes : List (BitVec 8)) (value : BitVec 32) :
    readUint32BigEndian bytes = .ok value ↔ bytes = writeUint32BigEndian value := by
  constructor
  · intro hRead
    rw [readUint32BigEndian.eq_def] at hRead
    split at hRead
    · next b₀ b₁ b₂ b₃ =>
      cases hRead
      have h₀ := b₀.isLt
      have h₁ := b₁.isLt
      have h₂ := b₂.isLt
      have h₃ := b₃.isLt
      rw [writeUint32BigEndian, List.cons.injEq, List.cons.injEq, List.cons.injEq, List.cons.injEq]
      refine ⟨BitVec.eq_of_toNat_eq ?_, BitVec.eq_of_toNat_eq ?_, BitVec.eq_of_toNat_eq ?_,
        BitVec.eq_of_toNat_eq ?_, rfl⟩
      · rw [toNat_shifted_byte (by decide), toNat_doubleWord]
        omega
      · rw [toNat_shifted_byte (by decide), toNat_doubleWord]
        omega
      · rw [toNat_shifted_byte (by decide), toNat_doubleWord]
        omega
      · rw [toNat_byte (by decide), toNat_doubleWord]
        omega
    · cases hRead
  · rintro rfl
    have hValue := value.isLt
    rw [writeUint32BigEndian, readUint32BigEndian]
    congr 1
    apply BitVec.eq_of_toNat_eq
    rw [toNat_doubleWord, toNat_shifted_byte (by decide), toNat_shifted_byte (by decide), toNat_shifted_byte (by decide),
      toNat_byte (by decide)]
    omega

theorem flattenRegisters_packRegisters {bytes : List (BitVec 8)} {registers : List (BitVec 16)}
    (hPack : packRegisters bytes = .ok registers) :
    flattenRegisters registers = bytes ∧ bytes.length = 2 * registers.length := by
  induction registers generalizing bytes with
  | nil =>
    rw [packRegisters.eq_def] at hPack
    split at hPack
    · exact ⟨rfl, rfl⟩
    · cases hPack
    · cases hRest : packRegisters _ <;> rw [hRest] at hPack <;> cases hPack
  | cons reg registers ih =>
    rw [packRegisters.eq_def] at hPack
    split at hPack
    · cases hPack
    · cases hPack
    · next hi lo rest =>
      cases hRest : packRegisters rest with
      | error e =>
        rw [hRest] at hPack
        cases hPack
      | ok packed =>
        rw [hRest] at hPack
        obtain ⟨rfl, rfl⟩ := List.cons.inj (Except.ok.inj hPack)
        obtain ⟨hFlat, hLength⟩ := ih hRest
        have hBytes := (readUint16BigEndian_iff [hi, lo] _).mp rfl
        refine ⟨?_, by rw [List.length_cons, List.length_cons, List.length_cons, hLength]; omega⟩
        rw [flattenRegisters, List.flatMap_cons, ← flattenRegisters, hFlat, ← writeUint16BigEndian, ← hBytes]
        rfl

inductive IntegerType where
  | uint16
  | int16
  | uint32
  | int32

namespace IntegerType

def dataType : IntegerType → StdString
  | uint16 => "uint16".toList
  | int16 => "int16".toList
  | uint32 => "uint32".toList
  | int32 => "int32".toList

def size : IntegerType → Nat
  | uint16 | int16 => 2
  | uint32 | int32 => 4

def InRange : IntegerType → Int → Prop
  | uint16, n => 0 ≤ n ∧ n < 2 ^ 16
  | int16, n => -2 ^ 15 ≤ n ∧ n < 2 ^ 15
  | uint32, n => 0 ≤ n ∧ n < 2 ^ 32
  | int32, n => -2 ^ 31 ≤ n ∧ n < 2 ^ 31

def bytes : IntegerType → BitVec 64 → List (BitVec 8)
  | uint16, raw | int16, raw => writeUint16BigEndian (raw.setWidth 16)
  | uint32, raw | int32, raw => writeUint32BigEndian (raw.setWidth 32)

def read : IntegerType → List (BitVec 8) → Except CodecFault Int
  | uint16, bytes => (readUint16BigEndian bytes).map fun raw => raw.toNat
  | int16, bytes => (readUint16BigEndian bytes).map BitVec.toInt
  | uint32, bytes => (readUint32BigEndian bytes).map fun raw => raw.toNat
  | int32, bytes => (readUint32BigEndian bytes).map BitVec.toInt

@[simp] theorem length_bytes (t : IntegerType) (raw : BitVec 64) : (t.bytes raw).length = t.size := by
  cases t <;> rfl

theorem narrow {w : Nat} (hw : w ≤ 64) (n : Int) : (BitVec.ofInt 64 n).setWidth w = BitVec.ofInt w n := by
  have hDivides : ((2 ^ w : Nat) : Int) ∣ ((2 ^ 64 : Nat) : Int) := Int.natCast_dvd_natCast.mpr (Nat.pow_dvd_pow 2 hw)
  apply BitVec.eq_of_toNat_eq
  apply Int.ofNat_inj.mp
  rw [BitVec.toNat_setWidth, BitVec.toNat_ofInt, BitVec.toNat_ofInt, Int.natCast_emod,
    Int.toNat_of_nonneg (Int.emod_nonneg _ (by simp)), Int.toNat_of_nonneg (Int.emod_nonneg _ (by simp)),
    Int.emod_emod_of_dvd n hDivides]

theorem unsigned_iff {w : Nat} (raw : BitVec w) (n : Int) :
    (raw.toNat : Int) = n ↔ (0 ≤ n ∧ n < 2 ^ w) ∧ raw = BitVec.ofInt w n := by
  constructor
  · rintro rfl
    refine ⟨⟨Int.natCast_nonneg _, by exact_mod_cast raw.isLt⟩, ?_⟩
    rw [BitVec.ofInt_natCast, BitVec.ofNat_toNat, BitVec.setWidth_eq]
  · rintro ⟨⟨hLow, hHigh⟩, rfl⟩
    rw [BitVec.toNat_ofInt, Int.emod_eq_of_lt hLow (by exact_mod_cast hHigh), Int.toNat_of_nonneg hLow]

theorem signed_iff {w : Nat} (hw : 0 < w) (raw : BitVec w) (n : Int) :
    raw.toInt = n ↔ (-2 ^ (w - 1) ≤ n ∧ n < 2 ^ (w - 1)) ∧ raw = BitVec.ofInt w n := by
  constructor
  · rintro rfl
    exact ⟨⟨BitVec.le_toInt raw, BitVec.toInt_lt⟩, BitVec.ofInt_toInt.symm⟩
  · rintro ⟨⟨hLow, hHigh⟩, rfl⟩
    exact BitVec.toInt_ofInt_eq_self hw hLow hHigh

theorem read_iff (t : IntegerType) (source : List (BitVec 8)) (n : Int) :
    t.read source = .ok n ↔ t.InRange n ∧ source = t.bytes (BitVec.ofInt 64 n) := by
  cases t with
  | uint16 =>
    rw [read, map_ok_iff, InRange, bytes, narrow (by decide)]
    simp only [readUint16BigEndian_iff, unsigned_iff]
    constructor
    · rintro ⟨raw, rfl, hRange, rfl⟩
      exact ⟨hRange, rfl⟩
    · rintro ⟨hRange, rfl⟩
      exact ⟨_, rfl, hRange, rfl⟩
  | int16 =>
    rw [read, map_ok_iff, InRange, bytes, narrow (by decide)]
    simp only [readUint16BigEndian_iff, signed_iff (by decide : 0 < 16)]
    constructor
    · rintro ⟨raw, rfl, hRange, rfl⟩
      exact ⟨hRange, rfl⟩
    · rintro ⟨hRange, rfl⟩
      exact ⟨_, rfl, hRange, rfl⟩
  | uint32 =>
    rw [read, map_ok_iff, InRange, bytes, narrow (by decide)]
    simp only [readUint32BigEndian_iff, unsigned_iff]
    constructor
    · rintro ⟨raw, rfl, hRange, rfl⟩
      exact ⟨hRange, rfl⟩
    · rintro ⟨hRange, rfl⟩
      exact ⟨_, rfl, hRange, rfl⟩
  | int32 =>
    rw [read, map_ok_iff, InRange, bytes, narrow (by decide)]
    simp only [readUint32BigEndian_iff, signed_iff (by decide : 0 < 32)]
    constructor
    · rintro ⟨raw, rfl, hRange, rfl⟩
      exact ⟨hRange, rfl⟩
    · rintro ⟨hRange, rfl⟩
      exact ⟨_, rfl, hRange, rfl⟩

theorem InRange.within {t : IntegerType} {n : Int} (hRange : t.InRange n) : -2 ^ 63 ≤ n ∧ n < 2 ^ 63 := by
  cases t <;> exact ⟨by have := hRange.1; omega, by have := hRange.2; omega⟩

section Values

variable {K : Type} [Field K] [LinearOrder K] [FloorRing K] {platform : Platform K}

theorem canonicalBytes_eq (t : IntegerType) (rawValue : K) :
    canonicalBytes platform t.dataType rawValue = .ok (t.bytes (llround platform rawValue)) := by
  cases t <;> rfl

omit [LinearOrder K] [FloorRing K] in
theorem orderedValue_eq (t : IntegerType) (orderedBytes : List (BitVec 8)) :
    orderedValue platform t.dataType orderedBytes = Except.map (fun n : Int => (n : K)) (t.read orderedBytes) := by
  cases t with
  | uint16 =>
    have hBranch : orderedValue platform uint16.dataType orderedBytes =
      Except.map (fun raw => (raw.toNat : K)) (readUint16BigEndian orderedBytes) := rfl
    rw [hBranch, read]
    cases readUint16BigEndian orderedBytes with
    | error e => rfl
    | ok raw => exact congrArg Except.ok (Int.cast_natCast raw.toNat).symm
  | int16 =>
    have hBranch : orderedValue platform int16.dataType orderedBytes =
      Except.map (fun raw => (raw.toInt : K)) (readUint16BigEndian orderedBytes) := rfl
    rw [hBranch, read]
    cases readUint16BigEndian orderedBytes <;> rfl
  | uint32 =>
    have hBranch : orderedValue platform uint32.dataType orderedBytes =
      Except.map (fun raw => (raw.toNat : K)) (readUint32BigEndian orderedBytes) := rfl
    rw [hBranch, read]
    cases readUint32BigEndian orderedBytes with
    | error e => rfl
    | ok raw => exact congrArg Except.ok (Int.cast_natCast raw.toNat).symm
  | int32 =>
    have hBranch : orderedValue platform int32.dataType orderedBytes =
      Except.map (fun raw => (raw.toInt : K)) (readUint32BigEndian orderedBytes) := rfl
    rw [hBranch, read]
    cases readUint32BigEndian orderedBytes <;> rfl

variable [IsStrictOrderedRing K]

theorem llround_intCast {n : Int} (hRange : -2 ^ 63 ≤ n ∧ n < 2 ^ 63) : llround platform (n : K) = BitVec.ofInt 64 n := by
  rw [llround, show roundAway (n : K) = n from Rounding.roundAway_intCast n, if_pos hRange]

end Values

end IntegerType

section Order

variable {canonical reordered out : List (BitVec 8)} {order : StdString} {width : Nat}

def letterPlace (token : Char) : Nat := token.toNat - 'A'.toNat

theorem placeOf_eq_some {size : Nat} {token : Char} {place : Nat} :
    placeOf size token = some place ↔ ¬token < 'A' ∧ place < size ∧ place = letterPlace token := by
  rw [placeOf]
  split
  · next hOut =>
    refine iff_of_false nofun ?_
    rintro ⟨hLetter, hPlace, rfl⟩
    exact hOut.elim hLetter (Nat.not_le.mpr hPlace)
  · next hIn =>
    rw [not_or, Nat.not_le] at hIn
    constructor
    · rintro ⟨⟩
      exact ⟨hIn.1, hIn.2, rfl⟩
    · rintro ⟨-, -, rfl⟩
      rfl

def Placed (size room : Nat) (token : Char) : Prop := ∃ place, placeOf size token = some place ∧ place < room

def Rejected (width room i : Nat) (order : StdString) : Prop :=
  ∃ before token after, order = before ++ token :: after ∧ i + before.length ≤ width ∧
    (∀ t ∈ before, Placed width room t) ∧ placeOf width token = none

theorem rejected_cons {room i : Nat} {token : Char} (hi : i ≤ width) :
    Rejected width room i (token :: order) ↔
      placeOf width token = none ∨ (Placed width room token ∧ i < width ∧ Rejected width room (i + 1) order) := by
  constructor
  · rintro ⟨before, bad, after, hSplit, hReached, hPlaced, hBad⟩
    cases before with
    | nil =>
      obtain ⟨rfl, rfl⟩ := List.cons.inj hSplit
      exact .inl hBad
    | cons first before =>
      obtain ⟨rfl, rfl⟩ := List.cons.inj hSplit
      rw [List.length_cons] at hReached
      refine .inr ⟨hPlaced _ List.mem_cons_self, by omega, before, bad, after, rfl, by omega, ?_, hBad⟩
      exact fun t ht => hPlaced t (List.mem_cons_of_mem _ ht)
  · rintro (hBad | ⟨hFirst, hLess, before, bad, after, rfl, hReached, hPlaced, hBad⟩)
    · exact ⟨[], token, order, rfl, hi, nofun, hBad⟩
    · refine ⟨token :: before, bad, after, rfl, by rw [List.length_cons]; omega, ?_, hBad⟩
      intro t ht
      obtain rfl | ht := List.mem_cons.mp ht
      · exact hFirst
      · exact hPlaced t ht

theorem encodeLoop_invalid_iff (i : Nat) (hi : i ≤ canonical.length) :
    (∃ message, encodeLoop canonical i order reordered = .error (.invalidArgument message)) ↔
      Rejected canonical.length reordered.length i order := by
  induction order generalizing i reordered with
  | nil =>
    refine iff_of_false nofun ?_
    rintro ⟨before, token, after, hSplit, -⟩
    exact absurd hSplit (List.append_ne_nil_of_right_ne_nil _ (List.cons_ne_nil _ _)).symm
  | cons token order ih =>
    rw [encodeLoop, rejected_cons hi]
    cases hPlace : placeOf canonical.length token with
    | none => exact iff_of_true ⟨_, rfl⟩ (.inl rfl)
    | some place =>
      dsimp only
      have hPlaced : Placed canonical.length reordered.length token ↔ place < reordered.length := by
        constructor
        · rintro ⟨place', hPlace', hRoom⟩
          obtain rfl := Option.some.inj (hPlace.symm.trans hPlace')
          exact hRoom
        · exact fun hRoom => ⟨place, hPlace, hRoom⟩
      rw [hPlaced]
      obtain hEnd | hLess := hi.eq_or_lt
      · rw [List.getElem?_eq_none hEnd.ge]
        refine iff_of_false nofun ?_
        rintro (hNone | ⟨-, hLess, -⟩)
        · cases hNone
        · omega
      · rw [List.getElem?_eq_getElem hLess]
        dsimp only
        split
        · next hRoom =>
          rw [ih (i + 1) hLess, List.length_set]
          simp [hRoom, hLess]
        · next hRoom =>
          refine iff_of_false nofun ?_
          rintro (hNone | ⟨hRoom', -⟩)
          · cases hNone
          · exact hRoom hRoom'

theorem encodeLoop_ok_iff (i : Nat) (hi : i ≤ canonical.length) :
    encodeLoop canonical i order reordered = .ok out ↔
      (∀ token ∈ order, Placed canonical.length reordered.length token) ∧ i + order.length ≤ canonical.length ∧
        out = scatter (order.map letterPlace) (canonical.drop i) reordered := by
  induction order generalizing i reordered with
  | nil =>
    rw [encodeLoop, Except.ok.injEq, List.map_nil, scatter.eq_def]
    simp [hi, eq_comm]
  | cons token order ih =>
    rw [encodeLoop, List.length_cons]
    cases hPlace : placeOf canonical.length token with
    | none =>
      refine iff_of_false (by intro h; cases h) ?_
      rintro ⟨hAll, -⟩
      obtain ⟨place, hPlace', -⟩ := hAll token List.mem_cons_self
      rw [hPlace] at hPlace'
      cases hPlace'
    | some place =>
      dsimp only
      obtain hEnd | hLess := hi.eq_or_lt
      · rw [List.getElem?_eq_none hEnd.ge]
        exact iff_of_false (by intro h; cases h) (fun h => by omega)
      · rw [List.getElem?_eq_getElem hLess]
        dsimp only
        split
        · next hRoom =>
          obtain ⟨-, -, rfl⟩ := placeOf_eq_some.mp hPlace
          rw [ih (i + 1) hLess, List.length_set, List.map_cons, List.drop_eq_getElem_cons hLess, scatter]
          constructor
          · rintro ⟨hAll, hCount, rfl⟩
            refine ⟨?_, by omega, rfl⟩
            intro t ht
            obtain rfl | ht := List.mem_cons.mp ht
            · exact ⟨_, hPlace, hRoom⟩
            · exact hAll t ht
          · rintro ⟨hAll, hCount, rfl⟩
            exact ⟨fun t ht => hAll t (List.mem_cons_of_mem _ ht), by omega, rfl⟩
        · next hRoom =>
          refine iff_of_false (by intro h; cases h) ?_
          rintro ⟨hAll, -⟩
          obtain ⟨place', hPlace', hRoom'⟩ := hAll token List.mem_cons_self
          obtain rfl := Option.some.inj (hPlace.symm.trans hPlace')
          exact hRoom hRoom'

def collect (bytes : List (BitVec 8)) (order : StdString) : List (BitVec 8) :=
  order.map fun token => bytes.getD (letterPlace token) 0

theorem byteAt_ok_iff {bytes : List (BitVec 8)} {token : Char} {byte : BitVec 8} :
    byteAt bytes token = .ok byte ↔
      Placed bytes.length bytes.length token ∧ bytes.getD (letterPlace token) 0 = byte := by
  rw [byteAt]
  cases hPlace : placeOf bytes.length token with
  | none =>
    refine iff_of_false nofun ?_
    rintro ⟨⟨place, hPlace', -⟩, -⟩
    rw [hPlace] at hPlace'
    cases hPlace'
  | some place =>
    obtain ⟨-, hRoom, rfl⟩ := placeOf_eq_some.mp hPlace
    constructor
    · intro hOk
      exact ⟨⟨_, hPlace, hRoom⟩, Except.ok.inj hOk⟩
    · rintro ⟨-, rfl⟩
      rfl

theorem reorderBytes_ok_iff {bytes : List (BitVec 8)} (hOrder : order ≠ []) :
    reorderBytes bytes order = .ok out ↔ order.length = bytes.length ∧
      (∀ token ∈ order, Placed bytes.length bytes.length token) ∧ out = collect bytes order := by
  rw [reorderBytes, if_neg hOrder]
  split
  · next hLength => exact iff_of_false nofun fun h => hLength h.1
  · next hLength =>
    rw [mapM_ok_iff]
    simp only [byteAt_ok_iff]
    rw [List.forall₂_and_left, ← @List.forall₂_map_left_iff _ _ _ (· = ·), List.forall₂_eq_eq_eq, ← collect,
      @eq_comm _ out]
    exact (and_iff_right (not_not.mp hLength)).symm

structure Keeps (order : StdString) (bytes : List (BitVec 8)) : Prop where
  length : order.length = bytes.length
  placed : ∀ token ∈ order, Placed bytes.length bytes.length token
  equal : ∀ (i j : Nat) token, order[i]? = some token → order[j]? = some token → bytes[i]? = bytes[j]?

theorem letterPlace_injective {size room : Nat} {token token' : Char} (h : Placed size room token)
    (h' : Placed size room token') (hSame : letterPlace token = letterPlace token') : token = token' := by
  obtain ⟨_, hPlace, -⟩ := h
  obtain ⟨_, hPlace', -⟩ := h'
  obtain ⟨hLetter, -⟩ := placeOf_eq_some.mp hPlace
  obtain ⟨hLetter', -⟩ := placeOf_eq_some.mp hPlace'
  rw [Char.lt_def, UInt32.lt_iff_toNat_lt, Nat.not_lt] at hLetter hLetter'
  apply Char.toNat_inj.mp
  rw [letterPlace, letterPlace] at hSame
  change 'A'.toNat ≤ token.toNat at hLetter
  change 'A'.toNat ≤ token'.toNat at hLetter'
  omega

theorem collect_scatter_iff (hLength : order.length = canonical.length)
    (hPlaced : ∀ token ∈ order, Placed canonical.length canonical.length token)
    (hRoom : reordered.length = canonical.length) :
    collect (scatter (order.map letterPlace) canonical reordered) order = canonical ↔ Keeps order canonical := by
  have hInside : ∀ k ∈ order.map letterPlace, k < reordered.length := by
    intro k hk
    obtain ⟨token, hToken, rfl⟩ := List.mem_map.mp hk
    obtain ⟨place, hPlace, -⟩ := hPlaced token hToken
    obtain ⟨-, hLess, rfl⟩ := placeOf_eq_some.mp hPlace
    rwa [hRoom]
  have hConsistent : Consistent (order.map letterPlace) canonical ↔ Keeps order canonical := by
    constructor
    · intro hSame
      refine ⟨hLength, hPlaced, fun i j token hi hj => hSame i j (letterPlace token) ?_ ?_⟩
      · rw [List.getElem?_map, hi, Option.map_some]
      · rw [List.getElem?_map, hj, Option.map_some]
    · intro hKeeps i j k hi hj
      rw [List.getElem?_map] at hi hj
      obtain ⟨token, hToken, rfl⟩ := Option.map_eq_some_iff.mp hi
      obtain ⟨token', hToken', hSame⟩ := Option.map_eq_some_iff.mp hj
      obtain rfl := letterPlace_injective (hPlaced _ (List.mem_of_getElem? hToken'))
        (hPlaced _ (List.mem_of_getElem? hToken)) hSame
      exact hKeeps.equal i j _ hToken hToken'
  rw [← hConsistent, ← gather_scatter_iff (by rw [List.length_map, hLength]) hInside]
  have hGet : ∀ k, k < reordered.length →
      (scatter (order.map letterPlace) canonical reordered)[k]? =
        some ((scatter (order.map letterPlace) canonical reordered).getD k 0) := by
    intro k hk
    rw [List.getD_eq_getElem _ _ (by rwa [length_scatter])]
    exact List.getElem?_eq_getElem _
  constructor
  · intro hCollect i k hi
    have hk := hInside k (List.mem_of_getElem? hi)
    rw [List.getElem?_map] at hi
    obtain ⟨token, hToken, rfl⟩ := Option.map_eq_some_iff.mp hi
    rw [hGet _ hk, ← congrArg (fun l => l[i]?) hCollect]
    rw [collect, List.getElem?_map, hToken, Option.map_some]
  · intro hGather
    apply List.ext_getElem?
    intro i
    rw [collect, List.getElem?_map]
    cases hToken : order[i]? with
    | none =>
      rw [Option.map_none, List.getElem?_eq_none]
      rw [← hLength]
      exact List.getElem?_eq_none_iff.mp hToken
    | some token =>
      have hPlace : (order.map letterPlace)[i]? = some (letterPlace token) := by
        rw [List.getElem?_map, hToken, Option.map_some]
      rw [Option.map_some, ← hGet _ (hInside _ (List.mem_of_getElem? hPlace)), hGather i _ hPlace]

end Order

section RoundTrip

variable {K : Type} [Field K] [LinearOrder K] [FloorRing K] {platform : Platform K}
  {point : PointDefinition K} {value : K} {t : IntegerType} {registers : List (BitVec 16)}

def readerOf (point : PointDefinition K) (registers : List (BitVec 16)) : PointDefinition K :=
  { point with
    read :=
      { point.read with
        enable := true
        dataType := point.write.dataType
        byteOrder := point.write.byteOrder
        length := registers.length } }

def DecodesTo (platform : Platform K) (point : PointDefinition K) (registers : List (BitVec 16)) (rawValue : K) : Prop :=
  ∃ rawBytes, decodeRawValue platform registers point.read = .ok (rawValue, rawBytes) ∧
    decodeReadValue platform registers point =
      .ok ⟨applyReadScale rawValue point.read, mappedText platform point rawValue, bytesToHex rawBytes⟩

def RoundTrips (platform : Platform K) (value : K) (point : PointDefinition K) (n : Int) : Prop :=
  (∃ message, encodeWriteValue platform value point = .error (.invalidArgument message)) ∨
    ∃ registers, encodeWriteValue platform value point = .ok registers ∧
      DecodesTo platform (readerOf point registers) registers n

/-- The value, the scale or a letter of the byte order is not accepted. -/
def Refused (width : Nat) (value : K) (point : PointDefinition K) : Prop :=
  (validateWriteValue value point).ok = false ∨ |point.write.scale| < 1 / 2 ^ 52 ∨
    Rejected width point.write.byteOrder.length 0 point.write.byteOrder

theorem enable_of_valid (hValid : (validateWriteValue value point).ok = true) : ¬point.write.enable = false := by
  intro hDisabled
  rw [validateWriteValue, if_pos hDisabled] at hValid
  cases hValid

theorem encode_of_invalid (hValid : (validateWriteValue value point).ok = false) :
    ∃ message, encodeWriteValue platform value point = .error (.invalidArgument message) := by
  rw [encodeWriteValue]
  by_cases hEnable : point.write.enable = false
  · rw [if_pos hEnable]
    exact ⟨_, rfl⟩
  · rw [if_neg hEnable]
    dsimp only
    rw [if_pos hValid]
    exact ⟨_, rfl⟩

theorem encode_of_valid (hValid : (validateWriteValue value point).ok = true) :
    encodeWriteValue platform value point = (do
      let rawValue ← removeWriteScale value point.write
      let canonicalBytes ← canonicalBytes platform point.write.dataType rawValue
      let deviceBytes ← applyByteOrderForEncode canonicalBytes point.write.byteOrder
      packRegisters deviceBytes) := by
  rw [encodeWriteValue, if_neg (enable_of_valid hValid)]
  dsimp only
  rw [if_neg (by rw [hValid]; decide)]

theorem encode_eq (hType : point.write.dataType = t.dataType) (hValid : (validateWriteValue value point).ok = true)
    (hScale : ¬|point.write.scale| < 1 / 2 ^ 52) {n : Int}
    (hWhole : (value - point.write.offset) / point.write.scale = n) :
    encodeWriteValue platform value point =
      applyByteOrderForEncode (t.bytes (llround platform (n : K))) point.write.byteOrder >>= packRegisters := by
  rw [encode_of_valid hValid, removeWriteScale, if_neg hScale, hWhole, hType]
  exact congrArg (fun canonical => canonical >>= fun bytes =>
    applyByteOrderForEncode bytes point.write.byteOrder >>= packRegisters) (t.canonicalBytes_eq (n : K))

theorem packRegisters_not_invalid (bytes : List (BitVec 8)) (message : StdString) :
    packRegisters bytes ≠ .error (.invalidArgument message) := by
  induction bytes using packRegisters.induct with
  | case1 => exact nofun
  | case2 => exact nofun
  | case3 hi lo rest ih =>
    intro hPack
    rw [packRegisters] at hPack
    cases hRest : packRegisters rest with
    | error e =>
      rw [hRest] at hPack
      exact ih (hRest.trans hPack)
    | ok registers =>
      rw [hRest] at hPack
      cases hPack

theorem applyByteOrder_invalid_iff {canonical : List (BitVec 8)} {order : StdString} :
    (∃ message, applyByteOrderForEncode canonical order = .error (.invalidArgument message)) ↔
      Rejected canonical.length order.length 0 order := by
  rw [applyByteOrderForEncode]
  split
  · next hEmpty =>
    refine iff_of_false nofun ?_
    rintro ⟨before, token, after, hSplit, -⟩
    rw [hEmpty] at hSplit
    exact absurd hSplit (List.append_ne_nil_of_right_ne_nil _ (List.cons_ne_nil _ _)).symm
  · rw [encodeLoop_invalid_iff 0 (Nat.zero_le _), List.length_replicate]

theorem encode_refused_iff (hType : point.write.dataType = t.dataType) {n : Int}
    (hWhole : (value - point.write.offset) / point.write.scale = n) :
    (∃ message, encodeWriteValue platform value point = .error (.invalidArgument message)) ↔
      Refused t.size value point := by
  rw [Refused]
  cases hValid : (validateWriteValue value point).ok with
  | false => exact iff_of_true (encode_of_invalid hValid) (.inl rfl)
  | true =>
    by_cases hScale : |point.write.scale| < 1 / 2 ^ 52
    · refine iff_of_true ?_ (.inr (.inl hScale))
      rw [encode_of_valid hValid, removeWriteScale, if_pos hScale]
      exact ⟨_, rfl⟩
    · rw [encode_eq hType hValid hScale hWhole, ← t.length_bytes (llround platform (n : K)), ← applyByteOrder_invalid_iff]
      constructor
      · rintro ⟨message, hError⟩
        cases hDevice : applyByteOrderForEncode (t.bytes (llround platform (n : K))) point.write.byteOrder with
        | error e =>
          rw [hDevice] at hError
          cases hError
          exact .inr (.inr ⟨message, rfl⟩)
        | ok deviceBytes =>
          rw [hDevice] at hError
          exact absurd hError (packRegisters_not_invalid _ _)
      · rintro (hInvalid | hSmall | ⟨message, hError⟩)
        · cases hInvalid
        · exact absurd hSmall hScale
        · rw [hError]
          exact ⟨message, rfl⟩

theorem dataType_ne_bit (t : IntegerType) : t.dataType ≠ "bit".toList := by
  cases t <;> decide

variable [IsStrictOrderedRing K]

omit [IsStrictOrderedRing K] in
theorem decodesTo_iff (hType : point.write.dataType = t.dataType) (hCount : registers.length < 2 ^ 64)
    {deviceBytes : List (BitVec 8)} (hPack : packRegisters deviceBytes = .ok registers) {n : Int} :
    DecodesTo platform (readerOf point registers) registers n ↔
      ∃ orderedBytes, reorderBytes deviceBytes point.write.byteOrder = .ok orderedBytes ∧ t.read orderedBytes = .ok n := by
  obtain ⟨hFlat, hLength⟩ := flattenRegisters_packRegisters hPack
  have hRaw : rawBytesOf registers (readerOf point registers).read = deviceBytes := by
    rw [rawBytesOf, hFlat, readerOf, toSize_natCast hCount, List.take_of_length_le (by omega)]
  have hDecode : decodeRawValue platform registers (readerOf point registers).read = (do
      let orderedBytes ← reorderBytes deviceBytes point.write.byteOrder
      let rawValue ← Except.map (fun n : Int => (n : K)) (t.read orderedBytes)
      .ok (rawValue, deviceBytes)) := by
    have hEnough : ¬registers.length < toSize (readerOf point registers).read.length := by
      rw [readerOf, toSize_natCast hCount]
      exact Nat.lt_irrefl _
    have hNotBit : (readerOf point registers).read.dataType ≠ "bit".toList := by
      rw [readerOf, hType]
      exact dataType_ne_bit t
    have hEnable : ¬(readerOf point registers).read.enable = false := fun h => Bool.noConfusion h
    rw [decodeRawValue, if_neg hEnable]
    dsimp only
    rw [if_neg hEnough, if_neg hNotBit, hRaw]
    simp only [readerOf, hType, t.orderedValue_eq]
  constructor
  · rintro ⟨rawBytes, hOk, -⟩
    rw [hDecode] at hOk
    obtain ⟨orderedBytes, hOrdered, hOk⟩ := bind_ok_iff.mp hOk
    obtain ⟨rawValue, hMap, hOk⟩ := bind_ok_iff.mp hOk
    obtain ⟨m, hRead, rfl⟩ := map_ok_iff.mp hMap
    obtain ⟨hCast, -⟩ := Prod.mk.inj (Except.ok.inj hOk)
    obtain rfl := Int.cast_injective hCast
    exact ⟨orderedBytes, hOrdered, hRead⟩
  · rintro ⟨orderedBytes, hOrdered, hRead⟩
    have hOk : decodeRawValue platform registers (readerOf point registers).read = .ok ((n : K), deviceBytes) := by
      rw [hDecode, bind_ok_iff]
      exact ⟨orderedBytes, hOrdered, bind_ok_iff.mpr ⟨(n : K), map_ok_iff.mpr ⟨n, hRead, rfl⟩, rfl⟩⟩
    exact ⟨deviceBytes, hOk, map_ok_iff.mpr ⟨_, hOk, rfl⟩⟩

theorem reorder_of_keeps {canonical deviceBytes : List (BitVec 8)} {order : StdString}
    (hDevice : applyByteOrderForEncode canonical order = .ok deviceBytes) :
    reorderBytes deviceBytes order = .ok canonical ↔ order = [] ∨ Keeps order canonical := by
  by_cases hEmpty : order = []
  · rw [applyByteOrderForEncode, if_pos hEmpty] at hDevice
    cases hDevice
    rw [reorderBytes, if_pos hEmpty]
    exact iff_of_true rfl (.inl hEmpty)
  · rw [applyByteOrderForEncode, if_neg hEmpty, encodeLoop_ok_iff 0 (Nat.zero_le _), List.length_replicate, List.drop_zero]
      at hDevice
    obtain ⟨hAll, hCount, rfl⟩ := hDevice
    rw [reorderBytes_ok_iff hEmpty, length_scatter, List.length_replicate]
    constructor
    · rintro ⟨-, hPlaced, hCollect⟩
      have hLength : order.length = canonical.length := by
        rw [hCollect, collect, List.length_map]
      refine .inr ((collect_scatter_iff hLength ?_ ?_).mp hCollect.symm)
      · rwa [← hLength]
      · rw [List.length_replicate, hLength]
    · rintro (hNil | hKeeps)
      · exact absurd hNil hEmpty
      · refine ⟨rfl, ?_, ((collect_scatter_iff hKeeps.length hKeeps.placed ?_).mpr hKeeps).symm⟩
        · rw [hKeeps.length]
          exact hKeeps.placed
        · rw [List.length_replicate, hKeeps.length]

theorem length_deviceBytes {canonical deviceBytes : List (BitVec 8)} {order : StdString}
    (hDevice : applyByteOrderForEncode canonical order = .ok deviceBytes) : deviceBytes.length ≤ canonical.length := by
  rw [applyByteOrderForEncode] at hDevice
  split at hDevice
  · cases hDevice
    exact Nat.le_refl _
  · obtain ⟨-, hCount, rfl⟩ := (encodeLoop_ok_iff 0 (Nat.zero_le _)).mp hDevice
    rw [length_scatter, List.length_replicate]
    omega

theorem packs_of_even {bytes : List (BitVec 8)} {half : Nat} (hEven : bytes.length = 2 * half) :
    ∃ registers, packRegisters bytes = .ok registers := by
  induction bytes using packRegisters.induct generalizing half with
  | case1 => exact ⟨_, rfl⟩
  | case2 =>
    rw [List.length_singleton] at hEven
    omega
  | case3 hi lo rest ih =>
    rw [List.length_cons, List.length_cons] at hEven
    obtain ⟨registers, hRest⟩ := @ih (half - 1) (by omega)
    exact ⟨_, by rw [packRegisters, hRest]; rfl⟩

theorem size_even (t : IntegerType) : t.size = 2 * (t.size / 2) ∧ t.size ≤ 4 := by
  cases t <;> decide

theorem applies_of_keeps {canonical : List (BitVec 8)} {order : StdString} (hOrder : order = [] ∨ Keeps order canonical) :
    ∃ deviceBytes, applyByteOrderForEncode canonical order = .ok deviceBytes ∧
      deviceBytes.length = canonical.length := by
  rw [applyByteOrderForEncode]
  by_cases hEmpty : order = []
  · rw [if_pos hEmpty]
    exact ⟨_, rfl, rfl⟩
  · have hKeeps := hOrder.resolve_left hEmpty
    rw [if_neg hEmpty]
    refine ⟨_, (encodeLoop_ok_iff 0 (Nat.zero_le _)).mpr ⟨?_, ?_, rfl⟩, ?_⟩
    · rw [List.length_replicate, hKeeps.length]
      exact hKeeps.placed
    · rw [hKeeps.length, Nat.zero_add]
    · rw [length_scatter, List.length_replicate, hKeeps.length]

/-- It comes back exactly when the type holds it and the byte order keeps its bytes, unless it is refused. -/
theorem roundTrips_iff (platform : Platform K) (t : IntegerType) (point : PointDefinition K) (value : K) (n : Int)
    (hType : point.write.dataType = t.dataType) (hWhole : (value - point.write.offset) / point.write.scale = n) :
    RoundTrips platform value point n ↔ Refused t.size value point ∨
      (t.InRange n ∧
        (point.write.byteOrder = [] ∨ Keeps point.write.byteOrder (t.bytes (BitVec.ofInt 64 n)))) := by
  rw [RoundTrips, encode_refused_iff hType hWhole]
  by_cases hRefused : Refused t.size value point
  · exact iff_of_true (.inl hRefused) (.inl hRefused)
  · obtain ⟨hValid, hScale, -⟩ : (validateWriteValue value point).ok = true ∧ ¬|point.write.scale| < 1 / 2 ^ 52 ∧
        ¬Rejected t.size point.write.byteOrder.length 0 point.write.byteOrder := by
      rw [Refused, not_or, not_or, Bool.not_eq_false] at hRefused
      exact hRefused
    rw [or_iff_right hRefused, or_iff_right hRefused, encode_eq hType hValid hScale hWhole]
    obtain ⟨hEven, hSmall⟩ := size_even t
    constructor
    · rintro ⟨registers, hOk, hDecodes⟩
      obtain ⟨deviceBytes, hDevice, hPack⟩ := bind_ok_iff.mp hOk
      have hFew := length_deviceBytes hDevice
      have hLength := (flattenRegisters_packRegisters hPack).2
      rw [t.length_bytes] at hFew
      obtain ⟨orderedBytes, hOrdered, hRead⟩ := (decodesTo_iff hType (by omega) hPack).mp hDecodes
      obtain ⟨hRange, rfl⟩ := (t.read_iff _ _).mp hRead
      rw [IntegerType.llround_intCast hRange.within] at hDevice
      exact ⟨hRange, (reorder_of_keeps hDevice).mp hOrdered⟩
    · rintro ⟨hRange, hOrder⟩
      rw [IntegerType.llround_intCast hRange.within]
      obtain ⟨deviceBytes, hDevice, hSize⟩ := applies_of_keeps hOrder
      rw [t.length_bytes] at hSize
      obtain ⟨registers, hPack⟩ := packs_of_even (hSize.trans hEven)
      have hLength := (flattenRegisters_packRegisters hPack).2
      refine ⟨registers, bind_ok_iff.mpr ⟨deviceBytes, hDevice, hPack⟩, ?_⟩
      rw [decodesTo_iff hType (by omega) hPack]
      exact ⟨_, (reorder_of_keeps hDevice).mpr hOrder, (t.read_iff _ _).mpr ⟨hRange, rfl⟩⟩

end RoundTrip

def holding : PointDefinition ℚ where
  index := 1
  pointCode := "setpoint".toList
  enabled := true
  read := { enable := true, dataType := "uint16".toList, scale := 1, offset := 0 }
  write := { enable := true, dataType := "uint16".toList, scale := 1, offset := 0, step := 0 }

theorem holding_valid (value : ℚ) : (validateWriteValue value holding).ok = true := by
  simp [validateWriteValue, holding]

theorem holding_keeps (bytes : List (BitVec 8)) (hLength : bytes.length = 2) : Keeps holding.write.byteOrder bytes := by
  refine ⟨hLength.symm, fun token hToken => ?_, fun i j token hi hj => ?_⟩
  · rw [hLength]
    obtain rfl | rfl : token = 'A' ∨ token = 'B' := by simpa [holding] using hToken
    · exact ⟨0, rfl, by decide⟩
    · exact ⟨1, rfl, by decide⟩
  · obtain ⟨hInside, -⟩ := List.getElem?_eq_some_iff.mp hi
    rw [(List.getElem?_inj hInside (by decide)).mp (hi.trans hj.symm)]

theorem roundTrips_holding : holding.write.dataType = IntegerType.uint16.dataType ∧
    ∀ platform : Platform ℚ, RoundTrips platform 1200 holding 1200 := by
  refine ⟨rfl, fun platform => ?_⟩
  exact (roundTrips_iff platform .uint16 holding 1200 1200 rfl (by norm_num [holding])).mpr
    (.inr ⟨⟨by decide, by decide⟩, .inr (holding_keeps _ rfl)⟩)

/-- More than the register holds is cut off without an error. -/
theorem wide_value_cut_off : (validateWriteValue 70000 holding).ok = true ∧
    ∀ platform : Platform ℚ, encodeWriteValue platform 70000 holding = .ok [4464] ∧
      ¬RoundTrips platform 70000 holding 70000 := by
  refine ⟨holding_valid 70000, fun platform => ?_⟩
  have hEncode : encodeWriteValue platform 70000 holding = .ok [4464] := by
    rw [@encode_eq ℚ _ _ _ platform holding 70000 .uint16 rfl (holding_valid _) (by norm_num [holding]) 70000
      (by norm_num [holding]), IntegerType.llround_intCast (by norm_num)]
    rfl
  refine ⟨hEncode, ?_⟩
  rintro (⟨message, hError⟩ | ⟨registers, hOk, hDecodes⟩)
  · rw [hEncode] at hError
    cases hError
  · rw [hEncode] at hOk
    cases hOk
    obtain ⟨rawBytes, hRaw, -⟩ := hDecodes
    have hRead : decodeRawValue platform [4464] (readerOf holding [4464]).read =
        .ok (((4464 : Nat) : ℚ), [0x11, 0x70]) := rfl
    obtain ⟨hSame, -⟩ := Prod.mk.inj (Except.ok.inj (hRead.symm.trans hRaw))
    norm_num at hSame

end EdgeGateway.Modbus.ModbusCodec
