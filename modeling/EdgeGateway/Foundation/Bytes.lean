import Mathlib.Data.List.GetD
import Mathlib.Tactic.Ring

/-! # Bytes, packed records and byte files

A C record without padding is the concatenation of its fields in little endian. A byte file is a
size and the bytes below it; a gap it grows over reads as zero.
-/

namespace EdgeGateway

namespace Bytes

def littleEndian : Nat → Nat → List UInt8
  | 0, _ => []
  | width + 1, value => UInt8.ofNat (value % 256) :: littleEndian width (value / 256)

def ofLittleEndian : List UInt8 → Nat
  | [] => 0
  | byte :: bytes => byte.toNat + 256 * ofLittleEndian bytes

def pack : List (Nat × Nat) → List UInt8
  | [] => []
  | (width, value) :: fields => littleEndian width value ++ pack fields

def unpack : List Nat → List UInt8 → List Nat
  | [], _ => []
  | width :: widths, bytes => ofLittleEndian (bytes.take width) :: unpack widths (bytes.drop width)

@[simp] theorem length_littleEndian (width value : Nat) : (littleEndian width value).length = width := by
  induction width generalizing value with
  | zero => rfl
  | succ width ih => simp [littleEndian, ih]

theorem ofLittleEndian_littleEndian (width value : Nat) :
    ofLittleEndian (littleEndian width value) = value % 256 ^ width := by
  induction width generalizing value with
  | zero => simp [littleEndian, ofLittleEndian, Nat.mod_one]
  | succ width ih =>
    have hByte : (UInt8.ofNat (value % 256)).toNat = value % 256 := by
      rw [UInt8.toNat_ofNat']
      omega
    rw [littleEndian, ofLittleEndian, ih, hByte, Nat.pow_succ', Nat.mod_mul]

theorem littleEndian_mod (width value : Nat) : littleEndian width (value % 256 ^ width) = littleEndian width value := by
  induction width generalizing value with
  | zero => rfl
  | succ width ih =>
    rw [littleEndian, littleEndian, Nat.pow_succ', Nat.mod_mul_right_mod, Nat.mod_mul_right_div_self, ih]

theorem ofLittleEndian_lt (bytes : List UInt8) : ofLittleEndian bytes < 256 ^ bytes.length := by
  induction bytes with
  | nil => decide
  | cons byte bytes ih =>
    have hByte := byte.toNat_lt
    rw [ofLittleEndian, List.length_cons, Nat.pow_succ']
    omega

@[simp] theorem length_pack (fields : List (Nat × Nat)) :
    (pack fields).length = (fields.map Prod.fst).sum := by
  induction fields with
  | nil => rfl
  | cons field fields ih => simp [pack, ih]

theorem unpack_pack (fields : List (Nat × Nat)) :
    unpack (fields.map Prod.fst) (pack fields) = fields.map fun field => field.2 % 256 ^ field.1 := by
  induction fields with
  | nil => rfl
  | cons field fields ih =>
    have hTake : (littleEndian field.1 field.2 ++ pack fields).take field.1 = littleEndian field.1 field.2 := by
      rw [List.take_append_of_le_length (length_littleEndian _ _).ge,
        List.take_of_length_le (length_littleEndian _ _).le]
    have hDrop : (littleEndian field.1 field.2 ++ pack fields).drop field.1 = pack fields :=
      List.drop_left' (length_littleEndian _ _)
    rw [List.map_cons, List.map_cons, pack, unpack, hTake, hDrop, ofLittleEndian_littleEndian, ih]

theorem join_halves (value : UInt16) :
    (value >>> 8).toUInt8.toUInt16 <<< 8 ||| value.toUInt8.toUInt16 = value := by
  apply UInt16.toNat_inj.mp
  have hValue := value.toNat_lt
  simp only [UInt16.toNat_or, UInt16.toNat_shiftLeft, UInt8.toNat_toUInt16, UInt16.toNat_toUInt8,
    UInt16.toNat_shiftRight]
  have hShift : (UInt16.toNat 8) % 16 = 8 := rfl
  rw [hShift, Nat.shiftRight_eq_div_pow, Nat.mod_eq_of_lt (b := 2 ^ 8) (by omega), Nat.shiftLeft_eq,
    Nat.mod_eq_of_lt (b := 2 ^ 16) (by omega), Nat.mul_comm, ← Nat.two_pow_add_eq_or_of_lt (by omega)]
  omega

end Bytes

structure ByteFile where
  size : Nat
  byte : Nat → UInt8
  blank : ∀ i, size ≤ i → byte i = 0

namespace ByteFile

def empty : ByteFile := ⟨0, fun _ => 0, fun _ _ => rfl⟩

def read (file : ByteFile) (offset length : Nat) : Option (List UInt8) :=
  if offset + length ≤ file.size then some ((List.range length).map fun i => file.byte (offset + i)) else none

/-- Writing past the end grows the file, with zeros in a gap; writing nothing does not. -/
def write (file : ByteFile) (offset : Nat) (data : List UInt8) : ByteFile where
  size := if data = [] then file.size else max file.size (offset + data.length)
  byte i := if offset ≤ i ∧ i < offset + data.length then data.getD (i - offset) 0 else file.byte i
  blank i hi := by
    cases data with
    | nil =>
      rw [if_neg (by simp only [List.length_nil]; omega)]
      exact file.blank i (by simpa using hi)
    | cons b data =>
      rw [if_neg (by simp) ] at hi
      rw [if_neg (by omega)]
      exact file.blank i (by omega)

def Holds (file : ByteFile) (offset : Nat) (data : List UInt8) : Prop :=
  offset + data.length ≤ file.size ∧ ∀ i, i < data.length → file.byte (offset + i) = data.getD i 0

variable {file : ByteFile} {offset place : Nat} {data other : List UInt8}

theorem Holds.read (h : file.Holds offset data) : file.read offset data.length = some data := by
  rw [ByteFile.read, if_pos h.1]
  congr 1
  apply List.ext_getElem
  · simp
  · intro i hi hi'
    rw [List.getElem_map, List.getElem_range, h.2 i hi', List.getD_eq_getElem _ _ hi']

theorem holds_append : file.Holds offset (data ++ other) ↔
    file.Holds offset data ∧ file.Holds (offset + data.length) other := by
  constructor
  · rintro ⟨hSize, hBytes⟩
    rw [List.length_append] at hSize
    refine ⟨⟨by omega, fun i hi => ?_⟩, by omega, fun i hi => ?_⟩
    · rw [hBytes i (by rw [List.length_append]; omega), List.getD_append _ _ _ _ hi]
    · rw [Nat.add_assoc, hBytes (data.length + i) (by rw [List.length_append]; omega),
        List.getD_append_right _ _ _ _ (by omega), Nat.add_sub_cancel_left]
  · rintro ⟨⟨hSize, hBytes⟩, hSize', hBytes'⟩
    refine ⟨by rw [List.length_append]; omega, fun i hi => ?_⟩
    rw [List.length_append] at hi
    obtain hi' | hi' := Nat.lt_or_ge i data.length
    · rw [hBytes i hi', List.getD_append _ _ _ _ hi']
    · have hAt := hBytes' (i - data.length) (by omega)
      rw [show offset + data.length + (i - data.length) = offset + i by omega] at hAt
      rw [hAt, List.getD_append_right _ _ _ _ hi']

theorem size_le_write : file.size ≤ (file.write offset data).size := by
  simp only [write]
  split <;> omega

theorem size_write (hData : 0 < data.length) : (file.write offset data).size = max file.size (offset + data.length) :=
  if_neg (List.ne_nil_of_length_pos hData)

theorem size_write_inside (h : offset + data.length ≤ file.size) : (file.write offset data).size = file.size := by
  simp only [write]
  split <;> omega

theorem holds_write (hOffset : offset ≤ file.size) : (file.write offset data).Holds offset data := by
  refine ⟨?_, fun i hi => ?_⟩
  · simp only [write]
    split
    · next hEmpty => simpa [hEmpty] using hOffset
    · omega
  · simp only [write]
    rw [if_pos (by omega), Nat.add_sub_cancel_left]

theorem Holds.write (h : file.Holds offset data) (hApart : offset + data.length ≤ place ∨ place + other.length ≤ offset) :
    (file.write place other).Holds offset data := by
  refine ⟨Nat.le_trans h.1 size_le_write, fun i hi => ?_⟩
  simp only [ByteFile.write]
  rw [if_neg (by omega), h.2 i hi]

end ByteFile

end EdgeGateway
