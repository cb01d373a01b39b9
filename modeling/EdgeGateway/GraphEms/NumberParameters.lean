import EdgeGateway.Foundation.DecimalNumbers
import EdgeGateway.Foundation.Rounding
import EdgeGateway.GraphEms.Materialized
import Mathlib.Data.Rat.Floor

/-! # Numbers that become parameters -/

namespace EdgeGateway.GraphEms

open Numerals QuotedText DecimalNumbers Rounding EdgeGateway.Fallible

section Texts

def millionths (x : ℚ) : Nat := roundHalfEven (x.num.natAbs * 10 ^ 6) x.den

def sixDecimals (x : ℚ) : StdString :=
  (if x < 0 then ['-'] else []) ++ (decimal (millionths x / 10 ^ 6) ++ '.' :: padLeft 6 (decimal (millionths x % 10 ^ 6)))

/-- The number branch of `scalarToString`; beyond 63 bits the cast has no defined result. -/
def numberText (x : ℚ) : StdString :=
  let integer := towardZero x
  if (integer : ℚ) = x then intText integer else sixDecimals x

variable {integral fraction : List Char}

end Texts

inductive ExactScalar where
  | number (value : ℚ)
  | bool (value : Bool)
  | string (value : StdString)
  | size (count : Nat)
deriving DecidableEq

/-- `size` is a `std::size_t` or an index, printed as it is. -/
def ExactScalar.text : ExactScalar → StdString
  | number value => numberText value
  | bool value => (if value then "true" else "false").toList
  | string value => value
  | size count => decimal count

inductive ExactValue where
  | null
  | scalar (value : ExactScalar)
  | object (values : List (StdString × ExactValue))
  | array (values : List ExactValue)

abbrev ParamWrite := StdString × ExactScalar

def memberKey (key name : StdString) : StdString := if key = [] then name else key ++ '.' :: name

mutual

/-- `flattenV2Parameter`, with what it writes in order. -/
def parameterWrites (context : StdString) : ExactValue → StdString → Fallible (List ParamWrite)
  | .null, _ => .ok []
  | .object values, key => memberWrites context values key
  | .array values, key => do
    let writes ← itemWrites context values key 0
    return (key ++ ".count".toList, .size values.length) :: writes
  | .scalar value, key =>
    if key = [] then .error (context ++ " must be a JSON object".toList) else .ok [(key, value)]

def memberWrites (context : StdString) : List (StdString × ExactValue) → StdString → Fallible (List ParamWrite)
  | [], _ => .ok []
  | (name, value) :: members, key =>
    if name = [] ∨ '.' ∈ name then .error (context ++ " contains an unsupported parameter name".toList)
    else do
      let writes ← parameterWrites context value (memberKey key name)
      let later ← memberWrites context members key
      return writes ++ later

def itemWrites (context : StdString) : List ExactValue → StdString → Nat → Fallible (List ParamWrite)
  | [], _, _ => .ok []
  | value :: values, key, i => do
    let writes ← parameterWrites context value (key ++ '.' :: decimal i)
    let later ← itemWrites context values key (i + 1)
    return writes ++ later

end

def ParamWrite.apply (params : Params) (write : ParamWrite) : Params := params.set write.1 write.2.text

/-- A number literal in a document, with the key that its path stands for. -/
inductive NumberAt : ExactValue → StdString → StdString → ℚ → Prop where
  | here {key : StdString} {x : ℚ} : NumberAt (.scalar (.number x)) key key x
  | member {values : List (StdString × ExactValue)} {name key found : StdString} {value : ExactValue} {x : ℚ} :
      (name, value) ∈ values → NumberAt value (memberKey key name) found x → NumberAt (.object values) key found x
  | item {values : List ExactValue} {key found : StdString} {i : Nat} {value : ExactValue} {x : ℚ} :
      values[i]? = some value → NumberAt value (key ++ '.' :: decimal i) found x → NumberAt (.array values) key found x

section Loading

variable {context key : StdString} {parameters : List (StdString × ExactValue)} {bound writes : List ParamWrite}
  {params after : Params} {x : ℚ}

theorem memberWrites_mem {values : List (StdString × ExactValue)} {start name : StdString} {value : ExactValue}
    (h : memberWrites context values start = .ok writes) (hMem : (name, value) ∈ values) :
    ∃ inner, parameterWrites context value (memberKey start name) = .ok inner ∧ inner ⊆ writes := by
  induction values generalizing writes with
  | nil => cases hMem
  | cons first values ih =>
    rw [memberWrites] at h
    split at h
    · cases h
    simp only [bind_ok_iff, pure_ok_iff] at h
    obtain ⟨inner, hInner, later, hLater, rfl⟩ := h
    obtain rfl | hRest := List.mem_cons.mp hMem
    · exact ⟨inner, hInner, List.subset_append_left _ _⟩
    · obtain ⟨found, hFound, hSubset⟩ := ih hLater hRest
      exact ⟨found, hFound, List.Subset.trans hSubset (List.subset_append_right _ _)⟩

theorem itemWrites_get {values : List ExactValue} {start : StdString} {i offset : Nat} {value : ExactValue}
    (h : itemWrites context values start offset = .ok writes) (hGet : values[i]? = some value) :
    ∃ inner, parameterWrites context value (start ++ '.' :: decimal (offset + i)) = .ok inner ∧ inner ⊆ writes := by
  induction values generalizing writes i offset with
  | nil => cases hGet
  | cons first values ih =>
    rw [itemWrites] at h
    simp only [bind_ok_iff, pure_ok_iff] at h
    obtain ⟨inner, hInner, later, hLater, rfl⟩ := h
    cases i with
    | zero =>
      obtain rfl : first = value := Option.some.inj hGet
      exact ⟨inner, hInner, List.subset_append_left _ _⟩
    | succ i =>
      obtain ⟨found, hFound, hSubset⟩ := ih hLater hGet
      rw [Nat.add_assoc, Nat.add_comm 1] at hFound
      exact ⟨found, hFound, List.Subset.trans hSubset (List.subset_append_right _ _)⟩

theorem NumberAt.written {value : ExactValue} {start : StdString} (h : NumberAt value start key x)
    (hWrites : parameterWrites context value start = .ok writes) : (key, .number x) ∈ writes := by
  induction h generalizing writes with
  | here =>
    rw [parameterWrites] at hWrites
    split at hWrites
    · cases hWrites
    · cases hWrites
      exact List.mem_singleton.mpr rfl
  | member hMem _ ih =>
    obtain ⟨inner, hInner, hSubset⟩ := memberWrites_mem hWrites hMem
    exact hSubset (ih hInner)
  | item hGet _ ih =>
    simp only [parameterWrites, bind_ok_iff, pure_ok_iff] at hWrites
    obtain ⟨later, hLater, rfl⟩ := hWrites
    obtain ⟨inner, hInner, hSubset⟩ := itemWrites_get hLater hGet
    rw [Nat.zero_add] at hInner
    exact List.mem_cons_of_mem _ (hSubset (ih hInner))

end Loading

end EdgeGateway.GraphEms
