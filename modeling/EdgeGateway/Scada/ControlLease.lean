import EdgeGateway.Foundation.Numerals
import EdgeGateway.Models

/-! # The control lease of the upper computer

Commands need a fresh lease where the topology asks for one. The three files are searched for quoted
keys; one that cannot be read counts as empty.
-/

namespace EdgeGateway.Scada

open QuotedText Numerals

theorem after_length {needle text rest : List Char} (h : after needle text = some rest) :
    rest.length + needle.length ≤ text.length := by
  induction text with
  | nil =>
    rw [after] at h
    split at h
    · rename_i hPrefix
      rw [← Option.some.inj h]
      exact (Nat.zero_add _).le.trans (List.isPrefixOf_iff_prefix.mp hPrefix).length_le
    · cases h
  | cons c text ih =>
    rw [after] at h
    split at h
    · rename_i hPrefix
      have hLength := (List.isPrefixOf_iff_prefix.mp hPrefix).length_le
      rw [← Option.some.inj h, List.length_drop]
      omega
    · exact (ih h).trans (Nat.le_succ _)

namespace ScadaControlLease

def isBlank (c : Char) : Bool := c == ' ' || c == '\t' || c == '\r' || c == '\n'

def valueBehind (rest : StdString) : Option StdString :=
  match after [':'] rest with
  | none => none
  | some value =>
    match value.dropWhile isBlank with
    | [] => none
    | value => some value

def valueText (text key : StdString) : Option StdString := (after (quoted key) text).bind valueBehind

def quotedValue : Option StdString → StdString
  | some ('"' :: value) => if '"' ∈ value then value.takeWhile (· ≠ '"') else []
  | _ => []

def stringValue (text key : StdString) : StdString := quotedValue (valueText text key)

def boolValue (text key : StdString) (fallback : Bool) : Bool :=
  match valueText text key with
  | none => fallback
  | some value =>
    if "true".toList.isPrefixOf value then true else if "false".toList.isPrefixOf value then false else fallback

/-- `std::strtoll`, which stops at the ends of its range. -/
def saturated (n : Int) : Int := max (-2 ^ 63) (min n (2 ^ 63 - 1))

def int64Value (text key : StdString) (fallback : Int) : Int :=
  match (valueText text key).bind scanInteger with
  | none => fallback
  | some (negative, n, _) => saturated (if negative then -n else n)

def containsMachineCode (nodes machineCode : StdString) : Bool :=
  match _ : after (quoted "machineCode".toList) nodes with
  | none => false
  | some rest => quotedValue (valueBehind rest) == machineCode || containsMachineCode rest machineCode
termination_by nodes.length
decreasing_by
  rename_i hFound
  have hLength := after_length hFound
  have hKey : (quoted "machineCode".toList).length = 13 := by decide
  omega

/-- Whether the command may pass, and the message of the check. -/
def isFresh (topologyFile nodesFile leaseFile : Option StdString) (machineCode : StdString) (nowMs : Int) :
    Bool × StdString :=
  let topology := topologyFile.getD []
  if topology = [] then (false, "SCADA topology is unavailable".toList)
  else if stringValue topology "mode".toList ≠ "upperComputer".toList ∨
      boolValue topology "requireFreshLeaseForControl".toList true = false then
    (true, "fresh upper-computer lease is not required".toList)
  else if !containsMachineCode (nodesFile.getD []) machineCode then
    (false, "SCADA project does not contain this machineCode".toList)
  else
    let timeoutMs := int64Value topology "timeoutMs".toList 10000
    let lease := leaseFile.getD []
    let updatedAtMs := int64Value lease "updatedAtMs".toList 0
    if stringValue lease "machineCode".toList ≠ machineCode ∨ updatedAtMs ≤ 0 ∨ nowMs < updatedAtMs ∨
        nowMs - updatedAtMs > timeoutMs then
      (false, "SCADA upper-computer control lease is missing or expired".toList)
    else (true, "SCADA upper-computer control lease is fresh".toList)

end ScadaControlLease

end EdgeGateway.Scada
