import EdgeGateway.Foundation.Numerals
import EdgeGateway.Models

/-! # Documents of the graph editor

Parameters of a node are flattened to texts under dotted keys, and each port names one of these keys
by a JSON pointer.
-/

namespace EdgeGateway.GraphEms

open Numerals QuotedText

abbrev Fallible := Except StdString

def require (condition : Bool) (message : StdString) : Fallible Unit := if condition then .ok () else .error message

inductive JsonValue where
  | null
  | bool (value : Bool)
  | number (value : RawDouble)
  | string (value : StdString)
  | object (values : List (StdString × JsonValue))
  | array (values : List JsonValue)

abbrev JsonObject := List (StdString × JsonValue)

namespace JsonValue

def asBool : JsonValue → Fallible Bool
  | .bool value => .ok value
  | _ => .error "json value is not bool".toList

def asString : JsonValue → Fallible StdString
  | .string value => .ok value
  | _ => .error "json value is not string".toList

def asObject : JsonValue → Fallible JsonObject
  | .object values => .ok values
  | _ => .error "json value is not object".toList

end JsonValue

def findValue (object : JsonObject) (key : String) : Option JsonValue :=
  (object.find? fun entry => entry.1 == key.toList).map Prod.snd

def stringValue (object : JsonObject) (key : String) (defaultValue : StdString) : Fallible StdString :=
  match findValue object key with
  | none | some .null => .ok defaultValue
  | some value => value.asString

def boolValue (object : JsonObject) (key : String) (defaultValue : Bool) : Fallible Bool :=
  match findValue object key with
  | none | some .null => .ok defaultValue
  | some value => value.asBool

def objectArray (object : JsonObject) (key : String) (message : StdString) : Fallible (List JsonValue) :=
  match findValue object key with
  | some (.array values) => .ok values
  | _ => .error message

/-- The integer of a number between two bounds, as the `strict` readers take it. -/
def integerWithin (least greatest : Nat) (value : RawDouble) : Option Nat :=
  match wholeNumber value with
  | some n => if (least : Int) ≤ n ∧ n ≤ greatest then some n.toNat else none
  | none => none

def strictPositiveIndex (value : JsonValue) (context : StdString) : Fallible UInt32 :=
  match value with
  | .number number =>
    match integerWithin 1 (2 ^ 32 - 1) number with
    | some index => .ok (UInt32.ofNat index)
    | none => .error (context ++ " must be a positive integer index".toList)
  | _ => .error (context ++ " must be a positive integer index".toList)

def strictPositiveIntegerMember (object : JsonObject) (key : String) (maximum : Nat) (context : StdString) :
    Fallible Nat :=
  match findValue object key with
  | some (.number number) =>
    match integerWithin 1 maximum number with
    | some n => .ok n
    | none => .error (context ++ '.' :: key.toList ++ " is outside the supported range".toList)
  | _ => .error (context ++ '.' :: key.toList ++ " is required and must be an integer".toList)

def strictNodeOrder (object : JsonObject) (defaultValue : Nat) (context : StdString) : Fallible Nat :=
  match findValue object "order" with
  | none | some .null => .ok defaultValue
  | some (.number number) =>
    match integerWithin 0 (2 ^ 31 - 1) number with
    | some n => .ok n
    | none => .error (context ++ ".order must be a non-negative integer".toList)
  | _ => .error (context ++ ".order must be a non-negative integer".toList)

def normalizedToken (value : StdString) : StdString := (value.filter fun c => !isSpace c).map Char.toLower

def isSafeGraphIdentifier (value : StdString) : Bool :=
  decide (value.length ≤ 256) && (value.head?.any Char.isAlphanum) &&
    value.all fun c => c.isAlphanum || c == '_' || c == '-' || c == '.'

/-- A number outside of `long long` is printed as a double; the cast before it has no defined result. -/
def scalarToString : JsonValue → StdString
  | .string value => value
  | .bool value => (if value then "true" else "false").toList
  | .number value =>
    match wholeNumber value with
    | some n => if IsInt64 n then intText n else fixedText value
    | none => fixedText value
  | _ => []

def indexText (index : UInt32) : StdString := decimal index.toNat

def textLess : StdString → StdString → Bool
  | _, [] => false
  | [], _ :: _ => true
  | c :: left, d :: right => decide (c.toNat < d.toNat) || (c == d && textLess left right)

def unescapePointer : StdString → Option StdString
  | [] => some []
  | '~' :: '0' :: encoded => (unescapePointer encoded).map ('~' :: ·)
  | '~' :: '1' :: encoded => (unescapePointer encoded).map ('/' :: ·)
  | '~' :: _ => none
  | c :: encoded => (unescapePointer encoded).map (c :: ·)

def decodeJsonPointerSegment (context encoded : StdString) : Fallible StdString :=
  if encoded = [] then .error (context ++ " contains an empty JSON pointer segment".toList)
  else match unescapePointer encoded with
    | none => .error (context ++ " contains an invalid JSON pointer escape".toList)
    | some decoded =>
      if decoded = [] ∨ '.' ∈ decoded ∨ '\\' ∈ decoded then
        .error (context ++ " contains an unsupported JSON pointer segment".toList)
      else .ok decoded

def runtimePathToParamKey (runtimePath context : StdString) : Fallible StdString :=
  match runtimePath with
  | '/' :: path =>
    if path = [] then .error (context ++ ".runtimePath must be a non-empty JSON pointer".toList)
    else do
      let segments ← (path.splitOn '/').mapM (decodeJsonPointerSegment (context ++ ".runtimePath".toList))
      return ['.'].intercalate segments
  | _ => .error (context ++ ".runtimePath must be a non-empty JSON pointer".toList)

abbrev Params := List (StdString × StdString)

namespace Params

def find (params : Params) (key : StdString) : Option StdString :=
  (params.find? fun entry => entry.1 == key).map Prod.snd

def set (params : Params) (key value : StdString) : Params := (key, value) :: params.filter fun entry => entry.1 != key

theorem find_set (params : Params) (key value other : StdString) :
    (params.set key value).find other = if other = key then some value else params.find other := by
  unfold find set
  rw [List.find?_cons, List.find?_filter]
  by_cases hSame : other = key
  · simp [hSame]
  · have hFilter : (fun entry : StdString × StdString => decide ((entry.1 != key) = true ∧ (entry.1 == other) = true)) =
        fun entry => entry.1 == other := by
      funext entry
      by_cases hEntry : entry.1 = other
      · simp [hEntry, hSame]
      · simp [hEntry]
    have hKey : (key == other) = false := by simpa using Ne.symm hSame
    rw [hKey, hFilter, if_neg hSame]

end Params

mutual

def flattenV2Parameter (context : StdString) : JsonValue → StdString → Params → Fallible Params
  | .null, _, params => .ok params
  | .object values, key, params => flattenMembers context values key params
  | .array values, key, params =>
    flattenItems context values key 0 (params.set (key ++ ".count".toList) (decimal values.length))
  | .bool value, key, params => flattenScalar context (.bool value) key params
  | .number value, key, params => flattenScalar context (.number value) key params
  | .string value, key, params => flattenScalar context (.string value) key params

def flattenScalar (context : StdString) (value : JsonValue) (key : StdString) (params : Params) : Fallible Params :=
  if key = [] then .error (context ++ " must be a JSON object".toList) else .ok (params.set key (scalarToString value))

def flattenMembers (context : StdString) : List (StdString × JsonValue) → StdString → Params → Fallible Params
  | [], _, params => .ok params
  | (name, value) :: members, key, params =>
    if name = [] ∨ '.' ∈ name then .error (context ++ " contains an unsupported parameter name".toList)
    else do
      let params ← flattenV2Parameter context value (if key = [] then name else key ++ '.' :: name) params
      flattenMembers context members key params

def flattenItems (context : StdString) : List JsonValue → StdString → Nat → Params → Fallible Params
  | [], _, _, params => .ok params
  | value :: values, key, i, params => do
    let params ← flattenV2Parameter context value (key ++ '.' :: decimal i) params
    flattenItems context values key (i + 1) params

end

def parseV2Parameters (nodeObject : JsonObject) (context : StdString) : Fallible Params :=
  if (findValue nodeObject "params").isSome then .error (context ++ " uses legacy params; V2 requires parameters".toList)
  else match findValue nodeObject "parameters" with
    | none | some .null => .ok []
    | some (.object values) => flattenV2Parameter (context ++ ".parameters".toList) (.object values) [] []
    | some _ => .error (context ++ ".parameters must be a JSON object".toList)

/-- `std::stoul`, where `unsigned long` has 64 bits. -/
def stoul (text : StdString) : Fallible Nat := ((stoull text).map Prod.fst).elim (.error "stoul".toList) .ok

def currentCount (params : Params) (countKey : StdString) : Fallible Nat :=
  match params.find countKey with
  | none => .ok 0
  | some text => stoul text

/-- The element counts that the numeric segments of a key ask for. -/
def raiseCounts : List StdString → StdString → Params → Fallible Params
  | [], _, params => .ok params
  | segment :: segments, start, params => do
    let prefixed := if start = [] then segment else start ++ '.' :: segment
    if segment ≠ [] ∧ segment.all Char.isDigit ∧ start ≠ [] then
      let countKey := start ++ ".count".toList
      let last ← stoul segment
      let current ← currentCount params countKey
      raiseCounts segments prefixed (if current < last + 1 then params.set countKey (decimal (last + 1)) else params)
    else raiseCounts segments prefixed params

def materializeRuntimeParameter (params : Params) (parameterKey value : StdString) : Fallible Params :=
  raiseCounts (parameterKey.splitOn '.') [] (params.set parameterKey value)

def strictIndexString (value context : StdString) : Fallible UInt32 :=
  match stoull value with
  | some (n, []) =>
    if n = 0 ∨ 2 ^ 32 ≤ n then .error (context ++ " must contain a positive integer index".toList)
    else .ok (UInt32.ofNat n)
  | _ => .error (context ++ " must contain a positive integer index".toList)

inductive PortDirection where
  | input
  | output
  | target
deriving DecidableEq

inductive ValueType where
  | any
  | number
  | boolean
  | enum
  | power
  | soc
  | state
deriving DecidableEq

def ValueType.name : ValueType → String
  | .any => "any"
  | .number => "number"
  | .boolean => "boolean"
  | .enum => "enum"
  | .power => "power"
  | .soc => "soc"
  | .state => "state"

/-- A binding that passed its checks has an index or a constant, as its kind says. -/
inductive PortBinding where
  | point (index : UInt32)
  | automatic (index : UInt32)
  | constant (value : JsonValue)

structure GraphEmsV2Port where
  id : StdString
  direction : PortDirection
  valueType : ValueType
  unit : StdString
  parameterKey : StdString
  required : Bool
  binding : Option PortBinding

def GraphEmsV2Port.index (port : GraphEmsV2Port) : Option UInt32 :=
  match port.binding with
  | some (.point index) | some (.automatic index) => some index
  | _ => none

def GraphEmsV2Port.constant (port : GraphEmsV2Port) : Option StdString :=
  match port.binding with
  | some (.constant value) => some (scalarToString value)
  | _ => none

def parseDirection (text context : StdString) : Fallible PortDirection :=
  if normalizedToken text = "input".toList then .ok .input
  else if normalizedToken text = "output".toList then .ok .output
  else if normalizedToken text = "target".toList then .ok .target
  else .error (context ++ " has an unsupported direction".toList)

def parseValueType (text context : StdString) : Fallible ValueType :=
  match [ValueType.any, .number, .boolean, .enum, .power, .soc, .state].find? fun valueType =>
    valueType.name.toList == normalizedToken text with
  | some valueType => .ok valueType
  | none => .error (context ++ " has an unsupported valueType".toList)

def isNumericPortType : ValueType → Bool
  | .number | .power | .soc => true
  | _ => false

def asciiEqualsIgnoreCase (left right : StdString) : Bool := left.map Char.toLower == right.map Char.toLower

def compatibleV2Ports (source target : GraphEmsV2Port) : Bool :=
  (source.valueType == .any || target.valueType == .any || source.valueType == target.valueType ||
      (isNumericPortType source.valueType && isNumericPortType target.valueType)) &&
    (source.unit == [] || target.unit == [] || asciiEqualsIgnoreCase source.unit target.unit)

def parseBindingIndex (binding : JsonObject) (context : StdString) : Fallible (Option UInt32) :=
  match findValue binding "index" with
  | none | some .null => .ok none
  | some value => (strictPositiveIndex value (context ++ ".binding.index".toList)).map some

def parseBindingConstant (binding : JsonObject) (context : StdString) : Fallible (Option JsonValue) :=
  match findValue binding "constant" with
  | none | some .null => .ok none
  | some (.object _) | some (.array _) => .error (context ++ ".binding.constant must be a scalar value".toList)
  | some value => .ok (some value)

def constantBinding (index : Option UInt32) (constant : Option JsonValue) (context : StdString) :
    Fallible (Option PortBinding) :=
  match index, constant with
  | none, some value => .ok (some (.constant value))
  | _, _ => .error (context ++ " constant binding must contain only a constant value".toList)

def indexBinding (kind : UInt32 → PortBinding) (index : Option UInt32) (constant : Option JsonValue)
    (described : Bool) (context : StdString) : Fallible (Option PortBinding) :=
  match index, constant with
  | none, _ =>
    if described then .error (context ++ " has pointCode/semanticRole without a materialized binding.index".toList)
    else .error (context ++ " binding.index was not materialized".toList)
  | some _, some _ => .error (context ++ " index binding cannot also contain a constant".toList)
  | some index, none => .ok (some (kind index))

def parseBinding (portObject : JsonObject) (context : StdString) : Fallible (Option PortBinding) :=
  match findValue portObject "binding" with
  | none | some .null => .ok none
  | some (.object binding) => do
    let kind := normalizedToken (← stringValue binding "kind" [])
    require (kind == "point".toList || kind == "automatic".toList || kind == "constant".toList)
      (context ++ " has an unsupported binding kind".toList)
    let index ← parseBindingIndex binding context
    let constant ← parseBindingConstant binding context
    let pointCode ← stringValue binding "pointCode" []
    let semanticRole ← stringValue binding "semanticRole" []
    if kind = "constant".toList then constantBinding index constant context
    else
      indexBinding (if kind = "point".toList then .point else .automatic) index constant
        (pointCode != [] || semanticRole != []) context
  | some _ => .error (context ++ ".binding must be a JSON object".toList)

/-- What the parameters hold at the key of a port agrees with its binding. -/
def checkParameter (port : GraphEmsV2Port) (params : Params) (context : StdString) : Fallible Unit :=
  match params.find port.parameterKey, port.index, port.constant with
  | some text, some index, _ => do
    let existing ← strictIndexString text (context ++ ".parameters.".toList ++ port.parameterKey)
    require (existing == index) (context ++ " binding.index does not match node.parameters at runtimePath".toList)
  | some text, none, some constant =>
    require (text == constant) (context ++ " binding.constant does not match node.parameters at runtimePath".toList)
  | _, _, _ => .ok ()

def parseV2Port (portObject : JsonObject) (nodeId : StdString) (params : Params) : Fallible GraphEmsV2Port := do
  let id ← stringValue portObject "id" []
  let context := "node ".toList ++ nodeId ++ " port ".toList ++ id
  require (isSafeGraphIdentifier id) (context ++ " has an invalid id".toList)
  let direction ← parseDirection (← stringValue portObject "direction" []) context
  let valueType ← parseValueType (← stringValue portObject "valueType" "number".toList) context
  let unit ← stringValue portObject "unit" []
  let required ← boolValue portObject "required" true
  let parameterKey ← runtimePathToParamKey (← stringValue portObject "runtimePath" []) context
  let binding ← parseBinding portObject context
  let port : GraphEmsV2Port := { id, direction, valueType, unit, parameterKey, required, binding }
  checkParameter port params context
  return port

end EdgeGateway.GraphEms
