import EdgeGateway.Foundation.Numerals
import EdgeGateway.Models

/-! # The text of a command

A field is searched for by its quoted name from the beginning. Numbers go through a double; what a
conversion outside of its type gives is left to the platform.
-/

namespace EdgeGateway.MqttDriver

open QuotedText Numerals

structure MqttCommandRequest where
  cmdId : StdString
  machineCode : StdString
  meterCode : StdString
  pointCode : StdString
  index : UInt32
  value : RawDouble
  source : StdString
  ts : Int
  highPriority : Bool
deriving DecidableEq, Repr

inductive CommandError where
  | cmdIdRequired
  | indexRequired
  | valueRequired
deriving DecidableEq, Repr

def CommandError.what : CommandError → StdString
  | .cmdIdRequired => "command cmdId is required".toList
  | .indexRequired => "command index is required".toList
  | .valueRequired => "command value is required".toList

/-- What the platform makes of a double that the integer type does not hold. -/
structure Casts where
  uint32 : RawDouble → UInt32
  int64 : RawDouble → Int

namespace Casts

variable (casts : Casts)

def whole (value : RawDouble) : Int := (signedUnits value).tdiv (2 ^ 1074)

def toUInt32 (value : RawDouble) : UInt32 :=
  if 0 ≤ whole value ∧ whole value < 2 ^ 32 then UInt32.ofNat (whole value).toNat else casts.uint32 value

def toInt64 (value : RawDouble) : Int := if IsInt64 (whole value) then whole value else casts.int64 value

end Casts

namespace FlatJsonReader

variable (casts : Casts) (text key : StdString)

def findKey : Option StdString :=
  match after (quoted key) text with
  | none => none
  | some rest =>
    match skipWhitespace rest with
    | ':' :: value => some value
    | _ => none

def unescape : Char → Option Char
  | '"' => some '"'
  | '\\' => some '\\'
  | '/' => some '/'
  | 'b' => some '\x08'
  | 'f' => some '\x0c'
  | 'n' => some '\n'
  | 'r' => some '\r'
  | 't' => some '\t'
  | _ => none

/-- A string up to its closing quote; any other escape ends the attempt. -/
def scanContent : StdString → Option StdString
  | [] => none
  | '"' :: _ => some []
  | ['\\'] => none
  | '\\' :: esc :: rest =>
    match unescape esc with
    | none => none
    | some ch => (scanContent rest).map (ch :: ·)
  | ch :: rest => (scanContent rest).map (ch :: ·)

def tryGetString : Option StdString :=
  match findKey text key with
  | none => none
  | some value =>
    match skipWhitespace value with
    | '"' :: body => scanContent body
    | _ => none

def skipSign : StdString → StdString
  | '-' :: rest => rest
  | '+' :: rest => rest
  | rest => rest

def skipFraction : StdString → StdString
  | '.' :: rest => rest.dropWhile Char.isDigit
  | rest => rest

def skipExponent : StdString → StdString
  | [] => []
  | ch :: rest => if ch = 'e' ∨ ch = 'E' then (skipSign rest).dropWhile Char.isDigit else ch :: rest

def skipNumber (text : StdString) : StdString := skipExponent (skipFraction ((skipSign text).dropWhile Char.isDigit))

/-- The cursor has to move; the conversion then starts again where the number does. -/
def tryGetDouble : Option RawDouble :=
  match findKey text key with
  | none => none
  | some value =>
    let start := skipWhitespace value
    if skipNumber start = start then none else some (((strtod start).map Prod.fst).getD 0)

def tryGetUInt32 : Option UInt32 :=
  match tryGetDouble text key with
  | none => none
  | some value => if less value 0 then none else some (casts.toUInt32 value)

def tryGetInt64 : Option Int := (tryGetDouble text key).map casts.toInt64

def boolWord (word : StdString) : Option Bool :=
  if word = "true".toList ∨ word = "1".toList ∨ word = "yes".toList ∨ word = "high".toList then some true
  else if word = "false".toList ∨ word = "0".toList ∨ word = "no".toList ∨ word = "normal".toList then some false
  else none

def tryGetBool : Option Bool :=
  match findKey text key with
  | none => none
  | some value =>
    let start := skipWhitespace value
    if "true".toList.isPrefixOf start then some true
    else if "false".toList.isPrefixOf start then some false
    else if start.head? = some '"' then
      match tryGetString text key with
      | none => none
      | some word => boolWord (word.map Char.toLower)
    else (tryGetDouble text key).map fun number => !(units number == 0)

end FlatJsonReader

open FlatJsonReader

def parseCommandRequest (casts : Casts) (payload : StdString) : Except CommandError MqttCommandRequest :=
  let cmdId := (tryGetString payload "cmdId".toList).getD []
  if cmdId = [] then .error .cmdIdRequired
  else
    let index := (tryGetUInt32 casts payload "index".toList).getD 0
    if index = 0 then .error .indexRequired
    else
      match tryGetDouble payload "value".toList with
      | none => .error .valueRequired
      | some value =>
        let source := (tryGetString payload "source".toList).getD []
        .ok
          { cmdId := cmdId
            machineCode := (tryGetString payload "machineCode".toList).getD []
            meterCode := (tryGetString payload "meterCode".toList).getD []
            pointCode := (tryGetString payload "pointCode".toList).getD []
            index := index
            value := value
            source := if source = [] then "mqtt".toList else source
            ts := (tryGetInt64 casts payload "ts".toList).getD 0
            highPriority :=
              (((tryGetBool payload "highPriority".toList).or (tryGetBool payload "priority".toList)).or
                (tryGetBool payload "priorityControl".toList)).getD false }

end EdgeGateway.MqttDriver
