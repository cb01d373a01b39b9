import EdgeGateway.Foundation.QuotedText
import EdgeGateway.Models

/-! # The power-control ownership lease

One lease file per path, read and rewritten under the lock file beside it. The
state it holds counts only while it names an owner and its expiry is ahead.
-/

namespace EdgeGateway.PowerControl

open QuotedText

structure PowerControlOwnershipState where
  scope : StdString
  owner : StdString
  sessionId : StdString
  targetIndexes : List UInt32
  heartbeatAtMs : Int
  expireAtMs : Int
deriving DecidableEq, Repr

/-- `std::stoul` on a number that is no `unsigned long`; no caller catches it. -/
inductive ParseError where
  | outOfRange
deriving DecidableEq, Repr

def escapeJson (value : StdString) : StdString :=
  value.flatMap fun ch => if ch = '\\' ∨ ch = '"' then ['\\', ch] else [ch]

def readText (file : Option StdString) : StdString :=
  match file with
  | none => []
  | some text => if text.length ≤ 64 * 1024 then text else []

def stringField (text key : StdString) : StdString := stringMember key text

def intField (text key : StdString) : Int :=
  match (after (quoted key) text).bind (after [':']) with
  | none => 0
  | some value => (scanInt64 (skipWhitespace value)).getD 0

/-- The loop of `indexArray` between the brackets; every round consumes a character. -/
def indexLoop : Nat → StdString → Except ParseError (List UInt32)
  | 0, _ => .ok []
  | fuel + 1, text =>
    match skipWhitespace text with
    | ',' :: rest => indexLoop fuel rest
    | item =>
      if item.takeWhile Char.isDigit = [] then .ok []
      else if 2 ^ 64 ≤ Nat.ofDigitChars 10 (item.takeWhile Char.isDigit) 0 then .error .outOfRange
      else do
        let rest ← indexLoop fuel (item.dropWhile Char.isDigit)
        return UInt32.ofNat (Nat.ofDigitChars 10 (item.takeWhile Char.isDigit) 0) :: rest

def readIndexes (text : StdString) : Except ParseError (List UInt32) := indexLoop text.length text

def indexArray (text : StdString) : Except ParseError (List UInt32) :=
  match (after (quoted "targetIndexes".toList) text).bind (after ['[']) with
  | none => .ok []
  | some list => if ']' ∈ list then readIndexes (list.takeWhile (· ≠ ']')) else .ok []

def parseState (text : StdString) (nowMs : Int) : Except ParseError (Option PowerControlOwnershipState) :=
  if text = [] then .ok none
  else do
    let targetIndexes ← indexArray text
    let state : PowerControlOwnershipState :=
      { scope := stringField text "scope".toList
        owner := stringField text "owner".toList
        sessionId := stringField text "sessionId".toList
        targetIndexes := targetIndexes
        heartbeatAtMs := intField text "heartbeatAtMs".toList
        expireAtMs := intField text "expireAtMs".toList }
    return if state.owner = [] ∨ state.expireAtMs ≤ nowMs then none else some state

def indexText (index : UInt32) : StdString := Nat.toDigits 10 index.toNat

def indexesText (indexes : List UInt32) : StdString := [','].intercalate (indexes.map indexText)

def stateText (state : PowerControlOwnershipState) : StdString :=
  "\x7b\"scope\":\"".toList ++ escapeJson state.scope ++
    "\",\"owner\":\"".toList ++ escapeJson state.owner ++
    "\",\"sessionId\":\"".toList ++ escapeJson state.sessionId ++
    "\",\"heartbeatAtMs\":".toList ++ intText state.heartbeatAtMs ++
    ",\"expireAtMs\":".toList ++ intText state.expireAtMs ++
    ",\"targetIndexes\":[".toList ++ indexesText state.targetIndexes ++ "]\x7d".toList

def grantedState (scope owner sessionId : StdString) (indexes : List UInt32) (nowMs ttlMs : Int) :
    PowerControlOwnershipState where
  scope := scope
  owner := owner
  sessionId := sessionId
  targetIndexes := indexes
  heartbeatAtMs := nowMs
  expireAtMs := nowMs + max 1 ttlMs

structure Outcome where
  locked : Bool
  opened : Bool
  flushed : Bool
  renamed : Bool
  removed : Bool
deriving DecidableEq, Repr

def writeState (io : Outcome) (file : Option StdString) (scope owner sessionId : StdString)
    (indexes : List UInt32) (nowMs ttlMs : Int) : Bool × Option StdString :=
  if !io.opened then (false, file)
  else if !io.flushed || !io.renamed then (false, file)
  else (true, some (stateText (grantedState scope owner sessionId indexes nowMs ttlMs)))

structure PowerControlOwnership where
  path : StdString
  owner : StdString
deriving DecidableEq, Repr

namespace PowerControlOwnership

variable (self : PowerControlOwnership) (io : Outcome) (file : Option StdString)

def enabled : Bool := !self.path.isEmpty

def active (nowMs : Int) : Except ParseError (Option PowerControlOwnershipState) :=
  if !self.enabled then .ok none
  else if io.locked then parseState (readText file) nowMs
  else .ok none

def isBlocked (index : UInt32) (source : StdString) (nowMs : Int) : Except ParseError Bool := do
  let state ← self.active io file nowMs
  return state.any fun state => state.owner ≠ source && state.targetIndexes.contains index

def acquire (scope sessionId : StdString) (targetIndexes : List UInt32) (nowMs ttlMs : Int) :
    Except ParseError Bool × Option StdString :=
  if !self.enabled then (.ok true, file)
  else if !io.locked then (.ok false, file)
  else
    match parseState (readText file) nowMs with
    | .error error => (.error error, file)
    | .ok current =>
      if current.any fun current => current.owner ≠ self.owner || current.sessionId ≠ sessionId then
        (.ok false, file)
      else
        (writeState io file scope self.owner sessionId targetIndexes nowMs ttlMs).map .ok id

def renew (sessionId : StdString) (nowMs ttlMs : Int) : Except ParseError Bool × Option StdString :=
  if !self.enabled then (.ok true, file)
  else if !io.locked then (.ok false, file)
  else
    match parseState (readText file) nowMs with
    | .error error => (.error error, file)
    | .ok none => (.ok false, file)
    | .ok (some current) =>
      if current.owner = self.owner && current.sessionId = sessionId then
        (writeState io file current.scope self.owner sessionId current.targetIndexes nowMs ttlMs).map .ok id
      else (.ok false, file)

def release (sessionId : StdString) : Except ParseError Unit × Option StdString :=
  if !self.enabled then (.ok (), file)
  else if !io.locked then (.ok (), file)
  else
    match parseState (readText file) 0 with
    | .error error => (.error error, file)
    | .ok none => (.ok (), file)
    | .ok (some current) =>
      if current.owner = self.owner && (sessionId.isEmpty || current.sessionId = sessionId) then
        (.ok (), if io.removed then none else file)
      else (.ok (), file)

end PowerControlOwnership

end EdgeGateway.PowerControl
