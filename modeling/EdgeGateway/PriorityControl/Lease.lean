import EdgeGateway.Foundation.QuotedText
import EdgeGateway.Models

/-! # The priority control lease

A controller that takes priority installs a lease file naming itself and its
command; the others wait until the file is gone or has expired.
-/

namespace EdgeGateway.PriorityControl

open QuotedText

structure PriorityControlLeaseState where
  owner : StdString
  cmdId : StdString
  meterCode : StdString
  index : UInt32
  createdAtMs : Int
  expireAtMs : Int
deriving DecidableEq, Repr

def escapeJsonChar (ch : Char) : StdString :=
  match ch with
  | '\\' => ['\\', '\\']
  | '"' => ['\\', '"']
  | '\n' => ['\\', 'n']
  | '\r' => ['\\', 'r']
  | '\t' => ['\\', 't']
  | _ => [ch]

def escapeJson (value : StdString) : StdString := value.flatMap escapeJsonChar

def readTextFile (file : Option StdString) (maxBytes : Nat) : StdString :=
  match file with
  | none => []
  | some text => if text.length > maxBytes then [] else text

def extractInt64Field (text key : StdString) (fallback : Int) : Int :=
  (((after (quoted key) text).bind afterColon).bind scanInt64).getD fallback

def extractUInt32Field (text key : StdString) (fallback : UInt32) : UInt32 :=
  let value := extractInt64Field text key fallback.toNat
  if value < 0 then fallback else UInt32.ofNat value.toNat

def extractStringField (text key : StdString) : StdString := stringMember key text

def leaseText (state : PriorityControlLeaseState) : StdString :=
  "\x7b\"owner\":\"".toList ++ escapeJson state.owner ++
    "\",\"cmdId\":\"".toList ++ escapeJson state.cmdId ++
    "\",\"meterCode\":\"".toList ++ escapeJson state.meterCode ++
    "\",\"index\":".toList ++ intText state.index.toNat ++
    ",\"createdAtMs\":".toList ++ intText state.createdAtMs ++
    ",\"expireAtMs\":".toList ++ intText state.expireAtMs ++ "\x7d".toList

inductive AcquireError where
  | write
  | flush
  | install
deriving DecidableEq, Repr

def AcquireError.message : AcquireError → String
  | .write => "failed to write priority control lease"
  | .flush => "failed to flush priority control lease"
  | .install => "failed to install priority control lease"

structure Outcome where
  opened : Bool
  flushed : Bool
  renamed : Bool
  locked : Bool
  read : Bool
  unlinked : Bool
deriving DecidableEq, Repr

structure PriorityControlLease where
  path : StdString
  owner : StdString
deriving DecidableEq, Repr

namespace PriorityControlLease

variable (self : PriorityControlLease) (io : Outcome) (file : Option StdString)

def enabled : Bool := !self.path.isEmpty

def activeLease (nowMs : Int) : Option PriorityControlLeaseState :=
  if !self.enabled then none
  else
    let text := readTextFile file (16 * 1024)
    if text = [] then none
    else
      let expireAtMs := extractInt64Field text "expireAtMs".toList 0
      if expireAtMs ≤ nowMs then none
      else some
        { owner := extractStringField text "owner".toList
          cmdId := extractStringField text "cmdId".toList
          meterCode := extractStringField text "meterCode".toList
          index := extractUInt32Field text "index".toList 0
          createdAtMs := extractInt64Field text "createdAtMs".toList 0
          expireAtMs := expireAtMs }

def isBlocked (nowMs : Int) (owner : StdString) : Bool :=
  match self.activeLease file nowMs with
  | none => false
  | some lease =>
    let currentOwner := if owner = [] then self.owner else owner
    lease.owner.isEmpty || lease.owner ≠ currentOwner

def leaseFor (cmdId meterCode : StdString) (index : UInt32) (nowMs ttlMs : Int) : PriorityControlLeaseState where
  owner := self.owner
  cmdId := cmdId
  meterCode := meterCode
  index := index
  createdAtMs := nowMs
  expireAtMs := nowMs + ttlMs

def acquire (cmdId meterCode : StdString) (index : UInt32) (nowMs ttlMs : Int) :
    Except AcquireError Unit × Option StdString :=
  if !self.enabled then (.ok (), file)
  else if !io.opened then (.error .write, file)
  else if !io.flushed then (.error .flush, file)
  else if !io.renamed then (.error .install, file)
  else (.ok (), some (leaseText (self.leaseFor cmdId meterCode index nowMs ttlMs)))

/-- The buffer of `release` holds one byte less than its 16 KiB. -/
def readBuffer (text : StdString) : StdString := text.take (16 * 1024 - 1)

/-- Whether `release` goes on to unlink the path; a file it could not read does not stop it. -/
def releaseMatches (text cmdId : StdString) : Bool :=
  cmdId.isEmpty || !io.read || (readBuffer text).isEmpty ||
    extractStringField (readBuffer text) "cmdId".toList = cmdId

def release (cmdId : StdString) : Option StdString :=
  if !self.enabled then file
  else
    match file with
    | none => none
    | some text =>
      if !io.opened then file
      else if !io.locked then file
      else if releaseMatches io text cmdId && io.unlinked then none
      else file

end PriorityControlLease

end EdgeGateway.PriorityControl
