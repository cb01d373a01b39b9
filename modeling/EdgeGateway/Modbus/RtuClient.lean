import EdgeGateway.Modbus.TcpClient

/-! # The Modbus RTU client

A transaction sends a request and collects what the line brings until a frame can be taken. An
attempt is the list of chunks that come before its deadline.
-/

namespace EdgeGateway.Modbus.ModbusRtuClient

def crcShift (crc : UInt16) : UInt16 := if crc &&& 1 ≠ 0 then (crc >>> 1) ^^^ 0xA001 else crc >>> 1

def crcByte (crc : UInt16) (byte : UInt8) : UInt16 := crcShift^[8] (crc ^^^ byte.toUInt16)

def crc16 (bytes : List UInt8) : UInt16 := bytes.foldl crcByte 0xFFFF

/-- A second copy of `crc16`. -/
def frameCrc16 (bytes : List UInt8) : UInt16 := bytes.foldl crcByte 0xFFFF

def appendCrc (frame : List UInt8) : List UInt8 := frame ++ [lowByte (crc16 frame), highByte (crc16 frame)]

def receivedCrc (frame : List UInt8) : UInt16 := word (frame.getD (frame.length - 1) 0) (frame.getD (frame.length - 2) 0)

def validateCrc (frame : List UInt8) : Except String Unit :=
  if frame.length < 4 then .error "frame too short for crc"
  else if crc16 (frame.take (frame.length - 2)) ≠ receivedCrc frame then .error "modbus crc mismatch"
  else .ok ()

def hasValidCrc (frame : List UInt8) : Bool :=
  if frame.length < 4 then false else frameCrc16 (frame.take (frame.length - 2)) == receivedCrc frame

def isReadFunction (function : UInt8) : Bool := function = 0x01 ∨ function = 0x02 ∨ function = 0x03 ∨ function = 0x04

def isWriteFunction (function : UInt8) : Bool := function = 0x05 ∨ function = 0x06 ∨ function = 0x10

def expectedResponseSize (function : UInt8) (response : List UInt8) (fallbackMinSize : Nat) : Nat :=
  if response.length ≥ 2 ∧ response.getD 1 0 &&& 0x80 ≠ 0 then 5
  else if isReadFunction function ∧ response.length ≥ 3 then (response.getD 2 0).toNat + 5
  else if isWriteFunction function then 8
  else fallbackMinSize

def isExceptionResponse (response : List UInt8) (function : UInt8) : Bool :=
  response.length = 5 ∧ response.getD 1 0 = function ||| 0x80

def isCompleteResponse (response : List UInt8) (function : UInt8) (minResponseSize : Nat) : Bool :=
  response.length ≥ minResponseSize ∨ isExceptionResponse response function

structure Extraction where
  frame : Option (List UInt8)
  buffer : List UInt8
deriving DecidableEq, Repr

section Extract

variable (slave function : UInt8) (minResponseSize : Nat)

/-- The loop of `tryExtractResponseFrame`; without a result it has not ended within the given rounds. -/
def extractLoop : Nat → List UInt8 → Option Extraction
  | 0, _ => none
  | rounds + 1, buffer =>
    if buffer.length < 2 then some ⟨none, buffer⟩
    else
      match buffer.dropWhile (· ≠ slave) with
      | [] => some ⟨none, []⟩
      | [start] => some ⟨none, [start]⟩
      | start :: responseFunction :: rest =>
        let buffer := start :: responseFunction :: rest
        if responseFunction ≠ function ∧ responseFunction ≠ function ||| 0x80 then
          extractLoop rounds (responseFunction :: rest)
        else
          let expectedSize := expectedResponseSize function buffer minResponseSize
          if buffer.length < expectedSize then some ⟨none, buffer⟩
          else if isReadFunction function ∧ responseFunction &&& 0x80 = 0 ∧ expectedSize ≠ minResponseSize then
            extractLoop rounds (responseFunction :: rest)
          else if hasValidCrc (buffer.take expectedSize) then
            some ⟨some (buffer.take expectedSize), buffer.drop expectedSize⟩
          else extractLoop rounds (responseFunction :: rest)

def tryExtractResponseFrame (buffer : List UInt8) : Option Extraction :=
  extractLoop slave function minResponseSize (buffer.length + 1) buffer

/-- The inner loop of `transact`: each chunk that is not empty is appended and a frame looked for. -/
def receiveLoop : List (List UInt8) → List UInt8 → Option Extraction
  | [], buffer => some ⟨none, buffer⟩
  | chunk :: chunks, buffer =>
    if chunk = [] then receiveLoop chunks buffer
    else
      match tryExtractResponseFrame slave function minResponseSize (buffer ++ chunk) with
      | none => none
      | some ⟨some frame, rest⟩ => some ⟨some frame, rest⟩
      | some ⟨none, rest⟩ => receiveLoop chunks rest

end Extract

def registerReadSize (count : Nat) : Nat := 5 + count * 2

def writeSize : Nat := 8

def checkResponse (slave function : UInt8) (response : List UInt8) : Except String (List UInt8) :=
  match validateCrc response with
  | .error message => .error message
  | .ok () =>
    if response.getD 0 0 ≠ slave then .error "modbus slave mismatch"
    else if response.getD 1 0 = function ||| 0x80 then
      .error ("modbus exception code " ++ toString (response.getD 2 0).toNat)
    else if response.getD 1 0 ≠ function then .error "modbus function mismatch"
    else .ok response

/-- The attempts of `transact`, each with the chunks read in it. -/
def attemptLoop (slave function : UInt8) (minResponseSize : Nat) (sawResponseBytes : Bool) :
    List (List (List UInt8)) → Option (Except String (List UInt8))
  | [] => some (.error (if sawResponseBytes then "modbus response too short" else "modbus response timeout"))
  | chunks :: attempts =>
    match receiveLoop slave function minResponseSize chunks [] with
    | none => none
    | some extraction =>
      if isCompleteResponse (extraction.frame.getD []) function minResponseSize then
        some (checkResponse slave function (extraction.frame.getD []))
      else
        attemptLoop slave function minResponseSize (sawResponseBytes || chunks.any (· ≠ [])) attempts

def maxAttempts (function : UInt8) (readRetryCount : Int) : Nat :=
  if isReadFunction function then (max 1 (readRetryCount + 1)).toNat else 1

/-- `replies` gives the chunks of each attempt. Without a result the call does not return. -/
def transact (slave : Int) (function : UInt8) (minResponseSize : Nat) (readRetryCount : Int)
    (replies : Nat → List (List UInt8)) : Option (Except String (List UInt8)) :=
  if slave ≤ 0 ∨ slave > 247 then some (.error "slave must be in range 1..247")
  else
    attemptLoop (UInt8.ofNat slave.toNat) function minResponseSize false
      ((List.range (maxAttempts function readRetryCount)).map replies)

end EdgeGateway.Modbus.ModbusRtuClient
