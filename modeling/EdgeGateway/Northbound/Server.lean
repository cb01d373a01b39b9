import EdgeGateway.PointStore.System

/-! # The Modbus northbound server

A read looks up each register address for itself, numbered by its offset, so that other processes
can write between two lookups. Arithmetic on doubles is given from outside.
-/

namespace EdgeGateway.Northbound

open EdgeGateway.PointStore

abbrev Fallible := Except StdString

structure DoubleOps where
  /-- `std::abs(scale) < epsilon` -/
  isZeroScale : RawDouble → Bool
  /-- `(businessValue - offset) / scale` -/
  removeScale : RawDouble → RawDouble → RawDouble → RawDouble
  llround : RawDouble → Int
  /-- `std::abs(value) > 0.0` -/
  isNonZero : RawDouble → Bool
  floatBits : RawDouble → UInt32

structure ModbusNorthboundMappingConfig where
  enabled : Bool := true
  unitId : Int := 1
  readFunction : Int := 3
  address : Int := -1
  length : Int := 0
  dataType : StdString := []
  scale : RawDouble
  offset : RawDouble
  byteOrder : StdString := ['A', 'B']
  stalePolicy : StdString := "exception".toList
deriving DecidableEq

structure PointDefinition where
  index : UInt32
  pointCode : StdString
  enabled : Bool
  northbound : ModbusNorthboundMappingConfig
deriving DecidableEq

structure Mapping where
  point : PointDefinition
  config : ModbusNorthboundMappingConfig
deriving DecidableEq

structure AddressKey where
  unitId : Int
  function : Int
  address : Int
deriving DecidableEq

abbrev AddressMappings := AddressKey → Option Mapping

def isReadFunction (function : Int) : Bool := function == 1 || function == 2 || function == 3 || function == 4

def dataTypeRegisterLength (dataType : StdString) (fallback : Int) : Nat :=
  if dataType ∈ ["uint32".toList, "int32".toList, "float32".toList] then 2
  else if dataType ∈ ["uint64".toList, "int64".toList, "float64".toList, "double".toList] then 4
  else (max 1 fallback).toNat

def addAddress (point : PointDefinition) (mappings : AddressMappings) (offset : Nat) : Fallible AddressMappings :=
  let mapping := point.northbound
  let key : AddressKey := ⟨mapping.unitId, mapping.readFunction, mapping.address + offset⟩
  match mappings key with
  | some _ => .error ("duplicate northbound mapping unit/function/address: ".toList ++ (toString key.unitId).toList ++
      ['/'] ++ (toString key.function).toList ++ ['/'] ++ (toString key.address).toList)
  | none => .ok (Function.update mappings key (some ⟨point, mapping⟩))

def mappingSpan (mapping : ModbusNorthboundMappingConfig) : Nat :=
  if mapping.readFunction = 1 ∨ mapping.readFunction = 2 then 1
  else dataTypeRegisterLength mapping.dataType mapping.length

/-- The read function is checked as a byte and used as it is. -/
def addPointMapping (mappings : AddressMappings) (point : PointDefinition) : Fallible AddressMappings :=
  let mapping := point.northbound
  if !point.enabled || !mapping.enabled then .ok mappings
  else if !isReadFunction (mapping.readFunction % 256) then
    .error "northbound readFunction must be 1, 2, 3, or 4".toList
  else if mapping.address < 0 then
    .error ("northbound mapping address must be configured for point ".toList ++ point.pointCode)
  else (List.range (mappingSpan mapping)).foldlM (addAddress point) mappings

def buildMappings (points : List PointDefinition) : Fallible AddressMappings :=
  points.foldlM addPointMapping fun _ => none

def bigEndian (width : Nat) (value : Nat) : List UInt8 :=
  (List.range width).map fun i => UInt8.ofNat (value / 256 ^ (width - 1 - i))

def placeByte (size : Nat) (reordered : List UInt8) (entry : Char × UInt8) : Fallible (List UInt8) :=
  let (token, byte) := entry
  if token < 'A' ∨ size ≤ token.toNat - 'A'.toNat then .error "invalid northbound byteOrder token".toList
  else .ok (reordered.set (token.toNat - 'A'.toNat) byte)

def reorderBytesForEncode (canonicalBytes : List UInt8) (byteOrder : StdString) : Fallible (List UInt8) :=
  if byteOrder = [] then .ok canonicalBytes
  else if byteOrder.length ≠ canonicalBytes.length then
    .error "northbound byteOrder size does not match data width".toList
  else (byteOrder.zip canonicalBytes).foldlM (placeByte canonicalBytes.length)
    (List.replicate canonicalBytes.length 0)

def bytesToRegisters : List UInt8 → Fallible (List UInt16)
  | [] => .ok []
  | [_] => .error "northbound register bytes must be even".toList
  | high :: low :: rest => (bytesToRegisters rest).map ((high.toUInt16 <<< 8 ||| low.toUInt16) :: ·)

def canonicalBytes (ops : DoubleOps) (dataType : StdString) (rawValue : RawDouble) : Fallible (List UInt8) :=
  let rounded := ops.llround rawValue
  if dataType = "bit".toList ∨ dataType = "bool".toList then
    .ok (bigEndian 2 (if ops.isNonZero rawValue then 1 else 0))
  else if dataType = "uint16".toList ∨ dataType = [] ∨ dataType = "int16".toList then
    .ok (bigEndian 2 (rounded % 2 ^ 16).toNat)
  else if dataType = "uint32".toList ∨ dataType = "int32".toList then .ok (bigEndian 4 (rounded % 2 ^ 32).toNat)
  else if dataType = "uint64".toList ∨ dataType = "int64".toList then .ok (bigEndian 8 (rounded % 2 ^ 64).toNat)
  else if dataType = "float32".toList then .ok (bigEndian 4 (ops.floatBits rawValue).toNat)
  else if dataType = "float64".toList ∨ dataType = "double".toList then .ok (bigEndian 8 rawValue.toNat)
  else .error ("unsupported northbound dataType: ".toList ++ dataType)

def encodeNumericRegisters (ops : DoubleOps) (businessValue : RawDouble) (mapping : ModbusNorthboundMappingConfig) :
    Fallible (List UInt16) := do
  if ops.isZeroScale mapping.scale then throw "northbound scale must not be zero".toList
  let rawValue := ops.removeScale businessValue mapping.offset mapping.scale
  let canonical ← canonicalBytes ops mapping.dataType rawValue
  let deviceBytes ← reorderBytesForEncode canonical mapping.byteOrder
  bytesToRegisters deviceBytes

def zeroRegistersForMapping (mapping : Mapping) : List UInt16 :=
  List.replicate (dataTypeRegisterLength mapping.config.dataType mapping.config.length) 0

def encodeRegistersForMapping (ops : DoubleOps) (mapping : Mapping) (latest : Option StoredPointValue) :
    Fallible (List UInt16) :=
  match latest with
  | none =>
    if mapping.config.stalePolicy = "zero".toList then .ok (zeroRegistersForMapping mapping)
    else .error "northbound mapped point is stale or missing".toList
  | some value =>
    if value.quality ≠ 1 ∨ value.stale then
      if mapping.config.stalePolicy = "zero".toList then .ok (zeroRegistersForMapping mapping)
      else if mapping.config.stalePolicy = "last_value".toList then encodeNumericRegisters ops value.value mapping.config
      else .error "northbound mapped point is stale or missing".toList
    else encodeNumericRegisters ops value.value mapping.config

def kIllegalDataAddress : UInt8 := 0x02
def kIllegalDataValue : UInt8 := 0x03
def kServerDeviceFailure : UInt8 := 0x04

structure ModbusNorthboundServer where
  points : List PointDefinition
  maxReadRegisters : Int := 125
  addressMappings : AddressMappings
  built : buildMappings points = .ok addressMappings

structure ReadRequest where
  unitId : UInt8
  function : UInt8
  start : UInt16
  count : UInt16

def ReadRequest.key (request : ReadRequest) (offset : Nat) : AddressKey :=
  ⟨request.unitId.toNat, request.function.toNat, request.start.toNat + offset⟩

inductive ReadResponse where
  | exception (function code : UInt8)
  | registers (function : UInt8) (values : List UInt16)
deriving DecidableEq

def ReadResponse.bytes : ReadResponse → List UInt8
  | .exception function code => [function ||| 0x80, code]
  | .registers function values =>
    function :: UInt8.ofNat (values.length * 2) :: values.flatMap fun (value : UInt16) => [(value >>> 8).toUInt8, value.toUInt8]

abbrev Lookups := Nat → UInt32 → Option StoredPointValue

def readRegister (ops : DoubleOps) (server : ModbusNorthboundServer) (lookups : Lookups) (request : ReadRequest)
    (offset : Nat) : Except UInt8 UInt16 :=
  match server.addressMappings (request.key offset) with
  | none => .error kIllegalDataAddress
  | some mapping =>
    match encodeRegistersForMapping ops mapping (lookups offset mapping.point.index) with
    | .error _ => .error kServerDeviceFailure
    | .ok encoded =>
      let relative := (request.key offset).address - mapping.config.address
      if relative < 0 then .error kIllegalDataAddress
      else match encoded[relative.toNat]? with
        | none => .error kIllegalDataAddress
        | some register => .ok register

def readLoop (ops : DoubleOps) (server : ModbusNorthboundServer) (lookups : Lookups) (request : ReadRequest) :
    List Nat → Except UInt8 (List UInt16)
  | [] => .ok []
  | offset :: offsets => do
    let register ← readRegister ops server lookups request offset
    let rest ← readLoop ops server lookups request offsets
    return register :: rest

def handleRegisterRead (ops : DoubleOps) (server : ModbusNorthboundServer) (lookups : Lookups) (request : ReadRequest) :
    ReadResponse :=
  if request.count = 0 ∨ server.maxReadRegisters < request.count.toNat then .exception request.function kIllegalDataValue
  else match readLoop ops server lookups request (List.range request.count.toNat) with
    | .error code => .exception request.function code
    | .ok values => .registers request.function values

section Interleaving

universe u

variable {H : Type u} [DecidableEq H]

/-- The calls of `putLatest` that land before the lookup of each offset and after the one before it. -/
abbrev Interleaving (H : Type u) := Nat → List (H × PointValue)

def putEvents (puts : Interleaving H) (count : Nat) : List (StoreEvent H) :=
  (List.range count).flatMap fun n => (puts n).map fun put => .putLatest put.1 put.2

def systemAt (ownerId : H → UInt64) (s : System H) (puts : Interleaving H) (offset : Nat) : System H :=
  Run.after (System.step ownerId) s (putEvents puts (offset + 1))

def read (s : System H) (me : H) (nowMs : Int) (index : UInt32) : Option StoredPointValue :=
  (s.stores me).bind fun store => store.getLatestByIndex s.layout index nowMs

def lookupsDuring (ownerId : H → UInt64) (s : System H) (puts : Interleaving H) (me : H) (nowMs : Int) : Lookups :=
  fun offset index => read (systemAt ownerId s puts offset) me nowMs index

end Interleaving

end EdgeGateway.Northbound
