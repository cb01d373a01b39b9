import EdgeGateway.Modbus.CommandExecutor
import EdgeGateway.Modbus.RegisterRoundTrip
import EdgeGateway.PointStore.Claims

/-! # Where a command goes -/

namespace EdgeGateway.Modbus

open Fallible CommandExecutor

section Writes

variable {K : Type} {client : Client K} {config : DeviceConfig K} {point : PointDefinition K} {writes : List (DeviceWrite K)}

theorem issueAll_start (client : Client K) (writes : List (DeviceWrite K)) : (issueAll client writes).1 <+: writes := by
  induction writes with
  | nil => exact List.prefix_refl _
  | cons write rest ih =>
    rw [issueAll]
    split
    · exact ⟨rest, rfl⟩
    · exact List.prefix_cons_inj write |>.mpr ih

theorem issueAll_ne_nil (hSome : writes ≠ []) : (issueAll client writes).1 ≠ [] := by
  cases writes with
  | nil => exact absurd rfl hSome
  | cons write rest =>
    rw [issueAll]
    split <;> exact List.cons_ne_nil _ _

def writeTarget (config : DeviceConfig K) (point : PointDefinition K) : WriteTarget :=
  if isLocalDio config then .gpio point.read.gpio else .modbus config.protocol.slave (writeAddressOf point)

def resolve (config : DeviceConfig K) (index : UInt32) : Except CommandFault (PointDefinition K) :=
  findPointByIndex config index >>= fun point => findPoint config point.pointCode

theorem dispatchWrite_address {encoded : List (BitVec 16)} {write : DeviceWrite K}
    (hDispatch : dispatchWrite client config point encoded = .ok write) :
    write.target = .modbus config.protocol.slave (writeAddressOf point) ∧ write.spec = point.write := by
  have hModbus : ∃ payload, write = modbusWrite config point payload := by
    rw [dispatchWrite.eq_def] at hDispatch
    split at hDispatch
    · split at hDispatch
      · exact ⟨_, (Except.ok.inj hDispatch).symm⟩
      · cases hDispatch
    · split at hDispatch
      · split at hDispatch
        · split at hDispatch
          · obtain ⟨merged, -, hWrite⟩ := map_ok_iff.mp hDispatch
            exact ⟨_, hWrite.symm⟩
          · exact ⟨_, (Except.ok.inj hDispatch).symm⟩
        · cases hDispatch
      · split at hDispatch
        · exact ⟨_, (Except.ok.inj hDispatch).symm⟩
        · cases hDispatch
  obtain ⟨payload, rfl⟩ := hModbus
  exact ⟨rfl, rfl⟩

end Writes

section Commands

variable {K : Type} [Field K] [LinearOrder K] [FloorRing K] {platform : Platform K} {client : Client K}
  {config : DeviceConfig K} {point : PointDefinition K} {value : K} {writes : List (DeviceWrite K)}

omit [FloorRing K] in
theorem localDioWrites_eq (hPlan : localDioWrites point value = .ok writes) :
    ∃ payloads, payloads ≠ [] ∧ writes = payloads.map fun payload => ⟨.gpio point.read.gpio, payload, point.write⟩ := by
  rw [localDioWrites] at hPlan
  split at hPlan
  · cases hPlan
  split at hPlan
  · cases hPlan
  split at hPlan
  · cases hPlan
  split at hPlan
  · cases hPlan
  split at hPlan
  · cases hPlan
  split at hPlan
  · cases hPlan
  split at hPlan
  · cases hPlan
  exact ⟨_, List.cons_ne_nil _ _, (Except.ok.inj hPlan).symm⟩

theorem modbusWrites_eq (hPlan : modbusWrites platform client config point value = .ok writes) :
    ∃ encoded write, dispatchWrite client config point encoded = .ok write ∧ writes = [write] := by
  rw [modbusWrites] at hPlan
  dsimp only at hPlan
  split at hPlan
  · cases hPlan
  obtain ⟨encoded, -, hPlan⟩ := bind_ok_iff.mp hPlan
  obtain ⟨write, hDispatch, hPlan⟩ := bind_ok_iff.mp hPlan
  exact ⟨encoded, write, hDispatch, (Except.ok.inj hPlan).symm⟩

theorem plannedWrites_address (hPlan : plannedWrites platform client config point value = .ok writes) :
    writes ≠ [] ∧ ∀ write ∈ writes, write.target = writeTarget config point ∧ write.spec = point.write := by
  rw [plannedWrites] at hPlan
  cases hLocal : isLocalDio config with
  | true =>
    rw [hLocal, if_pos rfl] at hPlan
    obtain ⟨payloads, hSome, rfl⟩ := localDioWrites_eq hPlan
    rw [writeTarget, hLocal, if_pos rfl]
    refine ⟨mt List.map_eq_nil_iff.mp hSome, fun write hWrite => ?_⟩
    obtain ⟨payload, -, rfl⟩ := List.mem_map.mp hWrite
    exact ⟨rfl, rfl⟩
  | false =>
    rw [hLocal, if_neg Bool.false_ne_true] at hPlan
    obtain ⟨encoded, write, hDispatch, rfl⟩ := modbusWrites_eq hPlan
    rw [writeTarget, hLocal, if_neg Bool.false_ne_true]
    refine ⟨List.cons_ne_nil _ _, fun other hOther => ?_⟩
    obtain rfl := List.mem_singleton.mp hOther
    exact dispatchWrite_address hDispatch

def writesOf (execution : Except CommandFault (Execution K)) : List (DeviceWrite K) :=
  match execution with
  | .ok execution => execution.writes
  | .error _ => []

def Succeeded (execution : Except CommandFault (Execution K)) : Prop :=
  ∃ done result, execution = .ok done ∧ done.result = some result ∧ result.success = true

/-- The protocol is written to and the point takes the value. -/
def Commands (platform : Platform K) (client : Client K) (config : DeviceConfig K) (point : PointDefinition K)
    (value : K) : Prop :=
  config.protocol.type ≠ "dlt645_2007".toList ∧ ∃ writes, plannedWrites platform client config point value = .ok writes

theorem commandPoint_of_fault {fault : CommandFault}
    (hPlan : plannedWrites platform client config point value = .error fault) :
    commandPoint platform client config point value = ([], .error fault) := by
  rw [commandPoint, hPlan]

theorem commandPoint_of_plan (hPlan : plannedWrites platform client config point value = .ok writes) :
    (commandPoint platform client config point value).1 = (issueAll client writes).1 := by
  rw [commandPoint, hPlan]
  dsimp only
  cases hIssued : issueAll client writes with
  | mk issued outcome => cases outcome <;> rfl

variable {request : CommandRequest K} {nowMs : Int}

omit [Field K] [LinearOrder K] [FloorRing K] in
theorem findPoint_fault {pointCode : StdString} {fault : CommandFault} (hMissing : findPoint config pointCode = .error fault) :
    ∃ message, fault = .thrown message := by
  rw [findPoint] at hMissing
  split at hMissing
  · cases hMissing
  · exact ⟨_, (Except.error.inj hMissing).symm⟩

theorem execute_not_found {fault : CommandFault} (hProtocol : config.protocol.type ≠ "dlt645_2007".toList)
    (hMissing : findPoint config request.pointCode = .error fault) :
    (execute platform client config request nowMs).writes = [] ∧
      ∀ result, (execute platform client config request nowMs).result = some result → result.success = false := by
  obtain ⟨message, rfl⟩ := findPoint_fault hMissing
  rw [execute, if_neg hProtocol, hMissing]
  refine ⟨rfl, ?_⟩
  rintro _ ⟨⟩
  rfl

/-- The writes of a command and its success are those of the point it finds. -/
theorem execute_found (hProtocol : config.protocol.type ≠ "dlt645_2007".toList)
    (hFound : findPoint config request.pointCode = .ok point) :
    (execute platform client config request nowMs).writes = (commandPoint platform client config point request.value).1 ∧
      ((∃ result, (execute platform client config request nowMs).result = some result ∧ result.success = true) ↔
        (commandPoint platform client config point request.value).2 = .ok ()) := by
  rw [execute, if_neg hProtocol, hFound]
  dsimp only
  generalize verifyBegun client config point (plannedWrites platform client config point request.value) = attempted
  generalize commandPoint platform client config point request.value = command
  cases command with
  | mk writes outcome =>
    cases outcome with
    | ok done => exact ⟨rfl, iff_of_true ⟨_, rfl, rfl⟩ rfl⟩
    | error fault =>
      cases fault with
      | thrown message =>
        refine ⟨rfl, iff_of_false ?_ nofun⟩
        rintro ⟨result, hResult, hSuccess⟩
        cases hResult
        cases hSuccess
      | outOfBounds =>
        refine ⟨rfl, iff_of_false ?_ nofun⟩
        rintro ⟨result, hResult, -⟩
        cases hResult

def AddressesOnly (platform : Platform K) (client : Client K) (config : DeviceConfig K) (point : PointDefinition K)
    (cmdId : StdString) (index : UInt32) (value : K) (nowMs : Int) : Prop :=
  (∀ write ∈ writesOf (executeByIndex platform client config cmdId index value nowMs),
    write.target = writeTarget config point ∧ write.spec = point.write) ∧
    (writesOf (executeByIndex platform client config cmdId index value nowMs) = [] →
      ¬Succeeded (executeByIndex platform client config cmdId index value nowMs))

omit [Field K] [LinearOrder K] [FloorRing K] in
theorem not_succeeded_ok {done : Execution K} (hFailed : ∀ result, done.result = some result → result.success = false) :
    ¬Succeeded (.ok done) := by
  rintro ⟨_, result, hDone, hResult, hSuccess⟩
  cases hDone
  rw [hFailed result hResult] at hSuccess
  cases hSuccess

theorem addressesOnly_of_none {cmdId : StdString} {index : UInt32}
    (hNone : writesOf (executeByIndex platform client config cmdId index value nowMs) = [])
    (hFailed : ¬Succeeded (executeByIndex platform client config cmdId index value nowMs)) :
    AddressesOnly platform client config point cmdId index value nowMs := by
  rw [AddressesOnly, hNone]
  exact ⟨fun write hWrite => absurd hWrite List.not_mem_nil, fun _ => hFailed⟩

/-- It meets its point exactly when the point it ends at, if that takes the value, has the same place and
    write spec. -/
theorem addressesOnly_iff (platform : Platform K) (client : Client K) (config : DeviceConfig K)
    (point : PointDefinition K) (cmdId : StdString) (index : UInt32) (value : K) (nowMs : Int) :
    AddressesOnly platform client config point cmdId index value nowMs ↔
      ∀ resolved, resolve config index = .ok resolved → Commands platform client config resolved value →
        writeTarget config resolved = writeTarget config point ∧ resolved.write = point.write := by
  cases hIndex : findPointByIndex config index with
  | error fault =>
    have hExecution : executeByIndex platform client config cmdId index value nowMs = .error fault := by
      rw [executeByIndex, hIndex]
      rfl
    refine iff_of_true (addressesOnly_of_none (by rw [hExecution]; rfl) ?_) ?_
    · rw [hExecution]
      rintro ⟨_, _, hDone, -⟩
      cases hDone
    · intro resolved hResolved
      rw [resolve, hIndex] at hResolved
      cases hResolved
  | ok listed =>
    obtain ⟨request, hCode, hValue, hExecution⟩ : ∃ request : CommandRequest K, request.pointCode = listed.pointCode ∧
        request.value = value ∧ executeByIndex platform client config cmdId index value nowMs =
          .ok (execute platform client config request nowMs) :=
      ⟨⟨cmdId, config.machineCode, config.meterCode, listed.pointCode, value⟩, rfl, rfl, by rw [executeByIndex, hIndex]; rfl⟩
    have hResolve : resolve config index = findPoint config listed.pointCode := by
      rw [resolve, hIndex]
      rfl
    rw [hResolve]
    by_cases hProtocol : config.protocol.type = "dlt645_2007".toList
    · refine iff_of_true (addressesOnly_of_none ?_ ?_) fun _ _ hCommands => absurd hProtocol hCommands.1
      · rw [hExecution, writesOf, execute, if_pos hProtocol]
      · rw [hExecution, execute, if_pos hProtocol]
        apply not_succeeded_ok
        rintro _ ⟨⟩
        rfl
    · cases hFound : findPoint config listed.pointCode with
      | error fault =>
        rw [hCode.symm] at hFound
        obtain ⟨hNone, hFailed⟩ := @execute_not_found K _ _ _ platform client config request nowMs fault hProtocol hFound
        refine iff_of_true (addressesOnly_of_none ?_ ?_) ?_
        · rw [hExecution, writesOf, hNone]
        · rw [hExecution]
          exact not_succeeded_ok hFailed
        · intro resolved hResolved
          cases hResolved
      | ok resolved =>
        rw [hCode.symm] at hFound
        obtain ⟨hWrites, hSuccess⟩ := @execute_found K _ _ _ platform client config resolved request nowMs hProtocol hFound
        rw [hValue] at hWrites hSuccess
        cases hPlan : plannedWrites platform client config resolved value with
        | error fault =>
          rw [commandPoint_of_fault hPlan] at hWrites hSuccess
          refine iff_of_true (addressesOnly_of_none ?_ ?_) ?_
          · rw [hExecution, writesOf, hWrites]
          · rw [hExecution]
            rintro ⟨_, result, ⟨⟩, hResult, hDone⟩
            have hOk := hSuccess.mp ⟨result, hResult, hDone⟩
            cases hOk
          · rintro _ ⟨⟩ ⟨-, writes, hOk⟩
            rw [hPlan] at hOk
            cases hOk
        | ok writes =>
          rw [commandPoint_of_plan hPlan] at hWrites
          obtain ⟨hSome, hPlace⟩ := plannedWrites_address hPlan
          have hIssued := @issueAll_ne_nil K client writes hSome
          rw [AddressesOnly, hExecution, writesOf, hWrites]
          constructor
          · rintro ⟨hAll, -⟩ _ ⟨⟩ -
            obtain ⟨write, hWrite⟩ := List.exists_mem_of_ne_nil _ hIssued
            obtain ⟨hTarget, hSpec⟩ := hPlace write ((issueAll_start client writes).subset hWrite)
            obtain ⟨hTarget', hSpec'⟩ := hAll write hWrite
            exact ⟨hTarget.symm.trans hTarget', hSpec.symm.trans hSpec'⟩
          · intro hSame
            obtain ⟨hTarget, hSpec⟩ := hSame resolved rfl ⟨hProtocol, writes, hPlan⟩
            refine ⟨fun write hWrite => ?_, fun hNone => absurd hNone hIssued⟩
            obtain ⟨hTarget', hSpec'⟩ := hPlace write ((issueAll_start client writes).subset hWrite)
            exact ⟨hTarget'.trans hTarget, hSpec'.trans hSpec⟩

end Commands

def relay (pointCode : String) (address : Int) (enabled : Bool) : PointDefinition ℚ where
  index := 1
  pointCode := pointCode.toList
  enabled := enabled
  read := { scale := 1, offset := 0 }
  write := { enable := true, function := 5, address := address, dataType := "bit".toList, scale := 1, offset := 0, step := 0 }

def replacedRelay : DeviceConfig ℚ where
  machineCode := "gateway".toList
  meterCode := "board".toList
  points := [relay "old" 100 false, relay "new" 200 true]

def idleClient : Client ℚ where
  readHoldingRegisters := fun _ _ _ => .ok [0]
  write := fun _ _ => .ok ()
  verifyRead := fun _ _ _ _ => .ok [0]
  readValue := fun _ => .ok false
  putLatest := fun _ _ => .ok ()

def knowingStore : PointStore.MemoryPointStore where
  opening := .segmentName
  ownerId := 1
  ownerSource := []
  keyToIndex := fun _ => none
  bindings := fun _ => none
  latestSlotByIndex := fun _ => none
  lastPersistentSampleTs := fun _ => none
  persistentDropped := 0
  registeredIndexes := {1}

theorem plannedWrites_relay (platform : Platform ℚ) (pointCode : String) (address : Int) (enabled : Bool) :
    plannedWrites platform idleClient replacedRelay (relay pointCode address enabled) 1 =
      .ok [modbusWrite replacedRelay (relay pointCode address enabled) (.singleCoil true)] := by
  have hValid : (ModbusCodec.validateWriteValue 1 (relay pointCode address enabled)).ok = true := by
    simp [ModbusCodec.validateWriteValue, relay]
  have hRaw : ((1 : ℚ) - (relay pointCode address enabled).write.offset) / (relay pointCode address enabled).write.scale
      = 1 := by norm_num [relay]
  have hBytes : ModbusCodec.canonicalBytes platform (relay pointCode address enabled).write.dataType 1 = .ok [0, 1] := by
    rw [ModbusCodec.canonicalBytes, if_pos (.inl rfl), if_pos (by norm_num)]
    rfl
  have hEncode : ModbusCodec.encodeWriteValue platform 1 (relay pointCode address enabled) = .ok [1] := by
    rw [ModbusCodec.encode_of_valid hValid, ModbusCodec.removeWriteScale, if_neg (by norm_num [relay]), hRaw]
    refine bind_ok_iff.mpr ⟨1, rfl, ?_⟩
    rw [hBytes]
    rfl
  have hRemote : ¬isLocalDio replacedRelay = true := by decide
  rw [plannedWrites, if_neg hRemote, modbusWrites, hEncode]
  dsimp only
  rw [hValid]
  rfl

theorem command_to_replaced_relay :
    (∀ registry ts, (knowingStore.registerDevicePoints registry [replacedRelay.registered] ts).2.2 = none) ∧
      relay "new" 200 true ∈ replacedRelay.points ∧
      ∀ platform : Platform ℚ, writesOf (executeByIndex platform idleClient replacedRelay "c1".toList 1 1 0) =
          [⟨.modbus 1 100, .singleCoil true, (relay "old" 100 false).write⟩] ∧
        ¬AddressesOnly platform idleClient replacedRelay (relay "new" 200 true) "c1".toList 1 1 0 := by
  refine ⟨fun registry ts => rfl, List.mem_cons_of_mem _ List.mem_cons_self, fun platform => ?_⟩
  have hFound : findPoint replacedRelay "old".toList = .ok (relay "old" 100 false) := rfl
  obtain ⟨hWrites, -⟩ := @execute_found ℚ _ _ _ platform idleClient replacedRelay _
    ⟨"c1".toList, "gateway".toList, "board".toList, "old".toList, 1⟩ 0 (by decide) hFound
  rw [commandPoint_of_plan (plannedWrites_relay platform "old" 100 false)] at hWrites
  have hIssued : writesOf (executeByIndex platform idleClient replacedRelay "c1".toList 1 1 0) =
      [⟨.modbus 1 100, .singleCoil true, (relay "old" 100 false).write⟩] := hWrites
  refine ⟨hIssued, ?_⟩
  rintro ⟨hAll, -⟩
  rw [hIssued] at hAll
  exact absurd (hAll _ List.mem_cons_self).1 (by decide)

end EdgeGateway.Modbus
