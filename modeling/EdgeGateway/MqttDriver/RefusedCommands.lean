import EdgeGateway.MqttDriver.CommandHandling

/-! # What a refused command leaves behind -/

namespace EdgeGateway.MqttDriver

open PriorityControl QuotedText Router SlidingWindow

namespace CommandAdmission

variable {config : MqttDriverConfig} {s : CommandAdmission} {call : AdmissionCall}

def LeavesTrace (config : MqttDriverConfig) (cmdId : StdString) : Prop :=
  config.deduplicates cmdId = true ∨ 0 < config.maxInWindow

theorem agrees_admitted_iff (hAdmitted : s.admits config call = true) :
    Agrees config call.nowMs (s.next config call) s ↔ ¬LeavesTrace config call.cmdId := by
  constructor
  · rintro hAgrees (hDeduplicates | hLimit)
    · have hSame := (hAgrees call.nowMs le_rfl).1 call.cmdId
      have hTtl : 0 ≤ config.dedupTtlMs := le_max_left _ _
      rw [remembered_next _ le_rfl, if_pos ⟨hAdmitted, hDeduplicates, rfl⟩, Option.filter_some, if_pos] at hSame
      · rw [admits_eq, duplicate, hDeduplicates, ← hSame] at hAdmitted
        cases hAdmitted
      · rw [sub_self, decide_eq_true_eq]
        exact hTtl
    · have hSame := (hAgrees call.nowMs le_rfl).2 call.meterCode
      have hWidth : 0 ≤ config.windowMs := zero_le_one.trans (le_max_left _ _)
      rw [windowAt_next _ le_rfl, if_pos ⟨hAdmitted, hLimit, rfl⟩, windowAt, slide_append_slide le_rfl,
        slide_snoc_now hWidth] at hSame
      have hLength := congrArg List.length hSame
      rw [List.length_append, List.length_singleton] at hLength
      exact Nat.succ_ne_self _ hLength
  · intro hTraceless later hLater
    obtain ⟨hForgets, hUnlimited⟩ := not_or.mp hTraceless
    constructor
    · intro cmdId
      rw [remembered_next cmdId hLater, if_neg fun hAll => hForgets hAll.2.1]
    · intro meterCode
      rw [windowAt_next meterCode hLater, if_neg fun hAll => hUnlimited hAll.2.1]

theorem agrees_refl (nowMs : Int) (s : CommandAdmission) : Agrees config nowMs s s :=
  fun _ _ => ⟨fun _ => rfl, fun _ => rfl⟩

end CommandAdmission

namespace MqttDriverService

variable (service : MqttDriverService) (around : Surroundings) (admission : CommandAdmission) (nowMs : Int)
  (payload : StdString) (request : MqttCommandRequest) (route : PointRoute)

/-- A refusal leaves the admission as every later call sees it. -/
def RefusalUndone : Prop :=
  ∀ refusal, (service.handleCommandRequest around admission nowMs payload).outcome = .rejected refusal →
    CommandAdmission.Agrees service.driverConfig nowMs (service.handleCommandRequest around admission nowMs payload).admission
      admission

def callFor : AdmissionCall := ⟨route.meterCode, request.cmdId, nowMs⟩

structure Admitted : Prop where
  parsed : parseCommandRequest service.casts payload = .ok request
  checked : service.checkRequest around nowMs request = .ok route
  direct : route.commandMailbox = false
  idle : service.priorityBusy around nowMs request = false
  admitted : admission.admits service.driverConfig (callFor nowMs request route) = true

/-- The lease of a priority command can be installed, the gate lets the command pass and the store has room. -/
structure Accepts : Prop where
  lease : request.highPriority = true → service.priorityControlLease.enabled = true →
    around.leaseIo.opened = true ∧ around.leaseIo.flushed = true ∧ around.leaseIo.renamed = true
  gate : service.router.ownershipBlocks around.ownershipIo around.ownership
    (commandFor nowMs request request.highPriority) = .ok false
  store : service.router.Admits around.segments (commandFor nowMs request request.highPriority) route.toPointStoreRoute

section Steps

variable {service around admission nowMs payload request route}

theorem checkRequest_ok (h : service.checkRequest around nowMs request = .ok route) :
    service.pointRoutes request.index = some route := by
  rw [checkRequest] at h
  split at h
  · cases h
  · split at h
    · cases h
    · split at h
      · cases h
      · rename_i found hFound
        split at h
        · cases h
        · rw [hFound, Except.ok.inj h]

theorem takeLease_ok_iff : (∃ lease, service.takeLease around nowMs request route = (.ok (), lease)) ↔
    (request.highPriority = true → service.priorityControlLease.enabled = true →
      around.leaseIo.opened = true ∧ around.leaseIo.flushed = true ∧ around.leaseIo.renamed = true) := by
  rw [takeLease, PriorityControlLease.acquire]
  cases request.highPriority with
  | false =>
    rw [if_neg Bool.false_ne_true]
    exact ⟨fun _ hPriority => absurd hPriority Bool.false_ne_true, fun _ => ⟨_, rfl⟩⟩
  | true =>
    cases service.priorityControlLease.enabled <;> cases around.leaseIo.opened <;> cases around.leaseIo.flushed <;>
      cases around.leaseIo.renamed <;> simp

theorem submitWriteCommand_accepted {router : PointStoreRouter} {io : PowerControl.Outcome} {file : Option StdString}
    {segments : Segments} {command : PendingWriteCommand} {target : PointStoreRoute}
    (hRoute : router.routes command.index = some target) :
    (∃ result after, router.submitWriteCommand io file segments command = .ok (result, after) ∧ result.accepted = true) ↔
      router.ownershipBlocks io file command = .ok false ∧ router.Admits segments command target := by
  cases hBlocks : router.ownershipBlocks io file command with
  | error error =>
    have hThrown : router.submitWriteCommand io file segments command = .error error := by
      rw [PointStoreRouter.submitWriteCommand, show router.routeByIndex command.index = some target from hRoute]
      change (router.ownershipBlocks io file command >>= _) = _
      rw [hBlocks]
      rfl
    rw [hThrown]
    constructor
    · rintro ⟨result, after, hResult, -⟩
      cases hResult
    · rintro ⟨hOpen, -⟩
      cases hOpen
  | ok blocked =>
    rw [submitWriteCommand_of_blocks segments hRoute hBlocks]
    cases blocked with
    | true =>
      constructor
      · rintro ⟨result, after, hResult, hAccepted⟩
        rw [← (Prod.mk.inj (Except.ok.inj hResult)).1] at hAccepted
        cases hAccepted
      · rintro ⟨hOpen, -⟩
        cases hOpen
    | false =>
      rw [← submitToStore_accepted]
      constructor
      · rintro ⟨result, after, hResult, hAccepted⟩
        have hSubmitted : router.submitToStore segments target command = (result, after) := Except.ok.inj hResult
        rw [hSubmitted]
        exact ⟨rfl, hAccepted⟩
      · rintro ⟨-, hAccepted⟩
        exact ⟨_, _, rfl, hAccepted⟩

theorem submitAdmitted_admission : (service.submitAdmitted around admission nowMs request route).admission = admission := by
  rw [submitAdmitted]
  split
  · rfl
  · dsimp only
    split
    · rfl
    · split <;> rfl

theorem handleMailbox_admission : (service.handleMailbox around admission nowMs request route).admission = admission := by
  rw [handleMailbox]
  split
  · rfl
  · split
    · rfl
    · split
      · rfl
      · rw [submitCommandMailbox]
        split <;> rfl

theorem submitAdmitted_rejected_iff (hRoute : service.pointRoutes request.index = some route) :
    (∃ refusal, (service.submitAdmitted around admission nowMs request route).outcome = .rejected refusal) ↔
      ¬service.Accepts around nowMs request route := by
  have hTarget : service.router.routes (commandFor nowMs request request.highPriority).index = some route.toPointStoreRoute := by
    rw [show (commandFor nowMs request request.highPriority).index = request.index from rfl, service.routed, hRoute]
    rfl
  have hAccepted := @submitWriteCommand_accepted service.router around.ownershipIo around.ownership around.segments
    (commandFor nowMs request request.highPriority) route.toPointStoreRoute hTarget
  have hLease := @takeLease_ok_iff service around nowMs request route
  rw [submitAdmitted]
  cases hTaken : service.takeLease around nowMs request route with
  | mk answer lease =>
    cases answer with
    | error error =>
      refine ⟨fun _ hAccepts => ?_, fun _ => ⟨_, rfl⟩⟩
      obtain ⟨other, hOther⟩ := hLease.mpr hAccepts.lease
      rw [hTaken] at hOther
      cases hOther
    | ok _ =>
      dsimp only
      cases hSubmit : service.router.submitWriteCommand around.ownershipIo around.ownership around.segments
          (commandFor nowMs request request.highPriority) with
      | error error =>
        refine ⟨fun _ hAccepts => ?_, fun _ => ⟨_, rfl⟩⟩
        obtain ⟨result, after, hResult, -⟩ := hAccepted.mpr ⟨hAccepts.gate, hAccepts.store⟩
        rw [hSubmit] at hResult
        cases hResult
      | ok submitted =>
        obtain ⟨result, segments⟩ := submitted
        dsimp only
        cases hResult : result.accepted with
        | false =>
          refine ⟨fun _ hAccepts => ?_, fun _ => ⟨_, rfl⟩⟩
          obtain ⟨other, after, hOther, hTrue⟩ := hAccepted.mpr ⟨hAccepts.gate, hAccepts.store⟩
          rw [hSubmit] at hOther
          rw [← (Prod.mk.inj (Except.ok.inj hOther)).1, hResult] at hTrue
          cases hTrue
        | true =>
          constructor
          · rintro ⟨refusal, hRefusal⟩
            cases hRefusal
          · intro hRejected
            obtain ⟨hGate, hStore⟩ := hAccepted.mp ⟨result, segments, hSubmit, hResult⟩
            exact absurd ⟨hLease.mp ⟨lease, hTaken⟩, hGate, hStore⟩ hRejected

theorem handle_of_admitted (h : service.Admitted around admission nowMs payload request route) :
    service.handleCommandRequest around admission nowMs payload =
      service.submitAdmitted around (admission.next service.driverConfig (callFor nowMs request route)) nowMs request route := by
  have hAdmit : admission.admitCommand service.driverConfig route.meterCode request.cmdId nowMs =
      (true, admission.next service.driverConfig (callFor nowMs request route)) := Prod.ext h.admitted rfl
  rw [handleCommandRequest, h.parsed]
  dsimp only
  rw [h.checked]
  dsimp only
  rw [if_neg (Bool.eq_false_iff.mp h.direct), if_neg (Bool.eq_false_iff.mp h.idle), hAdmit]

theorem admitted_or_agrees : (∃ request route, service.Admitted around admission nowMs payload request route) ∨
    CommandAdmission.Agrees service.driverConfig nowMs (service.handleCommandRequest around admission nowMs payload).admission
      admission := by
  rw [handleCommandRequest]
  cases hParsed : parseCommandRequest service.casts payload with
  | error error => exact .inr (CommandAdmission.agrees_refl nowMs admission)
  | ok request =>
    dsimp only
    cases hChecked : service.checkRequest around nowMs request with
    | error refusal => exact .inr (CommandAdmission.agrees_refl nowMs admission)
    | ok route =>
      dsimp only
      split
      · right
        rw [handleMailbox_admission]
        exact CommandAdmission.agrees_refl nowMs admission
      · rename_i hDirect
        split
        · exact .inr (CommandAdmission.agrees_refl nowMs admission)
        · rename_i hIdle
          cases hAnswer : admission.admits service.driverConfig (callFor nowMs request route) with
          | true =>
            exact .inl ⟨request, route, hParsed, hChecked, Bool.eq_false_iff.mpr hDirect, Bool.eq_false_iff.mpr hIdle, hAnswer⟩
          | false =>
            have hAdmit : admission.admitCommand service.driverConfig route.meterCode request.cmdId nowMs =
                (false, admission.next service.driverConfig (callFor nowMs request route)) := Prod.ext hAnswer rfl
            rw [hAdmit]
            exact .inr (CommandAdmission.agrees_of_refused hAnswer)

theorem not_undone (hAdmitted : service.Admitted around admission nowMs payload request route)
    (hTrace : CommandAdmission.LeavesTrace service.driverConfig request.cmdId)
    (hRefused : ¬service.Accepts around nowMs request route) : ¬service.RefusalUndone around admission nowMs payload := by
  intro hUndone
  obtain ⟨refusal, hRefusal⟩ := (submitAdmitted_rejected_iff (checkRequest_ok hAdmitted.checked)).mpr hRefused
  have hAgrees := hUndone refusal (by rw [handle_of_admitted hAdmitted]; exact hRefusal)
  rw [handle_of_admitted hAdmitted, submitAdmitted_admission] at hAgrees
  exact (CommandAdmission.agrees_admitted_iff hAdmitted.admitted).mp hAgrees hTrace

end Steps

/-- A refusal leaves no trace if and only if no request that is admitted with one is refused afterwards. -/
theorem refusal_undone_iff : service.RefusalUndone around admission nowMs payload ↔
    ∀ request route, service.Admitted around admission nowMs payload request route →
      CommandAdmission.LeavesTrace service.driverConfig request.cmdId → service.Accepts around nowMs request route := by
  constructor
  · intro hUndone request route hAdmitted hTrace
    by_contra hRefused
    exact not_undone hAdmitted hTrace hRefused hUndone
  · intro hTaken refusal hRefusal
    obtain ⟨request, route, hAdmitted⟩ | hAgrees := @admitted_or_agrees service around admission nowMs payload
    · rw [handle_of_admitted hAdmitted] at hRefusal ⊢
      rw [submitAdmitted_admission]
      apply (CommandAdmission.agrees_admitted_iff hAdmitted.admitted).mpr
      intro hTrace
      exact (submitAdmitted_rejected_iff (checkRequest_ok hAdmitted.checked)).mp ⟨refusal, hRefusal⟩
        (hTaken request route hAdmitted hTrace)
    · exact hAgrees

def orphanRoute : PointRoute where
  index := 1
  sharedMemoryName := "points".toList
  writable := true
  sourceIndex := 1
  machineCode := "M1".toList
  meterCode := "meter".toList
  pointCode := "switch".toList

def orphanService : MqttDriverService where
  driverConfig := ⟨30000, 10000, 20, 60000⟩
  casts := ⟨fun _ => 0, fun _ => 0⟩
  scadaSafetyEnabled := false
  pointRoutes := fun index => if index = 1 then some orphanRoute else none
  router :=
    { routes := fun index => if index = 1 then some orphanRoute.toPointStoreRoute else none
      stores := fun _ => none
      powerControlOwnership := none
      path_ne := path_ne_of_none }
  routed := by
    intro index
    dsimp only
    split <;> rfl
  agcAvcCommandMailbox := {}
  priorityControlLease := ⟨[], "mqtt-driver".toList⟩

def quietSurroundings : Surroundings where
  topology := none
  nodes := none
  controlLease := none
  priorityLease := none
  leaseIo := ⟨true, true, true, true, true, true⟩
  ownership := none
  ownershipIo := ⟨true, true, true, true, true⟩
  segments := fun _ => .initial

def orphanPayload : StdString := "\x7b\"cmdId\":\"c\",\"machineCode\":\"M1\",\"index\":1,\"value\":5\x7d".toList

def orphanRequest : MqttCommandRequest where
  cmdId := "c".toList
  machineCode := "M1".toList
  meterCode := []
  pointCode := []
  index := 1
  value := 0x4014000000000000
  source := "mqtt".toList
  ts := 0
  highPriority := false

/-- The command is refused for want of a store, and its identifier stays remembered. -/
theorem missing_store_remembered : ¬orphanService.RefusalUndone quietSurroundings {} 0 orphanPayload := by
  have hAdmitted : orphanService.Admitted quietSurroundings {} 0 orphanPayload orphanRequest orphanRoute :=
    { parsed := by decide +kernel
      checked := rfl
      direct := rfl
      idle := rfl
      admitted := by decide +kernel }
  refine not_undone hAdmitted (.inl (by decide)) ?_
  intro hAccepts
  obtain ⟨-, -, store, hStore, -⟩ := hAccepts.store
  cases hStore

end MqttDriverService

end EdgeGateway.MqttDriver
