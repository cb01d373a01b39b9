import EdgeGateway.Iec.SendNumbering

/-! # A call of `writeByPoint` step by step -/

namespace EdgeGateway.Iec

variable {K : Type} [Field K] [LinearOrder K] [FloorRing K] (setup : Setup K)

def controlValuesOf (frame : List UInt8) : List (IecDataValue K) :=
  match decodeAsdu setup.platform setup.config (iec104AsduPayload frame) with
  | .error _ => []
  | .ok asdu => if isControlType asdu.typeId then asdu.values else []

def Accepts (point : IecPoint K) (value : IecDataValue K) : Prop := controlConfirmationMatches point value 7 = true

def isPositive (frame : List UInt8) : Bool := byteAt (iec104AsduPayload frame) 2 &&& 0x40 == 0

/-- The frame is a positive activation confirmation of a command for this point. -/
def PositiveConfirmation (point : IecPoint K) (frame : List UInt8) : Prop :=
  isPositive frame = true ∧
    ∃ value ∈ controlValuesOf setup frame, value.cause = 7 ∧ value.typeId = commandTypeOf point ∧
      value.commonAddress = commandCommonAddressOf setup.config point ∧ value.ioa = commandIoaOf point

namespace Session

def Pending (s : Session K) (point : IecPoint K) : Prop :=
  (∃ value ∈ s.client.controlValues, Accepts point value) ∨
    ∃ frame ∈ s.inbound, ∃ value ∈ controlValuesOf setup frame, Accepts point value

def Executed (s : Session K) (point : IecPoint K) (value : K) : Prop :=
  ∃ number received frame,
    (Command.control point value false).build setup.platform setup.config number received = .ok frame ∧
      s.iFrames.getLast? = some frame

def Answered (s : Session K) (point : IecPoint K) : Prop := ∃ frame ∈ s.answers, PositiveConfirmation setup point frame

structure SameCall (s t : Session K) : Prop where
  caller : t.caller = s.caller
  returned : t.returned = s.returned
  answers : t.answers = s.answers
  iFrames : t.iFrames = s.iFrames
  inbound : t.inbound = s.inbound

section SameCall

omit [Field K] [LinearOrder K] [FloorRing K]

variable {s t u : Session K}

theorem SameCall.refl (s : Session K) : SameCall s s := ⟨rfl, rfl, rfl, rfl, rfl⟩

theorem SameCall.trans (h : SameCall s t) (h' : SameCall t u) : SameCall s u :=
  ⟨h'.caller.trans h.caller, h'.returned.trans h.returned, h'.answers.trans h.answers, h'.iFrames.trans h.iFrames,
    h'.inbound.trans h.inbound⟩

theorem sameCall_disconnect (s : Session K) : SameCall s s.disconnect := by
  rw [disconnect]
  split <;> exact ⟨rfl, rfl, rfl, rfl, rfl⟩

theorem controlValues_disconnect (s : Session K) : s.disconnect.client.controlValues = s.client.controlValues := by
  rw [disconnect]
  split <;> rfl

theorem sendAll_other (s : Session K) (frame : List UInt8) (h : isIec104IFrame frame = false) (ok : Bool) :
    SameCall s (s.sendAll frame ok).1 ∧ (s.sendAll frame ok).1.client.controlValues = s.client.controlValues := by
  rw [sendAll]
  split
  · refine ⟨⟨rfl, rfl, ?_, ?_, rfl⟩, rfl⟩
    · simp [put, h]
    · simp [put, iFrames, List.filter_append, h]
  · exact ⟨sameCall_disconnect s, controlValues_disconnect s⟩

end SameCall

section Receive

omit [LinearOrder K] [FloorRing K]

variable {s : Session K} {frame : List UInt8} {value : IecDataValue K}

omit [Field K] in
theorem mem_newest {limit : Nat} {values : List (IecDataValue K)} (h : value ∈ newest limit values) : value ∈ values :=
  List.mem_of_mem_drop h

theorem mem_store {client : IecTcpClient K} {asdu : IecAsdu K} (h : value ∈ (client.store asdu).controlValues) :
    value ∈ client.controlValues ∨ isControlType asdu.typeId = true ∧ value ∈ asdu.values := by
  rw [IecTcpClient.store] at h
  split at h
  · rename_i hControl
    dsimp only at h
    obtain hOld | hNew := List.mem_append.mp (mem_newest h)
    · exact .inl hOld
    · exact .inr ⟨hControl.2, hNew⟩
  · exact .inl h

theorem storeAsdu_spec (s : Session K) (frame : List UInt8) :
    SameCall s (s.storeAsdu setup (iec104AsduPayload frame)) ∧
      ∀ value ∈ (s.storeAsdu setup (iec104AsduPayload frame)).client.controlValues,
        value ∈ s.client.controlValues ∨ value ∈ controlValuesOf setup frame := by
  rw [storeAsdu]
  split
  · exact ⟨SameCall.refl s, fun value h => .inl h⟩
  · split
    · exact ⟨SameCall.refl s, fun value h => .inl h⟩
    · rename_i asdu hAsdu
      refine ⟨⟨rfl, rfl, rfl, rfl, rfl⟩, fun value h => ?_⟩
      obtain hOld | ⟨hControl, hNew⟩ := mem_store h
      · exact .inl hOld
      · right
        rw [controlValuesOf, hAsdu]
        dsimp only
        rw [if_pos hControl]
        exact hNew

theorem handleIFrame_spec (s : Session K) (frame : List UInt8) (replied : Bool) :
    SameCall s (s.handleIFrame setup frame replied) ∧
      ∀ value ∈ (s.handleIFrame setup frame replied).client.controlValues,
        value ∈ s.client.controlValues ∨ value ∈ controlValuesOf setup frame := by
  have hCounted : SameCall s ((s.countReceived frame).acknowledgedBy frame) := ⟨rfl, rfl, rfl, rfl, rfl⟩
  have hValues : ((s.countReceived frame).acknowledgedBy frame).client.controlValues = s.client.controlValues := rfl
  rw [handleIFrame]
  generalize (s.countReceived frame).acknowledgedBy frame = counted at hCounted hValues ⊢
  dsimp only
  split
  · have hReset : SameCall s counted.resetAck := hCounted.trans ⟨rfl, rfl, rfl, rfl, rfl⟩
    have hResetValues : counted.resetAck.client.controlValues = s.client.controlValues := hValues
    obtain ⟨hSent, hSentValues⟩ :=
      sendAll_other counted.resetAck _ (not_iFrame_sFrame counted.client.receiveSequence) replied
    rw [hResetValues] at hSentValues
    split
    · obtain ⟨hStore, hStored⟩ := storeAsdu_spec setup
        (counted.resetAck.sendAll (buildIec104SFrame counted.client.receiveSequence) replied).1 frame
      rw [hSentValues] at hStored
      exact ⟨(hReset.trans hSent).trans hStore, hStored⟩
    · refine ⟨hReset.trans hSent, fun value h => .inl ?_⟩
      rw [hSentValues] at h
      exact h
  · obtain ⟨hStore, hStored⟩ := storeAsdu_spec setup counted frame
    rw [hValues] at hStored
    exact ⟨hCounted.trans hStore, hStored⟩

theorem handleIec104Frame_spec (s : Session K) (frame : List UInt8) (replied : Bool) :
    SameCall s (s.handleIec104Frame setup frame replied) ∧
      ∀ value ∈ (s.handleIec104Frame setup frame replied).client.controlValues,
        value ∈ s.client.controlValues ∨ value ∈ controlValuesOf setup frame := by
  rw [handleIec104Frame]
  split
  · exact ⟨⟨rfl, rfl, rfl, rfl, rfl⟩, fun value h => .inl h⟩
  · split
    · obtain ⟨hSame, hValues⟩ := sendAll_other s iec104TestFrCon (by decide) replied
      refine ⟨hSame, fun value h => .inl ?_⟩
      rw [hValues] at h
      exact h
    · split
      · split
        · exact ⟨⟨rfl, rfl, rfl, rfl, rfl⟩, fun value h => .inl h⟩
        · exact ⟨SameCall.refl s, fun value h => .inl h⟩
      · split
        · exact handleIFrame_spec setup s frame replied
        · exact ⟨SameCall.refl s, fun value h => .inl h⟩

end Receive

section Write

variable {s t : Session K} {point : IecPoint K} {value : K} {op : Op K} {mid rest : List (Op K)} {call : Call K}

def OfWrite : Op K → Bool
  | .awaitParameter _ _ _ _ _ | .awaitFiles _ | .awaitValues => false
  | _ => true

def Executes (point : IecPoint K) (value : K) : Op K → Prop
  | .number command | .build command _ => command = .control point value false
  | .window frame | .send frame =>
    ∃ number received,
      (Command.control point value false).build setup.platform setup.config number received = .ok frame
  | _ => False

/-- What comes before the waits at the end: its last op is the execute command. -/
structure Ahead (point : IecPoint K) (value : K) (op : Op K) (mid : List (Op K)) : Prop where
  ofWrite : ∀ other ∈ op :: mid, OfWrite other = true
  single : mid = [] → Executes setup point value op
  last : ∀ other ∈ mid.getLast?, other = .number (.control point value false)

inductive WritePhase (s : Session K) (point : IecPoint K) (value : K) : List (Op K) → Prop where
  | ahead {op : Op K} {mid : List (Op K)} (h : Ahead setup point value op mid) :
    WritePhase s point value (op :: (mid ++ executeOps setup.config point))
  | waiting (hExecuted : s.Executed setup point value) (h : s.Pending setup point → s.Answered setup point) :
    WritePhase s point value (executeOps setup.config point)
  | confirmed {op : Op K} {rest : List (Op K)} (hOps : (executeOps setup.config point).tail = op :: rest)
    (hExecuted : s.Executed setup point value) (h : s.Answered setup point) : WritePhase s point value (op :: rest)

/-- The call goes on in one of the phases, or returns, and then with success only when it has been confirmed.
    -/
inductive WriteStep (s t : Session K) (call : Call K) (point : IecPoint K) (value : K) : Prop where
  | goes {ops : List (Op K)} (hCaller : t.caller = some { call with ops }) (hReturned : t.returned = s.returned)
    (hPhase : WritePhase setup t point value ops) : WriteStep s t call point value
  | returns (outcome : Outcome K) (hCaller : t.caller = none)
    (hReturned : t.returned = s.returned ++ [(call.request, outcome)])
    (h : outcome = .ok → s.Executed setup point value ∧ s.Answered setup point) : WriteStep s t call point value

variable {setup}

theorem Ahead.next {other : Op K} (h : Ahead setup point value op (other :: mid)) : Ahead setup point value other mid := by
  refine ⟨fun o hOther => h.ofWrite o (List.mem_cons_of_mem _ hOther), ?_, fun last hLast => h.last last ?_⟩
  · rintro rfl
    obtain rfl := h.last other rfl
    rfl
  · cases mid with
    | nil => cases hLast
    | cons first mid =>
      rw [List.getLast?_cons_cons]
      exact hLast

theorem Ahead.swap {other : Op K} (h : Ahead setup point value op mid) (hOther : OfWrite other = true)
    (hExecutes : Executes setup point value op → Executes setup point value other) :
    Ahead setup point value other mid := by
  refine ⟨?_, fun hMid => hExecutes (h.single hMid), h.last⟩
  rintro o (_ | ⟨_, hMem⟩)
  · exact hOther
  · exact h.ofWrite o (List.mem_cons_of_mem _ hMem)

theorem Ahead.phase (h : Ahead setup point value op mid) (hOp : ¬ Executes setup point value op) :
    WritePhase setup t point value (mid ++ executeOps setup.config point) := by
  cases mid with
  | nil => exact absurd (h.single rfl) hOp
  | cons other mid => exact .ahead h.next

theorem WritePhase.ne_nil {ops : List (Op K)} (h : WritePhase setup s point value ops) : ops ≠ [] := by
  cases h with
  | ahead h => exact List.cons_ne_nil _ _
  | waiting hExecuted h => exact List.cons_ne_nil _ _
  | confirmed hOps hExecuted h => exact List.cons_ne_nil _ _

theorem WritePhase.mono {ops : List (Op K)} (h : WritePhase setup s point value ops) (hFrames : t.iFrames = s.iFrames)
    (hAnswers : ∀ frame ∈ s.answers, frame ∈ t.answers)
    (hPending : ops = executeOps setup.config point → t.Pending setup point →
      s.Pending setup point ∨ t.Answered setup point) : WritePhase setup t point value ops := by
  have hExecuted : s.Executed setup point value → t.Executed setup point value := by
    rintro ⟨number, received, frame, hBuild, hLast⟩
    exact ⟨number, received, frame, hBuild, hFrames ▸ hLast⟩
  have hAnswered : s.Answered setup point → t.Answered setup point := by
    rintro ⟨frame, hFrame, hPositive⟩
    exact ⟨frame, hAnswers frame hFrame, hPositive⟩
  cases h with
  | ahead h => exact .ahead h
  | waiting hBefore h =>
    refine .waiting (hExecuted hBefore) fun hLater => ?_
    obtain hEarlier | hNow := hPending rfl hLater
    · exact hAnswered (h hEarlier)
    · exact hNow
  | confirmed hOps hBefore h => exact .confirmed hOps (hExecuted hBefore) (hAnswered h)

theorem WriteStep.proceed {ops : List (Op K)} (hReturned : t.returned = s.returned)
    (hPhase : WritePhase setup t point value ops) : WriteStep setup s (t.proceed call ops) call point value := by
  cases ops with
  | nil => exact absurd rfl hPhase.ne_nil
  | cons op rest =>
    refine .goes rfl hReturned (hPhase.mono rfl (fun _ h => h) fun _ hPending => .inl hPending)

theorem WriteStep.fail {message : String} (hReturned : t.returned = s.returned) :
    WriteStep setup s (t.fail call message) call point value := by
  refine .returns (.failed message) rfl ?_ (fun h => by cases h)
  rw [← hReturned]
  rfl

theorem WriteStep.stay (hCaller : s.caller = some call) (hPhase : WritePhase setup s point value call.ops) :
    WriteStep setup s s call point value := .goes hCaller rfl hPhase

theorem build_executes {command : Command K} {frame : List UInt8} {number received : Nat}
    (hCommand : command = .control point value false)
    (hBuild : command.build setup.platform setup.config number received = .ok frame) :
    Executes setup point value (.window frame) := by
  rw [hCommand] at hBuild
  exact ⟨number, received, hBuild⟩

theorem executed_put {frame : List UInt8} (h : Executes setup point value (.send frame)) :
    (s.put frame).Executed setup point value := by
  obtain ⟨number, received, hBuild⟩ := h
  refine ⟨number, received, frame, hBuild, ?_⟩
  have hIFrame : isIec104IFrame frame = true := by
    rw [Command.build] at hBuild
    cases hAsdu : (Command.control point value false).asdu setup.platform setup.config with
    | error message =>
      rw [hAsdu] at hBuild
      cases hBuild
    | ok asdu =>
      rw [hAsdu] at hBuild
      exact (buildIec104IFrame_spec hBuild).1
  simp [put, iFrames, List.filter_append, hIFrame]

theorem sendFrame_write {frame : List UInt8} {ok : Bool}
    (hPhase : WritePhase setup (s.put frame) point value rest) :
    WriteStep setup s (s.sendFrame call frame rest ok) call point value := by
  rw [sendFrame, sendAll]
  cases hOk : (s.client.connected && ok) with
  | true => exact .proceed rfl hPhase
  | false => exact .fail (sameCall_disconnect s).returned

theorem checkWindow_write {frame : List UInt8} {late : Bool} (hCaller : s.caller = some call)
    (hPhase : WritePhase setup s point value call.ops)
    (hSend : WritePhase setup s point value (.send frame :: rest)) :
    WriteStep setup s (s.checkWindow setup call frame rest late) call point value := by
  rw [checkWindow]
  split
  · exact .proceed rfl hSend
  · split
    · exact .fail rfl
    · split
      · exact .proceed rfl hSend
      · split
        · exact .fail rfl
        · exact .stay hCaller hPhase

theorem runOp_ahead {fault : Option String} (hCaller : s.caller = some call)
    (hOps : call.ops = op :: (mid ++ executeOps setup.config point)) (h : Ahead setup point value op mid)
    (hLeft : ∀ frame, op = .send frame → mid = [] → ¬ s.Pending setup point) :
    WriteStep setup s (s.runOp setup call op (mid ++ executeOps setup.config point) fault) call point value := by
  have hStay : WritePhase setup s point value call.ops := by
    rw [hOps]
    exact .ahead h
  cases op with
  | connect =>
    rw [runOp]
    cases fault with
    | none =>
      rw [ensureConnected]
      split
      · exact .proceed rfl (h.phase id)
      · exact .proceed rfl (h.phase id)
    | some message =>
      rw [ensureConnected]
      split
      · exact .proceed rfl (h.phase id)
      · exact .fail rfl
  | start =>
    rw [runOp]
    split
    · exact .proceed rfl (h.phase id)
    · exact sendFrame_write (.ahead (h.swap rfl id))
  | awaitStart =>
    rw [runOp]
    split
    · exact .proceed rfl (h.phase id)
    · exact .stay hCaller hStay
  | number command =>
    rw [runOp, takeNumber]
    exact .proceed rfl (.ahead (h.swap rfl id))
  | build command number =>
    rw [runOp]
    split
    · exact .fail rfl
    · rename_i frame hFrame
      exact .proceed rfl (.ahead (h.swap rfl fun hCommand => build_executes hCommand hFrame))
  | window frame => exact checkWindow_write hCaller hStay (.ahead (h.swap rfl id))
  | send frame =>
    apply sendFrame_write
    cases mid with
    | nil =>
      refine .waiting (executed_put (h.single rfl)) fun hPending => ?_
      exact absurd hPending (hLeft frame rfl rfl)
    | cons other mid => exact .ahead h.next
  | awaitControl other cause message =>
    rw [runOp, takeControl]
    split
    · exact .proceed rfl (h.phase id)
    · exact .stay hCaller hStay
  | awaitParameter ioa typeId causes keep message => cases h.ofWrite _ List.mem_cons_self
  | awaitFiles nameOfFile => cases h.ofWrite _ List.mem_cons_self
  | awaitValues => cases h.ofWrite _ List.mem_cons_self

theorem expireOp_ahead (hCaller : s.caller = some call)
    (hOps : call.ops = op :: (mid ++ executeOps setup.config point)) (h : Ahead setup point value op mid) :
    WriteStep setup s (s.expireOp setup call op (mid ++ executeOps setup.config point)) call point value := by
  have hStay : WritePhase setup s point value call.ops := by
    rw [hOps]
    exact .ahead h
  cases op with
  | awaitStart =>
    rw [expireOp]
    split
    · exact .proceed rfl (h.phase id)
    · exact .fail rfl
  | window frame => exact checkWindow_write hCaller hStay (.ahead (h.swap rfl id))
  | awaitControl other cause message => exact .fail rfl
  | awaitParameter ioa typeId causes keep message => cases h.ofWrite _ List.mem_cons_self
  | awaitFiles nameOfFile => cases h.ofWrite _ List.mem_cons_self
  | awaitValues => cases h.ofWrite _ List.mem_cons_self
  | _ => exact .stay hCaller hStay

omit [Field K] [LinearOrder K] [FloorRing K] in
theorem executeOps_tail {config : IecProtocolConfig} (h : (executeOps config point).tail = op :: rest) :
    op = .awaitControl point config.activationTerminationCot "IEC104 activation termination timeout" ∧ rest = [] := by
  rw [executeOps, List.tail_cons] at h
  split at h
  · obtain ⟨rfl, rfl⟩ := List.cons.inj h
    exact ⟨rfl, rfl⟩
  · cases h

theorem takeControl_write {cause : Int} (hCaller : s.caller = some call) (hAnswer : call.answer = .ok)
    (hPhase : WritePhase setup s point value call.ops) (hExecuted : s.Executed setup point value)
    (hRest : rest = [] ∨ rest = (executeOps setup.config point).tail)
    (hAnswered : (∃ value ∈ s.client.controlValues, controlConfirmationMatches point value cause = true) →
      s.Answered setup point) :
    WriteStep setup s (s.takeControl call point cause rest) call point value := by
  rw [takeControl]
  split
  · rename_i hAny
    have hNow := hAnswered (List.any_eq_true.mp hAny)
    cases rest with
    | nil =>
      refine .returns .ok rfl ?_ fun _ => ⟨hExecuted, hNow⟩
      rw [← hAnswer]
      rfl
    | cons op rest =>
      obtain hNil | hTail := hRest
      · cases hNil
      · exact .proceed rfl (.confirmed hTail.symm hExecuted hNow)
  · exact .stay hCaller hPhase

theorem runOp_write {fault : Option String} (hCaller : s.caller = some call) (hAnswer : call.answer = .ok)
    (hPhase : WritePhase setup s point value call.ops) (hOps : call.ops = op :: rest)
    (hLeft : ∀ frame, call.ops = .send frame :: executeOps setup.config point → ¬ s.Pending setup point) :
    WriteStep setup s (s.runOp setup call op rest fault) call point value := by
  have hPhase' := hPhase
  rw [hOps] at hPhase'
  generalize hAll : op :: rest = ops at hPhase'
  cases hPhase' with
  | ahead h =>
    obtain ⟨rfl, rfl⟩ := List.cons.inj hAll
    refine runOp_ahead hCaller hOps h fun frame hOp hMid => hLeft frame ?_
    rw [hOps, hOp, hMid]
    rfl
  | waiting hExecuted h =>
    obtain ⟨rfl, rfl⟩ := List.cons.inj hAll
    exact takeControl_write hCaller hAnswer hPhase hExecuted (.inr rfl) fun hAny => h (.inl hAny)
  | confirmed hTail hExecuted h =>
    obtain ⟨rfl, rfl⟩ := List.cons.inj hAll
    obtain ⟨rfl, rfl⟩ := executeOps_tail hTail
    exact takeControl_write hCaller hAnswer hPhase hExecuted (.inl rfl) fun _ => h

theorem expireOp_write (hCaller : s.caller = some call) (hPhase : WritePhase setup s point value call.ops)
    (hOps : call.ops = op :: rest) : WriteStep setup s (s.expireOp setup call op rest) call point value := by
  have hPhase' := hPhase
  rw [hOps] at hPhase'
  generalize hAll : op :: rest = ops at hPhase'
  cases hPhase' with
  | ahead h =>
    obtain ⟨rfl, rfl⟩ := List.cons.inj hAll
    exact expireOp_ahead hCaller hOps h
  | waiting hExecuted h =>
    obtain ⟨rfl, rfl⟩ := List.cons.inj hAll
    exact .fail rfl
  | confirmed hTail hExecuted h =>
    obtain ⟨rfl, rfl⟩ := List.cons.inj hAll
    obtain ⟨rfl, rfl⟩ := executeOps_tail hTail
    exact .fail rfl

theorem WritePhase.start (s : Session K) (point : IecPoint K) (value : K) :
    WritePhase setup s point value (.connect :: .start :: writeOps setup.config point value) := by
  rw [writeOps]
  cases hSelect : point.write.iec.selectBeforeExecute with
  | false =>
    have h : Ahead setup point value .connect [.start, .number (.control point value false)] :=
      ⟨by simp [OfWrite], by simp, by simp⟩
    exact .ahead h
  | true =>
    have h : Ahead setup point value .connect [.start, .number (.control point value true),
        .awaitControl point 7 "IEC104 select confirmation timeout", .number (.control point value false)] :=
      ⟨by simp [OfWrite], by simp, by simp⟩
    exact .ahead h

end Write

end Session

end EdgeGateway.Iec
