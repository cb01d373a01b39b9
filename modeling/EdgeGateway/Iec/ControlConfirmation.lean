import EdgeGateway.Iec.WriteCall

/-! # Which confirmation a control command returns on -/

namespace EdgeGateway.Iec

variable {K : Type} [Field K] [LinearOrder K] [FloorRing K] (setup : Setup K)

namespace Session

section Runs

variable {s : Session K}

def Confirming (s : Session K) : Prop :=
  ∀ call point value, s.caller = some call → call.request = .writeByPoint point value →
    call.answer = .ok ∧ WritePhase setup s point value call.ops

/-- Nothing the point's test accepts is left over when the execute command goes out, and what the peer then
    sends and passes the test confirms that command. -/
def ConfirmCondition (s : Session K) : Event K → Prop
  | .advance _ =>
    match s.caller with
    | some ⟨.writeByPoint point _, .send _ :: rest, _⟩ =>
      rest = executeOps setup.config point → ¬ s.Pending setup point
    | _ => True
  | .peerSends frame =>
    match s.caller with
    | some ⟨.writeByPoint point _, ops, _⟩ =>
      ops = executeOps setup.config point →
        ∀ confirmation ∈ controlValuesOf setup frame, Accepts point confirmation → PositiveConfirmation setup point frame
    | _ => True
  | _ => True

omit [LinearOrder K] [FloorRing K] in
theorem ConfirmCondition.sent {call : Call K} {point : IecPoint K} {value : K} {fault : Option String} {frame : List UInt8}
    (h : s.ConfirmCondition setup (.advance fault)) (hCaller : s.caller = some call)
    (hRequest : call.request = .writeByPoint point value) (hOps : call.ops = .send frame :: executeOps setup.config point) :
    ¬ s.Pending setup point := by
  obtain ⟨request, ops, answer⟩ := call
  cases hRequest
  cases hOps
  rw [ConfirmCondition, hCaller] at h
  exact h rfl

omit [LinearOrder K] [FloorRing K] in
theorem ConfirmCondition.answered {call : Call K} {point : IecPoint K} {value : K} {frame : List UInt8}
    {confirmation : IecDataValue K} (h : s.ConfirmCondition setup (.peerSends frame)) (hCaller : s.caller = some call)
    (hRequest : call.request = .writeByPoint point value) (hOps : call.ops = executeOps setup.config point)
    (hMem : confirmation ∈ controlValuesOf setup frame) (hAccepts : Accepts point confirmation) :
    PositiveConfirmation setup point frame := by
  obtain ⟨request, ops, answer⟩ := call
  cases hRequest
  rw [ConfirmCondition, hCaller] at h
  exact h hOps confirmation hMem hAccepts

inductive CallStep (s t : Session K) (call : Call K) : Prop where
  | goes (next : Call K) (hCaller : t.caller = some next) (hRequest : next.request = call.request)
    (hReturned : t.returned = s.returned) : CallStep s t call
  | returns (outcome : Outcome K) (hCaller : t.caller = none)
    (hReturned : t.returned = s.returned ++ [(call.request, outcome)]) : CallStep s t call

section CallStep

omit [Field K] [LinearOrder K] [FloorRing K]

variable {t : Session K} {call next : Call K} {rest : List (Op K)}

theorem CallStep.proceed {ops : List (Op K)} (hReturned : t.returned = s.returned)
    (hRequest : next.request = call.request) : CallStep s (t.proceed next ops) call := by
  cases ops with
  | nil =>
    refine .returns next.answer rfl ?_
    rw [← hReturned, ← hRequest]
    rfl
  | cons op rest => exact .goes _ rfl hRequest hReturned

theorem CallStep.fail {message : String} (hReturned : t.returned = s.returned) :
    CallStep s (t.fail call message) call := by
  refine .returns (.failed message) rfl ?_
  rw [← hReturned]
  rfl

theorem sendFrame_call {frame : List UInt8} {ok : Bool} : CallStep s (s.sendFrame call frame rest ok) call := by
  rw [sendFrame, sendAll]
  cases hOk : (s.client.connected && ok) with
  | true => exact .proceed rfl rfl
  | false => exact .fail (sameCall_disconnect s).returned

theorem checkWindow_call {frame : List UInt8} {late : Bool} (hCaller : s.caller = some call) :
    CallStep s (s.checkWindow setup call frame rest late) call := by
  rw [checkWindow]
  split
  · exact .proceed rfl rfl
  · split
    · exact .fail rfl
    · split
      · exact .proceed rfl rfl
      · split
        · exact .fail rfl
        · exact .goes call hCaller rfl rfl

theorem takeFiles_call {nameOfFile : Int} {late : Bool} (hCaller : s.caller = some call) :
    CallStep s (s.takeFiles call nameOfFile rest late) call := by
  rw [takeFiles]
  generalize takeSegments nameOfFile s.client.fileSegments = taken
  dsimp only
  split
  · exact .goes call hCaller rfl rfl
  · exact .proceed rfl rfl

theorem expireOp_call {op : Op K} (hCaller : s.caller = some call) : CallStep s (s.expireOp setup call op rest) call := by
  cases op with
  | awaitStart =>
    rw [expireOp]
    split
    · exact .proceed rfl rfl
    · exact .fail rfl
  | window frame => exact checkWindow_call setup hCaller
  | awaitControl point cause message => exact .fail rfl
  | awaitParameter ioa typeId causes keep message =>
    obtain _ | ⟨first, _ | ⟨second, causes⟩⟩ := causes
    · exact .fail rfl
    · exact .fail rfl
    · rw [expireOp]
      exact .proceed rfl rfl
  | awaitFiles nameOfFile => exact takeFiles_call hCaller
  | awaitValues => exact .proceed rfl rfl
  | _ => exact .goes call hCaller rfl rfl

end CallStep

theorem runOp_call {op : Op K} {call : Call K} {rest : List (Op K)} {fault : Option String}
    (hCaller : s.caller = some call) : CallStep s (s.runOp setup call op rest fault) call := by
  have hStay : CallStep s s call := .goes call hCaller rfl rfl
  cases op with
  | connect =>
    rw [runOp]
    cases fault with
    | none =>
      rw [ensureConnected]
      split <;> exact .proceed rfl rfl
    | some message =>
      rw [ensureConnected]
      split
      · exact .proceed rfl rfl
      · exact .fail rfl
  | start =>
    rw [runOp]
    split
    · exact .proceed rfl rfl
    · exact sendFrame_call
  | awaitStart =>
    rw [runOp]
    split
    · exact .proceed rfl rfl
    · exact hStay
  | number command =>
    rw [runOp, takeNumber]
    exact .proceed rfl rfl
  | build command number =>
    rw [runOp]
    split
    · exact .fail rfl
    · exact .proceed rfl rfl
  | window frame => exact checkWindow_call setup hCaller
  | send frame => exact sendFrame_call
  | awaitControl point cause message =>
    rw [runOp, takeControl]
    split
    · exact .proceed rfl rfl
    · exact hStay
  | awaitParameter ioa typeId causes keep message =>
    rw [runOp, takeParameter]
    split
    · exact hStay
    · refine .proceed rfl ?_
      split <;> rfl
  | awaitFiles nameOfFile => exact takeFiles_call hCaller
  | awaitValues =>
    rw [runOp]
    split
    · exact hStay
    · exact .proceed rfl rfl

theorem confirming_of_step {t : Session K} {call : Call K} (hCall : CallStep s t call)
    (hWrite : ∀ point value, call.request = .writeByPoint point value →
      call.answer = .ok ∧ WriteStep setup s t call point value) : t.Confirming setup := by
  intro next point value hNext hRequest
  cases hCall with
  | goes other hCaller hSame hReturned =>
    obtain rfl := Option.some.inj (hCaller.symm.trans hNext)
    obtain ⟨hAnswer, hStep⟩ := hWrite point value (hSame.symm.trans hRequest)
    cases hStep with
    | goes hCaller' hReturned' hPhase =>
      obtain rfl := Option.some.inj (hCaller'.symm.trans hNext)
      exact ⟨hAnswer, hPhase⟩
    | returns outcome hCaller' hReturned' h =>
      rw [hCaller'] at hNext
      cases hNext
  | returns outcome hCaller hReturned =>
    rw [hCaller] at hNext
    cases hNext

theorem Confirming.same {t : Session K} (h : s.Confirming setup) (hSame : SameCall s t)
    (hPending : ∀ point, t.Pending setup point → s.Pending setup point) : t.Confirming setup := by
  intro call point value hCaller hRequest
  rw [hSame.caller] at hCaller
  obtain ⟨hAnswer, hPhase⟩ := h call point value hCaller hRequest
  refine ⟨hAnswer, hPhase.mono hSame.iFrames ?_ fun _ hLater => .inl (hPending point hLater)⟩
  intro frame hFrame
  rw [hSame.answers]
  exact hFrame

omit [LinearOrder K] [FloorRing K] in
theorem pending_of_values {t : Session K} {point : IecPoint K}
    (hValues : t.client.controlValues = s.client.controlValues) (hInbound : t.inbound = s.inbound)
    (h : t.Pending setup point) : s.Pending setup point := by
  rw [Pending, hValues, hInbound] at h
  exact h

theorem Confirming.sendAll {frame : List UInt8} {ok : Bool} (h : s.Confirming setup)
    (hOther : isIec104IFrame frame = false) : (s.sendAll frame ok).1.Confirming setup := by
  obtain ⟨hSame, hValues⟩ := sendAll_other s frame hOther ok
  exact Confirming.same setup h hSame fun point => pending_of_values setup hValues hSame.inbound

theorem Confirming.receive (h : s.Confirming setup) (replied : Bool) : (s.receive setup replied).Confirming setup := by
  rw [Session.receive]
  cases hInbound : s.inbound with
  | nil => exact h
  | cons frame inbound =>
    obtain ⟨hSame, hValues⟩ := handleIec104Frame_spec setup { s with inbound } frame replied
    intro call point value hCaller hRequest
    rw [hSame.caller] at hCaller
    obtain ⟨hAnswer, hPhase⟩ := h call point value hCaller hRequest
    have hAnswers : ∀ other ∈ s.answers, other ∈ ({ s with inbound }.handleIec104Frame setup frame replied).answers := by
      intro other hOther
      rw [hSame.answers]
      exact hOther
    refine ⟨hAnswer, hPhase.mono hSame.iFrames hAnswers fun _ hLater => .inl ?_⟩
    obtain ⟨other, hOther, hAccepts⟩ | ⟨other, hOther, hAccepts⟩ := hLater
    · obtain hOld | hNew := hValues other hOther
      · exact .inl ⟨other, hOld, hAccepts⟩
      · refine .inr ⟨frame, ?_, other, hNew, hAccepts⟩
        rw [hInbound]
        exact List.mem_cons_self
    · refine .inr ⟨other, ?_, hAccepts⟩
      rw [hSame.inbound] at hOther
      rw [hInbound]
      exact List.mem_cons_of_mem _ hOther

theorem Confirming.peerSends {frame : List UInt8} (h : s.Confirming setup)
    (hCondition : s.ConfirmCondition setup (.peerSends frame)) :
    (s.step setup (.peerSends frame)).Confirming setup := by
  rw [step]
  split
  · intro call point value hCaller hRequest
    obtain ⟨hAnswer, hPhase⟩ := h call point value hCaller hRequest
    refine ⟨hAnswer, hPhase.mono rfl (fun _ hFrame => List.mem_append_left _ hFrame) fun hOps hLater => ?_⟩
    obtain hOld | ⟨other, hOther, confirmation, hMem, hAccepts⟩ := hLater
    · exact .inl (.inl hOld)
    · obtain hEarlier | hNow := List.mem_append.mp hOther
      · exact .inl (.inr ⟨other, hEarlier, confirmation, hMem, hAccepts⟩)
      · obtain rfl := List.mem_singleton.mp hNow
        have hPositive := ConfirmCondition.answered setup hCondition hCaller hRequest hOps hMem hAccepts
        exact .inr ⟨other, List.mem_append_right _ List.mem_cons_self, hPositive⟩
  · exact h

theorem Confirming.begin (h : s.Confirming setup) (request : Request K) : (s.begin setup request).Confirming setup := by
  rw [Session.begin]
  split
  · exact h
  · rename_i hNone
    split
    · intro call point value hCaller
      rw [hNone] at hCaller
      cases hCaller
    · rintro call point value hCaller hRequest
      obtain rfl := Option.some.inj hCaller
      obtain rfl : request = .writeByPoint point value := hRequest
      exact ⟨rfl, .start _ point value⟩

theorem step_write {event : Event K} {call : Call K} {point : IecPoint K} {value : K} (h : s.Confirming setup)
    (hCondition : s.ConfirmCondition setup event) (hCaller : s.caller = some call)
    (hRequest : call.request = .writeByPoint point value) (hThread : event = .expire ∨ ∃ fault, event = .advance fault) :
    call.answer = .ok ∧ WriteStep setup s (s.step setup event) call point value := by
  obtain ⟨hAnswer, hPhase⟩ := h call point value hCaller hRequest
  refine ⟨hAnswer, ?_⟩
  cases hOps : call.ops with
  | nil => exact absurd hOps hPhase.ne_nil
  | cons op rest =>
    obtain rfl | ⟨fault, rfl⟩ := hThread
    · rw [step, withCaller, hCaller]
      dsimp only
      rw [hOps]
      exact expireOp_write hCaller hPhase hOps
    · rw [step, withCaller, hCaller]
      dsimp only
      rw [hOps]
      exact runOp_write hCaller hAnswer hPhase hOps fun frame hSend =>
        ConfirmCondition.sent setup hCondition hCaller hRequest hSend

theorem step_call {event : Event K} {call : Call K} (hCaller : s.caller = some call)
    (hThread : event = .expire ∨ ∃ fault, event = .advance fault) : CallStep s (s.step setup event) call := by
  have hStay : CallStep s s call := .goes call hCaller rfl rfl
  obtain rfl | ⟨fault, rfl⟩ := hThread
  · rw [step, withCaller, hCaller]
    dsimp only
    split
    · exact hStay
    · exact expireOp_call setup hCaller
  · rw [step, withCaller, hCaller]
    dsimp only
    split
    · exact hStay
    · exact runOp_call setup hCaller

theorem step_idle {event : Event K} (hCaller : s.caller = none)
    (hThread : event = .expire ∨ ∃ fault, event = .advance fault) : s.step setup event = s := by
  rcases hThread with rfl | ⟨fault, rfl⟩ <;> rw [step, withCaller, hCaller]

theorem step_thread {event : Event K} (h : s.Confirming setup) (hCondition : s.ConfirmCondition setup event)
    (hThread : event = .expire ∨ ∃ fault, event = .advance fault) : (s.step setup event).Confirming setup := by
  cases hCaller : s.caller with
  | none =>
    rw [step_idle setup hCaller hThread]
    exact h
  | some call =>
    exact confirming_of_step setup (step_call setup hCaller hThread) fun point value hRequest =>
      step_write setup h hCondition hCaller hRequest hThread

theorem step_confirming {event : Event K} (h : s.Confirming setup) (hCondition : s.ConfirmCondition setup event) :
    (s.step setup event).Confirming setup := by
  cases event with
  | begin request => exact Confirming.begin setup h request
  | advance fault => exact step_thread setup h hCondition (.inr ⟨fault, rfl⟩)
  | expire => exact step_thread setup h hCondition (.inl rfl)
  | peerSends frame => exact Confirming.peerSends setup h hCondition
  | receive replied => exact Confirming.receive setup h replied
  | breakLink =>
    exact Confirming.same setup h (sameCall_disconnect s) fun point =>
      pending_of_values setup (controlValues_disconnect s) (sameCall_disconnect s).inbound
  | delayedAck replied =>
    rw [step, delayedAck]
    split
    · have hReset : s.resetAck.Confirming setup :=
        Confirming.same setup h ⟨rfl, rfl, rfl, rfl, rfl⟩ fun point => pending_of_values setup rfl rfl
      exact Confirming.sendAll setup hReset (not_iFrame_sFrame _)
    · exact h
  | testLink replied => exact Confirming.sendAll setup h (by decide)

theorem returned_ok {event : Event K} {request : Request K}
    (h : (s.step setup event).returned = s.returned ++ [(request, .ok)]) :
    (event = .expire ∨ ∃ fault, event = .advance fault) ∧ ∃ call, s.caller = some call := by
  have hGrows : (s.step setup event).returned ≠ s.returned := by
    rw [h]
    simp
  cases event with
  | advance fault =>
    refine ⟨.inr ⟨fault, rfl⟩, ?_⟩
    cases hCaller : s.caller with
    | some call => exact ⟨call, rfl⟩
    | none => exact absurd (congrArg Session.returned (step_idle setup hCaller (.inr ⟨fault, rfl⟩))) hGrows
  | expire =>
    refine ⟨.inl rfl, ?_⟩
    cases hCaller : s.caller with
    | some call => exact ⟨call, rfl⟩
    | none => exact absurd (congrArg Session.returned (step_idle setup hCaller (.inl rfl))) hGrows
  | begin other =>
    rw [step, Session.begin] at h
    split at h
    · simp at h
    · split at h
      · simp at h
      · simp at h
  | peerSends frame =>
    rw [step] at hGrows
    split at hGrows
    · exact absurd rfl hGrows
    · exact absurd rfl hGrows
  | receive replied =>
    rw [step, receive] at hGrows
    split at hGrows
    · exact absurd rfl hGrows
    · exact absurd (handleIec104Frame_spec setup _ _ replied).1.returned hGrows
  | breakLink => exact absurd (sameCall_disconnect s).returned hGrows
  | delayedAck replied =>
    rw [step, delayedAck] at hGrows
    split at hGrows
    · exact absurd (sendAll_other s.resetAck _ (not_iFrame_sFrame _) replied).1.returned hGrows
    · exact absurd rfl hGrows
  | testLink replied => exact absurd (sendAll_other s _ (by decide) replied).1.returned hGrows

/-- A call of `writeByPoint` that returns success has put its execute command out last, and the peer has
    confirmed it. -/
theorem success_is_confirmed (events : List (Event K))
    (hRun : Run.Guarded (step setup) (ConfirmCondition setup) {} events) (done : List (Event K)) (event : Event K)
    (hDone : done ++ [event] <+: events) (point : IecPoint K) (value : K)
    (hReturned : (Run.after (step setup) {} (done ++ [event])).returned =
      (Run.after (step setup) {} done).returned ++ [(.writeByPoint point value, .ok)]) :
    (Run.after (step setup) {} done).Executed setup point value ∧
      (Run.after (step setup) {} done).Answered setup point := by
  have hStart : Confirming setup ({} : Session K) := by
    intro call point value hCaller
    cases hCaller
  have hBefore := (List.prefix_append done [event]).trans hDone
  have hConfirming := Run.invariant (step setup) (Confirming setup) hStart
    (fun _ _ hInv hGuard => step_confirming setup hInv hGuard) (hRun.before (step setup) hBefore)
  have hCondition := hRun done event hDone
  rw [Run.after_snoc] at hReturned
  generalize Run.after (step setup) {} done = s at hConfirming hCondition hReturned ⊢
  obtain ⟨hThread, call, hCaller⟩ := returned_ok setup hReturned
  have hCall := step_call setup hCaller hThread
  have hRequest : call.request = .writeByPoint point value := by
    cases hCall with
    | goes next hNext hSame hKept =>
      rw [hKept] at hReturned
      simp at hReturned
    | returns outcome hNone hGrown =>
      rw [hGrown, List.append_cancel_left_eq] at hReturned
      simp only [List.cons.injEq, Prod.mk.injEq, and_true] at hReturned
      exact hReturned.1
  obtain ⟨-, hStep⟩ := step_write setup hConfirming hCondition hCaller hRequest hThread
  cases hStep with
  | goes hNext hKept hPhase =>
    rw [hKept] at hReturned
    simp at hReturned
  | returns outcome hNone hGrown h =>
    rw [hGrown, List.append_cancel_left_eq] at hReturned
    simp only [List.cons.injEq, Prod.mk.injEq, and_true] at hReturned
    exact h hReturned.2

end Runs

def switchPoint : IecPoint ℚ :=
  ⟨0, ⟨[], {}⟩, ⟨true, -1, [], 1, 0, none, none, [], { ioa := 100, typeId := 45, commonAddress := 1 }⟩⟩

def switchOn : Request ℚ := .writeByPoint switchPoint 1

def switchAnswer (cause : UInt8) : List UInt8 :=
  [0x68, 14, 0, 0, 2, 0, 45, 1, cause, 0, 1, 0, 100, 0, 0, 1]

def sendCommand : List (Event ℚ) := [.advance none, .advance none, .advance none, .advance none]

def switchRun (cause : UInt8) : List (Event ℚ) :=
  .begin switchOn :: bringUp ++ sendCommand ++ [.peerSends (switchAnswer cause), .receive true]

def lateRun : List (Event ℚ) :=
  .begin switchOn :: bringUp ++ sendCommand ++ [.expire, .peerSends (switchAnswer 7), .receive true] ++
    [.begin switchOn, .advance none, .advance none] ++ sendCommand

/-- A refusal makes the call succeed, and so does the confirmation of a command that had timed out. -/
theorem refused_and_late_succeed :
    ((Run.after (step plainSetup) {} (switchRun 0x47 ++ [.advance none])).returned =
        (Run.after (step plainSetup) {} (switchRun 0x47)).returned ++ [(switchOn, .ok)] ∧
      ¬ (Run.after (step plainSetup) {} (switchRun 0x47)).Answered plainSetup switchPoint) ∧
    (Run.after (step plainSetup) {} (lateRun ++ [.advance none])).returned =
        (Run.after (step plainSetup) {} lateRun).returned ++ [(switchOn, .ok)] ∧
      ¬ (Run.after (step plainSetup) {} lateRun).Answered plainSetup switchPoint := by
  have hAnswers : (Run.after (step plainSetup) {} (switchRun 0x47)).answers = [switchAnswer 0x47] := by rfl
  have hNoAnswers : (Run.after (step plainSetup) {} lateRun).answers = [] := by rfl
  refine ⟨⟨by rfl, ?_⟩, by rfl, ?_⟩
  · rintro ⟨frame, hFrame, hPositive, -⟩
    rw [hAnswers] at hFrame
    obtain rfl := List.mem_singleton.mp hFrame
    exact absurd hPositive (by decide)
  · rintro ⟨frame, hFrame, -⟩
    rw [hNoAnswers] at hFrame
    cases hFrame

theorem confirmed_switch :
    (Run.after (step plainSetup) {} (switchRun 7)).Executed plainSetup switchPoint 1 ∧
      (Run.after (step plainSetup) {} (switchRun 7)).Answered plainSetup switchPoint := by
  refine success_is_confirmed plainSetup (switchRun 7 ++ [.advance none]) ?_ (switchRun 7) (.advance none)
    (List.prefix_refl _) switchPoint 1 (by rfl)
  simp only [switchRun, bringUp, sendCommand, List.cons_append, List.nil_append, Run.guarded_cons]
  refine ⟨trivial, trivial, trivial, ?_, trivial, trivial, trivial, trivial, trivial, ?_, ?_, trivial, trivial,
    Run.guarded_nil _ _ _⟩
  · intro _ confirmation hMem
    have hValues : controlValuesOf plainSetup iec104StartDtCon = [] := by rfl
    rw [hValues] at hMem
    cases hMem
  · rintro - (⟨value, hValue, -⟩ | ⟨frame, hFrame, -⟩)
    · cases hValue
    · cases hFrame
  · intro _ confirmation hMem _
    have hFields : ∀ confirmation ∈ controlValuesOf plainSetup (switchAnswer 7),
        confirmation.cause = 7 ∧ confirmation.typeId = 45 ∧ confirmation.commonAddress = 1 ∧ confirmation.ioa = 100 := by
      decide +kernel
    exact ⟨by decide, confirmation, hMem, hFields confirmation hMem⟩

end Session

end EdgeGateway.Iec
