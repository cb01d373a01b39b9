import EdgeGateway.Foundation.Run
import EdgeGateway.Iec.Link
import Mathlib.Data.Rat.Floor

/-! # The numbers on the I-frames -/

namespace EdgeGateway.Iec

namespace Session

variable {K : Type} {config : IecProtocolConfig} {s : Session K} {frame : List UInt8}

section Receive

variable [Field K] (setup : Setup K)

theorem store_counters (client : IecTcpClient K) (asdu : IecAsdu K) :
    (client.store asdu).connected = client.connected ∧ (client.store asdu).sendSequence = client.sendSequence ∧
      (client.store asdu).remoteReceiveSequence = client.remoteReceiveSequence := by
  rw [IecTcpClient.store]
  split
  · exact ⟨rfl, rfl, rfl⟩
  · exact ⟨rfl, rfl, rfl⟩

theorem link_storeAsdu (s : Session K) (payload : List UInt8) : (s.storeAsdu setup payload).link = s.link := by
  rw [storeAsdu]
  split
  · rfl
  · split
    · rfl
    · rename_i asdu _
      obtain ⟨hConnected, hSend, hRemote⟩ := store_counters s.client asdu
      rw [link, hConnected, hSend, hRemote]
      rfl

theorem ops_storeAsdu (s : Session K) (payload : List UInt8) : (s.storeAsdu setup payload).ops = s.ops := by
  rw [storeAsdu]
  split
  · rfl
  · split <;> rfl

theorem Sound.storeAsdu (h : s.Sound config) (payload : List UInt8) : (s.storeAsdu setup payload).Sound config := by
  rw [Sound, link_storeAsdu, ops_storeAsdu]
  exact h

theorem Sound.handleIFrame (h : s.Sound config) (hAck : s.client.connected = true → s.Acknowledges frame)
    (replied : Bool) : (s.handleIFrame setup frame replied).Sound config := by
  have hCounted : ((s.countReceived frame).acknowledgedBy frame).Sound config :=
    Sound.acknowledgedBy (s := s.countReceived frame) h hAck
  rw [Session.handleIFrame]
  generalize (s.countReceived frame).acknowledgedBy frame = counted at hCounted ⊢
  dsimp only
  split
  · have hReset : counted.resetAck.Sound config := hCounted
    have hSent := sendAll_sound hReset (not_iFrame_sFrame counted.client.receiveSequence) replied
    split
    · exact Sound.storeAsdu setup hSent _
    · exact hSent
  · exact Sound.storeAsdu setup hCounted _

theorem Sound.handleIec104Frame (h : s.Sound config)
    (hAck : s.client.connected = true → isIec104IFrame frame = true ∨ isIec104SFrame frame = true → s.Acknowledges frame)
    (replied : Bool) : (s.handleIec104Frame setup frame replied).Sound config := by
  rw [Session.handleIec104Frame]
  split
  · exact h
  · split
    · exact sendAll_sound h (by decide) replied
    · split
      · split
        · rename_i hSFrame
          exact h.acknowledgedBy fun hConnected => hAck hConnected (.inr hSFrame)
        · exact h
      · split
        · rename_i hIFrame
          exact Sound.handleIFrame setup h (fun hConnected => hAck hConnected (.inl hIFrame)) replied
        · exact h

omit [Field K] in
theorem Sound.delayedAck (h : s.Sound config) (replied : Bool) : (s.delayedAck setup replied).Sound config := by
  rw [Session.delayedAck]
  split
  · have hReset : s.resetAck.Sound config := h
    exact sendAll_sound hReset (not_iFrame_sFrame _) replied
  · exact h

end Receive

theorem Sound.proceed {call : Call K} {ops : List (Op K)} (h : s.link.Sound config ops) :
    (s.proceed call ops).Sound config := by
  rw [Sound, link_proceed, ops_proceed]
  exact h

theorem Sound.fail {call : Call K} {ops : List (Op K)} {message : String} (h : s.link.Sound config ops)
    (hDown : s.client.connected = false) : (s.fail call message).Sound config := by
  rw [Sound, link_fail, ops_fail]
  exact Link.Sound.down s.link h hDown rfl rfl (by simp)

theorem Sound.fail_idle {call : Call K} {op : Op K} {rest : List (Op K)} {message : String}
    (h : s.link.Sound config (op :: rest)) (hOp : op.Numbered = false) : (s.fail call message).Sound config := by
  rw [Sound, link_fail, ops_fail]
  have hNext : s.link.Sound config ([] : List (Op K)) := by
    have hSwap : s.link.Sound config [op] :=
      ⟨h.consecutive, h.acknowledged_le, h.window, by simp, fun hConnected =>
        ⟨(h.live hConnected).counted, (h.live hConnected).remote, (h.live hConnected).near, (h.live hConnected).room⟩⟩
    exact hSwap.next hOp
  exact hNext

section Caller

variable (setup : Setup K) {call : Call K} {rest : List (Op K)}

theorem takeNumber_sound {command : Command K} (h : s.link.Sound config (.number command :: rest)) :
    (s.takeNumber call command rest).Sound config := by
  rw [takeNumber]
  apply Sound.proceed
  refine ⟨h.consecutive, h.acknowledged_le, h.window, h.tail, fun hConnected => ?_⟩
  have hLive := h.live hConnected
  refine ⟨⟨?_, hLive.counted⟩, hLive.remote, hLive.near, hLive.room⟩
  have hCounted : s.client.sendSequence = s.link.sent % 2 ^ 15 := hLive.counted
  change (s.client.sendSequence + 1) % 2 ^ 15 = (s.link.sent + 1) % 2 ^ 15
  rw [hCounted, Nat.mod_add_mod]

theorem window_sound (h : s.link.Sound setup.config (.window frame :: rest)) (hOpen : s.windowOpen setup = true) :
    s.link.Sound setup.config (.send frame :: rest) := by
  refine ⟨h.consecutive, h.acknowledged_le, h.window, h.tail, fun hConnected => ?_⟩
  have hLive := h.live hConnected
  obtain ⟨hCounted, hIFrame, hSequence⟩ := hLive.counted
  refine ⟨⟨hCounted, hIFrame, hSequence, fun hLimit => ?_⟩, hLive.remote, hLive.near, hLive.room⟩
  have hRoom := hLive.room hLimit
  have hRemote := hLive.remote
  have hAcknowledged := h.acknowledged_le
  have hOutstanding : outstanding s.link.sendSequence s.link.remoteReceiveSequence ≤ windowLimit setup.config :=
    of_decide_eq_true hOpen
  rw [outstanding, hCounted, hRemote] at hOutstanding
  omega

theorem checkWindow_sound {late : Bool} (h : s.Sound setup.config) (hOps : s.ops = .window frame :: rest)
    (hOpen : late = true → s.client.connected = true → s.windowOpen setup = true) :
    (s.checkWindow setup call frame rest late).Sound setup.config := by
  have hWindow : s.link.Sound setup.config (.window frame :: rest) := by
    rw [← hOps]
    exact h
  rw [checkWindow]
  split
  · rename_i hOther
    apply Sound.proceed
    refine Link.Sound.down s.link hWindow ?_ rfl rfl ?_
    · cases hConnected : s.link.connected with
      | false => rfl
      | true =>
        have hCounted := (hWindow.live hConnected).counted
        rw [hCounted.2.1] at hOther
        cases hOther
    · exact hWindow.tail
  · split
    · rename_i hDown
      exact Sound.fail hWindow hDown
    · rename_i hUp
      split
      · rename_i hOpenNow
        exact Sound.proceed (window_sound setup hWindow hOpenNow)
      · rename_i hClosed
        split
        · rename_i hLate
          exact absurd (hOpen hLate (by simpa using hUp)) hClosed
        · exact h

theorem put_sound (h : s.link.Sound config (.send frame :: rest)) (hConnected : s.client.connected = true)
    (hNear : windowLimit config < 2 ^ 15 - 1 ∨ s.sent + 1 < s.acknowledged + 2 ^ 15) :
    (s.put frame).link.Sound config rest := by
  rw [link_put s (h.live hConnected).counted.2.1]
  rw [← sent_link] at hNear
  exact h.sendNext hConnected hNear

theorem sendFrame_sound {ok : Bool} (h : s.Sound config)
    (hPut : s.client.connected = true → (s.put frame).link.Sound config rest) :
    (s.sendFrame call frame rest ok).Sound config := by
  rw [sendFrame, sendAll]
  cases hOk : (s.client.connected && ok) with
  | true => exact Sound.proceed (hPut (Bool.and_eq_true_iff.mp hOk).1)
  | false =>
    apply Sound.fail h.disconnect
    change s.disconnect.link.connected = false
    rw [link_disconnect]

theorem takeFiles_sound {nameOfFile : Int} {late : Bool} (h : s.Sound config)
    (hOps : s.ops = .awaitFiles nameOfFile :: rest) : (s.takeFiles call nameOfFile rest late).Sound config := by
  have hLink : s.link.Sound config (.awaitFiles nameOfFile :: rest) := by
    rw [← hOps]
    exact h
  rw [takeFiles]
  generalize takeSegments nameOfFile s.client.fileSegments = taken
  dsimp only
  split
  · exact h
  · exact Sound.proceed (hLink.next rfl)

theorem ensureConnected_sound {fault : Option String} (h : s.link.Sound config (.connect :: rest)) :
    (s.ensureConnected call rest fault).Sound config := by
  cases fault with
  | none =>
    rw [ensureConnected]
    split
    · exact Sound.proceed (h.next rfl)
    · apply Sound.proceed
      exact Link.sound_fresh h.tail true
  | some message =>
    rw [ensureConnected]
    split
    · exact Sound.proceed (h.next rfl)
    · exact Sound.fail_idle h rfl

theorem expireOp_sound {op : Op K} (h : s.Sound setup.config) (hOps : s.ops = op :: rest)
    (hOpen : ∀ frame, op = .window frame → s.client.connected = true → s.windowOpen setup = true) :
    (s.expireOp setup call op rest).Sound setup.config := by
  have hLink : s.link.Sound setup.config (op :: rest) := by
    rw [← hOps]
    exact h
  cases op with
  | awaitStart =>
    rw [expireOp]
    split
    · exact Sound.proceed (hLink.next rfl)
    · exact Sound.fail_idle hLink rfl
  | window frame => exact checkWindow_sound setup h hOps fun _ => hOpen frame rfl
  | awaitControl point cause message => exact Sound.fail_idle hLink rfl
  | awaitParameter ioa typeId causes keep message =>
    obtain _ | ⟨first, _ | ⟨second, causes⟩⟩ := causes
    · exact Sound.fail_idle hLink rfl
    · exact Sound.fail_idle hLink rfl
    · exact Sound.proceed (hLink.swap rfl rfl)
  | awaitFiles nameOfFile => exact takeFiles_sound h hOps
  | awaitValues => exact Sound.proceed (hLink.next rfl)
  | _ => exact h

variable [Field K] [LinearOrder K] [FloorRing K]

theorem build_sound {command : Command K} {sendSequence : Nat} (h : s.link.Sound config (.build command sendSequence :: rest))
    (hBuild : command.build setup.platform setup.config sendSequence s.client.receiveSequence = .ok frame) :
    s.link.Sound config (.window frame :: rest) := by
  refine ⟨h.consecutive, h.acknowledged_le, h.window, h.tail, fun hConnected => ?_⟩
  have hLive := h.live hConnected
  obtain ⟨hCounted, hNumber⟩ := hLive.counted
  rw [Command.build] at hBuild
  cases hAsdu : command.asdu setup.platform setup.config with
  | error message =>
    rw [hAsdu] at hBuild
    cases hBuild
  | ok asdu =>
    rw [hAsdu] at hBuild
    obtain ⟨hIFrame, hSequence⟩ := buildIec104IFrame_spec hBuild
    refine ⟨⟨hCounted, hIFrame, ?_⟩, hLive.remote, hLive.near, hLive.room⟩
    rw [hSequence, hNumber, Nat.mod_mod]

theorem runOp_sound {op : Op K} {fault : Option String} (h : s.Sound setup.config) (hOps : s.ops = op :: rest)
    (hBuild : ∀ command number, op = .build command number → s.client.connected = true →
      ∀ message, command.build setup.platform setup.config number s.client.receiveSequence ≠ .error message)
    (hSend : ∀ frame, op = .send frame → s.client.connected = true →
      windowLimit setup.config < 2 ^ 15 - 1 ∨ s.sent + 1 < s.acknowledged + 2 ^ 15) :
    (s.runOp setup call op rest fault).Sound setup.config := by
  have hLink : s.link.Sound setup.config (op :: rest) := by
    rw [← hOps]
    exact h
  cases op with
  | connect => exact ensureConnected_sound hLink
  | start =>
    rw [runOp]
    split
    · exact Sound.proceed (hLink.next rfl)
    · apply sendFrame_sound h
      intro _
      rw [link_put_other s (by decide)]
      exact hLink.swap rfl rfl
  | awaitStart =>
    rw [runOp]
    split
    · exact Sound.proceed (hLink.next rfl)
    · exact h
  | number command => exact takeNumber_sound hLink
  | build command number =>
    rw [runOp]
    split
    · rename_i message hError
      apply Sound.fail hLink
      cases hConnected : s.client.connected with
      | false => rfl
      | true => exact absurd hError (hBuild command number rfl hConnected message)
    · rename_i frame hFrame
      exact Sound.proceed (build_sound setup hLink hFrame)
  | window frame => exact checkWindow_sound setup h hOps (fun hLate => by cases hLate)
  | send frame => exact sendFrame_sound h fun hConnected => put_sound hLink hConnected (hSend frame rfl hConnected)
  | awaitControl point cause message =>
    rw [runOp, takeControl]
    split
    · exact Sound.proceed (hLink.next rfl)
    · exact h
  | awaitParameter ioa typeId causes keep message =>
    rw [runOp, takeParameter]
    split
    · exact h
    · exact Sound.proceed (hLink.next rfl)
  | awaitFiles nameOfFile => exact takeFiles_sound h hOps
  | awaitValues =>
    rw [runOp]
    split
    · exact h
    · exact Sound.proceed (hLink.next rfl)

end Caller

theorem withCaller_sound {run : Call K → Op K → List (Op K) → Session K} (h : s.Sound config)
    (hRun : ∀ call op rest, s.ops = op :: rest → (run call op rest).Sound config) :
    (s.withCaller run).Sound config := by
  rw [withCaller]
  cases hCaller : s.caller with
  | none => exact h
  | some call =>
    dsimp only
    split
    · exact h
    · rename_i op rest hOps
      refine hRun call op rest ?_
      rw [ops, hCaller]
      exact hOps

section Runs

variable [Field K] [LinearOrder K] [FloorRing K] (setup : Setup K)

def Buildable (command : Command K) : Prop :=
  ∃ asdu, command.asdu setup.platform setup.config = .ok asdu ∧ asdu.length ≤ 249

/-- A command whose number is out can be built and is let out in time, the window is counted within its
    modulus, and the peer acknowledges what was sent. -/
def Condition (s : Session K) : Event K → Prop
  | .advance _ =>
    match s.ops with
    | .build command _ :: _ => s.client.connected = true → Buildable setup command
    | .send _ :: _ =>
      s.client.connected = true → windowLimit setup.config < 2 ^ 15 - 1 ∨ s.sent + 1 < s.acknowledged + 2 ^ 15
    | _ => True
  | .expire =>
    match s.ops with
    | .window _ :: _ => s.client.connected = true → s.windowOpen setup = true
    | _ => True
  | .receive _ =>
    match s.inbound with
    | frame :: _ =>
      s.client.connected = true → isIec104IFrame frame = true ∨ isIec104SFrame frame = true → s.Acknowledges frame
    | [] => True
  | _ => True

theorem Buildable.build {setup : Setup K} {command : Command K} (h : Buildable setup command) (number received : Nat)
    (message : String) : command.build setup.platform setup.config number received ≠ .error message := by
  obtain ⟨asdu, hAsdu, hLength⟩ := h
  rw [Command.build, hAsdu]
  change buildIec104IFrame asdu number received ≠ _
  rw [buildIec104IFrame, if_neg (by omega)]
  intro h
  cases h

omit [LinearOrder K] [FloorRing K] in
theorem requestOps_unnumbered (request : Request K) :
    ∀ op ∈ Op.start :: requestOps setup.config request, op.Numbered = false := by
  have hAll : ((Op.start :: requestOps setup.config request).all fun op => !op.Numbered) = true := by
    cases request with
    | poll => cases hPoll : setup.config.pollOnCollect <;> simp [requestOps, hPoll, Op.Numbered]
    | writeByPoint point value =>
      cases hSelect : point.write.iec.selectBeforeExecute <;>
        cases hWait : point.write.iec.waitActivationTermination <;>
          simp [requestOps, writeOps, executeOps, hSelect, hWait, Op.Numbered]
    | _ => rfl
  intro op hOp
  simpa using List.all_eq_true.mp hAll op hOp

omit [FloorRing K] in
theorem begin_sound (h : s.Sound config) (request : Request K) : (s.begin setup request).Sound config := by
  rw [Session.begin]
  split
  · exact h
  · rename_i hCaller
    have hIdle : s.link.Sound config ([] : List (Op K)) := by
      rw [Sound, ops, hCaller] at h
      exact h
    split
    · rw [Sound, ops, hCaller]
      exact hIdle
    · refine ⟨hIdle.consecutive, hIdle.acknowledged_le, hIdle.window, ?_, fun hConnected => ?_⟩
      · exact requestOps_unnumbered setup request
      · have hLive := hIdle.live hConnected
        exact ⟨hLive.counted, hLive.remote, hLive.near, hLive.room⟩

theorem step_sound {event : Event K} (h : s.Sound setup.config) (hCondition : s.Condition setup event) :
    (s.step setup event).Sound setup.config := by
  cases event with
  | begin request => exact begin_sound setup h request
  | advance fault =>
    apply withCaller_sound h
    intro call op rest hOps
    rw [Condition, hOps] at hCondition
    apply runOp_sound setup h hOps
    · rintro command number rfl hConnected
      exact (hCondition hConnected).build number s.client.receiveSequence
    · rintro frame rfl hConnected
      exact hCondition hConnected
  | expire =>
    apply withCaller_sound h
    intro call op rest hOps
    rw [Condition, hOps] at hCondition
    apply expireOp_sound setup h hOps
    rintro frame rfl hConnected
    exact hCondition hConnected
  | peerSends frame =>
    rw [step]
    split
    · exact h
    · exact h
  | receive replied =>
    rw [step, receive]
    rw [Condition] at hCondition
    cases hInbound : s.inbound with
    | nil => exact h
    | cons frame inbound =>
      rw [hInbound] at hCondition
      exact Sound.handleIec104Frame (s := { s with inbound }) setup h hCondition replied
  | breakLink => exact h.disconnect
  | delayedAck replied => exact Sound.delayedAck setup h replied
  | testLink replied => exact sendAll_sound h (by decide) replied

/-- The I-frames of a connection carry 0, 1, 2, … modulo 2^15, and the window holds the unacknowledged ones.
    -/
theorem numbered_throughout (events : List (Event K)) (hRun : Run.Guarded (step setup) (Condition setup) {} events)
    (done : List (Event K)) (hDone : done <+: events) :
    (Run.after (step setup) {} done).iFrames.map iec104SendSequence =
        (List.range (Run.after (step setup) {} done).sent).map (· % 2 ^ 15) ∧
      ((Run.after (step setup) {} done).sent : Int) - (Run.after (step setup) {} done).acknowledged ≤
        max 1 setup.config.kWindow := by
  have hStart : Sound setup.config ({} : Session K) := Link.sound_fresh (by simp [ops]) false
  have hSound := Run.invariant (step setup) (Sound setup.config) hStart
    (fun _ _ hInv hGuard => step_sound setup hInv hGuard) (hRun.before (step setup) hDone)
  have hConsecutive := hSound.consecutive
  have hWindow := hSound.window
  rw [sent_link] at hConsecutive hWindow
  exact ⟨hConsecutive, hWindow⟩

end Runs

def plainPlatform : Platform ℚ := ⟨fun _ => 0, fun _ => 0, fun _ => ⟨0, 0, 0, 1, 0, 100⟩⟩

def plainSetup : Setup ℚ := ⟨plainPlatform, {}⟩

def bitstringPoint : IecPoint ℚ :=
  ⟨0, ⟨[], {}⟩, ⟨true, -1, [], 1, 0, none, none, [], { ioa := 100, typeId := 51 }⟩⟩

def bringUp : List (Event ℚ) :=
  [.advance none, .advance none, .peerSends iec104StartDtCon, .receive true, .advance none]

def firstPoll : List (Event ℚ) :=
  .begin .poll :: bringUp ++ [.advance none, .advance none, .advance none, .advance none]

def pollAfterFailure : List (Event ℚ) :=
  .begin (.writeByPoint bitstringPoint 1) :: bringUp ++ [.advance none, .advance none] ++
    [.begin .poll, .advance none, .advance none, .advance none, .advance none, .advance none, .advance none]

/-- The first I-frame of the connection carries 1: the number 0 went to a command that was not built. -/
theorem unbuilt_command_skips_number :
    (Run.after (step plainSetup) {} pollAfterFailure).iFrames.map iec104SendSequence = [1] ∧
      (Run.after (step plainSetup) {} pollAfterFailure).iFrames.map iec104SendSequence ≠
        (List.range (Run.after (step plainSetup) {} pollAfterFailure).sent).map (· % 2 ^ 15) := by
  decide +kernel

theorem first_poll_numbered :
    (Run.after (step plainSetup) {} firstPoll).sent = 1 ∧
      (Run.after (step plainSetup) {} firstPoll).iFrames.map iec104SendSequence =
        (List.range (Run.after (step plainSetup) {} firstPoll).sent).map (· % 2 ^ 15) := by
  refine ⟨by decide +kernel, (numbered_throughout plainSetup firstPoll ?_ firstPoll (List.prefix_refl _)).1⟩
  simp only [firstPoll, bringUp, List.cons_append, List.nil_append, Run.guarded_cons]
  refine ⟨trivial, trivial, trivial, trivial, ?_, trivial, trivial, ?_, trivial, ?_, Run.guarded_nil _ _ _⟩
  · intro _ hFrame
    exact absurd hFrame (by decide)
  · intro _
    exact ⟨_, rfl, by decide⟩
  · intro _
    left
    decide

end Session

end EdgeGateway.Iec
