import EdgeGateway.Iec.Am5seClient

/-! # The process data of a connection -/

namespace EdgeGateway.Iec

open Script Run

section Contract

variable {K : Type} [Field K] (platform : Iec103Platform K) (config : Iec103Config)

def brings (answer : Except LinkError (List UInt8)) : Option (List (Iec103DataValue K)) :=
  match answer with
  | .error _ => none
  | .ok frame => if isFt12Frame config frame then (decodeDataFrame platform config frame).toOption else none

/-- Values come to a data request of a poll only, and nothing goes wrong once there are some. -/
def KeepsData (s : ClientState K) : (op : LinkCall K) → Except LinkError (LinkAnswer op) → Prop
  | .exchange sent _, answer =>
    match brings platform config answer with
    | none => s.held = []
    | some values => values = [] ∨ (s.operation = .poll ∧ ∃ dataClass bit, sent = .classData dataClass bit)
  | _, _ => True

def KeepsProcessData (p : ClientPool K) (event : ClientEvent K) : Prop :=
  ∀ op answer, Pool.Makes p event () op answer → KeepsData platform config p.shared op answer

def AllReturned (s : ClientState K) : Prop := s.returned = s.received.flatMap (processData platform config)

/-- The operations have the client to themselves, one after the other. -/
def dataContract : Contract Unit (LinkCall K) LinkAnswer LinkError (ClientState K) where
  inv s := s.received.flatMap (processData platform config) = s.returned ++ s.held
  allowed _ op answer s := KeepsData platform config s op answer
  rely _ s t := s = t
  guarantee _ _ _ _ := True
  rely_refl _ _ := rfl
  rely_trans := Eq.trans
  compatible hne := absurd rfl hne

end Contract

section Operations

variable {K : Type} [Field K] {platform : Iec103Platform K} {config : Iec103Config} {α β : Type} {s t : ClientState K}

theorem keepsData_exchange {sent : Iec103Request} {bytes : List UInt8} {answer : Except LinkError (List UInt8)} :
    KeepsData platform config s (.exchange sent bytes) answer ↔ match brings platform config answer with
      | none => s.held = []
      | some values => values = [] ∨ (s.operation = .poll ∧ ∃ dataClass bit, sent = .classData dataClass bit) := Iff.rfl

theorem receive_inv (h : (dataContract platform config).inv s) (frame : List UInt8) :
    (dataContract platform config).inv (s.receive platform config frame) := by
  have hInv : s.received.flatMap (processData platform config) = s.returned ++ s.held := h
  change (s.received ++ [frame]).flatMap (processData platform config) =
    s.returned ++ (s.held ++ processData platform config frame)
  rw [List.flatMap_append, hInv, List.flatMap_singleton, List.append_assoc]

theorem fail_inv (h : (dataContract platform config).inv s) (error : LinkError) :
    (dataContract platform config).inv (s.fail error) := by
  rw [ClientState.fail]
  split <;> exact h

omit [Field K] in
theorem fail_held (s : ClientState K) (error : LinkError) : (s.fail error).held = s.held := by
  rw [ClientState.fail]
  split <;> rfl

omit [Field K] in
theorem fail_operation (s : ClientState K) (error : LinkError) : (s.fail error).operation = s.operation := by
  rw [ClientState.fail]
  split <;> rfl

/-- The call leaves the process data alone, or is an exchange that no poll makes for data. -/
def Aside (operation : Operation) : LinkCall K → Prop
  | .lock _ | .deliver _ => False
  | .exchange sent _ => operation = .poll → ∀ dataClass bit, sent ≠ .classData dataClass bit
  | _ => True

def AtRest (operation : Operation) (s : ClientState K) : Prop := s.held = [] ∧ s.operation = operation

theorem exchange_aside {operation : Operation} {sent : Iec103Request} {bytes : List UInt8}
    {answer : Except LinkError (List UInt8)} (hAside : Aside (K := K) operation (.exchange sent bytes))
    (hRest : AtRest operation s) (hInv : (dataContract platform config).inv s)
    (hKeeps : KeepsData platform config s (.exchange sent bytes) answer) :
    (dataContract platform config).inv (s.exchange platform config answer).2 ∧
      AtRest operation (s.exchange platform config answer).2 := by
  obtain ⟨hHeld, rfl⟩ := hRest
  cases answer with
  | error error =>
    exact ⟨fail_inv hInv error, (fail_held s error).trans hHeld, fail_operation s error⟩
  | ok frame =>
    rw [ClientState.exchange]
    split
    · rename_i hFrame
      refine ⟨receive_inv hInv frame, ?_, rfl⟩
      change s.held ++ processData platform config frame = []
      rw [hHeld, List.nil_append, processData]
      rw [keepsData_exchange, brings, if_pos hFrame] at hKeeps
      cases hDecoded : decodeDataFrame platform config frame with
      | error message => rfl
      | ok values =>
        rw [hDecoded] at hKeeps
        obtain hNone | ⟨hPoll, dataClass, bit, hData⟩ := hKeeps
        · exact hNone
        · exact absurd hData (hAside hPoll dataClass bit)
    · exact ⟨hInv, hHeld, rfl⟩

theorem accept_aside {operation : Operation} (hRest : AtRest operation s) (hInv : (dataContract platform config).inv s)
    (taken : Bool) : (dataContract platform config).inv (if taken then s.accepted else s) ∧
      AtRest operation (if taken then s.accepted else s) := by
  cases taken with
  | true => exact ⟨hInv, hRest⟩
  | false => exact ⟨hInv, hRest⟩

theorem aside_safe {operation : Operation} {x : LinkThread K α} (hOnly : x.Only (Aside operation))
    (hRest : AtRest operation s) :
    x.Safe (linkAct platform config) (dataContract platform config) () (fun _ => AtRest operation) s := by
  refine Safe.of_only (AtRest operation) hOnly (fun _ _ hSame h => hSame ▸ h) ?_ hRest
  intro op t answer hAside hRest hInv hKeeps
  cases op with
  | lock operation => exact hAside.elim
  | deliver values => exact hAside.elim
  | exchange sent bytes =>
    obtain ⟨hInv', hRest'⟩ := exchange_aside hAside hRest hInv hKeeps
    exact ⟨hInv', trivial, hRest'⟩
  | acceptReverseConnection =>
    obtain ⟨hInv', hRest'⟩ := accept_aside hRest hInv answer.isOk
    exact ⟨hInv', trivial, hRest'⟩
  | _ => exact ⟨hInv, trivial, hRest⟩

def Fetched (platform : Iec103Platform K) (config : Iec103Config) (values : List (Iec103DataValue K)) :
    Except LinkError (List UInt8) → ClientState K → Prop
  | .ok frame, s => isFt12Frame config frame = true ∧ match decodeDataFrame platform config frame with
    | .ok decoded => s.held = values ++ decoded ∧ s.operation = .poll
    | .error _ => s.held = []
  | .error _, s => s.held = []

def PollEnds : Except LinkError (List (Iec103DataValue K)) → ClientState K → Prop
  | .ok values, s => s.held = values ∧ s.operation = .poll
  | .error _, s => s.held = []

theorem exchange_fetched {values : List (Iec103DataValue K)} {sent : Iec103Request} {bytes : List UInt8}
    {answer : Except LinkError (List UInt8)} (hHeld : s.held = values) (hPoll : s.operation = .poll)
    (hInv : (dataContract platform config).inv s)
    (hKeeps : KeepsData platform config s (.exchange sent bytes) answer) :
    (dataContract platform config).inv (s.exchange platform config answer).2 ∧
      Fetched platform config values (s.exchange platform config answer).1 (s.exchange platform config answer).2 := by
  rw [keepsData_exchange] at hKeeps
  cases answer with
  | error error => exact ⟨fail_inv hInv error, (fail_held s error).trans hKeeps⟩
  | ok frame =>
    rw [brings] at hKeeps
    rw [ClientState.exchange]
    by_cases hFrame : isFt12Frame config frame = true
    · rw [if_pos hFrame] at hKeeps ⊢
      refine ⟨receive_inv hInv frame, hFrame, ?_⟩
      have hReceived : (s.receive platform config frame).held = s.held ++ processData platform config frame := rfl
      rw [hReceived, processData]
      cases hDecoded : decodeDataFrame platform config frame with
      | ok decoded => exact ⟨by rw [hHeld], hPoll⟩
      | error message =>
        rw [hDecoded] at hKeeps
        exact (List.append_nil _).trans hKeeps
    · rw [if_neg hFrame] at hKeeps ⊢
      exact ⟨hInv, hKeeps⟩

theorem requestClassData_safe {values : List (Iec103DataValue K)} {dataClass : Nat}
    (hClass : dataClass = 1 ∨ dataClass = 2) (hHeld : s.held = values) (hPoll : s.operation = .poll) :
    (requestClassData config dataClass).Safe (linkAct platform config) (dataContract platform config) ()
      (Fetched platform config values) s := by
  refine Safe.perform_bind fun t hst hInv answer _ => ?_
  subst hst
  refine ⟨hInv, trivial, fun frameCountBit hBit => ?_, fun e hError => by cases hError⟩
  have hBuild : ∃ bytes, Iec103Request.build config (.classData dataClass frameCountBit) = .ok bytes := by
    refine ⟨_, if_neg ?_⟩
    omega
  obtain ⟨bytes, hBytes⟩ := hBuild
  rw [exchange, hBytes]
  refine Safe.perform fun u hu hInv' answer hKeeps => ?_
  have hHeld' : u.held = values := hu ▸ hHeld
  have hPoll' : u.operation = .poll := hu ▸ hPoll
  obtain ⟨hInv'', hFetched⟩ := @exchange_fetched K _ platform config u values _ bytes answer hHeld' hPoll' hInv' hKeeps
  exact ⟨hInv'', trivial, fun w hw _ => hw ▸ hFetched⟩

theorem fetch_safe {values : List (Iec103DataValue K)} {dataClass : Nat} (hClass : dataClass = 1 ∨ dataClass = 2)
    (hHeld : s.held = values) (hPoll : s.operation = .poll)
    {more : List UInt8 → List (Iec103DataValue K) → LinkThread K (List (Iec103DataValue K))}
    (hMore : ∀ frame decoded t, isFt12Frame config frame = true → t.held = values ++ decoded → t.operation = .poll →
      (more frame decoded).Safe (linkAct platform config) (dataContract platform config) () PollEnds t) :
    (requestClassData config dataClass >>= fun frame =>
      readable (decodeDataFrame platform config frame) >>= fun decoded => more frame decoded).Safe
      (linkAct platform config) (dataContract platform config) () PollEnds s := by
  refine Safe.bind (requestClassData_safe hClass hHeld hPoll) (fun frame t _ hFetched => ?_)
    (fun e t _ hFetched => hFetched)
  obtain ⟨hFrame, hDecoded⟩ := hFetched
  cases hResult : decodeDataFrame platform config frame with
  | ok decoded =>
    rw [hResult] at hDecoded
    exact hMore frame decoded t hFrame hDecoded.1 hDecoded.2
  | error message =>
    rw [hResult] at hDecoded
    intro u hu _
    exact hu ▸ hDecoded

theorem endsInterrogation_of_frame (frame : List UInt8) :
    ∃ completed, endsInterrogation config frame = .ok completed := by
  rw [endsInterrogation]
  split
  · rename_i hVariable
    obtain ⟨userData, hData⟩ := ft12UserData_of_variable hVariable config.linkAddressSize
    exact ⟨_, by rw [hData]; rfl⟩
  · exact ⟨false, rfl⟩

theorem readable_safe {result : Except String α} {a : α} {f : α → LinkThread K β}
    {Q : Except LinkError β → ClientState K → Prop} (hResult : result = .ok a)
    (h : (f a).Safe (linkAct platform config) (dataContract platform config) () Q s) :
    (readable result >>= f).Safe (linkAct platform config) (dataContract platform config) () Q s := by
  subst hResult
  exact h

theorem interrogationData_safe (rounds : Nat) {values : List (Iec103DataValue K)} (hHeld : s.held = values)
    (hPoll : s.operation = .poll) : (interrogationData platform config rounds values).Safe (linkAct platform config)
      (dataContract platform config) () PollEnds s := by
  induction rounds generalizing s values with
  | zero => exact Safe.pure fun t hst _ => hst ▸ ⟨hHeld, hPoll⟩
  | succ rounds ih =>
    refine fetch_safe (.inl rfl) hHeld hPoll fun frame decoded t hFrame hHeld' hPoll' => ?_
    obtain ⟨accessDemand, hDemand⟩ := ft12AccessDemand_of_frame hFrame
    obtain ⟨completed, hCompleted⟩ := @endsInterrogation_of_frame config frame
    refine readable_safe hDemand (readable_safe hCompleted ?_)
    split
    · exact Safe.pure fun u hu _ => hu ▸ ⟨hHeld', hPoll'⟩
    · exact ih hHeld' hPoll'

theorem pollClassOne_safe (rounds : Nat) (accessDemand : Bool) {values : List (Iec103DataValue K)}
    (hHeld : s.held = values) (hPoll : s.operation = .poll) :
    (pollClassOne platform config rounds accessDemand values).Safe (linkAct platform config)
      (dataContract platform config) () PollEnds s := by
  induction rounds generalizing s values accessDemand with
  | zero => exact Safe.pure fun t hst _ => hst ▸ ⟨hHeld, hPoll⟩
  | succ rounds ih =>
    rw [pollClassOne]
    split
    · refine fetch_safe (.inl rfl) hHeld hPoll fun frame decoded t hFrame hHeld' hPoll' => ?_
      obtain ⟨accessDemand, hDemand⟩ := ft12AccessDemand_of_frame hFrame
      exact readable_safe hDemand (ih accessDemand hHeld' hPoll')
    · exact Safe.pure fun t hst _ => hst ▸ ⟨hHeld, hPoll⟩

theorem pollClasses_safe (hHeld : s.held = []) (hPoll : s.operation = .poll) :
    (pollClasses platform config).Safe (linkAct platform config) (dataContract platform config) () PollEnds s := by
  refine fetch_safe (.inr rfl) hHeld hPoll fun frame decoded t hFrame hHeld' hPoll' => ?_
  obtain ⟨accessDemand, hDemand⟩ := ft12AccessDemand_of_frame hFrame
  exact readable_safe hDemand (pollClassOne_safe config.maxPollFrames accessDemand hHeld' hPoll')

omit [Field K] in
theorem requestClassData_aside {operation : Operation} (h : operation ≠ .poll) (dataClass : Nat) :
    (requestClassData config dataClass : LinkThread K (List UInt8)).Only (Aside operation) :=
  Only.bind (Only.perform trivial) fun _ => Only.bind (Only.lift _) fun _ =>
    Only.perform fun hPoll => absurd hPoll h

omit [Field K] in
theorem exchange_only {operation : Operation} {sent : Iec103Request}
    (h : operation = .poll → ∀ dataClass bit, sent ≠ .classData dataClass bit) :
    (exchange config sent : LinkThread K (List UInt8)).Only (Aside operation) :=
  Only.bind (Only.lift _) fun _ => Only.perform h

omit [Field K] in
theorem initializeLink_aside (operation : Operation) : (initializeLink config : LinkThread K Unit).Only (Aside operation) := by
  refine Only.bind (exchange_only fun _ _ _ h => nomatch h) fun frame => ?_
  split
  · exact Only.perform trivial
  · exact Only.throw _

omit [Field K] in
theorem unlessSet_aside {operation : Operation} (flag : Bool) {action : LinkThread K Unit}
    (h : action.Only (Aside operation)) : (unlessSet flag action).Only (Aside operation) := by
  cases flag with
  | true => exact Only.pure ()
  | false => exact h

omit [Field K] in
theorem ensureConnected_aside (operation : Operation) :
    (ensureConnected config : LinkThread K Unit).Only (Aside operation) :=
  Only.bind (Only.perform trivial) fun _ => Only.bind (Only.perform trivial) fun connected =>
    Only.bind (unlessSet_aside connected (Only.perform trivial)) fun _ =>
    Only.bind (Only.perform trivial) fun initialized => unlessSet_aside initialized (initializeLink_aside operation)

omit [Field K] in
theorem readDirectory_aside {operation : Operation} (h : operation ≠ .poll) (rounds : Nat)
    (result : List DisturbanceRecord) : (readDirectory platform config rounds result).Only (Aside operation) := by
  induction rounds generalizing result with
  | zero => exact Only.pure result
  | succ rounds ih =>
    rw [readDirectory]
    split
    · exact Only.pure result
    · refine Only.bind (requestClassData_aside h 1) fun frame => Only.bind (Only.lift _) fun accessDemand =>
        Only.bind (Only.lift _) fun records => ?_
      split
      · exact ih (result ++ records)
      · exact Only.pure _

omit [Field K] in
theorem assemble_aside {operation : Operation} (h : operation ≠ .poll) (rounds : Nat) (assembler : ComtradeAssembler) :
    (assemble config rounds assembler : LinkThread K ComtradeAssembler).Only (Aside operation) := by
  induction rounds generalizing assembler with
  | zero => exact Only.pure assembler
  | succ rounds ih =>
    rw [assemble]
    split
    · exact Only.pure assembler
    · exact Only.bind (requestClassData_aside h 1) fun frame => Only.bind (Only.lift _) fun next => ih next

omit [Field K] in
theorem pullComtradeFile_aside {operation : Operation} (h : operation ≠ .poll) (fan : Int) (fileType : UInt8) :
    (pullComtradeFile config fan fileType : LinkThread K (List UInt8)).Only (Aside operation) := by
  refine Only.bind (Only.perform trivial) fun frameCountBit =>
    Only.bind (exchange_only fun hPoll => absurd hPoll h) fun _ =>
    Only.bind (assemble_aside h _ _) fun assembler => ?_
  split
  · exact Only.pure _
  · exact Only.throw _

theorem locked_safe {operation : Operation} {x : LinkThread K α} {Q : Except LinkError α → ClientState K → Prop}
    (hIdle : s.held = [])
    (h : ∀ t, AtRest operation t → x.Safe (linkAct platform config) (dataContract platform config) () Q t) :
    (lock operation >>= fun _ => x).Safe (linkAct platform config) (dataContract platform config) () Q s := by
  refine Safe.perform_bind fun t hst hInv answer _ => ?_
  subst hst
  refine ⟨?_, trivial, fun _ _ => h _ ⟨rfl, rfl⟩, fun e hError => by cases hError⟩
  have hData : s.received.flatMap (processData platform config) = s.returned ++ s.held := hInv
  rw [hIdle] at hData
  exact hData

theorem interrogate_safe (hRest : AtRest .poll s) :
    (interrogate platform config).Safe (linkAct platform config) (dataContract platform config) () PollEnds s := by
  refine Safe.bind (Q := PollEnds) ?_ (fun values t _ hEnds => ?_) (fun e t _ hEnds => hEnds)
  · rw [performGeneralInterrogation]
    refine Safe.bind (aside_safe (exchange_only fun _ _ _ h => nomatch h) hRest) (fun _ t _ hRest => ?_)
      (fun e t _ hRest => hRest.1)
    refine Safe.bind (aside_safe (Only.perform trivial) hRest) (fun _ t _ hRest => ?_) (fun e t _ hRest => hRest.1)
    exact interrogationData_safe config.maxPollFrames hRest.1 hRest.2
  · refine Safe.perform_bind fun u hu hInv answer _ => ?_
    subst hu
    exact ⟨hInv, trivial, fun _ _ => Safe.pure fun w hw _ => hw ▸ hEnds, fun e hError => by cases hError⟩

theorem poll_safe (hIdle : s.held = []) :
    (poll platform config).Safe (linkAct platform config) (dataContract platform config) () PollEnds s := by
  refine locked_safe hIdle fun t hRest => ?_
  refine Safe.bind (aside_safe (ensureConnected_aside .poll) hRest) (fun _ t _ hRest => ?_) (fun e t _ hRest => hRest.1)
  refine Safe.bind (aside_safe (Only.perform trivial) hRest) (fun interrogated t _ hRest => ?_)
    (fun e t _ hRest => hRest.1)
  split
  · exact pollClasses_safe hRest.1 hRest.2
  · exact interrogate_safe hRest

theorem operation_safe (operation : Operation) (hIdle : s.held = []) :
    (operation.run platform config).Safe (linkAct platform config) (dataContract platform config) ()
      (fun _ t => t.held = []) s := by
  cases operation with
  | poll =>
    refine Safe.bind (poll_safe hIdle) (fun values t _ hEnds => ?_) (fun e t _ hEnds => hEnds)
    refine Safe.perform fun u hu hInv answer _ => ?_
    subst hu
    refine ⟨?_, trivial, fun w hw _ => hw ▸ rfl⟩
    have hData : t.received.flatMap (processData platform config) = t.returned ++ t.held := hInv
    rw [hEnds.1] at hData
    exact hData.trans (List.append_nil _).symm
  | listDisturbanceRecords =>
    have hOther : Operation.listDisturbanceRecords ≠ .poll := fun h => nomatch h
    refine Safe.bind (locked_safe hIdle fun t hRest => aside_safe ?_ hRest)
      (fun _ t _ hRest => Safe.pure fun u hu _ => hu ▸ hRest.1) (fun e t _ hRest => hRest.1)
    exact Only.bind (ensureConnected_aside _) fun _ => Only.bind (Only.perform trivial) fun _ =>
      Only.bind (exchange_only fun hPoll => absurd hPoll hOther) fun _ =>
      Only.bind (readDirectory_aside hOther _ _) fun _ => Only.pure _
  | pullComtradeRecording fan outputDirectory =>
    have hOther : Operation.pullComtradeRecording fan outputDirectory ≠ .poll := fun h => nomatch h
    refine Safe.bind (locked_safe hIdle fun t hRest => aside_safe ?_ hRest)
      (fun _ t _ hRest => Safe.pure fun u hu _ => hu ▸ hRest.1) (fun e t _ hRest => hRest.1)
    exact Only.bind (ensureConnected_aside _) fun _ => Only.bind (Only.perform trivial) fun _ =>
      Only.bind (pullComtradeFile_aside hOther fan _) fun _ => Only.bind (Only.perform trivial) fun _ =>
      Only.bind (pullComtradeFile_aside hOther fan _) fun _ => Only.perform trivial

end Operations

section Runs

variable {K : Type} [Field K] {platform : Iec103Platform K} {config : Iec103Config}

/-- Whenever the client is idle, the polls have returned all process data of the connection. -/
theorem process_data_returned {events : List (ClientEvent K)}
    (hRun : Guarded (clientStep platform config) (KeepsProcessData platform config) idleClient events)
    {done : List (ClientEvent K)} (hDone : done <+: events) {result : Except LinkError Unit}
    (hIdle : (after (clientStep platform config) idleClient done).threads () = .done result) :
    AllReturned platform config (after (clientStep platform config) idleClient done).shared := by
  have hAdmitted : Guarded (clientStep platform config)
      (Pool.Admits (dataContract platform config) fun _ _ => True) idleClient done := fun before event hBefore =>
    ⟨fun _ _ _ => trivial, fun _ op answer hMakes => hRun before event (hBefore.trans hDone) op answer hMakes⟩
  have hSettled : Pool.Settled (dataContract platform config) (linkAct platform config)
      (fun _ s => s.held = []) (after (clientStep platform config) idleClient done) :=
    Pool.settled_of_run rfl (fun _ t hSame _ => hSame ▸ rfl)
      (fun _ operation s _ _ hHeld => operation_safe operation hHeld) hAdmitted
  have hHeld := hSettled.done hIdle
  have hData : (after (clientStep platform config) idleClient done).shared.received.flatMap
      (processData platform config) = _ := hSettled.1
  rw [hHeld, List.append_nil] at hData
  exact hData.symm

def plainPlatform : Iec103Platform ℚ where
  floatBits _ := 0
  ofFloatBits _ := 0
  localTime _ := ⟨0, 0, 0, 0, 0, 0⟩
  toText _ := []
  mktime _ _ _ _ _ _ := 0

def acknowledgement : List UInt8 := [0x10, 0x00, 0x01, 0x01, 0x16]

def frameOf (userData : List UInt8) : List UInt8 := (appendFt12VariableFrame userData).toOption.getD []

def interrogationEnd : List UInt8 := frameOf [0x08, 0x01, 0x08, 0x81, 0x0A, 0x01, 0xFF, 0x00, 0x00]

def eventFrame : List UInt8 := frameOf [0x28, 0x01, 0x01, 0x81, 0x01, 0x01, 0x01, 0x64, 0x02]

def directoryFrame : List UInt8 :=
  frameOf [0x08, 0x01, 0x17, 0x01, 0x1F, 0x01, 0xFF, 0x00, 0x0F, 0x00, 0x01, 0x00, 0x00, 0x01, 0x02, 0x01, 0x01, 0x1A]

def deviceAnswers (frame : List UInt8) : (op : LinkCall ℚ) → Except LinkError (LinkAnswer op)
  | .exchange _ _ => .ok frame
  | .connected | .linkInitialized | .generalInterrogationDone | .nextFrameCountBit => .ok false
  | .storeFiles fan _ _ _ => .ok ⟨fan, [], 0, [], 0⟩
  | .lock _ | .sendDiscoveryIfDue | .acceptReverseConnection | .setLinkInitialized | .setGeneralInterrogationDone
  | .setFrameCountBit | .progress _ | .deliver _ => .ok ()

def turns (n : Nat) (frame : List UInt8) : List (ClientEvent ℚ) := List.replicate n (.run () (deviceAnswers frame))

def keepsData (s : ClientState ℚ) (config : Iec103Config) (answers : (op : LinkCall ℚ) → Except LinkError (LinkAnswer op)) :
    LinkThread ℚ Unit → Bool
  | .call (.exchange (.classData dataClass bit) bytes) _ =>
    match brings plainPlatform config (answers (.exchange (.classData dataClass bit) bytes)) with
    | none => s.held.isEmpty
    | some values => values.isEmpty || s.operation == .poll
  | .call (.exchange sent bytes) _ =>
    match brings plainPlatform config (answers (.exchange sent bytes)) with
    | none => s.held.isEmpty
    | some values => values.isEmpty
  | _ => true

theorem keepsData_sound {s : ClientState ℚ} {config : Iec103Config} {op : LinkCall ℚ}
    {answers : (op : LinkCall ℚ) → Except LinkError (LinkAnswer op)} {next : Except LinkError (LinkAnswer op) → LinkThread ℚ Unit}
    (h : keepsData s config answers (.call op next) = true) : KeepsData plainPlatform config s op (answers op) := by
  cases op with
  | exchange sent bytes =>
    apply keepsData_exchange.mpr
    cases sent with
    | classData dataClass bit =>
      rw [keepsData] at h
      split
      · rename_i hNone
        rw [hNone] at h
        exact List.isEmpty_iff.mp h
      · rename_i values hSome
        rw [hSome] at h
        rcases Bool.or_eq_true_iff.mp h with hEmpty | hPoll
        · exact .inl (List.isEmpty_iff.mp hEmpty)
        · exact .inr ⟨beq_iff_eq.mp hPoll, dataClass, bit, rfl⟩
    | _ =>
      rw [keepsData.eq_def] at h
      split
      · rename_i hNone
        dsimp only at h
        rw [hNone] at h
        exact List.isEmpty_iff.mp h
      · rename_i values hSome
        dsimp only at h
        rw [hSome] at h
        exact .inl (List.isEmpty_iff.mp h)
  | _ => trivial

def keepingRun (config : Iec103Config) (p : ClientPool ℚ) : List (ClientEvent ℚ) → Bool
  | [] => true
  | .start i operation :: rest => keepingRun config (clientStep plainPlatform config p (.start i operation)) rest
  | .run i answers :: rest =>
    keepsData p.shared config answers (p.threads i) && keepingRun config (clientStep plainPlatform config p (.run i answers)) rest

theorem guarded_of_keepingRun {config : Iec103Config} {p : ClientPool ℚ} {events : List (ClientEvent ℚ)}
    (h : keepingRun config p events = true) :
    Guarded (clientStep plainPlatform config) (KeepsProcessData plainPlatform config) p events := by
  induction events generalizing p with
  | nil => exact guarded_nil _ _ _
  | cons event rest ih =>
    rw [guarded_cons]
    cases event with
    | start i operation =>
      refine ⟨?_, ih h⟩
      rintro op answer ⟨answers, next, hEvent, -, -⟩
      cases hEvent
    | run i answers =>
      rw [keepingRun, Bool.and_eq_true] at h
      refine ⟨?_, ih h.2⟩
      rintro op answer ⟨answers', next, hEvent, hThread, rfl⟩
      cases hEvent
      rw [hThread] at h
      exact keepsData_sound h.1

def interrogationEvents : List (ClientEvent ℚ) :=
  .start () .poll :: turns 11 acknowledgement ++ turns 3 interrogationEnd

def directoryEvents : List (ClientEvent ℚ) :=
  interrogationEvents ++ .start () .listDisturbanceRecords :: turns 6 acknowledgement ++ turns 2 eventFrame ++
    turns 2 directoryFrame ++ .start () .poll :: turns 8 acknowledgement

def finished : LinkThread ℚ Unit → Bool
  | .done (.ok ()) => true
  | _ => false

theorem done_of_finished {x : LinkThread ℚ Unit} (h : finished x = true) : x = .done (.ok ()) := by
  rw [finished.eq_def] at h
  split at h
  · rfl
  · cases h

theorem process_data_returned_of_interrogation :
    AllReturned plainPlatform {} (after (clientStep plainPlatform {}) idleClient interrogationEvents).shared :=
  process_data_returned (guarded_of_keepingRun (by decide +kernel)) (List.prefix_refl interrogationEvents)
    (done_of_finished (by decide +kernel))

/-- The event was received, and nothing of it is returned. -/
theorem event_is_lost_during_directory :
    finished ((after (clientStep plainPlatform {}) idleClient directoryEvents).threads ()) = true ∧
    eventFrame ∈ (after (clientStep plainPlatform {}) idleClient directoryEvents).shared.received ∧
    (processData plainPlatform {} eventFrame).map (fun value => (value.functionType, value.informationNumber)) = [(1, 100)] ∧
    (after (clientStep plainPlatform {}) idleClient directoryEvents).shared.returned.map
      (fun value => (value.functionType, value.informationNumber)) = [(255, 0)] ∧
    ¬ AllReturned plainPlatform {} (after (clientStep plainPlatform {}) idleClient directoryEvents).shared := by
  refine ⟨by decide +kernel, by decide +kernel, by decide +kernel, by decide +kernel, fun h => ?_⟩
  have hLength := congrArg List.length h
  revert hLength
  decide +kernel

end Runs

end EdgeGateway.Iec
