import EdgeGateway.Foundation.Run
import EdgeGateway.Modbus.TcpClient

/-! # Where a call leaves the stream -/

namespace EdgeGateway.Modbus

variable {conn : Connection} {recvs : List Nat} {size : Nat} {response : Response}

theorem unread_advance (conn : Connection) (count : Nat) :
    (conn.advance count).unread = conn.unread.drop count := by
  simp [Connection.unread, Connection.advance, List.drop_drop]

theorem receiveLoop_spec {bytes : List UInt8} {received : Received}
    (h : receiveLoop size bytes conn recvs = some received) (hBytes : bytes.length ≤ size) :
    received.conn = conn.advance (size - bytes.length) ∧
      received.bytes = bytes ++ conn.unread.take (size - bytes.length) ∧
      size - bytes.length ≤ conn.unread.length := by
  induction recvs generalizing bytes conn with
  | nil =>
    rw [receiveLoop] at h
    split at h
    · cases h
    · cases h
      have hSize : size - bytes.length = 0 := by omega
      simp [hSize, Connection.advance]
  | cons rc recvs ih =>
    rw [receiveLoop] at h
    split at h
    · rename_i hShort
      dsimp only at h
      split at h
      · cases h
      · have hTaken : (conn.unread.take (min rc (size - bytes.length))).length ≤ size - bytes.length := by
          rw [List.length_take]
          omega
        have hSplit := (List.take_append_drop (min rc (size - bytes.length)) conn.unread).symm
        generalize conn.unread.take (min rc (size - bytes.length)) = chunk at h hTaken hSplit
        generalize conn.unread.drop (min rc (size - bytes.length)) = later at hSplit
        obtain ⟨hConn, hRead, hEnough⟩ := ih h (by rw [List.length_append]; omega)
        rw [unread_advance, hSplit, List.drop_left] at hRead hEnough
        rw [List.length_append] at hConn hRead hEnough
        rw [hSplit, List.length_append]
        refine ⟨?_, ?_, by omega⟩
        · have hCount : chunk.length + (size - (bytes.length + chunk.length)) = size - bytes.length := by omega
          rw [hConn, ← hCount]
          simp [Connection.advance, Nat.add_assoc]
        · rw [hRead, List.take_append, List.take_of_length_le hTaken, List.append_assoc, Nat.sub_sub]
    · cases h
      have hSize : size - bytes.length = 0 := by omega
      simp [hSize, Connection.advance]

theorem readExact_spec {received : Received} (h : readExact size conn recvs = some received) :
    received.conn = conn.advance size ∧ received.bytes = conn.unread.take size ∧ size ≤ conn.unread.length := by
  simpa using receiveLoop_spec h (Nat.zero_le size)

theorem header_of_next {received : Received} (hNext : conn.Next response)
    (h : readExact 7 conn recvs = some received) :
    received.conn = conn.advance 7 ∧
      parseHeader received.bytes =
        ⟨response.transactionId, response.protocolId, UInt16.ofNat (response.data.length + 2), response.unitId⟩ := by
  obtain ⟨hConn, hBytes, -⟩ := readExact_spec h
  obtain ⟨later, hLater⟩ := hNext.drop
  refine ⟨hConn, ?_⟩
  have hHeader : conn.unread.take 7 = response.header := by
    rw [Connection.unread, hLater, Response.bytes, List.append_assoc]
    exact List.take_left' response.length_header
  rw [hBytes, hHeader]
  exact parseHeader_mbap _ _ _ _

theorem length_toNat (response : Response) :
    (UInt16.ofNat (response.data.length + 2)).toNat = response.data.length + 2 := by
  rw [UInt16.toNat_ofNat']
  exact Nat.mod_eq_of_lt response.fits

theorem aligned_behind (hNext : conn.Next response) :
    ((conn.advance 7).advance (response.data.length + 1)).Aligned := by
  have h := Frames.Starts.boundary hNext
  simpa [Connection.Aligned, Connection.advance, Response.bytes, Nat.add_assoc] using h

theorem not_aligned_inside (hNext : conn.Next response) : ¬ (conn.advance 7).Aligned := by
  apply Frames.Starts.inside hNext (by omega)
  simp [Response.bytes]

def Response.Answers (response : Response) (transactionId : UInt16) (unitId : UInt8) : Prop :=
  response.transactionId = transactionId ∧ response.protocolId = 0 ∧ response.unitId = unitId

theorem fault_eq_none_iff (response : Response) (transactionId : UInt16) (unitId : UInt8) :
    Header.fault ⟨response.transactionId, response.protocolId, UInt16.ofNat (response.data.length + 2),
      response.unitId⟩ transactionId unitId = none ↔ response.Answers transactionId unitId := by
  have hLength : ¬ UInt16.ofNat (response.data.length + 2) < 2 := by
    rw [UInt16.lt_iff_toNat_lt, length_toNat]
    change ¬ response.data.length + 2 < 2
    omega
  generalize UInt16.ofNat (response.data.length + 2) = length at hLength
  rw [Header.fault, Response.Answers]
  split_ifs with hId hProtocol hUnit <;> simp_all

namespace ModbusTcpClient

def Aligned (client : ModbusTcpClient) : Prop := ∀ conn, client.socket = some conn → conn.Aligned

/-- If the call comes to take the header of a response, that response is one for its request. -/
def InStep (client : ModbusTcpClient) (call : Call) : Prop :=
  ∀ conn response, 0 ≤ call.slave → call.slave ≤ 255 → client.ensureConnected call.opened = .ok conn →
    sendAll (requestFrame (nextTransactionId client.transactionId) call.unitId call.pdu) call.sends = true →
    readExact 7 conn call.recvs ≠ none → conn.Next response →
    response.Answers (nextTransactionId client.transactionId) call.unitId

variable {call : Call} {transactionId : UInt16} {client : ModbusTcpClient}

theorem aligned_closed : Aligned ⟨none, transactionId⟩ := by
  intro conn h
  cases h

theorem aligned_open : Aligned ⟨some conn, transactionId⟩ ↔ conn.Aligned := by
  constructor
  · intro h
    exact h conn rfl
  · intro h other hOther
    obtain rfl := Option.some.inj hOther
    exact h

theorem readBody_aligned {header : Header} (hNext : conn.Next response)
    (hLength : header.length.toNat = response.data.length + 2) :
    (readBody header call transactionId (conn.advance 7) recvs).2.Aligned := by
  rw [readBody]
  split
  · exact aligned_closed
  · rename_i received hRead
    obtain ⟨hConn, -, -⟩ := readExact_spec hRead
    rw [aligned_open, hConn, hLength]
    exact aligned_behind hNext

theorem readResponse_aligned_iff (hNext : conn.Next response) :
    (readResponse call transactionId conn).2.Aligned ↔
      (readExact 7 conn call.recvs ≠ none → response.Answers transactionId call.unitId) := by
  rw [readResponse]
  cases hRead : readExact 7 conn call.recvs with
  | none => simp [aligned_closed]
  | some received =>
    obtain ⟨hConn, hHeader⟩ := header_of_next hNext hRead
    have hFault := fault_eq_none_iff response transactionId call.unitId
    simp only [hHeader, ne_eq, reduceCtorEq, not_false_eq_true, forall_const]
    split
    · rename_i message hMessage
      rw [hMessage] at hFault
      rw [aligned_open, hConn, ← hFault]
      simp [not_aligned_inside hNext]
    · rename_i hNone
      rw [hConn]
      simp only [hFault.mp hNone, iff_true]
      exact readBody_aligned hNext (length_toNat response)

theorem readExact_at_end (hEnd : conn.unread = []) (hSize : 0 < size) : readExact size conn recvs = none := by
  cases hRead : readExact size conn recvs with
  | none => rfl
  | some received =>
    obtain ⟨-, -, hEnough⟩ := readExact_spec hRead
    rw [hEnd] at hEnough
    simp only [List.length_nil] at hEnough
    omega

theorem ensureConnected_aligned (hAligned : client.Aligned) (h : client.ensureConnected call.opened = .ok conn) :
    conn.Aligned := by
  rw [ensureConnected] at h
  split at h
  · rename_i other hSocket
    cases h
    exact hAligned conn hSocket
  · cases hOpened : call.opened with
    | error fault =>
      rw [hOpened] at h
      cases h
    | ok frames =>
      rw [hOpened] at h
      cases h
      exact Frames.boundary_zero frames

theorem step_aligned_iff (hAligned : client.Aligned) : (client.step call).Aligned ↔ client.InStep call := by
  rw [step, transact]
  split
  · rename_i hSlave
    refine ⟨fun _ conn response hLow hHigh => ?_, fun _ => hAligned⟩
    omega
  · rename_i hSlave
    cases hConnect : client.ensureConnected call.opened with
    | error fault =>
      refine ⟨fun _ conn response _ _ hConn => ?_, fun _ => hAligned⟩
      rw [hConnect] at hConn
      cases hConn
    | ok conn =>
      dsimp only
      split
      · rename_i hSent
        constructor
        · intro h other response _ _ hOther _ hRead hNext
          rw [hConnect] at hOther
          cases hOther
          exact (readResponse_aligned_iff hNext).mp h hRead
        · intro h
          obtain hEnd | ⟨response, hNext⟩ := Frames.Boundary.start_or_end (ensureConnected_aligned hAligned hConnect)
          · rw [readResponse, readExact_at_end (by exact hEnd) (by omega)]
            exact aligned_closed
          · exact (readResponse_aligned_iff hNext).mpr fun hRead =>
              h conn response (by omega) (by omega) hConnect hSent hRead hNext
      · rename_i hSent
        refine ⟨fun _ other response _ _ _ hOther => ?_, fun _ => aligned_closed⟩
        exact absurd hOther hSent

/-- Every state a run of calls goes through is aligned exactly when every call of it is in step. -/
theorem aligned_throughout_iff (calls : List Call) :
    (∀ done, done <+: calls → (Run.after step created done).Aligned) ↔
      Run.Guarded step InStep created calls := by
  constructor
  · intro h done call hDone
    have hBefore := h done ((List.prefix_append done [call]).trans hDone)
    have hAfter := h (done ++ [call]) hDone
    rw [Run.after_snoc] at hAfter
    exact (step_aligned_iff hBefore).mp hAfter
  · intro h done hDone
    exact Run.invariant step Aligned aligned_closed (fun _ _ hInv hGuard => (step_aligned_iff hInv).mpr hGuard)
      (h.before step hDone)

def wrongUnit : Response := ⟨1, 0, 2, 3, [2, 0, 7], by decide⟩

def rightAnswer : Response := ⟨2, 0, 1, 3, [2, 0, 9], by decide⟩

def readRegister : Call := ⟨1, 3, [3, 0, 0, 0, 1], .ok [wrongUnit, rightAnswer], [12], [7, 7, 7]⟩

/-- An answer of another unit is refused, and the next call takes its header from the middle of that answer.
    -/
theorem stray_unit_misaligns :
    (created.transact readRegister).1 = .error "modbus tcp unit id mismatch" ∧
      ¬ (Run.after step created [readRegister]).Aligned ∧
      ((Run.after step created [readRegister]).transact readRegister).1 =
        .error "modbus tcp transaction id mismatch" := by
  refine ⟨by rfl, ?_, by rfl⟩
  intro h
  have hAligned : ((Connection.mk [wrongUnit, rightAnswer] 0).advance 7).Aligned := h _ rfl
  exact not_aligned_inside ⟨[], [rightAnswer], rfl, rfl⟩ hAligned

end ModbusTcpClient

end EdgeGateway.Modbus
