import EdgeGateway.Iec.TcpClient

/-! # The link as the numbering sees it -/

namespace EdgeGateway.Iec

structure Link where
  connected : Bool
  sendSequence : Nat
  remoteReceiveSequence : Nat
  numbers : List Nat
  acknowledged : Nat

def Link.sent (link : Link) : Nat := link.numbers.length

def Op.Numbered {K : Type} : Op K → Bool
  | build _ _ | window _ | send _ => true
  | _ => false

def Link.Counted {K : Type} (config : IecProtocolConfig) (link : Link) : Option (Op K) → Prop
  | some (.build _ number) => link.sendSequence = (link.sent + 1) % 2 ^ 15 ∧ number = link.sent % 2 ^ 15
  | some (.window frame) =>
    link.sendSequence = (link.sent + 1) % 2 ^ 15 ∧ isIec104IFrame frame = true ∧
      iec104SendSequence frame = link.sent % 2 ^ 15
  | some (.send frame) =>
    link.sendSequence = (link.sent + 1) % 2 ^ 15 ∧ isIec104IFrame frame = true ∧
      iec104SendSequence frame = link.sent % 2 ^ 15 ∧
      (windowLimit config < 2 ^ 15 - 1 → link.sent + 1 ≤ link.acknowledged + windowLimit config)
  | _ => link.sendSequence = link.sent % 2 ^ 15

structure Link.Live {K : Type} (config : IecProtocolConfig) (link : Link) (ops : List (Op K)) : Prop where
  counted : link.Counted config ops.head?
  remote : link.remoteReceiveSequence = link.acknowledged % 2 ^ 15
  near : link.sent < link.acknowledged + 2 ^ 15
  room : windowLimit config < 2 ^ 15 - 1 → link.sent ≤ link.acknowledged + windowLimit config

structure Link.Sound {K : Type} (config : IecProtocolConfig) (link : Link) (ops : List (Op K)) : Prop where
  consecutive : link.numbers = (List.range link.sent).map (· % 2 ^ 15)
  acknowledged_le : link.acknowledged ≤ link.sent
  window : (link.sent : Int) - link.acknowledged ≤ max 1 config.kWindow
  tail : ∀ op ∈ ops.tail, op.Numbered = false
  live : link.connected = true → link.Live config ops

namespace Link

variable {K : Type} {config : IecProtocolConfig} {link : Link} {op : Op K} {rest ops : List (Op K)}

theorem counted_iff {head : Option (Op K)} (h : ∀ op ∈ head, op.Numbered = false) :
    link.Counted config head ↔ link.sendSequence = link.sent % 2 ^ 15 := by
  cases head with
  | none => exact Iff.rfl
  | some op =>
    have hOp := h op rfl
    cases op <;> first | exact Iff.rfl | cases hOp

theorem Counted.mono {head : Option (Op K)} {later : Link} (h : link.Counted config head)
    (hSequence : later.sendSequence = link.sendSequence) (hNumbers : later.numbers = link.numbers)
    (hAcknowledged : link.acknowledged ≤ later.acknowledged) : later.Counted config head := by
  have hSent : later.sent = link.sent := congrArg List.length hNumbers
  obtain _ | op := head
  · simp only [Counted, hSequence, hSent]
    exact h
  · cases op with
    | send frame =>
      obtain ⟨hCount, hFrame, hNumber, hWindow⟩ := h
      refine ⟨by rw [hSequence, hSent, hCount], hFrame, by rw [hSent, hNumber], fun hLimit => ?_⟩
      rw [hSent]
      have hRoom := hWindow hLimit
      omega
    | _ =>
      simp only [Counted, hSequence, hSent]
      exact h

theorem Sound.tail_of_tail (h : link.Sound config (op :: rest)) : ∀ op ∈ rest.tail, op.Numbered = false :=
  fun other hOther => h.tail other (List.mem_of_mem_tail hOther)

theorem Sound.head_of_tail (h : link.Sound config (op :: rest)) : ∀ op ∈ rest.head?, op.Numbered = false :=
  fun other hOther => h.tail other (List.mem_of_mem_head? hOther)

theorem Sound.next (h : link.Sound config (op :: rest)) (hOp : op.Numbered = false) : link.Sound config rest := by
  refine ⟨h.consecutive, h.acknowledged_le, h.window, h.tail_of_tail, fun hConnected => ?_⟩
  have hLive := h.live hConnected
  refine ⟨?_, hLive.remote, hLive.near, hLive.room⟩
  rw [counted_iff h.head_of_tail]
  refine (counted_iff ?_).mp hLive.counted
  rintro other ⟨⟩
  exact hOp

theorem Sound.swap {other : Op K} (h : link.Sound config (op :: rest)) (hOp : op.Numbered = false)
    (hOther : other.Numbered = false) : link.Sound config (other :: rest) := by
  refine ⟨h.consecutive, h.acknowledged_le, h.window, h.tail, fun hConnected => ?_⟩
  have hLive := h.live hConnected
  refine ⟨?_, hLive.remote, hLive.near, hLive.room⟩
  apply (counted_iff ?_).mpr
  · refine (counted_iff ?_).mp hLive.counted
    rintro _ ⟨⟩
    exact hOp
  · rintro _ ⟨⟩
    exact hOther

theorem Sound.down (down : Link) (h : link.Sound config ops) (hDown : down.connected = false)
    (hNumbers : down.numbers = link.numbers) (hAcknowledged : down.acknowledged = link.acknowledged)
    {ops' : List (Op K)} (hTail : ∀ op ∈ ops'.tail, op.Numbered = false) : down.Sound config ops' := by
  have hSent : down.sent = link.sent := congrArg List.length hNumbers
  refine ⟨?_, ?_, ?_, hTail, fun hConnected => ?_⟩
  · rw [hNumbers, hSent]
    exact h.consecutive
  · rw [hAcknowledged, hSent]
    exact h.acknowledged_le
  · rw [hAcknowledged, hSent]
    exact h.window
  · rw [hDown] at hConnected
    cases hConnected

theorem windowLimit_le (config : IecProtocolConfig) : (windowLimit config : Int) ≤ max 1 config.kWindow := by
  have hMod := Nat.mod_le (max 1 config.kWindow).toNat (2 ^ 16)
  rw [windowLimit]
  omega

theorem Sound.sendNext {frame : List UInt8} (h : link.Sound config (.send frame :: rest)) (hUp : link.connected = true)
    (hNear : windowLimit config < 2 ^ 15 - 1 ∨ link.sent + 1 < link.acknowledged + 2 ^ 15) :
    Link.Sound config { link with numbers := link.numbers ++ [iec104SendSequence frame] } rest := by
  have hLive := h.live hUp
  obtain ⟨hCounted, -, hSequence, hRoom⟩ := hLive.counted
  have hLimit := windowLimit_le config
  have hAcknowledged := h.acknowledged_le
  have hBound : link.sent + 1 < link.acknowledged + 2 ^ 15 ∧
      (link.sent + 1 : Int) - link.acknowledged ≤ max 1 config.kWindow := by
    obtain hSmall | hLarge := Nat.lt_or_ge (windowLimit config) (2 ^ 15 - 1)
    · have hInside := hRoom hSmall
      omega
    · omega
  have hConsecutive := h.consecutive
  obtain ⟨connected, sendSequence, remoteReceiveSequence, numbers, acknowledged⟩ := link
  have hSent : (numbers ++ [iec104SendSequence frame]).length = numbers.length + 1 := by simp
  simp only [Link.sent] at *
  refine ⟨?_, ?_, ?_, h.tail_of_tail, fun _ => ⟨?_, hLive.remote, ?_, fun hSmall => ?_⟩⟩
  · simp only [Link.sent, hSent]
    rw [List.range_succ, List.map_append, ← hConsecutive, hSequence]
    rfl
  · simp only [Link.sent, hSent]
    omega
  · simp only [Link.sent, hSent]
    push_cast
    exact hBound.2
  · rw [counted_iff h.head_of_tail]
    simp only [Link.sent, hSent]
    exact hCounted
  · simp only [Link.sent, hSent]
    exact hBound.1
  · simp only [Link.sent, hSent]
    exact hRoom hSmall

theorem sound_fresh (hTail : ∀ op ∈ ops, op.Numbered = false) (connected : Bool) :
    Link.Sound config ⟨connected, 0, 0, [], 0⟩ ops := by
  refine ⟨rfl, Nat.le_refl 0, ?_, fun op hOp => hTail op (List.mem_of_mem_tail hOp), fun _ => ⟨?_, rfl, ?_, fun _ => Nat.zero_le _⟩⟩
  · change (0 : Int) - 0 ≤ _
    omega
  · exact (counted_iff fun op hOp => hTail op (List.mem_of_mem_head? hOp)).mpr rfl
  · change 0 < 0 + 2 ^ 15
    omega

end Link

namespace Session

variable {K : Type}

def link (s : Session K) : Link where
  connected := s.client.connected
  sendSequence := s.client.sendSequence
  remoteReceiveSequence := s.client.remoteReceiveSequence
  numbers := s.iFrames.map iec104SendSequence
  acknowledged := s.acknowledged

def ops (s : Session K) : List (Op K) :=
  match s.caller with
  | none => []
  | some call => call.ops

theorem sent_link (s : Session K) : s.link.sent = s.sent := List.length_map _

@[simp] theorem link_finish (s : Session K) (call : Call K) (outcome : Outcome K) :
    (s.finish call outcome).link = s.link := rfl

@[simp] theorem ops_finish (s : Session K) (call : Call K) (outcome : Outcome K) :
    (s.finish call outcome).ops = [] := rfl

@[simp] theorem link_fail (s : Session K) (call : Call K) (message : String) : (s.fail call message).link = s.link := rfl

@[simp] theorem ops_fail (s : Session K) (call : Call K) (message : String) : (s.fail call message).ops = [] := rfl

@[simp] theorem link_proceed (s : Session K) (call : Call K) (ops : List (Op K)) :
    (s.proceed call ops).link = s.link := by
  cases ops <;> rfl

@[simp] theorem ops_proceed (s : Session K) (call : Call K) (ops : List (Op K)) : (s.proceed call ops).ops = ops := by
  cases ops <;> rfl

theorem link_put_other (s : Session K) {frame : List UInt8} (h : isIec104IFrame frame = false) :
    (s.put frame).link = s.link := by
  simp [put, link, iFrames, List.filter_append, h]

theorem link_put (s : Session K) {frame : List UInt8} (h : isIec104IFrame frame = true) :
    (s.put frame).link = { s.link with numbers := s.link.numbers ++ [iec104SendSequence frame] } := by
  simp [put, link, iFrames, List.filter_append, h]

@[simp] theorem ops_put (s : Session K) (frame : List UInt8) : (s.put frame).ops = s.ops := rfl

@[simp] theorem ops_disconnect (s : Session K) : s.disconnect.ops = s.ops := by
  rw [disconnect]
  split <;> rfl

theorem link_disconnect (s : Session K) : s.disconnect.link = { s.link with connected := false } := by
  rw [disconnect]
  split
  · rfl
  · rename_i h
    have hDown : s.client.connected = false := by simpa using h
    simp [link, hDown]

def Sound (config : IecProtocolConfig) (s : Session K) : Prop := s.link.Sound config s.ops

variable {config : IecProtocolConfig} {s : Session K} {frame : List UInt8}

theorem Sound.disconnect (h : s.Sound config) : s.disconnect.Sound config := by
  rw [Sound, link_disconnect, ops_disconnect]
  exact Link.Sound.down { s.link with connected := false } h rfl rfl rfl h.tail

theorem sendAll_sound (h : s.Sound config) (hOther : isIec104IFrame frame = false) (ok : Bool) :
    (s.sendAll frame ok).1.Sound config := by
  rw [sendAll]
  split
  · rw [Sound, link_put_other s hOther]
    exact h
  · exact h.disconnect

theorem acknowledge_bounds (h : s.acknowledged ≤ s.sent) (number : Nat) :
    s.acknowledged ≤ s.acknowledge number ∧ s.acknowledge number ≤ s.sent := by
  rw [acknowledge]
  split <;> omega

theorem acknowledge_count {count : Nat} (hNear : s.sent < s.acknowledged + 2 ^ 15) (hLow : s.acknowledged ≤ count)
    (hHigh : count ≤ s.sent) : s.acknowledge (count % 2 ^ 15) = count := by
  have hBehind : (((s.sent : Int) - (count % 2 ^ 15 : Nat)) % 2 ^ 15).toNat = s.sent - count := by omega
  rw [acknowledge, hBehind, if_pos (by omega)]
  omega

def Acknowledges (s : Session K) (frame : List UInt8) : Prop :=
  ∃ count, s.acknowledged ≤ count ∧ count ≤ s.sent ∧ iec104ReceiveSequence frame = count % 2 ^ 15

theorem Sound.acknowledgedBy (h : s.Sound config) (hAck : s.client.connected = true → s.Acknowledges frame) :
    (s.acknowledgedBy frame).Sound config := by
  have hAcknowledged : s.acknowledged ≤ s.sent := by
    rw [← sent_link]
    exact h.acknowledged_le
  have hBounds := acknowledge_bounds hAcknowledged (iec104ReceiveSequence frame)
  have hWindow := h.window
  rw [sent_link] at hWindow
  change (s.sent : Int) - s.acknowledged ≤ _ at hWindow
  refine ⟨h.consecutive, ?_, ?_, h.tail, fun hConnected => ?_⟩
  · rw [sent_link]
    exact hBounds.2
  · rw [sent_link]
    change (s.sent : Int) - s.acknowledge (iec104ReceiveSequence frame) ≤ _
    omega
  · have hLive := h.live hConnected
    have hNear := hLive.near
    rw [sent_link] at hNear
    obtain ⟨count, hLow, hHigh, hNumber⟩ := hAck hConnected
    have hCount : s.acknowledge (iec104ReceiveSequence frame) = count := by
      rw [hNumber]
      exact acknowledge_count hNear hLow hHigh
    refine ⟨hLive.counted.mono rfl rfl hBounds.1, ?_, ?_, fun hLimit => ?_⟩
    · change iec104ReceiveSequence frame = s.acknowledge (iec104ReceiveSequence frame) % 2 ^ 15
      rw [hCount, hNumber]
    · rw [sent_link]
      change s.sent < s.acknowledge (iec104ReceiveSequence frame) + 2 ^ 15
      change s.sent < s.acknowledged + 2 ^ 15 at hNear
      omega
    · exact (hLive.room hLimit).trans (Nat.add_le_add_right hBounds.1 _)

end Session

end EdgeGateway.Iec
