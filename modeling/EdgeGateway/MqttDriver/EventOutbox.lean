import EdgeGateway.Models
import Mathlib.Data.List.Sort

/-! # The outbox of events

A table of messages, each sent or not yet, with the statements as SQLite specifies them. Replay
first sends the rows of a batch and then marks them in one statement.
-/

namespace EdgeGateway.MqttDriver.EventOutbox

abbrev SqlText := List UInt8

def literal (text : String) : SqlText := text.toList.map fun c => UInt8.ofNat c.toNat

structure EventMessage where
  eventType : SqlText
  topic : SqlText
  payload : SqlText
  eventTs : Int

structure Row where
  id : Int
  eventType : SqlText
  topic : SqlText
  payload : SqlText
  eventTs : Int
  createdAt : Int
  sent : Bool := false
  sentAt : Option Int := none
deriving DecidableEq, Repr

/-- The table, with the counter behind `AUTOINCREMENT`. -/
structure Outbox where
  rows : List Row
  lastId : Int
  nodup : (rows.map (·.id)).Nodup
  below : ∀ row ∈ rows, row.id ≤ lastId

/-- `columnText` and the bound texts end at a NUL. -/
def cString (text : SqlText) : SqlText := text.takeWhile (· ≠ 0)

section Order

variable (rank : Row → Nat)

def ahead (row other : Row) : Prop :=
  rank row < rank other ∨ rank row = rank other ∧
    (row.eventTs < other.eventTs ∨ row.eventTs = other.eventTs ∧ row.id ≤ other.id)

instance decidableAhead : DecidableRel (ahead rank) := fun _ _ => inferInstanceAs (Decidable (_ ∨ _))

def orderBy (rows : List Row) : List Row := rows.insertionSort (ahead rank)

theorem ahead_total (row other : Row) : ahead rank row other ∨ ahead rank other row := by
  unfold ahead
  omega

theorem ahead_trans {a b c : Row} (h : ahead rank a b) (h' : ahead rank b c) : ahead rank a c := by
  unfold ahead at *
  omega

variable {rank}

theorem mem_orderBy {rows : List Row} {row : Row} : row ∈ orderBy rank rows ↔ row ∈ rows := List.mem_insertionSort _

theorem perm_orderBy (rows : List Row) : (orderBy rank rows).Perm rows := List.perm_insertionSort _ rows

theorem pairwise_orderBy (rows : List Row) : (orderBy rank rows).Pairwise (ahead rank) :=
  @List.pairwise_insertionSort _ (ahead rank) _ ⟨ahead_total rank⟩ ⟨fun _ _ _ => ahead_trans rank⟩ rows

end Order

namespace Outbox

def unsent (outbox : Outbox) : List Row := outbox.rows.filter fun row => !row.sent

def markRow (ids : List Int) (sentAt : Int) (row : Row) : Row :=
  if row.id ∈ ids then { row with sent := true, sentAt := some sentAt } else row

theorem markRow_id (ids : List Int) (sentAt : Int) (row : Row) : (markRow ids sentAt row).id = row.id := by
  rw [markRow]
  split <;> rfl

theorem markRow_sent (ids : List Int) (sentAt : Int) (row : Row) :
    (markRow ids sentAt row).sent = (row.sent || decide (row.id ∈ ids)) := by
  rw [markRow]
  split <;> simp [*]

def markSentBatch (outbox : Outbox) (ids : List Int) (sentAt : Int) : Outbox where
  rows := outbox.rows.map (markRow ids sentAt)
  lastId := outbox.lastId
  nodup := by
    have hIds : (fun row : Row => row.id) ∘ markRow ids sentAt = (·.id) := funext (markRow_id ids sentAt)
    rw [List.map_map, hIds]
    exact outbox.nodup
  below := by
    intro row hRow
    obtain ⟨before, hBefore, rfl⟩ := List.mem_map.mp hRow
    rw [markRow_id]
    exact outbox.below before hBefore

end Outbox

structure ReplayStats where
  count : Nat := 0
  bytes : Nat := 0
  alarmCount : Nat := 0
  changeCount : Nat := 0
  otherCount : Nat := 0
deriving DecidableEq, Repr

def replayRank (row : Row) : Nat :=
  if row.eventType = literal "alarm" then 0 else if row.eventType = literal "change" then 1 else 2

def limitRows (limit : Int) (rows : List Row) : List Row := if limit < 0 then rows else rows.take limit.toNat

def readColumns (row : Row) : Row :=
  { row with eventType := cString row.eventType, topic := cString row.topic, payload := cString row.payload }

/-- The rows that a replay reads; the batch size is converted to `int`. -/
def replayRows (outbox : Outbox) (replayBatchSize : Nat) : List Row :=
  (limitRows ((replayBatchSize : Int).bmod (2 ^ 32)) (orderBy replayRank outbox.unsent)).map readColumns

def rowBytes (row : Row) : Nat := row.topic.length + row.payload.length

structure Delivery where
  sentIds : List Int := []
  stats : ReplayStats := {}
  thrown : Bool := false

def Delivery.add (delivery : Delivery) (row : Row) : Delivery :=
  let stats := { delivery.stats with
    count := delivery.stats.count + 1
    bytes := delivery.stats.bytes + rowBytes row }
  { delivery with
    sentIds := delivery.sentIds ++ [row.id]
    stats :=
      if row.eventType = literal "alarm" then { stats with alarmCount := stats.alarmCount + 1 }
      else if row.eventType = literal "change" then { stats with changeCount := stats.changeCount + 1 }
      else { stats with otherCount := stats.otherCount + 1 } }

def deliver (maxBytes : Nat) (sends : Nat → Bool) : List Row → Delivery → Delivery
  | [], delivery => delivery
  | row :: rows, delivery =>
    if 0 < maxBytes ∧ delivery.sentIds ≠ [] ∧ maxBytes < delivery.stats.bytes + rowBytes row then delivery
    else if sends delivery.sentIds.length then deliver maxBytes sends rows (delivery.add row)
    else { delivery with thrown := true }

/-- The table afterwards, the result if the call returned, and the rows whose send returned. -/
structure ReplayOutcome where
  outbox : Outbox
  stats : Option ReplayStats
  delivered : List Int

/-- What is done behind the loop; an exception leaves the function. -/
def finishReplay (outbox : Outbox) (currentTimeMs : Int) (delivery : Delivery) : ReplayOutcome :=
  if delivery.thrown then ⟨outbox, none, delivery.sentIds⟩
  else if delivery.sentIds = [] then ⟨outbox, some {}, []⟩
  else ⟨outbox.markSentBatch delivery.sentIds currentTimeMs, some delivery.stats, delivery.sentIds⟩

def replayWithStats (outbox : Outbox) (replayBatchSize maxBytes : Nat) (sends : Nat → Bool) (currentTimeMs : Int) :
    ReplayOutcome :=
  finishReplay outbox currentTimeMs (deliver maxBytes sends (replayRows outbox replayBatchSize) {})

/-- Exactly the rows that were delivered are newly marked. -/
def MarksDelivered (before : Outbox) (outcome : ReplayOutcome) : Prop :=
  (outcome.outbox.rows.map fun row => (row.id, row.sent)) =
    before.rows.map fun row => (row.id, row.sent || decide (row.id ∈ outcome.delivered))

/-- The sends before it return, and it is the first one or the rows up to it are within the byte limit. -/
def Attempted (maxBytes : Nat) (rows : List Row) (k : Nat) : Prop :=
  k < rows.length ∧ (k = 0 ∨ maxBytes = 0 ∨ ((rows.take (k + 1)).map rowBytes).sum ≤ maxBytes)

section Marking

variable {maxBytes : Nat} {sends : Nat → Bool} {rows : List Row} {delivery : Delivery}

theorem bytes_add (delivery : Delivery) (row : Row) :
    (delivery.add row).stats.bytes = delivery.stats.bytes + rowBytes row := by
  unfold Delivery.add
  dsimp only
  split
  · rfl
  · split <;> rfl

theorem sentIds_add (delivery : Delivery) (row : Row) : (delivery.add row).sentIds = delivery.sentIds ++ [row.id] := rfl

/-- `Attempted` for a loop that has begun. -/
def AttemptedFrom (maxBytes : Nat) (delivery : Delivery) (rows : List Row) (k : Nat) : Prop :=
  k < rows.length ∧ (delivery.sentIds = [] ∧ k = 0 ∨ maxBytes = 0 ∨
    delivery.stats.bytes + ((rows.take (k + 1)).map rowBytes).sum ≤ maxBytes)

theorem attemptedFrom_start {k : Nat} : AttemptedFrom maxBytes {} rows k ↔ Attempted maxBytes rows k := by
  simp [AttemptedFrom, Attempted]

theorem attemptedFrom_add {row : Row} {k : Nat} :
    AttemptedFrom maxBytes (delivery.add row) rows k ↔ AttemptedFrom maxBytes delivery (row :: rows) (k + 1) := by
  simp [AttemptedFrom, bytes_add, sentIds_add, Nat.add_assoc]

theorem deliver_spec (hThrown : delivery.thrown = false) :
    ∃ n, (deliver maxBytes sends rows delivery).sentIds = delivery.sentIds ++ (rows.take n).map (·.id) ∧
      (∀ k < n, AttemptedFrom maxBytes delivery rows k ∧ sends (delivery.sentIds.length + k) = true) ∧
      ((deliver maxBytes sends rows delivery).thrown = true →
        AttemptedFrom maxBytes delivery rows n ∧ sends (delivery.sentIds.length + n) = false) ∧
      ((deliver maxBytes sends rows delivery).thrown = false → ¬ AttemptedFrom maxBytes delivery rows n) := by
  induction rows generalizing delivery with
  | nil =>
    refine ⟨0, (List.append_nil _).symm, fun k hk => absurd hk (Nat.not_lt_zero k), ?_, fun _ h => absurd h.1 (by simp)⟩
    intro h
    rw [deliver, hThrown] at h
    cases h
  | cons row rows ih =>
    rw [deliver]
    split
    · rename_i hFull
      refine ⟨0, (List.append_nil _).symm, fun k hk => absurd hk (Nat.not_lt_zero k), ?_, fun _ h => ?_⟩
      · intro h
        rw [hThrown] at h
        cases h
      · obtain ⟨-, ⟨hNone, -⟩ | hZero | hBytes⟩ := h
        · exact hFull.2.1 hNone
        · omega
        · simp at hBytes
          omega
    · rename_i hRoom
      have hFirst : AttemptedFrom maxBytes delivery (row :: rows) 0 := by
        refine ⟨by simp, ?_⟩
        by_cases hNone : delivery.sentIds = []
        · exact .inl ⟨hNone, rfl⟩
        · right
          simp [hNone] at hRoom ⊢
          omega
      split
      · rename_i hSent
        obtain ⟨n, hIds, hBefore, hFailed, hDone⟩ := @ih (delivery.add row) hThrown
        rw [sentIds_add, List.length_append, List.length_singleton] at hBefore hFailed
        refine ⟨n + 1, ?_, ?_, ?_, ?_⟩
        · rw [hIds, sentIds_add, List.append_assoc, List.take_succ_cons]
          rfl
        · intro k hk
          cases k with
          | zero => exact ⟨hFirst, hSent⟩
          | succ k =>
            obtain ⟨hAttempted, hReturned⟩ := hBefore k (by omega)
            exact ⟨attemptedFrom_add.mp hAttempted, by rwa [← Nat.add_assoc, Nat.add_right_comm]⟩
        · intro h
          obtain ⟨hAttempted, hThrows⟩ := hFailed h
          exact ⟨attemptedFrom_add.mp hAttempted, by rwa [← Nat.add_assoc, Nat.add_right_comm]⟩
        · exact fun h hAttempted => hDone h (attemptedFrom_add.mpr hAttempted)
      · rename_i hFails
        refine ⟨0, (List.append_nil _).symm, fun k hk => absurd hk (Nat.not_lt_zero k), ?_, ?_⟩
        · exact fun _ => ⟨hFirst, by simpa using hFails⟩
        · intro h
          cases h

theorem Attempted.mono {j k : Nat} (h : Attempted maxBytes rows k) (hj : j ≤ k) : Attempted maxBytes rows j := by
  obtain ⟨hLength, hLimit⟩ := h
  refine ⟨by omega, ?_⟩
  obtain rfl | hZero | hBytes := hLimit
  · exact .inl (by omega)
  · exact .inr (.inl hZero)
  · refine .inr (.inr ?_)
    obtain ⟨more, rfl⟩ := Nat.exists_eq_add_of_le hj
    rw [Nat.add_right_comm, List.take_add, List.map_append, List.sum_append] at hBytes
    omega

theorem sent_of_mem_replayRows {outbox : Outbox} {replayBatchSize : Nat} {row : Row}
    (h : row ∈ replayRows outbox replayBatchSize) :
    ∃ stored ∈ outbox.rows, stored.id = row.id ∧ stored.sent = false := by
  obtain ⟨stored, hStored, rfl⟩ := List.mem_map.mp h
  have hOrdered : stored ∈ orderBy replayRank outbox.unsent := by
    rw [limitRows] at hStored
    split at hStored
    · exact hStored
    · exact List.mem_of_mem_take hStored
  obtain ⟨hRow, hUnsent⟩ := List.mem_filter.mp (mem_orderBy.mp hOrdered)
  exact ⟨stored, hRow, rfl, by simpa using hUnsent⟩

theorem marksDelivered_nil (outbox : Outbox) (stats : Option ReplayStats) :
    MarksDelivered outbox ⟨outbox, stats, []⟩ := by
  simp [MarksDelivered]

theorem finishReplay_marks_iff {outbox : Outbox}
    (hRows : ∀ row ∈ rows, ∃ stored ∈ outbox.rows, stored.id = row.id ∧ stored.sent = false) (currentTimeMs : Int) :
    MarksDelivered outbox (finishReplay outbox currentTimeMs (deliver maxBytes sends rows {})) ↔
      sends 0 = false ∨ ∀ k, Attempted maxBytes rows k → sends k = true := by
  obtain ⟨n, hIds, hBefore, hFailed, hDone⟩ : ∃ n, _ := @deliver_spec maxBytes sends rows {} rfl
  simp only [attemptedFrom_start, List.length_nil, Nat.zero_add, List.nil_append] at hIds hBefore hFailed hDone
  rw [finishReplay]
  cases hThrown : (deliver maxBytes sends rows {}).thrown with
  | true =>
    obtain ⟨hAttempted, hThrows⟩ := hFailed hThrown
    rw [if_pos rfl, hIds]
    cases n with
    | zero =>
      rw [List.take_zero, List.map_nil]
      exact iff_of_true (marksDelivered_nil outbox none) (.inl hThrows)
    | succ n =>
      refine iff_of_false ?_ ?_
      · intro hMarks
        obtain ⟨row, rest, rfl⟩ := List.exists_cons_of_length_pos (Nat.zero_lt_of_lt hAttempted.1)
        obtain ⟨stored, hStored, hId, hUnsent⟩ := hRows row List.mem_cons_self
        have hMarked := (Prod.mk.inj (List.map_inj_left.mp hMarks stored hStored)).2
        rw [hUnsent, hId] at hMarked
        simp at hMarked
      · rintro (hFirst | hAll)
        · rw [(hBefore 0 (Nat.succ_pos n)).2] at hFirst
          cases hFirst
        · rw [hAll _ hAttempted] at hThrows
          cases hThrows
  | false =>
    rw [if_neg Bool.false_ne_true]
    refine iff_of_true ?_ (.inr fun k hk => ?_)
    · split
      · exact marksDelivered_nil outbox (some {})
      · rw [MarksDelivered, Outbox.markSentBatch, List.map_map]
        exact List.map_congr_left fun row _ => Prod.ext (Outbox.markRow_id ..) (Outbox.markRow_sent ..)
    · obtain hBelow | hAbove := Nat.lt_or_ge k n
      · exact (hBefore k hBelow).2
      · exact absurd (hk.mono hAbove) (hDone hThrown)

/-- Nothing that was delivered stays unmarked exactly when no send throws behind a delivered row. -/
theorem replay_marks_delivered_iff (outbox : Outbox) (replayBatchSize maxBytes : Nat) (sends : Nat → Bool)
    (currentTimeMs : Int) :
    MarksDelivered outbox (replayWithStats outbox replayBatchSize maxBytes sends currentTimeMs) ↔
      sends 0 = false ∨ ∀ k, Attempted maxBytes (replayRows outbox replayBatchSize) k → sends k = true :=
  finishReplay_marks_iff (fun _ hRow => sent_of_mem_replayRows hRow) currentTimeMs

def twoChanges : Outbox where
  rows := [⟨1, literal "change", literal "t", literal "a", 10, 10, false, none⟩,
    ⟨2, literal "change", literal "t", literal "b", 20, 20, false, none⟩]
  lastId := 2
  nodup := by decide
  below := by decide

/-- The second of two sends throws: the first row was delivered and stays unsent. -/
theorem failure_behind_delivery_unmarked :
    (replayWithStats twoChanges 100 0 (fun k => k == 0) 30).delivered = [1] ∧
      (replayWithStats twoChanges 100 0 (fun k => k == 0) 30).outbox.rows = twoChanges.rows ∧
      ¬ MarksDelivered twoChanges (replayWithStats twoChanges 100 0 (fun k => k == 0) 30) := by
  refine ⟨by decide, by decide, ?_⟩
  intro hMarks
  exact absurd (congrArg (List.map Prod.snd) hMarks) (by decide)

end Marking

end EdgeGateway.MqttDriver.EventOutbox
