import EdgeGateway.Foundation.Selection
import EdgeGateway.MqttDriver.EventOutbox

/-! # Pruning the outbox

Rows not sent yet are deleted until the texts of the others fit a target, other events before alarms
and old before new.
-/

namespace EdgeGateway.MqttDriver.EventOutbox

open Selection

/-- `length()` of a text: what follows the first byte of a character is not counted, and a NUL ends it. -/
def sqlLengthFrom : Bool → SqlText → Nat
  | _, [] => 0
  | inside, byte :: rest =>
    if byte = 0 then 0
    else if inside ∧ byte &&& 0xC0 = 0x80 then sqlLengthFrom true rest
    else sqlLengthFrom (0xC0 ≤ byte) rest + 1

def sqlLength (text : SqlText) : Nat := sqlLengthFrom false text

def rowLength (row : Row) : Nat := sqlLength row.topic + sqlLength row.payload

def pruneRank (row : Row) : Nat := if row.eventType = literal "alarm" then 1 else 0

namespace Outbox

def deleteRows (outbox : Outbox) (ids : List Int) : Outbox where
  rows := outbox.rows.filter fun row => row.id ∉ ids
  lastId := outbox.lastId
  nodup := outbox.nodup.sublist (List.filter_sublist.map _)
  below := fun row hRow => outbox.below row (List.mem_filter.mp hRow).1

def pendingBytes (outbox : Outbox) : Nat := total rowLength outbox.unsent

def prunePendingRows (outbox : Outbox) (targetBytes : Nat) : Outbox :=
  if outbox.pendingBytes ≤ targetBytes then outbox
  else
    let bytesToRemove := outbox.pendingBytes - targetBytes
    outbox.deleteRows ((gather rowLength bytesToRemove 0 (orderBy pruneRank outbox.unsent)).map (·.id))

def pruneTarget (maxDiskBytes : Nat) : Nat := if 4096 < maxDiskBytes then maxDiskBytes - 4096 else maxDiskBytes

def enforceDiskLimit (outbox : Outbox) (maxDiskBytes : Nat) : Outbox :=
  if maxDiskBytes = 0 then outbox else outbox.prunePendingRows (pruneTarget maxDiskBytes)

end Outbox

def storedRow (createdAt id : Int) (event : EventMessage) : Row where
  id := id
  eventType := cString event.eventType
  topic := cString event.topic
  payload := cString event.payload
  eventTs := if 0 < event.eventTs then event.eventTs else createdAt
  createdAt := createdAt

namespace Outbox

def insertEvent (createdAt : Int) (outbox : Outbox) (event : EventMessage) : Outbox :=
  if event.topic = [] then outbox
  else
    { rows := outbox.rows ++ [storedRow createdAt (outbox.lastId + 1) event]
      lastId := outbox.lastId + 1
      nodup := by
        rw [List.map_append, List.map_singleton, List.nodup_append]
        refine ⟨outbox.nodup, List.nodup_singleton _, ?_⟩
        intro id hId other hOther hSame
        obtain ⟨row, hRow, rfl⟩ := List.mem_map.mp hId
        have hNew : other = outbox.lastId + 1 := List.mem_singleton.mp hOther
        have hOld := outbox.below row hRow
        omega
      below := by
        intro row hRow
        obtain hOld | hNew := List.mem_append.mp hRow
        · have := outbox.below row hOld
          omega
        · rw [List.mem_singleton.mp hNew]
          exact Int.le_refl _ }

def insertEvents (outbox : Outbox) (createdAt : Int) (events : List EventMessage) : Outbox :=
  events.foldl (insertEvent createdAt) outbox

def enqueueBatch (outbox : Outbox) (maxDiskBytes : Nat) (createdAt : Int) (events : List EventMessage) :
    Outbox × List Int :=
  if events = [] then (outbox, [])
  else
    let pruned := outbox.enforceDiskLimit maxDiskBytes
    let inserted := pruned.insertEvents createdAt events
    (inserted.enforceDiskLimit maxDiskBytes, (inserted.rows.drop pruned.rows.length).map (·.id))

end Outbox

def unsentBytes (outbox : Outbox) : Nat := total rowBytes outbox.unsent

def IsAlarm (row : Row) : Prop := row.eventType = literal "alarm"

/-- The deleted rows are the first in the order, as few as the limit asks for, and alarms only for want of others. -/
structure Prunes (limit : Nat) (before after : Outbox) : Prop where
  deletes : ∃ deleted kept, orderBy pruneRank before.unsent = deleted ++ kept ∧
    after.rows = before.rows.filter (fun row => row ∉ deleted) ∧
    (∀ fewer < deleted.length, limit < total rowBytes ((deleted ++ kept).drop fewer)) ∧
    ∀ row ∈ deleted, IsAlarm row → ∀ other ∈ after.unsent, IsAlarm other

/-- The bytes that deletions are to reach may be `maxDiskBytes` or `pruneTarget maxDiskBytes`; it is left open
    here. -/
structure KeepsDiskLimit (limit maxDiskBytes : Nat) (outbox : Outbox) (createdAt : Int) (events : List EventMessage) :
    Prop where
  bounded : unsentBytes (outbox.enqueueBatch maxDiskBytes createdAt events).1 ≤ maxDiskBytes
  pruned : events ≠ [] → Prunes limit outbox (outbox.enforceDiskLimit maxDiskBytes) ∧
    Prunes limit ((outbox.enforceDiskLimit maxDiskBytes).insertEvents createdAt events)
      (outbox.enqueueBatch maxDiskBytes createdAt events).1

theorem sqlLengthFrom_le (inside : Bool) (text : SqlText) : sqlLengthFrom inside text ≤ text.length := by
  induction text generalizing inside with
  | nil => exact Nat.le_refl 0
  | cons byte text ih =>
    rw [sqlLengthFrom, List.length_cons]
    split
    · omega
    · split
      · exact (ih true).trans (Nat.le_succ _)
      · exact Nat.succ_le_succ (ih _)

theorem total_rowLength_le (rows : List Row) : total rowLength rows ≤ total rowBytes rows := by
  induction rows with
  | nil => exact Nat.le_refl 0
  | cons row rows ih =>
    have hTopic : sqlLength row.topic ≤ row.topic.length := sqlLengthFrom_le false row.topic
    have hPayload : sqlLength row.payload ≤ row.payload.length := sqlLengthFrom_le false row.payload
    rw [total_cons, total_cons, rowLength, rowBytes]
    omega

section Pruning

variable {outbox : Outbox} {rank : Row → Nat}

theorem eq_of_id {row other : Row} (hRow : row ∈ outbox.rows) (hOther : other ∈ outbox.rows) (hId : row.id = other.id) :
    row = other :=
  List.inj_on_of_nodup_map outbox.nodup hRow hOther hId

theorem nodup_orderBy (outbox : Outbox) : (orderBy rank outbox.unsent).Nodup :=
  (perm_orderBy _).nodup_iff.mpr ((outbox.nodup.of_map _).filter _)

theorem mem_rows_of_mem_orderBy {row : Row} (h : row ∈ orderBy rank outbox.unsent) : row ∈ outbox.rows :=
  (List.mem_filter.mp (mem_orderBy.mp h)).1

def keptRows (target : Nat) (rows : List Row) : List Row := fitting rowLength target (orderBy pruneRank rows)

theorem exists_deleted (outbox : Outbox) (target : Nat) :
    ∃ deleted, orderBy pruneRank outbox.unsent = deleted ++ keptRows target outbox.unsent ∧
      (outbox.prunePendingRows target).rows = outbox.rows.filter fun row => row ∉ deleted := by
  have hTotal : total rowLength (orderBy pruneRank outbox.unsent) = outbox.pendingBytes := total_perm (perm_orderBy _)
  rw [Outbox.prunePendingRows]
  split
  · rename_i hFits
    refine ⟨[], ?_, ?_⟩
    · rw [keptRows, fitting_eq_self (hTotal.trans_le hFits), List.nil_append]
    · exact (List.filter_eq_self.mpr fun row _ => by simp).symm
  · rename_i hOver
    have hSplit := @gather_append_fitting _ rowLength target (orderBy pruneRank outbox.unsent) (by omega) 0
    rw [hTotal, Nat.zero_add] at hSplit
    refine ⟨_, hSplit.symm, List.filter_congr fun row hRow => ?_⟩
    rw [decide_eq_decide, not_iff_not, List.mem_map]
    constructor
    · rintro ⟨other, hOther, hId⟩
      have hStored : other ∈ outbox.rows :=
        mem_rows_of_mem_orderBy (hSplit ▸ List.mem_append_left _ hOther)
      rwa [← eq_of_id hStored hRow hId]
    · exact fun hDeleted => ⟨row, hDeleted, rfl⟩

theorem unsent_filter {after : Outbox} {p : Row → Bool} (h : after.rows = outbox.rows.filter p) :
    after.unsent = outbox.unsent.filter p := by
  rw [Outbox.unsent, Outbox.unsent, h, List.filter_filter, List.filter_filter]
  exact List.filter_congr fun row _ => Bool.and_comm _ _

theorem perm_unsent_of_deleted {after : Outbox} {deleted kept : List Row}
    (hOrder : orderBy pruneRank outbox.unsent = deleted ++ kept)
    (hRows : after.rows = outbox.rows.filter fun row => row ∉ deleted) : after.unsent.Perm kept := by
  have hNodup : (deleted ++ kept).Nodup := hOrder ▸ nodup_orderBy outbox
  have hKept : (deleted ++ kept).filter (fun row => row ∉ deleted) = kept := by
    rw [List.filter_append, List.filter_eq_nil_iff.mpr (by simp), List.nil_append, List.filter_eq_self.mpr]
    intro row hRow
    exact decide_eq_true fun hDeleted => (List.disjoint_of_nodup_append hNodup) hDeleted hRow
  rw [unsent_filter hRows, ← hKept, ← hOrder]
  exact (perm_orderBy _).symm.filter _

theorem perm_unsent_prune (outbox : Outbox) (target : Nat) :
    (outbox.prunePendingRows target).unsent.Perm (keptRows target outbox.unsent) := by
  obtain ⟨deleted, hOrder, hRows⟩ := exists_deleted outbox target
  exact perm_unsent_of_deleted hOrder hRows

theorem alarms_last {deleted kept : List Row} (hOrder : orderBy pruneRank outbox.unsent = deleted ++ kept) {row other : Row}
    (hRow : row ∈ deleted) (hAlarm : IsAlarm row) (hOther : other ∈ kept) : IsAlarm other := by
  have hAhead := (List.pairwise_append.mp (hOrder ▸ pairwise_orderBy outbox.unsent)).2.2 row hRow other hOther
  have hRank : pruneRank row = 1 := if_pos hAlarm
  rw [ahead, hRank] at hAhead
  by_contra hNone
  have hOtherRank : pruneRank other = 0 := if_neg hNone
  omega

theorem prunes_iff (limit target : Nat) (outbox : Outbox) :
    Prunes limit outbox (outbox.prunePendingRows target) ↔
      ∀ rows, rows <:+ orderBy pruneRank outbox.unsent → total rowBytes rows ≤ limit → total rowLength rows ≤ target := by
  obtain ⟨deleted, hOrder, hRows⟩ := exists_deleted outbox target
  have hKept := perm_unsent_prune outbox target
  constructor
  · rintro ⟨deleted', kept', hOrder', hRows', hFewest, -⟩ rows hSuffix hBytes
    have hLength : (keptRows target outbox.unsent).length = kept'.length :=
      (hKept.symm.trans (perm_unsent_of_deleted hOrder' hRows')).length_eq
    obtain ⟨rfl, rfl⟩ := List.append_inj' (hOrder.symm.trans hOrder') hLength
    have hDrop := List.suffix_iff_eq_drop.mp hSuffix
    rw [hOrder] at hDrop
    obtain hDeleted | hInside := Nat.lt_or_ge
      ((deleted ++ keptRows target outbox.unsent).length - rows.length) deleted.length
    · have hOver := hFewest _ hDeleted
      rw [← hDrop] at hOver
      omega
    · rw [List.drop_append, List.drop_eq_nil_of_le hInside, List.nil_append] at hDrop
      have hEnd : rows <:+ keptRows target outbox.unsent := hDrop ▸ List.drop_suffix _ _
      exact (total_le_of_suffix hEnd).trans (total_fitting_le target _)
  · intro hEnds
    refine ⟨deleted, keptRows target outbox.unsent, hOrder, hRows, ?_, ?_⟩
    · intro fewer hFewer
      by_contra hReached
      have hSuffix : (deleted ++ keptRows target outbox.unsent).drop fewer <:+ orderBy pruneRank outbox.unsent := by
        rw [hOrder]
        exact List.drop_suffix _ _
      have hFits := suffix_fitting hSuffix (hEnds _ hSuffix (Nat.not_lt.mp hReached))
      have hLength := hFits.length_le
      rw [← keptRows, List.length_drop, List.length_append] at hLength
      omega
    · intro row hRow hAlarm other hOther
      exact alarms_last hOrder hRow hAlarm (hKept.mem_iff.mp hOther)

theorem bytes_kept_le_iff (limit target : Nat) (outbox : Outbox) :
    unsentBytes (outbox.prunePendingRows target) ≤ limit ↔
      ∀ rows, rows <:+ orderBy pruneRank outbox.unsent → total rowLength rows ≤ target → total rowBytes rows ≤ limit := by
  have hBytes : unsentBytes (outbox.prunePendingRows target) = total rowBytes (keptRows target outbox.unsent) :=
    total_perm (perm_unsent_prune outbox target)
  rw [hBytes]
  constructor
  · intro hKept rows hSuffix hFits
    exact (total_le_of_suffix (suffix_fitting hSuffix hFits)).trans hKept
  · intro hEnds
    exact hEnds _ (fitting_suffix target _) (total_fitting_le target _)

end Pruning

def storedRows (createdAt : Int) : Int → List EventMessage → List Row
  | _, [] => []
  | lastId, event :: events =>
    if event.topic = [] then storedRows createdAt lastId events
    else storedRow createdAt (lastId + 1) event :: storedRows createdAt (lastId + 1) events

theorem unsent_insertEvents (createdAt : Int) (events : List EventMessage) (outbox : Outbox) :
    (outbox.insertEvents createdAt events).unsent = outbox.unsent ++ storedRows createdAt outbox.lastId events := by
  induction events generalizing outbox with
  | nil => exact (List.append_nil _).symm
  | cons event events ih =>
    rw [Outbox.insertEvents, List.foldl_cons, storedRows]
    refine (ih _).trans ?_
    rw [Outbox.insertEvent]
    split
    · rfl
    · rw [Outbox.unsent, List.filter_append, List.append_assoc]
      rfl

theorem orderBy_eq_of_perm {outbox : Outbox} {rank : Row → Nat} {rows : List Row} (h : outbox.unsent.Perm rows) :
    orderBy rank outbox.unsent = orderBy rank rows := by
  refine List.Perm.eq_of_pairwise ?_ (pairwise_orderBy _) (pairwise_orderBy _)
    ((perm_orderBy _).trans (h.trans (perm_orderBy _).symm))
  intro row other hRow hOther hFirst hSecond
  have hStored : other ∈ outbox.rows := (List.mem_filter.mp (h.mem_iff.mpr (mem_orderBy.mp hOther))).1
  refine eq_of_id (mem_rows_of_mem_orderBy hRow) hStored ?_
  unfold ahead at hFirst hSecond
  omega

theorem lastId_prune (outbox : Outbox) (target : Nat) : (outbox.prunePendingRows target).lastId = outbox.lastId := by
  rw [Outbox.prunePendingRows]
  split <;> rfl

def pendingRows (outbox : Outbox) (target : Nat) (createdAt : Int) (events : List EventMessage) : List Row :=
  keptRows target outbox.unsent ++ storedRows createdAt outbox.lastId events

theorem orderBy_pendingRows (outbox : Outbox) (target : Nat) (createdAt : Int) (events : List EventMessage) :
    orderBy pruneRank ((outbox.prunePendingRows target).insertEvents createdAt events).unsent =
      orderBy pruneRank (pendingRows outbox target createdAt events) := by
  apply orderBy_eq_of_perm
  rw [unsent_insertEvents, lastId_prune]
  exact (perm_unsent_prune outbox target).append_right _

theorem enforceDiskLimit_of_pos {maxDiskBytes : Nat} (h : 0 < maxDiskBytes) (outbox : Outbox) :
    outbox.enforceDiskLimit maxDiskBytes = outbox.prunePendingRows (Outbox.pruneTarget maxDiskBytes) := by
  rw [Outbox.enforceDiskLimit, if_neg (by omega)]

theorem enqueueBatch_fst {maxDiskBytes : Nat} (h : 0 < maxDiskBytes) (outbox : Outbox) (createdAt : Int)
    {events : List EventMessage} (hSome : events ≠ []) :
    (outbox.enqueueBatch maxDiskBytes createdAt events).1 =
      ((outbox.prunePendingRows (Outbox.pruneTarget maxDiskBytes)).insertEvents createdAt events).prunePendingRows
        (Outbox.pruneTarget maxDiskBytes) := by
  rw [Outbox.enqueueBatch, if_neg hSome]
  dsimp only
  rw [enforceDiskLimit_of_pos h, enforceDiskLimit_of_pos h]

def EndsWithin (size : Row → Nat) (bound : Nat) (size' : Row → Nat) (bound' : Nat) (rows : List Row) : Prop :=
  ∀ last, last <:+ orderBy pruneRank rows → total size last ≤ bound → total size' last ≤ bound'

instance (size : Row → Nat) (bound : Nat) (size' : Row → Nat) (bound' : Nat) (rows : List Row) :
    Decidable (EndsWithin size bound size' bound' rows) :=
  decidable_of_iff (∀ last ∈ (orderBy pruneRank rows).tails, total size last ≤ bound → total size' last ≤ bound')
    (forall_congr' fun last => by rw [List.mem_tails])

theorem keepsDiskLimit_of_some (limit : Nat) {maxDiskBytes : Nat} (hLimited : 0 < maxDiskBytes) (outbox : Outbox)
    (createdAt : Int) {events : List EventMessage} (hSome : events ≠ []) :
    KeepsDiskLimit limit maxDiskBytes outbox createdAt events ↔
      EndsWithin rowLength (Outbox.pruneTarget maxDiskBytes) rowBytes maxDiskBytes
          (pendingRows outbox (Outbox.pruneTarget maxDiskBytes) createdAt events) ∧
        EndsWithin rowBytes limit rowLength (Outbox.pruneTarget maxDiskBytes)
          (pendingRows outbox (Outbox.pruneTarget maxDiskBytes) createdAt events) ∧
        EndsWithin rowBytes limit rowLength (Outbox.pruneTarget maxDiskBytes) outbox.unsent := by
  have hBytes := bytes_kept_le_iff maxDiskBytes (Outbox.pruneTarget maxDiskBytes)
    ((outbox.prunePendingRows (Outbox.pruneTarget maxDiskBytes)).insertEvents createdAt events)
  have hSecond := prunes_iff limit (Outbox.pruneTarget maxDiskBytes)
    ((outbox.prunePendingRows (Outbox.pruneTarget maxDiskBytes)).insertEvents createdAt events)
  rw [orderBy_pendingRows, ← enqueueBatch_fst hLimited outbox createdAt hSome] at hBytes hSecond
  have hFirst := prunes_iff limit (Outbox.pruneTarget maxDiskBytes) outbox
  rw [← enforceDiskLimit_of_pos hLimited] at hFirst hSecond
  constructor
  · rintro ⟨hBounded, hPruned⟩
    exact ⟨hBytes.mp hBounded, hSecond.mp (hPruned hSome).2, hFirst.mp (hPruned hSome).1⟩
  · rintro ⟨hLast, hFewest, hStored⟩
    exact ⟨hBytes.mpr hLast, fun _ => ⟨hFirst.mpr hStored, hSecond.mpr hFewest⟩⟩

theorem endsWithin_target (target : Nat) (rows : List Row) : EndsWithin rowBytes target rowLength target rows :=
  fun last _ hBytes => (total_rowLength_le last).trans hBytes

theorem keepsDiskLimit_iff (limit maxDiskBytes : Nat) (hLimited : 0 < maxDiskBytes) (outbox : Outbox) (createdAt : Int)
    (events : List EventMessage) :
    KeepsDiskLimit limit maxDiskBytes outbox createdAt events ↔
      if events = [] then unsentBytes outbox ≤ maxDiskBytes
      else
        EndsWithin rowLength (Outbox.pruneTarget maxDiskBytes) rowBytes maxDiskBytes
            (pendingRows outbox (Outbox.pruneTarget maxDiskBytes) createdAt events) ∧
          (limit ≠ Outbox.pruneTarget maxDiskBytes →
            EndsWithin rowBytes limit rowLength (Outbox.pruneTarget maxDiskBytes)
              (pendingRows outbox (Outbox.pruneTarget maxDiskBytes) createdAt events) ∧
            EndsWithin rowBytes limit rowLength (Outbox.pruneTarget maxDiskBytes) outbox.unsent) := by
  split
  · rename_i hNone
    have hUnchanged : (outbox.enqueueBatch maxDiskBytes createdAt events).1 = outbox := by
      rw [Outbox.enqueueBatch, if_pos hNone]
    constructor
    · intro h
      exact hUnchanged ▸ h.bounded
    · intro hBounded
      exact ⟨hUnchanged.symm ▸ hBounded, fun hSome => absurd hNone hSome⟩
  · rename_i hSome
    rw [keepsDiskLimit_of_some limit hLimited outbox createdAt hSome]
    refine and_congr_right fun _ => ⟨fun hFewest _ => hFewest, fun hFewest => ?_⟩
    by_cases hTarget : limit = Outbox.pruneTarget maxDiskBytes
    · subst hTarget
      exact ⟨endsWithin_target _ _, endsWithin_target _ _⟩
    · exact hFewest hTarget

def noRows : Outbox := ⟨[], 0, List.nodup_nil, fun _ hRow => absurd hRow List.not_mem_nil⟩

theorem short_event_kept : 0 < 6 ∧ KeepsDiskLimit 6 6 noRows 5 [⟨literal "change", literal "a", literal "eee", 1⟩] :=
  ⟨by decide, (keepsDiskLimit_iff 6 6 (by decide) noRows 5 [⟨literal "change", literal "a", literal "eee", 1⟩]).mpr
    (by decide)⟩

/-- Three letters of two bytes each: four characters are within the limit of six, seven bytes are not. -/
theorem accented_event_exceeds :
    unsentBytes (noRows.enqueueBatch 6 5
        [⟨literal "change", literal "a", [0xC3, 0xA9, 0xC3, 0xA9, 0xC3, 0xA9], 1⟩]).1 = 7 ∧
      ¬ KeepsDiskLimit 6 6 noRows 5 [⟨literal "change", literal "a", [0xC3, 0xA9, 0xC3, 0xA9, 0xC3, 0xA9], 1⟩] :=
  ⟨by decide, fun h => absurd h.bounded (by decide)⟩

end EdgeGateway.MqttDriver.EventOutbox
