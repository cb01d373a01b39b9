import EdgeGateway.Foundation.Picking
import EdgeGateway.PointStore.PendingConservation

/-! # Write results and the commands they answer -/

namespace EdgeGateway.PointStore

open Picking

def kMaxWritebackResultSlots : Nat := 4096
def kWritebackMessageSize : Nat := 128
def kWritebackStageSize : Nat := 32

structure SharedWritebackResultSlot where
  sequence : UInt64 := 0
  index : UInt32 := 0
  value : RawDouble := 0
  requestedAt : Int := 0
  acceptedAt : Int := 0
  startedAt : Int := 0
  completedAt : Int := 0
  queueDelayMs : Int := 0
  deviceWriteMs : Int := 0
  edgeElapsedMs : Int := 0
  totalElapsedMs : Int := 0
  cmdId : List Char := List.replicate kCmdIdSize '\x00'
  message : List Char := List.replicate kWritebackMessageSize '\x00'
  stage : List Char := List.replicate kWritebackStageSize '\x00'
  success : Bool := false
  verifyAttempted : Bool := false
  verifyPassed : Bool := false
  occupied : Bool := false
deriving DecidableEq

/-- The part of the segment that holds the write results. -/
structure WritebackResults where
  sequence : UInt64
  ring : Ring SharedWritebackResultSlot kMaxWritebackResultSlots

def WritebackResults.initial : WritebackResults where
  sequence := 0
  ring := Ring.cleared {} ⟨0, by decide⟩

def resultSlot (sequence : UInt64) (result : WritebackResultRecord) : SharedWritebackResultSlot where
  sequence := sequence
  index := result.index
  value := result.value
  requestedAt := result.requestedAt
  acceptedAt := result.acceptedAt
  startedAt := result.startedAt
  completedAt := result.completedAt
  queueDelayMs := result.queueDelayMs
  deviceWriteMs := result.deviceWriteMs
  edgeElapsedMs := result.edgeElapsedMs
  totalElapsedMs := result.totalElapsedMs
  cmdId := copyString kCmdIdSize result.cmdId
  message := copyString kWritebackMessageSize result.message
  stage := copyString kWritebackStageSize result.stage
  success := result.success
  verifyAttempted := result.verifyAttempted
  verifyPassed := result.verifyPassed
  occupied := true

-- `highPriority` has no field in the slot and keeps its default.
def SharedWritebackResultSlot.toResult (slot : SharedWritebackResultSlot) : WritebackResultRecord where
  cmdId := readString slot.cmdId kCmdIdSize
  index := slot.index
  value := slot.value
  success := slot.success
  message := readString slot.message kWritebackMessageSize
  stage := readString slot.stage kWritebackStageSize
  requestedAt := slot.requestedAt
  acceptedAt := slot.acceptedAt
  startedAt := slot.startedAt
  completedAt := slot.completedAt
  queueDelayMs := slot.queueDelayMs
  deviceWriteMs := slot.deviceWriteMs
  edgeElapsedMs := slot.edgeElapsedMs
  totalElapsedMs := slot.totalElapsedMs
  verifyAttempted := slot.verifyAttempted
  verifyPassed := slot.verifyPassed

def pushWritebackResult (results : WritebackResults) (result : WritebackResultRecord) : WritebackResults where
  sequence := results.sequence + 1
  ring := results.ring.pushOver (resultSlot (results.sequence + 1) result)

def findWritebackResult (results : WritebackResults) (cmdId : StdString) : Option WritebackResultRecord :=
  if cmdId = [] then none
  else
    results.ring.contents.foldl (fun found slot =>
      if slot.occupied && readString slot.cmdId kCmdIdSize = cmdId then some slot.toResult else found) none

def recordWritebackResult (results : WritebackResults) (result : WritebackResultRecord) : WritebackResults :=
  if result.cmdId = [] then results else pushWritebackResult results result

def getWritebackResult (results : WritebackResults) (cmdId : StdString) : Option WritebackResultRecord :=
  if cmdId = [] then none else findWritebackResult results cmdId

def FitsField (size : Nat) (text : StdString) : Prop := text.length < size ∧ '\x00' ∉ text

structure FitsSlot (result : WritebackResultRecord) : Prop where
  cmdId : FitsField kCmdIdSize result.cmdId
  message : FitsField kWritebackMessageSize result.message
  stage : FitsField kWritebackStageSize result.stage
  highPriority : result.highPriority = false

def storedResult (result : WritebackResultRecord) : WritebackResultRecord :=
  { result with
    cmdId := readString (copyString kCmdIdSize result.cmdId) kCmdIdSize
    message := readString (copyString kWritebackMessageSize result.message) kWritebackMessageSize
    stage := readString (copyString kWritebackStageSize result.stage) kWritebackStageSize
    highPriority := false }

theorem fitsField_readString {size : Nat} (hSize : 0 < size) (text : StdString) :
    FitsField size (readString (copyString size text) size) := by
  rw [readString_copyString]
  constructor
  · have hCut := (List.takeWhile_prefix (l := text.take (size - 1)) (· ≠ '\x00')).length_le
    rw [List.length_take] at hCut
    omega
  · intro hNul
    have hText := List.mem_takeWhile_imp hNul
    exact absurd rfl (of_decide_eq_true hText)

theorem FitsField.readString {size : Nat} {text : StdString} (h : FitsField size text) :
    readString (copyString size text) size = text := readString_copyString_of_fits h.1 h.2

theorem storedResult_of_fits {result : WritebackResultRecord} (h : FitsSlot result) : storedResult result = result := by
  rw [storedResult, h.cmdId.readString, h.message.readString, h.stage.readString, ← h.highPriority]

theorem fits_storedResult (result : WritebackResultRecord) : FitsSlot (storedResult result) where
  cmdId := fitsField_readString (by decide) _
  message := fitsField_readString (by decide) _
  stage := fitsField_readString (by decide) _
  highPriority := rfl

/-- The ring holds the last 4095 recorded results, each cut to its slot. -/
structure WritebackResults.Holds (results : WritebackResults) (recorded : List WritebackResultRecord) : Prop where
  occupied : ∀ slot ∈ results.ring.contents, slot.occupied = true
  last : results.ring.contents.map SharedWritebackResultSlot.toResult =
    (recorded.map storedResult).drop ((recorded.map storedResult).length - (kMaxWritebackResultSlots - 1))

section Results

variable {results : WritebackResults} {recorded : List WritebackResultRecord} {cmdId : StdString}

theorem WritebackResults.holds_initial : WritebackResults.initial.Holds [] := by
  have hEmpty : WritebackResults.initial.ring.contents = [] := Ring.contents_cleared _ _
  constructor
  · rw [hEmpty]
    exact List.forall_mem_nil _
  · rw [hEmpty]
    rfl

theorem WritebackResults.Holds.push (h : results.Holds recorded) (result : WritebackResultRecord) :
    (pushWritebackResult results result).Holds (recorded ++ [result]) := by
  constructor
  · intro slot hSlot
    rw [pushWritebackResult] at hSlot
    dsimp only at hSlot
    rw [Ring.contents_pushOver _ _ (by decide)] at hSlot
    obtain hOld | hNew := List.mem_append.mp (List.mem_of_mem_drop hSlot)
    · exact h.occupied slot hOld
    · rw [List.mem_singleton.mp hNew]
      rfl
  · rw [List.map_append]
    exact Ring.contents_pushOver_last (resultSlot (results.sequence + 1) result) (by decide) h.last

theorem foldl_toResult (p : SharedWritebackResultSlot → Bool) (slots : List SharedWritebackResultSlot) :
    slots.foldl (fun found slot => if p slot then some slot.toResult else found) none =
      (lastMatch p slots).map SharedWritebackResultSlot.toResult := by
  induction slots using List.reverseRecOn with
  | nil => rfl
  | append_singleton slots slot ih =>
    rw [List.foldl_append, ih, lastMatch_concat, List.foldl_cons, List.foldl_nil]
    split <;> rfl

theorem WritebackResults.Holds.find (h : results.Holds recorded) (hId : cmdId ≠ []) :
    getWritebackResult results cmdId = lastMatch (fun result => decide (result.cmdId = cmdId))
      ((recorded.map storedResult).drop ((recorded.map storedResult).length - (kMaxWritebackResultSlots - 1))) := by
  rw [getWritebackResult, if_neg hId, findWritebackResult, if_neg hId, foldl_toResult, ← h.last, lastMatch_map]
  congr 1
  apply lastMatch_congr
  intro slot hSlot
  rw [h.occupied slot hSlot, Bool.true_and]
  rfl

theorem WritebackResults.Holds.fits (h : results.Holds recorded) {result : WritebackResultRecord}
    (hFound : getWritebackResult results cmdId = some result) : FitsSlot result := by
  obtain rfl | hId := eq_or_ne cmdId []
  · rw [getWritebackResult, if_pos rfl] at hFound
    cases hFound
  · rw [h.find hId] at hFound
    obtain ⟨original, -, rfl⟩ := List.mem_map.mp (List.mem_of_mem_drop (lastMatch_mem hFound).1)
    exact fits_storedResult original

/-- The lookup finds the last result recorded for an id while it is among the last 4095, and no other. -/
def WritebackResults.ReadsBack (results : WritebackResults) (recorded : List WritebackResultRecord) : Prop :=
  ∀ cmdId, cmdId ≠ [] →
    (∀ older result newer, recorded = older ++ result :: newer → result.cmdId = cmdId →
      (∀ later ∈ newer, later.cmdId ≠ cmdId) → newer.length < 4095 →
        getWritebackResult results cmdId = some result) ∧
    ((∀ result ∈ recorded, result.cmdId ≠ cmdId) → getWritebackResult results cmdId = none)

theorem WritebackResults.Holds.readsBack (h : results.Holds recorded) (hFits : ∀ result ∈ recorded, FitsSlot result) :
    results.ReadsBack recorded := by
  have hSame : recorded.map storedResult = recorded :=
    (List.map_congr_left fun result hResult => storedResult_of_fits (hFits result hResult)).trans (List.map_id _)
  intro cmdId hId
  have hFind := h.find hId
  rw [hSame] at hFind
  constructor
  · rintro older result newer rfl rfl hNewer hRecent
    have hBound : newer.length < kMaxWritebackResultSlots - 1 := by
      rw [kMaxWritebackResultSlots]
      exact hRecent
    have hMiss : ∀ later ∈ newer, ¬decide (later.cmdId = result.cmdId) = true := by
      intro later hLater hSome
      exact hNewer later hLater (of_decide_eq_true hSome)
    exact hFind.trans (@lastMatch_recent _ (fun later : WritebackResultRecord => decide (later.cmdId = result.cmdId))
      older newer result (decide_eq_true rfl) hMiss (kMaxWritebackResultSlots - 1) hBound)
  · intro hNone
    rw [hFind, Option.eq_none_iff_forall_ne_some]
    intro result hFound
    obtain ⟨hMem, hSome⟩ := lastMatch_mem hFound
    exact hNone result (List.mem_of_mem_drop hMem) (of_decide_eq_true hSome)

end Results

end EdgeGateway.PointStore
