import EdgeGateway.Foundation.Fallible
import EdgeGateway.GraphEms.VoltageAccounting

/-! # The vectors of a voltage node -/

namespace EdgeGateway.GraphEms

open EdgeGateway.Fallible

section Accesses

inductive VoltageVector where
  | sums
  | counts
  | lastAverages
  | lastInputTimestamps
deriving DecidableEq, Repr

structure VoltageAccess where
  vector : VoltageVector
  index : Nat
deriving DecidableEq, Repr

variable {α : Type} (vector : VoltageVector)

def readAt (values : List α) (index : Nat) : Except VoltageAccess α :=
  match values[index]? with
  | some value => .ok value
  | none => .error ⟨vector, index⟩

def writeAt (values : List α) (index : Nat) (value : α) : Except VoltageAccess (List α) :=
  if index < values.length then .ok (values.set index value) else .error ⟨vector, index⟩

theorem readAt_middle {before : List α} {index : Nat} (hIndex : before.length = index) (value : α) (behind : List α) :
    readAt vector (before ++ value :: behind) index = .ok value := by
  rw [readAt, ← hIndex, List.getElem?_append_right le_rfl, Nat.sub_self]
  rfl

theorem writeAt_middle {before : List α} {index : Nat} (hIndex : before.length = index) (old : α) (behind : List α)
    (value : α) : writeAt vector (before ++ old :: behind) index value = .ok (before ++ value :: behind) := by
  rw [writeAt, if_pos (by simp [← hIndex]), ← hIndex, List.set_append_right _ _ le_rfl, Nat.sub_self]
  rfl

end Accesses

section Checked

variable {K : Type} [Field K] [LinearOrder K]

def VoltageQualityState.take (state : VoltageQualityState K) (index : Nat) (sample : VoltageSample K) :
    Except VoltageAccess (VoltageQualityState K) := do
  let stamp ← readAt .lastInputTimestamps state.lastInputTimestamps index
  if sample.ts = stamp then return state
  let sum ← readAt .sums state.sums index
  let sums ← writeAt .sums state.sums index (sum + sample.value)
  let count ← readAt .counts state.counts index
  let counts ← writeAt .counts state.counts index (count + 1)
  let lastInputTimestamps ← writeAt .lastInputTimestamps state.lastInputTimestamps index sample.ts
  return { state with sums, counts, lastInputTimestamps }

/-- The loop over the inputs; the timestamps are looked at for a good point only. -/
def sampleFrom (run : VoltageRun K) : Nat → List (VoltageInput K) → VoltageQualityState K →
    Except VoltageAccess (VoltageQualityState K)
  | _, [], state => .ok state
  | index, input :: rest, state =>
    match goodSample state.currentMinuteKey input.inputIndex run with
    | none => sampleFrom run (index + 1) rest state
    | some sample => (state.take index sample).bind (sampleFrom run (index + 1) rest)

def averageFrom : Nat → List (VoltageInput K) → Bool → VoltageQualityState K →
    Except VoltageAccess (Bool × VoltageQualityState K)
  | _, [], qualified, state => .ok (qualified, state)
  | index, input :: rest, qualified, state => do
    let sum ← readAt .sums state.sums index
    let count ← readAt .counts state.counts index
    let average := sum / (count : K)
    let lastAverages ← writeAt .lastAverages state.lastAverages index average
    averageFrom (index + 1) rest
      (qualified && !(decide (average < input.limits.1) || decide (input.limits.2 < average)))
      { state with lastAverages }

def averagesFrom (lastAverages : List K) : Nat → List (VoltageInput K) → Except VoltageAccess (List K)
  | _, [] => .ok []
  | index, _ :: rest => do
    let average ← readAt .lastAverages lastAverages index
    let averages ← averagesFrom lastAverages (index + 1) rest
    return average :: averages

variable [FloorRing K]

namespace VoltageQualityState

variable (state : VoltageQualityState K) (node : VoltageNode K)

def checkedStatus : Except VoltageAccess (MinuteStatus × VoltageQualityState K) :=
  if state.counts.all (fun count => decide (node.requiredSamples ≤ count)) then
    (averageFrom 0 node.inputs true state).map fun result =>
      (if result.1 then .qualified else .overlimit, result.2)
  else .ok (.invalid, state)

def checkedMinute (dayKey : Int → Int) (completedMinuteKey : Int) : Except VoltageAccess (VoltageQualityState K) := do
  let (status, averaged) ← state.checkedStatus node
  let counted : VoltageQualityState K :=
    { averaged with lastMinuteStatus := status, lastMinuteCoverage := state.coverage }
  return counted.updateDay (dayKey completedMinuteKey) status

def checkedMissing (dayKey : Int → Int) : Nat → Int → VoltageQualityState K →
    Except VoltageAccess (VoltageQualityState K)
  | 0, _, state => .ok state
  | n + 1, missing, state =>
    ((state.resetMinute node).checkedMinute node dayKey missing).bind (checkedMissing dayKey n (missing + 1))

def checkedMinutes (dayKey : Int → Int) (minuteKey : Int) : Except VoltageAccess (VoltageQualityState K) :=
  if state.currentMinuteKey < minuteKey then do
    let closed ← state.checkedMinute node dayKey state.currentMinuteKey
    let caughtUp ← checkedMissing node dayKey (minuteKey - state.currentMinuteKey - 1).toNat
      (state.currentMinuteKey + 1) closed
    return ({ caughtUp with currentMinuteKey := minuteKey }).resetMinute node
  else return state

def checkedOutputs : Except VoltageAccess (List (VoltageOutput K)) :=
  if state.lastMinuteStatus = .qualified ∨ state.lastMinuteStatus = .overlimit then do
    let lastAverages ← averagesFrom state.lastAverages 0 node.inputs
    return voltageOutputs node { state with lastAverages }
  else return voltageOutputs node state

def checkedInputs (run : VoltageRun K) : Except VoltageAccess (VoltageQualityState K) :=
  if state.lastSampleAt = 0 ∨ run.nowMs < state.lastSampleAt ∨ sampleIntervalMs ≤ run.nowMs - state.lastSampleAt then do
    let sampled ← sampleFrom run 0 node.inputs state
    return { sampled with lastSampleAt := run.nowMs }
  else return state

end VoltageQualityState

def checkedVoltageQualification (node : VoltageNode K) (localTimeFromEpochMs : Int → LocalDate)
    (state : VoltageQualityState K) (run : VoltageRun K) :
    Except VoltageAccess (Except String (List (VoltageOutput K)) × VoltageQualityState K) := do
  let minuteKey := minuteKeyOf run.nowMs
  let dayKey := voltageQualityDayKey localTimeFromEpochMs
  let current := state.atMinute node minuteKey
  let closed ← current.checkedMinutes node dayKey minuteKey
  let counted := closed.beginDay (dayKey minuteKey)
  let outputs ← if current.currentMinuteKey < minuteKey then counted.checkedOutputs node else pure []
  match outputs.findSome? fun output => (run.rejection output.index).map fun message => (output.field, message) with
  | some (field, message) =>
    return (.error ("voltageQualification " ++ field ++ " output rejected: " ++ message), counted)
  | none =>
    let sampled ← counted.checkedInputs node run
    return (.ok outputs, sampled)

end Checked

section InRange

variable {K : Type} [Field K] [LinearOrder K] {state : VoltageQualityState K} {index : Nat}

omit [LinearOrder K] in
theorem take_middle {sums₀ sums : List K} {counts₀ counts : List Nat} {stamps₀ stamps : List Int}
    {bucket : VoltageBucket K} (hSums : state.sums = sums₀ ++ bucket.sum :: sums)
    (hCounts : state.counts = counts₀ ++ bucket.count :: counts)
    (hStamps : state.lastInputTimestamps = stamps₀ ++ bucket.lastInputTimestamp :: stamps) (hSumsLength : sums₀.length = index)
    (hCountsLength : counts₀.length = index) (hStampsLength : stamps₀.length = index) (sample : VoltageSample K) :
    let taken := if sample.ts ≠ bucket.lastInputTimestamp then
      ⟨bucket.sum + sample.value, bucket.count + 1, sample.ts⟩ else bucket
    state.take index sample = .ok { state with
      sums := sums₀ ++ taken.sum :: sums
      counts := counts₀ ++ taken.count :: counts
      lastInputTimestamps := stamps₀ ++ taken.lastInputTimestamp :: stamps } := by
  intro taken
  rw [VoltageQualityState.take, hStamps, readAt_middle _ hStampsLength]
  dsimp only [bind, Except.bind]
  by_cases hNew : sample.ts = bucket.lastInputTimestamp
  · have hTaken : taken = bucket := if_neg (not_not.mpr hNew)
    rw [if_pos hNew, hTaken, ← hSums, ← hCounts, ← hStamps]
    rfl
  · have hTaken : taken = ⟨bucket.sum + sample.value, bucket.count + 1, sample.ts⟩ := if_pos hNew
    rw [if_neg hNew, hTaken, hSums, hCounts, readAt_middle _ hSumsLength]
    dsimp only
    rw [writeAt_middle _ hSumsLength, readAt_middle _ hCountsLength]
    dsimp only
    rw [writeAt_middle _ hCountsLength, writeAt_middle _ hStampsLength]
    rfl

theorem exists_cons_of_length {α : Type} {values : List α} {n : Nat} (h : values.length = n + 1) :
    ∃ value rest, values = value :: rest ∧ rest.length = n := by
  cases values with
  | nil => cases h
  | cons value rest => exact ⟨value, rest, rfl, Nat.succ.inj h⟩

/-- The loop over the inputs goes through when each of them has its place in the vectors. -/
theorem sampleFrom_middle {run : VoltageRun K} {inputs : List (VoltageInput K)} {buckets₀ buckets : List (VoltageBucket K)}
    (hSums : state.sums = (buckets₀ ++ buckets).map VoltageBucket.sum)
    (hCounts : state.counts = (buckets₀ ++ buckets).map VoltageBucket.count)
    (hStamps : state.lastInputTimestamps = (buckets₀ ++ buckets).map VoltageBucket.lastInputTimestamp)
    (hBefore : buckets₀.length = index) (hLength : buckets.length = inputs.length) :
    sampleFrom run index inputs state = .ok (state.setBuckets (buckets₀ ++ List.zipWith
      (fun (input : VoltageInput K) (bucket : VoltageBucket K) =>
        bucket.sample state.currentMinuteKey (run.latestPoint input.inputIndex)) inputs buckets)) := by
  induction inputs generalizing index state buckets₀ buckets with
  | nil =>
    obtain rfl := List.length_eq_zero_iff.mp hLength
    rw [sampleFrom, List.zipWith_nil_left, VoltageQualityState.setBuckets, ← hSums, ← hCounts, ← hStamps]
  | cons input rest ih =>
    obtain ⟨bucket, behind, rfl, hBehind⟩ := exists_cons_of_length hLength
    rw [sampleFrom, List.zipWith_cons_cons, sample_eq]
    cases hGood : goodSample state.currentMinuteKey input.inputIndex run with
    | none =>
      dsimp only
      rw [List.append_cons] at hSums hCounts hStamps
      have hNext : (buckets₀ ++ [bucket]).length = index + 1 := by rw [List.length_append, hBefore]; rfl
      rw [ih hSums hCounts hStamps hNext hBehind, List.append_assoc]
      rfl
    | some sample =>
      dsimp only
      rw [List.map_append, List.map_cons] at hSums hCounts hStamps
      have hMapped : ∀ {β : Type} (f : VoltageBucket K → β), (buckets₀.map f).length = index := by
        intro β f
        rw [List.length_map, hBefore]
      rw [take_middle hSums hCounts hStamps (hMapped _) (hMapped _) (hMapped _)]
      generalize (if sample.ts ≠ bucket.lastInputTimestamp then
        (⟨bucket.sum + sample.value, bucket.count + 1, sample.ts⟩ : VoltageBucket K) else bucket) = taken
      have hNext : (buckets₀ ++ [taken]).length = index + 1 := by rw [List.length_append, hBefore]; rfl
      dsimp only [Except.bind]
      rw [ih (by simp) (by simp) (by simp) hNext hBehind, List.append_assoc]
      rfl

theorem averageFrom_middle {inputs : List (VoltageInput K)} {sums₀ sums averages₀ averages : List K}
    {counts₀ counts : List Nat} (hSums : state.sums = sums₀ ++ sums) (hCounts : state.counts = counts₀ ++ counts)
    (hAverages : state.lastAverages = averages₀ ++ averages) (hSumsBefore : sums₀.length = index)
    (hCountsBefore : counts₀.length = index) (hAveragesBefore : averages₀.length = index)
    (hSumsLength : sums.length = inputs.length) (hCountsLength : counts.length = inputs.length)
    (hAveragesLength : averages.length = inputs.length) (qualified : Bool) :
    averageFrom index inputs qualified state = .ok (qualified && (List.zipWith (fun (input : VoltageInput K) average =>
        !(decide (average < input.limits.1) || decide (input.limits.2 < average))) inputs
        (List.zipWith (fun sum (count : Nat) => sum / (count : K)) sums counts)).all id,
      { state with
        lastAverages := averages₀ ++ List.zipWith (fun sum (count : Nat) => sum / (count : K)) sums counts }) := by
  induction inputs generalizing index state sums₀ sums averages₀ averages counts₀ counts qualified with
  | nil =>
    obtain rfl := List.length_eq_zero_iff.mp hSumsLength
    obtain rfl := List.length_eq_zero_iff.mp hAveragesLength
    rw [averageFrom, List.zipWith_nil_left, List.zipWith_nil_left, List.all_nil, Bool.and_true, ← hAverages]
  | cons input rest ih =>
    obtain ⟨sum, sumsBehind, rfl, hSumsBehind⟩ := exists_cons_of_length hSumsLength
    obtain ⟨count, countsBehind, rfl, hCountsBehind⟩ := exists_cons_of_length hCountsLength
    obtain ⟨old, averagesBehind, rfl, hAveragesBehind⟩ := exists_cons_of_length hAveragesLength
    have hSum : readAt .sums state.sums index = .ok sum := by rw [hSums, readAt_middle _ hSumsBefore]
    have hCount : readAt .counts state.counts index = .ok count := by rw [hCounts, readAt_middle _ hCountsBefore]
    have hWrite : writeAt .lastAverages state.lastAverages index (sum / (count : K)) =
        .ok (averages₀ ++ sum / (count : K) :: averagesBehind) := by rw [hAverages, writeAt_middle _ hAveragesBefore]
    have hNext : ∀ {β : Type} (before : List β) (value : β), before.length = index → (before ++ [value]).length = index + 1 := by
      intro β before value hBefore
      rw [List.length_append, hBefore]
      rfl
    rw [averageFrom, hSum, hCount]
    dsimp only [bind, Except.bind]
    rw [hWrite]
    dsimp only
    obtain ⟨next, hState⟩ : ∃ next : VoltageQualityState K,
      { state with lastAverages := averages₀ ++ sum / (count : K) :: averagesBehind } = next := ⟨_, rfl⟩
    have hSumsNext : next.sums = sums₀ ++ [sum] ++ sumsBehind := by
      rw [← hState, ← List.append_cons]
      exact hSums
    have hCountsNext : next.counts = counts₀ ++ [count] ++ countsBehind := by
      rw [← hState, ← List.append_cons]
      exact hCounts
    have hAveragesNext : next.lastAverages = averages₀ ++ [sum / (count : K)] ++ averagesBehind := by
      rw [← hState, ← List.append_cons]
    rw [hState, ih hSumsNext hCountsNext hAveragesNext (hNext _ _ hSumsBefore) (hNext _ _ hCountsBefore)
      (hNext _ _ hAveragesBefore) hSumsBehind hCountsBehind hAveragesBehind, ← hState, List.append_assoc, Bool.and_assoc]
    rfl

theorem averagesFrom_middle {inputs : List (VoltageInput K)} {lastAverages before averages : List K}
    (hAverages : lastAverages = before ++ averages) (hBefore : before.length = index)
    (hLength : averages.length = inputs.length) : averagesFrom lastAverages index inputs = .ok averages := by
  induction inputs generalizing index before averages with
  | nil =>
    obtain rfl := List.length_eq_zero_iff.mp hLength
    rfl
  | cons input rest ih =>
    obtain ⟨average, behind, rfl, hBehind⟩ := exists_cons_of_length hLength
    have hRead : readAt .lastAverages lastAverages index = .ok average := by rw [hAverages, readAt_middle _ hBefore]
    rw [List.append_cons] at hAverages
    rw [averagesFrom, hRead]
    dsimp only [bind, Except.bind]
    rw [ih hAverages (by rw [List.length_append, hBefore]; rfl) hBehind]
    rfl

end InRange

section Shapes

variable {K : Type} [Field K]

structure VoltageQualityState.Shaped (state : VoltageQualityState K) (inputCount : Nat) : Prop where
  sums : state.sums.length = inputCount
  counts : state.counts.length = inputCount
  lastAverages : state.lastAverages.length = inputCount

variable [LinearOrder K] [FloorRing K] {node : VoltageNode K} {state : VoltageQualityState K}

omit [FloorRing K] in
theorem Shaped.resetMinute (h : state.lastAverages.length = node.inputs.length) :
    (state.resetMinute node).Shaped node.inputs.length :=
  ⟨List.length_replicate, List.length_replicate, h⟩

theorem checkedStatus_eq (h : state.Shaped node.inputs.length) : state.checkedStatus node =
    .ok (state.minuteStatus node, { state with
      lastAverages := if state.minuteStatus node = .invalid then state.lastAverages else state.averages }) := by
  rw [VoltageQualityState.checkedStatus, VoltageQualityState.minuteStatus]
  split
  · have hAverages : averageFrom 0 node.inputs true state = _ :=
      averageFrom_middle (List.nil_append state.sums).symm (List.nil_append state.counts).symm
        (List.nil_append state.lastAverages).symm rfl rfl rfl h.sums h.counts h.lastAverages true
    have hValid : ¬(if VoltageQualityState.isQualified node state.averages = true then MinuteStatus.qualified
        else MinuteStatus.overlimit) = .invalid := by
      split <;> decide
    rw [hAverages, if_neg hValid]
    dsimp only [Except.map]
    rw [Bool.true_and, List.nil_append]
    rfl
  · rw [if_pos rfl]

theorem checkedMinute_eq (h : state.Shaped node.inputs.length) (dayKey : Int → Int) (minuteKey : Int) :
    state.checkedMinute node dayKey minuteKey = .ok (state.accountCompletedMinute node dayKey minuteKey) := by
  rw [VoltageQualityState.checkedMinute, checkedStatus_eq h]
  rfl

omit [LinearOrder K] [FloorRing K] in
theorem updateDay_vectors (state : VoltageQualityState K) (key : Int) (status : MinuteStatus) :
    (state.updateDay key status).sums = state.sums ∧ (state.updateDay key status).counts = state.counts ∧
      (state.updateDay key status).lastAverages = state.lastAverages := by
  rw [VoltageQualityState.updateDay, VoltageQualityState.finalizeDay]
  split
  · split <;> exact ⟨rfl, rfl, rfl⟩
  · exact ⟨rfl, rfl, rfl⟩

theorem Shaped.accountCompletedMinute (h : state.Shaped node.inputs.length) (dayKey : Int → Int) (minuteKey : Int) :
    (state.accountCompletedMinute node dayKey minuteKey).Shaped node.inputs.length := by
  rw [VoltageQualityState.accountCompletedMinute]
  generalize hCounted : ({ state with
    lastAverages := if state.minuteStatus node = .invalid then state.lastAverages else state.averages
    lastMinuteStatus := state.minuteStatus node
    lastMinuteCoverage := state.coverage } : VoltageQualityState K) = counted
  obtain ⟨hSums, hCounts, hAverages⟩ := updateDay_vectors counted (dayKey minuteKey) (state.minuteStatus node)
  refine ⟨?_, ?_, ?_⟩
  · rw [hSums, ← hCounted]
    exact h.sums
  · rw [hCounts, ← hCounted]
    exact h.counts
  · rw [hAverages, ← hCounted]
    dsimp only
    split
    · exact h.lastAverages
    · rw [VoltageQualityState.averages, List.length_zipWith, h.sums, h.counts, Nat.min_self]

theorem checkedMissing_eq (dayKey : Int → Int) (n : Nat) (missing : Int) (h : state.Shaped node.inputs.length) :
    VoltageQualityState.checkedMissing node dayKey n missing state =
        .ok (VoltageQualityState.accountMissing node dayKey n missing state) ∧
      (VoltageQualityState.accountMissing node dayKey n missing state).Shaped node.inputs.length := by
  induction n generalizing missing state with
  | zero => exact ⟨rfl, h⟩
  | succ n ih =>
    have hReset : (state.resetMinute node).Shaped node.inputs.length := Shaped.resetMinute h.lastAverages
    rw [VoltageQualityState.checkedMissing, VoltageQualityState.accountMissing, checkedMinute_eq hReset]
    exact ih (missing + 1) (Shaped.accountCompletedMinute hReset dayKey missing)

theorem checkedMinutes_eq (h : state.Shaped node.inputs.length) (dayKey : Int → Int) (minuteKey : Int) :
    state.checkedMinutes node dayKey minuteKey = .ok (state.closeMinutes node dayKey minuteKey) ∧
      (state.closeMinutes node dayKey minuteKey).Shaped node.inputs.length := by
  rw [VoltageQualityState.checkedMinutes, VoltageQualityState.closeMinutes]
  split
  · rw [checkedMinute_eq h]
    dsimp only [bind, Except.bind]
    obtain ⟨hMissing, hShaped⟩ := checkedMissing_eq dayKey (minuteKey - state.currentMinuteKey - 1).toNat
      (state.currentMinuteKey + 1) (Shaped.accountCompletedMinute h dayKey state.currentMinuteKey)
    rw [hMissing]
    exact ⟨rfl, Shaped.resetMinute hShaped.lastAverages⟩
  · exact ⟨rfl, h⟩

omit [FloorRing K] in
theorem checkedOutputs_eq (h : state.lastAverages.length = node.inputs.length) :
    state.checkedOutputs node = .ok (voltageOutputs node state) := by
  have hRead : averagesFrom state.lastAverages 0 node.inputs = .ok state.lastAverages :=
    averagesFrom_middle (List.nil_append _).symm rfl h
  rw [VoltageQualityState.checkedOutputs, hRead]
  split <;> rfl

omit [LinearOrder K] [FloorRing K] in
theorem buckets_vectors {inputCount : Nat} (h : state.Shaped inputCount) (hStamps : state.lastInputTimestamps.length = inputCount) :
    state.sums = state.buckets.map VoltageBucket.sum ∧ state.counts = state.buckets.map VoltageBucket.count ∧
      state.lastInputTimestamps = state.buckets.map VoltageBucket.lastInputTimestamp ∧ state.buckets.length = inputCount := by
  obtain ⟨hSums, hCounts, -⟩ := h
  rw [VoltageQualityState.buckets]
  generalize state.sums = sums at *
  generalize state.counts = counts at *
  generalize state.lastInputTimestamps = stamps at *
  induction sums generalizing counts stamps inputCount with
  | nil =>
    obtain rfl := hSums
    obtain rfl := List.length_eq_zero_iff.mp hCounts
    obtain rfl := List.length_eq_zero_iff.mp hStamps
    exact ⟨rfl, rfl, rfl, rfl⟩
  | cons sum sums ih =>
    obtain rfl := hSums
    obtain ⟨count, countsBehind, rfl, hCountsBehind⟩ := exists_cons_of_length hCounts
    obtain ⟨stamp, stampsBehind, rfl, hStampsBehind⟩ := exists_cons_of_length hStamps
    obtain ⟨hSumsEq, hCountsEq, hStampsEq, hLength⟩ := ih rfl countsBehind hCountsBehind stampsBehind hStampsBehind
    rw [List.zip_cons_cons, List.zipWith_cons_cons, List.map_cons, List.map_cons, List.map_cons, ← hSumsEq, ← hCountsEq,
      ← hStampsEq, List.length_cons, hLength]
    exact ⟨rfl, rfl, rfl, rfl⟩

omit [FloorRing K] in
theorem checkedInputs_eq (h : state.Shaped node.inputs.length)
    (hStamps : state.lastInputTimestamps.length = node.inputs.length) (run : VoltageRun K) :
    state.checkedInputs node run = .ok (state.sampleInputs node run) := by
  rw [VoltageQualityState.checkedInputs, VoltageQualityState.sampleInputs]
  split
  · obtain ⟨hSums, hCounts, hStampsEq, hLength⟩ := buckets_vectors h hStamps
    have hSampled : sampleFrom run 0 node.inputs state = _ :=
      sampleFrom_middle (by rw [List.nil_append, hSums]) (by rw [List.nil_append, hCounts])
        (by rw [List.nil_append, hStampsEq]) rfl hLength
    rw [hSampled]
    rfl
  · rfl

end Shapes

section Calls

variable {K : Type} [Field K] [LinearOrder K] {node : VoltageNode K} {state : VoltageQualityState K} {run : VoltageRun K}

theorem length_ifResized {α : Type} (values : List α) (inputCount : Nat) (value : α) :
    (if values.length ≠ inputCount then List.replicate inputCount value else values).length = inputCount := by
  split
  · exact List.length_replicate
  · rename_i hSize
    exact not_not.mp hSize

theorem resized_shaped (node : VoltageNode K) (state : VoltageQualityState K) :
    (state.resized node).Shaped node.inputs.length ∧
      (state.resized node).lastInputTimestamps.length = node.inputs.length := by
  rw [VoltageQualityState.resized]
  refine ⟨⟨?_, ?_, length_ifResized _ _ _⟩, length_ifResized _ _ _⟩
  · dsimp only
    split
    · exact List.length_replicate
    · rename_i hSizes
      exact not_not.mp (not_or.mp hSizes).1
  · dsimp only
    split
    · exact List.length_replicate
    · rename_i hSizes
      exact not_not.mp (not_or.mp hSizes).2

def VoltageQualityState.LongGap (state : VoltageQualityState K) (run : VoltageRun K) : Prop :=
  0 ≤ state.currentMinuteKey ∧ 600000 < minuteKeyOf run.nowMs - state.currentMinuteKey

def VoltageRun.Offers (run : VoltageRun K) (node : VoltageNode K) : Prop :=
  ∃ input ∈ node.inputs, (goodSample (minuteKeyOf run.nowMs) input.inputIndex run).isSome = true

theorem resized_currentMinuteKey (node : VoltageNode K) (state : VoltageQualityState K) :
    (state.resized node).currentMinuteKey = state.currentMinuteKey := by
  rw [VoltageQualityState.resized]
  dsimp only
  split <;> rfl

theorem atMinute_shaped (node : VoltageNode K) (state : VoltageQualityState K) (minuteKey : Int) :
    (state.atMinute node minuteKey).Shaped node.inputs.length := by
  obtain ⟨hShaped, -⟩ := resized_shaped node state
  rw [VoltageQualityState.atMinute]
  dsimp only
  split
  · exact ⟨hShaped.sums, hShaped.counts, hShaped.lastAverages⟩
  · split
    · exact Shaped.resetMinute hShaped.lastAverages
    · split
      · exact Shaped.resetMinute List.length_replicate
      · exact hShaped

theorem atMinute_stamps (h : ¬state.LongGap run) :
    (state.atMinute node (minuteKeyOf run.nowMs)).lastInputTimestamps.length = node.inputs.length := by
  obtain ⟨-, hStamps⟩ := resized_shaped node state
  rw [VoltageQualityState.atMinute, resized_currentMinuteKey]
  dsimp only
  split
  · exact hStamps
  · rename_i hSet
    split
    · exact hStamps
    · split
      · rename_i hGap
        exact absurd ⟨not_lt.mp hSet, hGap⟩ h
      · exact hStamps

theorem atMinute_of_longGap (h : state.LongGap run) : state.atMinute node (minuteKeyOf run.nowMs) =
    ({ currentMinuteKey := minuteKeyOf run.nowMs, lastAverages := List.replicate node.inputs.length 0 } :
      VoltageQualityState K).resetMinute node := by
  obtain ⟨hSet, hGap⟩ := h
  rw [VoltageQualityState.atMinute, resized_currentMinuteKey]
  dsimp only
  rw [if_neg (not_lt.mpr hSet), if_neg (by omega), if_pos hGap]

theorem sampleFrom_unstamped {inputs : List (VoltageInput K)} {index : Nat} (hStamps : state.lastInputTimestamps = []) :
    (∃ after, sampleFrom run index inputs state = .ok after) ↔
      ∀ input ∈ inputs, goodSample state.currentMinuteKey input.inputIndex run = none := by
  induction inputs generalizing index with
  | nil => exact iff_of_true ⟨state, rfl⟩ (by simp)
  | cons input rest ih =>
    rw [sampleFrom, List.forall_mem_cons]
    cases goodSample state.currentMinuteKey input.inputIndex run with
    | none =>
      rw [ih]
      exact (and_iff_right rfl).symm
    | some sample =>
      have hRead : state.take index sample = .error ⟨.lastInputTimestamps, index⟩ := by
        rw [VoltageQualityState.take, hStamps]
        rfl
      dsimp only
      rw [hRead]
      refine iff_of_false ?_ ?_
      · rintro ⟨after, hAfter⟩
        cases hAfter
      · rintro ⟨hNone, -⟩
        cases hNone

variable [FloorRing K]

theorem sampling_accountMissing (node : VoltageNode K) (dayKey : Int → Int) (n : Nat) (missing : Int) (state : VoltageQualityState K) :
    (VoltageQualityState.accountMissing node dayKey n missing state).sampling = state.sampling := by
  induction n generalizing missing state with
  | zero => rfl
  | succ n ih => rw [VoltageQualityState.accountMissing, ih, sampling_accountCompletedMinute]; rfl

theorem sampling_closeMinutes (node : VoltageNode K) (state : VoltageQualityState K) (dayKey : Int → Int) (minuteKey : Int) :
    (state.closeMinutes node dayKey minuteKey).sampling = state.sampling := by
  rw [VoltageQualityState.closeMinutes]
  split
  · have hMissing := sampling_accountMissing node dayKey (minuteKey - state.currentMinuteKey - 1).toNat
      (state.currentMinuteKey + 1) (state.accountCompletedMinute node dayKey state.currentMinuteKey)
    rw [sampling_accountCompletedMinute] at hMissing
    exact hMissing
  · rfl

theorem checkedVoltageQualification_eq (localTimeFromEpochMs : Int → LocalDate) (h : ¬state.LongGap run) :
    checkedVoltageQualification node localTimeFromEpochMs state run =
      .ok (runVoltageQualification node localTimeFromEpochMs state run) := by
  have hShaped := atMinute_shaped node state (minuteKeyOf run.nowMs)
  have hStamps : (state.atMinute node (minuteKeyOf run.nowMs)).lastInputTimestamps.length = node.inputs.length :=
    atMinute_stamps h
  rw [checkedVoltageQualification, runVoltageQualification]
  dsimp only [bind, Except.bind]
  generalize state.atMinute node (minuteKeyOf run.nowMs) = current at hShaped hStamps ⊢
  obtain ⟨hClosed, hClosedShaped⟩ :=
    checkedMinutes_eq hShaped (voltageQualityDayKey localTimeFromEpochMs) (minuteKeyOf run.nowMs)
  have hSampling := sampling_closeMinutes node current (voltageQualityDayKey localTimeFromEpochMs) (minuteKeyOf run.nowMs)
  rw [hClosed]
  dsimp only
  generalize current.closeMinutes node (voltageQualityDayKey localTimeFromEpochMs) (minuteKeyOf run.nowMs) = closed at *
  obtain ⟨hBegun, -, hSums, hCounts, hAverages⟩ :=
    sampling_beginDay closed (voltageQualityDayKey localTimeFromEpochMs (minuteKeyOf run.nowMs))
  generalize closed.beginDay (voltageQualityDayKey localTimeFromEpochMs (minuteKeyOf run.nowMs)) = counted at *
  have hCountedShaped : counted.Shaped node.inputs.length :=
    ⟨hSums ▸ hClosedShaped.sums, hCounts ▸ hClosedShaped.counts, hAverages ▸ hClosedShaped.lastAverages⟩
  have hCountedStamps : counted.lastInputTimestamps.length = node.inputs.length := by
    rw [show counted.lastInputTimestamps = current.lastInputTimestamps from congrArg Prod.fst (hBegun.trans hSampling)]
    exact hStamps
  rw [checkedOutputs_eq hCountedShaped.lastAverages, checkedInputs_eq hCountedShaped hCountedStamps]
  by_cases hCompleted : current.currentMinuteKey < minuteKeyOf run.nowMs
  · rw [if_pos hCompleted, if_pos hCompleted]
    dsimp only
    cases (voltageOutputs node counted).findSome? fun output =>
      (run.rejection output.index).map fun message => (output.field, message) with
    | none => rfl
    | some rejected => rfl
  · rw [if_neg hCompleted, if_neg hCompleted]
    rfl

theorem checked_ok_iff_of_longGap (localTimeFromEpochMs : Int → LocalDate) (h : state.LongGap run) :
    (∃ result, checkedVoltageQualification node localTimeFromEpochMs state run = .ok result) ↔ ¬run.Offers node := by
  rw [checkedVoltageQualification, atMinute_of_longGap h]
  generalize hCurrent : ({ currentMinuteKey := minuteKeyOf run.nowMs, lastAverages := List.replicate node.inputs.length 0 } :
    VoltageQualityState K).resetMinute node = current
  have hMinute : current.currentMinuteKey = minuteKeyOf run.nowMs := by rw [← hCurrent]; rfl
  have hOpen : ¬current.currentMinuteKey < minuteKeyOf run.nowMs := by rw [hMinute]; exact lt_irrefl _
  have hClosed : current.checkedMinutes node (voltageQualityDayKey localTimeFromEpochMs) (minuteKeyOf run.nowMs) = .ok current := by
    rw [VoltageQualityState.checkedMinutes, if_neg hOpen]
    rfl
  have hDay : current.beginDay (voltageQualityDayKey localTimeFromEpochMs (minuteKeyOf run.nowMs)) = current := by
    rw [VoltageQualityState.beginDay, if_neg]
    rw [← hCurrent]
    exact fun hKey => hKey.1 rfl
  have hDue : current.lastSampleAt = 0 := by rw [← hCurrent]; rfl
  have hStamps : current.lastInputTimestamps = [] := by rw [← hCurrent]; rfl
  dsimp only [bind, Except.bind]
  rw [hClosed]
  dsimp only
  rw [hDay, if_neg hOpen, VoltageQualityState.checkedInputs, if_pos (.inl hDue)]
  have hSampled : (∃ after, sampleFrom run 0 node.inputs current = .ok after) ↔ _ := sampleFrom_unstamped hStamps
  have hOffers : (∃ after, sampleFrom run 0 node.inputs current = .ok after) ↔ ¬run.Offers node := by
    rw [hSampled, hMinute, VoltageRun.Offers, not_exists]
    simp only [not_and, Bool.not_eq_true, Option.isSome_eq_false_iff, Option.isNone_iff_eq_none]
  rw [← hOffers]
  cases sampleFrom run 0 node.inputs current with
  | error access =>
    refine iff_of_false ?_ ?_
    · rintro ⟨result, hResult⟩
      cases hResult
    · rintro ⟨after, hAfter⟩
      cases hAfter
  | ok after => exact iff_of_true ⟨_, rfl⟩ ⟨after, rfl⟩

theorem checked_ok_iff (localTimeFromEpochMs : Int → LocalDate) :
    (∃ result, checkedVoltageQualification node localTimeFromEpochMs state run = .ok result) ↔
      ¬(state.LongGap run ∧ run.Offers node) := by
  by_cases hGap : state.LongGap run
  · rw [checked_ok_iff_of_longGap localTimeFromEpochMs hGap, and_iff_right hGap]
  · exact iff_of_true ⟨_, checkedVoltageQualification_eq localTimeFromEpochMs hGap⟩ fun h => hGap h.1

end Calls

section Runs

variable {K : Type} [Field K] [LinearOrder K] [FloorRing K]

def voltageCalls (node : VoltageNode K) (localTimeFromEpochMs : Int → LocalDate) (state : VoltageQualityState K)
    (runs : List (VoltageRun K)) : Except VoltageAccess (VoltageQualityState K) :=
  runs.foldlM (fun state run => (checkedVoltageQualification node localTimeFromEpochMs state run).map Prod.snd) state

/-- From any state, every access of a sequence of calls is in range exactly when no long gap ends at a good point. -/
theorem voltage_accesses_in_range_iff (node : VoltageNode K) (localTimeFromEpochMs : Int → LocalDate)
    (state : VoltageQualityState K) (runs : List (VoltageRun K)) :
    (∃ final, voltageCalls node localTimeFromEpochMs state runs = .ok final) ↔
      ∀ done run, done ++ [run] <+: runs → ∀ before, voltageCalls node localTimeFromEpochMs state done = .ok before →
        ¬(before.LongGap run ∧ run.Offers node) := by
  rw [voltageCalls, foldlM_ok_iff_rounds]
  refine forall₄_congr ?_
  intro done run hPrefix before
  refine imp_congr_right ?_
  intro _
  rw [← checked_ok_iff localTimeFromEpochMs]
  constructor
  · rintro ⟨after, hAfter⟩
    obtain ⟨result, hResult, -⟩ := map_ok_iff.mp hAfter
    exact ⟨result, hResult⟩
  · rintro ⟨result, hResult⟩
    exact ⟨result.2, map_ok_iff.mpr ⟨result, hResult, rfl⟩⟩

def fault? {α : Type} : Except VoltageAccess α → Option VoltageAccess
  | .error access => some access
  | .ok _ => none

theorem limits_of_220 : voltageQualityLimits (220 : ℚ) = some (198, 2354 / 10) := by decide +kernel

def singleVoltage : VoltageNode ℚ where
  inputs := [⟨1, 2, 220, (198, 2354 / 10), limits_of_220⟩]
  minimumCoveragePercent := 90
  minimumCoveragePercent_pos := by decide +kernel
  minimumCoveragePercent_le := by decide +kernel
  passThresholdPercent := 95
  minuteStatusOutputIndex := 3
  minuteSampleCoverageOutputIndex := 4
  dayOutputs := ⟨5, 6, 7, 8, 9, 10, 11⟩
  completedDayOutputs := ⟨12, 13, 14, 15, 16, 17, 18⟩

def presentVoltage (nowMs : Int) : VoltageRun ℚ where
  nowMs := nowMs
  latestPoint _ := some ⟨some 221, 1, nowMs, false⟩
  rejection _ := none

/-- The clock is set from the start of 1970 to the present. -/
theorem first_sample_after_clock_set :
    fault? (voltageCalls singleVoltage (fun _ => ⟨70, 0, 1⟩) {} [presentVoltage 1000, presentVoltage 1700000000000]) =
      some ⟨.lastInputTimestamps, 0⟩ := by decide +kernel

end Runs

end EdgeGateway.GraphEms
