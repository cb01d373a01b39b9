import EdgeGateway.GraphEms.ControlWrite

/-! # Signal filters

A rate limiter moves its output towards its input by what the time since the last
write allows. A debounced signal follows its input once this has kept its level for
the delay of that level. A sequence walks its states along matched transitions.
-/

namespace EdgeGateway.GraphEms

open Numerals QuotedText EdgeGateway.Fallible

section Scans

variable {K : Type}

/-- What a filter meets when it runs; the store takes a value for a point or rejects it with a message. -/
structure FilterScan (K : Type) where
  nowMs : Int
  points : UInt32 → Option (StoredPoint K)
  rejection : UInt32 → K → Option StdString

/-- The input of a filter, where it is there and finite. -/
def FilterScan.input (scan : FilterScan K) (inputIndex : UInt32) : Option K :=
  match latestValue scan.points inputIndex with
  | some (.finite input) => some input
  | _ => none

end Scans

section RateLimits

variable {K : Type} [Field K] [LinearOrder K]

structure RateLimit (K : Type) where
  inputIndex : UInt32
  outputIndex : UInt32
  risePerSecond : K
  fallPerSecond : K
  minValue : K
  maxValue : K
  initialValue : K

structure RateLimitState (K : Type) where
  initialized : Bool
  output : K
  lastRunAt : Int

namespace RateLimit

omit [LinearOrder K] in
def ofParams (params : Params) : Fallible (RateLimit K) := do
  let inputIndex ← paramIndex params "inputIndex".toList 0
  let outputIndex ← paramIndex params "outputIndex".toList 0
  let risePerSecond ← exactOr params "risePerSecond" 0
  let fallPerSecond ← exactOr params "fallPerSecond" 0
  let minValue ← exactOr params "minValue" 0
  let maxValue ← exactOr params "maxValue" 0
  let initialValue ← exactOr params "initialValue" 0
  return { inputIndex, outputIndex, risePerSecond, fallPerSecond, minValue, maxValue, initialValue }

variable (node : RateLimit K)

def next (scan : FilterScan K) (state : RateLimitState K) (input : K) : K :=
  if !state.initialized then (scan.input node.outputIndex).getD node.initialValue
  else if state.lastRunAt ≤ scan.nowMs then
    let elapsedSeconds : K := ((scan.nowMs - state.lastRunAt : Int) : K) / 1000
    let delta := input - state.output
    if 0 < delta then state.output + min delta (node.risePerSecond * elapsedSeconds)
    else if delta < 0 then state.output + max delta (-node.fallPerSecond * elapsedSeconds)
    else state.output
  else state.output

/-- The result is the value that was written, where one was. -/
def runRateLimit (scan : FilterScan K) (state : RateLimitState K) : Fallible (Option K) × RateLimitState K :=
  match scan.input node.inputIndex with
  | none => (.ok none, state)
  | some input =>
    if input < node.minValue ∨ node.maxValue < input then
      (.error "rateLimit input outside configured bounds".toList, state)
    else
      let next := max node.minValue (min (node.next scan state input) node.maxValue)
      match scan.rejection node.outputIndex next with
      | some message => (.error ("rateLimit output rejected: ".toList ++ message), state)
      | none => (.ok (some next), ⟨true, next, scan.nowMs⟩)

def outputs (state : RateLimitState K) : List (FilterScan K) → List (FilterScan K × K)
  | [] => []
  | scan :: scans =>
    match node.runRateLimit scan state with
    | (.ok (some output), after) => (scan, output) :: outputs after scans
    | (_, after) => outputs after scans

def reach (perSecond : K) (since now : Int) : K := perSecond * ((max 0 (now - since) : Int) : K) / 1000

structure Follows (earlier later : FilterScan K × K) : Prop where
  least : node.minValue ≤ later.2
  greatest : later.2 ≤ node.maxValue
  rise : later.2 - earlier.2 ≤ reach node.risePerSecond earlier.1.nowMs later.1.nowMs
  fall : earlier.2 - later.2 ≤ reach node.fallPerSecond earlier.1.nowMs later.1.nowMs
  between : ∃ input, later.1.input node.inputIndex = some input ∧ min earlier.2 input ≤ later.2 ∧
    later.2 ≤ max earlier.2 input

structure Valid : Prop where
  rise : 0 < node.risePerSecond
  fall : 0 < node.fallPerSecond
  bounds : node.minValue ≤ node.maxValue

theorem runRateLimit_cases (scan : FilterScan K) (state : RateLimitState K) :
    (∃ result, node.runRateLimit scan state = (result, state) ∧ ∀ output, result ≠ .ok (some output)) ∨
    ∃ input, scan.input node.inputIndex = some input ∧ node.minValue ≤ input ∧ input ≤ node.maxValue ∧
      node.runRateLimit scan state =
        (.ok (some (max node.minValue (min (node.next scan state input) node.maxValue))),
          ⟨true, max node.minValue (min (node.next scan state input) node.maxValue), scan.nowMs⟩) := by
  rw [runRateLimit]
  split
  · exact .inl ⟨_, rfl, by simp⟩
  · rename_i input hInput
    split
    · exact .inl ⟨_, rfl, by simp⟩
    · rename_i hInside
      obtain ⟨hLeast, hGreatest⟩ := not_or.mp hInside
      dsimp only
      split
      · exact .inl ⟨_, rfl, by simp⟩
      · exact .inr ⟨input, hInput, not_lt.mp hLeast, not_lt.mp hGreatest, rfl⟩

variable [IsStrictOrderedRing K] {node}

omit [LinearOrder K] [IsStrictOrderedRing K] in
theorem reach_of_le {perSecond : K} {since now : Int} (h : since ≤ now) :
    reach perSecond since now = perSecond * (((now - since : Int) : K) / 1000) := by
  rw [reach, max_eq_right (by omega), mul_div_assoc]

theorem reach_nonneg {perSecond : K} (h : 0 < perSecond) (since now : Int) : 0 ≤ reach perSecond since now :=
  div_nonneg (mul_nonneg h.le (Int.cast_nonneg (le_max_left _ _))) (by norm_num)

/-- A step from the last output goes towards the input and no further than the slopes reach. -/
theorem Valid.next_spec (hValid : node.Valid) (scan : FilterScan K) (output : K) (since : Int) (input : K) :
    min output input ≤ node.next scan ⟨true, output, since⟩ input ∧
      node.next scan ⟨true, output, since⟩ input ≤ max output input ∧
      node.next scan ⟨true, output, since⟩ input - output ≤ reach node.risePerSecond since scan.nowMs ∧
      output - node.next scan ⟨true, output, since⟩ input ≤ reach node.fallPerSecond since scan.nowMs := by
  have hRise := reach_nonneg hValid.rise since scan.nowMs
  have hFall := reach_nonneg hValid.fall since scan.nowMs
  have hStays : min output input ≤ output ∧ output ≤ max output input ∧
      output - output ≤ reach node.risePerSecond since scan.nowMs ∧
      output - output ≤ reach node.fallPerSecond since scan.nowMs := by
    rw [sub_self]
    exact ⟨min_le_left _ _, le_max_left _ _, hRise, hFall⟩
  rw [next, if_neg (by simp)]
  dsimp only
  split
  · rename_i hLater
    rw [neg_mul, ← reach_of_le hLater, ← reach_of_le hLater]
    split
    · rename_i hUp
      have hStep := le_min hUp.le hRise
      have hShort := min_le_left (input - output) (reach node.risePerSecond since scan.nowMs)
      have hSlope := min_le_right (input - output) (reach node.risePerSecond since scan.nowMs)
      refine ⟨(min_le_left _ _).trans (by linarith), le_max_of_le_right (by linarith), by linarith, by linarith⟩
    · split
      · rename_i hDown
        have hStep := max_le hDown.le (neg_nonpos.mpr hFall)
        have hShort := le_max_left (input - output) (-reach node.fallPerSecond since scan.nowMs)
        have hSlope := le_max_right (input - output) (-reach node.fallPerSecond since scan.nowMs)
        refine ⟨min_le_of_right_le (by linarith), le_max_of_le_left (by linarith), by linarith, by linarith⟩
      · exact hStays
  · exact hStays

theorem Valid.follows (hValid : node.Valid) {earlier : FilterScan K × K} (hLeast : node.minValue ≤ earlier.2)
    (hGreatest : earlier.2 ≤ node.maxValue) {scan : FilterScan K} {input : K}
    (hInput : scan.input node.inputIndex = some input) (hLow : node.minValue ≤ input) (hHigh : input ≤ node.maxValue) :
    node.Follows earlier
      (scan, max node.minValue (min (node.next scan ⟨true, earlier.2, earlier.1.nowMs⟩ input) node.maxValue)) := by
  obtain ⟨hBelow, hAbove, hRise, hFall⟩ := hValid.next_spec scan earlier.2 earlier.1.nowMs input
  -- both ends are within the bounds, so the clamp does nothing
  have hClamp : max node.minValue (min (node.next scan ⟨true, earlier.2, earlier.1.nowMs⟩ input) node.maxValue) =
      node.next scan ⟨true, earlier.2, earlier.1.nowMs⟩ input := by
    rw [min_eq_left (hAbove.trans (max_le hGreatest hHigh)), max_eq_right ((le_min hLeast hLow).trans hBelow)]
  rw [hClamp]
  exact ⟨(le_min hLeast hLow).trans hBelow, hAbove.trans (max_le hGreatest hHigh), hRise, hFall,
    input, hInput, hBelow, hAbove⟩

theorem Valid.chain_from (hValid : node.Valid) (scans : List (FilterScan K)) {earlier : FilterScan K × K}
    (hLeast : node.minValue ≤ earlier.2) (hGreatest : earlier.2 ≤ node.maxValue) :
    List.IsChain node.Follows (earlier :: node.outputs ⟨true, earlier.2, earlier.1.nowMs⟩ scans) := by
  induction scans generalizing earlier with
  | nil => exact .singleton _
  | cons scan scans ih =>
    rw [outputs]
    obtain ⟨result, hRun, hNone⟩ | ⟨input, hInput, hLow, hHigh, hRun⟩ :=
      node.runRateLimit_cases scan ⟨true, earlier.2, earlier.1.nowMs⟩
    · rw [hRun]
      split
      · rename_i output after hSame
        exact absurd (Prod.mk.inj hSame).1 (hNone output)
      · rename_i hSame
        obtain ⟨-, rfl⟩ := Prod.mk.inj hSame
        exact ih hLeast hGreatest
    · rw [hRun]
      have hFollows := hValid.follows hLeast hGreatest hInput hLow hHigh
      exact List.isChain_cons_cons.mpr ⟨hFollows, ih hFollows.least hFollows.greatest⟩

theorem Valid.chain (hValid : node.Valid) (state : RateLimitState K) (scans : List (FilterScan K)) :
    List.IsChain node.Follows (node.outputs state scans) := by
  induction scans with
  | nil => exact .nil
  | cons scan scans ih =>
    rw [outputs]
    obtain ⟨result, hRun, hNone⟩ | ⟨input, hInput, hLow, hHigh, hRun⟩ := node.runRateLimit_cases scan state
    · rw [hRun]
      split
      · rename_i output after hSame
        exact absurd (Prod.mk.inj hSame).1 (hNone output)
      · rename_i hSame
        obtain ⟨-, rfl⟩ := Prod.mk.inj hSame
        exact ih
    · rw [hRun]
      exact hValid.chain_from scans (le_max_left _ _) (max_le hValid.bounds (min_le_right _ _))

omit [IsStrictOrderedRing K] in
theorem exactValue_pos [IsStrictOrderedRing K] {value : RawDouble} (h : less 0 value = true) :
    0 < (exactValue value : K) := by
  rw [less, Bool.and_eq_true, decide_eq_true_iff] at h
  have hUnits : ((signedUnits 0 : Int) : K) < (signedUnits value : Int) := Int.cast_lt.mpr h.2
  exact exactValue_zero.symm.trans_lt (div_lt_div_of_pos_right hUnits (by positivity))

theorem ofParams_ok {params : Params} (h : validateRateLimit params = .ok ()) :
    ∃ node : RateLimit K, ofParams params = .ok node ∧ node.Valid := by
  unfold validateRateLimit at h
  obtain ⟨⟨⟩, hIndexes, h⟩ := bind_ok_iff.mp h
  obtain ⟨inputIndex, hInputIndex, h⟩ := bind_ok_iff.mp h
  obtain ⟨outputIndex, hOutputIndex, h⟩ := bind_ok_iff.mp h
  obtain ⟨⟨⟩, -, h⟩ := bind_ok_iff.mp h
  obtain ⟨⟨⟩, -, h⟩ := bind_ok_iff.mp h
  obtain ⟨rise, hRise, h⟩ := bind_ok_iff.mp h
  obtain ⟨fall, hFall, h⟩ := bind_ok_iff.mp h
  obtain ⟨minValue, hMin, h⟩ := bind_ok_iff.mp h
  obtain ⟨maxValue, hMax, h⟩ := bind_ok_iff.mp h
  obtain ⟨initialValue, hInitial, h⟩ := bind_ok_iff.mp h
  obtain ⟨⟨⟩, hSlopes, h⟩ := bind_ok_iff.mp h
  obtain ⟨⟨⟩, hBounds, -⟩ := bind_ok_iff.mp h
  rw [ofParams, hInputIndex, hOutputIndex, exactOr_of_numberOr hRise, exactOr_of_numberOr hFall,
    exactOr_of_numberOr hMin, exactOr_of_numberOr hMax, exactOr_of_numberOr hInitial]
  have hOrdered := require_ok_iff.mp hBounds
  have hPositive := require_ok_iff.mp hSlopes
  rw [areBounds, Bool.and_eq_true] at hOrdered
  simp only [Bool.and_eq_true] at hPositive
  exact ⟨_, rfl, exactValue_pos hPositive.1.1.2, exactValue_pos hPositive.2, exactValue_le hOrdered.2⟩

end RateLimit

/-- From any state, restored or fresh, each published value follows the one before it. -/
theorem rateLimit_outputs_follow [IsStrictOrderedRing K] {params : Params} (h : validateRateLimit params = .ok ()) :
    ∃ node : RateLimit K, RateLimit.ofParams params = .ok node ∧
      ∀ state scans, List.IsChain node.Follows (node.outputs state scans) := by
  obtain ⟨node, hNode, hValid⟩ := RateLimit.ofParams_ok (K := K) h
  exact ⟨node, hNode, hValid.chain⟩

def slowParams : Params :=
  [("inputIndex", "1"), ("outputIndex", "2"), ("risePerSecond", "2"), ("fallPerSecond", "4"), ("minValue", "0"),
    ("maxValue", "10")].map fun entry => (entry.1.toList, entry.2.toList)

theorem slow_rateLimit_outputs_follow : ∃ node : RateLimit ℚ, RateLimit.ofParams slowParams = .ok node ∧
    ∀ state scans, List.IsChain node.Follows (node.outputs state scans) :=
  rateLimit_outputs_follow (by decide +kernel)

end RateLimits

structure Debounce where
  inputIndex : UInt32
  outputIndex : UInt32
  invert : Bool
  initialState : Bool
  onDelayMs : Int
  offDelayMs : Int
deriving DecidableEq

structure BooleanFilterState where
  initialized : Bool
  output : Bool
  candidate : Bool
  candidateSince : Int

/-- `static_cast<std::int64_t>` of a parameter. -/
def milliseconds (params : Params) (key : String) : Fallible Int := do
  return (signedUnits (← numberOr params key 0)).tdiv (2 ^ 1074)

namespace Debounce

def ofParams (params : Params) : Fallible Debounce := do
  let inputIndex ← paramIndex params "inputIndex".toList 0
  let outputIndex ← paramIndex params "outputIndex".toList 0
  let onDelayMs ← milliseconds params "onDelayMs"
  let offDelayMs ← milliseconds params "offDelayMs"
  return {
    inputIndex, outputIndex
    invert := paramBool params "invert".toList false
    initialState := paramBool params "initialState".toList false
    onDelayMs, offDelayMs }

def delay (node : Debounce) (level : Bool) : Int := if level then node.onDelayMs else node.offDelayMs

variable {K : Type} [Field K] [LinearOrder K] (node : Debounce)

def nonZero : Reading K → Bool
  | .finite value => decide (value ≠ 0)
  | _ => true

def desired (scan : FilterScan K) : Option Bool := (scan.input node.inputIndex).map fun value => decide (value ≠ 0)

def started (scan : FilterScan K) (state : BooleanFilterState) : BooleanFilterState :=
  if state.initialized then state
  else
    { initialized := true
      output := match latestValue scan.points node.outputIndex with
        | some existing => nonZero existing != node.invert
        | none => node.initialState
      candidate := (node.desired scan).getD false
      candidateSince := scan.nowMs }

def advanced (scan : FilterScan K) (state : BooleanFilterState) : BooleanFilterState :=
  match node.desired scan with
  | none => { state with output := false, candidate := false, candidateSince := scan.nowMs }
  | some level =>
    let state := if level ≠ state.candidate ∨ scan.nowMs < state.candidateSince then
      { state with candidate := level, candidateSince := scan.nowMs } else state
    if state.candidate ≠ state.output ∧ node.delay state.candidate ≤ scan.nowMs - state.candidateSince then
      { state with output := state.candidate } else state

def written (scan : FilterScan K) (state : BooleanFilterState) : Bool :=
  (node.desired scan).isSome && (if node.invert then !state.output else state.output)

def runDebounce (scan : FilterScan K) (state : BooleanFilterState) : Fallible Bool × BooleanFilterState :=
  let state := node.advanced scan (node.started scan state)
  let output := node.written scan state
  match scan.rejection node.outputIndex (if output then 1 else 0) with
  | some message => (.error ("debounce output rejected: ".toList ++ message), state)
  | none => (.ok output, state)

structure Log where
  state : BooleanFilterState
  published : Option Bool

def step (log : Log) (scan : FilterScan K) : Log :=
  match node.runDebounce scan log.state with
  | (.ok output, state) => ⟨state, some output⟩
  | (.error _, state) => ⟨state, log.published⟩

def fresh : Log := ⟨⟨false, false, false, 0⟩, none⟩

def after (scans : List (FilterScan K)) : Log := Run.after node.step fresh scans

def Held (scans : List (FilterScan K)) (level : Bool) (since : Int) : Prop :=
  ∃ before first block, scans = before ++ first :: block ∧ first.nowMs ≤ since ∧
    ∀ scan ∈ first :: block, node.desired scan = some level

/-- A change from 0 to 1 comes only of an input that held the level of 1 for the delay of that level. -/
def RisesHeld (scans : List (FilterScan K)) : Prop :=
  ∀ done scan, done ++ [scan] <+: scans → (node.after done).published = some false →
    (node.after (done ++ [scan])).published = some true →
      node.Held (done ++ [scan]) (!node.invert) (scan.nowMs - node.delay (!node.invert))

/-- An input of an inverted node that gets valid again has a level without delay. -/
def ReturnsUndelayed (scans : List (FilterScan K)) : Prop :=
  node.invert = true → ∀ done lost back level, done ++ [lost, back] <+: scans → node.desired lost = none →
    node.desired back = some level → node.delay level = 0

/-- A run that the claim is about: the store takes the outputs, and the clock does not step back. -/
structure Regular (scans : List (FilterScan K)) : Prop where
  accepted : ∀ scan ∈ scans, ∀ value, scan.rejection node.outputIndex value = none
  ordered : scans.Pairwise fun earlier later => earlier.nowMs ≤ later.nowMs

variable {node}

theorem Held.snoc {done : List (FilterScan K)} {scan : FilterScan K} {level : Bool} {since : Int}
    (h : node.Held done level since) (hLevel : node.desired scan = some level) :
    node.Held (done ++ [scan]) level since := by
  obtain ⟨before, first, block, rfl, hSince, hBlock⟩ := h
  refine ⟨before, first, block ++ [scan], by simp, hSince, ?_⟩
  rw [← List.cons_append, List.forall_mem_append, List.forall_mem_singleton]
  exact ⟨hBlock, hLevel⟩

theorem held_now {scan : FilterScan K} {level : Bool} (done : List (FilterScan K))
    (hLevel : node.desired scan = some level) : node.Held (done ++ [scan]) level scan.nowMs :=
  ⟨done, scan, [], rfl, le_rfl, List.forall_mem_singleton.mpr hLevel⟩

theorem Held.mono {scans : List (FilterScan K)} {level : Bool} {since later : Int} (h : node.Held scans level since)
    (hLe : since ≤ later) : node.Held scans level later := by
  obtain ⟨before, first, block, hScans, hSince, hBlock⟩ := h
  exact ⟨before, first, block, hScans, hSince.trans hLe, hBlock⟩

/-- Whatever is not at rest has a candidate that the input has held since it was one. -/
def Tracks (node : Debounce) (done : List (FilterScan K)) (state : BooleanFilterState) : Prop :=
  state.output = true ∨ state.candidate = true → node.Held done state.candidate state.candidateSince

theorem advanced_of_lost {scan : FilterScan K} {state : BooleanFilterState} (h : node.desired scan = none) :
    node.advanced scan state = { state with output := false, candidate := false, candidateSince := scan.nowMs } := by
  rw [advanced, h]

/-- A valid input is the candidate, and the output changes only to it and only after the delay. -/
theorem advanced_of_level {scan : FilterScan K} (state : BooleanFilterState) {level : Bool}
    (h : node.desired scan = some level) :
    (node.advanced scan state).candidate = level ∧
      ((node.advanced scan state).candidateSince = scan.nowMs ∨
        level = state.candidate ∧ (node.advanced scan state).candidateSince = state.candidateSince) ∧
      ((node.advanced scan state).output = state.output ∨ (node.advanced scan state).output = level ∧
        node.delay level ≤ scan.nowMs - (node.advanced scan state).candidateSince) := by
  rw [advanced, h]
  dsimp only
  by_cases hNew : level ≠ state.candidate ∨ scan.nowMs < state.candidateSince
  · rw [if_pos hNew]
    dsimp only
    split
    · rename_i hFlip
      exact ⟨rfl, .inl rfl, .inr ⟨rfl, hFlip.2⟩⟩
    · exact ⟨rfl, .inl rfl, .inl rfl⟩
  · rw [if_neg hNew]
    obtain ⟨hSame, -⟩ := not_or.mp hNew
    obtain rfl := not_not.mp hSame
    split
    · rename_i hFlip
      exact ⟨rfl, .inr ⟨rfl, rfl⟩, .inr ⟨rfl, hFlip.2⟩⟩
    · exact ⟨rfl, .inr ⟨rfl, rfl⟩, .inl rfl⟩

theorem Tracks.held {done : List (FilterScan K)} {scan : FilterScan K} {state : BooleanFilterState} {level : Bool}
    (hTracks : Tracks node done state) (h : node.desired scan = some level) (hActive : state.output = true ∨ level = true) :
    node.Held (done ++ [scan]) level (node.advanced scan state).candidateSince := by
  obtain ⟨-, hSince | ⟨rfl, hSince⟩, -⟩ := advanced_of_level state h
  · rw [hSince]
    exact held_now done h
  · rw [hSince]
    exact (hTracks hActive).snoc h

theorem Tracks.advanced {done : List (FilterScan K)} {state : BooleanFilterState} (hTracks : Tracks node done state)
    (scan : FilterScan K) : Tracks node (done ++ [scan]) (node.advanced scan state) := by
  cases hDesired : node.desired scan with
  | none =>
    rw [advanced_of_lost hDesired]
    rintro (h | h) <;> cases h
  | some level =>
    intro hActive
    obtain ⟨hCandidate, -, hOutput⟩ := advanced_of_level state hDesired
    rw [hCandidate] at hActive ⊢
    apply hTracks.held hDesired
    obtain hOutput | ⟨hOutput, -⟩ := hOutput
    · rwa [hOutput] at hActive
    · rw [hOutput, or_self] at hActive
      exact .inr hActive

theorem advanced_of_undelayed {scan : FilterScan K} {state : BooleanFilterState} {level : Bool}
    (h : node.desired scan = some level) (hNew : level ≠ state.candidate) (hDelay : node.delay level = 0) :
    (node.advanced scan state).output = level := by
  rw [advanced, h]
  dsimp only
  have hFirst : level ≠ state.candidate ∨ scan.nowMs < state.candidateSince := .inl hNew
  rw [if_pos hFirst]
  dsimp only
  split
  · rfl
  · rename_i hKept
    rw [sub_self, hDelay, not_and'] at hKept
    exact (not_not.mp (hKept le_rfl)).symm

theorem advanced_initialized (scan : FilterScan K) {state : BooleanFilterState} (h : state.initialized = true) :
    (node.advanced scan state).initialized = true := by
  rw [advanced]
  split
  · exact h
  · dsimp only
    split <;> split <;> exact h

theorem started_initialized (scan : FilterScan K) (state : BooleanFilterState) :
    (node.started scan state).initialized = true := by
  rw [started]
  split
  · assumption
  · rfl

theorem started_of_initialized (scan : FilterScan K) {state : BooleanFilterState} (h : state.initialized = true) :
    node.started scan state = state := by
  rw [started, if_pos h]

theorem step_accepted {log : Log} {scan : FilterScan K} (h : ∀ value, scan.rejection node.outputIndex value = none) :
    node.step log scan = ⟨node.advanced scan (node.started scan log.state),
      some (node.written scan (node.advanced scan (node.started scan log.state)))⟩ := by
  rw [step, runDebounce, h]

theorem after_snoc {done : List (FilterScan K)} {scan : FilterScan K} (h : node.Regular (done ++ [scan])) :
    node.after (done ++ [scan]) = ⟨node.advanced scan (node.started scan (node.after done).state),
      some (node.written scan (node.advanced scan (node.started scan (node.after done).state)))⟩ := by
  rw [after, Run.after_snoc, step_accepted (h.accepted scan (by simp))]
  rfl

omit [Field K] [LinearOrder K] in
theorem Regular.before {done scans : List (FilterScan K)} (h : node.Regular scans) (hDone : done <+: scans) :
    node.Regular done :=
  ⟨fun scan hScan => h.accepted scan (hDone.subset hScan), h.ordered.sublist hDone.sublist⟩

theorem tracks_first (scan : FilterScan K) : Tracks node [scan] (node.advanced scan (node.started scan fresh.state)) := by
  cases hDesired : node.desired scan with
  | none =>
    rw [advanced_of_lost hDesired]
    rintro (h | h) <;> cases h
  | some level =>
    intro _
    obtain ⟨hCandidate, hSince, -⟩ := advanced_of_level (node.started scan fresh.state) hDesired
    have hNow : (node.advanced scan (node.started scan fresh.state)).candidateSince = scan.nowMs := by
      obtain hSince | ⟨-, hSince⟩ := hSince
      · exact hSince
      · exact hSince
    rw [hCandidate, hNow]
    exact held_now [] hDesired

theorem after_tracks {done : List (FilterScan K)} {scan : FilterScan K} (h : node.Regular (done ++ [scan])) :
    (node.after (done ++ [scan])).state.initialized = true ∧
      Tracks node (done ++ [scan]) (node.after (done ++ [scan])).state := by
  induction done using List.reverseRecOn generalizing scan with
  | nil =>
    rw [after_snoc h]
    exact ⟨advanced_initialized _ (started_initialized _ _), tracks_first scan⟩
  | append_singleton done last ih =>
    obtain ⟨hInitialized, hTracks⟩ := ih (h.before (List.prefix_append _ _))
    rw [after_snoc h, started_of_initialized _ hInitialized]
    exact ⟨advanced_initialized _ hInitialized, hTracks.advanced scan⟩

theorem Held.last {done : List (FilterScan K)} {scan : FilterScan K} {level : Bool} {since : Int}
    (h : node.Held (done ++ [scan]) level since) : node.desired scan = some level := by
  obtain ⟨before, first, block, hScans, -, hBlock⟩ := h
  obtain rfl | ⟨block, last, rfl⟩ := block.eq_nil_or_concat'
  · obtain ⟨-, hLast⟩ := List.append_inj' hScans rfl
    exact (List.cons.inj hLast).1 ▸ hBlock first (by simp)
  · rw [← List.cons_append, ← List.append_assoc] at hScans
    obtain ⟨-, hLast⟩ := List.append_inj' hScans rfl
    exact (List.cons.inj hLast).1 ▸ hBlock last (by simp)

theorem Held.previous {done : List (FilterScan K)} {last scan : FilterScan K} {level : Bool} {since : Int}
    (h : node.Held (done ++ [last] ++ [scan]) level since) (hBefore : since < scan.nowMs) :
    node.desired last = some level := by
  obtain ⟨before, first, block, hScans, hSince, hBlock⟩ := h
  obtain rfl | ⟨block, final, rfl⟩ := block.eq_nil_or_concat'
  · obtain ⟨-, hLast⟩ := List.append_inj' hScans rfl
    rw [← (List.cons.inj hLast).1] at hSince
    omega
  · rw [← List.cons_append, ← List.append_assoc] at hScans
    obtain ⟨hRest, -⟩ := List.append_inj' hScans rfl
    have hHeld : node.Held (done ++ [last]) level first.nowMs :=
      ⟨before, first, block, hRest, le_rfl, fun scan hScan => hBlock scan (List.mem_append_left _ hScan)⟩
    exact hHeld.last

theorem after_lost {done : List (FilterScan K)} {lost : FilterScan K} (h : node.Regular (done ++ [lost]))
    (hLost : node.desired lost = none) :
    (node.after (done ++ [lost])).published = some false ∧ (node.after (done ++ [lost])).state.output = false ∧
      (node.after (done ++ [lost])).state.candidate = false := by
  rw [after_snoc h, written, hLost, advanced_of_lost hLost]
  exact ⟨rfl, rfl, rfl⟩

theorem written_true {scan : FilterScan K} {state : BooleanFilterState} :
    node.written scan state = true ↔ (node.desired scan).isSome = true ∧ state.output = !node.invert := by
  rw [written, Bool.and_eq_true]
  cases node.invert <;> simp

/-- A rise of the output comes of a held input, or it is the return of an input that was lost. -/
theorem risen {done : List (FilterScan K)} {last scan : FilterScan K} {level : Bool}
    (h : node.Regular (done ++ [last] ++ [scan])) (hLevel : node.desired scan = some level)
    (hBefore : (node.after (done ++ [last])).state.output = node.invert)
    (hAfter : (node.advanced scan (node.after (done ++ [last])).state).output = !node.invert) :
    node.Held (done ++ [last] ++ [scan]) (!node.invert) (scan.nowMs - node.delay (!node.invert)) := by
  obtain ⟨-, hTracks⟩ := after_tracks (h.before (List.prefix_append _ _))
  obtain ⟨-, -, hSame | ⟨hFlip, hDelay⟩⟩ := advanced_of_level (node.after (done ++ [last])).state hLevel
  · rw [hSame, hBefore] at hAfter
    exact absurd hAfter (by cases node.invert <;> decide)
  · obtain rfl : level = !node.invert := hFlip.symm.trans hAfter
    have hActive : (node.after (done ++ [last])).state.output = true ∨ (!node.invert) = true := by
      rw [hBefore]
      cases node.invert <;> decide
    exact (hTracks.held hLevel hActive).mono (by omega)

theorem ReturnsUndelayed.risesHeld {scans : List (FilterScan K)} (hReturns : node.ReturnsUndelayed scans)
    (hRegular : node.Regular scans) : node.RisesHeld scans := by
  intro done scan hPrefix hBefore hAfter
  obtain rfl | ⟨done, last, rfl⟩ := done.eq_nil_or_concat'
  · cases hBefore
  have h := hRegular.before hPrefix
  have hLast := h.before (List.prefix_append _ _)
  rw [after_snoc h, started_of_initialized scan (after_tracks hLast).1] at hAfter
  obtain ⟨hSome, hOutput⟩ := written_true.mp (Option.some.inj hAfter)
  obtain ⟨level, hLevel⟩ := Option.isSome_iff_exists.mp hSome
  by_cases hLow : (node.after (done ++ [last])).state.output = node.invert
  · exact risen h hLevel hLow hOutput
  · -- the output was 0 for want of an input
    have hLost : node.desired last = none := by
      rw [after_snoc hLast] at hBefore hLow
      by_contra hValid
      have hHigh := written_true.not.mp (Bool.eq_false_iff.mp (Option.some.inj hBefore))
      exact hHigh ⟨Option.isSome_iff_ne_none.mpr hValid, Bool.eq_not.mpr hLow⟩
    obtain ⟨-, hRests, hCandidate⟩ := after_lost hLast hLost
    have hInvert : node.invert = true := by
      rw [hRests] at hLow
      exact Bool.of_not_eq_false (Ne.symm hLow)
    have hDelay := hReturns hInvert done last scan level (by simpa using hPrefix) hLost hLevel
    cases level with
    | false =>
      rw [hInvert, Bool.not_true, hDelay, sub_zero]
      exact held_now _ hLevel
    | true =>
      rw [advanced_of_undelayed hLevel (by rw [hCandidate]; decide) hDelay, hInvert] at hOutput
      cases hOutput

theorem RisesHeld.returnsUndelayed {scans : List (FilterScan K)} (hRises : node.RisesHeld scans)
    (hRegular : node.Regular scans) (hDelays : ∀ level, 0 ≤ node.delay level) : node.ReturnsUndelayed scans := by
  intro hInvert done lost back level hPrefix hLost hLevel
  by_contra hDelay
  rw [← List.singleton_append, ← List.append_assoc] at hPrefix
  have h := hRegular.before hPrefix
  have hLast := h.before (List.prefix_append _ _)
  obtain ⟨hBefore, hRests, hCandidate⟩ := after_lost hLast hLost
  have hPositive := hDelays level
  -- the rest of the lost input is what an inverted node publishes as 1
  have hOutput : (node.advanced back (node.after (done ++ [lost])).state).output = false := by
    obtain ⟨-, hSince, hSame | ⟨hFlip, hDue⟩⟩ :=
      advanced_of_level (node.after (done ++ [lost])).state hLevel
    · exact hSame.trans hRests
    · obtain hSince | ⟨hSame, -⟩ := hSince
      · rw [hSince] at hDue
        omega
      · exact hFlip.trans (hSame.trans hCandidate)
  have hAfter : (node.after (done ++ [lost] ++ [back])).published = some true := by
    rw [after_snoc h, started_of_initialized _ (after_tracks hLast).1]
    rw [written_true.mpr ⟨by rw [hLevel]; rfl, by rw [hOutput, hInvert]; rfl⟩]
  have hHeld := hRises (done ++ [lost]) back hPrefix hBefore hAfter
  obtain rfl := Option.some.inj (hLevel.symm.trans hHeld.last)
  have hSome := hHeld.previous (by omega)
  rw [hLost] at hSome
  cases hSome

theorem milliseconds_ok {params : Params} {key : String}
    (h : (do
      require (integerWithin 0 86400000 (← numberOr params key 0)).isSome
        ("debounce " ++ key ++ " must be an integer from 0 to 86400000").toList) = .ok ()) :
    ∃ delay, milliseconds params key = .ok delay ∧ 0 ≤ delay := by
  obtain ⟨value, hValue, hTest⟩ := bind_ok_iff.mp h
  rw [milliseconds, hValue]
  refine ⟨_, rfl, Int.tdiv_nonneg ?_ (by positivity)⟩
  obtain ⟨n, hWithin⟩ := Option.isSome_iff_exists.mp (require_ok_iff.mp hTest)
  rw [integerWithin] at hWithin
  split at hWithin
  · rename_i whole hWhole
    rw [wholeNumber] at hWhole
    split at hWhole
    · obtain rfl := Option.some.inj hWhole
      split at hWithin
      · rename_i hBounds
        exact (Int.ediv_nonneg_iff_of_pos (by positivity)).mp hBounds.1
      · cases hWithin
    · cases hWhole
  · cases hWithin

theorem ofParams_ok {params : Params} (h : validateDebounce params = .ok ()) :
    ∃ node, ofParams params = .ok node ∧ ∀ level, 0 ≤ node.delay level := by
  unfold validateDebounce at h
  obtain ⟨⟨⟩, hIndexes, h⟩ := bind_ok_iff.mp h
  have hEach := forM_ok_iff.mp hIndexes
  have hDelays := forM_ok_iff.mp h
  obtain ⟨inputIndex, hInputIndex⟩ := paramIndex_of_valid (requireIndex_ok (hEach "inputIndex" (by simp))) 0
  obtain ⟨outputIndex, hOutputIndex⟩ := paramIndex_of_valid (requireIndex_ok (hEach "outputIndex" (by simp))) 0
  obtain ⟨onDelayMs, hOn, hOnNonneg⟩ := milliseconds_ok (hDelays "onDelayMs" (by simp))
  obtain ⟨offDelayMs, hOff, hOffNonneg⟩ := milliseconds_ok (hDelays "offDelayMs" (by simp))
  rw [ofParams, hInputIndex, hOutputIndex, hOn, hOff]
  refine ⟨_, rfl, ?_⟩
  rintro (_ | _)
  · exact hOffNonneg
  · exact hOnNonneg

end Debounce

/-- Where the node is inverted, an input that gets valid again may change the output at once. -/
theorem debounce_rises_held_iff {K : Type} [Field K] [LinearOrder K] {params : Params}
    (h : validateDebounce params = .ok ()) : ∃ node, Debounce.ofParams params = .ok node ∧
      ∀ scans : List (FilterScan K), node.Regular scans → (node.RisesHeld scans ↔ node.ReturnsUndelayed scans) := by
  obtain ⟨node, hNode, hDelays⟩ := Debounce.ofParams_ok h
  refine ⟨node, hNode, fun scans hRegular => ⟨?_, ?_⟩⟩
  · intro hRises
    exact hRises.returnsUndelayed hRegular hDelays
  · intro hReturns
    exact hReturns.risesHeld hRegular

def invertedParams : Params :=
  [("inputIndex", "1"), ("outputIndex", "2"), ("invert", "true"), ("onDelayMs", "1000"), ("offDelayMs", "1000")].map
    fun entry => (entry.1.toList, entry.2.toList)

def invertedNode : Debounce := ⟨1, 2, true, false, 1000, 1000⟩

theorem inverted_debounce_rises_held_iff : ∃ node, Debounce.ofParams invertedParams = .ok node ∧
    ∀ scans : List (FilterScan ℚ), node.Regular scans → (node.RisesHeld scans ↔ node.ReturnsUndelayed scans) :=
  debounce_rises_held_iff (by decide +kernel)

def lostScan : FilterScan ℚ := ⟨0, fun _ => none, fun _ _ => none⟩

def backScan : FilterScan ℚ := ⟨1, fun index => if index = 1 then some ⟨.finite 1, 1, false⟩ else none, fun _ _ => none⟩

/-- The input comes back as one, and the output rises at once. -/
theorem output_rises_when_input_returns : validateDebounce invertedParams = .ok () ∧
    Debounce.ofParams invertedParams = .ok invertedNode ∧ invertedNode.Regular [lostScan, backScan] ∧
      ¬invertedNode.RisesHeld [lostScan, backScan] := by
  refine ⟨by decide +kernel, by decide +kernel, ⟨?_, ?_⟩, ?_⟩
  · simp [lostScan, backScan]
  · simp [lostScan, backScan]
  · intro hRises
    have hHeld := hRises [lostScan] backScan (List.prefix_refl _) (by decide +kernel) (by decide +kernel)
    exact absurd hHeld.last (by decide +kernel)

structure Hysteresis (K : Type) where
  inputIndex : UInt32
  outputIndex : UInt32
  highThreshold : K
  lowThreshold : K
  invert : Bool
  initialState : Bool

namespace Hysteresis

variable {K : Type} [Field K]

def ofParams (params : Params) : Fallible (Hysteresis K) := do
  let inputIndex ← paramIndex params "inputIndex".toList 0
  let outputIndex ← paramIndex params "outputIndex".toList 0
  let highThreshold ← exactOr params "highThreshold" 0
  let lowThreshold ← exactOr params "lowThreshold" 0
  return {
    inputIndex, outputIndex, highThreshold, lowThreshold
    invert := paramBool params "invert".toList false
    initialState := paramBool params "initialState".toList false }

variable [LinearOrder K] (node : Hysteresis K)

def started (scan : FilterScan K) (state : BooleanFilterState) : BooleanFilterState :=
  if state.initialized then state
  else
    { state with
      initialized := true
      output := match latestValue scan.points node.outputIndex with
        | some existing => Debounce.nonZero existing != node.invert
        | none => node.initialState }

def advanced (scan : FilterScan K) (state : BooleanFilterState) : BooleanFilterState :=
  match scan.input node.inputIndex with
  | none => { state with output := false }
  | some input =>
    if node.highThreshold ≤ input then { state with output := true }
    else if input ≤ node.lowThreshold then { state with output := false }
    else state

def runHysteresis (scan : FilterScan K) (state : BooleanFilterState) : Fallible Bool × BooleanFilterState :=
  let state := node.advanced scan (node.started scan state)
  let output := (scan.input node.inputIndex).isSome && (if node.invert then !state.output else state.output)
  match scan.rejection node.outputIndex (if output then 1 else 0) with
  | some message => (.error ("hysteresis output rejected: ".toList ++ message), state)
  | none => (.ok output, state)

def after (state : BooleanFilterState) (scans : List (FilterScan K)) : BooleanFilterState :=
  Run.after (fun state scan => (node.runHysteresis scan state).2) state scans

def Raises (scan : FilterScan K) : Prop := ∃ input, scan.input node.inputIndex = some input ∧ node.highThreshold ≤ input

def Keeps (scan : FilterScan K) : Prop := ∃ input, scan.input node.inputIndex = some input ∧ node.lowThreshold < input

variable {node}

theorem runHysteresis_state (scan : FilterScan K) (state : BooleanFilterState) :
    (node.runHysteresis scan state).2 = node.advanced scan (node.started scan state) := by
  rw [runHysteresis]
  split <;> rfl

theorem started_of_initialized (scan : FilterScan K) {state : BooleanFilterState} (h : state.initialized = true) :
    node.started scan state = state := if_pos h

theorem started_initialized (scan : FilterScan K) (state : BooleanFilterState) :
    (node.started scan state).initialized = true := by
  rw [started]
  split
  · assumption
  · rfl

omit [Field K] in
theorem advanced_initialized (scan : FilterScan K) (state : BooleanFilterState) :
    (node.advanced scan state).initialized = state.initialized := by
  rw [advanced]
  split
  · rfl
  · split
    · rfl
    · split <;> rfl

theorem advanced_output (scan : FilterScan K) (state : BooleanFilterState) :
    (node.advanced scan state).output = true ↔ node.Raises scan ∨ node.Keeps scan ∧ state.output = true := by
  rw [advanced, Raises, Keeps]
  cases scan.input node.inputIndex with
  | none => simp
  | some input =>
    dsimp only
    split
    · rename_i hHigh
      simp [hHigh]
    · rename_i hHigh
      split
      · rename_i hLow
        simp [hHigh, not_lt.mpr hLow]
      · rename_i hLow
        simp [hHigh, not_le.mp hLow]

variable (node) in
def start (state : BooleanFilterState) : List (FilterScan K) → Prop
  | [] => state.output = true
  | first :: _ => (node.started first state).output = true

theorem after_output (state : BooleanFilterState) (scans : List (FilterScan K)) :
    (node.after state scans).output = true ↔ Run.Since node.Raises node.Keeps (node.start state scans) scans := by
  cases scans with
  | nil => simp [after, start, Run.Since]
  | cons first scans =>
    have hStart : node.after state (first :: scans) = node.after (node.started first state) (first :: scans) := by
      rw [after, Run.after_cons, runHysteresis_state, after, Run.after_cons, runHysteresis_state,
        started_of_initialized first (started_initialized first state)]
    rw [hStart]
    refine (Run.flag_iff_since (fun s : BooleanFilterState => s.initialized = true) (fun s => s.output = true) ?_ ?_
      (started_initialized first state) (first :: scans)).2
    · intro s scan hInitialized
      rw [runHysteresis_state, advanced_initialized]
      exact started_initialized scan s
    · intro s scan hInitialized
      rw [runHysteresis_state, started_of_initialized scan hInitialized, advanced_output]

end Hysteresis

/-- Over any run, from a fresh or a restored state: 0 for want of an input, and else the switch of the two
    thresholds, inverted or not. -/
theorem hysteresis_published_iff {K : Type} [Field K] [LinearOrder K] (node : Hysteresis K) (state : BooleanFilterState)
    (scans : List (FilterScan K)) (last : FilterScan K) {published : Bool}
    (h : (node.runHysteresis last (node.after state scans)).1 = .ok published) :
    published = true ↔ (last.input node.inputIndex).isSome = true ∧
      (Run.Since node.Raises node.Keeps (node.start state (scans ++ [last])) (scans ++ [last]) ↔ node.invert = false) := by
  have hState : node.advanced last (node.started last (node.after state scans)) = node.after state (scans ++ [last]) := by
    rw [← Hysteresis.runHysteresis_state, Hysteresis.after, Hysteresis.after, Run.after_snoc]
  rw [Hysteresis.runHysteresis, hState] at h
  split at h
  · cases h
  · obtain rfl := Except.ok.inj h
    rw [Bool.and_eq_true, ← Hysteresis.after_output]
    cases node.invert <;> simp

def twoThresholds : Hysteresis ℚ := ⟨1, 2, 3, 1, false, false⟩

def levelScan (value : ℚ) : FilterScan ℚ :=
  ⟨0, fun index => if index = 1 then some ⟨.finite value, 1, false⟩ else none, fun _ _ => none⟩

theorem twoThresholds_stay_up : Run.Since twoThresholds.Raises twoThresholds.Keeps
    (twoThresholds.start ⟨false, false, false, 0⟩ [levelScan 5, levelScan 2]) [levelScan 5, levelScan 2] :=
  ((@hysteresis_published_iff ℚ _ _ twoThresholds _ [levelScan 5] (levelScan 2) true (by decide +kernel)).mp rfl).2.mpr rfl

structure SequenceCondition (K : Type) where
  index : UInt32
  value : Option (Reading K)
  valueIndex : UInt32
  operation : StdString
  tolerance : K
  invert : Bool

structure SequenceTransition (K : Type) where
  source : Int
  target : Int
  minDurationMs : Int
  requireAll : Bool
  conditions : List (SequenceCondition K)

structure SequenceState where
  initialized : Bool
  current : Int
  enteredAt : Int

structure Sequence (K : Type) where
  states : List Int
  initialState : Int
  stateOutputIndex : UInt32
  evaluateOnInitialize : Bool
  transitions : List (SequenceTransition K)

namespace Sequence

variable {K : Type} [Field K]

section Parameters

variable (params : Params) (start : StdString)

/-- `static_cast` of a parameter to an integer. -/
def whole (key : StdString) (defaultValue : Int) : Fallible Int := do
  return ((← paramDouble params key).map fun value => (signedUnits value).tdiv (2 ^ 1074)).getD defaultValue

def conditionOf : Fallible (SequenceCondition K) := do
  let index ← paramIndex params (start ++ ".index".toList) 0
  let value ← paramDouble params (start ++ ".value".toList)
  let valueIndex ← paramIndex params (start ++ ".valueIndex".toList) 0
  let tolerance ← paramDouble params (start ++ ".tolerance".toList)
  return {
    index, valueIndex
    value := value.map fun value => if isFinite value then .finite (exactValue value) else .infinite
    operation := paramText params (start ++ ".operator".toList) []
    tolerance := (tolerance.map exactValue).getD (1 / 10 ^ 9)
    invert := paramBool params (start ++ ".invert".toList) false }

def transitionOf : Fallible (SequenceTransition K) := do
  let source ← whole params (start ++ ".from".toList) 0
  let target ← whole params (start ++ ".to".toList) 0
  let minDurationMs ← whole params (start ++ ".minDurationMs".toList) 0
  let count ← paramCount params (start ++ ".conditions".toList)
  let conditions ← (List.range count).mapM fun j => conditionOf params (element (start ++ ".conditions".toList) j)
  return {
    source, target, minDurationMs, conditions
    requireAll := normalizedToken (paramText params (start ++ ".combine".toList) "all".toList) = "all".toList }

def ofParams : Fallible (Sequence K) := do
  let stateCount ← paramCount params "states".toList
  let states ← (List.range stateCount).mapM fun i => whole params (element "states".toList i ++ ".id".toList) 0
  let initialState ← whole params "initialState".toList (states.min?.getD 0)
  let stateOutputIndex ← paramIndex params "stateOutputIndex".toList 0
  let count ← paramCount params "transitions".toList
  let transitions ← (List.range count).mapM fun i => transitionOf params (element "transitions".toList i)
  return {
    states, initialState, stateOutputIndex, transitions
    evaluateOnInitialize := paramBool params "evaluateOnInitialize".toList false }

end Parameters

variable [LinearOrder K]

def evaluateComparison (left right : K) (operation : StdString) (tolerance : K) : Fallible Bool :=
  let named (names : List String) : Bool := normalizedToken operation ∈ names.map String.toList
  if named ["gt", ">"] then .ok (decide (right < left))
  else if named ["gte", ">="] then .ok (decide (right ≤ left))
  else if named ["lt", "<"] then .ok (decide (left < right))
  else if named ["lte", "<="] then .ok (decide (left ≤ right))
  else if named ["eq", "=="] then .ok (decide (|left - right| ≤ tolerance))
  else if named ["ne", "!="] then .ok (decide (tolerance < |left - right|))
  else .error "unsupported comparison operator".toList

/-- `none` where an operand is missing or not finite. -/
def passed (scan : FilterScan K) (condition : SequenceCondition K) : Fallible (Option Bool) := do
  let right := match condition.value with
    | none => scan.input condition.valueIndex
    | some (.finite value) => some value
    | some _ => none
  match scan.input condition.index, right with
  | some left, some right =>
    return some ((← evaluateComparison left right condition.operation condition.tolerance) != condition.invert)
  | _, _ => return none

def matched (scan : FilterScan K) (transition : SequenceTransition K) : Fallible Bool := do
  let tests ← transition.conditions.mapM (passed scan)
  return tests.all Option.isSome &&
    (if transition.requireAll then tests.all (· == some true) else tests.any (· == some true))

/-- The transition is from the current state, which was entered long enough ago, and it is matched. -/
def fires (scan : FilterScan K) (current since : Int) (transition : SequenceTransition K) : Fallible Bool :=
  if transition.source = current ∧ transition.minDurationMs ≤ scan.nowMs - since then matched scan transition
  else .ok false

/-- The target of the first transition that fires. -/
def fired (scan : FilterScan K) (state : SequenceState) : List (SequenceTransition K) → Fallible (Option Int)
  | [] => .ok none
  | transition :: transitions =>
    match fires scan state.current state.enteredAt transition with
    | .error message => .error message
    | .ok true => .ok (some transition.target)
    | .ok false => fired scan state transitions

variable (node : Sequence K)

/-- With whether this run leaves the transitions out. -/
def started (scan : FilterScan K) (state : SequenceState) : SequenceState × Bool :=
  if !state.initialized then
    let existing := (scan.input node.stateOutputIndex).bind fun value => node.states.find? fun id => decide (Int.cast id = value)
    (⟨true, existing.getD node.initialState, scan.nowMs⟩, !node.evaluateOnInitialize)
  else if scan.nowMs < state.enteredAt then ({ state with enteredAt := scan.nowMs }, true)
  else (state, false)

def runSequence (scan : FilterScan K) (state : SequenceState) : Fallible Int × SequenceState :=
  let (state, skipTransitions) := node.started scan state
  match if skipTransitions then .ok none else fired scan state node.transitions with
  | .error message => (.error message, state)
  | .ok target =>
    let state := (target.map (SequenceState.mk true · scan.nowMs)).getD state
    match scan.rejection node.stateOutputIndex (state.current : K) with
    | some message => (.error ("sequence state output rejected: ".toList ++ message), state)
    | none => (.ok state.current, state)

def after (state : SequenceState) (scans : List (FilterScan K)) : SequenceState :=
  Run.after (fun state scan => (node.runSequence scan state).2) state scans

/-- The state has been the same since that time, by the clock of a scan or as it was restored. -/
def StaysSince (state : SequenceState) (scans : List (FilterScan K)) (since : Int) : Prop :=
  ∃ early block, scans = early ++ block ∧ (early.getLast?.map FilterScan.nowMs).getD state.enteredAt = since ∧
    ∀ middle, middle <+: block → (node.after state (early ++ middle)).current = (node.after state scans).current

variable {node} {state : SequenceState} {scans : List (FilterScan K)} {scan : FilterScan K}

theorem fired_some {transitions : List (SequenceTransition K)} {target : Int}
    (h : fired scan state transitions = .ok (some target)) : ∃ before transition later,
      transitions = before ++ transition :: later ∧ transition.target = target ∧
      fires scan state.current state.enteredAt transition = .ok true ∧
      ∀ other ∈ before, fires scan state.current state.enteredAt other = .ok false := by
  induction transitions with
  | nil => cases h
  | cons first rest ih =>
    rw [fired] at h
    split at h
    · cases h
    · rename_i hFires
      exact ⟨[], first, rest, rfl, Option.some.inj (Except.ok.inj h), hFires, by simp⟩
    · rename_i hNot
      obtain ⟨before, transition, later, rfl, hTarget, hFires, hOthers⟩ := ih h
      exact ⟨first :: before, transition, later, rfl, hTarget, hFires, List.forall_mem_cons.mpr ⟨hNot, hOthers⟩⟩

theorem after_snoc : node.after state (scans ++ [scan]) = (node.runSequence scan (node.after state scans)).2 :=
  Run.after_snoc ..

theorem runSequence_cases (scan : FilterScan K) (h : state.initialized = true) :
    (node.runSequence scan state).2 = state ∨ (node.runSequence scan state).2 = { state with enteredAt := scan.nowMs } ∨
    ∃ target, fired scan state node.transitions = .ok (some target) ∧
      (node.runSequence scan state).2 = ⟨true, target, scan.nowMs⟩ := by
  rw [runSequence, started, if_neg (by simp [h])]
  by_cases hClock : scan.nowMs < state.enteredAt
  · rw [if_pos hClock]
    refine .inr (.inl ?_)
    simp only [reduceIte, Option.map_none, Option.getD_none]
    split <;> rfl
  · rw [if_neg hClock]
    dsimp only
    split
    · exact .inl rfl
    · rename_i target hFired
      cases target with
      | none => exact .inl (by split <;> rfl)
      | some target => exact .inr (.inr ⟨target, hFired, by split <;> rfl⟩)

theorem staysSince_now : node.StaysSince state (scans ++ [scan]) scan.nowMs := by
  refine ⟨scans ++ [scan], [], by simp, by simp, ?_⟩
  intro middle hMiddle
  rw [List.prefix_nil.mp hMiddle, List.append_nil]

theorem StaysSince.snoc {since : Int} (h : node.StaysSince state scans since)
    (hSame : (node.after state (scans ++ [scan])).current = (node.after state scans).current) :
    node.StaysSince state (scans ++ [scan]) since := by
  obtain ⟨early, block, rfl, hSince, hBlock⟩ := h
  refine ⟨early, block ++ [scan], List.append_assoc .., hSince, ?_⟩
  intro middle hMiddle
  obtain rfl | hMiddle := List.prefix_concat_iff.mp hMiddle
  · rw [List.append_assoc]
  · rw [hSame, hBlock middle hMiddle]

theorem after_staysSince (h : state.initialized = true) (scans : List (FilterScan K)) :
    (node.after state scans).initialized = true ∧ node.StaysSince state scans (node.after state scans).enteredAt := by
  induction scans using List.reverseRecOn with
  | nil =>
    refine ⟨h, [], [], rfl, rfl, ?_⟩
    intro middle hMiddle
    rw [List.prefix_nil.mp hMiddle, List.append_nil]
  | append_singleton scans scan ih =>
    obtain ⟨hThere, hStays⟩ := ih
    obtain hSame | hClock | ⟨target, -, hNew⟩ := runSequence_cases scan hThere
    · have hStep := after_snoc.trans hSame
      rw [hStep]
      exact ⟨hThere, hStays.snoc (congrArg SequenceState.current hStep)⟩
    · rw [after_snoc, hClock]
      exact ⟨hThere, staysSince_now⟩
    · rw [after_snoc, hNew]
      exact ⟨rfl, staysSince_now⟩

end Sequence

/-- By any clock, from any state that is there: it only changes along the first transition that fires, by the time
    the state has stayed. -/
theorem sequence_change_fired {K : Type} [Field K] [LinearOrder K] (node : Sequence K) {state : SequenceState}
    (hThere : state.initialized = true) (scans : List (FilterScan K)) (scan : FilterScan K)
    (h : (node.after state (scans ++ [scan])).current ≠ (node.after state scans).current) :
    ∃ since before transition later, node.StaysSince state scans since ∧
      node.transitions = before ++ transition :: later ∧
      transition.target = (node.after state (scans ++ [scan])).current ∧
      Sequence.fires scan (node.after state scans).current since transition = .ok true ∧
      ∀ other ∈ before, Sequence.fires scan (node.after state scans).current since other = .ok false := by
  obtain ⟨hInitialized, hStays⟩ := Sequence.after_staysSince hThere scans
  rw [Sequence.after_snoc] at h ⊢
  obtain hSame | hClock | ⟨target, hFired, hNew⟩ := Sequence.runSequence_cases scan hInitialized
  · exact absurd (congrArg SequenceState.current hSame) h
  · exact absurd (congrArg SequenceState.current hClock) h
  · obtain ⟨before, transition, later, hList, hTarget, hFires⟩ := Sequence.fired_some hFired
    rw [hNew]
    exact ⟨_, before, transition, later, hStays, hList, hTarget, hFires⟩

def twoStates : Sequence ℚ := ⟨[0, 1], 0, 2, false, [⟨0, 1, 100, true, [⟨1, some (.finite 1), 0, ['>'], 0, false⟩]⟩]⟩

theorem twoStates_stays : ∃ since, twoStates.StaysSince ⟨true, 0, -100⟩ [] since ∧
    (twoStates.after ⟨true, 0, -100⟩ [levelScan 2]).current = 1 := by
  obtain ⟨since, before, transition, later, hStays, -⟩ :=
    @sequence_change_fired ℚ _ _ twoStates ⟨true, 0, -100⟩ rfl [] (levelScan 2) (by decide +kernel)
  exact ⟨since, hStays, by decide +kernel⟩

end EdgeGateway.GraphEms
