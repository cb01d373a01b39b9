import EdgeGateway.Foundation.Run
import EdgeGateway.Foundation.SlidingWindow
import EdgeGateway.Models

/-! # The admission of commands

A command is refused when its identifier was admitted a short while ago, or its meter has used up
the rate of the window.
-/

namespace EdgeGateway.MqttDriver

open SlidingWindow

structure MqttDriverConfig where
  priorityControlLeaseTtlMs : Int
  commandRateWindowMs : Int
  commandRateMaxPerWindow : Int
  commandDedupTtlMs : Int
deriving DecidableEq, Repr

/-- `recentCommandIds_` and `commandWindowByMeter_` of the service. -/
structure CommandAdmission where
  recentCommandIds : StringMap Int := ∅
  commandWindowByMeter : StringMap (List Int) := ∅

structure AdmissionCall where
  meterCode : StdString
  cmdId : StdString
  nowMs : Int
deriving DecidableEq, Repr

namespace MqttDriverConfig

variable (config : MqttDriverConfig)

def windowMs : Int := max 1 config.commandRateWindowMs

def maxInWindow : Nat := config.commandRateMaxPerWindow.toNat

def dedupTtlMs : Int := max 0 config.commandDedupTtlMs

def deduplicates (cmdId : StdString) : Bool := decide (cmdId ≠ []) && decide (config.dedupTtlMs > 0)

def evictExpired (nowMs : Int) (ids : StringMap Int) : StringMap Int :=
  ids.filter fun _ admittedAt => !decide (nowMs - admittedAt > config.dedupTtlMs)

def isDuplicate (nowMs : Int) (ids : StringMap Int) (cmdId : StdString) : Bool :=
  ids[cmdId]?.any fun admittedAt => decide (nowMs - admittedAt ≤ config.dedupTtlMs)

end MqttDriverConfig

namespace CommandAdmission

variable (config : MqttDriverConfig) (s t : CommandAdmission) (call : AdmissionCall) (nowMs later : Int)

def admitCommand (meterCode cmdId : StdString) (nowMs : Int) : Bool × CommandAdmission :=
  let ids := if config.deduplicates cmdId then config.evictExpired nowMs s.recentCommandIds else s.recentCommandIds
  if config.deduplicates cmdId && config.isDuplicate nowMs ids cmdId then (false, { s with recentCommandIds := ids })
  else
    let remembered := if config.deduplicates cmdId then ids.insert cmdId nowMs else ids
    if config.maxInWindow > 0 then
      let window := slide config.windowMs nowMs (s.commandWindowByMeter[meterCode]?.getD [])
      if window.length ≥ config.maxInWindow then
        (false, ⟨ids, s.commandWindowByMeter.insert meterCode window⟩)
      else (true, ⟨remembered, s.commandWindowByMeter.insert meterCode (window ++ [nowMs])⟩)
    else (true, { s with recentCommandIds := remembered })

def admits : Bool := (s.admitCommand config call.meterCode call.cmdId call.nowMs).1

def next : CommandAdmission := (s.admitCommand config call.meterCode call.cmdId call.nowMs).2

/-- When a call at `later` still finds the identifier, the time it was admitted at. -/
def remembered (cmdId : StdString) : Option Int :=
  s.recentCommandIds[cmdId]?.filter fun admittedAt => decide (later - admittedAt ≤ config.dedupTtlMs)

def windowAt (meterCode : StdString) : List Int :=
  slide config.windowMs later (s.commandWindowByMeter[meterCode]?.getD [])

variable {config s t call nowMs later}

theorem remembered_evictExpired (cmdId : StdString) (hLater : nowMs ≤ later) :
    ((config.evictExpired nowMs s.recentCommandIds)[cmdId]?.filter fun admittedAt =>
      decide (later - admittedAt ≤ config.dedupTtlMs)) = s.remembered config later cmdId := by
  rw [remembered, MqttDriverConfig.evictExpired, Std.TreeMap.getElem?_filter']
  cases s.recentCommandIds[cmdId]? with
  | none => rfl
  | some admittedAt =>
    rw [Option.filter_some]
    split
    · rfl
    · rename_i hOld
      rw [Option.filter_none, Option.filter_some, if_neg]
      simp only [Bool.not_eq_true', decide_eq_false_iff_not, not_not] at hOld
      rw [decide_eq_true_eq]
      omega

theorem isDuplicate_evictExpired (cmdId : StdString) :
    config.isDuplicate nowMs (config.evictExpired nowMs s.recentCommandIds) cmdId =
      (s.remembered config nowMs cmdId).isSome := by
  rw [← remembered_evictExpired cmdId le_rfl, MqttDriverConfig.isDuplicate]
  cases (config.evictExpired nowMs s.recentCommandIds)[cmdId]? with
  | none => rfl
  | some admittedAt =>
    rw [Option.any_some, Option.filter_some]
    split <;> simp_all

def duplicate (config : MqttDriverConfig) (s : CommandAdmission) (call : AdmissionCall) : Bool :=
  config.deduplicates call.cmdId && (s.remembered config call.nowMs call.cmdId).isSome

def keptIds (config : MqttDriverConfig) (s : CommandAdmission) (call : AdmissionCall) : StringMap Int :=
  if config.deduplicates call.cmdId then config.evictExpired call.nowMs s.recentCommandIds else s.recentCommandIds

def rememberedIds (config : MqttDriverConfig) (s : CommandAdmission) (call : AdmissionCall) : StringMap Int :=
  if config.deduplicates call.cmdId then (s.keptIds config call).insert call.cmdId call.nowMs
  else s.keptIds config call

inductive Decision (config : MqttDriverConfig) (s : CommandAdmission) (call : AdmissionCall) :
    Bool × CommandAdmission → Prop
  | duplicate (hDuplicate : s.duplicate config call = true) :
      Decision config s call (false, { s with recentCommandIds := s.keptIds config call })
  | exceeded (hNew : s.duplicate config call = false) (hLimit : 0 < config.maxInWindow)
      (hFull : config.maxInWindow ≤ (s.windowAt config call.nowMs call.meterCode).length) :
      Decision config s call (false,
        ⟨s.keptIds config call,
          s.commandWindowByMeter.insert call.meterCode (s.windowAt config call.nowMs call.meterCode)⟩)
  | counted (hNew : s.duplicate config call = false) (hLimit : 0 < config.maxInWindow)
      (hRoom : (s.windowAt config call.nowMs call.meterCode).length < config.maxInWindow) :
      Decision config s call (true,
        ⟨s.rememberedIds config call,
          s.commandWindowByMeter.insert call.meterCode
            (s.windowAt config call.nowMs call.meterCode ++ [call.nowMs])⟩)
  | unlimited (hNew : s.duplicate config call = false) (hLimit : config.maxInWindow = 0) :
      Decision config s call (true, { s with recentCommandIds := s.rememberedIds config call })

theorem admitCommand_decides :
    Decision config s call (s.admitCommand config call.meterCode call.cmdId call.nowMs) := by
  have hDuplicate : (config.deduplicates call.cmdId &&
      config.isDuplicate call.nowMs (s.keptIds config call) call.cmdId) = s.duplicate config call := by
    rw [duplicate, keptIds]
    cases config.deduplicates call.cmdId with
    | false => rfl
    | true => exact isDuplicate_evictExpired call.cmdId
  rw [admitCommand]
  dsimp only
  rw [← keptIds, hDuplicate]
  split
  case isTrue hTwice => exact .duplicate hTwice
  case isFalse hNew =>
    rw [Bool.not_eq_true] at hNew
    split
    case isTrue hLimit =>
      split
      case isTrue hFull => exact .exceeded hNew hLimit hFull
      case isFalse hRoom => exact .counted hNew hLimit (Nat.lt_of_not_le hRoom)
    case isFalse hLimit => exact .unlimited hNew (Nat.eq_zero_of_not_pos hLimit)

theorem keptIds_remembered (cmdId : StdString) (hLater : call.nowMs ≤ later) :
    (((s.keptIds config call)[cmdId]?).filter fun admittedAt =>
      decide (later - admittedAt ≤ config.dedupTtlMs)) = s.remembered config later cmdId := by
  rw [keptIds]
  split
  · exact remembered_evictExpired cmdId hLater
  · rfl

theorem rememberedIds_remembered (cmdId : StdString) (hLater : call.nowMs ≤ later) :
    (((s.rememberedIds config call)[cmdId]?).filter fun admittedAt =>
      decide (later - admittedAt ≤ config.dedupTtlMs)) =
      if config.deduplicates call.cmdId = true ∧ cmdId = call.cmdId then
        (some call.nowMs).filter fun admittedAt => decide (later - admittedAt ≤ config.dedupTtlMs)
      else s.remembered config later cmdId := by
  rw [rememberedIds]
  split
  case isTrue hTaken =>
    obtain rfl | hOther := eq_or_ne cmdId call.cmdId
    · rw [getElem?_insert_self, if_pos ⟨hTaken, rfl⟩]
    · rw [getElem?_insert_of_ne _ _ hOther, if_neg fun hBoth => hOther hBoth.2]
      exact keptIds_remembered cmdId hLater
  case isFalse hLeft =>
    rw [if_neg fun hBoth => hLeft hBoth.1]
    exact keptIds_remembered cmdId hLater

theorem remembered_next (cmdId : StdString) (hLater : call.nowMs ≤ later) :
    (s.next config call).remembered config later cmdId =
      if s.admits config call = true ∧ config.deduplicates call.cmdId = true ∧ cmdId = call.cmdId then
        (some call.nowMs).filter fun admittedAt => decide (later - admittedAt ≤ config.dedupTtlMs)
      else s.remembered config later cmdId := by
  have hDecision := @admitCommand_decides config s call
  rw [next, admits]
  generalize s.admitCommand config call.meterCode call.cmdId call.nowMs = outcome at hDecision ⊢
  cases hDecision with
  | duplicate => exact keptIds_remembered cmdId hLater
  | exceeded => exact keptIds_remembered cmdId hLater
  | counted =>
    simp only [true_and]
    exact rememberedIds_remembered cmdId hLater
  | unlimited =>
    simp only [true_and]
    exact rememberedIds_remembered cmdId hLater

theorem windowAt_insert (config : MqttDriverConfig) (ids : StringMap Int) (windows : StringMap (List Int))
    (meterCode other : StdString) (times : List Int) (later : Int) :
    (⟨ids, windows.insert meterCode times⟩ : CommandAdmission).windowAt config later other =
      if other = meterCode then slide config.windowMs later times
      else (⟨ids, windows⟩ : CommandAdmission).windowAt config later other := by
  rw [windowAt]
  split
  case isTrue hSame =>
    subst hSame
    rw [getElem?_insert_self]
    rfl
  case isFalse hOther =>
    rw [getElem?_insert_of_ne _ _ hOther]
    rfl

theorem windowAt_next (meterCode : StdString) (hLater : call.nowMs ≤ later) :
    (s.next config call).windowAt config later meterCode =
      if s.admits config call = true ∧ 0 < config.maxInWindow ∧ meterCode = call.meterCode then
        slide config.windowMs later (s.windowAt config call.nowMs meterCode ++ [call.nowMs])
      else s.windowAt config later meterCode := by
  have hDecision := @admitCommand_decides config s call
  rw [next, admits]
  generalize s.admitCommand config call.meterCode call.cmdId call.nowMs = outcome at hDecision ⊢
  cases hDecision with
  | duplicate => rfl
  | exceeded =>
    rw [if_neg (fun hBoth => nomatch hBoth.1), windowAt_insert]
    split
    case isTrue hSame =>
      subst hSame
      exact slide_slide hLater
    case isFalse => rfl
  | counted _ hLimit =>
    rw [windowAt_insert]
    obtain rfl | hOther := eq_or_ne meterCode call.meterCode
    · rw [if_pos rfl, if_pos ⟨rfl, hLimit, rfl⟩]
    · rw [if_neg hOther, if_neg fun hAll => hOther hAll.2.2]
      rfl
  | unlimited _ hLimit =>
    rw [if_neg fun hAll => (Nat.ne_of_gt hAll.2.1) hLimit]
    rfl

def withinRate (config : MqttDriverConfig) (s : CommandAdmission) (call : AdmissionCall) : Bool :=
  decide (config.maxInWindow = 0) ||
    decide ((s.windowAt config call.nowMs call.meterCode).length < config.maxInWindow)

theorem admits_eq : s.admits config call = (!s.duplicate config call && s.withinRate config call) := by
  have hDecision := @admitCommand_decides config s call
  rw [admits, withinRate]
  generalize s.admitCommand config call.meterCode call.cmdId call.nowMs = outcome at hDecision ⊢
  cases hDecision with
  | duplicate hDuplicate => rw [hDuplicate, Bool.not_true, Bool.false_and]
  | exceeded hNew hLimit hFull =>
    rw [decide_eq_false (Nat.ne_of_gt hLimit), decide_eq_false (Nat.not_lt.mpr hFull), Bool.or_false, Bool.and_false]
  | counted hNew hLimit hRoom => rw [hNew, decide_eq_true hRoom, Bool.or_true, Bool.not_false, Bool.true_and]
  | unlimited hNew hLimit => rw [hNew, decide_eq_true hLimit, Bool.true_or, Bool.not_false, Bool.true_and]

/-- No call from `nowMs` on can tell the states apart. -/
def Agrees (config : MqttDriverConfig) (nowMs : Int) (s t : CommandAdmission) : Prop :=
  ∀ later, nowMs ≤ later → (∀ cmdId, s.remembered config later cmdId = t.remembered config later cmdId) ∧
    ∀ meterCode, s.windowAt config later meterCode = t.windowAt config later meterCode

theorem Agrees.admits (h : Agrees config nowMs s t) (hCall : nowMs ≤ call.nowMs) :
    s.admits config call = t.admits config call := by
  obtain ⟨hIds, hWindows⟩ := h call.nowMs hCall
  rw [admits_eq, admits_eq, duplicate, duplicate, hIds, withinRate, withinRate, hWindows]

theorem Agrees.next (h : Agrees config nowMs s t) (hCall : nowMs ≤ call.nowMs) :
    Agrees config call.nowMs (s.next config call) (t.next config call) := by
  intro later hLater
  obtain ⟨hIds, hWindows⟩ := h later (hCall.trans hLater)
  constructor
  · intro cmdId
    rw [remembered_next cmdId hLater, remembered_next cmdId hLater, h.admits hCall, hIds]
  · intro meterCode
    rw [windowAt_next meterCode hLater, windowAt_next meterCode hLater, h.admits hCall, hWindows,
      (h call.nowMs hCall).2]

theorem agrees_of_refused (hRefused : s.admits config call = false) :
    Agrees config call.nowMs (s.next config call) s := by
  intro later hLater
  have hNot : ¬s.admits config call = true := by
    rw [hRefused]
    exact Bool.false_ne_true
  constructor
  · intro cmdId
    rw [remembered_next cmdId hLater, if_neg fun hAll => hNot hAll.1]
  · intro meterCode
    rw [windowAt_next meterCode hLater, if_neg fun hAll => hNot hAll.1]

def answers (config : MqttDriverConfig) (s : CommandAdmission) (calls : List AdmissionCall) : List Bool :=
  Run.trace (next config) (fun s call => [s.admits config call]) s calls

theorem answers_cons (calls : List AdmissionCall) :
    s.answers config (call :: calls) = s.admits config call :: (s.next config call).answers config calls := rfl

theorem Agrees.answers {calls : List AdmissionCall} (h : Agrees config nowMs s t)
    (hOrder : calls.Pairwise fun x y => x.nowMs ≤ y.nowMs) (hFrom : ∀ call ∈ calls, nowMs ≤ call.nowMs) :
    s.answers config calls = t.answers config calls := by
  induction calls generalizing nowMs s t with
  | nil => rfl
  | cons call calls ih =>
    obtain ⟨hFirst, hRest⟩ := List.pairwise_cons.mp hOrder
    have hCall := hFrom call List.mem_cons_self
    rw [answers_cons, answers_cons, h.admits hCall, ih (h.next hCall) hRest hFirst]

section History

variable (config)

def admitted (calls : List AdmissionCall) : List AdmissionCall :=
  Run.trace (next config) (fun s call => if s.admits config call then [call] else []) {} calls

def timesOf (meterCode : StdString) (log : List AdmissionCall) : List Int :=
  (log.filter fun call => decide (call.meterCode = meterCode)).map (·.nowMs)

/-- The state accounts for what has been admitted, as seen by every call that may follow. -/
structure Accounts (calls log : List AdmissionCall) (s : CommandAdmission) : Prop where
  taken : log.Sublist calls
  windows : 0 < config.maxInWindow → ∀ later, (∀ call ∈ calls, call.nowMs ≤ later) → ∀ meterCode,
    s.windowAt config later meterCode = slide config.windowMs later (timesOf meterCode log)
  paced : 0 < config.maxInWindow → ∀ meterCode, Paced config.windowMs config.maxInWindow (timesOf meterCode log)
  ids : ∀ later, (∀ call ∈ calls, call.nowMs ≤ later) → ∀ call ∈ log, config.deduplicates call.cmdId = true →
    later - call.nowMs ≤ config.dedupTtlMs → (s.remembered config later call.cmdId).isSome = true
  spaced : log.Pairwise fun x y => config.deduplicates x.cmdId = true → x.cmdId = y.cmdId →
    config.dedupTtlMs < y.nowMs - x.nowMs

variable {config}

theorem timesOf_snoc (meterCode : StdString) (log : List AdmissionCall) (call : AdmissionCall) :
    timesOf meterCode (log ++ [call]) =
      timesOf meterCode log ++ if meterCode = call.meterCode then [call.nowMs] else [] := by
  rw [timesOf, timesOf, List.filter_append, List.map_append, List.filter_singleton]
  obtain rfl | hOther := eq_or_ne call.meterCode meterCode
  · rw [decide_eq_true rfl, if_pos rfl]
    rfl
  · rw [decide_eq_false hOther, if_neg hOther.symm]
    rfl

variable {calls log : List AdmissionCall}

theorem timesOf_ordered (hTaken : log.Sublist calls) (hOrder : calls.Pairwise fun x y => x.nowMs ≤ y.nowMs)
    (meterCode : StdString) : (timesOf meterCode log).Pairwise (· ≤ ·) :=
  ((hOrder.sublist hTaken).sublist List.filter_sublist).map _ fun _ _ h => h

theorem accounts_nil : Accounts config [] [] {} where
  taken := List.Sublist.refl []
  windows := by
    intro _ later _ meterCode
    rw [windowAt, Std.TreeMap.getElem?_emptyc]
    rfl
  paced := fun _ _ => paced_nil
  ids := by
    intro _ _ call hCall
    cases hCall
  spaced := List.Pairwise.nil

theorem Accounts.refuse (h : Accounts config calls log s) (hRefused : s.admits config call = false) :
    Accounts config (calls ++ [call]) log (s.next config call) where
  taken := h.taken.trans (List.sublist_append_left calls [call])
  windows := by
    intro hLimit later hLater meterCode
    rw [List.forall_mem_append] at hLater
    rw [(agrees_of_refused hRefused later (hLater.2 call List.mem_cons_self)).2]
    exact h.windows hLimit later hLater.1 meterCode
  paced := h.paced
  ids := by
    intro later hLater taken hTaken
    rw [List.forall_mem_append] at hLater
    rw [(agrees_of_refused hRefused later (hLater.2 call List.mem_cons_self)).1]
    exact h.ids later hLater.1 taken hTaken
  spaced := h.spaced

theorem Accounts.admit (h : Accounts config calls log s) (hOrder : calls.Pairwise fun x y => x.nowMs ≤ y.nowMs)
    (hLast : ∀ earlier ∈ calls, earlier.nowMs ≤ call.nowMs) (hAdmitted : s.admits config call = true) :
    Accounts config (calls ++ [call]) (log ++ [call]) (s.next config call) where
  taken := h.taken.append (List.Sublist.refl [call])
  windows := by
    intro hLimit later hLater meterCode
    rw [List.forall_mem_append] at hLater
    have hNow := hLater.2 call List.mem_cons_self
    rw [windowAt_next meterCode hNow, timesOf_snoc]
    split
    case isTrue hTaken =>
      rw [if_pos hTaken.2.2, h.windows hLimit call.nowMs hLast, slide_append_slide hNow]
    case isFalse hOther =>
      rw [if_neg fun hSame => hOther ⟨hAdmitted, hLimit, hSame⟩, List.append_nil]
      exact h.windows hLimit later hLater.1 meterCode
  paced := by
    intro hLimit meterCode
    rw [timesOf_snoc]
    split
    case isTrue hSame =>
      subst hSame
      apply paced_snoc (h.paced hLimit _)
      rw [← slide_eq_recent (timesOf_ordered h.taken hOrder _), ← h.windows hLimit call.nowMs hLast]
      rw [admits_eq, Bool.and_eq_true, withinRate, decide_eq_false (Nat.ne_of_gt hLimit), Bool.false_or] at hAdmitted
      exact of_decide_eq_true hAdmitted.2
    case isFalse =>
      rw [List.append_nil]
      exact h.paced hLimit meterCode
  ids := by
    intro later hLater taken hTaken hDeduplicates hAge
    rw [List.forall_mem_append] at hLater
    have hNow := hLater.2 call List.mem_cons_self
    rw [remembered_next taken.cmdId hNow]
    split
    case isTrue hSame =>
      have hRecent : later - call.nowMs ≤ config.dedupTtlMs := by
        obtain hTaken | hTaken := List.mem_append.mp hTaken
        · have hEarlier := hLast taken (h.taken.subset hTaken)
          omega
        · obtain rfl := List.mem_singleton.mp hTaken
          exact hAge
      rw [Option.filter_some, if_pos (decide_eq_true hRecent)]
      rfl
    case isFalse hOther =>
      obtain hTaken | hTaken := List.mem_append.mp hTaken
      · exact h.ids later hLater.1 taken hTaken hDeduplicates hAge
      · obtain rfl := List.mem_singleton.mp hTaken
        exact absurd ⟨hAdmitted, hDeduplicates, rfl⟩ hOther
  spaced := by
    rw [List.pairwise_append]
    refine ⟨h.spaced, List.pairwise_singleton _ _, ?_⟩
    intro taken hTaken other hOther hDeduplicates hSame
    obtain rfl := List.mem_singleton.mp hOther
    rw [admits_eq, Bool.and_eq_true, Bool.not_eq_true', duplicate, ← hSame, hDeduplicates, Bool.true_and] at hAdmitted
    by_contra hClose
    have hRemembered := h.ids other.nowMs hLast taken hTaken hDeduplicates (Int.not_lt.mp hClose)
    rw [hAdmitted.1] at hRemembered
    exact Bool.false_ne_true hRemembered

theorem admitted_snoc (calls : List AdmissionCall) (call : AdmissionCall) :
    admitted config (calls ++ [call]) = admitted config calls ++
      if (Run.after (next config) {} calls).admits config call then [call] else [] :=
  Run.trace_snoc _ _ _ _ _

theorem accounts (hOrder : calls.Pairwise fun x y => x.nowMs ≤ y.nowMs) :
    Accounts config calls (admitted config calls) (Run.after (next config) {} calls) := by
  induction calls using List.reverseRecOn with
  | nil => exact accounts_nil
  | append_singleton calls call ih =>
    obtain ⟨hBefore, -, hLast⟩ := List.pairwise_append.mp hOrder
    have hAccounts := ih hBefore
    rw [admitted_snoc, Run.after_snoc]
    cases hAnswer : (Run.after (next config) {} calls).admits config call with
    | false =>
      rw [if_neg Bool.false_ne_true, List.append_nil]
      exact hAccounts.refuse hAnswer
    | true =>
      rw [if_pos rfl]
      exact hAccounts.admit hBefore (fun earlier hEarlier => hLast earlier hEarlier call List.mem_cons_self) hAnswer

theorem paced_rate {meterCode : StdString} (h : Paced config.windowMs config.maxInWindow (timesOf meterCode log)) (start : Int) :
    (log.filter fun call => decide (call.meterCode = meterCode ∧ start ≤ call.nowMs ∧
      call.nowMs ≤ start + config.commandRateWindowMs)).length ≤ config.commandRateMaxPerWindow.toNat := by
  refine le_trans ?_ (h start)
  rw [inside, timesOf, List.filter_map, List.length_map, List.filter_filter]
  apply List.Sublist.length_le
  apply List.monotone_filter_right
  intro call hCall
  obtain ⟨hMeter, hStart, hEnd⟩ := of_decide_eq_true hCall
  have hWidth : config.commandRateWindowMs ≤ config.windowMs := le_max_right 1 _
  rw [Bool.and_eq_true]
  refine ⟨decide_eq_true ⟨hStart, ?_⟩, decide_eq_true hMeter⟩
  dsimp only
  omega

/-- The bounds of the admission over every run of calls, with the identifiers remembered for a positive time. -/
theorem admission_bounds (config : MqttDriverConfig) (calls : List AdmissionCall)
    (hOrder : calls.Pairwise fun x y => x.nowMs ≤ y.nowMs) :
    (0 < config.commandRateMaxPerWindow → ∀ meterCode start,
      ((admitted config calls).filter fun call => decide (call.meterCode = meterCode ∧ start ≤ call.nowMs ∧
        call.nowMs ≤ start + config.commandRateWindowMs)).length ≤ config.commandRateMaxPerWindow.toNat) ∧
    (0 < config.commandDedupTtlMs → (admitted config calls).Pairwise fun x y =>
      x.cmdId ≠ [] → x.cmdId = y.cmdId → ¬y.nowMs - x.nowMs ≤ config.commandDedupTtlMs) ∧
    ∀ done call rest, calls = done ++ call :: rest → (Run.after (next config) {} done).admits config call = false →
      (∀ later, call.nowMs ≤ later → ∀ cmdId,
        (Run.after (next config) {} (done ++ [call])).remembered config later cmdId =
          (Run.after (next config) {} done).remembered config later cmdId) ∧
      (Run.after (next config) {} (done ++ [call])).answers config rest =
        (Run.after (next config) {} done).answers config rest := by
  have hAccounts := @accounts config calls hOrder
  refine ⟨?_, ?_, ?_⟩
  · intro hLimit meterCode start
    have hPositive : 0 < config.maxInWindow := by
      rw [MqttDriverConfig.maxInWindow]
      omega
    exact paced_rate (hAccounts.paced hPositive meterCode) start
  · intro hTtl
    apply hAccounts.spaced.imp
    intro x y hSpaced hId hSame
    have hLifetime : config.dedupTtlMs = config.commandDedupTtlMs := max_eq_right hTtl.le
    rw [hLifetime] at hSpaced
    apply not_le.mpr
    apply hSpaced _ hSame
    rw [MqttDriverConfig.deduplicates, decide_eq_true hId, hLifetime, decide_eq_true hTtl]
    rfl
  · rintro done call rest rfl hRefused
    obtain ⟨-, hRest, -⟩ := List.pairwise_append.mp hOrder
    obtain ⟨hFrom, hRest⟩ := List.pairwise_cons.mp hRest
    have hAgrees := agrees_of_refused hRefused
    rw [Run.after_snoc]
    exact ⟨fun later hLater => (hAgrees later hLater).1, hAgrees.answers hRest hFrom⟩

end History

end CommandAdmission

section Sample

open CommandAdmission

def twoInTenSeconds (dedupTtlMs : Int) : MqttDriverConfig := ⟨15000, 10000, 2, dedupTtlMs⟩

def meterCall (cmdId : String) (nowMs : Int) : AdmissionCall := ⟨"METER".toList, cmdId.toList, nowMs⟩

def threeCalls : List AdmissionCall := [meterCall "a" 0, meterCall "a" 5000, meterCall "b" 10000]

theorem three_calls_within_bounds :
    ((admitted (twoInTenSeconds 60000) threeCalls).filter fun call => decide (call.meterCode = "METER".toList ∧
        0 ≤ call.nowMs ∧ call.nowMs ≤ 0 + 10000)).length ≤ 2 ∧
      (admitted (twoInTenSeconds 60000) threeCalls).Pairwise fun x y =>
        x.cmdId ≠ [] → x.cmdId = y.cmdId → ¬y.nowMs - x.nowMs ≤ 60000 := by
  obtain ⟨hRate, hSpaced, -⟩ := admission_bounds (twoInTenSeconds 60000) threeCalls (by decide)
  exact ⟨hRate (by decide) "METER".toList 0, hSpaced (by decide)⟩

/-- With a lifetime of zero an identifier is admitted twice in the same millisecond. -/
theorem without_lifetime_admitted_twice :
    ¬(admitted (twoInTenSeconds 0) [meterCall "a" 0, meterCall "a" 0]).Pairwise fun x y =>
      x.cmdId ≠ [] → x.cmdId = y.cmdId → ¬y.nowMs - x.nowMs ≤ (twoInTenSeconds 0).commandDedupTtlMs := by
  have hAdmitted : admitted (twoInTenSeconds 0) [meterCall "a" 0, meterCall "a" 0] =
      [meterCall "a" 0, meterCall "a" 0] := by
    decide +kernel
  rw [hAdmitted]
  decide

end Sample

end EdgeGateway.MqttDriver
