import EdgeGateway.Foundation.Run
import EdgeGateway.PriorityControl.LeaseText

/-! # Processes that acquire and release one priority lease

Each system call is a step of its own. `acquire` renames a temporary file over the path; `release`
locks and reads the file behind the path and unlinks whatever it names by then.
-/

namespace EdgeGateway.PriorityControl

/-- A file behind a name. The lease is kept beside the text that was written for it. -/
structure Inode where
  text : StdString
  lease : Option PriorityControlLeaseState
deriving DecidableEq, Repr

inductive Activity where
  | idle
  | written
  | opened (cmdId : StdString) (inode : Nat)
  | locked (cmdId : StdString) (inode : Nat)
  | matched (cmdId : StdString) (inode : Nat)
deriving DecidableEq, Repr

structure LeaseDisk where
  inode : Nat → Inode
  next : Nat
  path : Option Nat
  temp : Option Nat
  lock : Nat → Option Nat
  activity : Nat → Activity
  /-- What was asked to be released, and the lease that went. -/
  removals : List (StdString × Option PriorityControlLeaseState)

inductive Step where
  | writeTemp (lease : PriorityControlLeaseState)
  | install (renamed : Bool)
  | openPath (cmdId : StdString)
  | lockFile
  | compare (read : Bool)
  | unlinkPath
deriving DecidableEq, Repr

structure ProcessStep where
  process : Nat
  step : Step
deriving DecidableEq, Repr

namespace LeaseDisk

variable (s : LeaseDisk)

def become (process : Nat) (activity : Activity) : LeaseDisk :=
  { s with activity := Function.update s.activity process activity }

def unlock (inode : Nat) : LeaseDisk := { s with lock := Function.update s.lock inode none }

/-- The temporary name is the same for all: a file another process left there is overwritten. -/
def writeTemp (lease : PriorityControlLeaseState) : LeaseDisk :=
  match s.temp with
  | some i => { s with inode := Function.update s.inode i ⟨leaseText lease, some lease⟩ }
  | none =>
    { s with
      inode := Function.update s.inode s.next ⟨leaseText lease, some lease⟩
      next := s.next + 1
      temp := some s.next }

def install (renamed : Bool) : LeaseDisk :=
  match s.temp with
  | some i => if renamed then { s with path := some i, temp := none } else { s with temp := none }
  | none => s

def unlinkPath (cmdId : StdString) : LeaseDisk :=
  match s.path with
  | some i => { s with path := none, removals := s.removals ++ [(cmdId, (s.inode i).lease)] }
  | none => s

/-- A step that its process has not come to leaves the disk as it is. -/
def step (event : ProcessStep) : LeaseDisk :=
  match event.step, s.activity event.process with
  | .writeTemp lease, .idle => (s.writeTemp lease).become event.process .written
  | .install renamed, .written => (s.install renamed).become event.process .idle
  | .openPath cmdId, .idle =>
    match s.path with
    | some i => s.become event.process (.opened cmdId i)
    | none => s
  | .lockFile, .opened cmdId i =>
    if s.lock i = none then
      { s with lock := Function.update s.lock i (some event.process) }.become event.process (.locked cmdId i)
    else s.become event.process .idle
  | .compare read, .locked cmdId i =>
    if PriorityControlLease.releaseMatches ⟨true, true, true, true, read, true⟩ (s.inode i).text cmdId then
      s.become event.process (.matched cmdId i)
    else (s.unlock i).become event.process .idle
  | .unlinkPath, .matched cmdId i => ((s.unlinkPath cmdId).unlock i).become event.process .idle
  | _, _ => s

def start (file : Option StdString) : LeaseDisk where
  inode := fun _ => ⟨file.getD [], none⟩
  next := 1
  path := file.map fun _ => 0
  temp := none
  lock := fun _ => none
  activity := fun _ => .idle
  removals := []

/-- No release that names a command took the lease of another command. -/
def Safe : Prop := ∀ cmdId lease, (cmdId, some lease) ∈ s.removals → cmdId ≠ [] → lease.cmdId = cmdId

/-- The command is read as itself or not at all, a read does not fail, and the compared file is unlinked. -/
def Careful (event : ProcessStep) : Prop :=
  match event.step, s.activity event.process with
  | .writeTemp lease, _ => QuotedText.Shadows "cmdId".toList lease.owner ∨ Plain lease.cmdId
  | .compare read, _ => read = true
  | .unlinkPath, .matched _ i => ∀ j, s.path = some j → j = i
  | _, _ => True

end LeaseDisk

/-- A command that `release` finds in the text is the one of the lease. -/
def Unmistakable (lease : PriorityControlLeaseState) : Prop :=
  ∀ cmdId, cmdId ≠ [] →
    PriorityControlLease.releaseMatches ⟨true, true, true, true, true, true⟩ (leaseText lease) cmdId = true →
    lease.cmdId = cmdId

theorem unmistakable_of_plain {lease : PriorityControlLeaseState}
    (hPlain : QuotedText.Shadows "cmdId".toList lease.owner ∨ Plain lease.cmdId) : Unmistakable lease := by
  intro cmdId hCmdId hMatches
  have hBuffer := @PriorityControlLease.readBuffer_ne_nil lease
  have hView : extractStringField (PriorityControlLease.readBuffer (leaseText lease)) "cmdId".toList = cmdId := by
    simpa [PriorityControlLease.releaseMatches, hCmdId, hBuffer] using hMatches
  have hFull := extractStringField_cmdId lease (.inl rfl) (List.append_nil _)
  rcases QuotedText.stringMember_prefix "cmdId".toList (PriorityControlLease.readBuffer (leaseText lease))
    ((leaseText lease).drop (16 * 1024 - 1)) with hNone | hSame
  · exact absurd (hView.symm.trans hNone) hCmdId
  · rw [PriorityControlLease.readBuffer, List.take_append_drop] at hSame
    have hRead : extractStringField (leaseText lease) "cmdId".toList = cmdId := hSame.symm.trans hView
    rw [hFull] at hRead
    split at hRead
    · exact absurd hRead.symm hCmdId
    · rename_i hClear
      obtain hShadow | hPlain := hPlain
      · exact absurd hShadow hClear
      · rw [(readBack_eq_iff lease.cmdId).mpr hPlain] at hRead
        exact hRead

def Activity.file : Activity → Option Nat
  | .idle => none
  | .written => none
  | .opened _ i => some i
  | .locked _ i => some i
  | .matched _ i => some i

namespace LeaseDisk

/-- What every process may rely on: a file with a name or a descriptor is written no more. -/
structure Sound (s : LeaseDisk) : Prop where
  safe : s.Safe
  temp : ∀ i, s.temp = some i → i < s.next
  path : ∀ i, s.path = some i → i < s.next ∧ s.temp ≠ some i
  opened : ∀ process i, (s.activity process).file = some i → i < s.next ∧ s.temp ≠ some i
  lease : ∀ i lease, (s.inode i).lease = some lease → (s.inode i).text = leaseText lease ∧ Unmistakable lease
  matched : ∀ process cmdId i lease, s.activity process = .matched cmdId i → cmdId ≠ [] →
    (s.inode i).lease = some lease → lease.cmdId = cmdId

variable {s : LeaseDisk}

theorem Sound.become (h : s.Sound) {process : Nat} {activity : Activity}
    (hFile : ∀ i, activity.file = some i → i < s.next ∧ s.temp ≠ some i)
    (hMatched : ∀ cmdId i lease, activity = .matched cmdId i → cmdId ≠ [] → (s.inode i).lease = some lease →
      lease.cmdId = cmdId) : (s.become process activity).Sound where
  safe := h.safe
  temp := h.temp
  path := h.path
  opened := by
    intro other i hi
    simp only [LeaseDisk.become] at hi ⊢
    obtain rfl | hOther := eq_or_ne other process
    · rw [Function.update_self] at hi
      exact hFile i hi
    · rw [Function.update_of_ne hOther] at hi
      exact h.opened other i hi
  lease := h.lease
  matched := by
    intro other cmdId i lease hActivity
    simp only [LeaseDisk.become] at hActivity ⊢
    obtain rfl | hOther := eq_or_ne other process
    · rw [Function.update_self] at hActivity
      exact hMatched cmdId i lease hActivity
    · rw [Function.update_of_ne hOther] at hActivity
      exact h.matched other cmdId i lease hActivity

theorem Sound.rest (h : s.Sound) (process : Nat) {activity : Activity} (hRest : activity.file = none) :
    (s.become process activity).Sound := by
  apply h.become
  · intro i hi
    rw [hRest] at hi
    cases hi
  · rintro cmdId i lease rfl
    cases hRest

theorem Sound.withLock (h : s.Sound) (lock : Nat → Option Nat) : ({ s with lock := lock } : LeaseDisk).Sound :=
  ⟨h.safe, h.temp, h.path, h.opened, h.lease, h.matched⟩

theorem Sound.written (h : s.Sound) {lease : PriorityControlLeaseState} (hLease : Unmistakable lease) {t : Nat}
    {next : Nat} (hNext : s.next ≤ next) (ht : t < next) (hFree : ∀ i, i < s.next → s.temp ≠ some i → i ≠ t) :
    ({ s with
        inode := Function.update s.inode t ⟨leaseText lease, some lease⟩, next := next, temp := some t } :
      LeaseDisk).Sound where
  safe := h.safe
  temp := by
    intro i hi
    obtain rfl := Option.some.inj hi
    exact ht
  path := by
    intro i hi
    obtain ⟨hLt, hTemp⟩ := h.path i hi
    exact ⟨Nat.lt_of_lt_of_le hLt hNext, fun hEq => hFree i hLt hTemp (Option.some.inj hEq).symm⟩
  opened := by
    intro process i hi
    obtain ⟨hLt, hTemp⟩ := h.opened process i hi
    exact ⟨Nat.lt_of_lt_of_le hLt hNext, fun hEq => hFree i hLt hTemp (Option.some.inj hEq).symm⟩
  lease := by
    intro i found hFound
    dsimp only at hFound ⊢
    obtain rfl | hi := eq_or_ne i t
    · rw [Function.update_self] at hFound ⊢
      obtain rfl := Option.some.inj hFound
      exact ⟨rfl, hLease⟩
    · rw [Function.update_of_ne hi] at hFound ⊢
      exact h.lease i found hFound
  matched := by
    intro process cmdId i found hActivity hCmdId hFound
    obtain ⟨hLt, hTemp⟩ := h.opened process i (congrArg Activity.file hActivity)
    dsimp only at hFound
    rw [Function.update_of_ne (hFree i hLt hTemp)] at hFound
    exact h.matched process cmdId i found hActivity hCmdId hFound

theorem Sound.writeTemp (h : s.Sound) {lease : PriorityControlLeaseState} (hLease : Unmistakable lease) :
    (s.writeTemp lease).Sound := by
  unfold LeaseDisk.writeTemp
  split
  · rename_i t hTemp
    have hWritten := @Sound.written s h lease hLease t s.next (Nat.le_refl _) (h.temp t hTemp) (by
      rintro i - hFree rfl
      exact hFree hTemp)
    rw [← hTemp] at hWritten
    exact hWritten
  · apply h.written hLease (Nat.le_succ _) (Nat.lt_succ_self _)
    intro i hLt _
    exact Nat.ne_of_lt hLt

theorem Sound.install (h : s.Sound) (renamed : Bool) : (s.install renamed).Sound := by
  unfold LeaseDisk.install
  split
  · rename_i t hTemp
    have hGone : ∀ i, (none : Option Nat) ≠ some i := by
      intro i hi
      cases hi
    split
    · refine ⟨h.safe, ?_, ?_, ?_, h.lease, h.matched⟩
      · intro i hi
        cases hi
      · intro i hi
        obtain rfl := Option.some.inj hi
        exact ⟨h.temp t hTemp, hGone t⟩
      · intro process i hi
        exact ⟨(h.opened process i hi).1, hGone i⟩
    · refine ⟨h.safe, ?_, ?_, ?_, h.lease, h.matched⟩
      · intro i hi
        cases hi
      · intro i hi
        exact ⟨(h.path i hi).1, hGone i⟩
      · intro process i hi
        exact ⟨(h.opened process i hi).1, hGone i⟩
  · exact h

theorem Sound.unlinkPath (h : s.Sound) {cmdId : StdString}
    (hOwn : ∀ i lease, s.path = some i → (s.inode i).lease = some lease → cmdId ≠ [] → lease.cmdId = cmdId) :
    (s.unlinkPath cmdId).Sound := by
  unfold LeaseDisk.unlinkPath
  split
  · rename_i i hPath
    refine ⟨?_, h.temp, ?_, h.opened, h.lease, h.matched⟩
    · intro asked lease hMem hAsked
      obtain hOld | hNew := List.mem_append.mp hMem
      · exact h.safe asked lease hOld hAsked
      · obtain ⟨rfl, hLease⟩ := Prod.mk.inj (List.mem_singleton.mp hNew)
        exact hOwn i lease hPath hLease.symm hAsked
    · intro j hj
      cases hj
  · exact h

theorem Sound.step (h : s.Sound) {event : ProcessStep} (hCareful : s.Careful event) : (s.step event).Sound := by
  obtain ⟨process, call⟩ := event
  cases hActivity : s.activity process with
  | idle =>
    cases call with
    | writeTemp lease =>
      simp only [LeaseDisk.step, hActivity]
      simp only [Careful] at hCareful
      exact (h.writeTemp (unmistakable_of_plain hCareful)).rest process rfl
    | openPath cmdId =>
      simp only [LeaseDisk.step, hActivity]
      split
      · rename_i i hPath
        apply h.become
        · intro j hj
          obtain rfl := Option.some.inj hj
          exact h.path i hPath
        · rintro asked j lease ⟨⟩
      · exact h
    | install renamed | lockFile | compare read | unlinkPath =>
      simp only [LeaseDisk.step, hActivity]
      exact h
  | written =>
    cases call with
    | install renamed =>
      simp only [LeaseDisk.step, hActivity]
      exact (h.install renamed).rest process rfl
    | writeTemp lease | openPath cmdId | lockFile | compare read | unlinkPath =>
      simp only [LeaseDisk.step, hActivity]
      exact h
  | opened cmdId i =>
    cases call with
    | lockFile =>
      simp only [LeaseDisk.step, hActivity]
      split
      · apply (h.withLock _).become
        · intro j hj
          obtain rfl := Option.some.inj hj
          exact h.opened process i (congrArg Activity.file hActivity)
        · rintro asked j lease ⟨⟩
      · exact h.rest process rfl
    | writeTemp lease | install renamed | openPath asked | compare read | unlinkPath =>
      simp only [LeaseDisk.step, hActivity]
      exact h
  | locked cmdId i =>
    cases call with
    | compare read =>
      simp only [LeaseDisk.step, hActivity]
      simp only [Careful] at hCareful
      subst hCareful
      split
      · rename_i hMatches
        apply h.become
        · intro j hj
          obtain rfl := Option.some.inj hj
          exact h.opened process i (congrArg Activity.file hActivity)
        · rintro asked j lease ⟨⟩ hAsked hLease
          obtain ⟨hText, hOwn⟩ := h.lease i lease hLease
          rw [hText] at hMatches
          exact hOwn cmdId hAsked hMatches
      · exact (h.withLock _).rest process rfl
    | writeTemp lease | install renamed | openPath asked | lockFile | unlinkPath =>
      simp only [LeaseDisk.step, hActivity]
      exact h
  | matched cmdId i =>
    cases call with
    | unlinkPath =>
      simp only [LeaseDisk.step, hActivity]
      simp only [Careful, hActivity] at hCareful
      apply (Sound.withLock _ _).rest process rfl
      apply h.unlinkPath
      intro j lease hPath hLease hAsked
      obtain rfl := hCareful j hPath
      exact h.matched process cmdId j lease hActivity hAsked hLease
    | writeTemp lease | install renamed | openPath asked | lockFile | compare read =>
      simp only [LeaseDisk.step, hActivity]
      exact h

theorem sound_start (file : Option StdString) : (start file).Sound where
  safe := by
    intro cmdId lease hMem
    cases hMem
  temp := by
    intro i hi
    cases hi
  path := by
    intro i hi
    obtain ⟨text, -, rfl⟩ := Option.map_eq_some_iff.mp hi
    refine ⟨Nat.zero_lt_one, ?_⟩
    intro hTemp
    cases hTemp
  opened := by
    intro process i hi
    cases hi
  lease := by
    intro i lease hLease
    cases hLease
  matched := by
    intro process cmdId i lease hActivity
    cases hActivity

/-- In every interleaving of careful steps no release takes the lease of another command. -/
theorem release_safe_of_careful (file : Option StdString) (events : List ProcessStep)
    (hCareful : Run.Guarded step Careful (start file) events) :
    ∀ done, done <+: events → (Run.after step (start file) done).Safe := by
  intro done hDone
  exact (Run.invariant_along step Sound (sound_start file)
    (fun before event hBefore hSound => hSound.step (hCareful before event hBefore)) done hDone).safe

def leaseOf (cmdId : StdString) : PriorityControlLeaseState :=
  PriorityControlLease.leaseFor ⟨"lease".toList, "hmi".toList⟩ cmdId "m1".toList 12 1000 5000

def comparedLease : List ProcessStep :=
  [⟨0, .writeTemp (leaseOf "cmd-1".toList)⟩, ⟨0, .install true⟩, ⟨1, .openPath "cmd-1".toList⟩, ⟨1, .lockFile⟩,
    ⟨1, .compare true⟩]

theorem comparedLease_activity :
    (Run.after step (start none) comparedLease).activity 1 = .matched "cmd-1".toList 1 := by decide +kernel

theorem comparedLease_path : (Run.after step (start none) comparedLease).path = some 1 := by decide +kernel

theorem careful_unlink : (Run.after step (start none) comparedLease).Careful ⟨1, .unlinkPath⟩ := by
  unfold Careful
  rw [comparedLease_activity]
  intro j hj
  rw [comparedLease_path] at hj
  exact (Option.some.inj hj).symm

theorem release_safe_undisturbed :
    (Run.after step (start none) (comparedLease ++ [⟨1, .unlinkPath⟩])).Safe := by
  refine release_safe_of_careful _ _ ?_ _ (List.prefix_refl _)
  have hPlain : Plain (leaseOf "cmd-1".toList).cmdId := by decide
  have hUnlink := careful_unlink
  rw [comparedLease] at hUnlink
  rw [comparedLease]
  simp only [List.cons_append, List.nil_append, Run.guarded_cons]
  exact ⟨.inr hPlain, trivial, trivial, trivial, rfl, hUnlink, Run.guarded_nil _ _ _⟩

/-- A lease renamed onto the path between the comparison and the unlink is removed in place of the compared one. -/
theorem newer_lease_removed :
    ¬ (Run.after step (start none) (comparedLease ++
      [⟨0, .writeTemp (leaseOf "cmd-2".toList)⟩, ⟨0, .install true⟩, ⟨1, .unlinkPath⟩])).Safe := by
  intro hSafe
  have hRemoved := hSafe "cmd-1".toList (leaseOf "cmd-2".toList) (by decide +kernel) (by decide)
  exact absurd hRemoved (by decide)

end LeaseDisk

end EdgeGateway.PriorityControl
