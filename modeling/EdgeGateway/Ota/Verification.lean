import EdgeGateway.Ota.Service

/-! # What the apply script is given -/

namespace EdgeGateway.Ota

open Procedure

variable {around : Surroundings} {config : OtaConfig} {request : OtaRequest} {P : Job → Prop}

/-- The property says nothing about questions asked and stages reported. -/
def Unreported (P : Job → Prop) : Prop :=
  ∀ job questions status reports, P job → P { job with questions, status, reports }

def Unasked (P : Job → Prop) : Prop := ∀ job questions, P job → P { job with questions }

/-- The property stands questions and reports of a download. -/
structure Undisturbed (P : Job → Prop) : Prop where
  asked : Unasked P
  downloading : ∀ job status, status.stage = "downloading" → P job → P { job with status }
  reported : ∀ job, job.status.stage = "downloading" → P job → P { job with reports := job.reports ++ [job.status] }

theorem Unreported.unasked (h : Unreported P) : Unasked P :=
  fun job questions => h job questions job.status job.reports

theorem Unreported.undisturbed (h : Unreported P) : Undisturbed P where
  asked := h.unasked
  downloading job status _ := h job job.questions status job.reports
  reported job _ := h job job.questions job.status _

theorem ask_keeps {α : Type} (hP : Unasked P) (answers : Nat → α) : Keeps P (ask answers) :=
  Triple.bind (Triple.get fun _ h => h) fun _ => Triple.bind
    (Triple.modify (Q := fun _ => P) fun s h => hP s _ h) fun _ => Keeps.pure _

theorem ensureDirectory_keeps (hP : Unasked P) (path : StdString) : Keeps P (ensureDirectory around path) := by
  rw [ensureDirectory]
  split
  · exact Keeps.pure ()
  · exact Keeps.bind (ask_keeps hP _) fun _ => Keeps.require _ _

theorem ensureFreeDiskSpace_keeps (hP : Unasked P) (bytes : Nat) :
    Keeps P (ensureFreeDiskSpace around config bytes) := by
  rw [ensureFreeDiskSpace]
  split
  · exact Keeps.pure ()
  · exact Keeps.bind (ask_keeps hP _) fun _ => Keeps.require _ _

theorem report_triple {status : OtaStatus → OtaStatus} {Q : Job → Prop} (hP : Unasked P)
    (hStatus : ∀ job, P job → P { job with status := status job.status })
    (hReport : ∀ job, (∃ before, job.status = status before) → P job →
      Q { job with reports := job.reports ++ [job.status] }) :
    Triple P (report around config status) (fun _ => Q) fun _ => P := by
  have hNamed : Unasked fun job => P job ∧ ∃ before, job.status = status before :=
    fun job questions h => ⟨hP job questions h.1, h.2⟩
  refine Triple.bind (Triple.modify (Q := fun _ job => P job ∧ ∃ before, job.status = status before)
    fun job h => ⟨hStatus job h, _, rfl⟩) fun _ => ?_
  refine Triple.bind (Triple.weaken (ensureDirectory_keeps hNamed _) (fun _ h => h) (fun _ _ h => h) fun _ _ h => h.1)
    fun _ => ?_
  exact Triple.modify fun job h => hReport job h.2 h.1

theorem reportDownloadProgress_keeps (hP : Undisturbed P) (downloadedBytes totalBytes : Nat) (message : String) :
    Keeps P (reportDownloadProgress around config downloadedBytes totalBytes message) := by
  refine Keeps.bind (ask_keeps hP.asked _) fun _ =>
    report_triple hP.asked (fun job h => hP.downloading job _ rfl h) ?_
  rintro job ⟨before, hStatus⟩ h
  exact hP.reported job (by rw [hStatus]) h

theorem report_keeps (hP : Unreported P) (status : OtaStatus → OtaStatus) : Keeps P (report around config status) :=
  report_triple hP.unasked (fun job h => hP job _ _ _ h) fun job _ h => hP job _ _ _ h

theorem reportStage_keeps (hP : Unreported P) (stage : String) (progress : Nat) (message : String) (ts : Int) :
    Keeps P (reportStage around config stage progress message ts) := report_keeps hP _

section Download

/-- Nor does it say anything about the artifact file. -/
def Unfetched (P : Job → Prop) : Prop := ∀ job artifact, P job → P { job with artifact }

variable (hP : Undisturbed P) (hArtifact : Unfetched P)

include hP hArtifact

omit hP in
theorem setArtifact_keeps (artifact : Option Content) : Keeps P (setArtifact artifact) :=
  Keeps.modify fun job h => hArtifact job artifact h

theorem write_keeps (chunk : Content) (message : String) : Keeps P (write around chunk message) :=
  Keeps.bind (Keeps.modify fun job h => hArtifact job _ h) fun _ =>
    Keeps.bind (ask_keeps hP.asked _) fun _ => Keeps.require _ _

theorem openTarget_keeps (targetPath : StdString) : Keeps P (openTarget around targetPath) :=
  Keeps.bind (ask_keeps hP.asked _) fun _ => Keeps.bind (Keeps.require _ _) fun _ => setArtifact_keeps hArtifact _

theorem copyChunks_keeps (totalBytes : Nat) (chunks : List Content) (downloadedBytes : Nat) (lastReportMs : Int) :
    Keeps P (copyChunks around config totalBytes chunks downloadedBytes lastReportMs) := by
  induction chunks generalizing downloadedBytes lastReportMs with
  | nil => exact Keeps.pure _
  | cons chunk chunks ih =>
    refine Keeps.bind (write_keeps hP hArtifact _ _) fun _ => ?_
    refine Keeps.bind (Keeps.lift _) fun _ => Keeps.bind (ask_keeps hP.asked _) fun _ => ?_
    split
    · exact Keeps.bind (reportDownloadProgress_keeps hP _ _ _) fun _ => ih _ _
    · exact ih _ _

theorem copyArtifactWithProgress_keeps (source targetPath : StdString) :
    Keeps P (copyArtifactWithProgress around config request source targetPath) := by
  refine Keeps.bind (ask_keeps hP.asked _) fun file => ?_
  cases file with
  | none => exact Keeps.throw _
  | some file =>
    refine Keeps.bind (Keeps.lift _) fun _ => Keeps.bind (ensureFreeDiskSpace_keeps hP.asked _) fun _ => ?_
    refine Keeps.bind (openTarget_keeps hP hArtifact _) fun _ => ?_
    refine Keeps.bind (reportDownloadProgress_keeps hP _ _ _) fun _ => Keeps.bind (ask_keeps hP.asked _) fun _ => ?_
    refine Keeps.bind (copyChunks_keeps hP hArtifact _ _ _ _) fun _ => Keeps.bind (ask_keeps hP.asked _) fun _ => ?_
    refine Keeps.bind (Keeps.require _ _) fun _ => Keeps.bind (Keeps.require _ _) fun _ => ?_
    exact reportDownloadProgress_keeps hP _ _ _

theorem receiveBody_keeps (contentLength totalBytes : Nat) (startedAt : Int) (received : List (Option Content))
    (downloadedBytes : Nat) (lastReportMs : Int) :
    Keeps P (receiveBody around config contentLength totalBytes startedAt received downloadedBytes lastReportMs) := by
  induction received generalizing downloadedBytes lastReportMs with
  | nil =>
    rw [receiveBody.eq_def]
    exact Keeps.bind (ask_keeps hP.asked _) fun _ => Keeps.bind (Keeps.require _ _) fun _ => Keeps.pure _
  | cons chunk received ih =>
    rw [receiveBody.eq_def]
    refine Keeps.bind (ask_keeps hP.asked _) fun _ => Keeps.bind (Keeps.require _ _) fun _ => ?_
    cases chunk with
    | none => exact Keeps.throw _
    | some chunk =>
      refine Keeps.bind (write_keeps hP hArtifact _ _) fun _ => ?_
      refine Keeps.bind (Keeps.lift _) fun _ => Keeps.bind (ask_keeps hP.asked _) fun _ => ?_
      split
      · refine Keeps.bind (reportDownloadProgress_keeps hP _ _ _) fun _ => ?_
        split
        · exact Keeps.pure _
        · exact ih _ _
      · split
        · exact Keeps.pure _
        · exact ih _ _

theorem receiveEarly_keeps (early : Content) (totalBytes : Nat) :
    Keeps P (receiveEarly around config early totalBytes) := by
  rw [receiveEarly]
  split
  · exact Keeps.bind (ask_keeps hP.asked _) fun _ => Keeps.require _ _
  · refine Keeps.bind (Keeps.modify fun job h => hArtifact job _ h) fun _ => Keeps.bind (Keeps.lift _) fun _ => ?_
    refine Keeps.bind (ask_keeps hP.asked _) fun _ => Keeps.bind (Keeps.require _ _) fun _ => ?_
    exact reportDownloadProgress_keeps hP _ _ _

theorem downloadHttpArtifact_keeps (source targetPath : StdString) :
    Keeps P (downloadHttpArtifact around config request source targetPath) := by
  refine Keeps.bind (Keeps.lift _) fun _ => Keeps.bind (ask_keeps hP.asked _) fun response => ?_
  cases response with
  | error message => exact Keeps.throw _
  | ok response =>
    refine Keeps.bind (Keeps.require _ _) fun _ => Keeps.bind (Keeps.require _ _) fun _ => ?_
    refine Keeps.bind (Keeps.lift _) fun _ => Keeps.bind (ensureFreeDiskSpace_keeps hP.asked _) fun _ => ?_
    refine Keeps.bind (reportDownloadProgress_keeps hP _ _ _) fun _ => Keeps.bind (ask_keeps hP.asked _) fun _ => ?_
    refine Keeps.bind (openTarget_keeps hP hArtifact _) fun _ => Keeps.bind (ask_keeps hP.asked _) fun _ => ?_
    refine Keeps.bind (receiveEarly_keeps hP hArtifact _ _) fun _ => ?_
    refine Keeps.bind (receiveBody_keeps hP hArtifact _ _ _ _ _ _) fun _ => Keeps.bind (Keeps.require _ _) fun _ => ?_
    exact Keeps.bind (Keeps.require _ _) fun _ => reportDownloadProgress_keeps hP _ _ _

theorem watchDownloader_keeps (totalBytes : Nat) (startedAt : Int) (looks : List Content) (lastBytes : Nat)
    (lastReportMs : Int) : Keeps P (watchDownloader around config totalBytes startedAt looks lastBytes lastReportMs) := by
  induction looks generalizing lastBytes lastReportMs with
  | nil => exact Keeps.pure _
  | cons look looks ih =>
    refine Keeps.bind (setArtifact_keeps hArtifact _) fun _ => Keeps.bind (ask_keeps hP.asked _) fun _ => ?_
    split
    · refine Keeps.bind (reportDownloadProgress_keeps hP _ _ _) fun _ => Keeps.bind (Keeps.lift _) fun _ => ?_
      exact Keeps.bind (Keeps.require _ _) fun _ => ih _ _
    · exact Keeps.bind (Keeps.lift _) fun _ => Keeps.bind (Keeps.require _ _) fun _ => ih _ _

theorem downloadExternalArtifact_keeps (source : StdString) :
    Keeps P (downloadExternalArtifact around config request source) := by
  refine Keeps.bind (Keeps.require _ _) fun _ => Keeps.bind (setArtifact_keeps hArtifact _) fun _ => ?_
  refine Keeps.bind (reportDownloadProgress_keeps hP _ _ _) fun _ => Keeps.bind (ask_keeps hP.asked _) fun downloader => ?_
  cases downloader with
  | none => exact Keeps.throw _
  | some downloader =>
    refine Keeps.bind (ask_keeps hP.asked _) fun _ => Keeps.bind (ask_keeps hP.asked _) fun _ => ?_
    refine Keeps.bind (watchDownloader_keeps hP hArtifact _ _ _ _ _) fun _ => Keeps.bind (Keeps.require _ _) fun _ => ?_
    refine Keeps.bind (setArtifact_keeps hArtifact _) fun _ => Keeps.bind (Keeps.lift _) fun _ => ?_
    refine Keeps.bind (reportDownloadProgress_keeps hP _ _ _) fun _ => Keeps.bind (Keeps.require _ _) fun _ => ?_
    exact Keeps.require _ _

theorem fetch_keeps (source targetPath : StdString) : Keeps P (fetch around config request source targetPath) := by
  refine Keeps.bind (setArtifact_keeps hArtifact _) fun _ => ?_
  split
  · exact downloadExternalArtifact_keeps hP hArtifact _
  split
  · exact downloadHttpArtifact_keeps hP hArtifact _ _
  · exact copyArtifactWithProgress_keeps hP hArtifact _ _

def Fetchable (source : StdString) : Prop :=
  source ≠ [] ∧
    (isHttpsUrl source = true → isSafeDownloadUrl source = true) ∧
    (isHttpsUrl source = false → isHttpUrl source = true → ∃ url, parseHttpUrl source = .ok url)

omit hP in
theorem fetch_fails {source : StdString} (hNonempty : source ≠ []) (hSource : ¬ Fetchable source)
    (targetPath : StdString) :
    Triple P (fetch around config request source targetPath) (fun _ _ => False) fun _ => P := by
  refine Triple.bind (setArtifact_keeps hArtifact _) fun _ => ?_
  split
  case isTrue hHttps =>
    refine Triple.require_bind (fun hSafe => ?_) fun _ => id
    refine absurd ⟨hNonempty, fun _ => hSafe, fun hNot => ?_⟩ hSource
    rw [hHttps] at hNot
    cases hNot
  case isFalse hHttps =>
    split
    case isTrue hHttp =>
      refine Triple.lift_bind (fun url hUrl => ?_) fun _ _ => id
      exact absurd ⟨hNonempty, fun h => absurd h hHttps, fun _ _ => ⟨url, hUrl⟩⟩ hSource
    case isFalse hHttp => exact absurd ⟨hNonempty, fun h => absurd h hHttps, fun _ h => absurd h hHttp⟩ hSource

theorem downloadAttempts_keeps (source targetPath : StdString) (maxAttempts left attempt : Nat) :
    Keeps P (downloadAttempts around config request source targetPath maxAttempts left attempt) := by
  induction left generalizing attempt with
  | zero => exact Keeps.throw _
  | succ left ih =>
    refine Keeps.tryCatch (fetch_keeps hP hArtifact _ _) fun _ => ?_
    refine Keeps.bind (setArtifact_keeps hArtifact _) fun _ => ?_
    split
    · exact Keeps.throw _
    · exact Keeps.bind (reportDownloadProgress_keeps hP _ _ _) fun _ => ih _

theorem downloadAttempts_fails {source : StdString} (hNonempty : source ≠ []) (hSource : ¬ Fetchable source)
    (targetPath : StdString) (maxAttempts left attempt : Nat) :
    Triple P (downloadAttempts around config request source targetPath maxAttempts left attempt)
      (fun _ _ => False) fun _ => P := by
  induction left generalizing attempt with
  | zero => exact Triple.throw fun _ => id
  | succ left ih =>
    refine Triple.tryCatch (fetch_fails hArtifact hNonempty hSource _) fun _ => ?_
    refine Triple.bind (setArtifact_keeps hArtifact _) fun _ => ?_
    split
    · exact Triple.throw fun _ => id
    · exact Triple.bind (reportDownloadProgress_keeps hP _ _ _) fun _ => ih _

theorem downloadArtifact_triple (targetPath : StdString) :
    Triple P (downloadArtifact around config request targetPath)
      (fun _ job => P job ∧ Fetchable (resolveArtifactSource config request around.presentWhenFetched))
      fun _ => P := by
  refine Triple.require_bind (fun hNonempty => ?_) fun _ => id
  by_cases hSource : Fetchable (resolveArtifactSource config request around.presentWhenFetched)
  · exact Triple.weaken (downloadAttempts_keeps hP hArtifact _ _ _ _ _) (fun _ => id) (fun _ _ h => ⟨h, hSource⟩)
      fun _ _ => id
  · have hNonempty : resolveArtifactSource config request around.presentWhenFetched ≠ [] := by
      intro hEmpty
      rw [hEmpty] at hNonempty
      cases hNonempty
    exact Triple.weaken (downloadAttempts_fails hP hArtifact hNonempty hSource _ _ _ _) (fun _ => id)
      (fun _ _ h => h.elim) fun _ _ => id

end Download

section Execution

variable {digest : Content → StdString}

def SameDigest (a b : StdString) : Prop := a.map Char.toLower = b.map Char.toLower

/-- What the request and the configuration decide about reaching the apply script. -/
structure Applicable (config : OtaConfig) (request : OtaRequest) : Prop where
  enabled : config.enabled = true
  fields : validateOtaRequestFields request = .ok ()
  size : validateOtaSize config request.size = .ok ()
  named : ∃ present path, resolveArtifactPath config request present = .ok path
  fetchable : ∃ present, Fetchable (resolveArtifactSource config request present)
  script : config.applyScript ≠ []

def Verified (digest : Content → StdString) (request : OtaRequest) (artifact : Option Content) : Prop :=
  ∃ content, artifact = some content ∧ SameDigest (digest content) request.sha256

theorem verified_of_actualDigest (answers : Bool) {artifact : Option Content} (hGiven : request.sha256 ≠ [])
    (h : actualDigest digest answers artifact = request.sha256) : Verified digest request artifact := by
  cases answers with
  | false => exact absurd h.symm hGiven
  | true =>
    cases artifact with
    | none => exact absurd h.symm hGiven
    | some content => exact ⟨content, rfl, congrArg _ h⟩

theorem verifyChecksum_triple (hP : Unreported P) (hRequired : config.checksumRequired = true) :
    Triple P (verifyChecksum around config request digest)
      (fun _ job => P job ∧ (request.sha256 ≠ [] → Verified digest request job.artifact)) fun _ => P := by
  rw [verifyChecksum]
  split
  case isTrue hSkip =>
    refine Triple.pure fun job h => ⟨h, fun hGiven => ?_⟩
    rw [hRequired, Bool.not_true, Bool.false_or] at hSkip
    exact absurd (List.isEmpty_iff.mp hSkip) hGiven
  case isFalse =>
    refine Triple.bind (ask_keeps hP.unasked _) fun answers => ?_
    refine Triple.bind (Triple.get (Q := fun seen job => P job ∧ seen = job) fun _ h => ⟨h, rfl⟩) fun seen => ?_
    have hKept : Unreported fun job => P job ∧ seen.artifact = job.artifact :=
      fun job q s r h => ⟨hP job q s r h.1, h.2⟩
    refine Triple.bind (Triple.weaken (ask_keeps hKept.unasked _) (fun _ h => ⟨h.1, congrArg _ h.2⟩) (fun _ _ => id)
      fun _ _ h => h.1) fun inTime => ?_
    refine Triple.require (fun hEqual job h => ⟨h.1, fun hGiven => ?_⟩) fun _ h => h.1
    obtain ⟨-, hEqual⟩ := Bool.and_eq_true _ _ ▸ hEqual
    apply verified_of_actualDigest answers hGiven
    rw [← h.2]
    exact eq_of_beq hEqual

def OnlyVerified (digest : Content → StdString) (config : OtaConfig) (request : OtaRequest) (job : Job) : Prop :=
  ∀ run ∈ job.runs, run.script = .apply →
    Applicable config request ∧ (request.sha256 ≠ [] → Verified digest request run.artifact)

theorem OnlyVerified.unreported : Unreported (OnlyVerified digest config request) := fun _ _ _ _ h => h

theorem OnlyVerified.unfetched : Unfetched (OnlyVerified digest config request) := fun _ _ h => h

theorem startScript_rollback_keeps : Keeps (OnlyVerified digest config request) (startScript .rollback) := by
  refine Keeps.modify fun job h run hRun hApply => ?_
  obtain hRun | hRun := List.mem_append.mp hRun
  · exact h run hRun hApply
  · rw [List.mem_singleton.mp hRun] at hApply
    cases hApply

theorem runScript_triple (hApplicable : config.applyScript ≠ [] → Applicable config request) :
    Triple (fun job => OnlyVerified digest config request job ∧
        (request.sha256 ≠ [] → Verified digest request job.artifact))
      (runScript around config.applyScript) (fun _ => OnlyVerified digest config request)
      fun _ => OnlyVerified digest config request := by
  refine Triple.require_bind (fun hScript => ?_) fun _ h => h.1
  have hScript : config.applyScript ≠ [] := by
    intro hEmpty
    rw [hEmpty] at hScript
    cases hScript
  refine Triple.bind (Q := fun _ => OnlyVerified digest config request) (Triple.modify fun job h run hRun hApply => ?_)
    fun _ => Keeps.bind (ask_keeps OnlyVerified.unreported.unasked _) fun _ => Keeps.require _ _
  obtain hRun | hRun := List.mem_append.mp hRun
  · exact h.1 run hRun hApply
  · rw [List.mem_singleton.mp hRun]
    exact ⟨hApplicable hScript, h.2⟩

theorem upgrade_keeps (hRequired : config.checksumRequired = true) (artifactPath : StdString) (startedAt : Int)
    (hApplicable : (∃ present, Fetchable (resolveArtifactSource config request present)) →
      config.applyScript ≠ [] → Applicable config request) :
    Keeps (OnlyVerified digest config request) (upgrade around config request digest artifactPath startedAt) := by
  have hUnreported := @OnlyVerified.unreported config request digest
  refine Keeps.bind (ensureFreeDiskSpace_keeps hUnreported.unasked _) fun _ => ?_
  refine Triple.bind (downloadArtifact_triple hUnreported.undisturbed OnlyVerified.unfetched _) fun _ => ?_
  by_cases hSource : Fetchable (resolveArtifactSource config request around.presentWhenFetched)
  case neg => exact fun job h => absurd h.2 hSource
  refine Triple.weaken (P := OnlyVerified digest config request) ?_ (fun _ h => h.1) (fun _ _ => id) fun _ _ => id
  refine Keeps.bind (ask_keeps hUnreported.unasked _) fun _ => Keeps.bind (Keeps.require _ _) fun _ => ?_
  refine Keeps.bind (ask_keeps hUnreported.unasked _) fun _ => Keeps.bind (reportStage_keeps hUnreported _ _ _ _) fun _ => ?_
  refine Triple.bind (verifyChecksum_triple hUnreported hRequired) fun _ => ?_
  -- From here on the artifact file stays as it was verified.
  have hVerified : Unreported fun job => OnlyVerified digest config request job ∧
      (request.sha256 ≠ [] → Verified digest request job.artifact) := fun _ _ _ _ h => h
  refine Triple.bind (Triple.weaken (ask_keeps hVerified.unasked _) (fun _ => id) (fun _ _ => id) fun _ _ h => h.1) fun _ => ?_
  refine Triple.require_bind (fun _ => ?_) fun _ h => h.1
  refine Triple.bind (Triple.weaken (ask_keeps hVerified.unasked _) (fun _ => id) (fun _ _ => id) fun _ _ h => h.1) fun _ => ?_
  refine Triple.bind (Triple.weaken (reportStage_keeps hVerified _ _ _ _) (fun _ => id) (fun _ _ => id) fun _ _ h => h.1)
    fun _ => ?_
  exact runScript_triple (hApplicable ⟨around.presentWhenFetched, hSource⟩)

theorem upgradeFailed_keeps (message : String) :
    Keeps (OnlyVerified digest config request) (upgradeFailed around config message) := by
  have hUnreported := @OnlyVerified.unreported config request digest
  have hRest : Keeps (OnlyVerified digest config request) (do
      require (← ask around.recordOpened) "failed to append ota failure history"
      reportStage around config "failed" 0 message (← ask around.currentTimeMs)
      throw message : Step Unit) := by
    refine Keeps.bind (ask_keeps hUnreported.unasked _) fun _ => Keeps.bind (Keeps.require _ _) fun _ => ?_
    refine Keeps.bind (ask_keeps hUnreported.unasked _) fun _ => Keeps.bind (reportStage_keeps hUnreported _ _ _ _) fun _ => ?_
    exact Keeps.throw _
  refine Triple.bind (Triple.get (Q := fun _ => OnlyVerified digest config request) fun _ h => h) fun job => ?_
  split
  · refine Keeps.bind (ask_keeps hUnreported.unasked _) fun _ => Keeps.bind (reportStage_keeps hUnreported _ _ _ _) fun _ => ?_
    refine Keeps.bind ?_ fun _ => hRest
    rw [tryRollback]
    split
    · exact Keeps.pure _
    · exact Keeps.bind startScript_rollback_keeps fun _ => ask_keeps hUnreported.unasked _
  · exact hRest

theorem execute_keeps (hRequired : config.checksumRequired = true) (nowMs : Int) :
    Keeps (OnlyVerified digest config request) (execute around config request digest nowMs) := by
  have hUnreported := @OnlyVerified.unreported config request digest
  refine Triple.require_bind (fun hEnabled => ?_) fun _ => id
  refine Triple.lift_bind (fun _ hFields => ?_) fun _ _ => id
  refine Triple.lift_bind (fun _ hSize => ?_) fun _ _ => id
  refine Keeps.bind (report_keeps hUnreported _) fun _ => ?_
  refine Keeps.bind (ensureDirectory_keeps hUnreported.unasked _) fun _ => ?_
  refine Keeps.bind (ensureDirectory_keeps hUnreported.unasked _) fun _ => ?_
  refine Keeps.bind (ensureDirectory_keeps hUnreported.unasked _) fun _ => ?_
  split
  case h_1 => exact Keeps.throw _
  case h_2 artifactPath hNamed =>
    refine Keeps.bind (ask_keeps hUnreported.unasked _) fun _ => Keeps.bind (Keeps.tryCatch ?_ upgradeFailed_keeps) fun _ => ?_
    · apply upgrade_keeps hRequired
      intro hFetchable hScript
      exact ⟨hEnabled, hFields, hSize, ⟨_, artifactPath, hNamed⟩, hFetchable, hScript⟩
    refine Keeps.bind (ask_keeps hUnreported.unasked _) fun _ => Keeps.bind (Keeps.require _ _) fun _ => ?_
    refine Keeps.bind (ask_keeps hUnreported.unasked _) fun _ => Keeps.bind (Keeps.require _ _) fun _ => ?_
    exact Keeps.bind (ask_keeps hUnreported.unasked _) fun _ => reportStage_keeps hUnreported _ _ _ _

end Execution

end EdgeGateway.Ota
