import EdgeGateway.Ota.Verification

/-! # Runs without disturbance -/

namespace EdgeGateway.Ota

open Procedure

def pieces (size : Nat) : List Content :=
  List.replicate (size / 65536) (List.replicate 65536 0) ++
    if size % 65536 = 0 then [] else [List.replicate (size % 65536) 0]

def calmFile (size : Nat) : SourceFile := { size, chunks := pieces size }

def calmResponse (size : Nat) : HttpResponse where
  statusCode := 200
  contentLength := size
  chunked := false
  early := []
  body := (pieces size).map some

def calmDownloader (size : Nat) : Downloader where
  looks := []
  waited := true
  final := some (pieces size).flatten
  succeeded := true

def calm (named fetched : Bool) (size : Nat) : Surroundings where
  presentWhenNamed := named
  presentWhenFetched := fetched
  currentTimeMs _ := 0
  directoryReady _ := true
  freeBytes _ := none
  sourceFile _ := some (calmFile size)
  response _ := .ok (calmResponse size)
  downloader _ := some (calmDownloader size)
  targetOpened _ := true
  written _ := true
  toolAnswers _ := true
  shellInTime _ := true
  scriptSucceeds _ := true
  recordOpened _ := true

theorem pieces_length (size : Nat) : ((pieces size).map List.length).sum = size := by
  rw [pieces, List.map_append, List.sum_append, List.map_replicate, List.length_replicate, List.sum_replicate_nat]
  split
  case isTrue h =>
    rw [List.map_nil, List.sum_nil]
    omega
  case isFalse h =>
    rw [List.map_singleton, List.sum_singleton, List.length_replicate]
    omega

variable {named fetched : Bool} {size : Nat} {config : OtaConfig} {request : OtaRequest} {P : Job → Prop}

theorem validateOtaSize_le {m n : Nat} (h : validateOtaSize config n = .ok ()) (hLe : m ≤ n) :
    validateOtaSize config m = .ok () := by
  rw [validateOtaSize] at h ⊢
  split
  · rfl
  split
  case isTrue hMax hBig =>
    rw [if_neg (by omega), if_pos (by omega)] at h
    cases h
  case isFalse => rfl

theorem not_overdue (nowMs : Int) : overdue config nowMs nowMs = false := by
  rw [overdue, decide_eq_false_iff_not]
  omega

section Steps

variable (hP : Unreported P)

include hP

theorem ask_bind {α β : Type} (answer : α) {f : α → Step β} {Q : β → Job → Prop} {E : String → Job → Prop}
    (hf : Triple P (f answer) Q E) : Triple P (ask (fun _ => answer) >>= f) Q E :=
  Triple.bind (Q := fun a job => a = answer ∧ P job)
    (Triple.bind (Triple.get fun _ h => h) fun _ => Triple.bind
      (Triple.modify (Q := fun _ => P) fun s h => hP s _ _ _ h) fun _ => Triple.pure fun _ h => ⟨rfl, h⟩)
    fun a job h => by
      obtain ⟨rfl, h⟩ := h
      exact hf job h

theorem ensureDirectory_runs (path : StdString) : Runs P (ensureDirectory (calm named fetched size) path) := by
  rw [ensureDirectory]
  split
  · exact Runs.pure ()
  · exact ask_bind hP true (Runs.require rfl _)

theorem ensureFreeDiskSpace_runs (bytes : Nat) :
    Runs P (ensureFreeDiskSpace (calm named fetched size) config bytes) := by
  rw [ensureFreeDiskSpace]
  split
  · exact Runs.pure ()
  · exact ask_bind hP none (Runs.require rfl _)

theorem report_runs (status : OtaStatus → OtaStatus) : Runs P (report (calm named fetched size) config status) :=
  Runs.bind (Runs.modify fun job h => hP job _ _ _ h) fun _ =>
    Runs.bind (ensureDirectory_runs hP _) fun _ => Runs.modify fun job h => hP job _ _ _ h

theorem reportStage_runs (stage : String) (progress : Nat) (message : String) (ts : Int) :
    Runs P (reportStage (calm named fetched size) config stage progress message ts) := report_runs hP _

theorem reportDownloadProgress_runs (downloadedBytes totalBytes : Nat) (message : String) :
    Runs P (reportDownloadProgress (calm named fetched size) config downloadedBytes totalBytes message) :=
  ask_bind hP 0 (report_runs hP _)

variable (hArtifact : Unfetched P)

include hArtifact

omit hP in
theorem setArtifact_runs (artifact : Option Content) : Runs P (setArtifact artifact) :=
  Runs.modify fun job h => hArtifact job artifact h

theorem write_runs (chunk : Content) (message : String) : Runs P (write (calm named fetched size) chunk message) :=
  Runs.bind (Runs.modify fun job h => hArtifact job _ h) fun _ => ask_bind hP true (Runs.require rfl _)

theorem openTarget_runs (targetPath : StdString) : Runs P (openTarget (calm named fetched size) targetPath) :=
  ask_bind hP true (Runs.bind (Runs.require rfl _) fun _ => setArtifact_runs hArtifact _)

theorem copyChunks_runs (totalBytes : Nat) (chunks : List Content) (downloadedBytes : Nat) (lastReportMs : Int)
    (hSize : validateOtaSize config (downloadedBytes + (chunks.map List.length).sum) = .ok ()) :
    Triple P (copyChunks (calm named fetched size) config totalBytes chunks downloadedBytes lastReportMs)
      (fun n job => n = downloadedBytes + (chunks.map List.length).sum ∧ P job) fun _ _ => False := by
  induction chunks generalizing downloadedBytes lastReportMs with
  | nil => exact Triple.pure fun _ h => ⟨rfl, h⟩
  | cons chunk chunks ih =>
    rw [List.map_cons, List.sum_cons, ← Nat.add_assoc] at hSize ⊢
    refine Triple.bind (write_runs hP hArtifact _ _) fun _ => ?_
    refine Triple.bind (Runs.lift (validateOtaSize_le hSize (Nat.le_add_right _ _))) fun _ => ask_bind hP 0 ?_
    split
    · exact Triple.bind (reportDownloadProgress_runs hP _ _ _) fun _ => ih _ _ hSize
    · exact ih _ _ hSize

theorem copyArtifactWithProgress_runs (source targetPath : StdString)
    (hSize : validateOtaSize config request.size = .ok ()) :
    Runs P (copyArtifactWithProgress (calm named fetched request.size) config request source targetPath) := by
  have hTotal : (if (request.size : Int) > 0 then (request.size : Int).toNat else request.size) = request.size := by
    split <;> omega
  refine ask_bind hP (some (calmFile request.size)) ?_
  dsimp only [calmFile]
  rw [hTotal]
  refine Runs.bind (Runs.lift hSize) fun _ => Runs.bind (ensureFreeDiskSpace_runs hP _) fun _ => ?_
  refine Runs.bind (openTarget_runs hP hArtifact _) fun _ => ?_
  refine Runs.bind (reportDownloadProgress_runs hP _ _ _) fun _ => ask_bind hP 0 ?_
  have hPieces : validateOtaSize config (0 + ((pieces request.size).map List.length).sum) = .ok () := by
    rwa [pieces_length, Nat.zero_add]
  refine Triple.bind (copyChunks_runs hP hArtifact _ _ _ _ hPieces) fun downloadedBytes => ?_
  intro job h
  obtain ⟨hBytes, h⟩ := h
  rw [pieces_length, Nat.zero_add] at hBytes
  subst hBytes
  refine (ask_bind hP true ?_ : Runs P _) job h
  refine Runs.bind (Runs.require rfl _) fun _ => Runs.bind (Runs.require (by simp) _) fun _ => ?_
  exact reportDownloadProgress_runs hP _ _ _

theorem receiveBody_runs (contentLength : Nat) (chunks : List Content) (downloadedBytes : Nat) (lastReportMs : Int)
    (hSize : validateOtaSize config contentLength = .ok ())
    (hLength : downloadedBytes + (chunks.map List.length).sum = contentLength) :
    Triple P (receiveBody (calm named fetched size) config contentLength contentLength 0 (chunks.map some)
      downloadedBytes lastReportMs) (fun n job => n = contentLength ∧ P job) fun _ _ => False := by
  induction chunks generalizing downloadedBytes lastReportMs with
  | nil =>
    rw [List.map_nil, List.sum_nil, Nat.add_zero] at hLength
    rw [List.map_nil, receiveBody.eq_def]
    refine ask_bind hP 0 (Triple.bind (Runs.require ?_ _) fun _ => Triple.pure fun _ h => ⟨hLength, h⟩)
    rw [not_overdue, Bool.not_false]
  | cons chunk chunks ih =>
    rw [List.map_cons, List.sum_cons, ← Nat.add_assoc] at hLength
    rw [List.map_cons, receiveBody.eq_def]
    refine ask_bind hP 0 (Triple.bind (Runs.require ?_ _) fun _ => ?_)
    · rw [not_overdue, Bool.not_false]
    refine Triple.bind (write_runs hP hArtifact _ _) fun _ => ?_
    refine Triple.bind (Runs.lift (validateOtaSize_le hSize (by omega))) fun _ => ask_bind hP 0 ?_
    split
    · refine Triple.bind (reportDownloadProgress_runs hP _ _ _) fun _ => ?_
      split
      · exact Triple.pure fun _ h => ⟨by omega, h⟩
      · exact ih _ _ hLength
    · split
      · exact Triple.pure fun _ h => ⟨by omega, h⟩
      · exact ih _ _ hLength

theorem downloadHttpArtifact_runs (source targetPath : StdString) (hUrl : ∃ url, parseHttpUrl source = .ok url)
    (hSize : validateOtaSize config request.size = .ok ()) :
    Runs P (downloadHttpArtifact (calm named fetched request.size) config request source targetPath) := by
  obtain ⟨url, hUrl⟩ := hUrl
  have hTotal : (if request.size > 0 then request.size else request.size) = request.size := ite_self _
  refine Runs.bind (Runs.lift hUrl) fun _ => ask_bind hP (Except.ok (calmResponse request.size)) ?_
  dsimp only [calmResponse]
  rw [hTotal]
  refine Runs.bind (Runs.require rfl _) fun _ => Runs.bind (Runs.require rfl _) fun _ => ?_
  refine Runs.bind (Runs.lift hSize) fun _ => Runs.bind (ensureFreeDiskSpace_runs hP _) fun _ => ?_
  refine Runs.bind (reportDownloadProgress_runs hP _ _ _) fun _ => ask_bind hP 0 ?_
  refine Runs.bind (openTarget_runs hP hArtifact _) fun _ => ask_bind hP 0 ?_
  refine Runs.bind (ask_bind hP true (Runs.require rfl _)) fun _ => ?_
  have hPieces : ([] : Content).length + ((pieces request.size).map List.length).sum = request.size := by
    rw [pieces_length, List.length_nil, Nat.zero_add]
  refine Triple.bind (receiveBody_runs hP hArtifact _ _ _ _ hSize hPieces) fun downloadedBytes => ?_
  intro job h
  obtain ⟨hBytes, h⟩ := h
  subst hBytes
  refine (Runs.bind (Runs.require (by simp) _) fun _ => ?_ : Runs P _) job h
  exact Runs.bind (Runs.require (by simp) _) fun _ => reportDownloadProgress_runs hP _ _ _

theorem downloadExternalArtifact_runs (source : StdString) (hSafe : isSafeDownloadUrl source = true)
    (hSize : validateOtaSize config request.size = .ok ()) :
    Runs P (downloadExternalArtifact (calm named fetched request.size) config request source) := by
  have hBytes : (pieces request.size).flatten.length = request.size := by rw [List.length_flatten, pieces_length]
  refine Runs.bind (Runs.require hSafe _) fun _ => Runs.bind (setArtifact_runs hArtifact _) fun _ => ?_
  refine Runs.bind (reportDownloadProgress_runs hP _ _ _) fun _ => ask_bind hP (some (calmDownloader request.size)) ?_
  dsimp only [calmDownloader]
  refine ask_bind hP 0 (ask_bind hP 0 ?_)
  refine Runs.bind (Runs.pure _) fun _ => Runs.bind (Runs.require rfl _) fun _ => ?_
  refine Runs.bind (setArtifact_runs hArtifact _) fun _ => ?_
  rw [Option.map_some, Option.getD_some, hBytes]
  refine Runs.bind (Runs.lift hSize) fun _ => Runs.bind (reportDownloadProgress_runs hP _ _ _) fun _ => ?_
  exact Runs.bind (Runs.require rfl _) fun _ => Runs.require (by simp) _

theorem downloadArtifact_runs (targetPath : StdString)
    (hSource : Fetchable (resolveArtifactSource config request fetched))
    (hSize : validateOtaSize config request.size = .ok ()) :
    Runs P (downloadArtifact (calm named fetched request.size) config request targetPath) := by
  obtain ⟨hNonempty, hHttps, hHttp⟩ := hSource
  have hGiven : (!(resolveArtifactSource config request fetched).isEmpty) = true := by
    rw [Bool.not_eq_true', ← Bool.not_eq_true, List.isEmpty_iff]
    exact hNonempty
  have hFetch : Runs P (fetch (calm named fetched request.size) config request
      (resolveArtifactSource config request fetched) targetPath) := by
    refine Runs.bind (setArtifact_runs hArtifact _) fun _ => ?_
    split
    case isTrue h => exact downloadExternalArtifact_runs hP hArtifact _ (hHttps h) hSize
    case isFalse h =>
      split
      case isTrue hPlain => exact downloadHttpArtifact_runs hP hArtifact _ _ (hHttp (Bool.not_eq_true _ ▸ h) hPlain) hSize
      case isFalse => exact copyArtifactWithProgress_runs hP hArtifact _ _ hSize
  refine Runs.bind (Runs.require hGiven _) fun _ => ?_
  have hAttempts : ∀ attempts, 0 < attempts → Runs P (downloadAttempts (calm named fetched request.size) config request
      (resolveArtifactSource config request fetched) targetPath attempts attempts 1) := by
    intro attempts hPositive
    cases attempts with
    | zero => omega
    | succ attempts => exact Runs.tryCatch hFetch
  exact hAttempts _ (by omega)

end Steps

section Execution

variable {digest : Content → StdString}

def Started (job : Job) : Prop := ∃ run ∈ job.runs, run.script = .apply

theorem started_unreported : Unreported Started := fun _ _ _ _ h => h

theorem runScript_starts (hScript : config.applyScript ≠ []) :
    Triple (fun _ => True) (runScript (calm named fetched size) config.applyScript) (fun _ => Started)
      fun _ _ => False := by
  have hGiven : (!config.applyScript.isEmpty) = true := by
    rw [Bool.not_eq_true', ← Bool.not_eq_true, List.isEmpty_iff]
    exact hScript
  refine Triple.bind (Runs.require hGiven _) fun _ => ?_
  refine Triple.bind (Q := fun _ => Started) (Triple.modify fun job _ => ?_) fun _ =>
    ask_bind started_unreported true (Runs.require rfl _)
  exact ⟨_, List.mem_append_right _ (List.mem_singleton.mpr rfl), rfl⟩

theorem upgrade_starts (hDigest : request.sha256 = []) (hScript : config.applyScript ≠ [])
    (hSource : Fetchable (resolveArtifactSource config request fetched))
    (hSize : validateOtaSize config request.size = .ok ()) (artifactPath : StdString) :
    Triple (fun _ => True) (upgrade (calm named fetched request.size) config request digest artifactPath 0)
      (fun _ => Started) fun _ _ => False := by
  have hAny : Unreported fun _ => True := fun _ _ _ _ h => h
  have hAnyFile : Unfetched fun _ => True := fun _ _ h => h
  have hInTime : (!overdue config 0 0) = true := by rw [not_overdue, Bool.not_false]
  refine Triple.bind (ensureFreeDiskSpace_runs hAny _) fun _ => ?_
  refine Triple.bind (downloadArtifact_runs hAny hAnyFile _ hSource hSize) fun _ => ?_
  refine ask_bind hAny 0 (Triple.bind (Runs.require hInTime _) fun _ => ?_)
  refine ask_bind hAny 0 (Triple.bind (reportStage_runs hAny _ _ _ _) fun _ => ?_)
  have hSkip : verifyChecksum (calm named fetched request.size) config request digest = pure () := by
    rw [verifyChecksum, hDigest, List.isEmpty_nil, Bool.or_true, if_pos rfl]
  rw [hSkip]
  refine Triple.bind (Runs.pure ()) fun _ => ?_
  refine ask_bind hAny 0 (Triple.bind (Runs.require hInTime _) fun _ => ?_)
  exact ask_bind hAny 0 (Triple.bind (reportStage_runs hAny _ _ _ _) fun _ => runScript_starts hScript)

theorem execute_starts (h : Applicable config request) (hDigest : request.sha256 = []) (nowMs : Int) :
    ∃ around, Triple (fun _ => True) (execute around config request digest nowMs) (fun _ => Started)
      fun _ _ => False := by
  obtain ⟨named, artifactPath, hNamed⟩ := h.named
  obtain ⟨fetched, hSource⟩ := h.fetchable
  have hAny : Unreported fun _ => True := fun _ _ _ _ h => h
  refine ⟨calm named fetched request.size, ?_⟩
  refine Triple.bind (Runs.require h.enabled _) fun _ => Triple.bind (Runs.lift h.fields) fun _ => ?_
  refine Triple.bind (Runs.lift h.size) fun _ => Triple.bind (report_runs hAny _) fun _ => ?_
  refine Triple.bind (ensureDirectory_runs hAny _) fun _ => Triple.bind (ensureDirectory_runs hAny _) fun _ => ?_
  refine Triple.bind (ensureDirectory_runs hAny _) fun _ => ?_
  have hPath : resolveArtifactPath config request (calm named fetched request.size).presentWhenNamed =
      .ok artifactPath := hNamed
  rw [hPath]
  refine ask_bind hAny 0 (Triple.bind (Triple.tryCatch (upgrade_starts hDigest h.script hSource h.size _)
    fun _ _ hNever => hNever.elim) fun _ => ?_)
  refine ask_bind started_unreported true (Runs.bind (Runs.require rfl _) fun _ => ?_)
  refine ask_bind started_unreported true (Runs.bind (Runs.require rfl _) fun _ => ?_)
  exact ask_bind started_unreported 0 (reportStage_runs started_unreported _ _ _ _)

/-- Whatever the surroundings do, the apply script is given an artifact with the digest of the request. -/
def AppliesVerified (digest : Content → StdString) (config : OtaConfig) (request : OtaRequest) : Prop :=
  ∀ around nowMs job, job.runs = [] → ∀ run ∈ (exec (execute around config request digest nowMs) job).2.runs,
    run.script = .apply → Verified digest request run.artifact

def idle : Job := { status := ⟨"", 0, 0, 0, "", 0⟩, artifact := none }

theorem applies_verified_iff (hDigest : ∀ content, (digest content).length = 64)
    (hRequired : config.checksumRequired = true) :
    AppliesVerified digest config request ↔ (Applicable config request → request.sha256 ≠ []) := by
  constructor
  · intro h hApplicable hEmpty
    obtain ⟨around, hStarts⟩ := @execute_starts config request digest hApplicable hEmpty 0
    have hRun := hStarts idle trivial
    have hVerified := h around 0 idle rfl
    cases hEnd : exec (execute around config request digest 0) idle with
    | mk result job =>
      rw [hEnd] at hRun hVerified
      cases result with
      | error e => exact hRun
      | ok _ =>
        obtain ⟨run, hMem, hApply⟩ := hRun
        obtain ⟨content, -, hSame⟩ := hVerified run hMem hApply
        rw [SameDigest, hEmpty, List.map_nil, List.map_eq_nil_iff] at hSame
        have hLength := hDigest content
        rw [hSame] at hLength
        cases hLength
  · intro hGiven around nowMs job hIdle run hMem hApply
    have hStart : OnlyVerified digest config request job := by
      intro run hRun
      rw [hIdle] at hRun
      cases hRun
    obtain ⟨hApplicable, hVerified⟩ := (execute_keeps hRequired nowMs).exec hStart run hMem hApply
    exact hVerified (hGiven hApplicable)

def emptyDigest : StdString := "e3b0c44298fc1c149afbf4c8996fb92427ae41e4649b934ca495991b7852b855".toList

def emptyPackage (sha256 : StdString) : OtaRequest where
  jobId := "job-1".toList
  artifactUrl := "http://10.0.0.1/app.tar.gz".toList
  version := "1.0.1".toList
  sha256 := sha256

theorem applies_verified_iff_of_empty_package :
    AppliesVerified (fun _ => emptyDigest) { enabled := true } (emptyPackage emptyDigest) ↔
      (Applicable { enabled := true } (emptyPackage emptyDigest) → (emptyPackage emptyDigest).sha256 ≠ []) :=
  applies_verified_iff (fun _ => by decide) rfl

theorem package_without_digest_applied :
    ¬ AppliesVerified (fun _ => emptyDigest) { enabled := true } (emptyPackage []) := by
  intro h
  have hRuns : (exec (execute (calm false false 0) { enabled := true } (emptyPackage []) (fun _ => emptyDigest) 0)
      idle).2.runs = [{ script := .apply, artifact := some [] }] := by decide +kernel
  have hVerified := h (calm false false 0) 0 idle rfl
  rw [hRuns] at hVerified
  obtain ⟨content, -, hSame⟩ := hVerified _ (List.mem_singleton.mpr rfl) rfl
  have hDifferent : ¬ SameDigest emptyDigest [] := by
    rw [SameDigest]
    decide
  exact hDifferent hSame

end Execution

end EdgeGateway.Ota
