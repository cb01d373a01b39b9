import EdgeGateway.Foundation.Procedure
import EdgeGateway.Ota.Request

/-! # The upgrade service

An upgrade fetches the artifact, verifies it and runs the apply script. Each question to the clock,
the file system, the network or the shell gets an answer of its own.
-/

namespace EdgeGateway.Ota

open Procedure

abbrev Content := List UInt8

structure OtaStatus where
  stage : String
  progress : Nat
  downloadedBytes : Nat
  totalBytes : Nat
  message : String
  ts : Int
deriving DecidableEq, Repr

inductive Script where
  | apply
  | rollback
deriving DecidableEq, Repr

structure ScriptRun where
  script : Script
  artifact : Option Content
deriving DecidableEq, Repr

structure Job where
  questions : Nat := 0
  status : OtaStatus
  reports : List OtaStatus := []
  artifact : Option Content
  runs : List ScriptRun := []
deriving DecidableEq, Repr

abbrev Step (α : Type) := Procedure Job String α

structure SourceFile where
  size : Int
  chunks : List Content

structure HttpResponse where
  statusCode : Int
  contentLength : Nat
  chunked : Bool
  early : Content
  body : List (Option Content)

structure Downloader where
  looks : List Content
  waited : Bool
  final : Option Content
  succeeded : Bool

structure Surroundings where
  presentWhenNamed : Bool
  presentWhenFetched : Bool
  currentTimeMs : Nat → Int
  directoryReady : Nat → Bool
  freeBytes : Nat → Option Nat
  sourceFile : Nat → Option SourceFile
  response : Nat → Except String HttpResponse
  downloader : Nat → Option Downloader
  targetOpened : Nat → Bool
  written : Nat → Bool
  toolAnswers : Nat → Bool
  shellInTime : Nat → Bool
  scriptSucceeds : Nat → Bool
  recordOpened : Nat → Bool

def ask {α : Type} (answers : Nat → α) : Step α := do
  let job ← get
  modify fun job => { job with questions := job.questions + 1 }
  return answers job.questions

def setArtifact (artifact : Option Content) : Step Unit := modify fun job => { job with artifact }

def appendArtifact (chunk : Content) : Step Unit :=
  modify fun job => { job with artifact := job.artifact.map (· ++ chunk) }

def startScript (script : Script) : Step Unit :=
  modify fun job => { job with runs := job.runs ++ [{ script, artifact := job.artifact }] }

variable (around : Surroundings) (config : OtaConfig) (request : OtaRequest)

def ensureDirectory (path : StdString) : Step Unit :=
  if path.isEmpty then pure ()
  else do require (← ask around.directoryReady) ("failed to create ota directory: " ++ String.ofList path)

def ensureFreeDiskSpace (expectedWriteBytes : Nat) : Step Unit :=
  if config.minFreeBytes = 0 ∧ expectedWriteBytes = 0 then pure ()
  else do
    let freeBytes ← ask around.freeBytes
    let required := min (config.minFreeBytes + expectedWriteBytes) (2 ^ 64 - 1)
    require (freeBytes.all fun free => decide (required ≤ free)) "ota free disk space is below required threshold"

def report (status : OtaStatus → OtaStatus) : Step Unit := do
  modify fun job => { job with status := status job.status }
  ensureDirectory around config.stagingDir
  modify fun job => { job with reports := job.reports ++ [job.status] }

def reportStage (stage : String) (progress : Nat) (message : String) (ts : Int) : Step Unit :=
  report around config fun status => { status with stage, progress, message, ts }

def downloadProgress (downloadedBytes totalBytes : Nat) : Nat :=
  if totalBytes = 0 then 0 else min 100 (downloadedBytes * 100 / totalBytes)

def reportDownloadProgress (downloadedBytes totalBytes : Nat) (message : String) : Step Unit := do
  let ts ← ask around.currentTimeMs
  report around config fun _ =>
    { stage := "downloading", downloadedBytes, totalBytes
      progress := downloadProgress downloadedBytes totalBytes, message, ts }

def overdue (startedAt nowMs : Int) : Bool :=
  decide (config.upgradeTimeoutSec > 0 ∧ nowMs - startedAt > config.upgradeTimeoutSec * 1000)

def openTarget (targetPath : StdString) : Step Unit := do
  require (← ask around.targetOpened) ("failed to open ota artifact target: " ++ String.ofList targetPath)
  setArtifact (some [])

def write (chunk : Content) (message : String) : Step Unit := do
  appendArtifact chunk
  require (← ask around.written) message

def checkSize (downloadedBytes : Nat) : Step Unit :=
  require (decide (¬ (request.size > 0 ∧ downloadedBytes ≠ request.size))) "ota artifact size mismatch"

def copyChunks (totalBytes : Nat) : List Content → Nat → Int → Step Nat
  | [], downloadedBytes, _ => pure downloadedBytes
  | chunk :: chunks, downloadedBytes, lastReportMs => do
    write around chunk "failed to copy artifact to staging"
    let downloadedBytes := downloadedBytes + chunk.length
    lift (validateOtaSize config downloadedBytes)
    let nowMs ← ask around.currentTimeMs
    if nowMs - lastReportMs ≥ 500 ∨ downloadedBytes = totalBytes then do
      reportDownloadProgress around config downloadedBytes totalBytes "copying artifact"
      copyChunks totalBytes chunks downloadedBytes nowMs
    else copyChunks totalBytes chunks downloadedBytes lastReportMs

def copyArtifactWithProgress (source targetPath : StdString) : Step Unit := do
  match ← ask around.sourceFile with
  | none => throw ("artifact source not found: " ++ String.ofList source)
  | some file => do
    let totalBytes := if file.size > 0 then file.size.toNat else request.size
    lift (validateOtaSize config totalBytes)
    ensureFreeDiskSpace around config totalBytes
    openTarget around targetPath
    reportDownloadProgress around config 0 totalBytes "copying artifact"
    let lastReportMs ← ask around.currentTimeMs
    let downloadedBytes ← copyChunks around config totalBytes file.chunks 0 lastReportMs
    require (← ask around.written) "failed to copy artifact to staging"
    checkSize request downloadedBytes
    reportDownloadProgress around config downloadedBytes totalBytes "artifact copied"

/-- The body as it comes; `none` is a failed receive, the end of the list a closed connection. -/
def receiveBody (contentLength totalBytes : Nat) (startedAt : Int) : List (Option Content) → Nat → Int → Step Nat
  | received, downloadedBytes, lastReportMs => do
    let nowMs ← ask around.currentTimeMs
    require (!overdue config startedAt nowMs) "ota http download timeout"
    match received with
    | [] => return downloadedBytes
    | none :: _ => throw "ota http recv failed"
    | some chunk :: received => do
      write around chunk "failed to write ota artifact"
      let downloadedBytes := downloadedBytes + chunk.length
      lift (validateOtaSize config downloadedBytes)
      let nowMs ← ask around.currentTimeMs
      if nowMs - lastReportMs ≥ 500 ∨ (totalBytes > 0 ∧ downloadedBytes ≥ totalBytes) then do
        reportDownloadProgress around config downloadedBytes totalBytes "downloading artifact"
        if contentLength > 0 ∧ downloadedBytes ≥ contentLength then return downloadedBytes
        else receiveBody contentLength totalBytes startedAt received downloadedBytes nowMs
      else if contentLength > 0 ∧ downloadedBytes ≥ contentLength then return downloadedBytes
      else receiveBody contentLength totalBytes startedAt received downloadedBytes lastReportMs

/-- What came in together with the header. -/
def receiveEarly (early : Content) (totalBytes : Nat) : Step Unit :=
  if early.isEmpty then do require (← ask around.written) "failed to write ota artifact"
  else do
    appendArtifact early
    lift (validateOtaSize config early.length)
    require (← ask around.written) "failed to write ota artifact"
    reportDownloadProgress around config early.length totalBytes "downloading artifact"

def downloadHttpArtifact (source targetPath : StdString) : Step Unit := do
  let _ ← lift (parseHttpUrl source)
  match ← ask around.response with
  | .error message => throw message
  | .ok response => do
    require (decide (200 ≤ response.statusCode ∧ response.statusCode < 300))
      ("ota http download failed status=" ++ toString response.statusCode)
    require (!response.chunked)
      "ota http chunked transfer is unsupported; server must return Content-Length"
    lift (validateOtaSize config response.contentLength)
    let totalBytes := if response.contentLength > 0 then response.contentLength else request.size
    ensureFreeDiskSpace around config totalBytes
    reportDownloadProgress around config 0 totalBytes "downloading artifact"
    let startedAt ← ask around.currentTimeMs
    openTarget around targetPath
    let lastReportMs ← ask around.currentTimeMs
    receiveEarly around config response.early totalBytes
    let downloadedBytes ← receiveBody around config response.contentLength totalBytes startedAt response.body
      response.early.length lastReportMs
    require (decide (¬ (response.contentLength > 0 ∧ downloadedBytes ≠ response.contentLength)))
      "ota http download incomplete"
    checkSize request downloadedBytes
    reportDownloadProgress around config downloadedBytes totalBytes "artifact downloaded"

def watchDownloader (totalBytes : Nat) (startedAt : Int) : List Content → Nat → Int → Step Unit
  | [], _, _ => pure ()
  | look :: looks, lastBytes, lastReportMs => do
    setArtifact (some look)
    let currentBytes := look.length
    let nowMs ← ask around.currentTimeMs
    if currentBytes ≠ lastBytes ∨ nowMs - lastReportMs ≥ 1000 then do
      reportDownloadProgress around config currentBytes totalBytes "downloading artifact"
      lift (validateOtaSize config currentBytes)
      require (!overdue config startedAt nowMs) "ota downloader timeout"
      watchDownloader totalBytes startedAt looks currentBytes nowMs
    else do
      lift (validateOtaSize config currentBytes)
      require (!overdue config startedAt nowMs) "ota downloader timeout"
      watchDownloader totalBytes startedAt looks lastBytes lastReportMs

def downloadExternalArtifact (source : StdString) : Step Unit := do
  require (isSafeDownloadUrl source) "ota artifact url rejected: unsafe scheme, characters, or leading dash"
  setArtifact none
  reportDownloadProgress around config 0 request.size "downloading artifact"
  match ← ask around.downloader with
  | none => throw "failed to fork ota downloader"
  | some downloader => do
    let lastReportMs ← ask around.currentTimeMs
    let startedAt ← ask around.currentTimeMs
    watchDownloader around config request.size startedAt downloader.looks 0 lastReportMs
    require downloader.waited "ota downloader waitpid failed"
    setArtifact downloader.final
    let finalBytes := (downloader.final.map List.length).getD 0
    lift (validateOtaSize config finalBytes)
    reportDownloadProgress around config finalBytes request.size "artifact downloaded"
    require downloader.succeeded "failed to download https artifact using curl/wget"
    checkSize request finalBytes

def fetch (source targetPath : StdString) : Step Unit := do
  setArtifact none
  if isHttpsUrl source then downloadExternalArtifact around config request source
  else if isHttpUrl source then downloadHttpArtifact around config request source targetPath
  else copyArtifactWithProgress around config request source targetPath

def downloadAttempts (source targetPath : StdString) (maxAttempts : Nat) : Nat → Nat → Step Unit
  | 0, _ => throw "failed to download artifact after retries: "
  | left + 1, attempt =>
    tryCatch (fetch around config request source targetPath) fun lastError => do
      setArtifact none
      if left = 0 then throw ("failed to download artifact after retries: " ++ lastError)
      else do
        reportDownloadProgress around config 0 request.size
          ("download retry " ++ toString (attempt + 1) ++ "/" ++ toString maxAttempts ++ ": " ++ lastError)
        downloadAttempts source targetPath maxAttempts left (attempt + 1)

def downloadArtifact (targetPath : StdString) : Step Unit := do
  let source := resolveArtifactSource config request around.presentWhenFetched
  require (!source.isEmpty) "ota artifact source is empty"
  let maxAttempts := (max 1 config.downloadRetryCount).toNat
  downloadAttempts around config request source targetPath maxAttempts maxAttempts 1

section Execution

variable (digest : Content → StdString)

/-- What the shell computes as the digest: nothing when there is no tool or no file. -/
def actualDigest (answers : Bool) (artifact : Option Content) : StdString :=
  match answers, artifact with
  | true, some content => digest content
  | _, _ => []

def verifyChecksum : Step Unit :=
  if !config.checksumRequired || request.sha256.isEmpty then pure ()
  else do
    let answers ← ask around.toolAnswers
    let job ← get
    let inTime ← ask around.shellInTime
    require (inTime && actualDigest digest answers job.artifact == request.sha256) "artifact sha256 mismatch"

def runScript (scriptPath : StdString) : Step Unit := do
  require (!scriptPath.isEmpty) "ota apply script is empty"
  startScript .apply
  require (← ask around.scriptSucceeds) "ota apply script failed"

def tryRollback : Step Bool :=
  if config.rollbackScript.isEmpty then pure false
  else do
    startScript .rollback
    ask around.scriptSucceeds

def upgrade (artifactPath : StdString) (startedAt : Int) : Step Unit := do
  ensureFreeDiskSpace around config request.size
  downloadArtifact around config request artifactPath
  require (!overdue config startedAt (← ask around.currentTimeMs)) "ota upgrade timeout after download"
  reportStage around config "verifying" 100 "verifying artifact" (← ask around.currentTimeMs)
  verifyChecksum around config request digest
  require (!overdue config startedAt (← ask around.currentTimeMs)) "ota upgrade timeout after verify"
  reportStage around config "applying" 100 "running apply script" (← ask around.currentTimeMs)
  runScript around config.applyScript

def upgradeFailed (message : String) : Step Unit := do
  let job ← get
  if job.status.stage = "applying" then do
    reportStage around config "rollback" 100 "running rollback script" (← ask around.currentTimeMs)
    let _ ← tryRollback around config
  require (← ask around.recordOpened) "failed to append ota failure history"
  reportStage around config "failed" 0 message (← ask around.currentTimeMs)
  throw message

def execute (nowMs : Int) : Step Unit := do
  require config.enabled "ota is disabled"
  lift (validateOtaRequestFields request)
  lift (validateOtaSize config request.size)
  report around config fun _ =>
    { stage := "accepted", progress := 0, downloadedBytes := 0, totalBytes := request.size
      message := "accepted", ts := nowMs }
  ensureDirectory around config.downloadDir
  ensureDirectory around config.stagingDir
  ensureDirectory around config.backupDir
  match resolveArtifactPath config request around.presentWhenNamed with
  | .error message => throw message
  | .ok artifactPath => do
    let startedAt ← ask around.currentTimeMs
    tryCatch (upgrade around config request digest artifactPath startedAt) (upgradeFailed around config)
    require (← ask around.recordOpened) "failed to write ota version marker"
    require (← ask around.recordOpened) "failed to append ota upgrade history"
    reportStage around config "completed" 100 "upgrade completed" (← ask around.currentTimeMs)

end Execution

end EdgeGateway.Ota
