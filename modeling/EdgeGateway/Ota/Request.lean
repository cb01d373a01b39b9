import EdgeGateway.Foundation.Numerals
import EdgeGateway.Models

/-! # Upgrade requests -/

namespace EdgeGateway.Ota

open Numerals

structure OtaRequest where
  jobId : StdString
  packageType : StdString := []
  artifactUrl : StdString
  version : StdString := []
  sha256 : StdString := []
  size : Nat := 0
deriving DecidableEq, Repr

structure MinioConfig where
  publicBaseUrl : StdString := []
  endpoint : StdString := []
  bucket : StdString := []
  basePath : StdString := []
deriving DecidableEq, Repr

structure OtaStorageConfig where
  provider : StdString := "local".toList
  minio : MinioConfig := {}
deriving DecidableEq, Repr

structure OtaConfig where
  enabled : Bool := false
  artifactBaseUrl : StdString := []
  downloadDir : StdString := "/opt/modbus-gateway/ota/downloads".toList
  stagingDir : StdString := "/opt/modbus-gateway/ota/staging".toList
  backupDir : StdString := "/opt/modbus-gateway/ota/backup".toList
  packageType : StdString := "tar.gz".toList
  applyScript : StdString := "/opt/modbus-gateway/bin/ota-apply.sh".toList
  rollbackScript : StdString := "/opt/modbus-gateway/bin/ota-rollback.sh".toList
  checksumRequired : Bool := true
  upgradeTimeoutSec : Int := 900
  downloadRetryCount : Int := 3
  maxArtifactBytes : Nat := 512 * 1024 * 1024
  minFreeBytes : Nat := 256 * 1024 * 1024
  storage : OtaStorageConfig := {}
deriving DecidableEq, Repr

def isSeparator (c : Char) : Bool := c == '/' || c == '\\'

def fileNameOf (path : StdString) : StdString := (path.reverse.takeWhile fun c => !isSeparator c).reverse

def joinPath (left right : StdString) : StdString :=
  match left.getLast? with
  | none => right
  | some tail => if isSeparator tail then left ++ right else left ++ '/' :: right

def isIdentifierChar (c : Char) : Bool := c.isAlphanum || c == '_' || c == '-' || c == '.'

def isSafeOtaId (value : StdString) : Bool :=
  !value.isEmpty && decide (value.length ≤ 128) && value.all isIdentifierChar

def hexValue (c : Char) : Int :=
  if '0' ≤ c ∧ c ≤ '9' then c.toNat - '0'.toNat
  else if 'a' ≤ c ∧ c ≤ 'f' then c.toNat - 'a'.toNat + 10
  else if 'A' ≤ c ∧ c ≤ 'F' then c.toNat - 'A'.toNat + 10
  else -1

def isSafeSha256 (value : StdString) : Bool :=
  value.isEmpty || (value.length == 64 && value.all fun c => decide (0 ≤ hexValue c))

def isSafeRelativeArtifactName (value : StdString) : Bool :=
  !value.isEmpty && decide (value.length ≤ 255) && !decide ("..".toList <:+: value) &&
    value.all isIdentifierChar

def isHttpsUrl (value : StdString) : Bool := "https://".toList.isPrefixOf value

def isHttpUrl (value : StdString) : Bool := "http://".toList.isPrefixOf value || isHttpsUrl value

def hasControlCharacter (value : StdString) : Bool := value.any fun c => decide (c.toNat < 0x20) || c.toNat == 0x7f

def afterScheme : StdString → Option StdString
  | [] => none
  | c :: rest => if "://".toList.isPrefixOf (c :: rest) then some (rest.drop 2) else afterScheme rest

def isUrlChar (c : Char) : Bool :=
  c.isAlphanum || ":/.-_~%?#[]@!$&()*+,;=".toList.contains c || c == Char.ofNat 39

def isSafeDownloadUrl (value : StdString) : Bool :=
  !value.isEmpty && decide (value.length ≤ 2048) && isHttpUrl value && !hasControlCharacter value &&
    !value.any QuotedText.isSpace && value.head? != some '-' &&
    (match afterScheme value with
      | none => false
      | some host => !host.isEmpty && host.head? != some '/') &&
    value.all isUrlChar

def percentDecode : StdString → StdString
  | '%' :: high :: low :: rest =>
    if 0 ≤ hexValue high ∧ 0 ≤ hexValue low then
      Char.ofNat (hexValue high * 16 + hexValue low).toNat :: percentDecode rest
    else '%' :: percentDecode (high :: low :: rest)
  | c :: rest => c :: percentDecode rest
  | [] => []

def hasPathTraversalSegment (value : StdString) : Bool :=
  let normalized := value.map fun c => if c = '\\' then '/' else c
  normalized == "..".toList || "../".toList.isPrefixOf normalized || decide ("/../".toList <:+: normalized) ||
    decide ("/..".toList <:+ normalized)

def beforeQuery (value : StdString) : StdString := value.takeWhile fun c => c != '?' && c != '#'

def pathPartForTraversalCheck (value : StdString) : StdString :=
  match afterScheme value with
  | none => beforeQuery value
  | some rest =>
    match rest.dropWhile (· != '/') with
    | [] => beforeQuery ['/']
    | path => beforeQuery path

def artifactFileName (value : StdString) : StdString :=
  if hasPathTraversalSegment (pathPartForTraversalCheck value) then [] else beforeQuery (fileNameOf value)

def validateOtaRequestFields (request : OtaRequest) : Except String Unit := do
  if !isSafeOtaId request.jobId then throw "invalid ota jobId"
  if !request.version.isEmpty && !isSafeOtaId request.version then throw "invalid ota version"
  if !isSafeSha256 request.sha256 then throw "invalid ota sha256"
  if !request.packageType.isEmpty && request.packageType != "full".toList &&
      request.packageType != "config".toList && request.packageType != "scada".toList then
    throw "unsupported ota packageType"
  if request.artifactUrl.isEmpty || hasControlCharacter request.artifactUrl then throw "invalid ota artifactUrl"
  if hasControlCharacter (percentDecode request.artifactUrl) then throw "invalid ota artifactUrl"
  let pathPart := pathPartForTraversalCheck request.artifactUrl
  if hasPathTraversalSegment pathPart || hasPathTraversalSegment (percentDecode pathPart) then
    throw "invalid ota artifactUrl"

def validateOtaSize (config : OtaConfig) (size : Nat) : Except String Unit :=
  if config.maxArtifactBytes = 0 ∨ size = 0 then .ok ()
  else if size > config.maxArtifactBytes then .error "ota artifact size exceeds maxArtifactBytes"
  else .ok ()

structure HttpUrl where
  host : StdString
  path : StdString := ['/']
  port : Int := 80
deriving DecidableEq, Repr

def stoi (text : StdString) : Except String Int :=
  match stoll text with
  | none => .error "stoi"
  | some (value, _) => if -(2 ^ 31) ≤ value ∧ value < 2 ^ 31 then .ok value else .error "stoi"

def parseHttpUrl (value : StdString) : Except String HttpUrl := do
  if !"http://".toList.isPrefixOf value then throw "byte-accurate ota download only supports http artifactUrl"
  let rest := value.drop "http://".toList.length
  let authority := rest.takeWhile (· != '/')
  let path := if rest.contains '/' then rest.dropWhile (· != '/') else ['/']
  let parsed ← (if authority.contains ':' then do
      let port ← stoi (authority.reverse.takeWhile (· != ':')).reverse
      pure { host := ((authority.reverse.dropWhile (· != ':')).drop 1).reverse, path, port }
    else pure { host := authority, path } : Except String HttpUrl)
  if parsed.host.isEmpty then throw "http artifactUrl host is empty"
  return parsed

section Source

variable (config : OtaConfig) (request : OtaRequest)

def buildMinioArtifactUrl : StdString :=
  let minio := config.storage.minio
  let package := request.version ++ '.' :: config.packageType
  let relative := !request.artifactUrl.isEmpty && !isHttpUrl request.artifactUrl
  if !minio.publicBaseUrl.isEmpty && relative then joinPath minio.publicBaseUrl request.artifactUrl
  else if !minio.publicBaseUrl.isEmpty && !request.version.isEmpty then joinPath minio.publicBaseUrl package
  else if minio.endpoint.isEmpty || minio.bucket.isEmpty then []
  else
    let bucket := joinPath minio.endpoint minio.bucket
    let base := if minio.basePath.isEmpty then bucket else joinPath bucket minio.basePath
    if relative then joinPath base request.artifactUrl
    else if !request.version.isEmpty then joinPath base package
    else []

/-- Where the artifact comes from; `present` is whether `artifactUrl` names a local file. -/
def resolveArtifactSource (present : Bool) : StdString :=
  if !request.artifactUrl.isEmpty && (isHttpUrl request.artifactUrl || present) then request.artifactUrl
  else if !request.artifactUrl.isEmpty && !config.artifactBaseUrl.isEmpty then
    joinPath config.artifactBaseUrl request.artifactUrl
  else
    let minioUrl := if config.storage.provider = "minio".toList then buildMinioArtifactUrl config request else []
    if !minioUrl.isEmpty then minioUrl
    else if !config.artifactBaseUrl.isEmpty && !request.version.isEmpty then
      joinPath config.artifactBaseUrl (request.version ++ '.' :: config.packageType)
    else request.artifactUrl

def resolveArtifactPath (present : Bool) : Except String StdString := do
  let named := if !request.version.isEmpty then
      let packageExtension := if request.packageType = "scada".toList then "kyscada".toList else config.packageType
      request.version ++ '.' :: packageExtension
    else artifactFileName (resolveArtifactSource config request present)
  let fileName ← (if named.isEmpty then
      if request.artifactUrl.isEmpty then pure (request.jobId ++ ".pkg".toList)
      else throw "invalid ota artifact file name"
    else pure named : Except String StdString)
  if !isSafeRelativeArtifactName fileName then throw "invalid ota artifact file name"
  return joinPath config.downloadDir fileName

end Source

end EdgeGateway.Ota
