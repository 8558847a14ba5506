import Mathlib.Data.List.Infix
import SnowflakeConnector.Errors

/-!
# SnowflakeConnector.FileTransferAgent.StorageUtil

`lib/file_transfer_agent/s3_util.js`, `azure_util.js` and `gcs_util.js`: what a call to a
storage service leaves in the meta of a file.

A call reports through `meta.resultStatus`, through what it returns and by throwing.  The
three together are the *outcome* of the call; each service maps the answer of its own
client to an outcome, and an outcome is carried out on the meta.

* `uploadOutcome_done`, `downloadOutcome_done` -- a status says that a file went through
  only where the service has accepted the request.
* `headerOutcome_found` -- a file is reported as present only where its properties came back.
-/

namespace SnowflakeConnector

namespace FileTransferAgent

/-! ## statuses, errors, headers -/

/-- `resultStatus` of `lib/file_util.js`. -/
inductive ResultStatus
  | error
  | uploaded
  | downloaded
  | collision
  | skipped
  | renewToken
  | renewPresignedUrl
  | notFoundFile
  | needRetry
  | needRetryWithLowerConcurrency
  deriving DecidableEq, Repr

/-- An error of a storage client: the AWS `Code`, `name`, `code`, `statusCode`, the status
of its `response` (`none` when it carries no response) and its text.  A `code` that is a
string is a name such as `ERR_BAD_REQUEST`, not a number. -/
structure SdkError where
  awsCode : Option String
  name : String
  code : ErrCode
  statusCode : Option Nat
  status : Option Nat
  text : String
  deriving DecidableEq, Repr

structure EncryptionMetadata where
  key : String
  iv : String
  matDesc : Option String
  deriving DecidableEq, Repr

structure FileHeader where
  digest : Option String
  contentLength : Option Nat
  encryptionMetadata : Option EncryptionMetadata
  deriving DecidableEq, Repr

/-- `FileHeader(null, null, null)`. -/
def FileHeader.empty : FileHeader := ⟨none, none, none⟩

structure EncryptionMaterial where
  queryStageMasterKey : String
  queryId : String
  smkId : String
  deriving DecidableEq, Repr

/-! ## outcomes -/

/-- What a call of `getFileHeader` comes to. -/
inductive HeaderOutcome
  | found (header : FileHeader)
  | notFound
  | expiredToken (header : Option FileHeader) (lastError : Option SdkError)
  | needRetry (lastError : SdkError)
  | failed
  | unchanged (header : FileHeader)
  | raises (status : Option ResultStatus) (err : String)
  deriving DecidableEq, Repr

/-- What a call of `uploadFile`, `uploadFileStream` or `nativeDownloadFile` comes to; GCS
remembers the header of an object that went through. -/
inductive TransferOutcome
  | done (gcsFileHeader : Option FileHeader)
  | expiredToken (lastError : Option SdkError)
  | expiredUrl (lastError : SdkError)
  | needRetry (lastError : SdkError)
  | needRetryWithLowerConcurrency (lastError : SdkError)
  | raises (err : String)
  deriving DecidableEq, Repr

/-- What is uploaded: a stream of bytes, or the file at a path. -/
inductive Body
  | stream (data : List UInt8)
  | file (path : String)
  deriving DecidableEq, Repr

/-- A call to the storage service and its outcome. -/
inductive Exchange
  | header (outcome : HeaderOutcome)
  | upload (body : Body) (encryptionMetadata : Option EncryptionMetadata)
      (outcome : TransferOutcome)
  | download (outcome : TransferOutcome)
  deriving DecidableEq, Repr

/-! ## the meta of a file -/

/-- The client of GCS; the others build one for each call. -/
structure Client where
  gcsToken : String
  deriving DecidableEq, Repr

/-- The metadata of one file.  Compression types are kept by their names; `exchanges` is
what the storage service was asked for this file, which the code does not keep. -/
structure Meta where
  srcFileName : String
  srcFilePath : String
  dstFileName : String
  realSrcFilePath : String := ""
  srcFileSize : Option Nat := none
  uploadSize : Option Nat := none
  dstFileSize : Option Int := none
  sha256Digest : Option String := none
  srcCompressionType : Option String := none
  dstCompressionType : Option String := none
  requireCompress : Bool := false
  overwrite : Bool := false
  encryptionMaterial : Option EncryptionMaterial := none
  presignedUrl : Option String := none
  client : Option Client := none
  gcsFileHeader : Option FileHeader := none
  resultStatus : Option ResultStatus := none
  lastError : Option SdkError := none
  errorDetails : Option String := none
  exchanges : List Exchange := []
  deriving DecidableEq, Repr

namespace Meta

def record (file : Meta) (exchange : Exchange) : Meta :=
  { file with exchanges := file.exchanges ++ [exchange] }

def setStatus (file : Meta) (status : ResultStatus) : Meta :=
  { file with resultStatus := some status }

/-- A status that comes with an error; some calls do not keep the error. -/
def setFailure (file : Meta) (status : ResultStatus) (lastError : Option SdkError) : Meta :=
  { file with
    resultStatus := some status
    lastError := match lastError with
      | some err => some err
      | none => file.lastError }

section

variable (file : Meta) (exchange : Exchange) (status : ResultStatus) (lastError : Option SdkError)

@[simp] theorem record_resultStatus : (file.record exchange).resultStatus = file.resultStatus := rfl

@[simp] theorem record_overwrite : (file.record exchange).overwrite = file.overwrite := rfl

@[simp] theorem record_exchanges :
    (file.record exchange).exchanges = file.exchanges ++ [exchange] := rfl

@[simp] theorem setStatus_resultStatus : (file.setStatus status).resultStatus = some status := rfl

@[simp] theorem setStatus_overwrite : (file.setStatus status).overwrite = file.overwrite := rfl

@[simp] theorem setStatus_exchanges : (file.setStatus status).exchanges = file.exchanges := rfl

@[simp] theorem setFailure_resultStatus :
    (file.setFailure status lastError).resultStatus = some status := rfl

@[simp] theorem setFailure_overwrite :
    (file.setFailure status lastError).overwrite = file.overwrite := rfl

@[simp] theorem setFailure_exchanges :
    (file.setFailure status lastError).exchanges = file.exchanges := rfl

end

end Meta

/-- `getFileHeader`: asks for the properties of the remote file. -/
def getFileHeader (outcome : HeaderOutcome) (file : Meta) :
    Except String (Option FileHeader) × Meta :=
  let file := file.record (.header outcome)
  match outcome with
  | .found header => (.ok (some header), file.setStatus .uploaded)
  | .notFound => (.ok (some .empty), file.setStatus .notFoundFile)
  | .expiredToken header lastError => (.ok header, file.setFailure .renewToken lastError)
  | .needRetry lastError => (.ok none, file.setFailure .needRetry (some lastError))
  | .failed => (.ok none, file.setStatus .error)
  | .unchanged header => (.ok (some header), file)
  | .raises (some status) err => (.error err, file.setStatus status)
  | .raises none err => (.error err, file)

/-- How an upload or a download leaves the meta; `done` is for one that went through. -/
def carryOut (done : Option FileHeader → Meta → Meta) (outcome : TransferOutcome) (file : Meta) :
    Except String Unit × Meta :=
  match outcome with
  | .done gcsFileHeader => (.ok (), done gcsFileHeader file)
  | .expiredToken lastError => (.ok (), file.setFailure .renewToken lastError)
  | .expiredUrl lastError => (.ok (), file.setFailure .renewPresignedUrl (some lastError))
  | .needRetry lastError => (.ok (), file.setFailure .needRetry (some lastError))
  | .needRetryWithLowerConcurrency lastError =>
      (.ok (), file.setFailure .needRetryWithLowerConcurrency (some lastError))
  | .raises err => (.error err, file)

/-- `uploadFile` and `uploadFileStream`. -/
def uploadFile (body : Body) (encryptionMetadata : Option EncryptionMetadata)
    (outcome : TransferOutcome) (file : Meta) : Except String Unit × Meta :=
  carryOut
    (fun gcsFileHeader file =>
      { file.setStatus .uploaded with
        dstFileSize := file.uploadSize.map Int.ofNat
        gcsFileHeader })
    outcome (file.record (.upload body encryptionMetadata outcome))

def nativeDownloadFile (outcome : TransferOutcome) (file : Meta) : Except String Unit × Meta :=
  carryOut (fun gcsFileHeader file => { file.setStatus .downloaded with gcsFileHeader })
    outcome (file.record (.download outcome))

/-! ## the services -/

/-- The answer to a request for the properties of a file: the call threw before the request
was sent, the request failed, or the properties came back and reading them may throw. -/
inductive HeadReply
  | raises (err : String)
  | fails (err : SdkError)
  | answers (header : Except String FileHeader)

/-- The answer to an upload or a download: the call threw outside of the part that turns
errors into statuses, a request of it failed, or it went through. -/
inductive TransferReply
  | raises (err : String)
  | fails (err : SdkError)
  | succeeds (header : Option FileHeader)

/-- `obj.key` of `undefined`. -/
def typeErrorText (key : String) : String :=
  "TypeError: Cannot read properties of undefined (reading '" ++ key ++ "')"

def expiredTokenCode : String := "ExpiredToken"

/-- `ERRORNO_WSAECONNABORTED`: the network connection was aborted. -/
def wsaeConnAborted : Nat := 10053

namespace S3Util

def getFileHeader : HeadReply → HeaderOutcome
  | .raises err => .raises none err
  | .fails err =>
      if err.awsCode = some expiredTokenCode then .expiredToken none none
      else if err.name = "NotFound" then .notFound
      else if err.awsCode = some "400" then .expiredToken none none
      else .failed
  | .answers (.ok header) => .found header
  | .answers (.error err) => .raises (some .uploaded) err

/-- `applyS3UploadError`, and the same classification in `nativeDownloadFile`. -/
def applyS3Error (err : SdkError) : TransferOutcome :=
  if err.awsCode = some expiredTokenCode then .expiredToken none
  else if err.awsCode = some (toString wsaeConnAborted) then .needRetryWithLowerConcurrency err
  else .needRetry err

def transfer : TransferReply → TransferOutcome
  | .raises err => .raises err
  | .fails err => applyS3Error err
  | .succeeds _ => .done none

end S3Util

namespace AzureUtil

def getFileHeader : HeadReply → HeaderOutcome
  | .raises err => .raises none err
  | .fails err =>
      if err.code = .str expiredTokenCode then .expiredToken none none
      else if err.statusCode = some 404 then .notFound
      else if err.statusCode = some 400 then .expiredToken none none
      else .failed
  | .answers (.ok header) => .found header
  | .answers (.error err) => .raises (some .uploaded) err

def detectAzureTokenExpireError (err : SdkError) : Bool :=
  err.statusCode = some 403 ∧
    ("Signature not valid in the specified time frame".toList <:+: err.text.toList ∨
      "Server failed to authenticate the request.".toList <:+: err.text.toList)

/-- `applyAzureUploadError`, and the same classification in `nativeDownloadFile`. -/
def applyAzureError (err : SdkError) : TransferOutcome :=
  if err.statusCode = some 403 ∧ detectAzureTokenExpireError err = true then
    .expiredToken (some err)
  else .needRetry err

def transfer : TransferReply → TransferOutcome
  | .raises err => .raises err
  | .fails err => applyAzureError err
  | .succeeds _ => .done none

end AzureUtil

namespace GCSUtil

/-- The header that the meta remembers. -/
def cachedHeader (file : Meta) : FileHeader := file.gcsFileHeader.getD .empty

/-- The status of the response, where an error without one throws. -/
def responseStatus (err : SdkError) : Except String Nat :=
  match err.status with
  | some status => .ok status
  | none => .error (typeErrorText "status")

/-- A number in `code`, else the status of the response. -/
def errCode (err : SdkError) : Except String Nat :=
  match err.code with
  | .num code => .ok code
  | _ => responseStatus err

/-- The url is asked for in presigned mode, and only three statuses are looked at. -/
def getPresignedHeader : HeadReply → HeaderOutcome
  | .raises err => .raises none err
  | .answers _ => .unchanged .empty
  | .fails err =>
      match responseStatus err with
      | .error e => .raises none e
      | .ok status => if status ∈ [401, 403, 404] then .notFound else .unchanged .empty

def getTokenHeader : HeadReply → HeaderOutcome
  | .raises err => .raises none err
  | .answers (.ok header) => .found header
  | .answers (.error _) => .raises none (typeErrorText "status")
  | .fails err =>
      match errCode err with
      | .error e => .raises none e
      | .ok code =>
          if code ∈ [403, 408, 429, 500, 503] then .needRetry err
          else if code = 404 then .notFound
          else if code = 401 then .expiredToken (some .empty) (some err)
          else .raises (some .error) err.text

def getFileHeader (file : Meta) (reply : HeadReply) : HeaderOutcome :=
  if file.resultStatus = some .uploaded ∨ file.resultStatus = some .downloaded then
    .unchanged (cachedHeader file)
  else if file.presignedUrl.isSome = true then getPresignedHeader reply
  else if file.client.isNone = true then .raises none (typeErrorText "gcsToken")
  else getTokenHeader reply

/-- `code || status`. -/
def httpCode (err : SdkError) : ErrCode :=
  match err.code with
  | .undefined | .num 0 | .str "" =>
      match err.status with
      | some status => .num status
      | none => .undefined
  | code => code

def applyGcsUploadError (file : Meta) (err : SdkError) (hasAccessToken : Bool) :
    TransferOutcome :=
  if httpCode err ∈ [403, 408, 429, 500, 502, 503, 504].map ErrCode.num then .needRetry err
  else if hasAccessToken = true ∧ httpCode err = .num 401 then .expiredToken (some err)
  else if hasAccessToken = false ∧ httpCode err = .num 400 ∧
      file.lastError.map SdkError.code ≠ some (.num 400) then
    .expiredUrl err
  else .needRetry err

def upload (file : Meta) (reply : TransferReply) : TransferOutcome :=
  if file.presignedUrl.isNone = true ∧ file.client.isNone = true then
    .raises (typeErrorText "gcsToken")
  else
    match reply with
    | .raises err => .raises err
    | .fails err => applyGcsUploadError file err file.presignedUrl.isNone
    | .succeeds header => .done header

def nativeDownloadFile (file : Meta) (reply : TransferReply) : TransferOutcome :=
  if file.presignedUrl.isNone = true ∧ file.client.isNone = true then
    .raises (typeErrorText "gcsToken")
  else
    match reply with
    | .raises err => .raises err
    | .fails err =>
        if err.code = .str expiredTokenCode then .expiredToken none
        else if err.code = .num wsaeConnAborted then .needRetryWithLowerConcurrency err
        else .needRetry err
    | .succeeds header => .done header

end GCSUtil

/-- The location types of a stage that lives on a remote storage. -/
inductive RemoteLocation
  | s3
  | azure
  | gcs
  deriving DecidableEq, Repr

namespace RemoteLocation

/-- The outcome of `getFileHeader` of the service of a location. -/
def headerOutcome (file : Meta) (reply : HeadReply) : RemoteLocation → HeaderOutcome
  | .s3 => S3Util.getFileHeader reply
  | .azure => AzureUtil.getFileHeader reply
  | .gcs => GCSUtil.getFileHeader file reply

def uploadOutcome (file : Meta) (reply : TransferReply) : RemoteLocation → TransferOutcome
  | .s3 => S3Util.transfer reply
  | .azure => AzureUtil.transfer reply
  | .gcs => GCSUtil.upload file reply

def downloadOutcome (file : Meta) (reply : TransferReply) : RemoteLocation → TransferOutcome
  | .s3 => S3Util.transfer reply
  | .azure => AzureUtil.transfer reply
  | .gcs => GCSUtil.nativeDownloadFile file reply

/-- Only an answer that carries the properties of a file reports it as present. -/
theorem headerOutcome_found {l : RemoteLocation} {file : Meta} {reply : HeadReply}
    {header : FileHeader} (h : l.headerOutcome file reply = .found header) :
    reply = .answers (.ok header) := by
  rcases reply with err | err | (err | header') <;> cases l <;>
    grind [headerOutcome, S3Util.getFileHeader, AzureUtil.getFileHeader, GCSUtil.getFileHeader,
      GCSUtil.getPresignedHeader, GCSUtil.getTokenHeader]

/-- Only a request that succeeds is reported as an upload. -/
theorem uploadOutcome_done {l : RemoteLocation} {file : Meta} {reply : TransferReply}
    {gcsFileHeader : Option FileHeader} (h : l.uploadOutcome file reply = .done gcsFileHeader) :
    ∃ header, reply = .succeeds header := by
  cases l with
  | s3 => cases reply <;> grind [uploadOutcome, S3Util.transfer, S3Util.applyS3Error]
  | azure => cases reply <;> grind [uploadOutcome, AzureUtil.transfer, AzureUtil.applyAzureError]
  | gcs => cases reply <;> grind [uploadOutcome, GCSUtil.upload, GCSUtil.applyGcsUploadError]

theorem downloadOutcome_done {l : RemoteLocation} {file : Meta} {reply : TransferReply}
    {gcsFileHeader : Option FileHeader}
    (h : l.downloadOutcome file reply = .done gcsFileHeader) :
    ∃ header, reply = .succeeds header := by
  cases l with
  | s3 => cases reply <;> grind [downloadOutcome, S3Util.transfer, S3Util.applyS3Error]
  | azure =>
      cases reply <;> grind [downloadOutcome, AzureUtil.transfer, AzureUtil.applyAzureError]
  | gcs => cases reply <;> grind [downloadOutcome, GCSUtil.nativeDownloadFile]

end RemoteLocation

end FileTransferAgent

end SnowflakeConnector
