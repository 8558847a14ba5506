import SnowflakeConnector.FileTransferAgent.RemoteStorageUtil
import SnowflakeConnector.While

/-!
# SnowflakeConnector.FileTransferAgent

`lib/file_transfer_agent/file_transfer_agent.js` and `local_util.js`: a PUT of a stream, a
PUT of files and a GET.

What the agent meets is given: the answer to the command, the files that it finds, and for
each attempt at each file what the file system, the compression, the encryption and the
storage service come to.  A renewal leads to another attempt at the same file, so the loops
over the files may not end and are run with a number of turns.
-/

namespace SnowflakeConnector

namespace FileTransferAgent

/-! ## commands -/

inductive LocationType
  | remote (location : RemoteLocation)
  | localFs
  | other (name : String)
  deriving DecidableEq, Repr

inductive CommandType
  | upload
  | download
  | other (name : String)
  deriving DecidableEq, Repr

structure StageInfo where
  locationType : LocationType
  gcsAccessToken : Option String
  deriving DecidableEq, Repr

/-- The answer to a PUT. -/
structure PutData where
  command : CommandType
  stageInfo : StageInfo
  overwrite : Bool
  encryptionMaterial : Option EncryptionMaterial
  deriving DecidableEq, Repr

/-- The answer to a GET. -/
structure GetData where
  srcLocations : List String
  stageInfo : StageInfo
  encryptionMaterial : List EncryptionMaterial
  presignedUrls : Option (List (Option String))
  deriving DecidableEq, Repr

structure SrcFile where
  srcFileName : String
  srcFilePath : String
  srcFileSize : Nat
  deriving DecidableEq, Repr

/-- What `processFileCompressionType` decides for a file. -/
structure Compression where
  requireCompress : Bool
  dstFileName : String
  dstCompressionType : Option String
  deriving DecidableEq, Repr

/-- `initFileMetadata` of a PUT. -/
def initFileMetadata (data : PutData) (filesToPut : List SrcFile) : List Meta :=
  filesToPut.map fun file =>
    { srcFileName := file.srcFileName
      srcFilePath := file.srcFilePath
      dstFileName := ""
      srcFileSize := some file.srcFileSize
      overwrite := data.overwrite
      encryptionMaterial := data.encryptionMaterial }

/-- The presigned urls of a PUT are asked for on GCS without an access token. -/
def asksForUrls (stageInfo : StageInfo) : Bool :=
  stageInfo.locationType = .remote .gcs ∧ stageInfo.gcsAccessToken = none

/-- Asked for on S3 only; what comes of it otherwise is given. -/
def transferAccelerateConfig (stageInfo : StageInfo) (config : Except String Unit) :
    Except String Unit :=
  if stageInfo.locationType = .remote .s3 then config else .ok ()

/-! ## the upload of a stream -/

/-- What the upload of a stream meets. -/
structure StreamEvents where
  transferAccelerateConfig : Except String Unit
  presign : Except String (Option String)
  createClient : Except String (Option Client)
  digest : String
  lookupByEncoding : Except String (Option String)
  encryptFileStream : Except String (EncryptionMetadata × List UInt8)
  tries : Nat → Try

/-- `updateFileMetasWithPresignedUrl` of a stream, with what the request for the url comes to. -/
def streamUrl (stageInfo : StageInfo) (presign : Except String (Option String)) :
    Except String (Option String) :=
  if asksForUrls stageInfo = true then presign else .ok none

/-- The part of `execute` before the stream is uploaded. -/
def prepareStream (data : PutData) (srcLocation : String) (fileStream : List UInt8)
    (e : StreamEvents) : Except String Meta :=
  if data.command ≠ .upload then .error "Error: Incorrect UploadFileStream command"
  else
    match initFileMetadata data [⟨srcLocation, "", fileStream.length⟩] with
    | [file] => do
        transferAccelerateConfig data.stageInfo e.transferAccelerateConfig
        let presignedUrl ← streamUrl data.stageInfo e.presign
        match data.stageInfo.locationType with
        | .other _ => .error "TypeError: Cannot read properties of null (reading 'createClient')"
        | .localFs => .error "TypeError: storageClient.uploadOneFileStream is not a function"
        | .remote _ =>
            let client ← e.createClient
            let dstCompressionType ← e.lookupByEncoding
            .ok { file with
              presignedUrl
              client
              sha256Digest := some e.digest
              uploadSize := some fileStream.length
              dstCompressionType
              requireCompress := false
              dstFileName := file.srcFileName }
    | _ => .error "Error: UploadFileStream only allow 1 file"

/-- `execute` of a stream upload: nothing looks at the status that the upload leaves. -/
def executeStream (data : PutData) (srcLocation : String) (fileStream : List UInt8)
    (e : StreamEvents) : Except String Meta :=
  match prepareStream data srcLocation fileStream e with
  | .error err => .error err
  | .ok file =>
      match RemoteStorageUtil.uploadOneFileStream fileStream e.encryptFileStream e.tries file with
      | (.error err, _) => .error err
      | (.ok (), file) => .ok file

/-! ## one file -/

/-- What one attempt to upload a file meets; only the steps that are reached count. -/
structure UploadAttempt where
  mkdtemp : Except String Unit
  compressFileWithGZIP : Except String String
  getDigestAndSizeForFile : Except String (String × Nat)
  copy : Except String Unit
  encryptFile : Except String (EncryptionMetadata × String)
  tries : Nat → Try
  checks : Nat → HeaderOutcome
  rm : Except String Unit
  presign : Except String (Nat → Option String)

/-- What one attempt to download a file meets. -/
structure DownloadAttempt where
  mkdtemp : Except String Unit
  copy : Except String Nat
  remote : RemoteDownload

namespace LocalUtil

def uploadOneFileWithRetry (copy : Except String Unit) (file : Meta) : Except String Unit × Meta :=
  match copy with
  | .error err => (.error err, file)
  | .ok () => uploadFile (.file file.realSrcFilePath) none (.done none) file

def downloadOneFile (copy : Except String Nat) (file : Meta) : Except String Unit × Meta :=
  match copy with
  | .error err => (.error err, file)
  | .ok size => nativeDownloadFile (.done none) { file with dstFileSize := some size }

end LocalUtil

/-- The `try` block of `uploadOneFile`. -/
def tryUpload (location : LocationType) (a : UploadAttempt) (file : Meta) :
    Except String Unit × Meta :=
  match if file.requireCompress = true then a.compressFileWithGZIP else .ok file.srcFilePath with
  | .error err => (.error err, file)
  | .ok realSrcFilePath =>
      let file := { file with realSrcFilePath }
      match a.getDigestAndSizeForFile with
      | .error err => (.error err, file)
      | .ok (digest, size) =>
          let file := { file with sha256Digest := some digest, uploadSize := some size }
          match location with
          | .remote _ =>
              RemoteStorageUtil.uploadOneFileWithRetry a.encryptFile a.tries a.checks file
          | .localFs => LocalUtil.uploadOneFileWithRetry a.copy file
          | .other _ =>
              (.error "TypeError: Cannot read properties of null (reading 'uploadOneFileWithRetry')",
                file)

/-- An exception makes the status an error only if there is a status. -/
def caught (dstFileSize : Int) (details : String) (file : Meta) : Meta :=
  { file with
    dstFileSize := some dstFileSize
    resultStatus := file.resultStatus.map fun _ => .error
    errorDetails := some details }

/-- Uploads one file from a temporary directory, which is deleted at the end. -/
def uploadOneFile (location : LocationType) (a : UploadAttempt) (file : Meta) :
    Except String Meta :=
  match a.mkdtemp with
  | .error err => .error err
  | .ok () =>
      let file :=
        match tryUpload location a { file with realSrcFilePath := file.srcFilePath } with
        | (.ok (), file) => file
        | (.error err, file) =>
            caught 0 (err ++ " file=" ++ file.srcFileName ++ ", real file=" ++ file.realSrcFilePath)
              file
      match a.rm with
      | .error err => .error err
      | .ok () => .ok file

def tryDownload (location : LocationType) (a : DownloadAttempt) (file : Meta) :
    Except String Unit × Meta :=
  match location with
  | .remote _ => RemoteStorageUtil.downloadOneFile a.remote file
  | .localFs => LocalUtil.downloadOneFile a.copy file
  | .other _ =>
      (.error "TypeError: Cannot read properties of null (reading 'downloadOneFile')", file)

def downloadOneFile (location : LocationType) (a : DownloadAttempt) (file : Meta) :
    Except String Meta :=
  match a.mkdtemp with
  | .error err => .error err
  | .ok () =>
      match tryDownload location a file with
      | (.ok (), file) => .ok file
      | (.error err, file) => .ok (caught (-1) (err ++ " file=" ++ file.dstFileName) file)

/-! ## the loops over the files -/

/-- A file, its place among the files of the command and the attempts that are left. -/
structure Job (α : Type) where
  index : Nat
  file : Meta
  attempts : Nat → α

namespace Job

variable {α : Type}

/-- The same file once more. -/
def again (job : Job α) (file : Meta) : Job α :=
  { job with file, attempts := fun k => job.attempts (k + 1) }

def setClient (client : Option Client) (job : Job α) : Job α :=
  { job with file.client := client }

def setPresignedUrl (urls : Nat → Option String) (job : Job α) : Job α :=
  { job with file.presignedUrl := urls job.index }

end Job

/-- The files of the loop from `index` on, the files that a loop after it transfers, and
the results so far. -/
structure Progress (α : Type) where
  jobs : List (Job α)
  others : List (Job α)
  results : List Meta

section

variable {α : Type}

/-- One turn of `uploadFilesinSequential` and of `downloadFilesinSequential`, which differ
in how they transfer a file and in whether an error ends the loop.  `renewExpiredClient`
returns no client. -/
def filesTurn (transferOneFile : α → Meta → Except String Meta)
    (updateFileMetasWithPresignedUrl : α → Except String (Job α → Job α)) (breaks : Bool)
    (p : Progress α) : While.Turn (Progress α) (Except String (Progress α)) :=
  match p.jobs with
  | [] => .done (.ok p)
  | job :: jobs =>
      match transferOneFile (job.attempts 0) job.file with
      | .error err => .done (.error err)
      | .ok file =>
          if file.resultStatus = some .renewToken then
            .next { p with jobs := (job.again file :: jobs).map (Job.setClient none) }
          else if file.resultStatus = some .renewPresignedUrl then
            match updateFileMetasWithPresignedUrl (job.attempts 0) with
            | .error err => .done (.error err)
            | .ok update =>
                .next { p with
                  jobs := (job.again file :: jobs).map update
                  others := p.others.map update }
          else if breaks = true ∧ file.resultStatus = some .error then
            .done (.ok { p with jobs, results := p.results ++ [file] })
          else .next { p with jobs, results := p.results ++ [file] }

/-- `DATA_SIZE_THRESHOLD`. -/
def dataSizeThreshold : Nat := 67108864

/-- A file without a size is a small one. -/
def isLarge (job : Job α) : Bool :=
  match job.file.srcFileSize with
  | some size => dataSizeThreshold < size
  | none => false

/-- The start of `upload` and `download`: every file gets the client. -/
def startTransfers (locationType : LocationType) (createClient : Except String (Option Client))
    (jobs : List (Job α)) : Except String (List (Job α)) :=
  match locationType with
  | .remote _ => createClient.map fun client => jobs.map (Job.setClient client)
  | .localFs => .ok (jobs.map (Job.setClient none))
  | .other _ => .error "TypeError: Cannot read properties of null (reading 'createClient')"

def smallFileMetas (jobs : List (Job α)) : List (Job α) := jobs.filter fun job => !isLarge job

def largeFileMetas (jobs : List (Job α)) : List (Job α) := jobs.filter fun job => isLarge job

/-- `upload` and `download`: the small files, then the large ones. -/
def transferFiles (turn : Progress α → While.Turn (Progress α) (Except String (Progress α)))
    (fuel : Nat) (jobs : List (Job α)) : Option (Except String (List Meta)) :=
  match While.loop turn fuel ⟨smallFileMetas jobs, largeFileMetas jobs, []⟩ with
  | none => none
  | some (.error err) => some (.error err)
  | some (.ok p) =>
      match While.loop turn fuel ⟨p.others, [], p.results⟩ with
      | none => none
      | some (.error err) => some (.error err)
      | some (.ok p) => some (.ok p.results)

end

/-! ## PUT -/

/-- What a PUT of files meets: the steps before the first transfer, and the attempts at
each file. -/
structure PutEvents where
  fileName : String
  parseCommand : Except String (List SrcFile)
  processFileCompressionType : SrcFile → Except String Compression
  mkdir : Except String Unit
  transferAccelerateConfig : Except String Unit
  presign : Except String (Nat → Option String)
  createClient : Except String (Option Client)
  attempts : Nat → Nat → UploadAttempt

def Compression.apply (c : Compression) (file : Meta) : Meta :=
  { file with
    requireCompress := c.requireCompress
    dstFileName := c.dstFileName
    dstCompressionType := c.dstCompressionType }

/-- `updateFileMetasWithPresignedUrl` of a PUT, with what the requests for the urls come to. -/
def updatePutUrls (stageInfo : StageInfo) (presign : Except String (Nat → Option String)) :
    Except String (Job UploadAttempt → Job UploadAttempt) :=
  if asksForUrls stageInfo = true then presign.map Job.setPresignedUrl else .ok id

def requireFiles (fileName : String) (filesToPut : List SrcFile) : Except String Unit :=
  if filesToPut = [] then .error ("Error: No file found for: " ++ fileName) else .ok ()

/-- The directory of a stage on the local file system is made if it is missing. -/
def makeStage (stageInfo : StageInfo) (mkdir : Except String Unit) : Except String Unit :=
  if stageInfo.locationType = .localFs then mkdir else .ok ()

/-- The part of `execute` before the files are uploaded. -/
def preparePut (data : PutData) (e : PutEvents) : Except String (List (Job UploadAttempt)) := do
  let filesToPut ← e.parseCommand
  requireFiles e.fileName filesToPut
  let compressions ← filesToPut.mapM e.processFileCompressionType
  makeStage data.stageInfo e.mkdir
  transferAccelerateConfig data.stageInfo e.transferAccelerateConfig
  let update ← updatePutUrls data.stageInfo e.presign
  .ok ((List.zipWith Compression.apply compressions (initFileMetadata data filesToPut)).mapIdx
    fun index file => update ⟨index, file, e.attempts index⟩)

/-- `uploadFilesinSequential`: the loop ends at the first error. -/
def uploadTurn (stageInfo : StageInfo) : Progress UploadAttempt →
    While.Turn (Progress UploadAttempt) (Except String (Progress UploadAttempt)) :=
  filesTurn (uploadOneFile stageInfo.locationType) (fun a => updatePutUrls stageInfo a.presign) true

/-- The files of a PUT, ready for the first upload. -/
def putJobs (data : PutData) (e : PutEvents) : Except String (List (Job UploadAttempt)) :=
  preparePut data e >>= startTransfers data.stageInfo.locationType e.createClient

/-- `execute` of a PUT of files; it leaves the results. -/
def executePut (data : PutData) (e : PutEvents) (fuel : Nat) : Option (Except String (List Meta)) :=
  match putJobs data e with
  | .error err => some (.error err)
  | .ok jobs => transferFiles (uploadTurn data.stageInfo) fuel jobs

/-- A row of the result of a PUT. -/
structure PutRow where
  source : String
  target : String
  sourceSize : String
  targetSize : String
  sourceCompression : Option String
  targetCompression : Option String
  status : Option ResultStatus
  message : Option String
  deriving DecidableEq, Repr

def putRow (file : Meta) : Except String PutRow :=
  if file.resultStatus = some .error then
    .error ("Error: " ++ ((file.errorDetails.filter (· ≠ "")).getD
      ("Unknown error during PUT of file: " ++ file.srcFilePath)))
  else
    match file.srcFileSize, file.dstFileSize with
    | some srcFileSize, some dstFileSize =>
        .ok {
          source := file.srcFileName
          target := file.dstFileName
          sourceSize := toString srcFileSize
          targetSize := toString dstFileSize
          sourceCompression := file.srcCompressionType
          targetCompression := file.dstCompressionType
          status := file.resultStatus
          message := file.errorDetails }
    | _, _ => .error (typeErrorText "toString")

/-- `result` after a PUT. -/
def putResult (results : List Meta) : Except String (List PutRow) :=
  results.mapM putRow

/-! ## GET -/

structure GetEvents where
  parseCommand : Except String Unit
  mkdir : Except String Unit
  transferAccelerateConfig : Except String Unit
  createClient : Except String (Option Client)
  attempts : Nat → Nat → DownloadAttempt

/-- `updateFileMetasWithPresignedUrl` of a GET: the urls of the answer once more. -/
def updateGetUrls (data : GetData) : Except String (Job DownloadAttempt → Job DownloadAttempt) :=
  if data.stageInfo.locationType = .remote .gcs then
    match data.presignedUrls with
    | none => if data.srcLocations = [] then .ok id else .error (typeErrorText "0")
    | some urls => .ok (Job.setPresignedUrl fun index => (urls[index]?).join)
  else .ok id

/-- There is an encryption material for each file, or none at all. -/
def matchEncryptionMaterial (data : GetData) : Except String Unit :=
  if data.srcLocations.length ≠ data.encryptionMaterial.length ∧ data.encryptionMaterial ≠ [] then
    .error "Error: The number of downloading files doesn't match"
  else .ok ()

/-- The part of `execute` before the files are downloaded. -/
def prepareGet (data : GetData) (e : GetEvents) : Except String (List (Job DownloadAttempt)) := do
  matchEncryptionMaterial data
  e.parseCommand
  e.mkdir
  transferAccelerateConfig data.stageInfo e.transferAccelerateConfig
  let update ← updateGetUrls data
  .ok (data.srcLocations.mapIdx fun index fileName =>
    update {
      index
      file := {
        srcFileName := fileName
        srcFilePath := ""
        dstFileName := fileName
        encryptionMaterial := data.encryptionMaterial[index]? }
      attempts := e.attempts index })

/-- `downloadFilesinSequential`: an error does not end the loop. -/
def downloadTurn (data : GetData) : Progress DownloadAttempt →
    While.Turn (Progress DownloadAttempt) (Except String (Progress DownloadAttempt)) :=
  filesTurn (downloadOneFile data.stageInfo.locationType) (fun _ => updateGetUrls data) false

/-- The files of a GET, ready for the first download. -/
def getJobs (data : GetData) (e : GetEvents) : Except String (List (Job DownloadAttempt)) :=
  prepareGet data e >>= startTransfers data.stageInfo.locationType e.createClient

/-- `execute` of a GET; it leaves the results. -/
def executeGet (data : GetData) (e : GetEvents) (fuel : Nat) : Option (Except String (List Meta)) :=
  match getJobs data e with
  | .error err => some (.error err)
  | .ok jobs => transferFiles (downloadTurn data) fuel jobs

/-- A row of the result of a GET. -/
structure GetRow where
  file : String
  size : Option Int
  status : Option ResultStatus
  message : Option String
  deriving DecidableEq, Repr

def getRow (file : Meta) : GetRow where
  file := file.dstFileName
  size := file.dstFileSize
  status := file.resultStatus
  message := file.errorDetails

/-- `result` after a GET. -/
def getResult (results : List Meta) : List GetRow :=
  results.map getRow

end FileTransferAgent

end SnowflakeConnector
