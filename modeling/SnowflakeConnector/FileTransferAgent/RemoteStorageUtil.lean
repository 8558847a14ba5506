import SnowflakeConnector.FileTransferAgent.StorageUtil

/-!
# SnowflakeConnector.FileTransferAgent.RemoteStorageUtil

`lib/file_transfer_agent/remote_storage_util.js`: the retry loops around the calls to a
storage service.  The outcomes of the calls are given, one for each turn of a loop; what is
left out is the waiting between two turns and the concurrency of a transfer.

What a turn does to the status of a file is decided by its outcomes (`Try.passEnd`), and so
is what a whole loop does (`passesEnd`).

* `uploadLoop_spec` -- a loop leaves the status, the confirmations and the exception that
  its outcomes say.
-/

namespace SnowflakeConnector

namespace FileTransferAgent

/-- `DEFAULT_MAX_RETRY`. -/
def defaultMaxRetry : Nat := 5

/-- The outcomes of one turn of the upload loop; only the calls that are made count. -/
structure Try where
  header : HeaderOutcome
  transfer : TransferOutcome
  deriving DecidableEq, Repr

/-! ## upload -/

/-- Looks for the remote file unless it is to be overwritten; `true` when it is there. -/
def skipsPresent (outcome : HeaderOutcome) (file : Meta) : Except String Bool × Meta :=
  if file.overwrite = true then (.ok false, file)
  else
    match getFileHeader outcome file with
    | (.error err, file) => (.error err, file)
    | (.ok fileHeader, file) =>
        if fileHeader.isSome = true ∧ file.resultStatus = some .uploaded then
          (.ok true, { file.setStatus .skipped with dstFileSize := some 0 })
        else (.ok false, file)

/-- The statuses that the upload loop returns with. -/
def returnsWith (status : Option ResultStatus) : Bool :=
  status = some .uploaded ∨ status = some .renewToken ∨ status = some .renewPresignedUrl

/-- The error that the loop keeps for the end. -/
def keepError (file : Meta) (lastErr : Option SdkError) : Option SdkError :=
  if file.resultStatus = some .needRetry ∨
      file.resultStatus = some .needRetryWithLowerConcurrency then
    file.lastError
  else lastErr

/-- The end of a turn, where the status decides whether the loop returns. -/
def endPass (r : Except String Unit × Meta) : Except String Bool × Meta :=
  (r.1.map fun _ => returnsWith r.2.resultStatus, r.2)

/-- One turn of the loop; `true` when the loop returns. -/
def uploadPass (body : Body) (encryptionMetadata : Option EncryptionMetadata) (t : Try)
    (file : Meta) : Except String Bool × Meta :=
  match skipsPresent t.header file with
  | (.error err, file) => (.error err, file)
  | (.ok true, file) => (.ok true, file)
  | (.ok false, file) =>
      endPass
        (if file.overwrite = true ∨ file.resultStatus = some .notFoundFile then
          uploadFile body encryptionMetadata t.transfer file
        else (.ok (), file))

/-- The loop of `uploadOneFileStream` and `uploadOneFile`; `name` is what the error of a
loop without one says. -/
def uploadLoop (body : Body) (encryptionMetadata : Option EncryptionMetadata) (name : String)
    (tries : Nat → Try) : Nat → Nat → Option SdkError → Meta → Except String Unit × Meta
  | 0, _, some lastErr, file => (.error ("Error: " ++ lastErr.text), file)
  | 0, _, none, file => (.error ("Error: Unknown Error in uploading a file: " ++ name), file)
  | left + 1, retry, lastErr, file =>
      match uploadPass body encryptionMetadata (tries retry) file with
      | (.error err, file) => (.error err, file)
      | (.ok true, file) => (.ok (), file)
      | (.ok false, file) =>
          uploadLoop body encryptionMetadata name tries left (retry + 1) (keepError file lastErr)
            file

namespace RemoteStorageUtil

/-- Encrypts, then uploads one file stream. -/
def uploadOneFileStream (fileStream : List UInt8)
    (encryptFileStream : Except String (EncryptionMetadata × List UInt8)) (tries : Nat → Try)
    (file : Meta) : Except String Unit × Meta :=
  if file.encryptionMaterial.isSome = true then
    match encryptFileStream with
    | .error err => (.error err, file)
    | .ok (encryptionMetadata, dataStream) =>
        uploadLoop (.stream dataStream) (some encryptionMetadata) file.srcFileName tries
          defaultMaxRetry 0 none file
  else
    uploadLoop (.stream fileStream) none file.srcFileName tries defaultMaxRetry 0 none file

/-- Encrypts, then uploads one file. -/
def uploadOneFile (encryptFile : Except String (EncryptionMetadata × String))
    (tries : Nat → Try) (file : Meta) : Except String Unit × Meta :=
  if file.encryptionMaterial.isSome = true then
    match encryptFile with
    | .error err => (.error err, file)
    | .ok (encryptionMetadata, dataFile) =>
        uploadLoop (.file dataFile) (some encryptionMetadata) dataFile tries defaultMaxRetry 0
          none file
  else
    uploadLoop (.file file.realSrcFilePath) none file.realSrcFilePath tries defaultMaxRetry 0
      none file

/-- Asks again, up to ten times, while the uploaded file is not found. -/
def checkUploaded (checks : Nat → HeaderOutcome) : Nat → Nat → Meta → Except String Unit × Meta
  | 0, _, file => (.ok (), file)
  | left + 1, y, file =>
      match getFileHeader (checks y) file with
      | (.error err, file) => (.error err, file)
      | (.ok _, file) =>
          if file.resultStatus = some .notFoundFile then checkUploaded checks left (y + 1) file
          else (.ok (), file)

/-- The outer loop is left after its first turn, so the branch after it is never taken. -/
def uploadOneFileWithRetry (encryptFile : Except String (EncryptionMetadata × String))
    (tries : Nat → Try) (checks : Nat → HeaderOutcome) (file : Meta) :
    Except String Unit × Meta :=
  match uploadOneFile encryptFile tries file with
  | (.error err, file) => (.error err, file)
  | (.ok (), file) =>
      if file.resultStatus = some .uploaded then checkUploaded checks 10 0 file
      else (.ok (), file)

end RemoteStorageUtil

/-! ## download -/

/-- What one download meets: `realpath`, the calls to the service, `decrypt` (with the
copying and the deletions after it) and the size of the file that was written. -/
structure RemoteDownload where
  realpath : Except String Unit
  header : HeaderOutcome
  transfers : Nat → TransferOutcome
  decrypt : Option EncryptionMetadata → Except String Unit
  size : Nat

/-- After a download: decrypts the file and notes its size. -/
def finishDownload (d : RemoteDownload) (fileHeader : Option FileHeader) (file : Meta) :
    Except String Unit × Meta :=
  if file.encryptionMaterial.isSome = true then
    -- only GCS has presigned urls, and it answers this call from the meta
    let (fileHeader, file) :=
      if file.presignedUrl.isSome = true then
        (some (GCSUtil.cachedHeader file),
          file.record (.header (.unchanged (GCSUtil.cachedHeader file))))
      else (fileHeader, file)
    match fileHeader with
    | none => (.error (typeErrorText "encryptionMetadata"), file)
    | some header =>
        match d.decrypt header.encryptionMetadata with
        | .error err => (.error err, file)
        | .ok () => (.ok (), { file with dstFileSize := some d.size })
  else (.ok (), { file with dstFileSize := some d.size })

def downloadLoop (d : RemoteDownload) (fileHeader : Option FileHeader) :
    Nat → Nat → Option SdkError → Meta → Except String Unit × Meta
  | 0, _, some lastErr, file => (.error ("Error: " ++ lastErr.text), file)
  | 0, _, none, file =>
      (.error ("Error: Unknown Error in downloading a file: " ++ file.srcFileName), file)
  | left + 1, retry, lastErr, file =>
      match nativeDownloadFile (d.transfers retry) file with
      | (.error err, file) => (.error err, file)
      | (.ok (), file) =>
          if file.resultStatus = some .downloaded then finishDownload d fileHeader file
          else if file.resultStatus = some .renewToken ∨
              file.resultStatus = some .renewPresignedUrl then
            (.ok (), file)
          else downloadLoop d fileHeader left (retry + 1) (keepError file lastErr) file

/-- Downloads a file. -/
def RemoteStorageUtil.downloadOneFile (d : RemoteDownload) (file : Meta) : Except String Unit × Meta :=
  match d.realpath with
  | .error err => (.error err, file)
  | .ok () =>
      match getFileHeader d.header file with
      | (.error err, file) => (.error err, file)
      | (.ok fileHeader, file) =>
          downloadLoop d fileHeader defaultMaxRetry 0 none
            (match fileHeader with
            | some header => { file with srcFileSize := header.contentLength }
            | none => file)

/-! ## what the outcomes of an upload come to -/

/-- How an upload ends: with a status, or with an exception; `noted` when a status was
written before the exception. -/
inductive UploadEnd
  | skipped
  | uploaded
  | renewed (url : Bool)
  | raised (noted : Bool)
  deriving DecidableEq, Repr

/-- How a turn ends; `noted` when it writes a status. -/
inductive PassEnd
  | ends (e : UploadEnd)
  | goesOn (noted : Bool)
  deriving DecidableEq, Repr

def TransferOutcome.passEnd : TransferOutcome → PassEnd
  | .done _ => .ends .uploaded
  | .expiredToken _ => .ends (.renewed false)
  | .expiredUrl _ => .ends (.renewed true)
  | .needRetry _ => .goesOn true
  | .needRetryWithLowerConcurrency _ => .goesOn true
  | .raises _ => .ends (.raised false)

def UploadEnd.note (noted : Bool) : UploadEnd → UploadEnd
  | .raised noted' => .raised (noted || noted')
  | e => e

def PassEnd.note (noted : Bool) : PassEnd → PassEnd
  | .ends e => .ends (e.note noted)
  | .goesOn noted' => .goesOn (noted || noted')

/-- How a turn ends, where no status of an earlier turn decides. -/
def Try.passEnd (overwrite : Bool) (t : Try) : PassEnd :=
  if overwrite = true then t.transfer.passEnd
  else
    match t.header with
    | .found _ => .ends .skipped
    | .notFound => t.transfer.passEnd.note true
    | .expiredToken _ _ => .ends (.renewed false)
    | .needRetry _ => .goesOn true
    | .failed => .goesOn true
    | .unchanged _ => .goesOn false
    | .raises status _ => .ends (.raised status.isSome)

/-- How the loop ends: as its first turn that does not go on, or with an exception. -/
def passesEnd (overwrite : Bool) (tries : Nat → Try) : Nat → Nat → UploadEnd
  | 0, _ => .raised false
  | left + 1, retry =>
      match (tries retry).passEnd overwrite with
      | .ends e => e
      | .goesOn noted => (passesEnd overwrite tries left (retry + 1)).note noted

/-- The call says that the file is on the storage, or came from it. -/
def Exchange.confirms : Exchange → Bool
  | .header (.found _) => true
  | .upload _ _ (.done _) => true
  | .download (.done _) => true
  | _ => false

namespace Meta

/-- A status that a turn does not end with. -/
def Idle (file : Meta) : Prop :=
  file.resultStatus ≠ some .uploaded ∧ file.resultStatus ≠ some .notFoundFile ∧
    file.resultStatus ≠ some .renewToken ∧ file.resultStatus ≠ some .renewPresignedUrl

/-- What the calls of an upload leave alone. -/
structure Keeps (file file' : Meta) : Prop where
  srcFileName : file'.srcFileName = file.srcFileName
  dstFileName : file'.dstFileName = file.dstFileName
  srcFileSize : file'.srcFileSize = file.srcFileSize
  uploadSize : file'.uploadSize = file.uploadSize
  requireCompress : file'.requireCompress = file.requireCompress
  overwrite : file'.overwrite = file.overwrite
  encryptionMaterial : file'.encryptionMaterial = file.encryptionMaterial
  presignedUrl : file'.presignedUrl = file.presignedUrl
  client : file'.client = file.client
  exchanges : file.exchanges <+: file'.exchanges

/-- Calls were made, and none of them confirms anything. -/
def Unconfirmed (file file' : Meta) : Prop :=
  ∀ x ∈ file'.exchanges, x.confirms = true → x ∈ file.exchanges

end Meta

/-- The status that asks for new credentials. -/
def renewStatus (url : Bool) : ResultStatus := if url = true then .renewPresignedUrl else .renewToken

/-- What an upload that ends so leaves; `a` is what it returns. -/
def UploadEnd.Leaves {α : Type} (a : α) (body : Body)
    (encryptionMetadata : Option EncryptionMetadata) (file : Meta)
    (r : Except String α × Meta) : UploadEnd → Prop
  | .skipped =>
      r.1 = .ok a ∧ r.2.resultStatus = some .skipped ∧ r.2.dstFileSize.isSome = true ∧
        ∃ header, .header (.found header) ∈ r.2.exchanges
  | .uploaded =>
      r.1 = .ok a ∧ r.2.resultStatus = some .uploaded ∧
        r.2.dstFileSize = file.uploadSize.map Int.ofNat ∧
        ∃ gcsFileHeader, .upload body encryptionMetadata (.done gcsFileHeader) ∈ r.2.exchanges
  | .renewed url =>
      r.1 = .ok a ∧ r.2.resultStatus = some (renewStatus url) ∧ file.Unconfirmed r.2
  | .raised noted =>
      (∃ err, r.1 = .error err) ∧ r.2.resultStatus.isSome = (file.resultStatus.isSome || noted)

namespace Meta

theorem Keeps.trans {file file' file'' : Meta} (h : file.Keeps file') (h' : file'.Keeps file'') :
    file.Keeps file'' where
  srcFileName := by rw [h'.srcFileName, h.srcFileName]
  dstFileName := by rw [h'.dstFileName, h.dstFileName]
  srcFileSize := by rw [h'.srcFileSize, h.srcFileSize]
  uploadSize := by rw [h'.uploadSize, h.uploadSize]
  requireCompress := by rw [h'.requireCompress, h.requireCompress]
  overwrite := by rw [h'.overwrite, h.overwrite]
  encryptionMaterial := by rw [h'.encryptionMaterial, h.encryptionMaterial]
  presignedUrl := by rw [h'.presignedUrl, h.presignedUrl]
  client := by rw [h'.client, h.client]
  exchanges := h.exchanges.trans h'.exchanges

theorem Unconfirmed.trans {file file' file'' : Meta} (h : file.Unconfirmed file')
    (h' : file'.Unconfirmed file'') : file.Unconfirmed file'' :=
  fun x hx hconfirms => h x (h' x hx hconfirms) hconfirms

theorem Keeps.refl (file : Meta) : file.Keeps file :=
  ⟨rfl, rfl, rfl, rfl, rfl, rfl, rfl, rfl, rfl, List.prefix_refl _⟩

theorem Unconfirmed.of_exchanges {file file' : Meta} {exchange : Exchange}
    (h : file'.exchanges = file.exchanges ++ [exchange]) (hconfirms : exchange.confirms = false) :
    file.Unconfirmed file' := by
  intro x hx hx'
  rw [h, List.mem_append, List.mem_singleton] at hx
  cases hx with
  | inl hx => exact hx
  | inr hx =>
      rw [hx, hconfirms] at hx'
      contradiction

end Meta

section

variable {body : Body} {encryptionMetadata : Option EncryptionMetadata} {t : Try} {file : Meta}

theorem keeps_getFileHeader (outcome : HeaderOutcome) (file : Meta) :
    file.Keeps (getFileHeader outcome file).2 := by
  unfold getFileHeader
  split <;>
    exact ⟨rfl, rfl, rfl, rfl, rfl, rfl, rfl, rfl, rfl,
      by simp [Meta.record, Meta.setStatus, Meta.setFailure]⟩

theorem keeps_uploadFile (outcome : TransferOutcome) (file : Meta) :
    file.Keeps (uploadFile body encryptionMetadata outcome file).2 := by
  unfold uploadFile carryOut
  split <;>
    exact ⟨rfl, rfl, rfl, rfl, rfl, rfl, rfl, rfl, rfl,
      by simp [Meta.record, Meta.setStatus, Meta.setFailure]⟩

/-- An upload that is not to be retried. -/
theorem uploadFile_ends {outcome : TransferOutcome} {e : UploadEnd}
    (h : outcome.passEnd = .ends e) :
    e.Leaves () body encryptionMetadata file (uploadFile body encryptionMetadata outcome file) := by
  cases outcome with
  | done gcsFileHeader =>
      cases h
      exact ⟨rfl, rfl, rfl, gcsFileHeader, by simp [uploadFile, carryOut]⟩
  | expiredToken lastError =>
      cases h
      exact ⟨rfl, rfl, .of_exchanges rfl rfl⟩
  | expiredUrl lastError =>
      cases h
      exact ⟨rfl, rfl, .of_exchanges rfl rfl⟩
  | needRetry lastError => cases h
  | needRetryWithLowerConcurrency lastError => cases h
  | raises err =>
      cases h
      exact ⟨⟨err, rfl⟩, by simp [uploadFile, carryOut]⟩

theorem uploadFile_goesOn {outcome : TransferOutcome} {noted : Bool}
    (h : outcome.passEnd = .goesOn noted) :
    ∃ file', uploadFile body encryptionMetadata outcome file = (.ok (), file') ∧ file'.Idle ∧
      file'.resultStatus.isSome = (file.resultStatus.isSome || noted) ∧ file.Unconfirmed file' := by
  cases outcome with
  | needRetry lastError =>
      cases h
      exact ⟨_, rfl, by simp [Meta.Idle], by simp, .of_exchanges rfl rfl⟩
  | needRetryWithLowerConcurrency lastError =>
      cases h
      exact ⟨_, rfl, by simp [Meta.Idle], by simp, .of_exchanges rfl rfl⟩
  | done _ | expiredToken _ | expiredUrl _ | raises _ => cases h

/-- What an upload leaves, seen from before the calls that came first. -/
theorem UploadEnd.Leaves.of_keeps {α : Type} {a : α} {file' : Meta} {noted : Bool} {e : UploadEnd}
    {r : Except String α × Meta} (h : e.Leaves a body encryptionMetadata file' r)
    (hkeeps : file.Keeps file') (hunconfirmed : file.Unconfirmed file')
    (hnoted : file'.resultStatus.isSome = (file.resultStatus.isSome || noted)) :
    (e.note noted).Leaves a body encryptionMetadata file r := by
  cases e with
  | skipped => exact h
  | uploaded =>
      obtain ⟨hok, hstatus, hsize, hexchange⟩ := h
      rw [hkeeps.uploadSize] at hsize
      exact ⟨hok, hstatus, hsize, hexchange⟩
  | renewed url => exact ⟨h.1, h.2.1, hunconfirmed.trans h.2.2⟩
  | raised noted' => exact ⟨h.1, by rw [h.2, hnoted, Bool.or_assoc]⟩

theorem endPass_ends {r : Except String Unit × Meta} {e : UploadEnd}
    (h : e.Leaves () body encryptionMetadata file r) (he : e ≠ .skipped) :
    e.Leaves true body encryptionMetadata file (endPass r) := by
  cases e with
  | skipped => exact absurd rfl he
  | uploaded =>
      obtain ⟨hok, hstatus, hrest⟩ := h
      exact ⟨by simp [endPass, hok, hstatus, returnsWith, Except.map], hstatus, hrest⟩
  | renewed url =>
      obtain ⟨hok, hstatus, hrest⟩ := h
      exact ⟨by cases url <;> simp [endPass, hok, hstatus, returnsWith, renewStatus, Except.map], hstatus, hrest⟩
  | raised noted =>
      obtain ⟨⟨err, herr⟩, hstatus⟩ := h
      exact ⟨⟨err, by simp [endPass, herr, Except.map]⟩, hstatus⟩

theorem endPass_goesOn (h : file.Idle) : endPass (.ok (), file) = (.ok false, file) := by
  simp [endPass, returnsWith, h.1, h.2.2.1, h.2.2.2, Except.map]

/-! ### a turn -/

theorem uploadPass_of_overwrite (h : file.overwrite = true) :
    uploadPass body encryptionMetadata t file =
      endPass (uploadFile body encryptionMetadata t.transfer file) := by
  simp [uploadPass, skipsPresent, h]

theorem uploadPass_of_notFound (h : file.overwrite = false) (hheader : t.header = .notFound) :
    uploadPass body encryptionMetadata t file =
      endPass (uploadFile body encryptionMetadata t.transfer
        ((file.record (.header .notFound)).setStatus .notFoundFile)) := by
  simp [uploadPass, skipsPresent, h, hheader, getFileHeader]

theorem TransferOutcome.passEnd_ne_skipped (outcome : TransferOutcome) :
    outcome.passEnd ≠ .ends .skipped := by
  cases outcome <;> simp [passEnd]

/-- Not found: the upload is made from here. -/
theorem keeps_notFound (file : Meta) :
    file.Keeps ((file.record (.header .notFound)).setStatus .notFoundFile) :=
  keeps_getFileHeader .notFound file

variable (body encryptionMetadata) in
theorem uploadPass_ends {e : UploadEnd} (h : t.passEnd file.overwrite = .ends e) :
    e.Leaves true body encryptionMetadata file (uploadPass body encryptionMetadata t file) := by
  unfold Try.passEnd at h
  cases hov : file.overwrite with
  | true =>
      rw [hov, if_pos rfl] at h
      rw [uploadPass_of_overwrite hov]
      have hne : e ≠ .skipped := by
        intro he
        exact t.transfer.passEnd_ne_skipped (by rw [h, he])
      exact endPass_ends (uploadFile_ends h) hne
  | false =>
      rw [hov, if_neg (by decide)] at h
      cases hheader : t.header with
      | notFound =>
          rw [hheader] at h
          rw [uploadPass_of_notFound hov hheader]
          cases hend : t.transfer.passEnd with
          | goesOn noted => rw [hend] at h; cases h
          | ends e' =>
              rw [hend] at h
              cases h
              have hne : e' ≠ .skipped := by
                intro he
                exact t.transfer.passEnd_ne_skipped (by rw [hend, he])
              exact (endPass_ends (uploadFile_ends hend) hne).of_keeps (keeps_notFound file)
                (.of_exchanges rfl rfl) (by simp)
      | found header =>
          rw [hheader] at h
          cases h
          simp [uploadPass, skipsPresent, hov, hheader, getFileHeader, UploadEnd.Leaves]
      | expiredToken header lastError =>
          rw [hheader] at h
          cases h
          have hpass : uploadPass body encryptionMetadata t file =
              (.ok true, (file.record (.header (.expiredToken header lastError))).setFailure
                .renewToken lastError) := by
            simp [uploadPass, skipsPresent, hov, hheader, getFileHeader, endPass, returnsWith,
              Except.map]
          rw [hpass]
          exact ⟨rfl, rfl, .of_exchanges rfl rfl⟩
      | raises status err =>
          rw [hheader] at h
          cases h
          cases status <;>
            simp [uploadPass, skipsPresent, hov, hheader, getFileHeader, UploadEnd.Leaves]
      | needRetry lastError => rw [hheader] at h; cases h
      | failed => rw [hheader] at h; cases h
      | unchanged header => rw [hheader] at h; cases h

variable (body encryptionMetadata) in
/-- A turn that goes on; only a call that leaves the status alone needs an earlier one that
does not end the turn. -/
theorem uploadPass_goesOn {noted : Bool} (h : t.passEnd file.overwrite = .goesOn noted)
    (hidle : (∃ header, t.header = .unchanged header) → file.overwrite = false → file.Idle) :
    ∃ file', uploadPass body encryptionMetadata t file = (.ok false, file') ∧ file'.Idle ∧
      file'.resultStatus.isSome = (file.resultStatus.isSome || noted) ∧ file.Unconfirmed file' := by
  unfold Try.passEnd at h
  cases hov : file.overwrite with
  | true =>
      rw [hov, if_pos rfl] at h
      obtain ⟨file', hfile, hidle', hnoted, hunconfirmed⟩ := uploadFile_goesOn h
      exact ⟨file', by rw [uploadPass_of_overwrite hov, hfile, endPass_goesOn hidle'], hidle',
        hnoted, hunconfirmed⟩
  | false =>
      rw [hov, if_neg (by decide)] at h
      cases hheader : t.header with
      | notFound =>
          rw [hheader] at h
          cases hend : t.transfer.passEnd with
          | ends e => rw [hend] at h; cases h
          | goesOn noted' =>
              rw [hend] at h
              cases h
              obtain ⟨file', hfile, hidle', hnoted, hunconfirmed⟩ := uploadFile_goesOn hend
              exact ⟨file',
                by rw [uploadPass_of_notFound hov hheader, hfile, endPass_goesOn hidle'], hidle',
                by rw [hnoted]; simp, Meta.Unconfirmed.trans (.of_exchanges rfl rfl) hunconfirmed⟩
      | unchanged header =>
          rw [hheader] at h
          cases h
          have hidle := hidle ⟨header, hheader⟩ hov
          have hidle' : (file.record (.header (.unchanged header))).Idle := hidle
          exact ⟨file.record (.header (.unchanged header)),
            by simp [uploadPass, skipsPresent, hov, hheader, getFileHeader, hidle.1, hidle.2.1,
              endPass_goesOn hidle'],
            hidle', by simp, .of_exchanges rfl rfl⟩
      | needRetry lastError =>
          rw [hheader] at h
          cases h
          exact ⟨(file.record (.header (.needRetry lastError))).setFailure .needRetry (some lastError),
            by simp [uploadPass, skipsPresent, hov, hheader, getFileHeader, endPass, returnsWith,
              Except.map],
            by simp [Meta.Idle], by simp, .of_exchanges rfl rfl⟩
      | failed =>
          rw [hheader] at h
          cases h
          exact ⟨(file.record (.header .failed)).setStatus .error,
            by simp [uploadPass, skipsPresent, hov, hheader, getFileHeader, endPass, returnsWith,
              Except.map],
            by simp [Meta.Idle], by simp, .of_exchanges rfl rfl⟩
      | found header => rw [hheader] at h; cases h
      | expiredToken header lastError => rw [hheader] at h; cases h
      | raises status err => rw [hheader] at h; cases h

theorem keeps_skipsPresent (outcome : HeaderOutcome) (file : Meta) :
    file.Keeps (skipsPresent outcome file).2 := by
  have hheader := keeps_getFileHeader outcome file
  unfold skipsPresent
  cases hov : file.overwrite with
  | true => rw [if_pos rfl]; exact .refl file
  | false =>
      rw [if_neg (by decide)]
      revert hheader
      obtain ⟨r, file'⟩ := getFileHeader outcome file
      intro hheader
      cases r with
      | error err => exact hheader
      | ok fileHeader =>
          dsimp only
          split
          · exact hheader.trans ⟨rfl, rfl, rfl, rfl, rfl, rfl, rfl, rfl, rfl, List.prefix_refl _⟩
          · exact hheader

variable (body encryptionMetadata) in
theorem keeps_uploadPass (t : Try) (file : Meta) :
    file.Keeps (uploadPass body encryptionMetadata t file).2 := by
  have hpresent := keeps_skipsPresent t.header file
  unfold uploadPass
  revert hpresent
  obtain ⟨r, file'⟩ := skipsPresent t.header file
  intro hpresent
  cases r with
  | error err => exact hpresent
  | ok present =>
      cases present with
      | true => exact hpresent
      | false =>
          unfold endPass
          dsimp only
          split
          · exact hpresent.trans (keeps_uploadFile t.transfer file')
          · exact hpresent

/-! ### the loop -/

theorem keeps_uploadLoop (name : String) (tries : Nat → Try) (left retry : Nat)
    (lastErr : Option SdkError) (file : Meta) :
    file.Keeps (uploadLoop body encryptionMetadata name tries left retry lastErr file).2 := by
  induction left generalizing retry lastErr file with
  | zero => cases lastErr <;> exact .refl file
  | succ left ih =>
      have hpass := keeps_uploadPass body encryptionMetadata (tries retry) file
      rw [uploadLoop]
      revert hpass
      obtain ⟨r, file'⟩ := uploadPass body encryptionMetadata (tries retry) file
      intro hpass
      cases r with
      | error err => exact hpass
      | ok returns =>
          cases returns with
          | true => exact hpass
          | false => exact hpass.trans (ih (retry + 1) (keepError file' lastErr) file')

/-- The loop leaves what its outcomes come to; only a call that leaves the status alone at
the first turn needs an earlier status that does not end the turn. -/
theorem uploadLoop_spec (name : String) (tries : Nat → Try) (left retry : Nat)
    (lastErr : Option SdkError) (file : Meta)
    (hidle : (∃ header, (tries retry).header = .unchanged header) → file.overwrite = false →
      file.Idle) :
    (passesEnd file.overwrite tries left retry).Leaves () body encryptionMetadata file
      (uploadLoop body encryptionMetadata name tries left retry lastErr file) := by
  induction left generalizing retry lastErr file with
  | zero =>
      cases lastErr with
      | none => exact ⟨⟨_, rfl⟩, by simp [uploadLoop]⟩
      | some err => exact ⟨⟨_, rfl⟩, by simp [uploadLoop]⟩
  | succ left ih =>
      rw [uploadLoop, passesEnd]
      cases hend : (tries retry).passEnd file.overwrite with
      | ends e =>
          have hpass := uploadPass_ends body encryptionMetadata hend
          revert hpass
          obtain ⟨r, file'⟩ := uploadPass body encryptionMetadata (tries retry) file
          intro hpass
          cases e with
          | skipped | uploaded | renewed =>
              obtain ⟨hok, hrest⟩ := hpass
              obtain rfl : r = .ok true := hok
              exact ⟨rfl, hrest⟩
          | raised noted =>
              obtain ⟨⟨err, herr⟩, hrest⟩ := hpass
              obtain rfl : r = .error err := herr
              exact ⟨⟨err, rfl⟩, hrest⟩
      | goesOn noted =>
          obtain ⟨file', hpass, hidle', hnoted, hunconfirmed⟩ :=
            uploadPass_goesOn body encryptionMetadata hend hidle
          have hkeeps := keeps_uploadPass body encryptionMetadata (tries retry) file
          rw [hpass] at hkeeps ⊢
          have hrest := ih (retry + 1) (keepError file' lastErr) file' (fun _ _ => hidle')
          rw [hkeeps.overwrite] at hrest
          exact hrest.of_keeps hkeeps hunconfirmed hnoted

end

end FileTransferAgent

end SnowflakeConnector
