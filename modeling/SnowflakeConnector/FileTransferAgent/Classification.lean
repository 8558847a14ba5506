import SnowflakeConnector.FileTransferAgent.RemoteStorageUtil

/-!
# SnowflakeConnector.FileTransferAgent.Classification

What the GCS utility makes of the failed requests of one file.  The HTTP client reports a
failure as an error whose `code` is a name, next to a response that carries the status, or
without a response when the service was not reached.

The uploads look at the name before the status, so no status of a failed upload is seen;
the header requests read the status of a response that may be missing.

* `classified_iff` -- the failures of a run are classified by their status exactly when none
  of them is one of those.
-/

namespace SnowflakeConnector

namespace FileTransferAgent

namespace GCSUtil

/-- A request that failed. -/
inductive Failed
  | header (err : SdkError)
  | upload (err : SdkError)

def Failed.err : Failed → SdkError
  | .header err => err
  | .upload err => err

/-- What a request that fails leaves in the meta. -/
def Failed.carryOut (body : Body) (encryptionMetadata : Option EncryptionMetadata) (file : Meta) :
    Failed → Except String Unit × Meta
  | .header err =>
      let r := FileTransferAgent.getFileHeader (getFileHeader file (.fails err)) file
      (r.1.map fun _ => (), r.2)
  | .upload err => uploadFile body encryptionMetadata (GCSUtil.upload file (.fails err)) file

/-- An error of the HTTP client: its `code` is a name. -/
def AxiosError (err : SdkError) : Prop :=
  ∃ name, name ≠ "" ∧ err.code = .str name

/-- The file has credentials, and its requests are sent. -/
structure InSession (file : Meta) : Prop where
  credentials : file.presignedUrl.isSome = true ∨ file.client.isSome = true
  notUploaded : file.resultStatus ≠ some .uploaded
  notDownloaded : file.resultStatus ≠ some .downloaded

/-- The statuses that a failure is to be reported with, by its HTTP status; `prior` is the
HTTP status of the failure directly before. -/
def statuses (hasAccessToken : Bool) (prior : Option Nat) (r : Failed) : List ResultStatus :=
  if hasAccessToken = true ∧ r.err.status = some 401 then [.renewToken]
  else if hasAccessToken = false ∧ r.err.status = some 400 ∧ prior ≠ some 400 then
    [.renewPresignedUrl]
  else
    match r with
    | .header err =>
        if err.status = some 404 then [.notFoundFile]
        else [.needRetry, .needRetryWithLowerConcurrency]
    | .upload _ => [.needRetry, .needRetryWithLowerConcurrency]

section

variable (body : Body) (encryptionMetadata : Option EncryptionMetadata)

/-- The failure does not throw and is reported by its HTTP status. -/
def Reported (prior : Option Nat) (file : Meta) (r : Failed) : Prop :=
  (r.carryOut body encryptionMetadata file).1 = .ok () ∧
    ∃ status ∈ statuses file.presignedUrl.isNone prior r,
      (r.carryOut body encryptionMetadata file).2.resultStatus = some status

/-- All of the failures of a run are reported by their HTTP status. -/
def AllReported : Option Nat → Meta → List Failed → Prop
  | _, _, [] => True
  | prior, file, r :: rs =>
      Reported body encryptionMetadata prior file r ∧
        AllReported r.err.status (r.carryOut body encryptionMetadata file).2 rs

/-- A failure that is reported by its HTTP status: an upload that needs no new credentials, a
header request by token with one of the statuses that are looked at, a header request by url
with status 404, or one that leaves the status alone where it is the right one already. -/
def Seen (prior : Option Nat) (file : Meta) : Failed → Prop
  | .upload err =>
      if file.presignedUrl.isNone = true then err.status ≠ some 401
      else err.status = some 400 → prior = some 400
  | .header err =>
      if file.presignedUrl.isNone = true then
        ∃ status ∈ [401, 403, 404, 408, 429, 500, 503], err.status = some status
      else
        err.status = some 404 ∨ (∃ status ∉ [401, 403, 404], err.status = some status) ∧
          ∃ status ∈ statuses false prior (.header err), file.resultStatus = some status

def AllSeen : Option Nat → Meta → List Failed → Prop
  | _, _, [] => True
  | prior, file, r :: rs =>
      Seen prior file r ∧ AllSeen r.err.status (r.carryOut body encryptionMetadata file).2 rs

end

/-! ## one failure -/

section

variable {body : Body} {encryptionMetadata : Option EncryptionMetadata} {file : Meta}
  {err : SdkError} {prior : Option Nat}

/-- The name hides the status. -/
theorem httpCode_of_axiosError (h : AxiosError err) : ∀ n, httpCode err ≠ .num n := by
  obtain ⟨name, hname, hcode⟩ := h
  intro n
  unfold httpCode
  split <;> simp_all

theorem errCode_of_axiosError (h : AxiosError err) : errCode err = responseStatus err := by
  obtain ⟨name, hname, hcode⟩ := h
  rw [errCode, hcode]

/-- Whatever its status, a failed upload is one to be retried. -/
theorem upload_of_axiosError (hfile : InSession file) (h : AxiosError err) :
    upload file (.fails err) = .needRetry err := by
  have hcode := httpCode_of_axiosError h
  have hnot : ¬ (file.presignedUrl.isNone = true ∧ file.client.isNone = true) := by
    intro ⟨hurl, hclient⟩
    have hcredentials := hfile.credentials
    simp [Option.isNone_iff_eq_none.mp hurl, Option.isNone_iff_eq_none.mp hclient] at hcredentials
  rw [upload, if_neg hnot, applyGcsUploadError]
  split
  · rfl
  · rw [if_neg fun hexpired => hcode 401 hexpired.2, if_neg fun hexpired => hcode 400 hexpired.2.1]

/-- The request for a header is sent. -/
theorem getFileHeader_of_inSession (hfile : InSession file) (reply : HeadReply) :
    getFileHeader file reply =
      if file.presignedUrl.isNone = true then getTokenHeader reply
      else getPresignedHeader reply := by
  have hsent : ¬ (file.resultStatus = some .uploaded ∨ file.resultStatus = some .downloaded) :=
    fun h => h.elim hfile.notUploaded hfile.notDownloaded
  rw [getFileHeader, if_neg hsent]
  cases hurl : file.presignedUrl with
  | some url => simp
  | none =>
      have hclient : file.client.isSome = true := by simpa [hurl] using hfile.credentials
      simp [Option.isSome_iff_ne_none.mp hclient]

theorem mem_statuses_upload_iff {hasAccessToken : Bool} :
    .needRetry ∈ statuses hasAccessToken prior (.upload err) ↔
      if hasAccessToken = true then err.status ≠ some 401
      else err.status = some 400 → prior = some 400 := by
  cases hasAccessToken <;> grind [statuses, Failed.err]

theorem reported_upload_iff (hfile : InSession file) (h : AxiosError err) :
    Reported body encryptionMetadata prior file (.upload err) ↔ Seen prior file (.upload err) := by
  have hretry : Failed.carryOut body encryptionMetadata file (.upload err) =
      uploadFile body encryptionMetadata (.needRetry err) file := by
    rw [Failed.carryOut, upload_of_axiosError hfile h]
  have hstatus : (∃ status ∈ statuses file.presignedUrl.isNone prior (.upload err),
      (some .needRetry : Option ResultStatus) = some status) ↔
        .needRetry ∈ statuses file.presignedUrl.isNone prior (.upload err) := by
    simp
  rw [Reported, hretry, Seen, ← mem_statuses_upload_iff, ← hstatus]
  simp [uploadFile, carryOut]

/-- A header request by token: the statuses that are not looked at throw, and so does a
missing response. -/
theorem reported_token_iff (hfile : InSession file) (h : AxiosError err)
    (htoken : file.presignedUrl.isNone = true) :
    Reported body encryptionMetadata prior file (.header err) ↔
      ∃ status ∈ [401, 403, 404, 408, 429, 500, 503], err.status = some status := by
  have houtcome : getFileHeader file (.fails err) = getTokenHeader (.fails err) := by
    rw [getFileHeader_of_inSession hfile, if_pos htoken]
  simp only [Reported, Failed.carryOut, houtcome, htoken, getTokenHeader, errCode_of_axiosError h]
  cases hstatus : err.status with
  | none => simp [responseStatus, hstatus, FileTransferAgent.getFileHeader, Except.map]
  | some status =>
      simp only [responseStatus, hstatus]
      by_cases hretry : status ∈ [403, 408, 429, 500, 503]
      · have hstatuses : statuses true prior (.header err) =
            [.needRetry, .needRetryWithLowerConcurrency] := by
          grind [statuses, Failed.err]
        simp only [if_pos hretry, hstatuses]
        simp only [List.mem_cons, List.not_mem_nil, or_false] at hretry
        simp [FileTransferAgent.getFileHeader, Except.map]
        omega
      · by_cases hnotFound : status = 404
        · have hstatuses : statuses true prior (.header err) = [.notFoundFile] := by
            grind [statuses, Failed.err]
          simp only [if_neg hretry, if_pos hnotFound, hstatuses]
          simp [FileTransferAgent.getFileHeader, Except.map, hnotFound]
        · by_cases hexpired : status = 401
          · have hstatuses : statuses true prior (.header err) = [.renewToken] := by
              grind [statuses, Failed.err]
            simp only [if_neg hretry, if_neg hnotFound, if_pos hexpired, hstatuses]
            simp [FileTransferAgent.getFileHeader, Except.map, hexpired]
          · simp only [if_neg hretry, if_neg hnotFound, if_neg hexpired]
            simp only [List.mem_cons, List.not_mem_nil, or_false] at hretry
            simp [FileTransferAgent.getFileHeader, Except.map]
            omega

/-- A header request by url: the status is left alone, or the file is taken to be missing. -/
theorem reported_url_iff (hfile : InSession file) (hurl : file.presignedUrl.isNone = false) :
    Reported body encryptionMetadata prior file (.header err) ↔
      err.status = some 404 ∨ (∃ status ∉ [401, 403, 404], err.status = some status) ∧
        ∃ status ∈ statuses false prior (.header err), file.resultStatus = some status := by
  have houtcome : getFileHeader file (.fails err) = getPresignedHeader (.fails err) := by
    rw [getFileHeader_of_inSession hfile, if_neg (by simp [hurl])]
  simp only [Reported, Failed.carryOut, houtcome, hurl, getPresignedHeader]
  cases hstatus : err.status with
  | none => simp [responseStatus, hstatus, FileTransferAgent.getFileHeader, Except.map]
  | some status =>
      simp only [responseStatus, hstatus]
      by_cases hmissing : status ∈ [401, 403, 404]
      · have hstatuses : .notFoundFile ∈ statuses false prior (.header err) ↔ status = 404 := by
          grind [statuses, Failed.err]
        simp only [if_pos hmissing]
        simp [FileTransferAgent.getFileHeader, Except.map, hstatuses]
        grind
      · simp only [if_neg hmissing]
        simp [FileTransferAgent.getFileHeader, Except.map]
        grind

theorem reported_iff {r : Failed} (hfile : InSession file) (h : AxiosError r.err) :
    Reported body encryptionMetadata prior file r ↔ Seen prior file r := by
  cases r with
  | upload err => exact reported_upload_iff hfile h
  | header err =>
      rw [Seen]
      by_cases hurl : file.presignedUrl.isNone = true
      · rw [if_pos hurl]
        exact reported_token_iff hfile h hurl
      · rw [if_neg hurl]
        exact reported_url_iff hfile (Bool.eq_false_iff.mpr hurl)

/-- A header request that fails does not report a file. -/
theorem getFileHeader_fails (hfile : InSession file) (err : SdkError) :
    (FileTransferAgent.getFileHeader (getFileHeader file (.fails err)) file).2.resultStatus ≠
        some .uploaded ∧
      (FileTransferAgent.getFileHeader (getFileHeader file (.fails err)) file).2.resultStatus ≠
        some .downloaded := by
  have hup := hfile.notUploaded
  have hdown := hfile.notDownloaded
  rw [getFileHeader_of_inSession hfile]
  split
  · rw [getTokenHeader]
    cases errCode err with
    | error e => exact ⟨hup, hdown⟩
    | ok code =>
        dsimp only
        split
        · simp [FileTransferAgent.getFileHeader]
        · split
          · simp [FileTransferAgent.getFileHeader]
          · split <;> simp [FileTransferAgent.getFileHeader]
  · rw [getPresignedHeader]
    cases responseStatus err with
    | error e => exact ⟨hup, hdown⟩
    | ok status =>
        dsimp only
        split
        · simp [FileTransferAgent.getFileHeader]
        · exact ⟨hup, hdown⟩

/-- A failure leaves the file in the session. -/
theorem InSession.carryOut (hfile : InSession file) {r : Failed} (h : AxiosError r.err) :
    InSession (r.carryOut body encryptionMetadata file).2 := by
  cases r with
  | upload err =>
      have h : AxiosError err := h
      rw [Failed.carryOut, upload_of_axiosError hfile h]
      exact ⟨hfile.credentials, by simp [uploadFile, FileTransferAgent.carryOut],
        by simp [uploadFile, FileTransferAgent.carryOut]⟩
  | header err =>
      have hkeeps := keeps_getFileHeader (getFileHeader file (.fails err)) file
      obtain ⟨hnotUploaded, hnotDownloaded⟩ := getFileHeader_fails hfile err
      refine ⟨?_, hnotUploaded, hnotDownloaded⟩
      rw [Failed.carryOut, hkeeps.presignedUrl, hkeeps.client]
      exact hfile.credentials

end

/-! ## runs -/

/-- The failures of a run of requests for one file are reported by their HTTP status exactly
when each of them is one whose status is seen. -/
theorem classified_iff (body : Body) (encryptionMetadata : Option EncryptionMetadata)
    (file : Meta) (rs : List Failed) (hfile : InSession file) (h : ∀ r ∈ rs, AxiosError r.err) :
    AllReported body encryptionMetadata none file rs ↔
      AllSeen body encryptionMetadata none file rs := by
  generalize (none : Option Nat) = prior
  induction rs generalizing prior file with
  | nil => rfl
  | cons r rs ih =>
      have hr := h r (List.mem_cons_self ..)
      rw [AllReported, AllSeen, reported_iff hfile hr,
        ih _ (hfile.carryOut hr) (fun r hr => h r (List.mem_cons_of_mem _ hr))]

/-- A failure with a HTTP status, as the HTTP client reports it. -/
def badRequest (status : Nat) (text : String) : SdkError where
  awsCode := none
  name := "AxiosError"
  code := .str "ERR_BAD_REQUEST"
  statusCode := none
  status := some status
  text := text

/-- A file that is uploaded with an access token. -/
def tokenFile : Meta where
  srcFileName := "a.csv"
  srcFilePath := "/tmp/a.csv"
  dstFileName := "a.csv"
  client := some ⟨"token"⟩

/-- The token has expired before the header request, and again before the upload. -/
theorem classified_iff_expired :
    AllReported (.file "/tmp/a.csv") none none tokenFile
        [.header (badRequest 401 "Unauthorized"), .upload (badRequest 401 "Unauthorized")] ↔
      AllSeen (.file "/tmp/a.csv") none none tokenFile
        [.header (badRequest 401 "Unauthorized"), .upload (badRequest 401 "Unauthorized")] :=
  classified_iff (.file "/tmp/a.csv") none tokenFile
    [.header (badRequest 401 "Unauthorized"), .upload (badRequest 401 "Unauthorized")]
    ⟨Or.inr rfl, by decide, by decide⟩
    (by
      intro r hr
      have hcode : r.err.code = .str "ERR_BAD_REQUEST" := by
        simp only [List.mem_cons, List.not_mem_nil, or_false] at hr
        rcases hr with rfl | rfl <;> rfl
      exact ⟨"ERR_BAD_REQUEST", by decide, hcode⟩)

/-- An upload that is refused with 401 is reported as one to be retried. -/
theorem expired_token_unseen :
    ¬ AllReported (.file "/tmp/a.csv") none none tokenFile
      [.upload (badRequest 401 "Unauthorized")] := by
  intro h
  obtain ⟨status, hstatus, hresult⟩ := h.1.2
  have hretry : ((Failed.upload (badRequest 401 "Unauthorized")).carryOut (.file "/tmp/a.csv") none
      tokenFile).2.resultStatus = some .needRetry := by decide
  rw [hretry] at hresult
  obtain rfl := Option.some.inj hresult
  exact absurd hstatus (by decide)

end GCSUtil

end FileTransferAgent

end SnowflakeConnector
