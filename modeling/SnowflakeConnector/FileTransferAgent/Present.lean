import SnowflakeConnector.FileTransferAgent.Attempts

/-!
# SnowflakeConnector.FileTransferAgent.Present

A PUT that is not to overwrite looks for the remote file first.  Each service answers in its
own way; what its utility makes of an answer may depend on what the turns before have left
in the meta, so the outcomes of the upload loop are computed along the run.

* `present_iff` -- a file that is there is skipped and one that is missing is uploaded,
  exactly when no file that is there is looked for by a presigned url or has properties that
  cannot be read.
-/

namespace SnowflakeConnector

namespace FileTransferAgent

/-- What the storage service answers in each turn of the upload loop. -/
structure Replies where
  header : Nat → HeadReply
  transfer : Nat → TransferReply

namespace RemoteLocation

variable (l : RemoteLocation)

/-- What the utility of a location makes of the answers of one turn. -/
def turnOutcomes (file : Meta) (header : HeadReply) (transfer : TransferReply) : Try where
  header := l.headerOutcome file header
  transfer :=
    if file.overwrite = true then l.uploadOutcome file transfer
    else l.uploadOutcome (getFileHeader (l.headerOutcome file header) file).2 transfer

/-- The answer says that there is no such file. -/
def SaysMissing : HeadReply → Prop
  | .fails err =>
      match l with
      | .s3 => err.name = "NotFound" ∧ err.awsCode ≠ some expiredTokenCode
      | .azure => err.statusCode = some 404 ∧ err.code ≠ .str expiredTokenCode
      | .gcs => err.status = some 404 ∧ ∀ n, err.code ≠ .num n
  | _ => False

/-- The file has what a request of the location needs. -/
def Sends (file : Meta) : Prop :=
  l = .gcs → file.presignedUrl.isSome = true ∨ file.client.isSome = true

end RemoteLocation

/-- What `uploadOneFile` uploads. -/
def uploadBody (encryptFile : Except String (EncryptionMetadata × String)) (file : Meta) :
    Except String (Body × Option EncryptionMetadata) :=
  if file.encryptionMaterial.isSome = true then
    encryptFile.map fun r => (.file r.2, some r.1)
  else .ok (.file file.realSrcFilePath, none)

section

variable (l : RemoteLocation) (replies : Replies) (body : Body)
  (encryptionMetadata : Option EncryptionMetadata) (file : Meta)

/-- The meta at the start of a turn of the upload loop. -/
def metaAt : Nat → Meta
  | 0 => file
  | k + 1 =>
      (uploadPass body encryptionMetadata
        (l.turnOutcomes (metaAt k) (replies.header k) (replies.transfer k)) (metaAt k)).2

/-- The outcomes of the turns. -/
def outcomesAt (k : Nat) : Try :=
  l.turnOutcomes (metaAt l replies body encryptionMetadata file k) (replies.header k)
    (replies.transfer k)

/-- The loop gets to this turn. -/
def Reached (k : Nat) : Prop :=
  k < defaultMaxRetry ∧ ∀ j < k, (uploadPass body encryptionMetadata
    (outcomesAt l replies body encryptionMetadata file j)
    (metaAt l replies body encryptionMetadata file j)).1 = .ok false

end

/-- The header request of a turn is the last call, and the file is skipped. -/
def Skips (file : Meta) (r : Except String Unit × Meta) : Prop :=
  r.1 = .ok () ∧ r.2.resultStatus = some .skipped ∧
    ∃ outcome, r.2.exchanges = file.exchanges ++ [.header outcome]

/-- The header request of a turn is followed by the upload of the file. -/
def Uploads (body : Body) (encryptionMetadata : Option EncryptionMetadata) (file : Meta)
    (r : Except String Unit × Meta) : Prop :=
  ∃ outcome transfer,
    file.exchanges ++ [.header outcome, .upload body encryptionMetadata transfer] <+:
      r.2.exchanges

/-- In each turn that is reached, a file that is there is skipped and one that is missing is
uploaded. -/
def TreatsPresent (l : RemoteLocation)
    (encryptFile : Except String (EncryptionMetadata × String)) (replies : Replies)
    (file : Meta) : Prop :=
  ∀ body encryptionMetadata, uploadBody encryptFile file = .ok (body, encryptionMetadata) →
    ∀ k, Reached l replies body encryptionMetadata file k →
      ((∃ header, replies.header k = .answers header) →
        Skips (metaAt l replies body encryptionMetadata file k)
          (RemoteStorageUtil.uploadOneFile encryptFile
            (outcomesAt l replies body encryptionMetadata file) file)) ∧
      (l.SaysMissing (replies.header k) →
        Uploads body encryptionMetadata (metaAt l replies body encryptionMetadata file k)
          (RemoteStorageUtil.uploadOneFile encryptFile
            (outcomesAt l replies body encryptionMetadata file) file))

/-- A file that is found in a turn that is reached is looked for with an access token or on
another service than GCS, and its properties can be read. -/
def ReadsPresent (l : RemoteLocation)
    (encryptFile : Except String (EncryptionMetadata × String)) (replies : Replies)
    (file : Meta) : Prop :=
  ∀ body encryptionMetadata, uploadBody encryptFile file = .ok (body, encryptionMetadata) →
    ∀ k, Reached l replies body encryptionMetadata file k →
      ∀ header, replies.header k = .answers header →
        (∃ fileHeader, header = .ok fileHeader) ∧
          ¬ (l = .gcs ∧ file.presignedUrl.isSome = true)

/-! ## the outcomes of a turn -/

section

variable {l : RemoteLocation} {file : Meta}

/-- The status of a file before a header request. -/
structure Meta.Pending (file : Meta) : Prop where
  notUploaded : file.resultStatus ≠ some .uploaded
  notDownloaded : file.resultStatus ≠ some .downloaded

theorem getFileHeader_of_pending (hfile : file.Pending) (reply : HeadReply) :
    GCSUtil.getFileHeader file reply =
      if file.presignedUrl.isSome = true then GCSUtil.getPresignedHeader reply
      else if file.client.isNone = true then .raises none (typeErrorText "gcsToken")
      else GCSUtil.getTokenHeader reply := by
  rw [GCSUtil.getFileHeader, if_neg fun h => h.elim hfile.notUploaded hfile.notDownloaded]

theorem client_of_sends (hsends : RemoteLocation.gcs.Sends file)
    (hurl : ¬ file.presignedUrl.isSome = true) : ¬ file.client.isNone = true := by
  have hclient := (hsends rfl).resolve_left hurl
  rw [Option.isNone_iff_eq_none]
  exact Option.isSome_iff_ne_none.mp hclient

/-- A file whose properties can be read is found, except by a presigned url. -/
theorem headerOutcome_of_answers (hfile : file.Pending) (hsends : l.Sends file)
    (fileHeader : FileHeader) (hurl : ¬ (l = .gcs ∧ file.presignedUrl.isSome = true)) :
    l.headerOutcome file (.answers (.ok fileHeader)) = .found fileHeader := by
  cases l with
  | s3 => rfl
  | azure => rfl
  | gcs =>
      have hurl : ¬ file.presignedUrl.isSome = true := fun h => hurl ⟨rfl, h⟩
      rw [RemoteLocation.headerOutcome, getFileHeader_of_pending hfile, if_neg hurl,
        if_neg (client_of_sends hsends hurl)]
      rfl

/-- Properties that cannot be read make the request throw. -/
theorem headerOutcome_of_unreadable (hfile : file.Pending) (hsends : l.Sends file) (err : String)
    (hurl : ¬ (l = .gcs ∧ file.presignedUrl.isSome = true)) :
    ∃ status err', l.headerOutcome file (.answers (.error err)) = .raises status err' := by
  cases l with
  | s3 => exact ⟨_, _, rfl⟩
  | azure => exact ⟨_, _, rfl⟩
  | gcs =>
      have hurl : ¬ file.presignedUrl.isSome = true := fun h => hurl ⟨rfl, h⟩
      rw [RemoteLocation.headerOutcome, getFileHeader_of_pending hfile, if_neg hurl,
        if_neg (client_of_sends hsends hurl)]
      exact ⟨_, _, rfl⟩

/-- By a presigned url no file is found. -/
theorem headerOutcome_of_url (hurl : file.presignedUrl.isSome = true) (reply : HeadReply)
    (header : FileHeader) : RemoteLocation.gcs.headerOutcome file reply ≠ .found header := by
  rw [RemoteLocation.headerOutcome, GCSUtil.getFileHeader]
  split
  · simp
  · cases reply with
    | raises err => simp [GCSUtil.getPresignedHeader]
    | answers header => simp [GCSUtil.getPresignedHeader]
    | fails err =>
        rw [GCSUtil.getPresignedHeader]
        cases GCSUtil.responseStatus err with
        | error e => simp
        | ok status => grind

theorem headerOutcome_of_saysMissing (hfile : file.Pending) (hsends : l.Sends file)
    {reply : HeadReply} (h : l.SaysMissing reply) : l.headerOutcome file reply = .notFound := by
  cases reply with
  | raises err => exact h.elim
  | answers header => exact h.elim
  | fails err =>
      cases l with
      | s3 => rw [RemoteLocation.headerOutcome, S3Util.getFileHeader, if_neg h.2, if_pos h.1]
      | azure => rw [RemoteLocation.headerOutcome, AzureUtil.getFileHeader, if_neg h.2, if_pos h.1]
      | gcs =>
          obtain ⟨hstatus, hcode⟩ := h
          have hresponse : GCSUtil.responseStatus err = .ok 404 := by
            rw [GCSUtil.responseStatus, hstatus]
          have herrCode : GCSUtil.errCode err = .ok 404 := by
            unfold GCSUtil.errCode
            split
            · next code hnum => exact absurd hnum (hcode code)
            · exact hresponse
          rw [RemoteLocation.headerOutcome, getFileHeader_of_pending hfile]
          split
          · rw [GCSUtil.getPresignedHeader, hresponse]
            rfl
          · next hurl =>
            rw [if_neg (client_of_sends hsends hurl), GCSUtil.getTokenHeader, herrCode]
            rfl

end

/-! ## a turn -/

section

variable {body : Body} {encryptionMetadata : Option EncryptionMetadata} {t : Try} {file : Meta}

theorem uploadPass_of_found (hoverwrite : file.overwrite = false) {header : FileHeader}
    (hheader : t.header = .found header) :
    uploadPass body encryptionMetadata t file = (.ok true,
      { (((file.record (.header (.found header))).setStatus .uploaded).setStatus .skipped) with
        dstFileSize := some 0 }) := by
  simp [uploadPass, skipsPresent, hoverwrite, hheader, getFileHeader]

theorem uploadPass_of_raises (hoverwrite : file.overwrite = false) {status : Option ResultStatus}
    {err : String} (hheader : t.header = .raises status err) :
    (uploadPass body encryptionMetadata t file).1 = .error err := by
  cases status <;> simp [uploadPass, skipsPresent, hoverwrite, hheader, getFileHeader]

theorem skipsPresent_notDownloaded {outcome : HeaderOutcome}
    (hfile : file.resultStatus ≠ some .downloaded) {present : Bool}
    (h : (skipsPresent outcome file).1 = .ok present) :
    (skipsPresent outcome file).2.resultStatus ≠ some .downloaded := by
  unfold skipsPresent at h ⊢
  cases hoverwrite : file.overwrite with
  | true => simpa using hfile
  | false =>
      cases outcome with
      | raises status err => cases status <;> simp [hoverwrite, getFileHeader] at h
      | unchanged header =>
          simp only [getFileHeader, Bool.false_eq_true, if_false]
          split
          · simp
          · exact hfile
      | found _ | notFound | expiredToken _ _ | needRetry _ | failed => simp [getFileHeader]

theorem uploadFile_notDownloaded (outcome : TransferOutcome)
    (hfile : file.resultStatus ≠ some .downloaded) :
    (uploadFile body encryptionMetadata outcome file).2.resultStatus ≠ some .downloaded := by
  cases outcome <;> simp [uploadFile, carryOut, hfile]

/-- A turn that goes on does not end with one of the statuses that the loop returns with. -/
theorem endPass_eq_false {r : Except String Unit × Meta} (h : (endPass r).1 = .ok false) :
    returnsWith r.2.resultStatus = false := by
  obtain ⟨_, _, hreturns⟩ := Loops.map_eq_ok_iff.mp h
  exact hreturns

/-- A turn that goes on leaves a file that is still to be looked for. -/
theorem pending_uploadPass (hfile : file.Pending)
    (hgoesOn : (uploadPass body encryptionMetadata t file).1 = .ok false) :
    (uploadPass body encryptionMetadata t file).2.Pending := by
  have hpresent : ∀ present, (skipsPresent t.header file).1 = .ok present →
      (skipsPresent t.header file).2.resultStatus ≠ some .downloaded :=
    fun present => skipsPresent_notDownloaded hfile.notDownloaded
  unfold uploadPass at hgoesOn ⊢
  revert hpresent hgoesOn
  obtain ⟨r, file'⟩ := skipsPresent t.header file
  intro hgoesOn hpresent
  cases r with
  | error err => cases hgoesOn
  | ok present =>
      cases present with
      | true => cases hgoesOn
      | false =>
          have hreturns := endPass_eq_false hgoesOn
          have hdownloaded := hpresent false rfl
          constructor
          · intro hstatus
            have hstatus : returnsWith (some .uploaded) = false := by
              rw [← hstatus]
              exact hreturns
            contradiction
          · dsimp only [endPass]
            split
            · exact uploadFile_notDownloaded t.transfer hdownloaded
            · exact hdownloaded

end

/-! ## the loop -/

section

variable {l : RemoteLocation} {replies : Replies} {body : Body}
  {encryptionMetadata : Option EncryptionMetadata} {file : Meta} {k : Nat}

theorem keeps_metaAt (k : Nat) :
    file.Keeps (metaAt l replies body encryptionMetadata file k) := by
  induction k with
  | zero => exact .refl file
  | succ k ih => exact ih.trans (keeps_uploadPass body encryptionMetadata _ _)

theorem pending_metaAt (hfile : file.Pending) (h : Reached l replies body encryptionMetadata file k) :
    (metaAt l replies body encryptionMetadata file k).Pending := by
  obtain ⟨_, hgoesOn⟩ := h
  induction k with
  | zero => exact hfile
  | succ k ih =>
      exact pending_uploadPass (ih (by omega) fun j hj => hgoesOn j (by omega))
        (hgoesOn k (Nat.lt_succ_self k))

/-- The loop goes on from a turn that it has reached. -/
theorem uploadLoop_of_reached (name : String)
    (h : Reached l replies body encryptionMetadata file k) :
    ∃ lastErr, uploadLoop body encryptionMetadata name
        (outcomesAt l replies body encryptionMetadata file) defaultMaxRetry 0 none file =
      uploadLoop body encryptionMetadata name (outcomesAt l replies body encryptionMetadata file)
        (defaultMaxRetry - k) k lastErr (metaAt l replies body encryptionMetadata file k) := by
  obtain ⟨hk, hgoesOn⟩ := h
  induction k with
  | zero => exact ⟨none, rfl⟩
  | succ k ih =>
      obtain ⟨lastErr, hloop⟩ := ih (by omega) fun j hj => hgoesOn j (by omega)
      obtain ⟨left, hleft⟩ : ∃ left, defaultMaxRetry - k = left + 1 := ⟨defaultMaxRetry - (k + 1), by omega⟩
      have hpass : uploadPass body encryptionMetadata
          (outcomesAt l replies body encryptionMetadata file k)
          (metaAt l replies body encryptionMetadata file k) =
            (.ok false, metaAt l replies body encryptionMetadata file (k + 1)) :=
        Prod.ext (hgoesOn k (Nat.lt_succ_self k)) rfl
      refine ⟨keepError (metaAt l replies body encryptionMetadata file (k + 1)) lastErr, ?_⟩
      rw [hloop, hleft, uploadLoop, hpass]
      have hleft' : defaultMaxRetry - (k + 1) = left := by omega
      rw [hleft']

variable (body encryptionMetadata) in
/-- What a turn has asked for stays asked for. -/
theorem uploadPass_prefix_uploadLoop (name : String) (tries : Nat → Try) (left retry : Nat)
    (lastErr : Option SdkError) (file : Meta) :
    (uploadPass body encryptionMetadata (tries retry) file).2.exchanges <+:
      (uploadLoop body encryptionMetadata name tries (left + 1) retry lastErr file).2.exchanges := by
  rw [uploadLoop]
  obtain ⟨r, file'⟩ := uploadPass body encryptionMetadata (tries retry) file
  cases r with
  | error err => exact List.prefix_refl _
  | ok returns =>
      cases returns with
      | true => exact List.prefix_refl _
      | false => exact (keeps_uploadLoop name tries left (retry + 1) _ file').exchanges

theorem uploadOneFile_of_uploadBody {encryptFile : Except String (EncryptionMetadata × String)}
    (h : uploadBody encryptFile file = .ok (body, encryptionMetadata)) (tries : Nat → Try) :
    ∃ name, RemoteStorageUtil.uploadOneFile encryptFile tries file =
      uploadLoop body encryptionMetadata name tries defaultMaxRetry 0 none file := by
  unfold uploadBody at h
  unfold RemoteStorageUtil.uploadOneFile
  split at h
  · next hencrypts =>
    obtain ⟨r, rfl, hr⟩ := Loops.map_eq_ok_iff.mp h
    obtain ⟨rfl, rfl⟩ := Prod.mk.inj hr
    exact ⟨r.2, if_pos hencrypts⟩
  · next hencrypts =>
    obtain ⟨rfl, rfl⟩ := Prod.mk.inj (Except.ok.inj h)
    exact ⟨file.realSrcFilePath, if_neg hencrypts⟩

/-- From a turn that it has reached, the upload goes on with that turn. -/
theorem uploadOneFile_of_reached {encryptFile : Except String (EncryptionMetadata × String)}
    (hbody : uploadBody encryptFile file = .ok (body, encryptionMetadata))
    (h : Reached l replies body encryptionMetadata file k) :
    ∃ name left lastErr, RemoteStorageUtil.uploadOneFile encryptFile
        (outcomesAt l replies body encryptionMetadata file) file =
      uploadLoop body encryptionMetadata name (outcomesAt l replies body encryptionMetadata file)
        (left + 1) k lastErr (metaAt l replies body encryptionMetadata file k) := by
  obtain ⟨name, hname⟩ := uploadOneFile_of_uploadBody hbody
    (outcomesAt l replies body encryptionMetadata file)
  obtain ⟨lastErr, hloop⟩ := uploadLoop_of_reached name h
  have hk := h.1
  obtain ⟨left, hleft⟩ : ∃ left, defaultMaxRetry - k = left + 1 :=
    ⟨defaultMaxRetry - (k + 1), by omega⟩
  exact ⟨name, left, lastErr, by rw [hname, hloop, hleft]⟩

end

/-! ## files that are there -/

section

variable {l : RemoteLocation} {replies : Replies} {body : Body}
  {encryptionMetadata : Option EncryptionMetadata} {file : Meta} {k : Nat}
  {encryptFile : Except String (EncryptionMetadata × String)}

theorem sends_metaAt (hsends : l.Sends file) :
    l.Sends (metaAt l replies body encryptionMetadata file k) := by
  have hkeeps : file.Keeps (metaAt l replies body encryptionMetadata file k) := keeps_metaAt k
  intro hl
  rw [hkeeps.presignedUrl, hkeeps.client]
  exact hsends hl

theorem skips_of_found (hbody : uploadBody encryptFile file = .ok (body, encryptionMetadata))
    (h : Reached l replies body encryptionMetadata file k) (hoverwrite : file.overwrite = false)
    {header : FileHeader}
    (hheader : (outcomesAt l replies body encryptionMetadata file k).header = .found header) :
    Skips (metaAt l replies body encryptionMetadata file k)
      (RemoteStorageUtil.uploadOneFile encryptFile
        (outcomesAt l replies body encryptionMetadata file) file) := by
  obtain ⟨name, left, lastErr, hupload⟩ := uploadOneFile_of_reached hbody h
  have hoverwrite' : (metaAt l replies body encryptionMetadata file k).overwrite = false := by
    rw [(keeps_metaAt k).overwrite, hoverwrite]
  rw [hupload, uploadLoop, uploadPass_of_found hoverwrite' hheader]
  exact ⟨rfl, rfl, .found header, rfl⟩

theorem error_of_raises (hbody : uploadBody encryptFile file = .ok (body, encryptionMetadata))
    (h : Reached l replies body encryptionMetadata file k) (hoverwrite : file.overwrite = false)
    {status : Option ResultStatus} {err : String}
    (hheader : (outcomesAt l replies body encryptionMetadata file k).header = .raises status err) :
    (RemoteStorageUtil.uploadOneFile encryptFile
      (outcomesAt l replies body encryptionMetadata file) file).1 = .error err := by
  obtain ⟨name, left, lastErr, hupload⟩ := uploadOneFile_of_reached hbody h
  have hoverwrite' : (metaAt l replies body encryptionMetadata file k).overwrite = false := by
    rw [(keeps_metaAt k).overwrite, hoverwrite]
  have hpass : (uploadPass body encryptionMetadata
      (outcomesAt l replies body encryptionMetadata file k)
      (metaAt l replies body encryptionMetadata file k)).1 = .error err :=
    uploadPass_of_raises hoverwrite' hheader
  rw [hupload, uploadLoop]
  revert hpass
  obtain ⟨r, file'⟩ := uploadPass body encryptionMetadata
    (outcomesAt l replies body encryptionMetadata file k)
    (metaAt l replies body encryptionMetadata file k)
  intro hpass
  obtain rfl : r = .error err := hpass
  rfl

theorem uploads_of_notFound
    (hbody : uploadBody encryptFile file = .ok (body, encryptionMetadata))
    (h : Reached l replies body encryptionMetadata file k) (hoverwrite : file.overwrite = false)
    (hheader : (outcomesAt l replies body encryptionMetadata file k).header = .notFound) :
    Uploads body encryptionMetadata (metaAt l replies body encryptionMetadata file k)
      (RemoteStorageUtil.uploadOneFile encryptFile
        (outcomesAt l replies body encryptionMetadata file) file) := by
  obtain ⟨name, left, lastErr, hupload⟩ := uploadOneFile_of_reached hbody h
  have hoverwrite' : (metaAt l replies body encryptionMetadata file k).overwrite = false := by
    rw [(keeps_metaAt k).overwrite, hoverwrite]
  have hprefix := uploadPass_prefix_uploadLoop body encryptionMetadata name
    (outcomesAt l replies body encryptionMetadata file) left k lastErr
    (metaAt l replies body encryptionMetadata file k)
  rw [uploadPass_of_notFound hoverwrite' hheader] at hprefix
  have hexchanges : ∀ outcome (file : Meta),
      (uploadFile body encryptionMetadata outcome file).2.exchanges =
        file.exchanges ++ [.upload body encryptionMetadata outcome] := by
    intro outcome file
    cases outcome <;> rfl
  refine ⟨.notFound, (outcomesAt l replies body encryptionMetadata file k).transfer, ?_⟩
  rw [hupload]
  simpa [endPass, hexchanges] using hprefix

/-- Where no header request finds a file, no file is skipped. -/
theorem passesEnd_ne_skipped {tries : Nat → Try} (h : ∀ k header, (tries k).header ≠ .found header)
    (left retry : Nat) : passesEnd false tries left retry ≠ .skipped := by
  induction left generalizing retry with
  | zero => simp [passesEnd]
  | succ left ih =>
      have hpass : (tries retry).passEnd false ≠ .ends .skipped := by
        have hfound := h retry
        have htransfer := (tries retry).transfer.passEnd_ne_skipped
        unfold Try.passEnd
        cases hheader : (tries retry).header with
        | found header => exact absurd hheader (hfound header)
        | notFound =>
            cases hend : (tries retry).transfer.passEnd with
            | goesOn noted => simp [PassEnd.note]
            | ends e => cases e <;> simp_all [PassEnd.note, UploadEnd.note]
        | expiredToken _ _ | needRetry _ | failed | unchanged _ | raises _ _ => simp
      rw [passesEnd]
      cases hend : (tries retry).passEnd false with
      | ends e =>
          intro he
          obtain rfl : e = .skipped := he
          exact hpass hend
      | goesOn noted =>
          have hrest := ih (retry + 1)
          dsimp only
          cases hnext : passesEnd false tries left (retry + 1) with
          | skipped => exact absurd hnext hrest
          | uploaded | renewed _ | raised _ => simp [UploadEnd.note]

theorem not_skips_of_not_found
    (hbody : uploadBody encryptFile file = .ok (body, encryptionMetadata)) {stale : Option Bool}
    (hstale : file.resultStatus = stale.map renewStatus) (hoverwrite : file.overwrite = false)
    {tries : Nat → Try} (h : ∀ k header, (tries k).header ≠ .found header)
    (hok : (RemoteStorageUtil.uploadOneFile encryptFile tries file).1 = .ok ()) :
    (RemoteStorageUtil.uploadOneFile encryptFile tries file).2.resultStatus ≠ some .skipped := by
  obtain ⟨name, hname⟩ := uploadOneFile_of_uploadBody hbody tries
  have hends := uploadEnd_leaves body encryptionMetadata name tries file hstale
  have hne : uploadEnd file.overwrite stale tries ≠ .skipped := by
    unfold uploadEnd
    rw [hoverwrite]
    split
    · simp
    · exact passesEnd_ne_skipped h _ _
  rw [hname] at hok ⊢
  cases hend : uploadEnd file.overwrite stale tries with
  | skipped => exact absurd hend hne
  | uploaded =>
      rw [hend] at hends
      rw [hends.2.1]
      simp
  | renewed url =>
      rw [hend] at hends
      rw [hends.2.1]
      cases url <;> simp [renewStatus]
  | raised noted =>
      rw [hend] at hends
      obtain ⟨⟨err, herr⟩, _⟩ := hends
      rw [hok] at herr
      contradiction

end

theorem pending_of_stale {file : Meta} {stale : Option Bool}
    (hstale : file.resultStatus = stale.map renewStatus) : file.Pending := by
  rcases stale with _ | (_ | _) <;> exact ⟨by simp [hstale, renewStatus], by simp [hstale, renewStatus]⟩

/-- A file that is there is skipped and one that is missing is uploaded, on every service and
whatever the turns before have left, exactly when no file that is there is looked for by a
presigned url or has properties that cannot be read. -/
theorem present_iff (l : RemoteLocation)
    (encryptFile : Except String (EncryptionMetadata × String)) (replies : Replies) (file : Meta)
    (stale : Option Bool) (hstale : file.resultStatus = stale.map renewStatus)
    (hoverwrite : file.overwrite = false) (hsends : l.Sends file) :
    TreatsPresent l encryptFile replies file ↔ ReadsPresent l encryptFile replies file := by
  have hpending := pending_of_stale hstale
  constructor
  · intro h body encryptionMetadata hbody k hreached header hheader
    obtain ⟨hok, hskipped, _⟩ := (h body encryptionMetadata hbody k hreached).1 ⟨header, hheader⟩
    have hurl : ¬ (l = .gcs ∧ file.presignedUrl.isSome = true) := by
      rintro ⟨rfl, hurl⟩
      refine not_skips_of_not_found hbody hstale hoverwrite ?_ hok hskipped
      intro j found
      apply headerOutcome_of_url
      rw [(keeps_metaAt j).presignedUrl]
      exact hurl
    refine ⟨?_, hurl⟩
    cases header with
    | ok fileHeader => exact ⟨fileHeader, rfl⟩
    | error err =>
        rw [← (keeps_metaAt k).presignedUrl] at hurl
        obtain ⟨status, err', hraises⟩ := headerOutcome_of_unreadable
          (pending_metaAt hpending hreached) (sends_metaAt hsends) err hurl
        rw [← hheader] at hraises
        rw [error_of_raises hbody hreached hoverwrite hraises] at hok
        contradiction
  · intro h body encryptionMetadata hbody k hreached
    have hpending := pending_metaAt hpending hreached
    have hsends : l.Sends (metaAt l replies body encryptionMetadata file k) := sends_metaAt hsends
    constructor
    · intro ⟨header, hheader⟩
      obtain ⟨⟨fileHeader, rfl⟩, hurl⟩ := h body encryptionMetadata hbody k hreached header hheader
      rw [← (keeps_metaAt k).presignedUrl] at hurl
      have hfound := headerOutcome_of_answers hpending hsends fileHeader hurl
      rw [← hheader] at hfound
      exact skips_of_found hbody hreached hoverwrite hfound
    · intro hmissing
      exact uploads_of_notFound hbody hreached hoverwrite
        (headerOutcome_of_saysMissing hpending hsends hmissing)

/-- A stage file that is there, on GCS. -/
def present : Replies where
  header _ := .answers (.ok ⟨some "digest", some 10, none⟩)
  transfer _ := .succeeds none

/-- A file to upload, with a presigned url or an access token. -/
def gcsFile (presignedUrl : Option String) (client : Option Client) : Meta where
  srcFileName := "a.csv"
  srcFilePath := "/tmp/a.csv"
  dstFileName := "a.csv"
  realSrcFilePath := "/tmp/a.csv"
  presignedUrl := presignedUrl
  client := client

/-- With an access token the file is skipped. -/
theorem present_iff_token :
    TreatsPresent .gcs (.error "") present (gcsFile none (some ⟨"token"⟩)) ↔
      ReadsPresent .gcs (.error "") present (gcsFile none (some ⟨"token"⟩)) :=
  present_iff .gcs (.error "") present (gcsFile none (some ⟨"token"⟩)) none rfl rfl
    (fun _ => Or.inr rfl)

/-- With a presigned url it is neither skipped nor uploaded: the upload throws. -/
theorem present_by_url_throws :
    ¬ TreatsPresent .gcs (.error "") present (gcsFile (some "https://signed") none) := by
  intro h
  have hreached : Reached .gcs present (.file "/tmp/a.csv") none
      (gcsFile (some "https://signed") none) 0 := ⟨by decide, fun j hj => absurd hj (by omega)⟩
  obtain ⟨hok, _⟩ := (h (.file "/tmp/a.csv") none rfl 0 hreached).1 ⟨_, rfl⟩
  have hthrows : (RemoteStorageUtil.uploadOneFile (.error "")
      (outcomesAt .gcs present (.file "/tmp/a.csv") none (gcsFile (some "https://signed") none))
      (gcsFile (some "https://signed") none)).1 =
        .error "Error: Unknown Error in uploading a file: /tmp/a.csv" := by decide
  rw [hthrows] at hok
  contradiction

end FileTransferAgent

end SnowflakeConnector
