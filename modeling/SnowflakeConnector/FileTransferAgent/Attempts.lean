import SnowflakeConnector.FileTransferAgent.Fates
import SnowflakeConnector.Loops

/-!
# SnowflakeConnector.FileTransferAgent.Attempts

The fate of one attempt to upload or to download a file, read off the outcomes that it meets.

A file is lost by an exception before any call has written a status, and by the header
requests after an upload when they leave a status that is not final.

* `uploadOneFile_leaves`, `downloadOneFile_leaves` -- an attempt leaves the file as its fate
  says.
* `putTransfer`, `getTransfer` -- the two ways to transfer files.
-/

namespace SnowflakeConnector

namespace FileTransferAgent

/-! ## the fate of an upload -/

/-- What an exception leaves: an error only if a status was written before. -/
def raisedFate (noted : Bool) : Fate := if noted = true then .fails else .lost

/-- What the header requests after an upload leave. -/
def checksFate (checks : Nat → HeaderOutcome) : Nat → Nat → Fate
  | 0, _ => .lost
  | left + 1, y =>
      match checks y with
      | .found _ => .definite
      | .notFound => checksFate checks left (y + 1)
      | .expiredToken _ _ => .renews false
      | .needRetry _ => .lost
      | .failed => .fails
      | .unchanged _ => if y = 0 then .definite else checksFate checks left (y + 1)
      | .raises _ _ => .fails

/-- How the upload loop ends; a header request that leaves the status alone finds that of
the renewal before. -/
def uploadEnd (overwrite : Bool) (stale : Option Bool) (tries : Nat → Try) : UploadEnd :=
  match overwrite, stale, (tries 0).header with
  | false, some url, .unchanged _ => .renewed url
  | _, _, _ => passesEnd overwrite tries defaultMaxRetry 0

/-- What the attempts to upload a file read, and what its row shows. -/
structure UploadView where
  srcFileName : String
  srcFileSize : Option Nat
  requireCompress : Bool
  overwrite : Bool
  encrypts : Bool
  deriving DecidableEq, Repr

def uploadView (file : Meta) : UploadView where
  srcFileName := file.srcFileName
  srcFileSize := file.srcFileSize
  requireCompress := file.requireCompress
  overwrite := file.overwrite
  encrypts := file.encryptionMaterial.isSome

@[simp] theorem uploadView_encrypts (file : Meta) :
    (uploadView file).encrypts = file.encryptionMaterial.isSome := rfl

@[simp] theorem uploadView_overwrite (file : Meta) :
    (uploadView file).overwrite = file.overwrite := rfl

@[simp] theorem uploadView_requireCompress (file : Meta) :
    (uploadView file).requireCompress = file.requireCompress := rfl

theorem Meta.Keeps.uploadView_eq {file file' : Meta} (h : file.Keeps file') :
    uploadView file' = uploadView file := by
  simp only [uploadView, h.srcFileName, h.srcFileSize, h.requireCompress, h.overwrite,
    h.encryptionMaterial]

/-- Whether a step throws. -/
def throws {β : Type} : Except String β → Bool
  | .error _ => true
  | .ok _ => false

/-- What the end of the upload loop comes to; `noted` when a status was written before. -/
def afterLoop (noted : Bool) (checks : Nat → HeaderOutcome) : UploadEnd → Fate
  | .skipped => .definite
  | .uploaded => checksFate checks 10 0
  | .renewed url => .renews url
  | .raised noted' => raisedFate (noted || noted')

def remoteUploadFate (v : UploadView) (stale : Option Bool) (a : UploadAttempt) : Fate :=
  if v.encrypts = true ∧ throws a.encryptFile = true then raisedFate stale.isSome
  else afterLoop stale.isSome a.checks (uploadEnd v.overwrite stale a.tries)

def tryUploadFate (location : LocationType) (v : UploadView) (stale : Option Bool)
    (a : UploadAttempt) : Fate :=
  if v.requireCompress = true ∧ throws a.compressFileWithGZIP = true then raisedFate stale.isSome
  else if throws a.getDigestAndSizeForFile = true then raisedFate stale.isSome
  else
    match location with
    | .remote _ => remoteUploadFate v stale a
    | .localFs => if throws a.copy = true then raisedFate stale.isSome else .definite
    | .other _ => raisedFate stale.isSome

/-- The fate of an attempt to upload a file. -/
def uploadFate (location : LocationType) (v : UploadView) (stale : Option Bool)
    (a : UploadAttempt) : Fate :=
  if throws a.mkdtemp = true ∨ throws a.rm = true then .throws else tryUploadFate location v stale a

/-! ## what the `try` block leaves -/

/-- What the `try` block of an attempt leaves when the attempt has this fate. -/
def Fate.LeavesBlock (breaks : Bool) (r : Except String Unit × Meta) : Fate → Prop
  | .throws => False
  | .renews url => r.1 = .ok () ∧ r.2.resultStatus = some (renewStatus url)
  | .definite =>
      (r.2.dstFileSize.isSome = true ∧ r.1 = .ok () ∧ r.2.Definite ∧ r.2.Final ∧
        r.2.resultStatus ≠ some .error) ∨
        breaks = false ∧ (∃ err, r.1 = .error err) ∧ r.2.resultStatus.isSome = true
  | .fails =>
      (r.2.dstFileSize.isSome = true ∧ r.1 = .ok () ∧ r.2.resultStatus = some .error) ∨
        (∃ err, r.1 = .error err) ∧ r.2.resultStatus.isSome = true
  | .lost =>
      (r.2.dstFileSize.isSome = true ∧ r.1 = .ok () ∧ ¬ r.2.Definite ∧ r.2.Final) ∨
        (∃ err, r.1 = .error err) ∧ r.2.resultStatus = none

/-- What is left once an exception has been caught. -/
structure Settled (r : Except String Unit × Meta) (file : Meta) : Prop where
  returned : r.1 = .ok () → file = r.2
  raised : ∀ err, r.1 = .error err → ∃ dstFileSize details, file = caught dstFileSize details r.2

theorem caught_of_isSome {file : Meta} (dstFileSize : Int) (details : String)
    (h : file.resultStatus.isSome = true) :
    (caught dstFileSize details file).resultStatus = some .error := by
  obtain ⟨status, hstatus⟩ := Option.isSome_iff_exists.mp h
  simp [caught, hstatus]

theorem Fate.LeavesBlock.leaves {V : Type} {view : Meta → V} {breaks : Bool} {f : Fate}
    {r : Except String Unit × Meta} {file file' : Meta} (h : f.LeavesBlock breaks r)
    (hsettled : Settled r file') (hview : view r.2 = view file)
    (hcaught : ∀ dstFileSize details, view (caught dstFileSize details r.2) = view r.2) :
    f.Leaves view breaks file (.ok file') := by
  -- an exception that finds a status makes it an error
  have herror : (∃ err, r.1 = .error err) → r.2.resultStatus.isSome = true →
      view file' = view file ∧ file'.Final ∧ file'.dstFileSize.isSome = true ∧
        file'.resultStatus = some .error := by
    intro ⟨err, herr⟩ hstatus
    obtain ⟨dstFileSize, details, rfl⟩ := hsettled.raised err herr
    have hstatus' := caught_of_isSome dstFileSize details hstatus
    exact ⟨by rw [hcaught, hview], by simp [Meta.Final, hstatus'], rfl, hstatus'⟩
  cases f with
  | throws => exact h.elim
  | renews url =>
      obtain rfl := hsettled.returned h.1
      exact ⟨r.2, rfl, hview, h.2⟩
  | definite =>
      rcases h with ⟨hsize, hok, hdefinite, hfinal, hstatus⟩ | ⟨hbreaks, herr, hstatus⟩
      · obtain rfl := hsettled.returned hok
        exact ⟨r.2, rfl, hview, hfinal, hsize, hdefinite, fun _ => hstatus⟩
      · obtain ⟨hview', hfinal, hsize, hstatus'⟩ := herror herr hstatus
        exact ⟨file', rfl, hview', hfinal, hsize, by simp [Meta.Definite, hstatus'],
          fun hb => by rw [hbreaks] at hb; contradiction⟩
  | fails =>
      rcases h with ⟨hsize, hok, hstatus⟩ | ⟨herr, hstatus⟩
      · obtain rfl := hsettled.returned hok
        exact ⟨r.2, rfl, hview, by simp [Meta.Final, hstatus], hsize, hstatus⟩
      · obtain ⟨hview', hfinal, hsize, hstatus'⟩ := herror herr hstatus
        exact ⟨file', rfl, hview', hfinal, hsize, hstatus'⟩
  | lost =>
      rcases h with ⟨hsize, hok, hlost, hfinal⟩ | ⟨⟨err, herr⟩, hstatus⟩
      · obtain rfl := hsettled.returned hok
        exact ⟨r.2, rfl, hview, hfinal, hsize, hlost⟩
      · obtain ⟨dstFileSize, details, rfl⟩ := hsettled.raised err herr
        have hstatus' : (caught dstFileSize details r.2).resultStatus = none := by
          simp [caught, hstatus]
        exact ⟨_, rfl, by rw [hcaught, hview], by simp [Meta.Final, hstatus'], rfl,
          by simp [Fate.Lists, Meta.Definite, hstatus']⟩

theorem raisedFate_leavesBlock {breaks noted : Bool} {r : Except String Unit × Meta}
    (hraised : ∃ err, r.1 = .error err) (hnoted : r.2.resultStatus.isSome = noted) :
    (raisedFate noted).LeavesBlock breaks r := by
  cases noted with
  | true => exact Or.inr ⟨hraised, hnoted⟩
  | false => exact Or.inr ⟨hraised, by simpa using hnoted⟩

/-! ### uploads -/

/-- The header requests after an upload: none of them so far has found the file missing
before the first one. -/
theorem checkUploaded_leavesBlock {breaks : Bool} (checks : Nat → HeaderOutcome) (left y : Nat)
    (file : Meta) (hsize : file.dstFileSize.isSome = true)
    (hstatus : file.resultStatus = some (if y = 0 then .uploaded else .notFoundFile))
    (hleft : left = 0 → y ≠ 0)
    (huploaded : ∃ body encryptionMetadata gcsFileHeader,
      .upload body encryptionMetadata (.done gcsFileHeader) ∈ file.exchanges) :
    (checksFate checks left y).LeavesBlock breaks (RemoteStorageUtil.checkUploaded checks left y file) := by
  induction left generalizing y file with
  | zero =>
      have hstatus : file.resultStatus = some .notFoundFile := by rwa [if_neg (hleft rfl)] at hstatus
      exact Or.inl ⟨hsize, rfl, by simp [Meta.Definite, RemoteStorageUtil.checkUploaded, hstatus],
        by simp [Meta.Final, RemoteStorageUtil.checkUploaded, hstatus]⟩
  | succ left ih =>
      obtain ⟨body, encryptionMetadata, gcsFileHeader, hexchange⟩ := huploaded
      rw [RemoteStorageUtil.checkUploaded, checksFate]
      cases hcheck : checks y with
      | found header =>
          refine Or.inl ⟨hsize, rfl, ?_, ?_, ?_⟩
          · exact ⟨body, encryptionMetadata, gcsFileHeader, List.mem_append_left _ hexchange⟩
          · simp [getFileHeader, Meta.Final]
          · simp [getFileHeader]
      | notFound =>
          exact ih (y + 1) _ hsize rfl (fun _ => by omega)
            ⟨body, encryptionMetadata, gcsFileHeader, List.mem_append_left _ hexchange⟩
      | expiredToken header lastError => exact ⟨rfl, rfl⟩
      | needRetry lastError =>
          exact Or.inl ⟨hsize, rfl, by simp [getFileHeader, Meta.Definite],
            by simp [getFileHeader, Meta.Final]⟩
      | failed => exact Or.inl ⟨hsize, rfl, rfl⟩
      | raises status err =>
          cases status with
          | none => exact Or.inr ⟨⟨err, rfl⟩, by simp [getFileHeader, hstatus]⟩
          | some status => exact Or.inr ⟨⟨err, rfl⟩, rfl⟩
      | unchanged header =>
          cases y with
          | zero =>
              have hstatus : file.resultStatus = some .uploaded := hstatus
              rw [if_pos rfl]
              simp only [getFileHeader, Meta.record_resultStatus, hstatus]
              refine Or.inl ⟨hsize, rfl, ?_, ?_, ?_⟩
              · simp only [reduceCtorEq, Option.some.injEq, if_false, Meta.Definite,
                  Meta.record_resultStatus, hstatus]
                exact ⟨body, encryptionMetadata, gcsFileHeader, List.mem_append_left _ hexchange⟩
              · simp [Meta.Final, hstatus]
              · simp [hstatus]
          | succ y =>
              have hstatus : file.resultStatus = some .notFoundFile := hstatus
              rw [if_neg (by omega)]
              simp only [getFileHeader, Meta.record_resultStatus, hstatus, if_true]
              exact ih (y + 2) _ hsize hstatus (fun _ => by omega)
                ⟨body, encryptionMetadata, gcsFileHeader, List.mem_append_left _ hexchange⟩

/-- A first header request that leaves the status alone finds that of the renewal before. -/
theorem uploadPass_of_stale {body : Body} {encryptionMetadata : Option EncryptionMetadata}
    {t : Try} {file : Meta} {url : Bool} {header : FileHeader} (hoverwrite : file.overwrite = false)
    (hstatus : file.resultStatus = some (renewStatus url)) (hheader : t.header = .unchanged header) :
    uploadPass body encryptionMetadata t file =
      (.ok true, file.record (.header (.unchanged header))) := by
  have hreturns : returnsWith (some (renewStatus url)) = true := by cases url <;> rfl
  have hpresent : skipsPresent t.header file =
      (.ok false, file.record (.header (.unchanged header))) := by
    cases url <;> simp [skipsPresent, hoverwrite, hheader, getFileHeader, hstatus, renewStatus]
  have hnot : ¬ ((file.record (.header (.unchanged header))).overwrite = true ∨
      (file.record (.header (.unchanged header))).resultStatus = some .notFoundFile) := by
    cases url <;> simp [hoverwrite, hstatus, renewStatus]
  unfold uploadPass
  rw [hpresent]
  dsimp only
  rw [if_neg hnot]
  simp [endPass, hstatus, hreturns, Except.map]

theorem uploadEnd_of_stale {overwrite : Bool} {tries : Nat → Try} {url : Bool}
    {header : FileHeader} (hoverwrite : overwrite = false)
    (hheader : (tries 0).header = .unchanged header) :
    uploadEnd overwrite (some url) tries = .renewed url := by
  simp only [uploadEnd, hoverwrite, hheader]

theorem uploadEnd_of_not_stale {overwrite : Bool} {tries : Nat → Try} {stale : Option Bool}
    (h : (∃ header, (tries 0).header = .unchanged header) → overwrite = false → stale = none) :
    uploadEnd overwrite stale tries = passesEnd overwrite tries defaultMaxRetry 0 := by
  unfold uploadEnd
  split
  · next url header hheader =>
    have hnone := h ⟨header, hheader⟩ rfl
    contradiction
  · rfl

theorem uploadEnd_leaves (body : Body) (encryptionMetadata : Option EncryptionMetadata)
    {stale : Option Bool} (name : String) (tries : Nat → Try) (file : Meta)
    (hstale : file.resultStatus = stale.map renewStatus) :
    (uploadEnd file.overwrite stale tries).Leaves () body encryptionMetadata file
      (uploadLoop body encryptionMetadata name tries defaultMaxRetry 0 none file) := by
  by_cases hfirst : (∃ header, (tries 0).header = .unchanged header) ∧
      file.overwrite = false ∧ stale.isSome = true
  · obtain ⟨⟨header, hheader⟩, hoverwrite, hsome⟩ := hfirst
    obtain ⟨url, rfl⟩ := Option.isSome_iff_exists.mp hsome
    rw [uploadEnd_of_stale hoverwrite hheader, defaultMaxRetry, uploadLoop,
      uploadPass_of_stale hoverwrite hstale hheader]
    exact ⟨rfl, hstale, .of_exchanges rfl rfl⟩
  · have hnone : (∃ header, (tries 0).header = .unchanged header) → file.overwrite = false →
        stale = none := by
      intro hheader hoverwrite
      exact Option.not_isSome_iff_eq_none.mp fun hsome => hfirst ⟨hheader, hoverwrite, hsome⟩
    rw [uploadEnd_of_not_stale hnone]
    exact uploadLoop_spec name tries defaultMaxRetry 0 none file
      fun hheader hoverwrite => by simp [Meta.Idle, hstale, hnone hheader hoverwrite]

/-! ### the `try` block of an upload -/

/-- A step that does not throw. -/
theorem exists_of_throws {β : Type} {x : Except String β} (h : throws x = false) :
    ∃ b, x = .ok b := by
  cases x with
  | error err => contradiction
  | ok b => exact ⟨b, rfl⟩

theorem exists_of_throws_true {β : Type} {x : Except String β} (h : throws x = true) :
    ∃ err, x = .error err := by
  cases x with
  | error err => exact ⟨err, rfl⟩
  | ok b => contradiction

/-- What is left of an upload whose loop has ended: an uploaded file is looked for. -/
theorem leavesBlock_of_uploadEnd (breaks : Bool) {body : Body}
    {encryptionMetadata : Option EncryptionMetadata} {e : UploadEnd} {file file' : Meta}
    {r : Except String Unit} (checks : Nat → HeaderOutcome)
    (h : e.Leaves () body encryptionMetadata file (r, file'))
    (hsize : file.uploadSize.isSome = true) :
    (afterLoop file.resultStatus.isSome checks e).LeavesBlock breaks
      (match r with
      | .error err => (.error err, file')
      | .ok () =>
          if file'.resultStatus = some .uploaded then
            RemoteStorageUtil.checkUploaded checks 10 0 file'
          else (.ok (), file')) := by
  cases e with
  | skipped =>
      obtain ⟨hok, hstatus, hsize', hfound⟩ := h
      obtain rfl : r = .ok () := hok
      have hstatus : file'.resultStatus = some .skipped := hstatus
      have hother : ¬ file'.resultStatus = some .uploaded := by simp [hstatus]
      simp only [if_neg hother]
      exact Or.inl ⟨hsize', rfl, by simpa [Meta.Definite, hstatus] using hfound,
        by simp [Meta.Final, hstatus], by simp [hstatus]⟩
  | uploaded =>
      obtain ⟨hok, hstatus, hsize', gcsFileHeader, hexchange⟩ := h
      obtain rfl : r = .ok () := hok
      have hstatus : file'.resultStatus = some .uploaded := hstatus
      have hsome : file'.dstFileSize.isSome = true := by
        have hsize' : file'.dstFileSize = file.uploadSize.map Int.ofNat := hsize'
        rw [hsize', Option.isSome_map, hsize]
      simp only [if_pos hstatus]
      exact checkUploaded_leavesBlock checks 10 0 file' hsome hstatus (by simp)
        ⟨body, encryptionMetadata, gcsFileHeader, hexchange⟩
  | renewed url =>
      obtain ⟨hok, hstatus, _⟩ := h
      obtain rfl : r = .ok () := hok
      have hstatus : file'.resultStatus = some (renewStatus url) := hstatus
      have hother : ¬ file'.resultStatus = some .uploaded := by
        cases url <;> simp [hstatus, renewStatus]
      simp only [if_neg hother]
      exact ⟨rfl, hstatus⟩
  | raised noted =>
      obtain ⟨⟨err, herr⟩, hstatus⟩ := h
      obtain rfl : r = .error err := herr
      exact raisedFate_leavesBlock ⟨err, rfl⟩ hstatus

/-- The same, with the upload and what comes after it written as the code has them. -/
theorem leavesBlock_of_uploadLoop {breaks : Bool} {body : Body}
    {encryptionMetadata : Option EncryptionMetadata} {stale : Option Bool} (name : String)
    (tries : Nat → Try) (checks : Nat → HeaderOutcome) (file : Meta)
    (hstale : file.resultStatus = stale.map renewStatus) (hsize : file.uploadSize.isSome = true) :
    (afterLoop file.resultStatus.isSome checks
      (uploadEnd file.overwrite stale tries)).LeavesBlock breaks
      (match uploadLoop body encryptionMetadata name tries defaultMaxRetry 0 none file with
      | (.error err, file) => (.error err, file)
      | (.ok (), file) =>
          if file.resultStatus = some .uploaded then
            RemoteStorageUtil.checkUploaded checks 10 0 file
          else (.ok (), file)) := by
  have hends := uploadEnd_leaves body encryptionMetadata name tries file hstale
  revert hends
  obtain ⟨r, file'⟩ := uploadLoop body encryptionMetadata name tries defaultMaxRetry 0 none file
  intro hends
  have hblock := leavesBlock_of_uploadEnd breaks checks hends hsize
  cases r <;> exact hblock

theorem remoteUpload_leavesBlock {breaks : Bool} {stale : Option Bool} (a : UploadAttempt)
    (file : Meta) (hstale : file.resultStatus = stale.map renewStatus)
    (hsize : file.uploadSize.isSome = true) :
    (remoteUploadFate (uploadView file) stale a).LeavesBlock breaks
      (RemoteStorageUtil.uploadOneFileWithRetry a.encryptFile a.tries a.checks file) := by
  have hnoted : stale.isSome = file.resultStatus.isSome := by rw [hstale, Option.isSome_map]
  unfold remoteUploadFate RemoteStorageUtil.uploadOneFileWithRetry RemoteStorageUtil.uploadOneFile
  rw [uploadView_encrypts, uploadView_overwrite, hnoted]
  by_cases hencrypts : file.encryptionMaterial.isSome = true
  · rw [if_pos hencrypts]
    cases hencrypt : a.encryptFile with
    | error err =>
        rw [if_pos ⟨hencrypts, by rfl⟩]
        exact raisedFate_leavesBlock ⟨err, rfl⟩ rfl
    | ok r =>
        rw [if_neg (by simp [throws])]
        exact leavesBlock_of_uploadLoop r.2 a.tries a.checks file hstale hsize
  · rw [if_neg hencrypts, if_neg fun h => hencrypts h.1]
    exact leavesBlock_of_uploadLoop file.realSrcFilePath a.tries a.checks file hstale hsize

theorem tryUpload_leavesBlock (breaks : Bool) {stale : Option Bool} (location : LocationType)
    (a : UploadAttempt) (file : Meta) (hstale : file.resultStatus = stale.map renewStatus) :
    (tryUploadFate location (uploadView file) stale a).LeavesBlock breaks
      (tryUpload location a file) := by
  have hnoted : file.resultStatus.isSome = stale.isSome := by rw [hstale, Option.isSome_map]
  unfold tryUploadFate tryUpload
  rw [uploadView_requireCompress]
  by_cases hcompress : file.requireCompress = true ∧ throws a.compressFileWithGZIP = true
  · obtain ⟨err, herr⟩ := exists_of_throws_true hcompress.2
    rw [if_pos hcompress, if_pos hcompress.1, herr]
    exact raisedFate_leavesBlock ⟨err, rfl⟩ hnoted
  · rw [if_neg hcompress]
    obtain ⟨realSrcFilePath, hpath⟩ : ∃ realSrcFilePath,
        (if file.requireCompress = true then a.compressFileWithGZIP else .ok file.srcFilePath) =
          .ok realSrcFilePath := by
      by_cases hrequired : file.requireCompress = true
      · rw [if_pos hrequired]
        exact exists_of_throws (by simpa [hrequired] using hcompress)
      · exact ⟨_, if_neg hrequired⟩
    rw [hpath]
    cases hdigest : a.getDigestAndSizeForFile with
    | error err =>
        rw [if_pos (by rfl)]
        exact raisedFate_leavesBlock ⟨err, rfl⟩ hnoted
    | ok r =>
        rw [if_neg (by simp [throws])]
        cases location with
        | remote location => exact remoteUpload_leavesBlock a _ hstale rfl
        | other name => exact raisedFate_leavesBlock ⟨_, rfl⟩ hnoted
        | localFs =>
            cases hcopy : a.copy with
            | error err =>
                dsimp only [LocalUtil.uploadOneFileWithRetry]
                rw [if_pos (by rfl)]
                exact raisedFate_leavesBlock ⟨err, rfl⟩ hnoted
            | ok u =>
                dsimp only [LocalUtil.uploadOneFileWithRetry]
                rw [if_neg (by simp [throws])]
                refine Or.inl ⟨rfl, rfl, ?_, by simp [uploadFile, carryOut, Meta.Final],
                  by simp [uploadFile, carryOut]⟩
                exact ⟨_, none, none, List.mem_append_right _ (List.mem_singleton.mpr rfl)⟩

/-! ### what an upload does not change -/

theorem keeps_checkUploaded (checks : Nat → HeaderOutcome) (left y : Nat) (file : Meta) :
    file.Keeps (RemoteStorageUtil.checkUploaded checks left y file).2 := by
  induction left generalizing y file with
  | zero => exact .refl file
  | succ left ih =>
      have hheader := keeps_getFileHeader (checks y) file
      rw [RemoteStorageUtil.checkUploaded]
      revert hheader
      obtain ⟨r, file'⟩ := getFileHeader (checks y) file
      intro hheader
      cases r with
      | error err => exact hheader
      | ok fileHeader =>
          dsimp only
          split
          · exact hheader.trans (ih (y + 1) file')
          · exact hheader

theorem keeps_remoteUpload (encryptFile : Except String (EncryptionMetadata × String))
    (tries : Nat → Try) (checks : Nat → HeaderOutcome) (file : Meta) :
    file.Keeps (RemoteStorageUtil.uploadOneFileWithRetry encryptFile tries checks file).2 := by
  have hupload : file.Keeps (RemoteStorageUtil.uploadOneFile encryptFile tries file).2 := by
    unfold RemoteStorageUtil.uploadOneFile
    split
    · cases encryptFile with
      | error err => exact .refl file
      | ok r => exact keeps_uploadLoop _ tries _ _ _ file
    · exact keeps_uploadLoop _ tries _ _ _ file
  rw [RemoteStorageUtil.uploadOneFileWithRetry]
  revert hupload
  obtain ⟨r, file'⟩ := RemoteStorageUtil.uploadOneFile encryptFile tries file
  intro hupload
  cases r with
  | error err => exact hupload
  | ok u =>
      dsimp only
      split
      · exact hupload.trans (keeps_checkUploaded checks 10 0 file')
      · exact hupload

theorem uploadView_tryUpload (location : LocationType) (a : UploadAttempt) (file : Meta) :
    uploadView (tryUpload location a file).2 = uploadView file := by
  unfold tryUpload
  split
  · rfl
  · cases a.getDigestAndSizeForFile with
    | error err => rfl
    | ok r =>
        cases location with
        | remote location => exact (keeps_remoteUpload a.encryptFile a.tries a.checks _).uploadView_eq
        | other name => rfl
        | localFs => cases hcopy : a.copy <;> rfl

/-- An attempt to upload a file leaves it as its fate says. -/
theorem uploadOneFile_leaves {breaks : Bool} {stale : Option Bool} (location : LocationType)
    (a : UploadAttempt) (file : Meta) (hstale : file.resultStatus = stale.map renewStatus) :
    (uploadFate location (uploadView file) stale a).Leaves uploadView breaks file
      (uploadOneFile location a file) := by
  rw [uploadFate, uploadOneFile]
  cases hmkdtemp : a.mkdtemp with
  | error err =>
      rw [if_pos (Or.inl (by rfl))]
      exact ⟨err, rfl⟩
  | ok u =>
      cases hrm : a.rm with
      | error err =>
          rw [if_pos (Or.inr (by rfl))]
          exact ⟨err, rfl⟩
      | ok u' =>
          rw [if_neg (by simp [throws])]
          have hblock := tryUpload_leavesBlock breaks location a
            { file with realSrcFilePath := file.srcFilePath } hstale
          have hview := uploadView_tryUpload location a
            { file with realSrcFilePath := file.srcFilePath }
          refine Fate.LeavesBlock.leaves hblock ?_ hview fun _ _ => rfl
          obtain ⟨r, file'⟩ := tryUpload location a
            { file with realSrcFilePath := file.srcFilePath }
          cases r with
          | error err => exact ⟨fun h => (by cases h), fun _ _ => ⟨_, _, rfl⟩⟩
          | ok u'' => exact ⟨fun _ => rfl, fun _ h => (by cases h)⟩

/-! ## the fate of a download -/

/-- Whether a header request writes a status. -/
def HeaderOutcome.notes : HeaderOutcome → Bool
  | .unchanged _ => false
  | .raises status _ => status.isSome
  | _ => true

/-- What the download loop comes to; `noted` when a status was written before. -/
def downloadsFate (transfers : Nat → TransferOutcome) : Bool → Nat → Nat → Fate
  | noted, 0, _ => raisedFate noted
  | noted, left + 1, retry =>
      match transfers retry with
      | .done _ => .definite
      | .expiredToken _ => .renews false
      | .expiredUrl _ => .renews true
      | .needRetry _ => downloadsFate transfers true left (retry + 1)
      | .needRetryWithLowerConcurrency _ => downloadsFate transfers true left (retry + 1)
      | .raises _ => raisedFate noted

def remoteDownloadFate (stale : Option Bool) (d : RemoteDownload) : Fate :=
  if throws d.realpath = true then raisedFate stale.isSome
  else
    match d.header with
    | .raises status _ => raisedFate (stale.isSome || status.isSome)
    | header => downloadsFate d.transfers (stale.isSome || header.notes) defaultMaxRetry 0

/-- The fate of an attempt to download a file. -/
def downloadFate (location : LocationType) (stale : Option Bool) (a : DownloadAttempt) : Fate :=
  if throws a.mkdtemp = true then .throws
  else
    match location with
    | .remote _ => remoteDownloadFate stale a.remote
    | .localFs => if throws a.copy = true then raisedFate stale.isSome else .definite
    | .other _ => raisedFate stale.isSome

/-! ### the `try` block of a download -/

theorem getFileHeader_resultStatus_isSome (outcome : HeaderOutcome) (file : Meta) :
    (getFileHeader outcome file).2.resultStatus.isSome =
      (file.resultStatus.isSome || outcome.notes) := by
  cases outcome with
  | raises status err => cases status <;> simp [getFileHeader, HeaderOutcome.notes]
  | found _ | notFound | expiredToken _ _ | needRetry _ | failed | unchanged _ =>
      simp [getFileHeader, HeaderOutcome.notes]

/-- A file that was downloaded is confirmed, or becomes an error. -/
theorem finishDownload_leavesBlock (d : RemoteDownload) (fileHeader : Option FileHeader)
    (file : Meta) (hstatus : file.resultStatus = some .downloaded)
    (hdownloaded : ∃ gcsFileHeader, .download (.done gcsFileHeader) ∈ file.exchanges) :
    Fate.definite.LeavesBlock false (finishDownload d fileHeader file) := by
  obtain ⟨gcsFileHeader, hexchange⟩ := hdownloaded
  have hdone : ∀ file' : Meta, file'.resultStatus = some .downloaded →
      .download (.done gcsFileHeader) ∈ file'.exchanges →
      Fate.definite.LeavesBlock false (.ok (), { file' with dstFileSize := some ↑d.size }) := by
    intro file' hstatus' hexchange'
    refine Or.inl ⟨rfl, rfl, ?_, by simp [Meta.Final, hstatus'], by simp [hstatus']⟩
    simp only [Meta.Definite, hstatus']
    exact ⟨gcsFileHeader, hexchange'⟩
  have hraised : ∀ (err : String) (file' : Meta), file'.resultStatus = some .downloaded →
      Fate.definite.LeavesBlock false (.error err, file') := by
    intro err file' hstatus'
    exact Or.inr ⟨rfl, ⟨err, rfl⟩, by simp [hstatus']⟩
  unfold finishDownload
  by_cases hencrypts : file.encryptionMaterial.isSome = true
  · rw [if_pos hencrypts]
    by_cases hurl : file.presignedUrl.isSome = true
    · simp only [if_pos hurl]
      cases d.decrypt (GCSUtil.cachedHeader file).encryptionMetadata with
      | error err => exact hraised err _ hstatus
      | ok u => exact hdone _ hstatus (List.mem_append_left _ hexchange)
    · simp only [if_neg hurl]
      cases fileHeader with
      | none => exact hraised _ file hstatus
      | some header =>
          dsimp only
          cases d.decrypt header.encryptionMetadata with
          | error err => exact hraised err file hstatus
          | ok u => exact hdone file hstatus hexchange
  · rw [if_neg hencrypts]
    exact hdone file hstatus hexchange

theorem downloadLoop_leavesBlock (d : RemoteDownload) (fileHeader : Option FileHeader)
    (left retry : Nat) (lastErr : Option SdkError) (file : Meta) :
    (downloadsFate d.transfers file.resultStatus.isSome left retry).LeavesBlock false
      (downloadLoop d fileHeader left retry lastErr file) := by
  induction left generalizing retry lastErr file with
  | zero => cases lastErr <;> exact raisedFate_leavesBlock ⟨_, rfl⟩ rfl
  | succ left ih =>
      rw [downloadsFate, downloadLoop]
      cases htransfer : d.transfers retry with
      | done gcsFileHeader =>
          exact finishDownload_leavesBlock d fileHeader _ rfl
            ⟨gcsFileHeader, List.mem_append_right _ (List.mem_singleton.mpr rfl)⟩
      | expiredToken lastError => exact ⟨rfl, rfl⟩
      | expiredUrl lastError => exact ⟨rfl, rfl⟩
      | needRetry lastError => exact ih (retry + 1) _ _
      | needRetryWithLowerConcurrency lastError => exact ih (retry + 1) _ _
      | raises err => exact raisedFate_leavesBlock ⟨err, rfl⟩ rfl

theorem remoteDownload_leavesBlock {stale : Option Bool} (d : RemoteDownload) (file : Meta)
    (hstale : file.resultStatus = stale.map renewStatus) :
    (remoteDownloadFate stale d).LeavesBlock false
      (RemoteStorageUtil.downloadOneFile d file) := by
  have hnoted : file.resultStatus.isSome = stale.isSome := by rw [hstale, Option.isSome_map]
  unfold remoteDownloadFate RemoteStorageUtil.downloadOneFile
  cases hrealpath : d.realpath with
  | error err =>
      rw [if_pos (by rfl)]
      exact raisedFate_leavesBlock ⟨err, rfl⟩ hnoted
  | ok u =>
      rw [if_neg (by simp [throws])]
      have hheader := getFileHeader_resultStatus_isSome d.header file
      rw [hnoted] at hheader
      cases houtcome : d.header with
      | raises status err =>
          rw [houtcome] at hheader
          cases status with
          | none => exact raisedFate_leavesBlock ⟨err, rfl⟩ hheader
          | some status => exact raisedFate_leavesBlock ⟨err, rfl⟩ hheader
      | found _ | notFound | needRetry _ | failed | unchanged _ =>
          rw [houtcome] at hheader
          dsimp only
          rw [← hheader]
          exact downloadLoop_leavesBlock d _ defaultMaxRetry 0 none _
      | expiredToken header lastError =>
          rw [houtcome] at hheader
          dsimp only
          rw [← hheader]
          cases header <;> exact downloadLoop_leavesBlock d _ defaultMaxRetry 0 none _

theorem tryDownload_leavesBlock {stale : Option Bool} (location : LocationType)
    (a : DownloadAttempt) (file : Meta) (hmkdtemp : throws a.mkdtemp = false)
    (hstale : file.resultStatus = stale.map renewStatus) :
    (downloadFate location stale a).LeavesBlock false (tryDownload location a file) := by
  have hnoted : file.resultStatus.isSome = stale.isSome := by rw [hstale, Option.isSome_map]
  unfold downloadFate
  rw [if_neg (by simp [hmkdtemp])]
  cases location with
  | remote location => exact remoteDownload_leavesBlock a.remote file hstale
  | other name => exact raisedFate_leavesBlock ⟨_, rfl⟩ hnoted
  | localFs =>
      dsimp only [tryDownload, LocalUtil.downloadOneFile]
      cases hcopy : a.copy with
      | error err =>
          rw [if_pos (by rfl)]
          exact raisedFate_leavesBlock ⟨err, rfl⟩ hnoted
      | ok size =>
          rw [if_neg (by simp [throws])]
          refine Or.inl ⟨rfl, rfl, ?_, by simp [nativeDownloadFile, carryOut, Meta.Final],
            by simp [nativeDownloadFile, carryOut]⟩
          exact ⟨none, List.mem_append_right _ (List.mem_singleton.mpr rfl)⟩

/-! ### what a download does not change -/

theorem dstFileName_nativeDownloadFile (outcome : TransferOutcome) (file : Meta) :
    (nativeDownloadFile outcome file).2.dstFileName = file.dstFileName := by
  cases outcome <;> rfl

theorem dstFileName_finishDownload (d : RemoteDownload) (fileHeader : Option FileHeader)
    (file : Meta) : (finishDownload d fileHeader file).2.dstFileName = file.dstFileName := by
  grind [finishDownload, Meta.record]

theorem dstFileName_downloadLoop (d : RemoteDownload) (fileHeader : Option FileHeader)
    (left retry : Nat) (lastErr : Option SdkError) (file : Meta) :
    (downloadLoop d fileHeader left retry lastErr file).2.dstFileName = file.dstFileName := by
  induction left generalizing retry lastErr file with
  | zero => cases lastErr <;> rfl
  | succ left ih =>
      have hdownload := dstFileName_nativeDownloadFile (d.transfers retry) file
      rw [downloadLoop]
      revert hdownload
      obtain ⟨r, file'⟩ := nativeDownloadFile (d.transfers retry) file
      intro hdownload
      cases r with
      | error err => exact hdownload
      | ok u =>
          dsimp only
          split
          · rw [dstFileName_finishDownload, hdownload]
          · split
            · exact hdownload
            · rw [ih, hdownload]

theorem dstFileName_tryDownload (location : LocationType) (a : DownloadAttempt) (file : Meta) :
    (tryDownload location a file).2.dstFileName = file.dstFileName := by
  cases location with
  | other name => rfl
  | localFs => cases hcopy : a.copy <;> simp [tryDownload, LocalUtil.downloadOneFile, hcopy,
      dstFileName_nativeDownloadFile]
  | remote location =>
      have hheader := (keeps_getFileHeader a.remote.header file).dstFileName
      dsimp only [tryDownload]
      unfold RemoteStorageUtil.downloadOneFile
      cases a.remote.realpath with
      | error err => rfl
      | ok u =>
          dsimp only
          revert hheader
          obtain ⟨r, file'⟩ := getFileHeader a.remote.header file
          intro hheader
          cases r with
          | error err => exact hheader
          | ok fileHeader =>
              dsimp only
              rw [dstFileName_downloadLoop]
              cases fileHeader <;> exact hheader

/-- An attempt to download a file leaves it as its fate says. -/
theorem downloadOneFile_leaves {stale : Option Bool} (location : LocationType)
    (a : DownloadAttempt) (file : Meta) (hstale : file.resultStatus = stale.map renewStatus) :
    (downloadFate location stale a).Leaves Meta.dstFileName false file
      (downloadOneFile location a file) := by
  rw [downloadOneFile]
  cases hmkdtemp : a.mkdtemp with
  | error err =>
      unfold downloadFate
      rw [hmkdtemp, if_pos (by rfl)]
      exact ⟨err, rfl⟩
  | ok u =>
      have hblock := tryDownload_leavesBlock location a file (by simp [hmkdtemp, throws]) hstale
      have hview := dstFileName_tryDownload location a file
      revert hblock hview
      obtain ⟨r, file'⟩ := tryDownload location a file
      intro hblock hview
      cases r with
      | error err =>
          exact Fate.LeavesBlock.leaves hblock ⟨fun h => (by cases h), fun _ _ => ⟨_, _, rfl⟩⟩
            hview fun _ _ => rfl
      | ok u' =>
          exact Fate.LeavesBlock.leaves hblock ⟨fun _ => rfl, fun _ h => (by cases h)⟩
            hview fun _ _ => rfl

/-! ## the two transfers -/

/-- New urls change nothing else. -/
theorem updatePutUrls_eq_ok {stageInfo : StageInfo} {presign : Except String (Nat → Option String)}
    {update : Job UploadAttempt → Job UploadAttempt}
    (h : updatePutUrls stageInfo presign = .ok update) :
    update = id ∨ ∃ urls, update = Job.setPresignedUrl urls := by
  unfold updatePutUrls at h
  split at h
  · obtain ⟨urls, _, rfl⟩ := Loops.map_eq_ok_iff.mp h
    exact Or.inr ⟨urls, rfl⟩
  · exact Or.inl (Except.ok.inj h).symm

theorem updateGetUrls_eq_ok {data : GetData} {update : Job DownloadAttempt → Job DownloadAttempt}
    (h : updateGetUrls data = .ok update) :
    update = id ∨ ∃ urls, update = Job.setPresignedUrl urls := by
  unfold updateGetUrls at h
  split at h
  · split at h
    · split at h
      · exact Or.inl (Except.ok.inj h).symm
      · contradiction
    · exact Or.inr ⟨_, (Except.ok.inj h).symm⟩
  · exact Or.inl (Except.ok.inj h).symm

/-- The uploads of a PUT; an error ends the loop. -/
def putTransfer (stageInfo : StageInfo) : Transfer UploadAttempt UploadView where
  transferOneFile := uploadOneFile stageInfo.locationType
  refresh a := updatePutUrls stageInfo a.presign
  breaks := true
  view := uploadView
  attemptEnd := uploadFate stageInfo.locationType
  leaves _ a file hstale := uploadOneFile_leaves stageInfo.locationType a file hstale
  view_setClient _ _ := rfl
  refresh_file a update h job := by
    obtain rfl | ⟨urls, rfl⟩ := updatePutUrls_eq_ok h <;> exact ⟨rfl, rfl, rfl, rfl⟩

/-- The downloads of a GET; an error does not end the loop. -/
def getTransfer (data : GetData) : Transfer DownloadAttempt String where
  transferOneFile := downloadOneFile data.stageInfo.locationType
  refresh _ := updateGetUrls data
  breaks := false
  view := Meta.dstFileName
  attemptEnd _ := downloadFate data.stageInfo.locationType
  leaves _ a file hstale := downloadOneFile_leaves data.stageInfo.locationType a file hstale
  view_setClient _ _ := rfl
  refresh_file a update h job := by
    obtain rfl | ⟨urls, rfl⟩ := updateGetUrls_eq_ok h <;> exact ⟨rfl, rfl, rfl, rfl⟩

end FileTransferAgent

end SnowflakeConnector
