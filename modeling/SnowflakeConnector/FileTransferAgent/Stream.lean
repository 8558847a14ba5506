import Mathlib
import SnowflakeConnector.FileTransferAgent
import SnowflakeConnector.Loops

/-!
# SnowflakeConnector.FileTransferAgent.Stream

The upload of a stream, as stage binds use it: `execute` returns whenever the upload does,
whatever the status of the file is then.

* `stream_stored_iff` -- an upload that returns has stored the stream or found it there,
  unless the first conclusive answer is that a token or an url has expired.
-/

namespace SnowflakeConnector

namespace FileTransferAgent

/-- The turn says nothing about the file: the loop goes on. -/
def Try.Inconclusive (overwrite : Bool) (t : Try) : Prop :=
  ∃ noted, t.passEnd overwrite = .goesOn noted

/-- The turn meets a token or an url that has expired. -/
def Try.Expires (overwrite : Bool) (t : Try) : Prop :=
  ∃ url, t.passEnd overwrite = .ends (.renewed url)

/-- The first conclusive turn of the loop meets a token or an url that has expired. -/
def FirstExpires (overwrite : Bool) (tries : Nat → Try) : Prop :=
  ∃ n < defaultMaxRetry, (∀ m < n, (tries m).Inconclusive overwrite) ∧ (tries n).Expires overwrite

/-- What is to be stored: the stream, or what it was encrypted to. -/
def streamBody (data : PutData) (fileStream : List UInt8) (e : StreamEvents) :
    Body × Option EncryptionMetadata :=
  match data.encryptionMaterial, e.encryptFileStream with
  | some _, .ok (encryptionMetadata, dataStream) => (.stream dataStream, some encryptionMetadata)
  | _, _ => (.stream fileStream, none)

/-- The storage service has confirmed that it has the data: it accepted the upload, or it
found the file. -/
def Meta.Stored (body : Body × Option EncryptionMetadata) (file : Meta) : Prop :=
  (∃ gcsFileHeader, .upload body.1 body.2 (.done gcsFileHeader) ∈ file.exchanges) ∨
    ∃ header, .header (.found header) ∈ file.exchanges

/-- The command gets as far as the first call for the stream. -/
structure Starts (data : PutData) (e : StreamEvents) : Prop where
  command : data.command = .upload
  location : ∃ l, data.stageInfo.locationType = .remote l
  accelerate : data.stageInfo.locationType = .remote .s3 → e.transferAccelerateConfig = .ok ()
  presign : asksForUrls data.stageInfo = true → ∃ url, e.presign = .ok url
  client : ∃ client, e.createClient = .ok client
  compression : ∃ dstCompressionType, e.lookupByEncoding = .ok dstCompressionType
  encrypt : data.encryptionMaterial.isSome = true → ∃ r, e.encryptFileStream = .ok r

/-! ## the first conclusive turn -/

theorem passesEnd_renewed_iff {overwrite : Bool} {tries : Nat → Try} {left retry : Nat} :
    (∃ url, passesEnd overwrite tries left retry = .renewed url) ↔
      ∃ n < left, (∀ m < n, (tries (retry + m)).Inconclusive overwrite) ∧
        (tries (retry + n)).Expires overwrite := by
  induction left generalizing retry with
  | zero => simp [passesEnd]
  | succ left ih =>
      rw [passesEnd]
      cases hend : (tries retry).passEnd overwrite with
      | ends e =>
          have hconclusive : ¬ (tries retry).Inconclusive overwrite := by
            intro h
            obtain ⟨noted, h⟩ := h
            rw [hend] at h
            contradiction
          constructor
          · intro h
            obtain ⟨url, he⟩ := h
            exact ⟨0, by omega, by simp, url, by rw [Nat.add_zero, hend]; exact congrArg _ he⟩
          · intro h
            obtain ⟨n, hn, hbefore, url, he⟩ := h
            cases n with
            | zero =>
                rw [Nat.add_zero, hend] at he
                exact ⟨url, PassEnd.ends.inj he⟩
            | succ n => exact absurd (hbefore 0 (by omega)) hconclusive
      | goesOn noted =>
          have hnote : (∃ url, (passesEnd overwrite tries left (retry + 1)).note noted =
              .renewed url) ↔ ∃ url, passesEnd overwrite tries left (retry + 1) = .renewed url := by
            cases passesEnd overwrite tries left (retry + 1) <;> simp [UploadEnd.note]
          dsimp only
          rw [hnote, ih]
          constructor
          · intro h
            obtain ⟨n, hn, hbefore, he⟩ := h
            refine ⟨n + 1, by omega, ?_, by rwa [Nat.add_right_comm] at he⟩
            intro m hm
            cases m with
            | zero => exact ⟨noted, hend⟩
            | succ m =>
                have hm' := hbefore m (by omega)
                rwa [Nat.add_right_comm] at hm'
          · intro h
            obtain ⟨n, hn, hbefore, he⟩ := h
            cases n with
            | zero =>
                obtain ⟨url, he⟩ := he
                rw [Nat.add_zero, hend] at he
                contradiction
            | succ n =>
                refine ⟨n, by omega, ?_, by rwa [Nat.add_right_comm]⟩
                intro m hm
                rw [Nat.add_right_comm]
                exact hbefore (m + 1) (by omega)

theorem firstExpires_iff {overwrite : Bool} {tries : Nat → Try} :
    FirstExpires overwrite tries ↔
      ∃ url, passesEnd overwrite tries defaultMaxRetry 0 = .renewed url := by
  rw [passesEnd_renewed_iff]
  simp only [FirstExpires, Nat.zero_add]

/-! ## before the upload -/

section

variable {data : PutData} {srcLocation : String} {fileStream : List UInt8} {e : StreamEvents}
  {file : Meta}

/-- A meta that nothing was asked for yet. -/
structure Meta.Begins (file : Meta) (data : PutData) : Prop where
  overwrite : file.overwrite = data.overwrite
  encryptionMaterial : file.encryptionMaterial = data.encryptionMaterial
  resultStatus : file.resultStatus = none
  exchanges : file.exchanges = []

variable (srcLocation fileStream) in
theorem prepareStream_eq_ok (h : Starts data e) :
    ∃ file, prepareStream data srcLocation fileStream e = .ok file ∧ file.Begins data := by
  obtain ⟨l, hlocation⟩ := h.location
  obtain ⟨client, hclient⟩ := h.client
  obtain ⟨dstCompressionType, hcompression⟩ := h.compression
  have haccelerate : transferAccelerateConfig data.stageInfo e.transferAccelerateConfig =
      .ok () := by
    unfold transferAccelerateConfig
    split
    · next hs3 => exact h.accelerate hs3
    · rfl
  have hpresign : ∃ url, streamUrl data.stageInfo e.presign = .ok url := by
    unfold streamUrl
    split
    · next hasks => exact h.presign hasks
    · exact ⟨none, rfl⟩
  obtain ⟨presignedUrl, hpresign⟩ := hpresign
  unfold prepareStream
  rw [if_neg (by simp [h.command])]
  simp only [initFileMetadata, List.map_cons, List.map_nil, haccelerate, hpresign, hlocation,
    hclient, hcompression, bind, Except.bind]
  exact ⟨_, rfl, rfl, rfl, rfl, rfl⟩

/-- What is left to say of a command that gets as far as the encryption. -/
theorem starts_of_prepareStream (h : prepareStream data srcLocation fileStream e = .ok file) :
    file.Begins data ∧
      ((data.encryptionMaterial.isSome = true → ∃ r, e.encryptFileStream = .ok r) →
        Starts data e) := by
  unfold prepareStream at h
  split at h
  · contradiction
  · next hcommand =>
    simp only [initFileMetadata, List.map_cons, List.map_nil] at h
    obtain ⟨u, haccelerate, h⟩ := Loops.bind_eq_ok_iff.mp h
    obtain ⟨presignedUrl, hpresign, h⟩ := Loops.bind_eq_ok_iff.mp h
    split at h
    · contradiction
    · contradiction
    · next l hlocation =>
      obtain ⟨client, hclient, h⟩ := Loops.bind_eq_ok_iff.mp h
      obtain ⟨dstCompressionType, hcompression, h⟩ := Loops.bind_eq_ok_iff.mp h
      have hs3 : data.stageInfo.locationType = .remote .s3 →
          e.transferAccelerateConfig = .ok () := by
        intro hs3
        rwa [transferAccelerateConfig, if_pos hs3] at haccelerate
      have hasks : asksForUrls data.stageInfo = true → ∃ url, e.presign = .ok url := by
        intro hasks
        rw [streamUrl, if_pos hasks] at hpresign
        exact ⟨presignedUrl, hpresign⟩
      obtain rfl := Except.ok.inj h
      exact ⟨⟨rfl, rfl, rfl, rfl⟩, fun hencrypt => ⟨not_not.mp hcommand, ⟨l, hlocation⟩, hs3,
        hasks, ⟨client, hclient⟩, ⟨dstCompressionType, hcompression⟩, hencrypt⟩⟩

/-! ## the upload -/

variable (fileStream) in
/-- The upload leaves what the outcomes of its loop come to. -/
theorem uploadOneFileStream_spec (hfile : file.Begins data)
    (hencrypt : data.encryptionMaterial.isSome = true → ∃ r, e.encryptFileStream = .ok r) :
    (passesEnd data.overwrite e.tries defaultMaxRetry 0).Leaves ()
      (streamBody data fileStream e).1 (streamBody data fileStream e).2 file
      (RemoteStorageUtil.uploadOneFileStream fileStream e.encryptFileStream e.tries file) := by
  have hidle : file.Idle := by simp [Meta.Idle, hfile.resultStatus]
  rw [← hfile.overwrite]
  unfold RemoteStorageUtil.uploadOneFileStream streamBody
  rw [hfile.encryptionMaterial]
  cases hmaterial : data.encryptionMaterial with
  | none => exact uploadLoop_spec _ _ _ _ _ _ fun _ _ => hidle
  | some material =>
      obtain ⟨⟨encryptionMetadata, dataStream⟩, hencrypt⟩ := hencrypt (by rw [hmaterial]; rfl)
      rw [hencrypt]
      exact uploadLoop_spec _ _ _ _ _ _ fun _ _ => hidle

/-- What a stream upload that returns has gone through. -/
theorem executeStream_eq_ok (h : executeStream data srcLocation fileStream e = .ok file) :
    ∃ file', prepareStream data srcLocation fileStream e = .ok file' ∧
      RemoteStorageUtil.uploadOneFileStream fileStream e.encryptFileStream e.tries file' =
        (.ok (), file) := by
  unfold executeStream at h
  split at h
  · contradiction
  · next file' hprepare =>
    split at h
    · contradiction
    · next file'' hupload =>
      obtain rfl := Except.ok.inj h
      exact ⟨file', hprepare, hupload⟩

/-- An upload that returns was able to encrypt. -/
theorem encrypt_of_uploadOneFileStream {file' : Meta} (hfile : file'.Begins data)
    (h : RemoteStorageUtil.uploadOneFileStream fileStream e.encryptFileStream e.tries file' =
      (.ok (), file)) (hmaterial : data.encryptionMaterial.isSome = true) :
    ∃ r, e.encryptFileStream = .ok r := by
  unfold RemoteStorageUtil.uploadOneFileStream at h
  rw [hfile.encryptionMaterial, if_pos hmaterial] at h
  cases hencrypt : e.encryptFileStream with
  | error err => rw [hencrypt] at h; cases h
  | ok r => exact ⟨r, rfl⟩

/-- A confirmation is of the stream. -/
theorem Meta.Stored.confirms {body : Body × Option EncryptionMetadata} (h : file.Stored body) :
    ∃ x ∈ file.exchanges, x.confirms = true := by
  cases h with
  | inl h =>
      obtain ⟨gcsFileHeader, h⟩ := h
      exact ⟨_, h, rfl⟩
  | inr h =>
      obtain ⟨header, h⟩ := h
      exact ⟨_, h, rfl⟩

/-- A stream upload that returns has stored the stream, or found it there. -/
theorem stored_of_executeStream (hexecute : executeStream data srcLocation fileStream e = .ok file)
    (h : Starts data e → ¬ ∃ url, passesEnd data.overwrite e.tries defaultMaxRetry 0 = .renewed url) :
    file.Stored (streamBody data fileStream e) := by
  obtain ⟨file', hprepare, hupload⟩ := executeStream_eq_ok hexecute
  obtain ⟨hfile, hstarts⟩ := starts_of_prepareStream hprepare
  have hstarts := hstarts (encrypt_of_uploadOneFileStream hfile hupload)
  have hspec := uploadOneFileStream_spec fileStream hfile hstarts.encrypt
  rw [hupload] at hspec
  cases hend : passesEnd data.overwrite e.tries defaultMaxRetry 0 with
  | skipped =>
      rw [hend] at hspec
      exact Or.inr hspec.2.2.2
  | uploaded =>
      rw [hend] at hspec
      exact Or.inl hspec.2.2.2
  | renewed url => exact absurd ⟨url, hend⟩ (h hstarts)
  | raised noted =>
      rw [hend] at hspec
      obtain ⟨⟨err, herr⟩, _⟩ := hspec
      contradiction

/-- A stream upload returns without having stored the stream, or found it there, exactly
when it gets to the storage service and the first conclusive answer of the service is that
a token or an url has expired. -/
theorem stream_stored_iff (data : PutData) (srcLocation : String) (fileStream : List UInt8)
    (e : StreamEvents) :
    (∀ file, executeStream data srcLocation fileStream e = .ok file →
        file.Stored (streamBody data fileStream e)) ↔
      (Starts data e → ¬ FirstExpires data.overwrite e.tries) := by
  rw [firstExpires_iff]
  constructor
  · intro h hstarts ⟨url, hend⟩
    obtain ⟨file, hprepare, hfile⟩ := prepareStream_eq_ok srcLocation fileStream hstarts
    have hspec := uploadOneFileStream_spec fileStream hfile hstarts.encrypt
    rw [hend] at hspec
    obtain ⟨hok, hstatus, hunconfirmed⟩ := hspec
    have hexecute : executeStream data srcLocation fileStream e = .ok
        (RemoteStorageUtil.uploadOneFileStream fileStream e.encryptFileStream e.tries file).2 := by
      unfold executeStream
      rw [hprepare]
      dsimp only
      split
      · next err file' hupload => rw [hupload] at hok; contradiction
      · next file' hupload => rw [hupload]
    obtain ⟨x, hx, hconfirms⟩ := (h _ hexecute).confirms
    have hnone := hunconfirmed x hx hconfirms
    rw [hfile.exchanges] at hnone
    contradiction
  · intro h file hexecute
    exact stored_of_executeStream hexecute h

end

/-- The answer to a PUT of binds with an error of AWS that says that the token has expired. -/
def expiredToken : StreamEvents where
  transferAccelerateConfig := .ok ()
  presign := .ok none
  createClient := .ok none
  digest := ""
  lookupByEncoding := .ok (some "GZIP")
  encryptFileStream := .error ""
  tries _ :=
    { header := .failed
      transfer := S3Util.transfer (.fails ⟨some "ExpiredToken", "ExpiredToken", .undefined, none,
        some 400, "ExpiredToken: The provided token has expired."⟩) }

/-- The upload of the binds returns and nothing is stored. -/
theorem expired_token_loses_binds :
    ∃ file, executeStream ⟨.upload, ⟨.remote .s3, none⟩, true, none⟩ "1" [97, 10] expiredToken =
        .ok file ∧
      ¬ file.Stored (streamBody ⟨.upload, ⟨.remote .s3, none⟩, true, none⟩ [97, 10] expiredToken) := by
  refine ⟨_, rfl, ?_⟩
  intro h
  obtain ⟨x, hx, hconfirms⟩ := h.confirms
  revert x
  decide

/-! ## stage binds -/

/-- A file of the binds, with what its PUT is answered and meets. -/
structure BindFile where
  data : PutData
  fileName : String
  fileData : List UInt8
  events : StreamEvents

/-- `Upload` of `lib/connection/bind_uploader.js`: one PUT after the other; the first that
throws ends it. -/
def uploadBinds (files : List BindFile) : Except String (List Meta) :=
  files.mapM fun file => executeStream file.data file.fileName file.fileData file.events

/-- Binds that were uploaded are on the stage, unless a token or an url had expired. -/
theorem binds_stored {files : List BindFile} {metas : List Meta}
    (h : uploadBinds files = .ok metas)
    (hexpires : ∀ file ∈ files, ¬ FirstExpires file.data.overwrite file.events.tries) :
    List.Forall₂ (fun file stored => stored.Stored (streamBody file.data file.fileData file.events))
      files metas := by
  have hall := Loops.mapM_eq_ok_iff.mp h
  clear h
  induction hall with
  | nil => exact .nil
  | cons hfile _ ih =>
      have hfirst := hexpires _ (List.mem_cons_self ..)
      rw [firstExpires_iff] at hfirst
      exact .cons (stored_of_executeStream hfile fun _ => hfirst)
        (ih fun file hfile => hexpires file (List.mem_cons_of_mem _ hfile))

end FileTransferAgent

end SnowflakeConnector
