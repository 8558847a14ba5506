import Mathlib
import SnowflakeConnector.FileTransferAgent.EncryptUtil
import SnowflakeConnector.FileTransferAgent.Multipart
import SnowflakeConnector.FileTransferAgent.Resumable

/-!
# SnowflakeConnector.FileTransferAgent.RoundTrip

A file that is put on a stage and got back: `uploadOneFile` and `downloadOneFile` of
`lib/file_transfer_agent/remote_storage_util.js` with everything between them.  The file is
encrypted, sent to the service in one request or in parts, described by its metadata, and on
the way back decrypted with what the metadata say.

What a service stores is read off the requests that it was sent.

* `S3Util.storedObject_eq`, `AzureUtil.storedObject_eq` -- the parts that an upload lists are
  put together to its file.
* `getFile_putFile` -- what is put is got back.
-/

namespace SnowflakeConnector

namespace FileTransferAgent

open BlockCipher (Block)

/-! ## what a service stores -/

/-- An object on a storage: the metadata as they were sent, and its bytes. -/
structure StoredObject where
  metadata : Metadata
  content : List UInt8
  deriving DecidableEq

/-- The listed parts of those that were sent, one after the other. -/
def assemble {ι : Type} [DecidableEq ι] (sent : List (ι × List UInt8)) :
    List ι → Option (List UInt8)
  | [] => some []
  | id :: ids => do
      let body ← sent.lookup id
      let rest ← assemble sent ids
      some (body ++ rest)

namespace S3Util

def createdMetadata : S3Request → Option Metadata
  | .createMultipartUpload metadata => some metadata
  | _ => none

/-- The object that requests leave: its metadata come with the first of them, and the last
lists the parts by their numbers. -/
def storedObject (requests : List S3Request) : Option StoredObject := do
  let metadata ← requests.findSome? createdMetadata
  let parts ← requests.findSome? completionOf
  let content ← assemble (requests.filterMap partOf) (parts.map UploadedPart.partNumber)
  some ⟨metadata, content⟩

end S3Util

namespace AzureUtil

def committedMetadata : AzureRequest → Option Metadata
  | .commitBlockList _ metadata => some metadata
  | _ => none

/-- The metadata come with the list of the blocks. -/
def storedObject (requests : List AzureRequest) : Option StoredObject := do
  let metadata ← requests.findSome? committedMetadata
  let blockIds ← requests.findSome? completionOf
  let content ← assemble (requests.filterMap partOf) blockIds
  some ⟨metadata, content⟩

end AzureUtil

section

variable {ι : Type} [DecidableEq ι]

theorem lookup_of_nodup {sent : List (ι × List UInt8)} (hnodup : (sent.map Prod.fst).Nodup)
    {p : ι × List UInt8} (hp : p ∈ sent) : sent.lookup p.1 = some p.2 := by
  induction sent with
  | nil => contradiction
  | cons q sent ih =>
      rw [List.map_cons, List.nodup_cons] at hnodup
      rw [List.lookup_cons]
      rcases List.mem_cons.mp hp with rfl | hp
      · simp
      · have hne : p.1 ≠ q.1 := fun h => hnodup.1 (h ▸ List.mem_map_of_mem hp)
        rw [beq_eq_false_iff_ne.mpr hne]
        exact ih hnodup.2 hp

/-- A list of all parts, each with an id of its own. -/
theorem assemble_map_fst {sent : List (ι × List UInt8)} (hnodup : (sent.map Prod.fst).Nodup) :
    assemble sent (sent.map Prod.fst) = some (sent.map Prod.snd).flatten := by
  have hall : ∀ listed : List (ι × List UInt8), (∀ p ∈ listed, p ∈ sent) →
      assemble sent (listed.map Prod.fst) = some (listed.map Prod.snd).flatten := by
    intro listed hlisted
    induction listed with
    | nil => rfl
    | cons p listed ih =>
        rw [List.map_cons, assemble, lookup_of_nodup hnodup (hlisted p (by simp)),
          ih fun q hq => hlisted q (List.mem_cons_of_mem p hq)]
        rfl
  exact hall sent fun _ h => h

end

/-- The ids that receipts name are those of the parts that were accepted. -/
theorem map_of_forall₂ {ι ρ : Type} {send : Nat → Except SdkError ρ} {id : Nat → ι} {name : ρ → ι}
    (hname : ∀ n receipt, send n = .ok receipt → name receipt = id n) {numbers : List Nat}
    {receipts : List ρ}
    (h : List.Forall₂ (fun n receipt => send n = .ok receipt) numbers receipts) :
    receipts.map name = numbers.map id := by
  induction h with
  | nil => rfl
  | cons hreceipt _ ih => rw [List.map_cons, List.map_cons, ih, hname _ _ hreceipt]

/-- An upload that leaves its file as uploaded has listed its parts once, and they are put
together to the file. -/
theorem Assembles.assemble_eq {ι ρ : Type} [DecidableEq ι] {file : DataFile} {id : Nat → ι}
    {send : Nat → Except SdkError ρ} {completeError : Option SdkError} {run : MultipartRun ι ρ}
    (h : Assembles file id send completeError run (some .uploaded)) {name : ρ → ι}
    (hname : ∀ n receipt, send n = .ok receipt → name receipt = id n)
    (hnodup : (run.sent.map Prod.fst).Nodup) :
    ∃ receipts, run.completions = [receipts] ∧
      assemble run.sent (receipts.map name) = some file.content := by
  obtain ⟨receipts, hreceipts⟩ := List.length_eq_one_iff.mp (h.uploaded rfl).1
  have hmem : receipts ∈ run.completions := by
    rw [hreceipts]
    exact List.mem_singleton_self _
  refine ⟨receipts, hreceipts, ?_⟩
  rw [map_of_forall₂ hname (h.completion receipts hmem), ← h.ids, assemble_map_fst hnodup,
    h.covers (List.ne_nil_of_mem hmem)]

namespace S3Util

theorem createdMetadata_uploadFileMultipart (dataFile : DataFile) (digest : String)
    (encryptionMetadata : Option EncryptionMetadata) (events : S3Events) :
    (uploadFileMultipart dataFile digest encryptionMetadata events).2.findSome? createdMetadata =
      some (buildS3Metadata digest encryptionMetadata) := by
  unfold uploadFileMultipart
  cases events.create with
  | error err => rfl
  | ok uploadId =>
      dsimp only
      rcases transferParts dataFile (events.partsIo uploadId)
        (.completeMultipartUpload uploadId) events.fileIo with ⟨_ | _, s⟩ <;> rfl

/-- The parts of an upload are put together to its file. -/
theorem storedObject_eq {dataFile : DataFile} {digest : String}
    {encryptionMetadata : Option EncryptionMetadata} {events : S3Events} {body : Body} {file : Meta}
    (h : statusAfter body encryptionMetadata
      (uploadFileMultipart dataFile digest encryptionMetadata events).1 file = some .uploaded) :
    storedObject (uploadFileMultipart dataFile digest encryptionMetadata events).2 =
      some ⟨buildS3Metadata digest encryptionMetadata, dataFile.content⟩ := by
  have hassembles := uploadFileMultipart_assembles dataFile digest encryptionMetadata events body
    file
  rw [h] at hassembles
  have hname : ∀ n r, receipt events n = .ok r → r.partNumber = n := by
    intro n r hr
    cases hpart : events.part n with
    | error err => simp [receipt, hpart, Except.map] at hr
    | ok eTag =>
        simp only [receipt, hpart, Except.map, Except.ok.injEq] at hr
        rw [← hr]
  have hids := hassembles.ids
  rw [List.map_id'] at hids
  obtain ⟨parts, hparts, hcontent⟩ := hassembles.assemble_eq hname
    (hids ▸ List.nodup_range')
  have hlisted := List.head?_filterMap
    (f := completionOf) (l := (uploadFileMultipart dataFile digest encryptionMetadata events).2)
  simp only [multipartRun] at hparts hcontent
  rw [hparts, List.head?_cons] at hlisted
  simp [storedObject, createdMetadata_uploadFileMultipart, ← hlisted, hcontent]

end S3Util

namespace AzureUtil

/-- A list of blocks is sent with the metadata. -/
theorem committedMetadata_of_mem {dataFile : DataFile} {digest : String}
    {encryptionMetadata : Option EncryptionMetadata} {events : AzureEvents}
    {request : AzureRequest}
    (h : request ∈ (uploadFileMultipart dataFile digest encryptionMetadata events).2) :
    committedMetadata request =
      (completionOf request).map fun _ => buildAzureMetadata digest encryptionMetadata := by
  obtain ⟨sent, receipts, completed, hrequests, -, -⟩ :=
    transferParts_transfers dataFile events.partsIo
      (.commitBlockList · (buildAzureMetadata digest encryptionMetadata)) events.fileIo
  unfold uploadFileMultipart at h
  rcases htransfer : transferParts dataFile events.partsIo
    (.commitBlockList · (buildAzureMetadata digest encryptionMetadata)) events.fileIo with
    ⟨result, s⟩
  simp only [htransfer] at h hrequests
  have hmem : request ∈ s.requests ∨ request = .deleteIfExists := by
    cases result with
    | ok _ => exact Or.inl h
    | error err =>
        dsimp only at h
        split_ifs at h
        · exact Or.inl h
        · simpa using h
  rcases hmem with hmem | rfl
  · rw [hrequests, List.mem_append, List.mem_map] at hmem
    rcases hmem with ⟨p, _, rfl⟩ | hmem
    · rfl
    · obtain ⟨-, rfl⟩ : completed = true ∧ request = .commitBlockList receipts _ := by
        simpa using hmem
      rfl
  · rfl

theorem storedObject_eq {dataFile : DataFile} {digest : String}
    {encryptionMetadata : Option EncryptionMetadata} {events : AzureEvents} {body : Body}
    {file : Meta}
    (h : statusAfter body encryptionMetadata
      (uploadFileMultipart dataFile digest encryptionMetadata events).1 file = some .uploaded) :
    storedObject (uploadFileMultipart dataFile digest encryptionMetadata events).2 =
      some ⟨buildAzureMetadata digest encryptionMetadata, dataFile.content⟩ := by
  have hassembles := uploadFileMultipart_assembles dataFile digest encryptionMetadata events body
    file
  rw [h] at hassembles
  have hname : ∀ n r, receipt events n = .ok r → id r = blockId n := by
    intro n r hr
    cases hstage : events.stage n with
    | error err => simp [receipt, hstage, Except.map] at hr
    | ok _ =>
        simp only [receipt, hstage, Except.map, Except.ok.injEq] at hr
        rw [← hr, id]
  obtain ⟨blockIds, hblockIds, hcontent⟩ := hassembles.assemble_eq hname
    (blockIds_distinct hassembles).2
  have hlisted := List.head?_filterMap
    (f := completionOf) (l := (uploadFileMultipart dataFile digest encryptionMetadata events).2)
  simp only [multipartRun, List.map_id] at hblockIds hcontent
  rw [hblockIds, List.head?_cons] at hlisted
  have hmetadata : (uploadFileMultipart dataFile digest encryptionMetadata events).2.findSome?
      committedMetadata = some (buildAzureMetadata digest encryptionMetadata) := by
    rw [← List.head?_filterMap, List.filterMap_congr fun _ => committedMetadata_of_mem,
      ← List.map_filterMap, hblockIds]
    rfl
  simp [storedObject, hmetadata, ← hlisted, hcontent]

end AzureUtil

/-! ## there -/

/-- The storages of a stage. -/
inductive Storage
  | s3
  | azure
  | gcs
  deriving DecidableEq, Repr

/-- The metadata that an upload describes its object with. -/
def Storage.metadata (digest : String) (encryptionMetadata : Option EncryptionMetadata) :
    Storage → Metadata
  | .s3 => S3Util.buildS3Metadata digest encryptionMetadata
  | .azure => AzureUtil.buildAzureMetadata digest encryptionMetadata
  | .gcs => GCSUtil.buildGcsEncryptionHeaders digest encryptionMetadata

/-- How a file is sent: whole in one request, or in parts. -/
inductive Uploading (dataFile : DataFile) : Storage → Type
  | whole (storage : Storage) : Uploading dataFile storage
  | s3Parts (events : S3Events) : Uploading dataFile .s3
  | azureBlocks (events : AzureEvents) : Uploading dataFile .azure
  | gcsResumable (events : ResumableEvents dataFile.size) (fuel : Nat) : Uploading dataFile .gcs

/-- The object of an upload that leaves its file as uploaded. -/
def Uploading.store {dataFile : DataFile} (digest : String)
    (encryptionMetadata : Option EncryptionMetadata) (file : Meta) :
    {storage : Storage} → Uploading dataFile storage → Option StoredObject
  | _, .whole storage => some ⟨storage.metadata digest encryptionMetadata, dataFile.content⟩
  | _, .s3Parts events =>
      let run := S3Util.uploadFileMultipart dataFile digest encryptionMetadata events
      if statusAfter (.stream dataFile.content) encryptionMetadata run.1 file = some .uploaded then
        S3Util.storedObject run.2
      else none
  | _, .azureBlocks events =>
      let run := AzureUtil.uploadFileMultipart dataFile digest encryptionMetadata events
      if statusAfter (.stream dataFile.content) encryptionMetadata run.1 file = some .uploaded then
        AzureUtil.storedObject run.2
      else none
  | _, .gcsResumable events fuel => do
      let run ← GCSUtil.uploadFileResumable dataFile events digest encryptionMetadata file fuel
      if statusAfter (.stream dataFile.content) encryptionMetadata run.outcome file =
          some .uploaded then
        some ⟨GCSUtil.buildGcsEncryptionHeaders digest encryptionMetadata,
          run.state.session.received.take run.state.session.committed⟩
      else none

/-- A resumable upload that leaves its file as uploaded has committed all of it. -/
theorem GCSUtil.committed_eq {dataFile : DataFile} {events : ResumableEvents dataFile.size}
    {digest : String} {encryptionMetadata : Option EncryptionMetadata} {body : Body} {file : Meta}
    {fuel : Nat} {run : ResumableRun}
    (hrun : uploadFileResumable dataFile events digest encryptionMetadata file fuel = some run)
    (hstatus : statusAfter body encryptionMetadata run.outcome file = some .uploaded) :
    run.state.session.received.take run.state.session.committed = dataFile.content := by
  have hfailed : ∀ err requests s,
      some (ResumableRun.mk (applyGcsUploadError file err true) requests s) ≠ some run := by
    rintro err requests s h
    rw [← Option.some.inj h] at hstatus
    exact absurd hstatus (statusAfter_applyGcsUploadError body _ file file err true)
  unfold uploadFileResumable at hrun
  split at hrun
  · exact absurd hrun (hfailed _ _ _)
  · exact absurd hrun (hfailed _ _ _)
  · exact absurd hrun (hfailed _ _ _)
  · split at hrun
    · exact absurd hrun (hfailed _ _ _)
    · -- the loop has ended, and only without an error is there no deletion
      obtain ⟨⟨result, s⟩, hloop, hrun⟩ := Option.map_eq_some_iff.mp hrun
      have hrun := congrArg some hrun
      dsimp only at hrun
      split at hrun
      · exact absurd hrun (hfailed _ _ _)
      · exact absurd hrun (hfailed _ _ _)
      · obtain rfl := Option.some.inj hrun
        exact (sends_of_endsWith ⟨fuel, hloop⟩).2 rfl

/-- However a file is sent, the object is the file. -/
theorem Uploading.store_eq {dataFile : DataFile} {digest : String}
    {encryptionMetadata : Option EncryptionMetadata} {file : Meta} {storage : Storage}
    (transfer : Uploading dataFile storage) {object : StoredObject}
    (h : transfer.store digest encryptionMetadata file = some object) :
    object = ⟨storage.metadata digest encryptionMetadata, dataFile.content⟩ := by
  cases transfer with
  | whole => exact (Option.some.inj h).symm
  | s3Parts events =>
      simp only [store] at h
      split_ifs at h with hstatus
      rw [S3Util.storedObject_eq hstatus] at h
      exact (Option.some.inj h).symm
  | azureBlocks events =>
      simp only [store] at h
      split_ifs at h with hstatus
      rw [AzureUtil.storedObject_eq hstatus] at h
      exact (Option.some.inj h).symm
  | gcsResumable events fuel =>
      simp only [store, Option.bind_eq_bind, Option.bind_eq_some_iff] at h
      obtain ⟨run, hrun, h⟩ := h
      split_ifs at h with hstatus
      rw [← Option.some.inj h, GCSUtil.committed_eq hrun hstatus]
      rfl

/-! ## and back -/

/-- The header that a download with a presigned url makes of the response. -/
def GCSUtil.downloadedHeader (metadata : Metadata) (contentLength : Nat) :
    Except String HeaderValue :=
  let header := HeaderValue.mk (metadata.lookup gcsMetadataSfcDigest) (some contentLength)
  match metadata.lookup gcsMetadataEncryptionDataProp with
  | none | some "" => .ok (header .nothing)
  | some text =>
      match Json.parse text.toList with
      | none => .error "SyntaxError"
      | some envelope =>
          if envelope.isFalsy = true then .ok (header .nothing)
          else (readEnvelope envelope (metadata.lookup gcsMetadataMatDescKey)).map header

/-- The header that a downloaded object is decrypted with. -/
def MetadataService.downloadedHeader (object : StoredObject) :
    MetadataService → Except String HeaderValue
  | .s3 => .ok (S3Util.readHeader (returned object.metadata) object.content.length)
  | .azure => AzureUtil.readHeader (returned object.metadata) object.content.length
  | .gcsToken => GCSUtil.readTokenHeader (returned object.metadata) object.content.length
  | .gcsPresigned => GCSUtil.downloadedHeader (returned object.metadata) object.content.length

/-- How an object is asked for: on GCS with an access token or with a presigned url. -/
def Storage.service (presigned : Bool) : Storage → MetadataService
  | .s3 => .s3
  | .azure => .azure
  | .gcs => if presigned = true then .gcsPresigned else .gcsToken

/-- How a download throws. -/
inductive DownloadError
  | header (err : String)
  | notText
  | crypto (err : CryptoError)
  deriving DecidableEq, Repr

variable (aes : List UInt8 → Equiv.Perm (Block 16))

/-- `uploadOneFile`, up to the object that it leaves; sizes are JavaScript numbers. -/
def putFile (random : Random) (inputStream : ReadStream)
    (encryptionMaterial : Option EncryptionMaterial) (digest : String) (file : Meta)
    {storage : Storage} (transfer : (dataFile : DataFile) → Uploading dataFile storage)
    (content : DataFile) :
    Except CryptoError (Option StoredObject) :=
  match encryptionMaterial with
  | none => .ok ((transfer content).store digest none file)
  | some encryptionMaterial => do
      let encrypted ←
        EncryptUtil.encryptFile aes random inputStream encryptionMaterial content.content
      .ok (if h : encrypted.data.length ≤ maxSafeInteger then
        (transfer ⟨encrypted.data, h⟩).store digest (some encrypted.encryptionMetadata) file
      else none)

/-- `downloadOneFile`, from the object that is there.  The description is not looked at. -/
def getFile (inputStream : ReadStream) (encryptionMaterial : Option EncryptionMaterial)
    (service : MetadataService) (object : StoredObject) : Except DownloadError (List UInt8) :=
  match service.downloadedHeader object with
  | .error err => .error (.header err)
  | .ok header =>
      match encryptionMaterial with
      | none => .ok object.content
      | some encryptionMaterial =>
          match header.encryptionMetadata with
          | .metadata (some (.str key)) (some (.str iv)) _ =>
              (EncryptUtil.decryptFile aes inputStream ⟨key, iv, none⟩ encryptionMaterial
                object.content).mapError .crypto
          | _ => .error .notText

theorem GCSUtil.downloadedHeader_returned (digest : String)
    (encryptionMetadata : Option EncryptionMetadata) (contentLength : Nat) :
    downloadedHeader (returned (buildGcsEncryptionHeaders digest encryptionMetadata))
        contentLength =
      .ok ⟨some digest, some contentLength, .ofUpload encryptionMetadata⟩ := by
  rw [returned_buildGcsEncryptionHeaders]
  cases encryptionMetadata with
  | none => rfl
  | some m =>
      have hne := envelopeText_ne_empty "AES_CBC_256" m
      have hmatDesc := entry_lookup gcsMetadataMatDescKey m.matDesc
      have hlookup : List.lookup gcsMetadataMatDescKey (buildGcsEncryptionHeaders digest (some m)) =
          m.matDesc := by
        simpa [buildGcsEncryptionHeaders, gcsMetadataSfcDigest, gcsMetadataEncryptionDataProp,
          gcsMetadataMatDescKey, List.lookup] using hmatDesc
      have htruthy : (encryptionEnvelope "AES_CBC_256" m).isFalsy = false := rfl
      unfold downloadedHeader
      rw [hlookup]
      simp [buildGcsEncryptionHeaders, gcsMetadataSfcDigest, gcsMetadataEncryptionDataProp,
        List.lookup, parse_envelopeText, readEnvelope_encryptionEnvelope, htruthy, Except.map,
        EncryptionValue.ofUpload]

/-- An object that was not encrypted has a header that can be read. -/
theorem downloadedHeader_none (storage : Storage) (presigned : Bool) (digest : String)
    (content : List UInt8) :
    ∃ header, (storage.service presigned).downloadedHeader
      ⟨storage.metadata digest none, content⟩ = .ok header := by
  cases storage with
  | s3 => exact ⟨_, rfl⟩
  | azure => exact ⟨_, AzureUtil.readHeader_returned digest none content.length⟩
  | gcs =>
      cases presigned with
      | false => exact ⟨_, GCSUtil.readTokenHeader_returned digest none content.length⟩
      | true => exact ⟨_, GCSUtil.downloadedHeader_returned digest none content.length⟩

/-- The key and the vector come back from every storage. -/
theorem downloadedHeader_some (storage : Storage) (presigned : Bool) (digest : String)
    (content : List UInt8) {m : EncryptionMetadata} (hkey : m.key ≠ "") :
    ∃ header matDesc, (storage.service presigned).downloadedHeader
        ⟨storage.metadata digest (some m), content⟩ = .ok header ∧
      header.encryptionMetadata = .metadata (some (.str m.key)) (some (.str m.iv)) matDesc := by
  cases storage with
  | s3 => exact ⟨_, _, rfl, S3Util.readHeader_encryptionMetadata digest m content.length hkey⟩
  | azure => exact ⟨_, _, AzureUtil.readHeader_returned digest (some m) content.length, rfl⟩
  | gcs =>
      cases presigned with
      | false =>
          exact ⟨_, _, GCSUtil.readTokenHeader_returned digest (some m) content.length, rfl⟩
      | true =>
          exact ⟨_, _, GCSUtil.downloadedHeader_returned digest (some m) content.length, rfl⟩

variable {aes} {inputStream outputStream : ReadStream} {storage : Storage}

/-- An object with the bytes of a file is that file. -/
theorem getFile_plain (presigned : Bool) (digest : String) (content : List UInt8) :
    getFile aes outputStream none (storage.service presigned)
      ⟨storage.metadata digest none, content⟩ = .ok content := by
  obtain ⟨header, hheader⟩ := downloadedHeader_none storage presigned digest content
  rw [getFile, hheader]

/-- An object with what a file was encrypted to is that file. -/
theorem getFile_encrypted {random : Random} {material : EncryptionMaterial}
    {content : List UInt8} {encrypted : EncryptUtil.Encrypted}
    (h : EncryptUtil.encryptFile aes random inputStream material content = .ok encrypted)
    (presigned : Bool) (digest : String) :
    getFile aes outputStream (some material) (storage.service presigned)
        ⟨storage.metadata digest (some encrypted.encryptionMetadata), encrypted.data⟩ =
      .ok content := by
  obtain ⟨header, matDesc, hheader, hmetadata⟩ := downloadedHeader_some storage presigned digest
    encrypted.data (EncryptUtil.key_of_encryptFile h)
  have hdecrypted : EncryptUtil.decryptFile aes outputStream
      ⟨encrypted.encryptionMetadata.key, encrypted.encryptionMetadata.iv, none⟩ material
      encrypted.data = .ok content := EncryptUtil.decryptFile_of_encryptFile h rfl rfl
  simp only [getFile, hheader, hmetadata, hdecrypted]
  rfl

/-- What is put is got back: with encryption and without, sent whole or in parts whatever reads
and requests come to, and read in whatever chunks. -/
theorem getFile_putFile (aes : List UInt8 → Equiv.Perm (Block 16)) (random : Random)
    (inputStream outputStream : ReadStream) (encryptionMaterial : Option EncryptionMaterial)
    (digest : String) (file : Meta) {storage : Storage} (presigned : Bool)
    (transfer : (dataFile : DataFile) → Uploading dataFile storage) (content : DataFile) :
    (putFile aes random inputStream encryptionMaterial digest file transfer content).map
        (Option.map (getFile aes outputStream encryptionMaterial (storage.service presigned))) =
      (putFile aes random inputStream encryptionMaterial digest file transfer content).map
        (Option.map fun _ => .ok content.content) := by
  cases encryptionMaterial with
  | none =>
      rw [putFile]
      cases hstore : (transfer content).store digest none file with
      | none => rfl
      | some object =>
          simp only [Except.map, Option.map_some, (transfer content).store_eq hstore, getFile_plain]
  | some material =>
      rw [putFile]
      cases hencrypted : EncryptUtil.encryptFile aes random inputStream material content.content with
      | error err => rfl
      | ok encrypted =>
          simp only [bind, Except.bind, Except.map, Except.ok.injEq]
          split_ifs with hsafe
          · cases hstore : (transfer ⟨encrypted.data, hsafe⟩).store digest
                (some encrypted.encryptionMetadata) file with
            | none => rfl
            | some object =>
                rw [Uploading.store_eq _ hstore, Option.map_some, getFile_encrypted hencrypted,
                  Option.map_some]
          · rfl

end FileTransferAgent

end SnowflakeConnector
