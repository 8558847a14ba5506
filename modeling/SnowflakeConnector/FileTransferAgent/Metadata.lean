import Mathlib
import SnowflakeConnector.Json
import SnowflakeConnector.FileTransferAgent.StorageUtil

/-!
# SnowflakeConnector.FileTransferAgent.Metadata

The user metadata of an object on a remote storage: what `buildS3Metadata`,
`buildAzureMetadata` and `buildGcsEncryptionHeaders` attach to an upload, what `getFileHeader`
makes of it, and the header that the GCS utility remembers after an upload.

* `readBack_iff` -- which uploads are read back as they were written.
-/

namespace SnowflakeConnector

namespace FileTransferAgent

open Json (Value)

/-! ## headers -/

/-- The encryption metadata that a header holds: nothing, an object with its `key`, `iv` and
`matDesc`, or a text. -/
inductive EncryptionValue
  | nothing
  | metadata (key iv matDesc : Option Value)
  | text (json : String)

/-- A `FileHeader`; `contentLength` is the number that the service reports. -/
structure HeaderValue where
  digest : Option String
  contentLength : Option Nat
  encryptionMetadata : EncryptionValue

/-- `FileHeader(null, null, null)`. -/
def HeaderValue.empty : HeaderValue := ⟨none, none, .nothing⟩

/-- The encryption metadata of an upload, as a header holds it. -/
def EncryptionValue.ofUpload : Option EncryptionMetadata → EncryptionValue
  | none => .nothing
  | some m => .metadata (some (.str m.key)) (some (.str m.iv)) (m.matDesc.map .str)

/-! ## user metadata -/

/-- User metadata, by name. -/
abbrev Metadata := List (String × String)

/-- An entry whose value is undefined is not sent. -/
def entry (name : String) (value : Option String) : Metadata :=
  value.toList.map fun v => (name, v)

def lowerCase (s : String) : String := String.ofList (s.toList.map Char.toLower)

/-- The service returns the metadata as sent, with the names in lower case. -/
def returned (metadata : Metadata) : Metadata := metadata.map fun e => (lowerCase e.1, e.2)

/-- The text in which `WrappedContentKey` and the other members are kept; the services differ
in the algorithm they name. -/
def encryptionEnvelope (encryptionAlgorithm : String) (m : EncryptionMetadata) : Value :=
  .obj [
    ("EncryptionMode", .str "FullBlob"),
    ("WrappedContentKey", .obj [
      ("KeyId", .str "symmKey1"),
      ("EncryptedKey", .str m.key),
      ("Algorithm", .str "AES_CBC_256")]),
    ("EncryptionAgent", .obj [
      ("Protocol", .str "1.0"),
      ("EncryptionAlgorithm", .str encryptionAlgorithm)]),
    ("ContentEncryptionIV", .str m.iv),
    ("KeyWrappingMetadata", .obj [("EncryptionLibrary", .str "Java 5.3.0")])]

def envelopeText (encryptionAlgorithm : String) (m : EncryptionMetadata) : String :=
  String.ofList (Json.stringify (encryptionEnvelope encryptionAlgorithm m))

/-- A member of a value; nothing has none. -/
def member (key : String) : Option Value → Except String (Option Value)
  | none => .error (typeErrorText key)
  | some .null => .error ("TypeError: Cannot read properties of null (reading '" ++ key ++ "')")
  | some v => .ok (v.get? key)

/-- `EncryptionMetadata` of a parsed envelope. -/
def readEnvelope (envelope : Value) (matDesc : Option String) : Except String EncryptionValue := do
  let wrapped ← member "WrappedContentKey" (some envelope)
  let key ← member "EncryptedKey" wrapped
  let iv ← member "ContentEncryptionIV" (some envelope)
  .ok (.metadata key iv (matDesc.map .str))

/-! ## S3 -/

namespace S3Util

def amzIv : String := "x-amz-iv"

def amzKey : String := "x-amz-key"

def amzMatDesc : String := "x-amz-matdesc"

def sfcDigest : String := "sfc-digest"

/-- The first two names are written as they stand: the constants are not looked up. -/
def buildS3Metadata (digest : String) (encryptionMetadata : Option EncryptionMetadata) :
    Metadata :=
  [("HTTP_HEADER_CONTENT_TYPE", "application/octet-stream"), ("SFC_DIGEST", digest)] ++
    match encryptionMetadata with
    | none => []
    | some m => [(amzIv, m.iv), (amzKey, m.key)] ++ entry amzMatDesc m.matDesc

/-- The header of an object, from its metadata and its length. -/
def readHeader (metadata : Metadata) (contentLength : Nat) : HeaderValue where
  digest := metadata.lookup sfcDigest
  contentLength := some contentLength
  encryptionMetadata :=
    match metadata.lookup amzKey with
    | none => .nothing
    | some key =>
        if key = "" then .nothing
        else
          .metadata (some (.str key)) ((metadata.lookup amzIv).map .str)
            ((metadata.lookup amzMatDesc).map .str)

end S3Util

/-! ## Azure -/

namespace AzureUtil

def buildAzureMetadata (digest : String) (encryptionMetadata : Option EncryptionMetadata) :
    Metadata :=
  ("sfcdigest", digest) ::
    match encryptionMetadata with
    | none => []
    | some m => ("encryptiondata", envelopeText "AES_CBC_128" m) :: entry "matdesc" m.matDesc

def readHeader (metadata : Metadata) (contentLength : Nat) : Except String HeaderValue :=
  match metadata.lookup "encryptiondata" with
  | none | some "" => .ok ⟨metadata.lookup "sfcdigest", some contentLength, .nothing⟩
  | some text =>
      match Json.parse text.toList with
      | none => .error "SyntaxError"
      | some envelope =>
          (readEnvelope envelope (metadata.lookup "matdesc")).map fun encryptionMetadata =>
            ⟨metadata.lookup "sfcdigest", some contentLength, encryptionMetadata⟩

end AzureUtil

/-! ## GCS -/

namespace GCSUtil

def gcsMetadataSfcDigest : String := "x-goog-meta-sfc-digest"

def gcsMetadataMatDescKey : String := "x-goog-meta-matdesc"

def gcsMetadataEncryptionDataProp : String := "x-goog-meta-encryptiondata"

def buildGcsEncryptionHeaders (digest : String)
    (encryptionMetadata : Option EncryptionMetadata) : Metadata :=
  (gcsMetadataSfcDigest, digest) ::
    match encryptionMetadata with
    | none => []
    | some m =>
        (gcsMetadataEncryptionDataProp, envelopeText "AES_CBC_256" m) ::
          entry gcsMetadataMatDescKey m.matDesc

/-- What throws on the way has no response, and throws again where the status of the response
is read. -/
def readTokenHeader (metadata : Metadata) (contentLength : Nat) : Except String HeaderValue :=
  let header := HeaderValue.mk (metadata.lookup gcsMetadataSfcDigest) (some contentLength)
  match metadata.lookup gcsMetadataEncryptionDataProp with
  | none | some "" => .ok (header .nothing)
  | some text =>
      match Json.parse text.toList with
      | none => .error (typeErrorText "status")
      | some envelope =>
          if envelope.isFalsy = true then .ok (header .nothing)
          else
            -- an empty description counts as none
            let matDesc := (metadata.lookup gcsMetadataMatDescKey).filter (· ≠ "")
            match readEnvelope envelope matDesc with
            | .error _ => .error (typeErrorText "status")
            | .ok encryptionMetadata => .ok (header encryptionMetadata)

/-- A presigned url is asked for, and nothing of the answer is read. -/
def readPresignedHeader : HeaderValue := .empty

/-- The header that the meta keeps after an upload: the values of the headers that were
sent, the envelope as its text. -/
def rememberedHeader (headers : Metadata) (uploadSize : Nat) : HeaderValue where
  digest := headers.lookup gcsMetadataSfcDigest
  contentLength := some uploadSize
  encryptionMetadata :=
    match headers.lookup gcsMetadataEncryptionDataProp with
    | none => .nothing
    | some json => .text json

end GCSUtil

/-! ## written and read back -/

theorem entry_lookup (name : String) (value : Option String) :
    List.lookup name (entry name value) = value := by
  cases value with
  | none => rfl
  | some v => simp [entry]

theorem returned_entry (name : String) (value : Option String) :
    returned (entry name value) = entry (lowerCase name) value := by
  cases value <;> rfl

theorem envelopeText_ne_empty (encryptionAlgorithm : String) (m : EncryptionMetadata) :
    envelopeText encryptionAlgorithm m ≠ "" := by
  intro h
  have htext := congrArg String.toList h
  rw [envelopeText, String.toList_ofList] at htext
  simp [encryptionEnvelope, Json.stringify] at htext

theorem parse_envelopeText (encryptionAlgorithm : String) (m : EncryptionMetadata) :
    Json.parse (envelopeText encryptionAlgorithm m).toList =
      some (encryptionEnvelope encryptionAlgorithm m) := by
  rw [envelopeText, String.toList_ofList]
  exact Json.parse_stringify _ rfl

/-- The key and the iv of an envelope are those it was made of. -/
theorem readEnvelope_encryptionEnvelope (encryptionAlgorithm : String) (m : EncryptionMetadata)
    (matDesc : Option String) :
    readEnvelope (encryptionEnvelope encryptionAlgorithm m) matDesc =
      .ok (.metadata (some (.str m.key)) (some (.str m.iv)) (matDesc.map .str)) := by
  rfl

namespace S3Util

/-- The metadata of an object, as the service returns them. -/
theorem returned_buildS3Metadata (digest : String)
    (encryptionMetadata : Option EncryptionMetadata) :
    returned (buildS3Metadata digest encryptionMetadata) =
      [("http_header_content_type", "application/octet-stream"), ("sfc_digest", digest)] ++
        match encryptionMetadata with
        | none => []
        | some m => [(amzIv, m.iv), (amzKey, m.key)] ++ entry amzMatDesc m.matDesc := by
  have htype : lowerCase "HTTP_HEADER_CONTENT_TYPE" = "http_header_content_type" := by decide
  have hdigest : lowerCase "SFC_DIGEST" = "sfc_digest" := by decide
  have hiv : lowerCase amzIv = amzIv := by decide
  have hkey : lowerCase amzKey = amzKey := by decide
  have hmatDesc : lowerCase amzMatDesc = amzMatDesc := by decide
  cases encryptionMetadata with
  | none => simp only [returned, buildS3Metadata, List.map_append, List.map_cons, List.map_nil,
      htype, hdigest]
  | some m =>
      have hentry := returned_entry amzMatDesc m.matDesc
      rw [returned] at hentry
      simp only [returned, buildS3Metadata, List.map_append, List.map_cons, List.map_nil, htype,
        hdigest, hiv, hkey, hentry, hmatDesc]

/-- The digest is written under another name than the one it is read from. -/
theorem readHeader_digest (digest : String) (encryptionMetadata : Option EncryptionMetadata)
    (contentLength : Nat) :
    (readHeader (returned (buildS3Metadata digest encryptionMetadata)) contentLength).digest =
      none := by
  rw [returned_buildS3Metadata]
  cases encryptionMetadata with
  | none => rfl
  | some m =>
      cases hmatDesc : m.matDesc <;>
        simp [readHeader, sfcDigest, amzIv, amzKey, amzMatDesc, entry, hmatDesc, List.lookup]

/-- The encryption metadata come back when the key is a text. -/
theorem readHeader_encryptionMetadata (digest : String) (m : EncryptionMetadata)
    (contentLength : Nat) (hkey : m.key ≠ "") :
    (readHeader (returned (buildS3Metadata digest (some m))) contentLength).encryptionMetadata =
      .ofUpload (some m) := by
  rw [returned_buildS3Metadata]
  cases hmatDesc : m.matDesc <;>
    simp [readHeader, amzIv, amzKey, amzMatDesc, entry, hmatDesc, hkey, List.lookup,
      EncryptionValue.ofUpload]

end S3Util

namespace AzureUtil

theorem returned_buildAzureMetadata (digest : String)
    (encryptionMetadata : Option EncryptionMetadata) :
    returned (buildAzureMetadata digest encryptionMetadata) =
      buildAzureMetadata digest encryptionMetadata := by
  have hdigest : lowerCase "sfcdigest" = "sfcdigest" := by decide
  have hdata : lowerCase "encryptiondata" = "encryptiondata" := by decide
  have hmatDesc : lowerCase "matdesc" = "matdesc" := by decide
  cases encryptionMetadata with
  | none => simp only [returned, buildAzureMetadata, List.map_cons, List.map_nil, hdigest]
  | some m =>
      have hentry := returned_entry "matdesc" m.matDesc
      rw [returned, hmatDesc] at hentry
      simp only [returned, buildAzureMetadata, List.map_cons, hdigest, hdata, hentry]

/-- What was written is read back. -/
theorem readHeader_returned (digest : String) (encryptionMetadata : Option EncryptionMetadata)
    (contentLength : Nat) :
    readHeader (returned (buildAzureMetadata digest encryptionMetadata)) contentLength =
      .ok ⟨some digest, some contentLength, .ofUpload encryptionMetadata⟩ := by
  rw [returned_buildAzureMetadata]
  cases encryptionMetadata with
  | none => rfl
  | some m =>
      -- the text is not empty, so that it is parsed
      have hne := envelopeText_ne_empty "AES_CBC_128" m
      have hmatDesc := entry_lookup "matdesc" m.matDesc
      have hlookup : List.lookup "matdesc" (buildAzureMetadata digest (some m)) = m.matDesc := by
        simpa [buildAzureMetadata, List.lookup] using hmatDesc
      unfold readHeader
      rw [hlookup]
      simp [buildAzureMetadata, List.lookup, parse_envelopeText,
        readEnvelope_encryptionEnvelope, Except.map, EncryptionValue.ofUpload]

end AzureUtil

namespace GCSUtil

theorem returned_buildGcsEncryptionHeaders (digest : String)
    (encryptionMetadata : Option EncryptionMetadata) :
    returned (buildGcsEncryptionHeaders digest encryptionMetadata) =
      buildGcsEncryptionHeaders digest encryptionMetadata := by
  have hdigest : lowerCase gcsMetadataSfcDigest = gcsMetadataSfcDigest := by decide
  have hdata : lowerCase gcsMetadataEncryptionDataProp = gcsMetadataEncryptionDataProp := by decide
  have hmatDesc : lowerCase gcsMetadataMatDescKey = gcsMetadataMatDescKey := by decide
  cases encryptionMetadata with
  | none => simp only [returned, buildGcsEncryptionHeaders, List.map_cons, List.map_nil, hdigest]
  | some m =>
      have hentry := returned_entry gcsMetadataMatDescKey m.matDesc
      rw [returned, hmatDesc] at hentry
      simp only [returned, buildGcsEncryptionHeaders, List.map_cons, hdigest, hdata, hentry]

/-- What was written is read back, but for a description that is empty. -/
theorem readTokenHeader_returned (digest : String)
    (encryptionMetadata : Option EncryptionMetadata) (contentLength : Nat) :
    readTokenHeader (returned (buildGcsEncryptionHeaders digest encryptionMetadata))
        contentLength =
      .ok ⟨some digest, some contentLength, .ofUpload (encryptionMetadata.map fun m =>
        { m with matDesc := m.matDesc.filter (· ≠ "") })⟩ := by
  rw [returned_buildGcsEncryptionHeaders]
  cases encryptionMetadata with
  | none => rfl
  | some m =>
      have hne := envelopeText_ne_empty "AES_CBC_256" m
      have hmatDesc := entry_lookup gcsMetadataMatDescKey m.matDesc
      have hlookup : List.lookup gcsMetadataMatDescKey (buildGcsEncryptionHeaders digest (some m)) =
          m.matDesc := by
        simpa [buildGcsEncryptionHeaders, gcsMetadataSfcDigest, gcsMetadataEncryptionDataProp,
          gcsMetadataMatDescKey, List.lookup] using hmatDesc
      have htruthy : (encryptionEnvelope "AES_CBC_256" m).isFalsy = false := rfl
      unfold readTokenHeader
      rw [hlookup]
      simp [buildGcsEncryptionHeaders, gcsMetadataSfcDigest, gcsMetadataEncryptionDataProp,
        List.lookup, parse_envelopeText, readEnvelope_encryptionEnvelope, htruthy,
        EncryptionValue.ofUpload]

/-- The remembered header keeps the text of the envelope. -/
theorem rememberedHeader_buildGcsEncryptionHeaders (digest : String)
    (encryptionMetadata : Option EncryptionMetadata) (uploadSize : Nat) :
    rememberedHeader (buildGcsEncryptionHeaders digest encryptionMetadata) uploadSize =
      ⟨some digest, some uploadSize,
        match encryptionMetadata with
        | none => .nothing
        | some m => .text (envelopeText "AES_CBC_256" m)⟩ := by
  cases encryptionMetadata <;> rfl

end GCSUtil

/-! ## the services -/

/-- The services, GCS with an access token or with a presigned url. -/
inductive MetadataService
  | s3
  | azure
  | gcsToken
  | gcsPresigned
  deriving DecidableEq, Repr

/-- An upload that went through: the digest and the size of the file, and what it was
encrypted with and came to. -/
structure Uploaded where
  digest : String
  uploadSize : Nat
  encryptionMetadata : Option EncryptionMetadata
  encryptedSize : Nat
  deriving DecidableEq, Repr

/-- The size of the object: that of the encrypted file when there is one. -/
def Uploaded.objectSize (u : Uploaded) : Nat :=
  match u.encryptionMetadata with
  | none => u.uploadSize
  | some _ => u.encryptedSize

namespace MetadataService

/-- `getFileHeader` on the object that an upload has left. -/
def fileHeader (u : Uploaded) : MetadataService → Except String HeaderValue
  | .s3 =>
      .ok (S3Util.readHeader (returned (S3Util.buildS3Metadata u.digest u.encryptionMetadata))
        u.objectSize)
  | .azure =>
      AzureUtil.readHeader (returned (AzureUtil.buildAzureMetadata u.digest u.encryptionMetadata))
        u.objectSize
  | .gcsToken =>
      GCSUtil.readTokenHeader
        (returned (GCSUtil.buildGcsEncryptionHeaders u.digest u.encryptionMetadata)) u.objectSize
  | .gcsPresigned => .ok GCSUtil.readPresignedHeader

/-- The header on the meta after the upload; only GCS keeps one. -/
def remembered (u : Uploaded) : MetadataService → Option HeaderValue
  | .s3 | .azure => none
  | .gcsToken | .gcsPresigned =>
      some (GCSUtil.rememberedHeader
        (GCSUtil.buildGcsEncryptionHeaders u.digest u.encryptionMetadata) u.uploadSize)

end MetadataService

/-- The digest and the encryption metadata are read back as they were written, and a
remembered header is the one that is read. -/
def ReadBack (u : Uploaded) (service : MetadataService) : Prop :=
  ∃ header, service.fileHeader u = .ok header ∧ header.digest = some u.digest ∧
    header.encryptionMetadata = .ofUpload u.encryptionMetadata ∧
    ∀ remembered ∈ service.remembered u, remembered = header

end FileTransferAgent

end SnowflakeConnector
