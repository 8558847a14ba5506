import Mathlib
import SnowflakeConnector.Base64
import SnowflakeConnector.BlockCipher
import SnowflakeConnector.Json
import SnowflakeConnector.Slice
import SnowflakeConnector.FileTransferAgent.StorageUtil

/-!
# SnowflakeConnector.FileTransferAgent.EncryptUtil

`lib/file_transfer_agent/encrypt_util.js`: a file is encrypted with a key of its own, and that
key with the master key of the stage.

AES is a permutation of the blocks for every key; the random bytes and the chunks in which a
file is read are given.  The names of the temporary files are left out.

* `decryptFile_encryptFile` -- a file is decrypted to what it was.
* `encryptFileStream_eq` -- a stream is encrypted as a file with the same content is.
* `decryptFileGCM_encryptFileGCM` -- the same for the mode that authenticates.
-/

namespace SnowflakeConnector

namespace FileTransferAgent

open BlockCipher

/-! ## the ciphers of `crypto` -/

/-- `crypto.randomBytes`, for every call of it. -/
abbrev Random := Nat → (byteLength : Nat) → List.Vector UInt8 byteLength

/-- A way to read a file in chunks, which make up its content. -/
structure ReadStream where
  chunks : List UInt8 → List (List UInt8)
  flatten_chunks : ∀ content, (chunks content).flatten = content

/-- How `crypto` throws. -/
inductive CryptoError
  | unknownCipher
  | invalidKeyLength
  | invalidIv
  | final (err : FinalError)
  | invalidAuthTag
  | unauthenticated
  deriving DecidableEq, Repr

/-- What `createCipheriv` and `createDecipheriv` return: the permutation of the key in its mode. -/
inductive Cipheriv
  | ecb (cipher : Equiv.Perm (Block 16))
  | cbc (cipher : Equiv.Perm (Block 16)) (iv : Block 16)

namespace Cipheriv

/-- `update` with every chunk, then `final`. -/
def encrypt : Cipheriv → List (List UInt8) → List UInt8
  | ecb cipher, chunks => encryptStream (BlockCipher.ecb cipher) () chunks
  | cbc cipher iv, chunks => encryptStream (BlockCipher.cbc cipher) iv chunks

def decrypt (c : Cipheriv) (chunks : List (List UInt8)) : Except CryptoError (List UInt8) :=
  match c with
  | ecb cipher => (decryptStream (BlockCipher.ecb cipher) () chunks).mapError .final
  | cbc cipher iv => (decryptStream (BlockCipher.cbc cipher) iv chunks).mapError .final

end Cipheriv

/-- The ciphers by name, with the lengths of their keys; `true` for those with an initialization
vector. -/
def ciphers : List (String × Nat × Bool) :=
  [("aes-128-ecb", 16, false), ("aes-192-ecb", 24, false), ("aes-256-ecb", 32, false),
    ("aes-128-cbc", 16, true), ("aes-192-cbc", 24, true), ("aes-256-cbc", 32, true)]

/-- `crypto.createCipheriv`, and `crypto.createDecipheriv`. -/
def createCipheriv (aes : List UInt8 → Equiv.Perm (Block 16)) (name : String) (key : List UInt8)
    (iv : Option (List UInt8)) : Except CryptoError Cipheriv :=
  match ciphers.lookup name with
  | none => .error .unknownCipher
  | some (keyLength, chained) =>
      if key.length ≠ keyLength then .error .invalidKeyLength
      else
        match chained, iv with
        | false, none => .ok (.ecb (aes key))
        | true, some iv =>
            if h : iv.length = 16 then .ok (.cbc (aes key) ⟨iv, h⟩) else .error .invalidIv
        | _, _ => .error .invalidIv

namespace EncryptUtil

/-! ## AES-CBC -/

namespace AesCbc

def cipherName (keySizeInBytes : Nat) : String := "aes-" ++ toString (keySizeInBytes * 8) ++ "-cbc"

def ivSize : Nat := 16

end AesCbc

namespace AesEcb

def cipherName (keySizeInBytes : Nat) : String := "aes-" ++ toString (keySizeInBytes * 8) ++ "-ecb"

end AesEcb

/-- `Buffer.from(text, 'base64')`. -/
def decodeBase64 (text : String) : List UInt8 := Base64.decode text.toList

/-- `buffer.toString('base64')`. -/
def encodeBase64 (bytes : List UInt8) : String := String.ofList (Base64.encode bytes)

/-- The text of the material descriptor. -/
def matDescToUnicode (smkId queryId : String) (keySize : Nat) : String :=
  String.ofList (Json.stringify (.obj [("smkId", .str smkId), ("queryId", .str queryId),
    ("keySize", .str (toString keySize))]))

def createEncryptionMetadata (encryptionMaterial : EncryptionMaterial) (keySize : Nat)
    (encryptedKey dataIv : List UInt8) : EncryptionMetadata where
  key := encodeBase64 encryptedKey
  iv := encodeBase64 dataIv
  matDesc := some (matDescToUnicode encryptionMaterial.smkId encryptionMaterial.queryId (keySize * 8))

/-- What an encryption returns: the metadata, and the encrypted bytes as a buffer or in a file. -/
structure Encrypted where
  encryptionMetadata : EncryptionMetadata
  data : List UInt8

variable (aes : List UInt8 → Equiv.Perm (Block 16))

/-- The data are `chunks`: of one chunk for `performCrypto`, of those that a file is read in for
`performFileStreamCrypto`. -/
def encryptChunks (random : Random) (encryptionMaterial : EncryptionMaterial)
    (chunks : List (List UInt8)) : Except CryptoError Encrypted := do
  let decodedKek := decodeBase64 encryptionMaterial.queryStageMasterKey
  let keySize := decodedKek.length
  let dataIv := (random 0 AesCbc.ivSize).toList
  let fileKey := (random 1 keySize).toList
  let dataCipher ← createCipheriv aes (AesCbc.cipherName keySize) fileKey (some dataIv)
  let encryptedData := dataCipher.encrypt chunks
  let keyCipher ← createCipheriv aes (AesEcb.cipherName keySize) decodedKek none
  let encryptedKey := keyCipher.encrypt [fileKey]
  .ok ⟨createEncryptionMetadata encryptionMaterial keySize encryptedKey dataIv, encryptedData⟩

def encryptDataCBC (random : Random) (encryptionMaterial : EncryptionMaterial)
    (data : List UInt8) : Except CryptoError Encrypted :=
  encryptChunks aes random encryptionMaterial [data]

def encryptFileStream (random : Random) (encryptionMaterial : EncryptionMaterial)
    (content : List UInt8) : Except CryptoError Encrypted :=
  encryptDataCBC aes random encryptionMaterial content

def encryptFileCBC (random : Random) (inputStream : ReadStream)
    (encryptionMaterial : EncryptionMaterial) (inputFile : List UInt8) :
    Except CryptoError Encrypted :=
  encryptChunks aes random encryptionMaterial (inputStream.chunks inputFile)

def encryptFile (random : Random) (inputStream : ReadStream)
    (encryptionMaterial : EncryptionMaterial) (inputFile : List UInt8) :
    Except CryptoError Encrypted :=
  encryptFileCBC aes random inputStream encryptionMaterial inputFile

def decryptFileCBC (inputStream : ReadStream) (metadata : EncryptionMetadata)
    (encryptionMaterial : EncryptionMaterial) (inputFile : List UInt8) :
    Except CryptoError (List UInt8) := do
  let decodedKek := decodeBase64 encryptionMaterial.queryStageMasterKey
  let keyBytes := decodeBase64 metadata.key
  let ivBytes := decodeBase64 metadata.iv
  let keyDecipher ← createCipheriv aes (AesEcb.cipherName decodedKek.length) decodedKek none
  let fileKey ← keyDecipher.decrypt [keyBytes]
  let dataDecipher ← createCipheriv aes (AesCbc.cipherName fileKey.length) fileKey (some ivBytes)
  dataDecipher.decrypt (inputStream.chunks inputFile)

def decryptFile (inputStream : ReadStream) (metadata : EncryptionMetadata)
    (encryptionMaterial : EncryptionMaterial) (inputFile : List UInt8) :
    Except CryptoError (List UInt8) :=
  decryptFileCBC aes inputStream metadata encryptionMaterial inputFile

/-! ## the names of the ciphers -/

theorem cipherName_inj {a b : Nat} {s s' : String} (hs : s.toList.length = s'.toList.length)
    (h : "aes-" ++ toString a ++ s = "aes-" ++ toString b ++ s') : a = b ∧ s = s' := by
  have h := congrArg String.toList h
  simp only [String.toList_append, List.append_assoc] at h
  obtain ⟨hnumber, hmode⟩ := List.append_inj' (List.append_cancel_left h) hs
  exact ⟨Nat.repr_injective (String.toList_injective hnumber), String.toList_injective hmode⟩

/-- The ciphers of one mode, for keys of some lengths. -/
theorem lookup_mode {mode mode' : String} (hmode : mode.toList.length = mode'.toList.length)
    (chained : Bool) (sizes : List Nat) (keySize : Nat) :
    (sizes.map fun n => ("aes-" ++ toString (n * 8) ++ mode', n, chained)).lookup
        ("aes-" ++ toString (keySize * 8) ++ mode) =
      if mode = mode' ∧ keySize ∈ sizes then some (keySize, chained) else none := by
  induction sizes with
  | nil => simp
  | cons n sizes ih =>
      rw [List.map_cons, List.lookup_cons, ih]
      by_cases hname : "aes-" ++ toString (keySize * 8) ++ mode = "aes-" ++ toString (n * 8) ++ mode'
      · obtain ⟨hsize, rfl⟩ := cipherName_inj hmode hname
        obtain rfl : keySize = n := by omega
        simp
      · rw [beq_eq_false_iff_ne.mpr hname]
        have hne : ¬ (mode = mode' ∧ keySize = n) := fun h => hname (by rw [h.1, h.2])
        simp only [List.mem_cons]
        split_ifs <;> grind

/-- The lengths that a key of AES can have. -/
def keySizes : List Nat := [16, 24, 32]

theorem ciphers_eq :
    ciphers = keySizes.map (fun n => ("aes-" ++ toString (n * 8) ++ "-ecb", n, false)) ++
      keySizes.map (fun n => ("aes-" ++ toString (n * 8) ++ "-cbc", n, true)) := by
  decide

theorem lookup_ecb (keySize : Nat) :
    ciphers.lookup (AesEcb.cipherName keySize) =
      if keySize ∈ keySizes then some (keySize, false) else none := by
  have hmode : "-ecb".toList.length = "-cbc".toList.length := by decide
  rw [ciphers_eq, List.lookup_append, AesEcb.cipherName, lookup_mode rfl, lookup_mode hmode]
  simp

theorem lookup_cbc (keySize : Nat) :
    ciphers.lookup (AesCbc.cipherName keySize) =
      if keySize ∈ keySizes then some (keySize, true) else none := by
  have hmode : "-cbc".toList.length = "-ecb".toList.length := by decide
  rw [ciphers_eq, List.lookup_append, AesCbc.cipherName, lookup_mode hmode, lookup_mode rfl]
  simp

/-! ## there and back -/

theorem decodeBase64_encodeBase64 (bytes : List UInt8) :
    decodeBase64 (encodeBase64 bytes) = bytes := by
  rw [decodeBase64, encodeBase64, String.toList_ofList, Base64.decode_encode]

section

variable (aes : List UInt8 → Equiv.Perm (Block 16)) {key : List UInt8}

theorem createCipheriv_ecb (hkey : key.length ∈ keySizes) :
    createCipheriv aes (AesEcb.cipherName key.length) key none = .ok (.ecb (aes key)) := by
  rw [createCipheriv, lookup_ecb, if_pos hkey]
  simp

theorem createCipheriv_cbc (hkey : key.length ∈ keySizes) (iv : Block 16) :
    createCipheriv aes (AesCbc.cipherName key.length) key (some iv.toList) =
      .ok (.cbc (aes key) iv) := by
  rw [createCipheriv, lookup_cbc, if_pos hkey]
  simp

end

variable {aes} {random : Random} {material : EncryptionMaterial} {kek : List UInt8}
  {chunks : List (List UInt8)}

/-- With a master key of AES, the cipher text of the data and that of their key. -/
theorem encryptChunks_of_mem (hkek : decodeBase64 material.queryStageMasterKey = kek)
    (hsize : kek.length ∈ keySizes) :
    encryptChunks aes random material chunks =
      .ok ⟨createEncryptionMetadata material kek.length
          (encryptStream (BlockCipher.ecb (aes kek)) () [(random 1 kek.length).toList])
          (random 0 16).toList,
        encryptStream (BlockCipher.cbc (aes (random 1 kek.length).toList)) (random 0 16) chunks⟩ := by
  subst hkek
  have hfileKey : (random 1 (decodeBase64 material.queryStageMasterKey).length).toList.length =
      (decodeBase64 material.queryStageMasterKey).length := List.Vector.toList_length _
  have hcbc := createCipheriv_cbc aes (hfileKey.symm ▸ hsize) (random 0 16)
  have hecb := createCipheriv_ecb aes hsize
  rw [hfileKey] at hcbc
  simp only [encryptChunks, AesCbc.ivSize, hcbc, hecb]
  rfl

/-- With another master key, there is no cipher of its length. -/
theorem encryptChunks_of_not_mem (hkek : decodeBase64 material.queryStageMasterKey = kek)
    (hsize : kek.length ∉ keySizes) :
    encryptChunks aes random material chunks = .error .unknownCipher := by
  simp only [encryptChunks, hkek, createCipheriv, lookup_cbc, if_neg hsize]
  rfl

/-- The key and the data are decrypted to what they were. -/
theorem decryptFile_of_mem (hkek : decodeBase64 material.queryStageMasterKey = kek)
    (hsize : kek.length ∈ keySizes) (inputStream : ReadStream) {fileKey : List UInt8} {iv : Block 16}
    (hfileKey : fileKey.length ∈ keySizes) {metadata : EncryptionMetadata}
    (hkey : metadata.key =
      encodeBase64 (encryptStream (BlockCipher.ecb (aes kek)) () [fileKey]))
    (hiv : metadata.iv = encodeBase64 iv.toList) :
    decryptFile aes inputStream metadata material
        (encryptStream (BlockCipher.cbc (aes fileKey)) iv chunks) = .ok chunks.flatten := by
  have hkeyChunks : [encryptStream (BlockCipher.ecb (aes kek)) () [fileKey]].flatten =
      encryptStream (BlockCipher.ecb (aes kek)) () [fileKey] := by simp
  have hunwrapped := decryptStream_encryptStream (by decide) (by decide) _ _ hkeyChunks
  have hdata := decryptStream_encryptStream (by decide) (by decide)
    (BlockCipher.cbc (aes fileKey)) iv (inputStream.flatten_chunks
      (encryptStream (BlockCipher.cbc (aes fileKey)) iv chunks))
  rw [List.flatten_singleton] at hunwrapped
  simp only [decryptFile, decryptFileCBC, hkek, hkey, hiv, decodeBase64_encodeBase64,
    createCipheriv_ecb aes hsize, Cipheriv.decrypt, hunwrapped, Except.mapError, bind, Except.bind,
    createCipheriv_cbc aes hfileKey, hdata]

/-- A file that was encrypted is decrypted with its key and its vector. -/
theorem decryptFile_of_encryptFile {inputStream outputStream : ReadStream}
    {content : List UInt8} {encrypted : Encrypted}
    (h : encryptFile aes random inputStream material content = .ok encrypted)
    {metadata : EncryptionMetadata} (hkey : metadata.key = encrypted.encryptionMetadata.key)
    (hiv : metadata.iv = encrypted.encryptionMetadata.iv) :
    decryptFile aes outputStream metadata material encrypted.data = .ok content := by
  rw [encryptFile, encryptFileCBC] at h
  by_cases hsize : (decodeBase64 material.queryStageMasterKey).length ∈ keySizes
  · rw [encryptChunks_of_mem rfl hsize] at h
    obtain rfl := Except.ok.inj h
    have hfileKey : (random 1 (decodeBase64 material.queryStageMasterKey).length).toList.length ∈
        keySizes := by
      rw [List.Vector.toList_length]
      exact hsize
    exact (decryptFile_of_mem rfl hsize outputStream hfileKey hkey hiv).trans
      (congrArg Except.ok (inputStream.flatten_chunks content))
  · rw [encryptChunks_of_not_mem rfl hsize] at h
    contradiction

/-- The key of a file is not empty. -/
theorem key_of_encryptFile {inputStream : ReadStream} {content : List UInt8}
    {encrypted : Encrypted}
    (h : encryptFile aes random inputStream material content = .ok encrypted) :
    encrypted.encryptionMetadata.key ≠ "" := by
  rw [encryptFile, encryptFileCBC] at h
  by_cases hsize : (decodeBase64 material.queryStageMasterKey).length ∈ keySizes
  · rw [encryptChunks_of_mem rfl hsize] at h
    obtain rfl := Except.ok.inj h
    intro hkey
    have hlength := congrArg (fun text => text.toList.length) hkey
    simp only [createEncryptionMetadata, encodeBase64, String.toList_ofList, Base64.length_encode,
      length_encryptStream (show 0 < 16 by decide)] at hlength
    simp at hlength
    omega
  · rw [encryptChunks_of_not_mem rfl hsize] at h
    contradiction

/-- What a file is encrypted to is decrypted to the file, in whatever chunks the two are read; a
master key that is none of AES is refused. -/
theorem decryptFile_encryptFile (aes : List UInt8 → Equiv.Perm (Block 16)) (random : Random)
    (plainStream cipherStream : ReadStream) (material : EncryptionMaterial)
    (content : List UInt8) :
    (do
      let encrypted ← encryptFile aes random plainStream material content
      decryptFile aes cipherStream encrypted.encryptionMetadata material encrypted.data) =
      if (decodeBase64 material.queryStageMasterKey).length ∈ keySizes then .ok content
      else .error .unknownCipher := by
  split_ifs with hsize
  · cases h : encryptFile aes random plainStream material content with
    | error err =>
        rw [encryptFile, encryptFileCBC, encryptChunks_of_mem rfl hsize] at h
        contradiction
    | ok encrypted => exact decryptFile_of_encryptFile h rfl rfl
  · rw [encryptFile, encryptFileCBC, encryptChunks_of_not_mem rfl hsize]
    rfl

/-- A stream is encrypted as a file with the same content is, and the cipher text has one block
more than fit into the content. -/
theorem encryptFileStream_eq (aes : List UInt8 → Equiv.Perm (Block 16)) (random : Random)
    (inputStream : ReadStream) (material : EncryptionMaterial) (content : List UInt8) :
    encryptFileStream aes random material content =
        encryptFile aes random inputStream material content ∧
      (encryptFileStream aes random material content).map (fun encrypted => encrypted.data.length) =
        if (decodeBase64 material.queryStageMasterKey).length ∈ keySizes then
          .ok ((content.length / 16 + 1) * 16)
        else .error .unknownCipher := by
  rw [encryptFileStream, encryptDataCBC, encryptFile, encryptFileCBC]
  split_ifs with hsize
  · have hflatten := List.flatten_singleton (l := content)
    have hlength := length_encryptStream (by decide) (BlockCipher.cbc
      (aes (random 1 (decodeBase64 material.queryStageMasterKey).length).toList)) (random 0 16)
      [content]
    rw [encryptChunks_of_mem rfl hsize, encryptChunks_of_mem rfl hsize,
      encryptStream_congr (by decide) (hflatten.trans (inputStream.flatten_chunks content).symm)]
    rw [hflatten, encryptStream_congr (by decide)
      (hflatten.trans (inputStream.flatten_chunks content).symm)] at hlength
    exact ⟨rfl, congrArg Except.ok hlength⟩
  · rw [encryptChunks_of_not_mem rfl hsize, encryptChunks_of_not_mem rfl hsize]
    exact ⟨rfl, rfl⟩

/-! ## AES-GCM -/

/-- The Galois/Counter mode of AES: the stream that the data are combined with, and the tag of
the cipher text and of what else is authenticated. -/
structure Gcm where
  keystream : (key iv : List UInt8) → (n : Nat) → List.Vector UInt8 n
  tag : (key iv aad cipherText : List UInt8) → List.Vector UInt8 16

/-- The data combined with the stream; twice gives the data back. -/
def Gcm.crypt (gcm : Gcm) (key iv data : List UInt8) : List UInt8 :=
  List.zipWith (· ^^^ ·) (gcm.keystream key iv data.length).toList data

namespace AesGcm

def cipherName (keySizeInBytes : Nat) : String := "aes-" ++ toString (keySizeInBytes * 8) ++ "-gcm"

def ivSize : Nat := 12

end AesGcm

def defaultAad : List UInt8 := []

def authTagLengthInBytes : Nat := 16

/-- The ciphers of the mode by name, with the lengths of their keys. -/
def gcmCiphers : List (String × Nat) :=
  [("aes-128-gcm", 16), ("aes-192-gcm", 24), ("aes-256-gcm", 32)]

/-- What `createCipheriv` and `createDecipheriv` check of a name, a key and a vector. -/
def checkGcm (name : String) (key iv : List UInt8) : Except CryptoError Unit :=
  match gcmCiphers.lookup name with
  | none => .error .unknownCipher
  | some keyLength =>
      if key.length ≠ keyLength then .error .invalidKeyLength
      else if iv = [] then .error .invalidIv
      else .ok ()

variable (gcm : Gcm)

def encryptGCM (data key iv aad : List UInt8) : Except CryptoError (List UInt8) := do
  checkGcm (AesGcm.cipherName key.length) key iv
  let encryptedData := gcm.crypt key iv data
  .ok (encryptedData ++ (gcm.tag key iv aad encryptedData).toList)

/-- The last 16 bytes are the tag; of shorter data, `slice` takes what is there. -/
def decryptGCM (data key iv aad : List UInt8) : Except CryptoError (List UInt8) := do
  checkGcm (AesGcm.cipherName key.length) key iv
  let length : Int := data.length
  let authTag := Slice.slice data (length - authTagLengthInBytes) length
  let cipherText := Slice.slice data 0 (length - authTagLengthInBytes)
  if authTag.length ≠ authTagLengthInBytes then .error .invalidAuthTag
  else if (gcm.tag key iv aad cipherText).toList = authTag then .ok (gcm.crypt key iv cipherText)
  else .error .unauthenticated

/-- `EncryptionMetadata` with the members that this mode adds. -/
structure GcmMetadata extends EncryptionMetadata where
  keyIv : String
  dataAad : String
  keyAad : String

structure GcmEncrypted where
  encryptionMetadata : GcmMetadata
  data : List UInt8

def createGcmMetadata (encryptionMaterial : EncryptionMaterial) (keySize : Nat)
    (encryptedKey dataIv keyIv dataAad keyAad : List UInt8) : GcmMetadata where
  toEncryptionMetadata := createEncryptionMetadata encryptionMaterial keySize encryptedKey dataIv
  keyIv := encodeBase64 keyIv
  dataAad := encodeBase64 dataAad
  keyAad := encodeBase64 keyAad

def encryptDataGCM (random : Random) (encryptionMaterial : EncryptionMaterial)
    (data : List UInt8) : Except CryptoError GcmEncrypted := do
  let decodedKek := decodeBase64 encryptionMaterial.queryStageMasterKey
  let dataIv := (random 0 AesGcm.ivSize).toList
  let fileKey := (random 1 decodedKek.length).toList
  let encryptedData ← encryptGCM gcm data fileKey dataIv defaultAad
  let keyIv := (random 2 AesGcm.ivSize).toList
  let encryptedKey ← encryptGCM gcm fileKey decodedKek keyIv defaultAad
  .ok ⟨createGcmMetadata encryptionMaterial fileKey.length encryptedKey dataIv keyIv defaultAad
    defaultAad, encryptedData⟩

/-- The file is read whole. -/
def encryptFileGCM (random : Random) (encryptionMaterial : EncryptionMaterial)
    (inputFile : List UInt8) : Except CryptoError GcmEncrypted :=
  encryptDataGCM gcm random encryptionMaterial inputFile

def decryptFileGCM (metadata : GcmMetadata) (encryptionMaterial : EncryptionMaterial)
    (inputFile : List UInt8) : Except CryptoError (List UInt8) := do
  let decodedKek := decodeBase64 encryptionMaterial.queryStageMasterKey
  let keyBytes := decodeBase64 metadata.key
  let keyIvBytes := decodeBase64 metadata.keyIv
  let dataIvBytes := decodeBase64 metadata.iv
  let dataAadBytes := decodeBase64 metadata.dataAad
  let keyAadBytes := decodeBase64 metadata.keyAad
  let fileKey ← decryptGCM gcm keyBytes decodedKek keyIvBytes keyAadBytes
  decryptGCM gcm inputFile fileKey dataIvBytes dataAadBytes

variable {gcm} {key iv aad data content : List UInt8}

theorem Gcm.length_crypt : (gcm.crypt key iv data).length = data.length := by
  rw [Gcm.crypt, List.length_zipWith, List.Vector.toList_length, min_self]

theorem Gcm.crypt_crypt : gcm.crypt key iv (gcm.crypt key iv data) = data := by
  have hkeystream : ∀ n, n = data.length →
      (gcm.keystream key iv n).toList = (gcm.keystream key iv data.length).toList := by
    rintro n rfl
    rfl
  rw [Gcm.crypt, hkeystream _ Gcm.length_crypt, Gcm.crypt]
  refine List.ext_getElem (by simp) fun i hi hi' => ?_
  simp

theorem length_authTag_of_short (hdata : data.length < authTagLengthInBytes) :
    (Slice.slice data ((data.length : Int) - authTagLengthInBytes) data.length).length <
      authTagLengthInBytes := by
  simp only [Slice.slice, List.length_take, List.length_drop]
  omega

theorem slices_append (cipherText : List UInt8) {tag : List UInt8}
    (htag : tag.length = authTagLengthInBytes) :
    Slice.slice (cipherText ++ tag) (((cipherText ++ tag).length : Int) - authTagLengthInBytes)
        (cipherText ++ tag).length = tag ∧
      Slice.slice (cipherText ++ tag) 0
        (((cipherText ++ tag).length : Int) - authTagLengthInBytes) = cipherText := by
  have hstart : (((cipherText ++ tag).length : Int) - authTagLengthInBytes) = cipherText.length := by
    rw [List.length_append, htag]
    omega
  rw [hstart, Slice.slice_of_nonneg _ (by omega) (by omega),
    Slice.slice_of_nonneg _ le_rfl (by omega), Int.toNat_natCast, Int.toNat_natCast,
    List.take_length]
  simp

/-- What is decrypted is exactly what would be encrypted to the same bytes. -/
theorem decryptGCM_eq_ok_iff :
    decryptGCM gcm data key iv aad = .ok content ↔ encryptGCM gcm content key iv aad = .ok data := by
  simp only [decryptGCM, encryptGCM]
  cases checkGcm (AesGcm.cipherName key.length) key iv with
  | error err => simp [bind, Except.bind]
  | ok _ =>
      simp only [bind, Except.bind, Except.ok.injEq]
      constructor
      · intro h
        have hlength : authTagLengthInBytes ≤ data.length := by
          by_contra hshort
          rw [if_pos (length_authTag_of_short (by omega)).ne] at h
          contradiction
        have hsplit := List.take_append_drop (data.length - authTagLengthInBytes) data
        have htag : (data.drop (data.length - authTagLengthInBytes)).length =
            authTagLengthInBytes := by
          rw [List.length_drop]
          omega
        generalize data.take (data.length - authTagLengthInBytes) = cipherText at hsplit
        generalize data.drop (data.length - authTagLengthInBytes) = authTag at hsplit htag
        subst hsplit
        obtain ⟨hauthTag, hcipherText⟩ := slices_append cipherText htag
        rw [hauthTag, hcipherText, if_neg (by simp [htag])] at h
        split_ifs at h with hvalid
        rw [← Except.ok.inj h, Gcm.crypt_crypt, hvalid]
      · rintro rfl
        obtain ⟨hauthTag, hcipherText⟩ := slices_append (gcm.crypt key iv content)
          (List.Vector.toList_length (gcm.tag key iv aad (gcm.crypt key iv content)))
        rw [hauthTag, hcipherText, if_neg (by simp [authTagLengthInBytes]), if_pos rfl,
          Gcm.crypt_crypt]

/-- A file is decrypted where the key is one that its cipher text was made of under the master
key, and the content one that the file was made of under that key: nothing else passes. -/
theorem decryptFileGCM_eq_ok_iff (gcm : Gcm) (metadata : GcmMetadata)
    (material : EncryptionMaterial) (file content : List UInt8) :
    decryptFileGCM gcm metadata material file = .ok content ↔
      ∃ fileKey,
        encryptGCM gcm fileKey (decodeBase64 material.queryStageMasterKey)
            (decodeBase64 metadata.keyIv) (decodeBase64 metadata.keyAad) =
          .ok (decodeBase64 metadata.key) ∧
        encryptGCM gcm content fileKey (decodeBase64 metadata.iv)
            (decodeBase64 metadata.dataAad) = .ok file := by
  simp only [decryptFileGCM, ← decryptGCM_eq_ok_iff]
  cases decryptGCM gcm (decodeBase64 metadata.key) (decodeBase64 material.queryStageMasterKey)
      (decodeBase64 metadata.keyIv) (decodeBase64 metadata.keyAad) with
  | error err => simp [bind, Except.bind]
  | ok fileKey => simp [bind, Except.bind]

/-- The file that was encrypted is the one that is decrypted; the only cipher texts that are
accepted are those that an encryption makes. -/
theorem decryptFileGCM_encryptFileGCM (gcm : Gcm) (random : Random)
    (material : EncryptionMaterial) (content : List UInt8) :
    (do
      let encrypted ← encryptFileGCM gcm random material content
      decryptFileGCM gcm encrypted.encryptionMetadata material encrypted.data) =
        (encryptFileGCM gcm random material content).map (fun _ => content) ∧
      ∀ metadata file, decryptFileGCM gcm metadata material file = .ok content ↔
        ∃ fileKey,
          encryptGCM gcm fileKey (decodeBase64 material.queryStageMasterKey)
              (decodeBase64 metadata.keyIv) (decodeBase64 metadata.keyAad) =
            .ok (decodeBase64 metadata.key) ∧
          encryptGCM gcm content fileKey (decodeBase64 metadata.iv)
              (decodeBase64 metadata.dataAad) = .ok file := by
  refine ⟨?_, fun metadata file => decryptFileGCM_eq_ok_iff gcm metadata material file content⟩
  simp only [encryptFileGCM, encryptDataGCM]
  generalize (random 1 (decodeBase64 material.queryStageMasterKey).length).toList = fileKey
  cases hdata : encryptGCM gcm content fileKey (random 0 AesGcm.ivSize).toList defaultAad with
  | error err => rfl
  | ok encryptedData =>
      cases hkey : encryptGCM gcm fileKey (decodeBase64 material.queryStageMasterKey)
          (random 2 AesGcm.ivSize).toList defaultAad with
      | error err => rfl
      | ok encryptedKey =>
          refine (decryptFileGCM_eq_ok_iff gcm _ material encryptedData content).mpr ⟨fileKey, ?_⟩
          simp only [createGcmMetadata, createEncryptionMetadata, decodeBase64_encodeBase64]
          exact ⟨hkey, hdata⟩

end EncryptUtil

end FileTransferAgent

end SnowflakeConnector
