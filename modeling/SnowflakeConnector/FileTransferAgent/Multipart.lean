import Mathlib
import SnowflakeConnector.Base64
import SnowflakeConnector.FileTransferAgent.Metadata

/-!
# SnowflakeConnector.FileTransferAgent.Multipart

`lib/file_transfer_agent/multipart.ts`, and `uploadFileMultipart` of `s3_util.js` and
`azure_util.js`: a large file is read and sent in parts of one size, and the service puts them
together when it is told which parts there are.  The threshold says only which files are sent
so; what follows holds of a file of any size.

The two uploads are one loop over the file, with the request that sends a part and what is
kept of the answer as parameters.

* `uploadParts_sends` -- the parts that the loop sends and those that were accepted.
* `blockId_injective`, `length_blockId` -- the ids of the blocks on Azure.
* `multipart_assembles` -- what is sent, whatever fails, and what is left on the meta.
-/

namespace SnowflakeConnector

namespace FileTransferAgent

/-! ## reading a file -/

/-- `Number.MAX_SAFE_INTEGER`. -/
def maxSafeInteger : Nat := 2 ^ 53 - 1

/-- A file on the disk.  Its size and the positions in it are JavaScript numbers, which are
whole numbers up to the largest safe one. -/
structure DataFile where
  content : List UInt8
  safe : content.length ≤ maxSafeInteger

def DataFile.size (file : DataFile) : Nat := file.content.length

def multipartPartSizeBytes : Nat := 8 * 1024 * 1024

/-- What a read from an open file comes to. -/
inductive ReadReply
  | reads (bytesRead : Nat)
  | fails (err : SdkError)
  deriving DecidableEq, Repr

/-- An `Error` that no client made. -/
def plainError (message : String) : SdkError where
  awsCode := none
  name := "Error"
  code := .undefined
  statusCode := none
  status := none
  text := "Error: " ++ message

def shortReadError (position size bytesRead : Nat) : SdkError :=
  plainError ("Short read at offset " ++ toString position ++ ": expected " ++ toString size ++
    " bytes, got " ++ toString bytesRead)

/-- Exactly `size` bytes from a position. -/
def readChunk (file : DataFile) (position size : Nat) : ReadReply → Except SdkError (List UInt8)
  | .fails err => .error err
  | .reads bytesRead =>
      if bytesRead ≠ size then .error (shortReadError position size bytesRead)
      else .ok ((file.content.drop position).take size)

theorem readChunk_ok {file : DataFile} {position size : Nat} {reply : ReadReply}
    {buf : List UInt8} (h : readChunk file position size reply = .ok buf) :
    buf = (file.content.drop position).take size := by
  cases reply with
  | fails err => contradiction
  | reads bytesRead =>
      by_cases hsize : bytesRead = size
      · rw [readChunk, if_neg (by simp [hsize])] at h
        exact (Except.ok.inj h).symm
      · rw [readChunk, if_pos hsize] at h
        contradiction

/-! ## the loop over the parts -/

variable {Req ρ ι : Type}

/-- Where the loop stands: what is kept of the parts that were accepted, and the requests that
were sent. -/
structure PartsState (Req ρ : Type) where
  position : Nat := 0
  partNumber : Nat := 1
  accepted : List ρ := []
  requests : List Req := []

/-- What reads the parts and sends them, by their numbers: the request is made of the number,
the bytes and their size. -/
structure PartsIo (Req ρ : Type) where
  read : Nat → ReadReply
  request : Nat → List UInt8 → Nat → Req
  send : Nat → Except SdkError ρ

/-- The loop; an error ends it where it stands. -/
def uploadParts (file : DataFile) (io : PartsIo Req ρ) (s : PartsState Req ρ) :
    Except SdkError Unit × PartsState Req ρ :=
  if s.position < file.size then
    let thisPartSize := min multipartPartSizeBytes (file.size - s.position)
    match readChunk file s.position thisPartSize (io.read s.partNumber) with
    | .error err => (.error err, s)
    | .ok buf =>
        let requests := s.requests ++ [io.request s.partNumber buf thisPartSize]
        match io.send s.partNumber with
        | .error err => (.error err, { s with requests })
        | .ok receipt =>
            uploadParts file io
              { position := s.position + thisPartSize
                partNumber := s.partNumber + 1
                accepted := s.accepted ++ [receipt]
                requests }
  else (.ok (), s)
termination_by file.size - s.position
decreasing_by
  simp only [multipartPartSizeBytes]
  omega

/-- What else happens to the open file and to the request that completes the upload. -/
structure FileIo where
  openError : Option SdkError
  closeError : Option SdkError
  completeError : Option SdkError
  deriving DecidableEq, Repr

/-- The file is opened, sent in parts and closed, and then the upload is completed.  The file
is closed however the loop ends, and an error of that replaces the one of the loop. -/
def transferParts (file : DataFile) (io : PartsIo Req ρ) (complete : List ρ → Req)
    (fileIo : FileIo) : Except SdkError Unit × PartsState Req ρ :=
  match fileIo.openError with
  | some err => (.error err, {})
  | none =>
      let (result, s) := uploadParts file io {}
      match fileIo.closeError, result with
      | some err, _ => (.error err, s)
      | none, .error err => (.error err, s)
      | none, .ok () =>
          let s := { s with requests := s.requests ++ [complete s.accepted] }
          match fileIo.completeError with
          | some err => (.error err, s)
          | none => (.ok (), s)

/-! ## S3 -/

/-- An id that the service gives to an upload; it is not empty. -/
structure UploadId where
  value : String
  nonempty : value ≠ ""
  deriving DecidableEq

/-- An entry of the list that completes an upload. -/
structure UploadedPart where
  eTag : String
  partNumber : Nat
  deriving DecidableEq, Repr

/-- The requests of an upload to S3; bucket and key are the same in all of them. -/
inductive S3Request
  | createMultipartUpload (metadata : Metadata)
  | uploadPart (uploadId : UploadId) (partNumber : Nat) (body : List UInt8)
  | completeMultipartUpload (uploadId : UploadId) (parts : List UploadedPart)
  | abortMultipartUpload (uploadId : UploadId)
  deriving DecidableEq

/-- What reads and requests come to; an abort may fail as well, and nothing is made of it. -/
structure S3Events where
  create : Except SdkError UploadId
  read : Nat → ReadReply
  part : Nat → Except SdkError String
  fileIo : FileIo

def S3Events.partsIo (events : S3Events) (uploadId : UploadId) :
    PartsIo S3Request UploadedPart where
  read := events.read
  request partNumber body _ := .uploadPart uploadId partNumber body
  send partNumber := (events.part partNumber).map fun eTag => ⟨eTag, partNumber⟩

/-- `uploadFileMultipart`: how the upload ends, and the requests that were sent. -/
def S3Util.uploadFileMultipart (dataFile : DataFile) (digest : String)
    (encryptionMetadata : Option EncryptionMetadata) (events : S3Events) :
    TransferOutcome × List S3Request :=
  let create := S3Request.createMultipartUpload (buildS3Metadata digest encryptionMetadata)
  match events.create with
  | .error err => (applyS3Error err, [create])
  | .ok uploadId =>
      let (result, s) := transferParts dataFile (events.partsIo uploadId)
        (.completeMultipartUpload uploadId) events.fileIo
      match result with
      | .ok () => (.done none, create :: s.requests)
      | .error err =>
          (applyS3Error err, create :: s.requests ++ [.abortMultipartUpload uploadId])

/-! ## Azure -/

/-- The bytes of a text of ASCII characters. -/
def asciiBytes (cs : List Char) : List UInt8 := cs.map fun c => UInt8.ofNat c.toNat

/-- The number in ten digits, in base64. -/
def AzureUtil.blockId (partNumber : Nat) : String :=
  String.ofList (Base64.encode (asciiBytes ((Nat.toDigits 10 partNumber).leftpad 10 '0')))

inductive AzureRequest
  | stageBlock (blockId : String) (body : List UInt8) (size : Nat)
  | commitBlockList (blockIds : List String) (metadata : Metadata)
  | deleteIfExists
  deriving DecidableEq

structure AzureEvents where
  read : Nat → ReadReply
  stage : Nat → Except SdkError Unit
  fileIo : FileIo

def AzureEvents.partsIo (events : AzureEvents) : PartsIo AzureRequest String where
  read := events.read
  request partNumber := .stageBlock (AzureUtil.blockId partNumber)
  send partNumber := (events.stage partNumber).map fun _ => AzureUtil.blockId partNumber

def AzureUtil.uploadFileMultipart (dataFile : DataFile) (digest : String)
    (encryptionMetadata : Option EncryptionMetadata) (events : AzureEvents) :
    TransferOutcome × List AzureRequest :=
  let (result, s) := transferParts dataFile events.partsIo
    (.commitBlockList · (buildAzureMetadata digest encryptionMetadata)) events.fileIo
  match result with
  | .ok () => (.done none, s.requests)
  | .error err =>
      (applyAzureError err,
        if s.accepted = [] then s.requests else s.requests ++ [.deleteIfExists])

/-! ## what the loop sends -/

theorem multipartPartSizeBytes_pos : 0 < multipartPartSizeBytes := by decide

/-- One part more: it is a whole one, or no other part follows it. -/
theorem parts_few {n length size part : Nat} (hlength : 0 < length)
    (hsize : size = min part length) (h : n * part < length - size + part) :
    (n + 1) * part < length + part := by
  rw [Nat.succ_mul]
  rcases Nat.le_total part length with hle | hle
  · omega
  · have hnone : n = 0 := by
      refine Nat.eq_zero_of_not_pos fun hn => ?_
      have hmul := Nat.le_mul_of_pos_left part hn
      omega
    rw [hnone]
    omega

/-- Consecutive parts of some bytes, numbered in turn and none of them empty, and what was
kept of the ones that were accepted: all of them, or all but the last, which was refused. -/
structure SendsParts (io : PartsIo Req ρ) (bytes : List UInt8) (number : Nat)
    (sent : List (Nat × List UInt8)) (receipts : List ρ) : Prop where
  numbers : sent.map Prod.fst = List.range' number sent.length
  nonempty : ∀ p ∈ sent, p.2 ≠ []
  consecutive : (sent.map Prod.snd).flatten <+: bytes
  few : sent.length * multipartPartSizeBytes < bytes.length + multipartPartSizeBytes
  count : sent.length = receipts.length ∨
    sent.length = receipts.length + 1 ∧ (io.send (number + receipts.length)).isOk = false
  accepted : List.Forall₂ (fun n receipt => io.send n = .ok receipt)
    (List.range' number receipts.length) receipts

theorem SendsParts.nil (io : PartsIo Req ρ) (bytes : List UInt8) (number : Nat) :
    SendsParts io bytes number [] [] where
  numbers := rfl
  nonempty := by simp
  consecutive := List.nil_prefix
  few := by
    have hpart := multipartPartSizeBytes_pos
    rw [List.length_nil]
    omega
  count := Or.inl rfl
  accepted := .nil

section

variable {io : PartsIo Req ρ} {bytes : List UInt8} {number size : Nat}
  {sent : List (Nat × List UInt8)} {receipt : ρ} {receipts : List ρ}

/-- What is taken of bytes that are left is not empty. -/
theorem take_part_ne_nil (hbytes : bytes ≠ [])
    (hsize : size = min multipartPartSizeBytes bytes.length) : bytes.take size ≠ [] := by
  have hlength := List.length_pos_of_ne_nil hbytes
  have hpart := multipartPartSizeBytes_pos
  refine List.ne_nil_of_length_pos ?_
  rw [List.length_take]
  omega

/-- A part is sent and refused. -/
theorem SendsParts.refused (hbytes : bytes ≠ [])
    (hsize : size = min multipartPartSizeBytes bytes.length)
    (hsend : (io.send number).isOk = false) :
    SendsParts io bytes number [(number, bytes.take size)] [] where
  numbers := rfl
  nonempty := by simpa using take_part_ne_nil hbytes hsize
  consecutive := by simpa using List.take_prefix size bytes
  few := by
    have hlength := List.length_pos_of_ne_nil hbytes
    rw [List.length_singleton]
    omega
  count := Or.inr ⟨rfl, hsend⟩
  accepted := .nil

/-- A part is accepted, and the next ones follow it. -/
theorem SendsParts.cons (hrest : SendsParts io (bytes.drop size) (number + 1) sent receipts)
    (hbytes : bytes ≠ []) (hsize : size = min multipartPartSizeBytes bytes.length)
    (hreceipt : io.send number = .ok receipt) :
    SendsParts io bytes number ((number, bytes.take size) :: sent) (receipt :: receipts) where
  numbers := by rw [List.map_cons, hrest.numbers, List.length_cons, List.range'_succ]
  nonempty := List.forall_mem_cons.mpr ⟨take_part_ne_nil hbytes hsize, hrest.nonempty⟩
  consecutive := by
    have hprefix := (List.prefix_append_right_inj (bytes.take size)).mpr hrest.consecutive
    rw [List.take_append_drop] at hprefix
    simpa using hprefix
  few := by
    have hfew := hrest.few
    rw [List.length_drop] at hfew
    exact parts_few (List.length_pos_of_ne_nil hbytes) hsize hfew
  count := by
    have hcount := hrest.count
    rw [List.length_cons, List.length_cons, ← Nat.add_assoc, Nat.add_right_comm number]
    rcases hcount with hcount | ⟨hcount, hrefused⟩
    · exact Or.inl (by rw [hcount])
    · exact Or.inr ⟨by rw [hcount], hrefused⟩
  accepted := by
    rw [List.length_cons, List.range'_succ]
    exact .cons hreceipt hrest.accepted

end

/-- The parts that the loop sends from where it stands, those that were accepted, and that
nothing is left out when it comes to its end. -/
theorem uploadParts_sends (file : DataFile) (io : PartsIo Req ρ) (s : PartsState Req ρ) :
    ∃ sent receipts,
      (uploadParts file io s).2.requests =
          s.requests ++ sent.map (fun p => io.request p.1 p.2 p.2.length) ∧
        (uploadParts file io s).2.accepted = s.accepted ++ receipts ∧
        SendsParts io (file.content.drop s.position) s.partNumber sent receipts ∧
        ((uploadParts file io s).1 = .ok () →
          receipts.length = sent.length ∧
            (sent.map Prod.snd).flatten = file.content.drop s.position) := by
  -- before the end of the file some bytes are left, and a part is taken off their front
  have hleft : ∀ position, position < file.size →
      file.content.drop position ≠ [] ∧
        (file.content.drop position).length = file.size - position := by
    intro position hposition
    have hlength : (file.content.drop position).length = file.size - position := by
      rw [List.length_drop, DataFile.size]
    exact ⟨List.ne_nil_of_length_pos (by omega), hlength⟩
  have hsizes : ∀ position size, position < file.size →
      size = min multipartPartSizeBytes (file.size - position) →
      ((file.content.drop position).take size).length = size := by
    intro position size hposition hsize
    rw [List.length_take, (hleft position hposition).2]
    omega
  fun_induction uploadParts file io s with
  | case1 s hposition size err hread =>
      exact ⟨[], [], by simp, by simp, .nil io _ _, fun h => by contradiction⟩
  | case2 s hposition size buf hread requests err hsend =>
      obtain rfl := readChunk_ok hread
      obtain ⟨hne, hlength⟩ := hleft _ hposition
      have hsize := hsizes _ size hposition rfl
      refine ⟨[(s.partNumber, (file.content.drop s.position).take size)], [], ?_, by simp,
        .refused hne (by rw [hlength]) (by rw [hsend]; rfl), fun h => by contradiction⟩
      simp only [requests, List.map_cons, List.map_nil, hsize]
  | case3 s hposition size buf hread requests receipt hsend ih =>
      obtain rfl := readChunk_ok hread
      obtain ⟨hne, hlength⟩ := hleft _ hposition
      have hsize := hsizes _ size hposition rfl
      obtain ⟨sent, receipts, hrequests, haccepted, hsends, hall⟩ := ih
      rw [← List.drop_drop] at hsends hall
      refine ⟨(s.partNumber, (file.content.drop s.position).take size) :: sent,
        receipt :: receipts, ?_, ?_, hsends.cons hne (by rw [hlength]) hsend, fun hok => ?_⟩
      · rw [hrequests]
        simp only [requests, List.map_cons, hsize, List.append_assoc, List.singleton_append]
      · rw [haccepted, List.append_assoc, List.singleton_append]
      · obtain ⟨hcount, hcovers⟩ := hall hok
        rw [List.map_cons, List.flatten_cons, hcovers, List.take_append_drop, List.length_cons,
          List.length_cons, hcount]
        exact ⟨rfl, rfl⟩
  | case4 s hposition =>
      have hnil : file.content.drop s.position = [] := by
        rw [List.drop_eq_nil_iff, ← DataFile.size]
        omega
      exact ⟨[], [], by simp, by simp, .nil io _ _, fun _ => ⟨rfl, by simp [hnil]⟩⟩

/-! ## what an upload sends -/

/-- What the transfer of a file sends: parts of it from its start, and then the list that
completes the upload, which is sent only when every part was accepted and none is missing. -/
structure Transfers (io : PartsIo Req ρ) (file : DataFile) (fileIo : FileIo)
    (result : Except SdkError Unit) (sent : List (Nat × List UInt8)) (receipts : List ρ)
    (completed : Bool) : Prop where
  sends : SendsParts io file.content 1 sent receipts
  covers : completed = true →
    receipts.length = sent.length ∧ (sent.map Prod.snd).flatten = file.content
  ends : result = .ok () ↔ completed = true ∧ fileIo.completeError = none

/-- Nothing is sent of a file that cannot be opened. -/
theorem Transfers.nothing {io : PartsIo Req ρ} {file : DataFile} {fileIo : FileIo}
    (err : SdkError) : Transfers io file fileIo (.error err) [] [] false where
  sends := .nil io _ _
  covers h := by contradiction
  ends := by simp

theorem transferParts_transfers (file : DataFile) (io : PartsIo Req ρ) (complete : List ρ → Req)
    (fileIo : FileIo) :
    ∃ sent receipts completed,
      (transferParts file io complete fileIo).2.requests =
          sent.map (fun p => io.request p.1 p.2 p.2.length) ++
            (if completed = true then [complete receipts] else []) ∧
        (transferParts file io complete fileIo).2.accepted = receipts ∧
        Transfers io file fileIo (transferParts file io complete fileIo).1 sent receipts
          completed := by
  obtain ⟨sent, receipts, hrequests, haccepted, hsends, hall⟩ := uploadParts_sends file io {}
  rw [List.drop_zero] at hsends hall
  rw [List.nil_append] at hrequests haccepted
  unfold transferParts
  cases hopen : fileIo.openError with
  | some err =>
      exact ⟨[], [], false, rfl, rfl, .nothing err⟩
  | none =>
      have hstopped : ∀ err : SdkError,
          Transfers io file fileIo (.error err) sent receipts false := fun err =>
        ⟨hsends, fun h => by contradiction, by simp⟩
      cases hclose : fileIo.closeError with
      | some err =>
          exact ⟨sent, receipts, false, by simpa using hrequests, haccepted, hstopped err⟩
      | none =>
          cases hresult : (uploadParts file io {}).1 with
          | error err =>
              refine ⟨sent, receipts, false, ?_, ?_, ?_⟩
              · simpa [hresult] using hrequests
              · simpa [hresult] using haccepted
              · simpa [hresult] using hstopped err
          | ok u =>
              have hcovers := hall hresult
              cases hcomplete : fileIo.completeError with
              | some err =>
                  refine ⟨sent, receipts, true, ?_, ?_, hsends, fun _ => hcovers, ?_⟩
                  · simp [hresult, hrequests, haccepted]
                  · simp [hresult, haccepted]
                  · simp [hresult, hcomplete]
              | none =>
                  refine ⟨sent, receipts, true, ?_, ?_, hsends, fun _ => hcovers, ?_⟩
                  · simp [hresult, hrequests, haccepted]
                  · simp [hresult, haccepted]
                  · simp [hresult, hcomplete]

/-! ## block ids -/

namespace AzureUtil

theorem ofNat_toNat_of_isDigit {c : Char} (h : c.isDigit = true) :
    Char.ofNat (UInt8.ofNat c.toNat).toNat = c := by
  have hle : c.toNat < 256 := by
    have hdigit := (Char.isDigit_iff_toNat.mp h).2
    have hnine : '9'.toNat = 57 := rfl
    omega
  have hbyte : (UInt8.ofNat c.toNat).toNat = c.toNat := by
    rw [UInt8.toNat_ofNat', Nat.mod_eq_of_lt hle]
  rw [hbyte, Char.ofNat_toNat]

/-- The digits of a number are read back from their bytes. -/
theorem ofDigitChars_asciiBytes (n : Nat) :
    Nat.ofDigitChars 10 ((asciiBytes ((Nat.toDigits 10 n).leftpad 10 '0')).map fun b =>
      Char.ofNat b.toNat) 0 = n := by
  have hdigits : ∀ c ∈ (Nat.toDigits 10 n).leftpad 10 '0', c.isDigit = true := by
    intro c hc
    rw [List.leftpad, List.mem_append] at hc
    rcases hc with hc | hc
    · rw [List.eq_of_mem_replicate hc]
      rfl
    · exact Nat.isDigit_of_mem_toDigits (by decide) (by decide) hc
  have hback : (asciiBytes ((Nat.toDigits 10 n).leftpad 10 '0')).map
      (fun b => Char.ofNat b.toNat) = (Nat.toDigits 10 n).leftpad 10 '0' := by
    rw [asciiBytes, List.map_map]
    exact (List.map_congr_left fun c hc => ofNat_toNat_of_isDigit (hdigits c hc)).trans
      (List.map_id _)
  rw [hback, List.leftpad, Nat.ofDigitChars_append, Nat.ofDigitChars_replicate_zero,
    Nat.mul_zero, Nat.ofDigitChars_ten_toDigits]

/-- Different parts have different ids. -/
theorem blockId_injective : Function.Injective blockId := by
  intro m n h
  have hbytes := Base64.encode_injective (String.ofList_injective h)
  rw [← ofDigitChars_asciiBytes m, hbytes, ofDigitChars_asciiBytes]

/-- The ids have one length as long as ten digits are enough. -/
theorem length_blockId {n : Nat} (h : n < 10 ^ 10) : (blockId n).length = 16 := by
  have hdigits : (Nat.toDigits 10 n).length ≤ 10 :=
    (Nat.length_toDigits_le_iff (by decide) (by decide)).mpr h
  have hlength : (asciiBytes ((Nat.toDigits 10 n).leftpad 10 '0')).length = 10 := by
    rw [asciiBytes, List.length_map, List.length_leftpad]
    omega
  rw [blockId, String.length_ofList, Base64.length_encode, hlength]

end AzureUtil

/-! ## the two uploads -/

/-- What a multipart upload does, read off its requests: the parts that were sent with their
ids, the lists that completed it, and whether it was started and aborted. -/
structure MultipartRun (ι ρ : Type) where
  sent : List (ι × List UInt8)
  completions : List (List ρ)
  started : Bool
  aborted : Bool

/-- The statuses after which the upload is tried again. -/
def retryStatuses : List ResultStatus :=
  [.renewToken, .needRetry, .needRetryWithLowerConcurrency]

/-- An upload in parts is put together to exactly the file, or is left to another try. -/
structure Assembles (file : DataFile) (id : Nat → ι) (send : Nat → Except SdkError ρ)
    (completeError : Option SdkError) (run : MultipartRun ι ρ) (status : Option ResultStatus) :
    Prop where
  ids : run.sent.map Prod.fst = (List.range' 1 run.sent.length).map id
  nonempty : ∀ p ∈ run.sent, p.2 ≠ []
  slices : (run.sent.map Prod.snd).flatten <+: file.content
  few : run.sent.length * multipartPartSizeBytes < file.content.length + multipartPartSizeBytes
  covers : run.completions ≠ [] → (run.sent.map Prod.snd).flatten = file.content
  completion : ∀ receipts ∈ run.completions,
    List.Forall₂ (fun n receipt => send n = .ok receipt) (List.range' 1 run.sent.length) receipts
  uploaded : status = some .uploaded → run.completions.length = 1 ∧ completeError = none
  aborted : status ≠ some .uploaded → run.started = true → run.aborted = true
  incomplete : status ≠ some .uploaded → run.completions ≠ [] → completeError ≠ none
  retried : status ≠ some .uploaded → ∃ s ∈ retryStatuses, status = some s

/-- From what is transferred to what the upload does. -/
theorem Transfers.assembles {io : PartsIo Req ρ} {file : DataFile} {fileIo : FileIo}
    {result : Except SdkError Unit} {sent : List (Nat × List UInt8)} {receipts : List ρ}
    {completed : Bool} (h : Transfers io file fileIo result sent receipts completed)
    (id : Nat → ι) (started aborted : Bool) {status : Option ResultStatus}
    (hok : result = .ok () ↔ status = some .uploaded)
    (haborted : result ≠ .ok () → started = true → aborted = true)
    (hretried : result ≠ .ok () → ∃ s ∈ retryStatuses, status = some s) :
    Assembles file id io.send fileIo.completeError
      ⟨sent.map fun p => (id p.1, p.2), if completed = true then [receipts] else [], started,
        aborted⟩ status where
  ids := by
    have hnumbers := congrArg (List.map id) h.sends.numbers
    rw [List.map_map] at hnumbers
    rw [List.map_map, List.length_map, ← hnumbers]
    rfl
  nonempty p hp := by
    obtain ⟨q, hq, rfl⟩ := List.mem_map.mp hp
    exact h.sends.nonempty q hq
  slices := by simpa [Function.comp_def] using h.sends.consecutive
  few := by simpa using h.sends.few
  covers hne := by
    have hcompleted : completed = true := by simpa using hne
    simpa [Function.comp_def] using (h.covers hcompleted).2
  completion receipts' hmem := by
    have hcompleted : completed = true ∧ receipts' = receipts := by
      cases completed <;> simp_all
    rw [hcompleted.2, List.length_map, ← (h.covers hcompleted.1).1]
    exact h.sends.accepted
  uploaded hstatus := by
    obtain ⟨hcompleted, herror⟩ := h.ends.mp (hok.mpr hstatus)
    exact ⟨by rw [hcompleted]; rfl, herror⟩
  aborted hstatus := haborted fun hresult => hstatus (hok.mp hresult)
  incomplete hstatus hne herror := by
    have hcompleted : completed = true := by simpa using hne
    exact hstatus (hok.mp (h.ends.mpr ⟨hcompleted, herror⟩))
  retried hstatus := hretried fun hresult => hstatus (hok.mp hresult)

theorem retried_ne_uploaded {err : SdkError} {status : Option ResultStatus}
    (h : ∃ s ∈ retryStatuses, status = some s) :
    (Except.error err : Except SdkError Unit) = .ok () ↔ status = some .uploaded := by
  obtain ⟨s, hs, rfl⟩ := h
  constructor
  · intro h
    contradiction
  · intro h
    obtain rfl := Option.some.inj h
    exact absurd hs (by decide)

/-- How an upload leaves the status of its file. -/
def statusAfter (body : Body) (encryptionMetadata : Option EncryptionMetadata)
    (outcome : TransferOutcome) (file : Meta) : Option ResultStatus :=
  (uploadFile body encryptionMetadata outcome file).2.resultStatus

section

variable (body : Body) (encryptionMetadata : Option EncryptionMetadata) (file : Meta)
  (err : SdkError)

theorem statusAfter_done (gcsFileHeader : Option FileHeader) :
    statusAfter body encryptionMetadata (.done gcsFileHeader) file = some .uploaded := rfl

theorem statusAfter_applyS3Error :
    ∃ s ∈ retryStatuses,
      statusAfter body encryptionMetadata (S3Util.applyS3Error err) file = some s := by
  unfold S3Util.applyS3Error
  split_ifs
  · exact ⟨.renewToken, by decide, rfl⟩
  · exact ⟨.needRetryWithLowerConcurrency, by decide, rfl⟩
  · exact ⟨.needRetry, by decide, rfl⟩

theorem statusAfter_applyAzureError :
    ∃ s ∈ retryStatuses,
      statusAfter body encryptionMetadata (AzureUtil.applyAzureError err) file = some s := by
  unfold AzureUtil.applyAzureError
  split_ifs
  · exact ⟨.renewToken, by decide, rfl⟩
  · exact ⟨.needRetry, by decide, rfl⟩

end

/-- Of requests for parts, all are parts: none completes the upload or aborts it. -/
theorem requests_of_parts {α β γ ρ : Type*} (request : α → ρ) (partOf : ρ → Option β)
    (part : α → β) (completionOf : ρ → Option γ) (isAbort : ρ → Bool)
    (hpart : ∀ p, partOf (request p) = some (part p))
    (hcompletion : ∀ p, completionOf (request p) = none) (habort : ∀ p, isAbort (request p) = false)
    (sent : List α) :
    (sent.map request).filterMap partOf = sent.map part ∧
      (sent.map request).filterMap completionOf = [] ∧
      (sent.map request).any isAbort = false := by
  induction sent with
  | nil => exact ⟨rfl, rfl, rfl⟩
  | cons p sent ih =>
      obtain ⟨hsent, hcompletions, haborts⟩ := ih
      simp [hpart, hcompletion, habort, hsent, hcompletions, haborts]

namespace S3Util

def partOf : S3Request → Option (Nat × List UInt8)
  | .uploadPart _ partNumber body => some (partNumber, body)
  | _ => none

def completionOf : S3Request → Option (List UploadedPart)
  | .completeMultipartUpload _ parts => some parts
  | _ => none

def isAbort : S3Request → Bool
  | .abortMultipartUpload _ => true
  | _ => false

/-- An upload is started when it has got an id. -/
def multipartRun (events : S3Events) (requests : List S3Request) :
    MultipartRun Nat UploadedPart where
  sent := requests.filterMap partOf
  completions := requests.filterMap completionOf
  started := events.create.isOk
  aborted := requests.any isAbort

/-- What is kept of an accepted part. -/
def receipt (events : S3Events) (partNumber : Nat) : Except SdkError UploadedPart :=
  (events.part partNumber).map fun eTag => ⟨eTag, partNumber⟩

/-- The run of requests that come in their order. -/
theorem multipartRun_requests (events : S3Events) (metadata : Metadata) (uploadId : UploadId)
    (sent : List (Nat × List UInt8)) (receipts : List UploadedPart) (completed aborted : Bool) :
    multipartRun events
        (S3Request.createMultipartUpload metadata ::
          (sent.map (fun p => S3Request.uploadPart uploadId p.1 p.2) ++
            (if completed = true then [S3Request.completeMultipartUpload uploadId receipts] else [])) ++
          (if aborted = true then [S3Request.abortMultipartUpload uploadId] else [])) =
      ⟨sent.map fun p => (p.1, p.2), if completed = true then [receipts] else [],
        events.create.isOk, aborted⟩ := by
  obtain ⟨hsent, hcompletions, haborts⟩ := requests_of_parts
    (fun p : Nat × List UInt8 => S3Request.uploadPart uploadId p.1 p.2) partOf
    (fun p => (p.1, p.2)) completionOf isAbort (fun _ => rfl) (fun _ => rfl) (fun _ => rfl) sent
  simp only [multipartRun, List.cons_append, List.filterMap_cons, List.filterMap_append,
    List.any_cons, List.any_append, hsent, hcompletions, haborts]
  cases completed <;> cases aborted <;> simp [partOf, completionOf, isAbort]

theorem uploadFileMultipart_assembles (dataFile : DataFile) (digest : String)
    (encryptionMetadata : Option EncryptionMetadata) (events : S3Events) (body : Body)
    (file : Meta) :
    Assembles dataFile (fun n => n) (receipt events) events.fileIo.completeError
      (multipartRun events (uploadFileMultipart dataFile digest encryptionMetadata events).2)
      (statusAfter body encryptionMetadata
        (uploadFileMultipart dataFile digest encryptionMetadata events).1 file) := by
  unfold uploadFileMultipart
  cases hcreate : events.create with
  | error err =>
      have hretried := statusAfter_applyS3Error body encryptionMetadata file err
      let io : PartsIo Unit UploadedPart := ⟨events.read, fun _ _ _ => (), receipt events⟩
      have hnothing : Transfers io dataFile events.fileIo (.error err) [] [] false := .nothing err
      have hassembles := hnothing.assembles (fun n => n) false false
        (retried_ne_uploaded hretried) (fun _ h => h) (fun _ => hretried)
      have hrun : multipartRun events [.createMultipartUpload
          (buildS3Metadata digest encryptionMetadata)] = ⟨[], [], false, false⟩ := by
        simp [multipartRun, partOf, completionOf, isAbort, hcreate, Except.isOk, Except.toBool]
      rw [hrun]
      exact hassembles
  | ok uploadId =>
      obtain ⟨sent, receipts, completed, hrequests, _, htransfers⟩ :=
        transferParts_transfers dataFile (events.partsIo uploadId)
          (.completeMultipartUpload uploadId) events.fileIo
      cases hresult : (transferParts dataFile (events.partsIo uploadId)
          (.completeMultipartUpload uploadId) events.fileIo).1 with
      | ok u =>
          rw [hresult] at htransfers
          have hstatus := statusAfter_done body encryptionMetadata file none
          have hassembles := htransfers.assembles (fun n => n) events.create.isOk false
            (iff_of_true rfl hstatus) (fun h => absurd rfl h) (fun h => absurd rfl h)
          have hrun := multipartRun_requests events (buildS3Metadata digest encryptionMetadata)
            uploadId sent receipts completed false
          rw [if_neg Bool.false_ne_true, List.append_nil] at hrun
          rw [← hrun] at hassembles
          simp only [hresult, hrequests]
          exact hassembles
      | error err =>
          have hretried := statusAfter_applyS3Error body encryptionMetadata file err
          rw [hresult] at htransfers
          have hassembles := htransfers.assembles (fun n => n) events.create.isOk true
            (retried_ne_uploaded hretried) (fun _ _ => rfl) (fun _ => hretried)
          have hrun := multipartRun_requests events (buildS3Metadata digest encryptionMetadata)
            uploadId sent receipts completed true
          rw [if_pos rfl] at hrun
          rw [← hrun] at hassembles
          simp only [hresult, hrequests]
          exact hassembles

end S3Util

namespace AzureUtil

def partOf : AzureRequest → Option (String × List UInt8)
  | .stageBlock blockId body _ => some (blockId, body)
  | _ => none

def completionOf : AzureRequest → Option (List String)
  | .commitBlockList blockIds _ => some blockIds
  | _ => none

def isAbort : AzureRequest → Bool
  | .deleteIfExists => true
  | _ => false

/-- What is kept of an accepted block. -/
def receipt (events : AzureEvents) (partNumber : Nat) : Except SdkError String :=
  (events.stage partNumber).map fun _ => blockId partNumber

/-- An upload is started when a block that was sent has been accepted. -/
def multipartRun (events : AzureEvents) (requests : List AzureRequest) :
    MultipartRun String String where
  sent := requests.filterMap partOf
  completions := requests.filterMap completionOf
  started := (List.range' 1 (requests.filterMap partOf).length).any fun n =>
    (receipt events n).isOk
  aborted := requests.any isAbort

theorem multipartRun_requests (events : AzureEvents) (metadata : Metadata)
    (sent : List (Nat × List UInt8)) (receipts : List String) (completed aborted : Bool) :
    multipartRun events
        ((sent.map (fun p => AzureRequest.stageBlock (blockId p.1) p.2 p.2.length) ++
            (if completed = true then [AzureRequest.commitBlockList receipts metadata] else [])) ++
          (if aborted = true then [AzureRequest.deleteIfExists] else [])) =
      ⟨sent.map fun p => (blockId p.1, p.2), if completed = true then [receipts] else [],
        (List.range' 1 sent.length).any fun n => (receipt events n).isOk, aborted⟩ := by
  obtain ⟨hsent, hcompletions, haborts⟩ := requests_of_parts
    (fun p : Nat × List UInt8 => AzureRequest.stageBlock (blockId p.1) p.2 p.2.length) partOf
    (fun p => (blockId p.1, p.2)) completionOf isAbort (fun _ => rfl) (fun _ => rfl)
    (fun _ => rfl) sent
  -- what follows the blocks is no block
  have htail : ((if completed = true then [AzureRequest.commitBlockList receipts metadata] else [])
      ++ (if aborted = true then [AzureRequest.deleteIfExists] else [])).filterMap partOf = [] := by
    cases completed <;> cases aborted <;> rfl
  rw [List.append_assoc, multipartRun, List.filterMap_append, hsent, htail, List.append_nil,
    List.length_map, List.filterMap_append, hcompletions, List.any_append, haborts]
  cases completed <;> cases aborted <;> rfl

/-- A block that was accepted is among the receipts. -/
theorem receipts_ne_nil {events : AzureEvents} {bytes : List UInt8}
    {sent : List (Nat × List UInt8)} {receipts : List String}
    (h : SendsParts events.partsIo bytes 1 sent receipts)
    (hstarted : ((List.range' 1 sent.length).any fun n => (receipt events n).isOk) = true) :
    receipts ≠ [] := by
  rintro rfl
  rcases h.count with hcount | ⟨hcount, hrefused⟩
  · rw [hcount] at hstarted
    contradiction
  · rw [hcount] at hstarted
    have hfirst : (receipt events 1).isOk = true := by simpa [List.range'] using hstarted
    exact Bool.false_ne_true (hrefused.symm.trans hfirst)

theorem uploadFileMultipart_assembles (dataFile : DataFile) (digest : String)
    (encryptionMetadata : Option EncryptionMetadata) (events : AzureEvents) (body : Body)
    (file : Meta) :
    Assembles dataFile blockId (receipt events) events.fileIo.completeError
      (multipartRun events (uploadFileMultipart dataFile digest encryptionMetadata events).2)
      (statusAfter body encryptionMetadata
        (uploadFileMultipart dataFile digest encryptionMetadata events).1 file) := by
  unfold uploadFileMultipart
  obtain ⟨sent, receipts, completed, hrequests, haccepted, htransfers⟩ :=
    transferParts_transfers dataFile events.partsIo
      (.commitBlockList · (buildAzureMetadata digest encryptionMetadata)) events.fileIo
  cases hresult : (transferParts dataFile events.partsIo
      (.commitBlockList · (buildAzureMetadata digest encryptionMetadata)) events.fileIo).1 with
  | ok u =>
      rw [hresult] at htransfers
      have hstatus := statusAfter_done body encryptionMetadata file none
      have hassembles := htransfers.assembles blockId
        ((List.range' 1 sent.length).any fun n => (receipt events n).isOk) false
        (iff_of_true rfl hstatus) (fun h => absurd rfl h) (fun h => absurd rfl h)
      have hrun := multipartRun_requests events (buildAzureMetadata digest encryptionMetadata)
        sent receipts completed false
      rw [if_neg Bool.false_ne_true, List.append_nil] at hrun
      rw [← hrun] at hassembles
      simp only [hresult, hrequests]
      exact hassembles
  | error err =>
      have hretried := statusAfter_applyAzureError body encryptionMetadata file err
      rw [hresult] at htransfers
      have hassembles := htransfers.assembles blockId
        ((List.range' 1 sent.length).any fun n => (receipt events n).isOk)
        (decide (receipts ≠ [])) (retried_ne_uploaded hretried)
        (fun _ hstarted => decide_eq_true (receipts_ne_nil htransfers.sends hstarted))
        fun _ => hretried
      have hrun := multipartRun_requests events (buildAzureMetadata digest encryptionMetadata)
        sent receipts completed (decide (receipts ≠ []))
      rw [← hrun] at hassembles
      simp only [hresult, hrequests, haccepted]
      by_cases hreceipts : receipts = []
      · have hnone : ¬ decide (receipts ≠ []) = true := by simp [hreceipts]
        rw [if_neg hnone, List.append_nil] at hassembles
        rw [if_pos hreceipts]
        exact hassembles
      · have hsome : decide (receipts ≠ []) = true := by simp [hreceipts]
        rw [if_pos hsome] at hassembles
        rw [if_neg hreceipts]
        exact hassembles

end AzureUtil

/-! ## both services -/

/-- A file has fewer parts than ten digits can number. -/
theorem parts_lt (file : DataFile) {n : Nat}
    (h : n * multipartPartSizeBytes < file.content.length + multipartPartSizeBytes) :
    n < 10 ^ 10 := by
  have hsafe := file.safe
  have hmax : maxSafeInteger = 2 ^ 53 - 1 := rfl
  have hpart : multipartPartSizeBytes = 2 ^ 23 := rfl
  rw [hpart] at h
  by_contra hn
  have hmul := Nat.mul_le_mul_right (2 ^ 23) (Nat.le_of_not_lt hn)
  have hle : file.content.length + 2 ^ 23 ≤ 10 ^ 10 * 2 ^ 23 := by
    rw [hmax] at hsafe
    calc file.content.length + 2 ^ 23 ≤ (2 ^ 53 - 1) + 2 ^ 23 := Nat.add_le_add_right hsafe _
      _ ≤ 10 ^ 10 * 2 ^ 23 := by decide
  omega

/-- The ids of one upload have one length, and no two of them are the same. -/
theorem AzureUtil.blockIds_distinct {file : DataFile} {events : AzureEvents}
    {completeError : Option SdkError} {run : MultipartRun String String}
    {status : Option ResultStatus}
    (h : Assembles file blockId (receipt events) completeError run status) :
    (∀ blockId ∈ run.sent.map Prod.fst, blockId.length = 16) ∧
      (run.sent.map Prod.fst).Nodup := by
  have hlt := parts_lt file h.few
  rw [h.ids]
  constructor
  · intro id hid
    obtain ⟨n, hn, rfl⟩ := List.mem_map.mp hid
    refine length_blockId ?_
    have hrange := (List.mem_range'_1.mp hn).2
    omega
  · exact List.Nodup.map blockId_injective List.nodup_range'

end FileTransferAgent

end SnowflakeConnector
