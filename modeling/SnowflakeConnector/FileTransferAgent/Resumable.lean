import SnowflakeConnector.While
import SnowflakeConnector.FileTransferAgent.Multipart

/-!
# SnowflakeConnector.FileTransferAgent.Resumable

`uploadFileResumable` of `gcs_util.js`: a large file goes to a session of the service in
chunks, and each answer says up to which byte the service has kept what it received; the next
chunk starts there, wherever that is.

The session is at the other end: it has received some bytes and committed a prefix of them,
and it may commit less than it has received or than it had committed before.

* `Stands.turn` -- the position of the loop is where the committed bytes end.
* `resumable_stores` -- what the chunks carry, and what is stored when the file is uploaded.
-/

namespace SnowflakeConnector

namespace FileTransferAgent

open While (Turn loop EndsWith Reaches)

/-! ## ranges -/

/-- `/^bytes=(\d+)-(\d+)$/`, and the two numbers. -/
def parseRange (text : String) : Option (Nat × Nat) :=
  match text.toList with
  | 'b' :: 'y' :: 't' :: 'e' :: 's' :: '=' :: cs =>
      match cs.dropWhile Char.isDigit with
      | '-' :: last =>
          if cs.takeWhile Char.isDigit ≠ [] ∧ last ≠ [] ∧ last.all Char.isDigit = true then
            some (Nat.ofDigitChars 10 (cs.takeWhile Char.isDigit) 0, Nat.ofDigitChars 10 last 0)
          else none
      | _ => none
  | _ => none

/-- `bytes=0-` and the number of the last byte. -/
def committedRange (last : Nat) : String :=
  String.ofList (['b', 'y', 't', 'e', 's', '=', '0', '-'] ++ Nat.toDigits 10 last)

/-- The header of a chunk: its first and its last byte, and the size of the file. -/
def contentRange (start last size : Nat) : String :=
  "bytes " ++ toString start ++ "-" ++ toString last ++ "/" ++ toString size

theorem parseRange_committedRange (last : Nat) :
    parseRange (committedRange last) = some (0, last) := by
  have hdigits : (Nat.toDigits 10 last).all Char.isDigit = true :=
    List.all_eq_true.mpr fun c hc => Nat.isDigit_of_mem_toDigits (by decide) (by decide) hc
  have hne : Nat.toDigits 10 last ≠ [] := Nat.toDigits_ne_nil
  have hvalue : Nat.ofDigitChars 10 (Nat.toDigits 10 last) 0 = last :=
    Nat.ofDigitChars_ten_toDigits
  have hzero : ('0' :: '-' :: Nat.toDigits 10 last).takeWhile Char.isDigit = ['0'] := rfl
  have hrest : ('0' :: '-' :: Nat.toDigits 10 last).dropWhile Char.isDigit =
      '-' :: Nat.toDigits 10 last := rfl
  have hcond : ['0'] ≠ [] ∧ Nat.toDigits 10 last ≠ [] ∧
      (Nat.toDigits 10 last).all Char.isDigit = true := ⟨by decide, hne, hdigits⟩
  rw [parseRange, committedRange, String.toList_ofList]
  simp only [List.cons_append, List.nil_append, hzero, hrest, if_pos hcond, hvalue]
  rfl

/-! ## the session -/

/-- What a session has received of a file, and how many bytes of it are committed. -/
structure Session where
  received : List UInt8
  committed : Nat
  deriving DecidableEq, Repr

/-- A chunk is laid over what was received before; one that leaves a gap is not kept. -/
def Session.receive (session : Session) (start : Nat) (chunk : List UInt8) : List UInt8 :=
  if start ≤ session.received.length then
    session.received.take start ++ chunk ++ session.received.drop (start + chunk.length)
  else session.received

/-- What a session may answer when it has received some bytes of a file: that it goes on after
a committed prefix, the same without a header that can be read, that the file is stored once
all of it is there, or an error. -/
inductive SessionAnswer (size received : Nat)
  | resume (last : Nat) (h : last < received)
  | resumeWithout (range : Option String) (unusable : range.bind parseRange = none)
      (committed : Nat) (h : committed ≤ received)
  | success (h : received = size)
  | fails (err : SdkError) (committed : Nat) (h : committed ≤ received)

namespace SessionAnswer

variable {size received : Nat}

/-- The bytes that are committed with the answer. -/
def committed : SessionAnswer size received → Nat
  | .resume last _ => last + 1
  | .resumeWithout _ _ committed _ => committed
  | .success _ => received
  | .fails _ committed _ => committed

theorem committed_le (answer : SessionAnswer size received) : answer.committed ≤ received := by
  cases answer with
  | resume last h => exact h
  | resumeWithout range unusable committed h => exact h
  | success h => exact Nat.le_refl received
  | fails err committed h => exact h

end SessionAnswer

/-- A response to a chunk: a 308 with its range header, a 200 or a 201, or an error. -/
inductive ChunkResponse
  | resumeIncomplete (range : Option String)
  | success
  | fails (err : SdkError)
  deriving DecidableEq

def SessionAnswer.response {size received : Nat} : SessionAnswer size received → ChunkResponse
  | .resume last _ => .resumeIncomplete (some (committedRange last))
  | .resumeWithout range _ _ _ => .resumeIncomplete range
  | .success _ => .success
  | .fails err _ _ => .fails err

/-! ## the upload -/

/-- What reads and requests come to; the answers depend on what the session has received. -/
structure ResumableEvents (size : Nat) where
  initiate : Except SdkError (Option String)
  openError : Option SdkError
  read : Nat → ReadReply
  answer : (turn received : Nat) → SessionAnswer size received
  closeError : Option SdkError

/-- The request that sends a chunk. -/
structure ChunkRequest where
  contentLength : Nat
  contentRange : String
  body : List UInt8
  deriving DecidableEq, Repr

/-- Where the loop stands, with the session and the chunks that were sent, each with the
session as it was then. -/
structure ResumeState where
  position : Nat := 0
  turn : Nat := 0
  session : Session := ⟨[], 0⟩
  chunks : List (Session × ChunkRequest) := []
  deriving DecidableEq, Repr

def noRangeError (range : Option String) : SdkError :=
  plainError ("GCS resumable 308 returned no usable Range header (got \"" ++
    range.getD "undefined" ++ "\"); cannot safely resume")

variable {file : DataFile} {events : ResumableEvents file.size}

/-- The chunk that is sent from a position. -/
def chunkRequest (file : DataFile) (position : Nat) (buf : List UInt8) : ChunkRequest :=
  let thisChunkSize := min multipartPartSizeBytes (file.size - position)
  { contentLength := buf.length
    contentRange := contentRange position (position + thisChunkSize - 1) file.size
    body := buf }

/-- What the session makes of a chunk. -/
def ResumeState.send (s : ResumeState) (file : DataFile) (events : ResumableEvents file.size)
    (buf : List UInt8) : ResumeState × ChunkResponse :=
  let received := s.session.receive s.position buf
  let answer := events.answer s.turn received.length
  ({ s with
      turn := s.turn + 1
      session := ⟨received, answer.committed⟩
      chunks := s.chunks ++ [(s.session, chunkRequest file s.position buf)] },
    answer.response)

/-- One turn of the loop over the file. -/
def resumeTurn (file : DataFile) (events : ResumableEvents file.size) (s : ResumeState) :
    Turn ResumeState (Except SdkError Unit × ResumeState) :=
  if s.position < file.size then
    let thisChunkSize := min multipartPartSizeBytes (file.size - s.position)
    match readChunk file s.position thisChunkSize (events.read s.turn) with
    | .error err => .done (.error err, s)
    | .ok buf =>
        let (s, response) := s.send file events buf
        match response with
        | .fails err => .done (.error err, s)
        | .resumeIncomplete range =>
            match range.bind parseRange with
            | none => .done (.error (noRangeError range), s)
            | some (_, last) => .next { s with position := last + 1 }
        | .success => .next { s with position := file.size }
  else .done (.ok (), s)

/-- The requests of an upload. -/
inductive ResumableRequest
  | post (uploadContentLength : Nat) (headers : Metadata)
  | put (chunk : ChunkRequest)
  | delete
  deriving DecidableEq

/-- How an upload ends: how it leaves the meta, its requests, and where the loop stood. -/
structure ResumableRun where
  outcome : TransferOutcome
  requests : List ResumableRequest
  state : ResumeState

/-- `uploadFileResumable`, with as many chunks as it is given; `none` when it is still
sending.  Once there is a session, an error deletes it. -/
def GCSUtil.uploadFileResumable (dataFile : DataFile) (events : ResumableEvents dataFile.size)
    (digest : String) (encryptionMetadata : Option EncryptionMetadata) (file : Meta) (fuel : Nat) :
    Option ResumableRun :=
  let post := ResumableRequest.post dataFile.size
    (buildGcsEncryptionHeaders digest encryptionMetadata)
  let sent (s : ResumeState) : List ResumableRequest := post :: s.chunks.map fun p => .put p.2
  let failed (err : SdkError) (s : ResumeState) : ResumableRun :=
    ⟨applyGcsUploadError file err true, sent s ++ [.delete], s⟩
  match events.initiate with
  | .error err => some ⟨applyGcsUploadError file err true, [post], {}⟩
  | .ok none | .ok (some "") =>
      some ⟨applyGcsUploadError file
        (plainError "GCS resumable initiate succeeded without a Location header") true,
        [post], {}⟩
  | .ok (some _) =>
      match events.openError with
      | some err => some (failed err {})
      | none =>
          (loop (resumeTurn dataFile events) fuel {}).map fun (result, s) =>
            match events.closeError, result with
            | some err, _ => failed err s
            | none, .error err => failed err s
            | none, .ok () => ⟨.done none, sent s, s⟩

/-! ## what the chunks carry -/

/-- A chunk starts at the first byte that is not committed, and its header says which bytes of
the file it carries. -/
structure Describes (file : DataFile) (session : Session) (chunk : ChunkRequest) : Prop where
  nonempty : chunk.body ≠ []
  contentLength : chunk.contentLength = chunk.body.length
  contentRange : chunk.contentRange = contentRange session.committed
    (session.committed + chunk.body.length - 1) file.size
  body : chunk.body = (file.content.drop session.committed).take chunk.body.length

/-- The session has received a part of the file from its start, and has been sent nothing but
chunks that say what they carry. -/
structure Sends (file : DataFile) (s : ResumeState) : Prop where
  received : s.session.received <+: file.content
  committed : s.session.committed ≤ s.session.received.length
  chunks : ∀ p ∈ s.chunks, Describes file p.1 p.2

/-- The loop stands where the committed bytes end. -/
structure Stands (file : DataFile) (s : ResumeState) : Prop extends Sends file s where
  position : s.position = s.session.committed

theorem Stands.start (file : DataFile) : Stands file {} where
  received := List.nil_prefix
  committed := Nat.le_refl 0
  chunks := by simp
  position := rfl

/-- Two parts from the start of some bytes agree as far as the shorter one goes. -/
theorem take_eq_of_prefix {received content : List UInt8} (h : received <+: content) {n : Nat}
    (hn : n ≤ received.length) : received.take n = content.take n := by
  obtain ⟨rest, rfl⟩ := h
  rw [List.take_append_of_le_length hn]

/-- Bytes of the file over a part of it are a part of it. -/
theorem Session.receive_prefix {session : Session} {content : List UInt8} {start n : Nat}
    (hreceived : session.received <+: content) (hstart : start ≤ session.received.length) :
    session.receive start ((content.drop start).take n) <+: content := by
  have hfront : content.take start ++ (content.drop start).take n = content.take (start + n) :=
    List.take_add.symm
  have hle := hreceived.length_le
  rw [Session.receive, if_pos hstart, take_eq_of_prefix hreceived hstart, hfront]
  rcases Nat.le_total session.received.length
      (start + ((content.drop start).take n).length) with hshort | hlong
  · -- nothing is left of what was received before
    rw [List.drop_eq_nil_iff.mpr hshort, List.append_nil]
    exact List.take_prefix _ _
  · have hlength : ((content.drop start).take n).length = min n (content.length - start) := by
      rw [List.length_take, List.length_drop]
    by_cases hn : start + n ≤ session.received.length
    · have hwhole : ((content.drop start).take n).length = n := by omega
      rw [hwhole, ← take_eq_of_prefix hreceived hn, List.take_append_drop]
      exact hreceived
    · have hend : session.received.length ≤ start + ((content.drop start).take n).length := by
        omega
      rw [List.drop_eq_nil_iff.mpr hend, List.append_nil]
      exact List.take_prefix _ _

variable {s s' : ResumeState} {buf : List UInt8} {response : ChunkResponse}

/-- The chunk that is read where the loop stands. -/
theorem Stands.describes (h : Stands file s) (hposition : s.position < file.size)
    (hread : readChunk file s.position (min multipartPartSizeBytes (file.size - s.position))
      (events.read s.turn) = .ok buf) :
    Describes file s.session (chunkRequest file s.position buf) := by
  obtain rfl := readChunk_ok hread
  have hsize : ((file.content.drop s.position).take
      (min multipartPartSizeBytes (file.size - s.position))).length =
      min multipartPartSizeBytes (file.size - s.position) := by
    rw [List.length_take, List.length_drop, ← DataFile.size]
    omega
  have hpart := multipartPartSizeBytes_pos
  constructor
  · exact List.ne_nil_of_length_pos (by rw [chunkRequest, hsize]; omega)
  · rfl
  · simp only [chunkRequest, hsize, ← h.position]
  · simp only [chunkRequest, hsize, ← h.position]

/-- Whatever is answered, the session has received a part of the file. -/
theorem Stands.send (h : Stands file s) (hposition : s.position < file.size)
    (hread : readChunk file s.position (min multipartPartSizeBytes (file.size - s.position))
      (events.read s.turn) = .ok buf) : Sends file (s.send file events buf).1 where
  received := by
    obtain rfl := readChunk_ok hread
    have hstart : s.position ≤ s.session.received.length := by
      rw [h.position]
      exact h.committed
    exact Session.receive_prefix h.received hstart
  committed := SessionAnswer.committed_le _
  chunks := by
    intro p hp
    rcases List.mem_append.mp hp with hp | hp
    · exact h.chunks p hp
    · obtain rfl := List.mem_singleton.mp hp
      exact h.describes hposition hread

/-- What the response says of the bytes that are committed. -/
theorem send_response (s : ResumeState) (events : ResumableEvents file.size) (buf : List UInt8) :
    match (s.send file events buf).2 with
    | .fails _ => True
    | .resumeIncomplete range =>
        ∀ first last, range.bind parseRange = some (first, last) →
          (s.send file events buf).1.session.committed = last + 1
    | .success => (s.send file events buf).1.session.committed = file.size := by
  simp only [ResumeState.send]
  cases events.answer s.turn (s.session.receive s.position buf).length with
  | resume last h =>
      intro first last' hrange
      rw [Option.bind_some, parseRange_committedRange] at hrange
      obtain ⟨_, rfl⟩ := Prod.mk.inj (Option.some.inj hrange)
      rfl
  | resumeWithout range unusable committed h =>
      intro first last hrange
      rw [unusable] at hrange
      contradiction
  | success h => exact h
  | fails err committed h => trivial

/-- One turn: the loop goes on where the committed bytes end, and it ends well only when these
are the file. -/
theorem Stands.turn (h : Stands file s) (events : ResumableEvents file.size) :
    match resumeTurn file events s with
    | .next s' => Stands file s'
    | .done (result, s') =>
        Sends file s' ∧
          (result = .ok () → s'.session.received.take s'.session.committed = file.content) := by
  unfold resumeTurn
  by_cases hposition : s.position < file.size
  · rw [if_pos hposition]
    cases hread : readChunk file s.position (min multipartPartSizeBytes (file.size - s.position))
        (events.read s.turn) with
    | error err =>
        simp only [hread]
        exact ⟨h.toSends, fun h => by contradiction⟩
    | ok buf =>
        have hsends := h.send hposition hread
        have hresponse := send_response s events buf
        cases hanswer : (s.send file events buf).2 with
        | fails err =>
            simp only [hread, hanswer]
            exact ⟨hsends, fun h => by contradiction⟩
        | success =>
            rw [hanswer] at hresponse
            simp only [hread, hanswer]
            exact ⟨⟨hsends.received, hsends.committed, hsends.chunks⟩, hresponse.symm⟩
        | resumeIncomplete range =>
            rw [hanswer] at hresponse
            simp only [hread, hanswer]
            cases hrange : range.bind parseRange with
            | none =>
                simp only
                exact ⟨hsends, fun h => by contradiction⟩
            | some r =>
                obtain ⟨first, last⟩ := r
                simp only
                have hcommitted := hresponse first last hrange
                exact ⟨⟨hsends.received, hsends.committed, hsends.chunks⟩, hcommitted.symm⟩
  · rw [if_neg hposition]
    refine ⟨h.toSends, fun _ => ?_⟩
    -- the position has come to the end of the file, and so have the committed bytes
    have hcommitted := h.committed
    have hle := h.received.length_le
    have hend : file.size ≤ s.session.committed := by
      rw [← h.position]
      exact Nat.le_of_not_lt hposition
    rw [DataFile.size] at hend
    rw [List.take_of_length_le (by omega)]
    exact h.received.eq_of_length_le (by omega)

/-- Wherever the loop gets to, it stands where the committed bytes end. -/
theorem stands_of_reaches (h : Reaches (resumeTurn file events) {} s) : Stands file s := by
  induction h with
  | refl => exact .start file
  | tail _ hstep ih =>
      have hturn := ih.turn events
      rw [hstep] at hturn
      exact hturn

/-- How the loop ends. -/
theorem sends_of_endsWith {result : Except SdkError Unit}
    (h : EndsWith (resumeTurn file events) {} (result, s)) :
    Sends file s ∧
      (result = .ok () → s.session.received.take s.session.committed = file.content) := by
  obtain ⟨s', hreaches, hdone⟩ := h.exists_last
  have hturn := (stands_of_reaches hreaches).turn events
  rw [hdone] at hturn
  exact hturn

/-- An error of GCS leaves no upload. -/
theorem statusAfter_applyGcsUploadError (body : Body)
    (encryptionMetadata : Option EncryptionMetadata) (file file' : Meta) (err : SdkError)
    (hasAccessToken : Bool) :
    statusAfter body encryptionMetadata
      (GCSUtil.applyGcsUploadError file err hasAccessToken) file' ≠ some .uploaded := by
  unfold GCSUtil.applyGcsUploadError
  split_ifs <;> simp [statusAfter, uploadFile, carryOut]

/-- Every chunk that the loop sends says which bytes it carries and starts at the first byte
that is not committed, and the file is uploaded only when the committed bytes are the file. -/
theorem resumable_stores (dataFile : DataFile) (events : ResumableEvents dataFile.size)
    (digest : String) (encryptionMetadata : Option EncryptionMetadata) (body : Body)
    (file : Meta) :
    (∀ s, Reaches (resumeTurn dataFile events) {} s →
      ∀ p ∈ s.chunks, Describes dataFile p.1 p.2) ∧
    ∀ fuel run,
      GCSUtil.uploadFileResumable dataFile events digest encryptionMetadata file fuel = some run →
      (∀ p ∈ run.state.chunks, Describes dataFile p.1 p.2) ∧
      (statusAfter body encryptionMetadata run.outcome file = some .uploaded →
        run.state.session.received.take run.state.session.committed = dataFile.content) := by
  refine ⟨fun s h => (stands_of_reaches h).chunks, fun fuel run hrun => ?_⟩
  have hfailed : ∀ err requests s, Sends dataFile s →
      (∀ p ∈ (ResumableRun.mk (GCSUtil.applyGcsUploadError file err true) requests s).state.chunks,
        Describes dataFile p.1 p.2) ∧
      (statusAfter body encryptionMetadata (GCSUtil.applyGcsUploadError file err true) file =
          some .uploaded →
        s.session.received.take s.session.committed = dataFile.content) := fun err _ s hs =>
    ⟨hs.chunks, fun h => absurd h (statusAfter_applyGcsUploadError body _ file file err true)⟩
  have hstart := (Stands.start dataFile).toSends
  unfold GCSUtil.uploadFileResumable at hrun
  split at hrun
  · obtain rfl := Option.some.inj hrun
    exact hfailed _ _ _ hstart
  · obtain rfl := Option.some.inj hrun
    exact hfailed _ _ _ hstart
  · obtain rfl := Option.some.inj hrun
    exact hfailed _ _ _ hstart
  · -- there is a session
    cases hopen : events.openError with
    | some err =>
        simp only [hopen] at hrun
        obtain rfl := Option.some.inj hrun
        exact hfailed _ _ _ hstart
    | none =>
        simp only [hopen, Option.map_eq_some_iff] at hrun
        obtain ⟨⟨result, s⟩, hloop, hrun⟩ := hrun
        obtain ⟨hsends, hstored⟩ := sends_of_endsWith ⟨fuel, hloop⟩
        cases hclose : events.closeError with
        | some err =>
            simp only [hclose] at hrun
            rw [← hrun]
            exact hfailed _ _ _ hsends
        | none =>
            simp only [hclose] at hrun
            cases result with
            | error err =>
                rw [← hrun]
                exact hfailed _ _ _ hsends
            | ok u =>
                rw [← hrun]
                exact ⟨hsends.chunks, fun _ => hstored rfl⟩

end FileTransferAgent

end SnowflakeConnector
