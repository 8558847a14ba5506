import SnowflakeConnector.Lts
import SnowflakeConnector.Ocsp

/-!
# SnowflakeConnector.Ocsp.SocketUtil

`lib/agent/ocsp_response_cache.js`, `check.js` and `socket_util.js`: certificates are validated
with responses from a shared cache, which is read from a file and downloaded from the cache
server, or else with the replies of their responders.

Validations run side by side.  A callback is a step of its own, so there are more orders here
than in the code; every step reads the clock once.

* `accepted_named_iff` -- when no certificate is accepted on a response about another one.
-/

namespace SnowflakeConnector

namespace Ocsp

/-! ## `ocsp_response_cache.js` -/

inductive DownloadStatus
  | notStart
  | started
  | finished
  deriving DecidableEq, Repr

/-- An LRU cache of another package. -/
structure SimpleCache (σ : Type) where
  new : Nat → σ
  get : σ → Option String → Option Buffer × σ
  set : σ → Option String → Buffer → σ

/-- The value of an entry of a cache file: how many elements it has, when it was written, and
what the bytes of the second element are. -/
structure CacheValue where
  length : Nat
  cacheEntryWriteTime : Option Int
  ocspResponse : Except String Buffer

/-- A cache file after `JSON.parse`; a value may have no elements to be read. -/
abbrev CacheFile := List (String × Option CacheValue)

structure OcspResponseCache (σ : Type) where
  downloadStatus : DownloadStatus
  cacheUpdated : Bool
  cacheInitialized : Bool
  cacheUpdateTime : Int
  cache : Option σ

inductive OcspMode
  | failClosed
  | failOpen
  | insecure
  deriving DecidableEq, Repr

/-- The surroundings of the agent. -/
structure Agent (σ : Type) extends Surroundings where
  lru : SimpleCache σ
  maxAge : Int
  sizeLimit : Nat
  cacheServerEnabled : Bool
  ocspMode : OcspMode
  contactCacheServer : Except String Unit
  generate : Decoded → Except String Unit
  getAuthorityInfo : Certificate → Except String String

variable {σ : Type} (env : Agent σ)

/-- The key and the response of an entry; its signature is not looked at. -/
def validateCacheEntry (now : Int) (certIdBase64 : String) (value : CacheValue) :
    Except OcspError (String × Buffer) :=
  let expired := value.cacheEntryWriteTime.any fun written => env.maxAge < now - written
  match encodeKey env.toSurroundings certIdBase64 with
  | .error _ => .error .failedParseResponse
  | .ok k =>
      if expired = true then .error .cacheExpired
      else if value.length ≠ 2 then .error .notTwoElements
      else
        match value.ocspResponse with
        | .error _ => .error .failedParseResponse
        | .ok rawOCSPResponse =>
            match verifyOCSPResponse env.toSurroundings now none rawOCSPResponse with
            | .error err => .error err
            | .ok () => .ok (k, rawOCSPResponse)

/-- `validateAndSetEntry` for every entry: the store, the time of the oldest entry, and whether
all of them could be read. -/
def setCacheEntries (now : Int) : CacheFile → σ → Int → σ × Int × Bool
  | [], cache, cacheUpdateTime => (cache, cacheUpdateTime, true)
  | (_, none) :: _, cache, cacheUpdateTime => (cache, cacheUpdateTime, false)
  | (entry, some value) :: rest, cache, cacheUpdateTime =>
      match validateCacheEntry env now entry value with
      | .error _ => setCacheEntries now rest cache cacheUpdateTime
      | .ok (key, response) =>
          let newUpdateTime := value.cacheEntryWriteTime.getD cacheUpdateTime
          setCacheEntries now rest (env.lru.set cache (some key) response)
            (if newUpdateTime < cacheUpdateTime ∧ newUpdateTime ≠ 0 then newUpdateTime
              else cacheUpdateTime)

/-- A file that cannot be read to its end leaves the times as they are. -/
def updateCache (now : Int) (file : CacheFile) (c : OcspResponseCache σ) :
    OcspResponseCache σ × Bool :=
  match setCacheEntries env now file (env.lru.new (min file.length env.sizeLimit)) now with
  | (cache, cacheUpdateTime, true) =>
      ({ c with cache := some cache, cacheUpdateTime, cacheInitialized := true }, true)
  | (cache, _, false) => ({ c with cache := some cache }, false)

/-- The cache of a process that starts with a cache file, or with none that can be parsed. -/
def OcspResponseCache.construct (now : Int) (file : Option CacheFile) : OcspResponseCache σ :=
  let c : OcspResponseCache σ :=
    { downloadStatus := .notStart
      cacheUpdated := false
      cacheInitialized := false
      cacheUpdateTime := now
      cache := none }
  match file with
  | none => c
  | some file => (updateCache env now file c).1

def isCacheExpired (now : Int) (c : OcspResponseCache σ) : Bool :=
  c.cacheInitialized && decide (env.maxAge < now - c.cacheUpdateTime)

/-- What is written to the file is left out. -/
def resetCacheStatus (c : OcspResponseCache σ) : OcspResponseCache σ :=
  { c with downloadStatus := .notStart, cacheUpdated := false }

/-- Nothing is added while there is no store, or under no key to be had. -/
def OcspResponseCache.set (cert : PeerCertificate) (response : Buffer) (c : OcspResponseCache σ) :
    OcspResponseCache σ :=
  match c.cache with
  | none => c
  | some cache =>
      { c with
        cache := some (env.lru.set cache (buildCertId env.toSurroundings cert) response)
        cacheUpdated := true }

def initCache (cert : PeerCertificate) (response : Buffer) (c : OcspResponseCache σ) :
    OcspResponseCache σ :=
  OcspResponseCache.set env cert response { c with cache := some (env.lru.new 1) }

/-- The response under the key of a certificate. -/
def OcspResponseCache.get (cert : PeerCertificate) (c : OcspResponseCache σ) :
    Option Buffer × OcspResponseCache σ :=
  match c.cache with
  | none => (none, c)
  | some cache =>
      let (response, cache') := env.lru.get cache (buildCertId env.toSurroundings cert)
      (response, { c with cache := some cache' })

/-! ## `check.js` -/

def isRetryableHttpError (statusCode : Int) : Bool :=
  (decide (500 ≤ statusCode) && decide (statusCode < 600)) || statusCode == 404 ||
    statusCode == 403 || statusCode == 408

/-- `parseInt` of the last word of a message, for the errors of other packages. -/
def lastNumber (message : String) : Option Int :=
  let word := ((message.splitOn " ").getLastD "").toList
  let word := if word.head? = some '+' then word.tail else word
  match word.takeWhile Char.isDigit with
  | [] => none
  | digits => some (Int.ofNat (Nat.ofDigits 10 (digits.reverse.map fun c => c.toNat - 48)))

/-- Timeouts, and errors that end with the number of a status that may be tried again. -/
def isRetryable : OcspError → Bool
  | .responderTimeout => true
  | .failedObtainOcspResponse statusCode => isRetryableHttpError statusCode
  | .thrown message => (lastNumber message).any isRetryableHttpError
  | _ => false

def maxNumRetries : Nat := if env.ocspMode = .failClosed then 2 else 1

/-! ## `socket_util.js` -/

/-- Where a validation is.  An accepted certificate comes with the response that it was
accepted on, and when; there is none where none was asked for. -/
inductive Phase
  | calling (useCacheServer : Bool)
  | caching
  | downloading
  | requesting (decoded : Decoded) (numRetries : Nat)
  | accepted (response : Option Buffer) (now : Int)
  | rejected (err : OcspError)
  deriving DecidableEq, Repr

structure Validation where
  cert : PeerCertificate
  phase : Phase
  deriving DecidableEq, Repr

structure World (σ : Type) where
  cache : OcspResponseCache σ
  validations : List Validation

/-- A response of the cache server comes with the content that there is when its status is
right, parsed where it can be. -/
inductive ServerReply
  | error (err : OcspError)
  | response (statusCode : Int) (file : Option CacheFile)

inductive Event
  | start (cert : PeerCertificate)
  | call (i : Nat) (now : Int)
  | serverReplies (i : Nat) (now : Int) (reply : ServerReply)
  | responderReplies (i : Nat) (now : Int) (reply : Except OcspError Buffer)
  | reset

/-- The response that `getOcspResonseAndVerify` finds in the cache. -/
def lookUp (now : Int) (cert : PeerCertificate) (c : OcspResponseCache σ) :
    Option Buffer × OcspResponseCache σ :=
  if c.cacheInitialized = true then
    if isCacheExpired env now c = true then (none, resetCacheStatus c) else c.get env cert
  else (none, c)

/-- `Check`, up to the first request. -/
def check (now : Int) (decoded : Decoded) : Phase :=
  match env.generate decoded with
  | .error message => .rejected (.thrown message)
  | .ok () =>
      match env.getAuthorityInfo decoded.cert with
      | .error message =>
          if message = "AuthorityInfoAccess not found in extensions" ∧ env.ocspMode ≠ .failClosed
          then .accepted none now
          else .rejected (.thrown message)
      | .ok _ => .requesting decoded 1

/-- What a validation makes of a response. -/
def verified (now : Int) (decoded : Decoded) (response : Buffer) : Phase :=
  match verifyOCSPResponse env.toSurroundings now (some decoded.issuer) response with
  | .error err => .rejected err
  | .ok () => .accepted (some response) now

/-- Waiting for a download that is going on ends the call; a certificate that cannot be decoded
is rejected, and stays so in the calls that follow. -/
def getOcspResonseAndVerify (now : Int) (cert : PeerCertificate) (useCacheServer : Bool)
    (c : OcspResponseCache σ) : Phase × OcspResponseCache σ :=
  if useCacheServer = false ∧ c.downloadStatus ≠ .finished then (.calling false, c)
  else
    match decode env.toSurroundings cert with
    | .error message => (.rejected (.thrown message), c)
    | .ok decoded =>
        match lookUp env now cert c with
        | (some response, c') => (verified env now decoded response, c')
        | (none, c') =>
            if useCacheServer = true then (.caching, c') else (check env now decoded, c')

/-- `downloadCache`, up to the reply of the server. -/
def getOcspCache (c : OcspResponseCache σ) : Phase × OcspResponseCache σ :=
  match c.downloadStatus with
  | .started => (.caching, c)
  | .finished => (.calling false, c)
  | .notStart =>
      let c' := { c with downloadStatus := .started }
      match env.contactCacheServer with
      | .error message => (.rejected (.thrown message), c')
      | .ok () => (.downloading, c')

/-- `checkOCSPResponse` and the handlers of errors and timeouts.  Whatever comes, the callback
goes on without the server, but a response after another download calls no one. -/
def serverReplied (now : Int) (reply : ServerReply) (c : OcspResponseCache σ) :
    Phase × OcspResponseCache σ :=
  let finished := { c with downloadStatus := .finished }
  match reply with
  | .error _ => (.calling false, finished)
  | .response statusCode file =>
      if c.downloadStatus = .finished then (.downloading, c)
      else if statusCode < 200 ∨ 400 ≤ statusCode then (.calling false, finished)
      else
        match file with
        | none => (.calling false, finished)
        | some file =>
            let (c', complete) := updateCache env now file finished
            (.calling false, if complete = true then { c' with cacheUpdated := true } else c')

/-- `ocspResponseVerify` in `check.js`. -/
def responderReplied (now : Int) (decoded : Decoded) (numRetries : Nat) :
    Except OcspError Buffer → Phase
  | .error err =>
      if numRetries < maxNumRetries env ∧ isRetryable err = true then
        .requesting decoded (numRetries + 1)
      else .rejected err
  | .ok response => verified env now decoded response

/-- The callback of `validateCertChain` keeps the response of a responder unless it is of no
use, whatever it is about. -/
def keepResponse (now : Int) (cert : PeerCertificate) (decoded : Decoded)
    (reply : Except OcspError Buffer) (c : OcspResponseCache σ) : OcspResponseCache σ :=
  match reply with
  | .error _ => c
  | .ok response =>
      match verifyOCSPResponse env.toSurroundings now (some decoded.issuer) response with
      | .ok () | .error .revoked | .error .unknown =>
          if c.cacheInitialized = true then c.set env cert response
          else initCache env cert response c
      | .error _ => c

def World.put (w : World σ) (i : Nat) (v : Validation) (result : Phase × OcspResponseCache σ) :
    World σ where
  cache := result.2
  validations := w.validations.set i { v with phase := result.1 }

def step (w : World σ) : Event → Option (World σ)
  | .start cert =>
      some
        { cache :=
            if env.cacheServerEnabled = true then w.cache
            else { w.cache with downloadStatus := .finished }
          validations := w.validations ++ [⟨cert, .calling env.cacheServerEnabled⟩] }
  | .call i now =>
      w.validations[i]?.bind fun v =>
        match v.phase with
        | .calling useCacheServer =>
            some (w.put i v (getOcspResonseAndVerify env now v.cert useCacheServer w.cache))
        | .caching => some (w.put i v (getOcspCache env w.cache))
        | _ => none
  | .serverReplies i now reply =>
      w.validations[i]?.bind fun v =>
        match v.phase with
        | .downloading => some (w.put i v (serverReplied env now reply w.cache))
        | _ => none
  | .responderReplies i now reply =>
      w.validations[i]?.bind fun v =>
        match v.phase with
        | .requesting decoded numRetries =>
            some (w.put i v (responderReplied env now decoded numRetries reply,
              keepResponse env now v.cert decoded reply w.cache))
        | _ => none
  | .reset => some { w with cache := resetCacheStatus w.cache }

/-- A process before its first validation. -/
def initial (now : Int) (file : Option CacheFile) : World σ where
  cache := OcspResponseCache.construct env now file
  validations := []

/-! ## acceptances -/

/-- A certificate is accepted on no response but one that speaks well of it. -/
def Validation.Sound (v : Validation) : Prop :=
  ∀ response now, v.phase = .accepted (some response) now →
    ∃ decoded, decode env.toSurroundings v.cert = .ok decoded ∧
      Justifies env.toSurroundings now decoded response

def World.Sound (w : World σ) : Prop :=
  ∀ (i : Nat) (v : Validation), w.validations[i]? = some v → v.Sound env

/-- A response that a step looks at, and for which certificate. -/
structure Consultation where
  cert : PeerCertificate
  response : Buffer
  now : Int
  deriving DecidableEq, Repr

/-- The response that a call finds in the cache under the key of its certificate. -/
def consultedByCall (now : Int) (cert : PeerCertificate) (useCacheServer : Bool)
    (c : OcspResponseCache σ) : Option Consultation :=
  if useCacheServer = false ∧ c.downloadStatus ≠ .finished then none
  else (lookUp env now cert c).1.map fun response => ⟨cert, response, now⟩

/-- The response of a call, or that of a responder. -/
def consulted (w : World σ) : Event → Option Consultation
  | .call i now =>
      w.validations[i]?.bind fun v =>
        match v.phase with
        | .calling useCacheServer => consultedByCall env now v.cert useCacheServer w.cache
        | _ => none
  | .responderReplies i now (.ok response) =>
      w.validations[i]?.bind fun v =>
        match v.phase with
        | .requesting _ _ => some ⟨v.cert, response, now⟩
        | _ => none
  | _ => none

/-- A response that vouches for some certificate of the issuer is about this one. -/
def Consultation.Fits (c : Consultation) : Prop :=
  ∀ decoded, decode env.toSurroundings c.cert = .ok decoded →
    Vouches env.toSurroundings c.now decoded.issuer c.response →
      Justifies env.toSurroundings c.now decoded c.response

def Fitting (w : World σ) (e : Event) : Prop := ∀ c, consulted env w e = some c → c.Fits env

/-- A request is about the certificate of its validation. -/
def World.Requests (w : World σ) : Prop :=
  ∀ (i : Nat) cert decoded numRetries,
    w.validations[i]? = some ⟨cert, .requesting decoded numRetries⟩ →
      decode env.toSurroundings cert = .ok decoded

/-- A phase in which nothing has been accepted. -/
theorem Validation.sound_of_ne {v : Validation}
    (h : ∀ response now, v.phase ≠ .accepted (some response) now) : v.Sound env := by
  intro response now hphase
  exact absurd hphase (h response now)

/-- Where a response is verified, it is accepted soundly when it fits. -/
theorem sound_verified {now : Int} {cert : PeerCertificate} {decoded : Decoded}
    {response : Buffer} (hdecode : decode env.toSurroundings cert = .ok decoded) :
    (Validation.mk cert (verified env now decoded response)).Sound env ↔
      (Consultation.mk cert response now).Fits env := by
  unfold verified
  constructor
  · intro h decoded' hdecode' hvouches
    obtain rfl := Except.ok.inj (hdecode.symm.trans hdecode')
    rw [verifyOCSPResponse_eq_ok_iff.mpr hvouches] at h
    obtain ⟨decoded', hdecode', hjustifies⟩ := h response now rfl
    obtain rfl := Except.ok.inj (hdecode.symm.trans hdecode')
    exact hjustifies
  · intro h response' now' hphase
    cases hverify : verifyOCSPResponse env.toSurroundings now (some decoded.issuer) response with
    | error err => simp [hverify] at hphase
    | ok u =>
        simp only [hverify, Phase.accepted.injEq, Option.some.injEq] at hphase
        obtain ⟨rfl, rfl⟩ := hphase
        exact ⟨decoded, hdecode, h decoded hdecode (verifyOCSPResponse_eq_ok_iff.mp hverify)⟩

/-! ## steps -/

variable {env} {w w' : World σ} {e : Event}

/-- What a step does to a validation says whether the world is sound after it. -/
theorem sound_put {i : Nat} {v : Validation} {result : Phase × OcspResponseCache σ}
    (hv : w.validations[i]? = some v) (hsound : v.Sound env) :
    (w.put i v result).Sound env ↔
      w.Sound env ∧ (Validation.mk v.cert result.1).Sound env := by
  have hlt : i < w.validations.length := (List.getElem?_eq_some_iff.mp hv).1
  constructor
  · intro h
    refine ⟨fun j u hu => ?_, h i _ (by simp [World.put, hlt])⟩
    by_cases hij : i = j
    · subst hij
      rw [hv] at hu
      obtain rfl := Option.some.inj hu
      exact hsound
    · exact h j u (by simp [World.put, hij, hu])
  · intro ⟨hw, hresult⟩ j u hu
    by_cases hij : i = j
    · subst hij
      simp only [World.put, List.getElem?_set_self hlt, Option.some.injEq] at hu
      exact hu ▸ hresult
    · simp only [World.put, List.getElem?_set_ne hij] at hu
      exact hw j u hu

theorem requests_put {i : Nat} {v : Validation} {result : Phase × OcspResponseCache σ}
    (hv : w.validations[i]? = some v) (hw : w.Requests env)
    (hresult : ∀ decoded numRetries, result.1 = .requesting decoded numRetries →
      decode env.toSurroundings v.cert = .ok decoded) : (w.put i v result).Requests env := by
  have hlt : i < w.validations.length := (List.getElem?_eq_some_iff.mp hv).1
  intro j cert decoded numRetries hj
  by_cases hij : i = j
  · subst hij
    simp only [World.put, List.getElem?_set_self hlt, Option.some.injEq,
      Validation.mk.injEq] at hj
    obtain ⟨rfl, hphase⟩ := hj
    exact hresult decoded numRetries hphase
  · simp only [World.put, List.getElem?_set_ne hij] at hj
    exact hw j cert decoded numRetries hj

/-- A check that has been started has accepted nothing on a response. -/
theorem check_cases (env : Agent σ) (now : Int) (decoded : Decoded) :
    (∃ err, check env now decoded = .rejected err) ∨
      check env now decoded = .accepted none now ∨
      check env now decoded = .requesting decoded 1 := by
  unfold check
  cases env.generate decoded with
  | error message => exact Or.inl ⟨_, rfl⟩
  | ok u =>
      cases env.getAuthorityInfo decoded.cert with
      | ok uri => exact Or.inr (Or.inr rfl)
      | error message =>
          by_cases hmissing : message = "AuthorityInfoAccess not found in extensions" ∧
              env.ocspMode ≠ .failClosed
          · exact Or.inr (Or.inl (if_pos hmissing))
          · exact Or.inl ⟨.thrown message, if_neg hmissing⟩

theorem sound_check {now : Int} {cert : PeerCertificate} {decoded : Decoded} :
    (Validation.mk cert (check env now decoded)).Sound env := by
  apply Validation.sound_of_ne
  intro response now'
  obtain ⟨err, h⟩ | h | h := check_cases env now decoded <;> simp [h]

theorem sound_call {now : Int} {cert : PeerCertificate} {useCacheServer : Bool}
    {c : OcspResponseCache σ} :
    (Validation.mk cert (getOcspResonseAndVerify env now cert useCacheServer c).1).Sound env ↔
      ∀ con, consultedByCall env now cert useCacheServer c = some con → con.Fits env := by
  unfold getOcspResonseAndVerify consultedByCall
  by_cases hwaiting : useCacheServer = false ∧ c.downloadStatus ≠ .finished
  · have hsound : (Validation.mk cert (.calling false)).Sound env :=
      Validation.sound_of_ne env (by simp)
    simp [hwaiting, hsound]
  · simp only [if_neg hwaiting]
    cases hdecode : decode env.toSurroundings cert with
    | error message =>
        have hsound : (Validation.mk cert (.rejected (.thrown message))).Sound env :=
          Validation.sound_of_ne env (by simp)
        have hfits : ∀ response, (Consultation.mk cert response now).Fits env := by
          intro response decoded hdecode'
          rw [hdecode] at hdecode'
          contradiction
        simp [hsound, hfits]
    | ok decoded =>
        cases hlookUp : lookUp env now cert c with
        | mk found c' =>
            cases found with
            | some response => simpa using sound_verified env hdecode
            | none =>
                have hsound : (Validation.mk cert .caching).Sound env :=
                  Validation.sound_of_ne env (by simp)
                cases useCacheServer <;> simp [hsound, sound_check]

theorem requesting_call {now : Int} {cert : PeerCertificate} {useCacheServer : Bool}
    {c : OcspResponseCache σ} {decoded : Decoded} {numRetries : Nat}
    (h : (getOcspResonseAndVerify env now cert useCacheServer c).1 =
      .requesting decoded numRetries) : decode env.toSurroundings cert = .ok decoded := by
  unfold getOcspResonseAndVerify at h
  by_cases hwaiting : useCacheServer = false ∧ c.downloadStatus ≠ .finished
  · simp [hwaiting] at h
  · simp only [if_neg hwaiting] at h
    cases hdecode : decode env.toSurroundings cert with
    | error message => simp [hdecode] at h
    | ok decoded' =>
        simp only [hdecode] at h
        cases hlookUp : lookUp env now cert c with
        | mk found c' =>
            simp only [hlookUp] at h
            cases found with
            | some response =>
                simp only [verified] at h
                split at h <;> contradiction
            | none =>
                cases useCacheServer with
                | true => contradiction
                | false =>
                    simp only [Bool.false_eq_true, if_false] at h
                    obtain ⟨err, hcheck⟩ | hcheck | hcheck :=
                      check_cases env now decoded' <;> rw [hcheck] at h
                    · contradiction
                    · contradiction
                    · simp only [Phase.requesting.injEq] at h
                      rw [h.1]

theorem sound_responderReplied {now : Int} {cert : PeerCertificate} {decoded : Decoded}
    {numRetries : Nat} {reply : Except OcspError Buffer}
    (hdecode : decode env.toSurroundings cert = .ok decoded) :
    (Validation.mk cert (responderReplied env now decoded numRetries reply)).Sound env ↔
      ∀ response, reply = .ok response → (Consultation.mk cert response now).Fits env := by
  cases reply with
  | ok response => simpa [responderReplied] using sound_verified env hdecode
  | error err =>
      have hsound : (Validation.mk cert
          (responderReplied env now decoded numRetries (.error err))).Sound env := by
        apply Validation.sound_of_ne
        intro response now'
        simp only [responderReplied]
        split_ifs <;> simp
      simp [hsound]

theorem requesting_responderReplied {now : Int} {decoded decoded' : Decoded}
    {numRetries numRetries' : Nat} {reply : Except OcspError Buffer}
    (h : responderReplied env now decoded numRetries reply = .requesting decoded' numRetries') :
    decoded' = decoded := by
  cases reply with
  | ok response =>
      simp only [responderReplied, verified] at h
      split at h <;> contradiction
  | error err =>
      simp only [responderReplied] at h
      split_ifs at h
      simp only [Phase.requesting.injEq] at h
      exact h.1.symm

/-- Nothing has been accepted, and no responder is asked. -/
def Phase.Idle : Phase → Prop
  | .requesting _ _ | .accepted _ _ => False
  | _ => True

theorem idle_getOcspCache (env : Agent σ) (c : OcspResponseCache σ) : (getOcspCache env c).1.Idle := by
  unfold getOcspCache
  cases c.downloadStatus with
  | started | finished => trivial
  | notStart => cases env.contactCacheServer <;> trivial

theorem idle_serverReplied (env : Agent σ) (now : Int) (reply : ServerReply) (c : OcspResponseCache σ) :
    (serverReplied env now reply c).1.Idle := by
  unfold serverReplied
  cases reply with
  | error err => trivial
  | response statusCode file =>
      by_cases hfinished : c.downloadStatus = .finished
      · simp only [if_pos hfinished]
        trivial
      · by_cases hstatus : statusCode < 200 ∨ 400 ≤ statusCode
        · simp only [if_neg hfinished, if_pos hstatus]
          trivial
        · simp only [if_neg hfinished, if_neg hstatus]
          cases file <;> trivial

theorem Phase.Idle.sound {phase : Phase} (h : phase.Idle) (cert : PeerCertificate) :
    (Validation.mk cert phase).Sound env := by
  apply Validation.sound_of_ne
  intro response now hphase
  simp only at hphase
  rw [hphase] at h
  exact h

theorem Phase.Idle.ne_requesting {phase : Phase} (h : phase.Idle) (decoded : Decoded)
    (numRetries : Nat) : phase ≠ .requesting decoded numRetries := by
  intro hphase
  rw [hphase] at h
  exact h

/-- A validation is started, nothing but the cache is changed, or one validation goes on.  It
has accepted nothing before; what it accepts is sound when the response that it looks at fits,
and what it asks is about its own certificate. -/
theorem step_cases (hw : w.Requests env) (h : step env w e = some w') :
    (∃ cert, e = .start cert ∧
        w'.validations = w.validations ++ [⟨cert, .calling env.cacheServerEnabled⟩]) ∨
      (e = .reset ∧ w'.validations = w.validations) ∨
      ∃ i v result, w.validations[i]? = some v ∧ w' = w.put i v result ∧ v.Sound env ∧
        ((Validation.mk v.cert result.1).Sound env ↔ Fitting env w e) ∧
        ∀ decoded numRetries, result.1 = .requesting decoded numRetries →
          decode env.toSurroundings v.cert = .ok decoded := by
  cases e with
  | start cert =>
      obtain rfl := Option.some.inj h
      exact Or.inl ⟨cert, rfl, rfl⟩
  | reset =>
      obtain rfl := Option.some.inj h
      exact Or.inr (Or.inl ⟨rfl, rfl⟩)
  | call i now =>
      obtain ⟨v, hv, h⟩ := Option.bind_eq_some_iff.mp h
      obtain ⟨cert, phase⟩ := v
      cases phase with
      | calling useCacheServer =>
          refine Or.inr (Or.inr ⟨i, _, _, hv, (Option.some.inj h).symm,
            Validation.sound_of_ne env (by simp), ?_, fun _ _ => requesting_call⟩)
          simp [sound_call, Fitting, consulted, hv]
      | caching =>
          have hidle := idle_getOcspCache env w.cache
          refine Or.inr (Or.inr ⟨i, _, _, hv, (Option.some.inj h).symm,
            Validation.sound_of_ne env (by simp), ?_, fun decoded numRetries hrequesting =>
              absurd hrequesting (hidle.ne_requesting decoded numRetries)⟩)
          simp [Fitting, consulted, hv, hidle.sound cert]
      | downloading | requesting | accepted | rejected => contradiction
  | serverReplies i now reply =>
      obtain ⟨v, hv, h⟩ := Option.bind_eq_some_iff.mp h
      obtain ⟨cert, phase⟩ := v
      cases phase with
      | downloading =>
          have hidle := idle_serverReplied env now reply w.cache
          refine Or.inr (Or.inr ⟨i, _, _, hv, (Option.some.inj h).symm,
            Validation.sound_of_ne env (by simp), ?_, fun decoded numRetries hrequesting =>
              absurd hrequesting (hidle.ne_requesting decoded numRetries)⟩)
          simp [Fitting, consulted, hidle.sound cert]
      | calling | caching | requesting | accepted | rejected => contradiction
  | responderReplies i now reply =>
      obtain ⟨v, hv, h⟩ := Option.bind_eq_some_iff.mp h
      obtain ⟨cert, phase⟩ := v
      cases phase with
      | requesting decoded numRetries =>
          have hdecode := hw i cert decoded numRetries hv
          refine Or.inr (Or.inr ⟨i, _, _, hv, (Option.some.inj h).symm,
            Validation.sound_of_ne env (by simp), ?_, fun decoded' _ hrequesting => ?_⟩)
          · rw [sound_responderReplied hdecode]
            cases reply with
            | ok response => simp [Fitting, consulted, hv]
            | error err => simp [Fitting, consulted]
          · rw [requesting_responderReplied hrequesting]
            exact hdecode
      | calling | caching | downloading | accepted | rejected => contradiction

theorem step_requests (hw : w.Requests env) (h : step env w e = some w') : w'.Requests env := by
  obtain ⟨cert, _, hvalidations⟩ | ⟨_, hvalidations⟩ |
    ⟨i, v, result, hv, rfl, _, _, hrequesting⟩ := step_cases hw h
  · intro i cert' decoded numRetries hi
    rw [hvalidations, List.getElem?_append] at hi
    split_ifs at hi with hlt
    · exact hw i cert' decoded numRetries hi
    · have hmem := List.mem_of_getElem? hi
      simp at hmem
  · intro i cert decoded numRetries hi
    rw [hvalidations] at hi
    exact hw i cert decoded numRetries hi
  · exact requests_put hv hw hrequesting

/-- A step leaves a sound world sound exactly when the response that it looks at fits. -/
theorem step_sound_iff (hw : w.Requests env) (h : step env w e = some w') :
    w'.Sound env ↔ w.Sound env ∧ Fitting env w e := by
  obtain ⟨cert, rfl, hvalidations⟩ | ⟨rfl, hvalidations⟩ |
    ⟨i, v, result, hv, rfl, hsound, hfitting, _⟩ := step_cases hw h
  · have hfitting : Fitting env w (.start cert) := fun c hc => by contradiction
    rw [World.Sound, hvalidations]
    constructor
    · intro hsound
      refine ⟨fun i v hv => hsound i v ?_, hfitting⟩
      rw [List.getElem?_append_left (List.getElem?_eq_some_iff.mp hv).1, hv]
    · intro hsound i v hi
      rw [List.getElem?_append] at hi
      split_ifs at hi with hlt
      · exact hsound.1 i v hi
      · have hmem := List.mem_of_getElem? hi
        simp only [List.mem_singleton] at hmem
        subst hmem
        exact Validation.sound_of_ne env (by simp)
  · have hfitting : Fitting env w .reset := fun c hc => by contradiction
    rw [World.Sound, hvalidations]
    exact (and_iff_left hfitting).symm
  · rw [sound_put hv hsound, hfitting]

/-- In every run, and whatever there is in the cache file, all acceptances are sound exactly
when every response that is looked at fits. -/
theorem accepted_named_iff {now : Int} {file : Option CacheFile} {es : List Event}
    (h : Lts.exec (step env) (initial env now file) es = some w) :
    w.Sound env ↔ Lts.Along (step env) (Fitting env) (initial env now file) es := by
  have hinitial : (initial env now file).Sound env := fun i v hv => by simp [initial] at hv
  have hrequests : (initial env now file).Requests env := fun i _ _ _ hv => by
    simp [initial] at hv
  rw [Lts.exec_iff_along (fun _ _ _ => step_requests) (fun _ _ _ => step_sound_iff) hrequests h]
  exact and_iff_right hinitial

/-! ## a response about another certificate -/

/-- A certificate of an issuer whose name is `[0]`. -/
def issuedCertificate (serialNumber : Int) : Certificate where
  serialNumber
  issuer := [0]
  subjectPublicKey := [UInt8.ofNat serialNumber.toNat]
  publicKeyPem := "key " ++ toString serialNumber
  notBefore := 0
  notAfter := 4000000000000
  signatureAlgorithm := []
  signature := []

/-- A response of the issuer that the second certificate is good. -/
def secondIsGood (hash : Oid → Buffer → Buffer) : Response where
  signed := ⟨0, 1⟩
  signatureAlgorithm := []
  signature := []
  responses :=
    [{ certID := ⟨sha1, hash sha1 [0], hash sha1 [0], 2⟩
       certStatus := .good
       thisUpdate := 1800000000000
       nextUpdate := some 1800600000000 }]
  certs := []

/-- The certificates are their serial numbers, and any other bytes are the response. -/
def exampleAgent : Agent (List (Option String × Buffer)) where
  parseResponse _ := .ok (secondIsGood fun _ data => data)
  decodeCertificate raw := .ok (issuedCertificate (raw.headD 0).toNat)
  sign _ := some "sha256"
  verify _ _ key _ := .ok (key == "key 0")
  hash _ data := data
  decodeCertID _ := .ok ⟨sha1, [0], [0], 1⟩
  injectValidity := false
  injectUnknown := false
  lru :=
    { new := fun _ => []
      get := fun cache key => (cache.lookup key, cache)
      set := fun cache key response => (key, response) :: cache }
  maxAge := 86400000
  sizeLimit := 1000
  cacheServerEnabled := false
  ocspMode := .failClosed
  contactCacheServer := .ok ()
  generate _ := .ok ()
  getAuthorityInfo _ := .ok "http://ocsp"

/-- The first certificate is validated with the reply of its responder. -/
def askedResponder : List Event :=
  [.start ⟨[1], [0]⟩, .call 0 1800000100000, .responderReplies 0 1800000100000 (.ok [9])]

/-- The first certificate is validated with what the cache file has for it. -/
def foundInCache : List Event := [.start ⟨[1], [0]⟩, .call 0 1800000100000]

def cacheFile : CacheFile := [("first", some ⟨2, some 1800000000000, .ok [9]⟩)]

/-- The first certificate is accepted on a response about the second one, that of the responder
or that of the cache file. -/
theorem second_accepted_for_first :
    (∃ w, Lts.exec (step exampleAgent) (initial exampleAgent 1800000000000 none) askedResponder =
        some w ∧ ¬ w.Sound exampleAgent) ∧
      ∃ w, Lts.exec (step exampleAgent) (initial exampleAgent 1800000000000 (some cacheFile))
        foundInCache = some w ∧ ¬ w.Sound exampleAgent := by
  have hnot : ∀ w : World (List (Option String × Buffer)),
      w.validations = [⟨⟨[1], [0]⟩, .accepted (some [9]) 1800000100000⟩] →
        ¬ w.Sound exampleAgent := by
    intro w hw hsound
    obtain ⟨decoded, hdecode, res, sr, hparse, hmem, hnames, _⟩ :=
      hsound 0 _ (by rw [hw]; rfl) _ _ rfl
    obtain rfl := Except.ok.inj hdecode
    obtain rfl := Except.ok.inj hparse
    simp only [secondIsGood, List.mem_singleton] at hmem
    subst hmem
    have hserial := hnames.serialNumber
    contradiction
  exact ⟨⟨_, rfl, hnot _ rfl⟩, ⟨_, rfl, hnot _ rfl⟩⟩

/-- A run in which the second certificate is validated. -/
theorem accepted_named_iff_second :
    ∃ w, Lts.exec (step exampleAgent) (initial exampleAgent 1800000000000 none)
        [.start ⟨[2], [0]⟩, .call 0 1800000100000,
          .responderReplies 0 1800000100000 (.ok [9])] = some w ∧
      (w.Sound exampleAgent ↔ Lts.Along (step exampleAgent) (Fitting exampleAgent)
        (initial exampleAgent 1800000000000 none)
        [.start ⟨[2], [0]⟩, .call 0 1800000100000,
          .responderReplies 0 1800000100000 (.ok [9])]) :=
  ⟨_, rfl, accepted_named_iff rfl⟩

end Ocsp

end SnowflakeConnector
