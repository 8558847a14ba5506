import SnowflakeConnector.Base64
import Mathlib.Data.List.Basic

/-!
# SnowflakeConnector.Ocsp

`lib/agent/cert_util.js`: the verification of an OCSP response, and the keys under which
responses are cached.

What other packages do is given by a `Surroundings`: decoding, signatures, hashes and the
environment variables.  Times are in milliseconds, and an exception is an error like any other.

* `verifyOCSPResponse_eq_ok_iff` -- the responses that are accepted.
-/

namespace SnowflakeConnector

namespace Ocsp

abbrev Buffer := List UInt8

/-- The numbers of an object identifier. -/
abbrev Oid := List Nat

/-! ## certificates and responses -/

/-- A decoded certificate; its issuer and its public key are kept as their encodings. -/
structure Certificate where
  serialNumber : Int
  issuer : Buffer
  subjectPublicKey : Buffer
  publicKeyPem : String
  notBefore : Int
  notAfter : Int
  signatureAlgorithm : Oid
  signature : Buffer
  deriving DecidableEq, Repr

structure CertID where
  hashAlgorithm : Oid
  issuerNameHash : Buffer
  issuerKeyHash : Buffer
  serialNumber : Int
  deriving DecidableEq, Repr

inductive CertStatus
  | good
  | revoked
  | unknown
  | other (type : String)
  deriving DecidableEq, Repr

structure SingleResponse where
  certID : CertID
  certStatus : CertStatus
  thisUpdate : Int
  nextUpdate : Option Int
  deriving DecidableEq, Repr

/-- A part of a buffer. -/
structure Range where
  start : Nat
  stop : Nat
  deriving DecidableEq, Repr

/-- A parsed response; every certificate comes with the place of its signed part. -/
structure Response where
  signed : Range
  signatureAlgorithm : Oid
  signature : Buffer
  responses : List SingleResponse
  certs : List (Certificate × Range)
  deriving DecidableEq, Repr

structure Surroundings where
  parseResponse : Buffer → Except String Response
  decodeCertificate : Buffer → Except String Certificate
  sign : Oid → Option String
  verify : String → Buffer → String → Buffer → Except String Bool
  hash : Oid → Buffer → Buffer
  decodeCertID : String → Except String CertID
  injectValidity : Bool
  injectUnknown : Bool

inductive OcspError
  | revoked
  | unknown
  | noSignatureAlgorithm
  | invalidSignature
  | noResponse
  | invalidValidity (thisUpdate : Int) (nextUpdate : Option Int)
  | unknownState
  | notTwoElements
  | cacheExpired
  | failedParseResponse
  | invalidCertificateValidity (notBefore notAfter : Int)
  | responderTimeout
  | cacheServerTimeout
  | failedObtainOcspResponse (statusCode : Int)
  | thrown (message : String)
  deriving DecidableEq, Repr

/-! ## `cert_util.js` -/

def maxClockSkewInMilliseconds : Int := 900000

def minCacheWarmupTimeInMilliseconds : Int := 18000000

def sha1 : Oid := [1, 3, 14, 3, 2, 26]

/-- The id that a certificate is asked for, and cached, with. -/
def certIDOf (env : Surroundings) (cert issuer : Certificate) : CertID where
  hashAlgorithm := sha1
  issuerNameHash := env.hash sha1 cert.issuer
  issuerKeyHash := env.hash sha1 issuer.subjectPublicKey
  serialNumber := cert.serialNumber

/-- The cache key of an id; the hash algorithm has no part in it. -/
def keyOf (certID : CertID) : String :=
  String.ofList (Base64.encode certID.issuerNameHash) ++ "#" ++
    String.ofList (Base64.encode certID.issuerKeyHash) ++ "#" ++ toString certID.serialNumber

def encodeKey (env : Surroundings) (base64Key : String) : Except String String :=
  (env.decodeCertID base64Key).map keyOf

/-- A certificate as the socket has it. -/
structure PeerCertificate where
  raw : Buffer
  issuerRaw : Buffer
  deriving DecidableEq, Repr

structure Decoded where
  cert : Certificate
  issuer : Certificate
  deriving DecidableEq, Repr

def decode (env : Surroundings) (cert : PeerCertificate) : Except String Decoded := do
  let decodedCert ← env.decodeCertificate cert.raw
  let decodedIssuer ← env.decodeCertificate cert.issuerRaw
  return { cert := decodedCert, issuer := decodedIssuer }

/-- No id for a certificate that cannot be decoded. -/
def buildCertId (env : Surroundings) (cert : PeerCertificate) : Option String :=
  match decode env cert with
  | .error _ => none
  | .ok decoded => some (keyOf (certIDOf env decoded.cert decoded.issuer))

/-- A hundredth of the range, in whole milliseconds. -/
def calculateTolerableValidity (thisUpdate nextUpdate : Int) : Int :=
  let currentRange := (nextUpdate - thisUpdate) / 100
  if minCacheWarmupTimeInMilliseconds < currentRange then currentRange
  else minCacheWarmupTimeInMilliseconds

/-- A missing `nextUpdate` is compared as `NaN`. -/
def isValidityRange (currentTime thisUpdate : Int) : Option Int → Bool
  | none => false
  | some nextUpdate =>
      decide (thisUpdate - maxClockSkewInMilliseconds ≤ currentTime) &&
        decide (currentTime ≤ nextUpdate + calculateTolerableValidity thisUpdate nextUpdate)

def slice (raw : Buffer) (range : Range) : Buffer :=
  (raw.drop range.start).take (range.stop - range.start)

def verifyWith (env : Surroundings) (algorithm : Oid) (data : Buffer) (key : String)
    (signature : Buffer) : Except OcspError Unit :=
  match env.sign algorithm with
  | none => .error .noSignatureAlgorithm
  | some signAlg =>
      match env.verify signAlg data key signature with
      | .error message => .error (.thrown message)
      | .ok false => .error .invalidSignature
      | .ok true => .ok ()

/-- The key of the first certificate of the response, or that of the issuer. -/
def findResponder (env : Surroundings) (now : Int) (issuer : Certificate)
    (certs : List (Certificate × Range)) (rawRes : Buffer) : Except OcspError String :=
  match certs with
  | [] => .ok issuer.publicKeyPem
  | (cert, tbs) :: _ =>
      if cert.notAfter < now ∨ now < cert.notBefore then
        .error (.invalidCertificateValidity cert.notBefore cert.notAfter)
      else
        match verifyWith env cert.signatureAlgorithm (slice rawRes tbs) issuer.publicKeyPem
            cert.signature with
        | .error err => .error err
        | .ok () => .ok cert.publicKeyPem

/-- The part that is left out when no issuer is given. -/
def verifySignature (env : Surroundings) (now : Int) (issuer : Certificate) (res : Response)
    (rawRes : Buffer) : Except OcspError Unit :=
  match env.sign res.signatureAlgorithm with
  | none => .error .noSignatureAlgorithm
  | some _ =>
      match findResponder env now issuer res.certs rawRes with
      | .error err => .error err
      | .ok responderKey =>
          verifyWith env res.signatureAlgorithm (slice rawRes res.signed) responderKey
            res.signature

/-- The part about the first of the single responses. -/
def verifyStatus (env : Surroundings) (now : Int) : List SingleResponse → Except OcspError Unit
  | [] => .error .noResponse
  | sd :: _ =>
      if sd.certStatus = .revoked then .error .revoked
      else if env.injectValidity = true ∨ isValidityRange now sd.thisUpdate sd.nextUpdate = false
      then .error (.invalidValidity sd.thisUpdate sd.nextUpdate)
      else if env.injectUnknown = true ∨ sd.certStatus = .unknown then .error .unknown
      else if sd.certStatus = .good then .ok ()
      else .error .unknownState

def verifyOCSPResponse (env : Surroundings) (now : Int) (issuer : Option Certificate)
    (rawRes : Buffer) : Except OcspError Unit :=
  match env.parseResponse rawRes with
  | .error message => .error (.thrown message)
  | .ok res =>
      match issuer with
      | none => verifyStatus env now res.responses
      | some issuer =>
          match verifySignature env now issuer res rawRes with
          | .error err => .error err
          | .ok () => verifyStatus env now res.responses

/-! ## accepted responses -/

/-- A signature that is found right. -/
def Signed (env : Surroundings) (algorithm : Oid) (data : Buffer) (key : String)
    (signature : Buffer) : Prop :=
  ∃ signAlg, env.sign algorithm = some signAlg ∧
    env.verify signAlg data key signature = .ok true

/-- The first certificate of a response is current and signed by the issuer. -/
def Responder (env : Surroundings) (now : Int) (issuer : Certificate)
    (certs : List (Certificate × Range)) (rawRes : Buffer) (key : String) : Prop :=
  (certs = [] ∧ key = issuer.publicKeyPem) ∨
    ∃ cert tbs rest, certs = (cert, tbs) :: rest ∧ key = cert.publicKeyPem ∧
      cert.notBefore ≤ now ∧ now ≤ cert.notAfter ∧
      Signed env cert.signatureAlgorithm (slice rawRes tbs) issuer.publicKeyPem cert.signature

/-- A single response that speaks well of its certificate. -/
structure SingleResponse.GoodAt (sd : SingleResponse) (now : Int) : Prop where
  good : sd.certStatus = .good
  current : isValidityRange now sd.thisUpdate sd.nextUpdate = true

/-- A response is signed, and the first single response in it is good and current. -/
structure Vouches (env : Surroundings) (now : Int) (issuer : Certificate) (rawRes : Buffer) :
    Prop where
  noTest : env.injectValidity = false ∧ env.injectUnknown = false
  signed : ∃ res key, env.parseResponse rawRes = .ok res ∧
    Responder env now issuer res.certs rawRes key ∧
    Signed env res.signatureAlgorithm (slice rawRes res.signed) key res.signature
  good : ∃ res sd rest, env.parseResponse rawRes = .ok res ∧ res.responses = sd :: rest ∧
    sd.GoodAt now

/-- The hashes and the serial number are those of a certificate. -/
structure CertID.Names (env : Surroundings) (certID : CertID) (decoded : Decoded) : Prop where
  issuerName : certID.issuerNameHash = env.hash certID.hashAlgorithm decoded.cert.issuer
  issuerKey : certID.issuerKeyHash =
    env.hash certID.hashAlgorithm decoded.issuer.subjectPublicKey
  serialNumber : certID.serialNumber = decoded.cert.serialNumber

/-- A response has a single response about a certificate, and that one is good and current. -/
def Justifies (env : Surroundings) (now : Int) (decoded : Decoded) (rawRes : Buffer) : Prop :=
  ∃ res sr, env.parseResponse rawRes = .ok res ∧ sr ∈ res.responses ∧
    sr.certID.Names env decoded ∧ sr.GoodAt now

theorem verifyWith_eq_ok_iff {env : Surroundings} {algorithm : Oid} {data : Buffer} {key : String}
    {signature : Buffer} :
    verifyWith env algorithm data key signature = .ok () ↔
      Signed env algorithm data key signature := by
  unfold verifyWith Signed
  cases env.sign algorithm with
  | none => simp
  | some signAlg =>
      cases hverify : env.verify signAlg data key signature with
      | error message => simp [hverify]
      | ok valid => cases valid <;> simp [hverify]

theorem findResponder_eq_ok_iff {env : Surroundings} {now : Int} {issuer : Certificate}
    {certs : List (Certificate × Range)} {rawRes : Buffer} {key : String} :
    findResponder env now issuer certs rawRes = .ok key ↔
      Responder env now issuer certs rawRes key := by
  unfold findResponder Responder
  cases certs with
  | nil =>
      simp only [Except.ok.injEq, reduceCtorEq, false_and, exists_false, or_false, true_and]
      exact eq_comm
  | cons entry rest =>
      obtain ⟨cert, tbs⟩ := entry
      by_cases hvalidity : cert.notAfter < now ∨ now < cert.notBefore
      · have hnot : ¬ (cert.notBefore ≤ now ∧ now ≤ cert.notAfter) := by omega
        simp [hvalidity]
        grind
      · have hcurrent : cert.notBefore ≤ now ∧ now ≤ cert.notAfter := by omega
        cases hverify : verifyWith env cert.signatureAlgorithm (slice rawRes tbs)
            issuer.publicKeyPem cert.signature with
        | error err =>
            have hnot := mt verifyWith_eq_ok_iff.mpr (by rw [hverify]; simp)
            simp [hvalidity, hnot, hverify]
        | ok u =>
            have hsigned := verifyWith_eq_ok_iff.mp hverify
            simp [hvalidity, hverify, hcurrent, hsigned]
            exact eq_comm

theorem verifySignature_eq_ok_iff {env : Surroundings} {now : Int} {issuer : Certificate}
    {res : Response} {rawRes : Buffer} :
    verifySignature env now issuer res rawRes = .ok () ↔
      ∃ key, Responder env now issuer res.certs rawRes key ∧
        Signed env res.signatureAlgorithm (slice rawRes res.signed) key res.signature := by
  unfold verifySignature
  cases hsign : env.sign res.signatureAlgorithm with
  | none => simp [Signed, hsign]
  | some signAlg =>
      cases hresponder : findResponder env now issuer res.certs rawRes with
      | error err =>
          have hnone : ∀ key, ¬ Responder env now issuer res.certs rawRes key := by
            intro key hkey
            rw [findResponder_eq_ok_iff.mpr hkey] at hresponder
            contradiction
          simp [hnone]
      | ok key =>
          have hkey := findResponder_eq_ok_iff.mp hresponder
          constructor
          · intro h
            exact ⟨key, hkey, verifyWith_eq_ok_iff.mp h⟩
          · intro h
            obtain ⟨key', hkey', hsigned⟩ := h
            rw [findResponder_eq_ok_iff.mpr hkey'] at hresponder
            obtain rfl := Except.ok.inj hresponder
            exact verifyWith_eq_ok_iff.mpr hsigned

theorem verifyStatus_eq_ok_iff {env : Surroundings} {now : Int} {responses : List SingleResponse} :
    verifyStatus env now responses = .ok () ↔
      (env.injectValidity = false ∧ env.injectUnknown = false) ∧
        ∃ sd rest, responses = sd :: rest ∧ sd.GoodAt now := by
  cases responses with
  | nil => simp [verifyStatus]
  | cons sd rest =>
      have hgood : sd.GoodAt now ↔ sd.certStatus = .good ∧
          isValidityRange now sd.thisUpdate sd.nextUpdate = true :=
        ⟨fun h => ⟨h.good, h.current⟩, fun h => ⟨h.1, h.2⟩⟩
      simp only [verifyStatus, List.cons.injEq, ↓existsAndEq, hgood]
      cases sd.certStatus <;> cases env.injectValidity <;> cases env.injectUnknown <;>
        cases isValidityRange now sd.thisUpdate sd.nextUpdate <;> simp

/-- A response is accepted exactly when it vouches for some certificate of the issuer. -/
theorem verifyOCSPResponse_eq_ok_iff {env : Surroundings} {now : Int} {issuer : Certificate}
    {rawRes : Buffer} :
    verifyOCSPResponse env now (some issuer) rawRes = .ok () ↔ Vouches env now issuer rawRes := by
  unfold verifyOCSPResponse
  cases hparse : env.parseResponse rawRes with
  | error message =>
      constructor
      · intro h
        contradiction
      · intro h
        obtain ⟨res, key, hres, _⟩ := h.signed
        rw [hparse] at hres
        contradiction
  | ok res =>
      constructor
      · intro h
        cases hsignature : verifySignature env now issuer res rawRes with
        | error err => simp [hsignature] at h
        | ok u =>
            simp only [hsignature] at h
            obtain ⟨hnoTest, sd, rest, hresponses, hgood⟩ := verifyStatus_eq_ok_iff.mp h
            obtain ⟨key, hkey, hsigned⟩ := verifySignature_eq_ok_iff.mp hsignature
            exact ⟨hnoTest, ⟨res, key, hparse, hkey, hsigned⟩,
              ⟨res, sd, rest, hparse, hresponses, hgood⟩⟩
      · intro h
        obtain ⟨res', key, hres, hkey, hsigned⟩ := h.signed
        rw [hparse] at hres
        obtain rfl := Except.ok.inj hres
        obtain ⟨res', sd, rest, hres, hresponses, hgood⟩ := h.good
        rw [hparse] at hres
        obtain rfl := Except.ok.inj hres
        simp only [verifySignature_eq_ok_iff.mpr ⟨key, hkey, hsigned⟩]
        exact verifyStatus_eq_ok_iff.mpr ⟨h.noTest, sd, rest, hresponses, hgood⟩

end Ocsp

end SnowflakeConnector
