import SnowflakeConnector.Loops

/-!
# SnowflakeConnector.CrlValidator

`lib/agent/crl_validator/index.ts` and `certificate_utils.ts`: the certificates of a chain are
looked up in the revocation lists that they point to, and the socket is destroyed when the
validation fails.  In the advisory mode only a revocation counts as a failure.

A certificate is given by what its decoding comes to, and a list by what a fetch comes to,
from a cache or from the network.  The clock stands still.

* `validateCrl_eq` -- the validation is one loop over the lookups of the chain.
* `destroys_revoked_iff` -- when a chain with a revoked certificate is refused.
-/

namespace SnowflakeConnector

namespace CrlValidator

/-! ## certificates and lists -/

inductive GeneralName
  | uniformResourceIdentifier (value : String)
  | other
  deriving DecidableEq, Repr

/-- An extension of a certificate; an entry of the distribution points may name no point. -/
inductive CertificateExtension
  | cRLDistributionPoints (points : List (Option (List GeneralName)))
  | other
  deriving DecidableEq, Repr

/-- Names are kept as their JSON texts, times in milliseconds. -/
structure CertificateDecoded where
  subject : String
  notBefore : Int
  notAfter : Int
  serialNumber : Int
  extensions : Option (List CertificateExtension)
  deriving DecidableEq, Repr

/-- A certificate as the socket has it: what its bytes decode to, and its public key. -/
structure PeerCertificate where
  organization : String
  commonName : String
  serialNumber : String
  decoded : Except String CertificateDecoded
  publicKey : Except String String

/-- A certificate and those it was issued by: the last one is its own issuer, or its issuer is
missing. -/
inductive CertChain
  | selfSigned (certificate : PeerCertificate)
  | unissued (certificate : PeerCertificate)
  | issued (certificate : PeerCertificate) (issuerCertificate : CertChain)

def CertChain.certificate : CertChain → PeerCertificate
  | .selfSigned certificate => certificate
  | .unissued certificate => certificate
  | .issued certificate _ => certificate

inductive CrlExtension
  | issuingDistributionPoint (distributionPoint : Option (List GeneralName))
  | other
  deriving DecidableEq, Repr

structure CertificateList where
  signatureAlgorithm : String
  issuer : String
  nextUpdate : Option Int
  revokedCertificates : Option (List Int)
  crlExtensions : Option (List CrlExtension)
  deriving DecidableEq, Repr

inductive CheckMode
  | disabled
  | enabled
  | advisory
  deriving DecidableEq, Repr

structure CRLValidatorConfig where
  checkMode : CheckMode
  allowCertificatesWithoutCrlURL : Bool
  deriving DecidableEq, Repr

/-- What fetches and signatures come to. -/
structure Surroundings where
  now : Int
  getCrl : String → Except String CertificateList
  verify : CertificateList → String → Except String Bool

/-- An error of the validation; a `CertificateRevokedError` is one of its own. -/
inductive CrlError
  | revoked (message : String)
  | failed (message : String)
  deriving DecidableEq, Repr

/-! ## `certificate_utils.ts` -/

def getCertificateDebugName (certificate : PeerCertificate) : String :=
  "O:" ++ certificate.organization ++ ",CN:" ++ certificate.commonName ++ ",SN:" ++
    certificate.serialNumber

def startsWithHttp (value : String) : Bool := ['h', 't', 't', 'p'].isPrefixOf value.toList

/-- The first name of a point that is an http url. -/
def firstHttpUrl (names : List GeneralName) : Option String :=
  names.findSome? fun
    | .uniformResourceIdentifier value => if startsWithHttp value then some value else none
    | .other => none

def crlDistributionPoints (extensions : List CertificateExtension) :
    Option (List (Option (List GeneralName))) :=
  extensions.findSome? fun
    | .cRLDistributionPoints points => some points
    | .other => none

def getCertificateCrlUrls (decodedCertificate : CertificateDecoded) : Option (List String) :=
  match decodedCertificate.extensions.bind crlDistributionPoints with
  | none => none
  | some points =>
      match points.filterMap fun names => names.bind firstHttpUrl with
      | [] => none
      | urls => some urls

/-- Seven days, or ten for a certificate from before the 15th of March 2026, and a minute. -/
def isShortLivedCertificate (decodedCertificate : CertificateDecoded) : Bool :=
  let days : Int := if decodedCertificate.notBefore < 1773532800000 then 10 else 7
  let maximumValidityPeriod := days * 24 * 60 * 60 * 1000 + 60 * 1000
  decodedCertificate.notAfter - decodedCertificate.notBefore < maximumValidityPeriod

def isCertificateRevoked (decodedCertificate : CertificateDecoded) (crl : CertificateList) :
    Bool :=
  (crl.revokedCertificates.getD []).contains decodedCertificate.serialNumber

def issuingDistributionPoint (extensions : List CrlExtension) :
    Option (Option (List GeneralName)) :=
  extensions.findSome? fun
    | .issuingDistributionPoint distributionPoint => some distributionPoint
    | .other => none

def isIssuingDistributionPointExtensionValid (crl : CertificateList) (expectedCrlUrl : String) :
    Except String Bool :=
  match crl.crlExtensions.bind issuingDistributionPoint with
  | none => .ok true
  | some none => .error "TypeError: Cannot read properties of undefined (reading 'value')"
  | some (some names) => .ok (names.contains (.uniformResourceIdentifier expectedCrlUrl))

/-! ## `index.ts` -/

/-- The signature algorithms that there are verifiers for. -/
def crlSignatureAlgorithms : List String :=
  ["1.2.840.113549.1.1.11", "1.2.840.113549.1.1.12", "1.2.840.113549.1.1.13",
    "1.2.840.10045.4.3.2", "1.2.840.10045.4.3.3", "1.2.840.10045.4.3.4", "1.2.840.113549.1.1.10"]

def isCrlSignatureValid (env : Surroundings) (crl : CertificateList) (issuerPublicKey : String) :
    Except String Bool :=
  if crl.signatureAlgorithm ∈ crlSignatureAlgorithms then env.verify crl issuerPublicKey
  else .error ("Unsupported signature algorithm: " ++ crl.signatureAlgorithm)

/-- The certificates from the first one up to a root that is its own issuer, each with its
issuer. -/
def iterateCertChain : CertChain → List (PeerCertificate × Option PeerCertificate)
  | .selfSigned _ => []
  | .unissued certificate => [(certificate, none)]
  | .issued certificate issuerCertificate =>
      (certificate, some issuerCertificate.certificate) :: iterateCertChain issuerCertificate

/-- What a list is looked up with: the certificate and what its issuer is known by. -/
structure Lookup where
  certificate : PeerCertificate
  decodedCertificate : CertificateDecoded
  issuerName : String
  issuerSubject : String
  issuerPublicKey : String
  crlUrl : String

/-- The list at a url after all of its checks. -/
def fetchCrl (env : Surroundings) (l : Lookup) : Except String CertificateList :=
  match env.getCrl l.crlUrl with
  | .error message => .error message
  | .ok crl =>
      match isCrlSignatureValid env crl l.issuerPublicKey with
      | .error message => .error message
      | .ok false =>
          .error ("CRL " ++ l.crlUrl ++ " signature is invalid. Expected signature by " ++
            l.issuerName)
      | .ok true =>
          match isIssuingDistributionPointExtensionValid crl l.crlUrl with
          | .error message => .error message
          | .ok false =>
              .error ("CRL " ++ l.crlUrl ++ " issuingDistributionPoint extension is invalid")
          | .ok true =>
              if l.issuerSubject ≠ crl.issuer then
                .error ("CRL " ++ l.crlUrl ++ " issuer is invalid. Expected " ++
                  l.issuerSubject ++ " but got " ++ crl.issuer)
              else
                match crl.nextUpdate with
                | none => .error "TypeError: Cannot read properties of undefined (reading 'value')"
                | some nextUpdate =>
                    if nextUpdate < env.now then
                      .error ("CRL " ++ l.crlUrl ++ " nextUpdate is expired")
                    else .ok crl

/-- The body of the inner loop. -/
def checkUrl (env : Surroundings) (l : Lookup) : Except CrlError Unit :=
  match fetchCrl env l with
  | .error message => .error (.failed message)
  | .ok crl =>
      if isCertificateRevoked l.decodedCertificate crl = true then
        .error (.revoked ("Certificate " ++ getCertificateDebugName l.certificate ++
          " is revoked in " ++ l.crlUrl))
      else .ok ()

/-- The lookups of a certificate: none for one that is skipped. -/
def lookups (config : CRLValidatorConfig)
    (entry : PeerCertificate × Option PeerCertificate) : Except String (List Lookup) := do
  let (certificate, issuerCertificate) := entry
  let decodedCertificate ← certificate.decoded
  if isShortLivedCertificate decodedCertificate = true then
    return []
  match getCertificateCrlUrls decodedCertificate with
  | none =>
      if config.allowCertificatesWithoutCrlURL = true then return []
      throw ("Certificate " ++ getCertificateDebugName certificate ++
        " does not have CRL http URL. This could be disabled with allowCertificatesWithoutCrlURL")
  | some crlUrls =>
      match issuerCertificate with
      | none => throw "TypeError: Cannot read properties of undefined (reading 'raw')"
      | some issuer =>
          let decodedIssuerCertificate ← issuer.decoded
          let issuerPublicKey ← issuer.publicKey
          return crlUrls.map fun crlUrl =>
            { certificate
              decodedCertificate
              issuerName := getCertificateDebugName issuer
              issuerSubject := decodedIssuerCertificate.subject
              issuerPublicKey
              crlUrl }

/-- The body of the outer loop. -/
def validateCertificate (env : Surroundings) (config : CRLValidatorConfig)
    (entry : PeerCertificate × Option PeerCertificate) : Except CrlError Unit :=
  match lookups config entry with
  | .error message => .error (.failed message)
  | .ok ls => forM ls (checkUrl env)

def validateCrl (env : Surroundings) (config : CRLValidatorConfig) (certChain : CertChain) :
    Except CrlError Unit :=
  forM (iterateCertChain certChain) (validateCertificate env config)

/-- What becomes of the socket. -/
inductive SocketFate
  | uncorked
  | destroyed (error : CrlError)
  deriving DecidableEq, Repr

/-- `corkSocketAndValidateCrl`, once the socket is connected. -/
def corkSocketAndValidateCrl (env : Surroundings) (config : CRLValidatorConfig)
    (certChain : CertChain) : SocketFate :=
  match validateCrl env config certChain with
  | .ok () => .uncorked
  | .error (.revoked message) => .destroyed (.revoked message)
  | .error (.failed message) =>
      if config.checkMode = .advisory then .uncorked else .destroyed (.failed message)

/-! ## lookups of a chain -/

/-- A step of the validation: a lookup, or a certificate that there are no lookups of. -/
inductive Item
  | refused (message : String)
  | lookup (l : Lookup)

def Item.check (env : Surroundings) : Item → Except CrlError Unit
  | .refused message => .error (.failed message)
  | .lookup l => checkUrl env l

/-- The steps of a certificate, and then those of a chain, in their order. -/
def certificateItems (config : CRLValidatorConfig)
    (entry : PeerCertificate × Option PeerCertificate) : List Item :=
  match lookups config entry with
  | .error message => [.refused message]
  | .ok ls => ls.map .lookup

def items (config : CRLValidatorConfig) (certChain : CertChain) : List Item :=
  (iterateCertChain certChain).flatMap (certificateItems config)

theorem validateCertificate_eq (env : Surroundings) (config : CRLValidatorConfig)
    (entry : PeerCertificate × Option PeerCertificate) :
    validateCertificate env config entry =
      forM (certificateItems config entry) (Item.check env) := by
  unfold validateCertificate certificateItems
  cases lookups config entry with
  | error message => simp [Item.check, bind, Except.bind]
  | ok ls =>
      induction ls with
      | nil => rfl
      | cons l ls ih =>
          simp only [List.map_cons, List.forM_cons, Item.check] at ih ⊢
          rw [ih]

/-- The two loops are one loop over the steps of the chain. -/
theorem validateCrl_eq (env : Surroundings) (config : CRLValidatorConfig)
    (certChain : CertChain) :
    validateCrl env config certChain = forM (items config certChain) (Item.check env) := by
  rw [validateCrl, items, Loops.forM_flatMap]
  congr 1
  funext entry
  exact validateCertificate_eq env config entry

/-! ## what a lookup comes to -/

/-- A list is the one at the url of a lookup, and passes all checks. -/
structure PassesChecks (env : Surroundings) (l : Lookup) (crl : CertificateList) : Prop where
  fetched : env.getCrl l.crlUrl = .ok crl
  signature : isCrlSignatureValid env crl l.issuerPublicKey = .ok true
  distributionPoint : isIssuingDistributionPointExtensionValid crl l.crlUrl = .ok true
  issuer : l.issuerSubject = crl.issuer
  current : ∃ nextUpdate, crl.nextUpdate = some nextUpdate ∧ env.now ≤ nextUpdate

theorem fetchCrl_eq_ok_iff {env : Surroundings} {l : Lookup} {crl : CertificateList} :
    fetchCrl env l = .ok crl ↔ PassesChecks env l crl := by
  constructor
  · intro h
    unfold fetchCrl at h
    cases hget : env.getCrl l.crlUrl with
    | error message => simp [hget] at h
    | ok crl' =>
        cases hsignature : isCrlSignatureValid env crl' l.issuerPublicKey with
        | error message => simp [hget, hsignature] at h
        | ok signature =>
            cases hpoint : isIssuingDistributionPointExtensionValid crl' l.crlUrl with
            | error message => cases signature <;> simp [hget, hsignature, hpoint] at h
            | ok point =>
                by_cases hissuer : l.issuerSubject = crl'.issuer
                · cases hnext : crl'.nextUpdate with
                  | none =>
                      cases signature <;> cases point <;>
                        simp [hget, hsignature, hpoint, hnext, hissuer] at h
                  | some nextUpdate =>
                      by_cases hcurrent : nextUpdate < env.now
                      · cases signature <;> cases point <;>
                          simp [hget, hsignature, hpoint, hnext, hissuer, hcurrent] at h
                      · cases signature <;> cases point <;>
                          simp [hget, hsignature, hpoint, hnext, hissuer, hcurrent] at h
                        subst h
                        exact ⟨hget, hsignature, hpoint, hissuer, nextUpdate, hnext,
                          Int.not_lt.mp hcurrent⟩
                · cases signature <;> cases point <;>
                    simp [hget, hsignature, hpoint, hissuer] at h
  · rintro ⟨hget, hsignature, hpoint, hissuer, nextUpdate, hnext, hcurrent⟩
    have hnow : ¬ nextUpdate < env.now := Int.not_lt.mpr hcurrent
    simp [fetchCrl, hget, hsignature, hpoint, hissuer, hnext, hnow]

/-- The certificate of a lookup is listed as revoked. -/
def Item.Lists (env : Surroundings) : Item → Prop
  | .refused _ => False
  | .lookup l => ∃ crl, PassesChecks env l crl ∧ isCertificateRevoked l.decodedCertificate crl = true

/-- There are no lookups of a certificate, or no list that passes all checks. -/
def Item.Fails (env : Surroundings) : Item → Prop
  | .refused _ => True
  | .lookup l => ∀ crl, ¬ PassesChecks env l crl

theorem Item.check_cases (env : Surroundings) (item : Item) :
    item.check env = .ok () ∧ ¬ item.Lists env ∧ ¬ item.Fails env ∨
      (∃ message, item.check env = .error (.revoked message)) ∧ item.Lists env ∧
        ¬ item.Fails env ∨
      (∃ message, item.check env = .error (.failed message)) ∧ ¬ item.Lists env ∧
        item.Fails env := by
  cases item with
  | refused message => exact Or.inr (Or.inr ⟨⟨message, rfl⟩, fun h => h, trivial⟩)
  | lookup l =>
      cases hfetch : fetchCrl env l with
      | error message =>
          have hfails : ∀ crl, ¬ PassesChecks env l crl := by
            intro crl hcrl
            rw [fetchCrl_eq_ok_iff.mpr hcrl] at hfetch
            contradiction
          refine Or.inr (Or.inr ⟨⟨message, ?_⟩, fun ⟨crl, hcrl, _⟩ => hfails crl hcrl, hfails⟩)
          simp only [Item.check, checkUrl, hfetch]
      | ok crl =>
          have hpasses := fetchCrl_eq_ok_iff.mp hfetch
          have hnotFails : ¬ Item.Fails env (.lookup l) := fun h => h crl hpasses
          by_cases hrevoked : isCertificateRevoked l.decodedCertificate crl = true
          · refine Or.inr (Or.inl ⟨⟨"Certificate " ++ getCertificateDebugName l.certificate ++
              " is revoked in " ++ l.crlUrl, ?_⟩, ⟨crl, hpasses, hrevoked⟩, hnotFails⟩)
            simp only [Item.check, checkUrl, hfetch, if_pos hrevoked]
          · refine Or.inl ⟨?_, fun ⟨crl', hcrl', hrevoked'⟩ => ?_, hnotFails⟩
            · simp only [Item.check, checkUrl, hfetch, if_neg hrevoked]
            · obtain rfl := Except.ok.inj ((fetchCrl_eq_ok_iff.mpr hcrl').symm.trans hfetch)
              exact hrevoked hrevoked'

/-! ## revoked certificates -/

/-- A certificate is listed, and nothing before it in the order of the validation fails. -/
def ListedFirst (env : Surroundings) (steps : List Item) : Prop :=
  ∃ before item after, steps = before ++ item :: after ∧ item.Lists env ∧
    ∀ b ∈ before, ¬ b.Fails env

/-- The loop ends with a revocation when a certificate is listed before anything fails. -/
theorem forM_revoked_iff (env : Surroundings) (steps : List Item) :
    (∃ message, forM steps (Item.check env) = .error (.revoked message)) ↔
      ListedFirst env steps := by
  constructor
  · rintro ⟨message, h⟩
    obtain ⟨before, item, after, rfl, hbefore, hitem⟩ := Loops.forM_eq_error_iff.mp h
    refine ⟨before, item, after, rfl, ?_, fun b hb => ?_⟩
    · obtain ⟨hok, _⟩ | ⟨_, hlists, _⟩ | ⟨⟨message', hfailed⟩, _⟩ := item.check_cases env
      · rw [hitem] at hok
        contradiction
      · exact hlists
      · rw [hitem] at hfailed
        simp at hfailed
    · obtain ⟨_, _, hfails⟩ | ⟨⟨message', hrevoked⟩, _⟩ | ⟨⟨message', hfailed⟩, _⟩ :=
        b.check_cases env
      · exact hfails
      · rw [hbefore b hb] at hrevoked
        contradiction
      · rw [hbefore b hb] at hfailed
        contradiction
  · rintro ⟨before, item, after, rfl, hlists, hbefore⟩
    induction before with
    | nil =>
        obtain ⟨_, hnot, _⟩ | ⟨⟨message, hrevoked⟩, _⟩ | ⟨_, hnot, _⟩ := item.check_cases env
        · exact absurd hlists hnot
        · refine ⟨message, ?_⟩
          rw [List.nil_append, List.forM_cons, hrevoked]
          rfl
        · exact absurd hlists hnot
    | cons b before ih =>
        obtain ⟨message, hrest⟩ := ih fun b hb => hbefore b (List.mem_cons_of_mem _ hb)
        obtain ⟨hok, _⟩ | ⟨⟨message', hrevoked⟩, _⟩ | ⟨_, _, hfails⟩ := b.check_cases env
        · refine ⟨message, ?_⟩
          rw [List.cons_append, List.forM_cons, hok]
          exact hrest
        · refine ⟨message', ?_⟩
          rw [List.cons_append, List.forM_cons, hrevoked]
          rfl
        · exact absurd hfails (hbefore b (by simp))

/-- A chain with a listed certificate is not found valid. -/
theorem forM_ne_ok (env : Surroundings) {steps : List Item} {item : Item} (hmem : item ∈ steps)
    (hlists : item.Lists env) : forM steps (Item.check env) ≠ .ok () := by
  induction steps with
  | nil => contradiction
  | cons b steps ih =>
      rw [List.forM_cons]
      rcases List.mem_cons.mp hmem with rfl | hmem
      · obtain ⟨_, hnot, _⟩ | ⟨⟨message, hrevoked⟩, _⟩ | ⟨_, hnot, _⟩ := item.check_cases env
        · exact absurd hlists hnot
        · rw [hrevoked]
          exact fun h => by contradiction
        · exact absurd hlists hnot
      · cases hb : b.check env with
        | error e => exact fun h => by contradiction
        | ok u => exact ih hmem

/-- A chain with a listed certificate is refused, unless only revocations count and something
fails before the first one is found. -/
theorem destroys_revoked_iff (env : Surroundings) (config : CRLValidatorConfig)
    (certChain : CertChain) :
    ((∃ item ∈ items config certChain, item.Lists env) →
        ∃ error, corkSocketAndValidateCrl env config certChain = .destroyed error) ↔
      (config.checkMode = .advisory → (∃ item ∈ items config certChain, item.Lists env) →
        ListedFirst env (items config certChain)) := by
  have hrevoked := forM_revoked_iff env (items config certChain)
  rw [← validateCrl_eq] at hrevoked
  constructor
  · intro h hadvisory hlisted
    obtain ⟨error, hdestroyed⟩ := h hlisted
    rw [← hrevoked]
    unfold corkSocketAndValidateCrl at hdestroyed
    cases hvalidate : validateCrl env config certChain with
    | ok u => simp [hvalidate] at hdestroyed
    | error e =>
        cases e with
        | revoked message => exact ⟨message, rfl⟩
        | failed message => simp [hvalidate, hadvisory] at hdestroyed
  · intro h hlisted
    obtain ⟨item, hmem, hlists⟩ := hlisted
    have hne := forM_ne_ok env hmem hlists
    rw [← validateCrl_eq] at hne
    unfold corkSocketAndValidateCrl
    cases hvalidate : validateCrl env config certChain with
    | ok u => exact absurd hvalidate hne
    | error e =>
        cases e with
        | revoked message => exact ⟨.revoked message, rfl⟩
        | failed message =>
            by_cases hadvisory : config.checkMode = .advisory
            · obtain ⟨message', hmessage⟩ := hrevoked.mpr (h hadvisory ⟨item, hmem, hlists⟩)
              rw [hvalidate] at hmessage
              simp at hmessage
            · exact ⟨.failed message, by simp [hadvisory]⟩

/-! ## a revoked issuer -/

/-- A certificate valid for a year, with one list to be looked up in. -/
def yearLong (subject : String) (serialNumber : Int) (crlUrl : String) : PeerCertificate where
  organization := "Example"
  commonName := subject
  serialNumber := toString serialNumber
  decoded := .ok
    { subject
      notBefore := 1800000000000
      notAfter := 1831536000000
      serialNumber
      extensions := some [.cRLDistributionPoints [some [.uniformResourceIdentifier crlUrl]]] }
  publicKey := .ok subject

def revokedIssuer : CertChain :=
  .issued (yearLong "leaf" 3 "http://issuer/crl")
    (.issued (yearLong "issuer" 2 "http://root/crl")
      (.selfSigned (yearLong "root" 1 "http://root/crl")))

def rootList : CertificateList where
  signatureAlgorithm := "1.2.840.113549.1.1.11"
  issuer := "root"
  nextUpdate := some 1820000000000
  revokedCertificates := some [2]
  crlExtensions := none

/-- The list of the issuer cannot be downloaded, and the one of the root lists the issuer. -/
def unreachableIssuer : Surroundings where
  now := 1810000000000
  getCrl
    | "http://root/crl" => .ok rootList
    | _ => .error "connect ECONNREFUSED"
  verify _ issuerPublicKey := .ok (issuerPublicKey == "root")

/-- The issuer of the leaf is listed, and the socket is uncorked. -/
theorem revoked_issuer_uncorked :
    ¬ ((∃ item ∈ items ⟨.advisory, false⟩ revokedIssuer, item.Lists unreachableIssuer) →
        ∃ error, corkSocketAndValidateCrl unreachableIssuer ⟨.advisory, false⟩ revokedIssuer =
          .destroyed error) := by
  intro h
  have huncorked : corkSocketAndValidateCrl unreachableIssuer ⟨.advisory, false⟩ revokedIssuer =
      .uncorked := by decide
  have hitems : ∃ leaf issuer : Lookup,
      items ⟨.advisory, false⟩ revokedIssuer = [.lookup leaf, .lookup issuer] ∧
        fetchCrl unreachableIssuer issuer = .ok rootList ∧
        isCertificateRevoked issuer.decodedCertificate rootList = true :=
    ⟨_, _, rfl, by decide, by decide⟩
  obtain ⟨leaf, issuer, hitems, hfetch, hrevoked⟩ := hitems
  have hlists : Item.Lists unreachableIssuer (.lookup issuer) :=
    ⟨rootList, fetchCrl_eq_ok_iff.mp hfetch, hrevoked⟩
  obtain ⟨error, hdestroyed⟩ := h ⟨.lookup issuer, by simp [hitems], hlists⟩
  rw [huncorked] at hdestroyed
  contradiction

end CrlValidator

end SnowflakeConnector
