import SnowflakeConnector.Json
import SnowflakeConnector.Service.Tokens

/-!
# SnowflakeConnector.Connection.Serialize

`serializeConnection` and `deserializeConnection` of `lib/core.js`: the configs of the connection,
its context, the service and its tokens as a JSON text, and the connection that is made of one.

* `deserializeConnection_serializeTokens` -- the tokens are read back, whatever they are;
* `restored_session` -- what becomes of the session of a run.
-/

namespace SnowflakeConnector

namespace Connection

open Json Service SnowflakeService

/-! ## the code -/

/-- The variables of a `TokenInfo` as JSON has them; `none` is `undefined`. -/
structure StoredTokens where
  masterToken : Option Value
  masterTokenExpirationTime : Option Value
  sessionToken : Option Value
  sessionTokenExpirationTime : Option Value

/-- `Util.exists`. -/
def isPresent : Option Value → Bool
  | none => false
  | some .null => false
  | some _ => true

/-- A time that is not a number is written as `null`. -/
def timeValue : Option Int → Value
  | none => .null
  | some n => .num n.repr

def storedTokens (t : TokenInfo) : StoredTokens where
  masterToken := t.masterToken.map .str
  masterTokenExpirationTime := t.masterTokenExpirationTime.map timeValue
  sessionToken := t.sessionToken.map .str
  sessionTokenExpirationTime := t.sessionTokenExpirationTime.map timeValue

/-- What is `undefined` is left out of the text. -/
def property (key : String) (v : Option Value) : List (String × Value) :=
  (v.map fun v => (key, v)).toList

namespace StoredTokens

def isEmpty (t : StoredTokens) : Bool :=
  !isPresent t.masterToken || !isPresent t.masterTokenExpirationTime ||
    !isPresent t.sessionToken || !isPresent t.sessionTokenExpirationTime

def getConfig (t : StoredTokens) : Value :=
  .obj (property "masterToken" t.masterToken ++
    property "masterTokenExpirationTime" t.masterTokenExpirationTime ++
    property "sessionToken" t.sessionToken ++
    property "sessionTokenExpirationTime" t.sessionTokenExpirationTime)

/-- The constructor of `TokenInfo` with a config. -/
def ofConfig (config : Value) : StoredTokens where
  masterToken := config.get? "masterToken"
  masterTokenExpirationTime := config.get? "masterTokenExpirationTime"
  sessionToken := config.get? "sessionToken"
  sessionTokenExpirationTime := config.get? "sessionTokenExpirationTime"

end StoredTokens

/-- `JSON.stringify(context.getConfig())`. -/
def serializeTokens (t : StoredTokens) : List Char :=
  Json.stringify (.obj [("services", .obj [("sf", .obj [("tokenInfo", t.getConfig)])])])

def serialize (s : SnowflakeService) : List Char := serializeTokens (storedTokens s.tokenInfo)

/-- An invalid parameter, and an assertion that does not hold. -/
def invalidConfigForm : Err :=
  Errors.createError .invalidParameterError (.num 408003) .undefined none none

def assertInternalError : Err := ⟨.internalAssertError, .undefined, .undefined, none, none⟩

/-- `Errors.assertInternal(Util.isObject(config[key]))`. -/
def objectProperty (key : String) (config : Value) : Except Err Value :=
  match config.get? key with
  | some (.obj members) => .ok (.obj members)
  | _ => .error assertInternalError

/-- `deserializeConnection`, up to the tokens that the service is created with. -/
def deserializeConnection (serializedConnection : List Char) : Except Err StoredTokens :=
  match Json.parse serializedConnection with
  | some (.obj members) => do
      let services ← objectProperty "services" (.obj members)
      let sf ← objectProperty "sf" services
      let tokenInfo ← objectProperty "tokenInfo" sf
      .ok (.ofConfig tokenInfo)
  | _ => .error invalidConfigForm

/-- A token of the service, where it is a text or there is none. -/
def readToken : Option Value → Option (Option String)
  | none => some none
  | some .null => some none
  | some (.str token) => some (some token)
  | some _ => none

def readTime : Option Value → Option (Option (Option Int))
  | none => some none
  | some .null => some none
  | some (.num literal) => literal.toInt?.map fun n => some (some n)
  | some _ => none

/-- The tokens, where they have the types that a service gives them. -/
def StoredTokens.tokenInfo? (t : StoredTokens) : Option TokenInfo := do
  let masterToken ← readToken t.masterToken
  let sessionToken ← readToken t.sessionToken
  let masterTokenExpirationTime ← readTime t.masterTokenExpirationTime
  let sessionTokenExpirationTime ← readTime t.sessionTokenExpirationTime
  some { masterToken, sessionToken, masterTokenExpirationTime, sessionTokenExpirationTime }

/-! ## reading back -/

/-- The values of the tokens can be written. -/
def StoredTokens.Valid (t : StoredTokens) : Prop :=
  ∀ v, t.masterToken = some v ∨ t.masterTokenExpirationTime = some v ∨ t.sessionToken = some v ∨
    t.sessionTokenExpirationTime = some v → Json.Valid v = true

theorem validMembers_property (key : String) {v : Option Value}
    (h : ∀ w, v = some w → Json.Valid w = true) (members : List (String × Value)) :
    ValidMembers (property key v ++ members) = ValidMembers members := by
  cases v with
  | none => rfl
  | some w => simp [property, ValidMembers, h w rfl]

theorem ofConfig_getConfig (t : StoredTokens) : .ofConfig t.getConfig = t := by
  obtain ⟨masterToken, masterTime, sessionToken, sessionTime⟩ := t
  cases masterToken <;> cases masterTime <;> cases sessionToken <;> cases sessionTime <;> rfl

/-- Any tokens are read back from the text that they are written as. -/
theorem deserializeConnection_serializeTokens {t : StoredTokens} (h : t.Valid) :
    deserializeConnection (serializeTokens t) = .ok t := by
  have hvalid : Json.Valid t.getConfig = true := by
    show ValidMembers _ = true
    rw [List.append_assoc, List.append_assoc,
      validMembers_property _ fun w hw => h w (.inl hw),
      validMembers_property _ fun w hw => h w (.inr (.inl hw)),
      validMembers_property _ fun w hw => h w (.inr (.inr (.inl hw))),
      ← List.append_nil (property _ _),
      validMembers_property _ fun w hw => h w (.inr (.inr (.inr hw)))]
    rfl
  have hconfig : Json.Valid
      (.obj [("services", .obj [("sf", .obj [("tokenInfo", t.getConfig)])])]) = true := by
    simp [Json.Valid, ValidMembers, hvalid]
  rw [deserializeConnection, serializeTokens, parse_stringify _ hconfig]
  show Except.ok (StoredTokens.ofConfig t.getConfig) = .ok t
  rw [ofConfig_getConfig]

/-! ## the session of a run -/

/-- The tokens that are read back: a time that was not a number is gone. -/
def restoredTokens (t : TokenInfo) : TokenInfo :=
  { t with
    masterTokenExpirationTime := t.masterTokenExpirationTime.bind (·.map some)
    sessionTokenExpirationTime := t.sessionTokenExpirationTime.bind (·.map some) }

theorem storedTokens_valid (t : TokenInfo) : (storedTokens t).Valid := by
  have htime : ∀ n : Option Int, Json.Valid (timeValue n) = true := by
    intro n
    cases n with
    | none => rfl
    | some n => exact isLiteral_repr n
  rintro v (hv | hv | hv | hv) <;> obtain ⟨x, -, rfl⟩ := Option.map_eq_some_iff.mp hv
  · rfl
  · exact htime x
  · rfl
  · exact htime x

theorem tokenInfo?_storedTokens (t : TokenInfo) :
    (storedTokens t).tokenInfo? = some (restoredTokens t) := by
  have htoken : ∀ token : Option String, readToken (token.map .str) = some token := by
    intro token
    cases token <;> rfl
  have htime : ∀ time : Option (Option Int),
      readTime (time.map timeValue) = some (time.bind (·.map some)) := by
    rintro (_ | _ | n)
    · rfl
    · rfl
    · simp [readTime, timeValue]
  simp only [StoredTokens.tokenInfo?, storedTokens, htoken, htime]
  rfl

theorem isEmpty_storedTokens (t : TokenInfo) :
    (storedTokens t).isEmpty = (restoredTokens t).isEmpty := by
  obtain ⟨masterToken, sessionToken, masterTime, sessionTime⟩ := t
  rcases masterToken with _ | _ <;> rcases sessionToken with _ | _ <;>
    rcases masterTime with _ | _ | _ <;> rcases sessionTime with _ | _ | _ <;> rfl

/-- With all four of them there, the tokens are as they were. -/
theorem restoredTokens_eq {t : TokenInfo} (h : (restoredTokens t).isEmpty = false) :
    restoredTokens t = t := by
  obtain ⟨masterToken, sessionToken, masterTime, sessionTime⟩ := t
  rcases masterTime with _ | _ | _ <;> rcases sessionTime with _ | _ | _ <;>
    simp_all [restoredTokens, TokenInfo.isEmpty]

theorem isEmpty_restoredTokens (t : TokenInfo) :
    (restoredTokens t).isEmpty = true ↔ t.isEmpty = true ∨
      t.masterTokenExpirationTime = some none ∨ t.sessionTokenExpirationTime = some none := by
  obtain ⟨masterToken, sessionToken, masterTime, sessionTime⟩ := t
  rcases masterTime with _ | _ | _ <;> rcases sessionTime with _ | _ | _ <;>
    simp [restoredTokens, TokenInfo.isEmpty]

/-- **Sessions**: in every state of every run the connection is read back from its text, and is
written again as the same text.  The new one is connected unless a token is missing or a time was
not a number, and then with the very tokens that the first one was created with or that one answer
granted; otherwise it is pristine. -/
theorem restored_session (cfg : ConnectionConfig) (first : TokenInfo)
    {es : List SnowflakeService.Event} {s : SnowflakeService}
    (hrun : Lts.exec (SnowflakeService.step cfg) (SnowflakeService.create first) es = some s) :
    ∃ stored restored, deserializeConnection (serialize s) = .ok stored ∧
      serializeTokens stored = serialize s ∧ stored.tokenInfo? = some restored ∧
      stored.isEmpty = restored.isEmpty ∧
      ((SnowflakeService.create restored).currentState = .pristine ↔
        s.tokenInfo.isEmpty = true ∨ s.tokenInfo.masterTokenExpirationTime = some none ∨
        s.tokenInfo.sessionTokenExpirationTime = some none) ∧
      ((SnowflakeService.create restored).currentState ≠ .pristine →
        (SnowflakeService.create restored).currentState = .connected ∧ restored = s.tokenInfo ∧
          (first.isEmpty = false ∧ s.tokenInfo = first ∨ ∃ e ∈ es, Grants cfg e s.tokenInfo)) := by
  have hread := deserializeConnection_serializeTokens (storedTokens_valid s.tokenInfo)
  have horigin := (provenance_exec cfg first hrun).origin
  refine ⟨storedTokens s.tokenInfo, restoredTokens s.tokenInfo, hread, rfl,
    tokenInfo?_storedTokens s.tokenInfo, isEmpty_storedTokens s.tokenInfo, ?_, ?_⟩
  · rw [← isEmpty_restoredTokens]
    cases hempty : (restoredTokens s.tokenInfo).isEmpty <;> simp [SnowflakeService.create, hempty]
  · intro hstate
    have hempty : (restoredTokens s.tokenInfo).isEmpty = false := by
      cases hempty : (restoredTokens s.tokenInfo).isEmpty with
      | false => rfl
      | true => exact absurd (by simp [SnowflakeService.create, hempty]) hstate
    have heq := restoredTokens_eq hempty
    refine ⟨by simp [SnowflakeService.create, hempty], heq, ?_⟩
    rw [heq] at hempty
    obtain hfirst | hcleared | hgranted := horigin
    · exact .inl ⟨hfirst ▸ hempty, hfirst⟩
    · rw [hcleared] at hempty
      cases hempty
    · exact .inr hgranted

/-- A session is written while a request is out. -/
theorem restored_session_request :
    ∃ s restored, Lts.exec (SnowflakeService.step (sampleConfig .other))
        (SnowflakeService.create .cleared) requestRun = some s ∧
      (SnowflakeService.create restored).currentState = .connected ∧
      restored = s.tokenInfo ∧ ∃ e ∈ requestRun, Grants (sampleConfig .other) e s.tokenInfo := by
  obtain ⟨s, hrun, hfull, hmaster, hsession⟩ :
      ∃ s, Lts.exec (SnowflakeService.step (sampleConfig .other))
          (SnowflakeService.create .cleared) requestRun = some s ∧ s.tokenInfo.isEmpty = false ∧
          s.tokenInfo.masterTokenExpirationTime ≠ some none ∧
          s.tokenInfo.sessionTokenExpirationTime ≠ some none :=
    Lts.exists_exec (by decide +kernel)
  obtain ⟨-, restored, -, -, -, -, hiff, hconnected⟩ :=
    restored_session (sampleConfig .other) .cleared hrun
  obtain ⟨hstate, heq, hgranted⟩ := hconnected fun hpristine => by
    have hpristine := hiff.mp hpristine
    simp [hfull, hmaster, hsession] at hpristine
  refine ⟨s, restored, hrun, hstate, heq, hgranted.resolve_left fun hfirst => ?_⟩
  cases hfirst.1

end Connection

end SnowflakeConnector
