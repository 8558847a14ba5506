import SnowflakeConnector.AuthOkta
import SnowflakeConnector.Service

/-!
# SnowflakeConnector.Service.Login

One login of `lib/services/sf.js`, from its first request on: the callback that
`StateConnecting.continue` installs, the timer of a retry, the authenticators that are
asked again, and the two handlers of the HTTP client that call `sendHttpRequest`'s
callback.  What the handler of a fulfilled request throws goes to the handler of a
rejected one, which calls that callback again; what the latter throws goes nowhere.

* `Variables.next` -- a retry always has time to sleep, and sleeps within the limit;
* `step_leads` -- what a step keeps, and which steps a login survives;
* `sound_iff_along` -- which runs call the callback once and stay within the budgets.
-/

namespace SnowflakeConnector

namespace Service

namespace Connecting

open SnowflakeService

/-! ## the configuration -/

/-- The connection options that a login depends on, and the host of the account. -/
structure Options where
  authenticator : Authenticator
  sfRetryMaxLoginRetries : Option Nat
  retryTimeout : Option Rat
  clientRequestMFAToken : Bool
  clientStoreTemporaryCredential : Bool
  disableSamlURLCheck : Bool
  host : String

/-- `ConnectionConfig`: a timeout is zero or at least 300 seconds; the first sleep is no option. -/
def Options.config (options : Options) : ConnectionConfig where
  authenticator := options.authenticator
  serverSessionKeepAlive := false
  retrySfMaxLoginRetries := options.sfRetryMaxLoginRetries.getD 7
  retryTimeout :=
    match options.retryTimeout with
    | none => 300
    | some retryTimeout => if retryTimeout ≠ 0 then max 300 retryTimeout else 0
  retrySfStartingSleepTime := 1
  clientRequestMFAToken := options.clientRequestMFAToken
  clientStoreTemporaryCredential := options.clientStoreTemporaryCredential

def Options.authOkta (options : Options) : AuthOkta where
  maxRetryTimeout := options.config.retryTimeout
  maxRetryCount := options.config.retrySfMaxLoginRetries
  disableSamlURLCheck := options.disableSamlURLCheck
  host := options.host

/-! ## the state -/

/-- The handler of the HTTP client that called: `then` or `catch`. -/
inductive Handler
  | fulfilled
  | rejected
  deriving DecidableEq, Repr

/-- What a login waits for: the answer to its request, the authenticator, the credential manager,
a new token for the next try, the timer. -/
inductive Awaited
  | answer (login : Login)
  | clearing (handler : Handler) (login : Login) (body : Body)
  | reauthenticating (handler : Handler) (login : Login)
  | writing (handler : Handler) (login : Login) (keys : List Credential)
  | refreshing (login : Login)
  | timer (login : Login)
  deriving DecidableEq, Repr

/-- A login.  All but `awaited` is a history: whether the service was disconnected, for each login
request whether it was when the request was sent, the timers set, the failed answers with the
variables of the login when they came, and the calls of the callback given to `connect`. -/
structure State where
  awaited : Option Awaited
  disconnected : Bool
  requests : List Bool
  sleeps : List Rat
  failures : List (Login × Err)
  called : List (Option Err)
  deriving DecidableEq, Repr

namespace State

/-- Go on when this comes back. -/
@[simps] def await (s : State) (awaited : Awaited) : State := { s with awaited := some awaited }

/-- Issue a login request. -/
@[simps] def sendRequest (s : State) (login : Login) : State :=
  { s with awaited := some (.answer login), requests := s.requests ++ [s.disconnected] }

/-- `setTimeout(sendRequest, sleep * 1000)`. -/
@[simps] def setTimeout (s : State) (login : Login) : State :=
  { s with awaited := some (.timer login), sleeps := s.sleeps ++ [login.sleep] }

/-- Call the callback given to `connect`. -/
@[simps] def finish (s : State) (err : Option Err) : State :=
  { s with awaited := none, called := s.called ++ [err] }

/-- A promise that nobody waits for is rejected. -/
@[simps] def lose (s : State) : State := { s with awaited := none }

/-- Before anything has been sent. -/
def start : State := ⟨none, false, [], [], [], []⟩

end State

open State

/-! ## the callbacks -/

/-- Store the credentials one after the other; with all of them stored the login is over. -/
def writeCredentials (s : State) (handler : Handler) (login : Login) : List Credential → State
  | [] => s.finish none
  | key :: keys => s.await (.writing handler login (key :: keys))

/-- The three numbers that a retry draws with `Math.random()`. -/
structure Draws where
  random : Rat × Rat × Rat
  first : 0 ≤ random.1 ∧ random.1 < 1
  second : 0 ≤ random.2.1 ∧ random.2.1 < 1
  third : 0 ≤ random.2.2 ∧ random.2.2 < 1

/-- The error can be one that another login may not have. -/
def mayRetry (err : Err) : Bool :=
  (Errors.isNetworkError (some err) || Errors.isRequestFailedError (some err)) &&
    isRetryableError err

/-- The callback that `StateConnecting.continue` installs.  `throws` is what its rejected promise
leads to. -/
def requestCallback (cfg : ConnectionConfig) (handler : Handler) (throws : Answer → State)
    (s : State) (login : Login) (err : Option Err) (body : Option Body) (draws : Draws) : State :=
  match err with
  | none =>
      match body.bind (·.data) with
      | none => throws ⟨some (.num 400001), none, none⟩
      | some data => writeCredentials s handler login (credentials cfg data)
  | some e =>
      let failed := { s with failures := s.failures ++ [(login, e)] }
      if retries cfg login e then
        let next := nextLogin cfg login draws.random
        -- it disconnects, and goes on
        let warned := if next.sleep ≤ 0 then { failed with disconnected := true } else failed
        match cfg.authenticator with
        | .okta => warned.await (.refreshing next)
        | .keypair => warned.await (.refreshing next)
        | _ => warned.setTimeout next
      else { failed with disconnected := true }.finish (some e)

/-- The callback of `sendHttpRequest`. -/
def answered (cfg : ConnectionConfig) (handler : Handler) (throws : Answer → State) (s : State)
    (login : Login) (answer : Answer) (draws : Draws) : State :=
  match receive cfg (.login login) answer ⟨0, draws.random⟩ with
  | .inl (.clearing _ body) => s.await (.clearing handler login body)
  | .inl _ => s.await (.reauthenticating handler login)
  | .inr d => requestCallback cfg handler throws s login d.err d.body draws

/-- What a rejected promise of that callback leads to; the error becomes an answer again. -/
def throws (cfg : ConnectionConfig) (handler : Handler) (s : State) (login : Login)
    (draws : Draws) (failure : Answer) : State :=
  match handler with
  | .fulfilled => answered cfg .rejected (fun _ => s.lose) s login failure draws
  | .rejected => s.lose

/-- A request is fulfilled by an answer with a status of 2xx. -/
def isFulfilled (answer : Answer) : Bool :=
  answer.err.isNone &&
    answer.response.any fun response => response.statusCode.any fun code => 200 ≤ code && code < 300

/-! ## the event loop -/

/-- What the login waits for comes back; a promise that is rejected comes back with a failure, as
the HTTP client passes it on. -/
inductive LoginEvent
  | answered (handler : Handler) (answer : Answer) (draws : Draws)
  | cleared (failure : Option Answer) (draws : Draws)
  | reauthenticated (failure : Option Answer) (draws : Draws)
  | written (failure : Option Answer) (draws : Draws)
  | refreshed (attempt : Nat → AuthOkta.Attempt)
  | woke

/-- The next try after the authenticator's `reauthenticate`.  The one of a key pair does not wait
for the new token, so it never fails. -/
def refreshed (options : Options) (s : State) (login : Login) (attempt : Nat → AuthOkta.Attempt) :
    State :=
  match options.authenticator with
  | .okta =>
      match options.authOkta.reauthenticate attempt login.numRetries login.totalElapsedTime with
      | .ok (numRetries, totalElapsedTime) =>
          s.setTimeout { login with numRetries, totalElapsedTime }
      | .error _ => s.lose
  | _ => s.setTimeout login

def step (options : Options) (s : State) (e : LoginEvent) : Option State :=
  let cfg := options.config
  match s.awaited, e with
  | some (.answer login), .answered handler answer draws =>
      if handler = .fulfilled ∧ isFulfilled answer = false then none
      else some (answered cfg handler (throws cfg handler s login draws) s login answer draws)
  | some (.clearing handler login body), .cleared failure draws =>
      match failure with
      | some failure => some (throws cfg handler s login draws failure)
      | none =>
          match receiveCleared cfg (.login login) body ⟨0, draws.random⟩ with
          | .inl _ => some (s.await (.reauthenticating handler login))
          | .inr d =>
              some (requestCallback cfg handler (throws cfg handler s login draws) s login d.err
                d.body draws)
  | some (.reauthenticating handler login), .reauthenticated failure draws =>
      match failure with
      | some failure => some (throws cfg handler s login draws failure)
      | none => some (s.sendRequest login)
  | some (.writing handler login keys), .written failure draws =>
      match failure with
      | some failure => some (throws cfg handler s login draws failure)
      | none => some (writeCredentials s handler login keys.tail)
  | some (.refreshing login), .refreshed attempt => some (refreshed options s login attempt)
  | some (.timer login), .woke => some (s.sendRequest login)
  | _, _ => none

/-- The first request of a login. -/
def init (options : Options) (op : Op) : State :=
  start.sendRequest ⟨op, 0, options.config.retrySfStartingSleepTime, 0⟩

/-! ## what a step can do -/

/-- The authenticators that GS can ask for a new authentication. -/
def isRenewable : Authenticator → Bool
  | .idToken => true
  | .oauthAuthorizationCode => true
  | _ => false

/-- A success without its data. -/
def lacksData (answer : Answer) : Bool :=
  (answerError answer).isNone && answer.body.all fun body => body.success && body.data.isNone

/-- The login whose callback is being called, or is about to be. -/
def Awaited.running : Awaited → Option Login
  | .answer login => some login
  | .clearing _ login _ => some login
  | .reauthenticating _ login => some login
  | .writing _ login _ => some login
  | _ => none

/-- GS has been asked for a new authentication, or may be. -/
def Awaited.renews : Awaited → Bool
  | .clearing _ _ _ => true
  | .reauthenticating _ _ => true
  | _ => false

/-- How many steps can follow before a request is sent. -/
def Awaited.weight : Awaited → Nat
  | .answer _ => 6
  | .clearing .fulfilled _ _ => 5
  | .clearing .rejected _ _ => 3
  | .reauthenticating .fulfilled _ => 4
  | .reauthenticating .rejected _ => 1
  | .writing .fulfilled _ keys => 3 + keys.length
  | .writing .rejected _ keys => keys.length
  | .refreshing _ => 2
  | .timer _ => 1

@[simp] theorem weight_answer (login : Login) : (Awaited.answer login).weight = 6 := rfl

@[simp] theorem weight_refreshing (login : Login) : (Awaited.refreshing login).weight = 2 := rfl

@[simp] theorem weight_timer (login : Login) : (Awaited.timer login).weight = 1 := rfl

/-- What a call of the callback can lead to: the login is over, waits for something of less than
the given weight, tries again or gives up. -/
inductive Next (cfg : ConnectionConfig) (s : State) (login : Login) (weight : Nat) : State → Prop
  | connected : Next cfg s login weight (s.finish none)
  | wait (awaited : Awaited) (hrunning : awaited.running = some login)
      (hrenews : awaited.renews = true → isRenewable cfg.authenticator = true)
      (hkeys : ∀ handler keys, awaited = .writing handler login keys → keys ≠ [])
      (hweight : awaited.weight < weight) : Next cfg s login weight (s.await awaited)
  | refresh (e : Err) (draws : Draws) (hretries : retries cfg login e = true)
      (hweight : 2 < weight) :
      Next cfg s login weight
        ({ s with failures := s.failures ++ [(login, e)] }.await
          (.refreshing (nextLogin cfg login draws.random)))
  | sleep (e : Err) (draws : Draws) (hretries : retries cfg login e = true)
      (hweight : 1 < weight) :
      Next cfg s login weight
        ({ s with failures := s.failures ++ [(login, e)] }.setTimeout
          (nextLogin cfg login draws.random))
  | giveUp (e : Err) (hretries : retries cfg login e = false) :
      Next cfg s login weight
        ({ s with failures := s.failures ++ [(login, e)], disconnected := true }.finish (some e))

variable {cfg : ConnectionConfig} {options : Options} {s t : State} {login : Login}

theorem Next.mono {v w : Nat} (h : Next cfg s login v t) (hle : v ≤ w) : Next cfg s login w t := by
  cases h with
  | connected => exact .connected
  | wait awaited hrunning hrenews hkeys hweight =>
      exact .wait awaited hrunning hrenews hkeys (by omega)
  | refresh e draws hretries hweight => exact .refresh e draws hretries (by omega)
  | sleep e draws hretries hweight => exact .sleep e draws hretries (by omega)
  | giveUp e hretries => exact .giveUp e hretries

/-- Not more credentials are stored than there are. -/
theorem length_credentials (cfg : ConnectionConfig) (data : SessionData) :
    (credentials cfg data).length ≤ 2 := by
  unfold credentials
  split_ifs <;> simp

theorem writeCredentials_next {handler : Handler} {keys : List Credential} {weight : Nat}
    (hweight : (Awaited.writing handler login keys).weight < weight) :
    Next cfg s login weight (writeCredentials s handler login keys) := by
  cases keys with
  | nil => exact .connected
  | cons key keys =>
      refine .wait _ rfl (by simp [Awaited.renews]) (fun handler keys h => ?_) hweight
      simp only [Awaited.writing.injEq] at h
      simp [← h.2.2]

/-! ## a retry has time to sleep -/

theorem chooseRandom_le {random a b c : Rat} (hrandom : 0 ≤ random ∧ random < 1) (ha : a ≤ c)
    (hb : b ≤ c) : chooseRandom random a b ≤ c := by
  unfold chooseRandom
  nlinarith [hrandom.1, hrandom.2]

theorem lt_chooseRandom {random a b c : Rat} (hrandom : 0 ≤ random ∧ random < 1) (ha : c < a)
    (hb : c < b) : c < chooseRandom random a b := by
  unfold chooseRandom
  nlinarith [hrandom.1, hrandom.2]

/-- A jitter is at most half of the sleep, to either side. -/
theorem getJitter_mem {random sleep : Rat} (hrandom : 0 ≤ random ∧ random < 1) (h : 0 < sleep) :
    -(sleep / 2) ≤ getJitter random sleep ∧ getJitter random sleep ≤ sleep / 2 := by
  unfold getJitter chooseRandom
  constructor <;> nlinarith [hrandom.1, hrandom.2]

/-- A sleep of at most two thirds of the next power of two is followed by one of at most two
thirds of the power after that, and is positive. -/
theorem getNextSleepTime_mem (draws : Draws) {n : Nat} {sleep : Rat} (hpos : 0 < sleep)
    (hle : 3 * sleep ≤ 2 * 2 ^ n) :
    0 < getNextSleepTime draws.random n sleep ∧
      3 * getNextSleepTime draws.random n sleep ≤ 4 * 2 ^ n := by
  obtain ⟨hlow, hhigh⟩ := getJitter_mem draws.first hpos
  obtain ⟨hlow', hhigh'⟩ := getJitter_mem draws.second hpos
  have hpow : (((2 ^ n : Nat) : Rat)) = 2 ^ n := by push_cast; rfl
  unfold getNextSleepTime
  rw [hpow]
  constructor
  · exact lt_chooseRandom draws.third (by linarith) (by linarith)
  · have := chooseRandom_le (c := 4 * 2 ^ n / 3) draws.third
      (a := sleep + getJitter draws.random.1 sleep)
      (b := 2 ^ n + getJitter draws.random.2.1 sleep) (by linarith) (by linarith)
    linarith

/-- The variables of a login between two tries: the sleep is positive and small against the number
of retries, and the time that was slept is accounted for. -/
structure Variables (cfg : ConnectionConfig) (slept : Rat) (login : Login) : Prop where
  sleep_pos : 0 < login.sleep
  sleep_le : 3 * login.sleep ≤ 4 * 2 ^ login.numRetries
  elapsed : slept ≤ login.totalElapsedTime
  count : login.numRetries ≤ cfg.retrySfMaxLoginRetries

/-- A retry has time to sleep, and sleeps within the limit. -/
theorem Variables.next {slept : Rat} (h : Variables cfg slept login) {e : Err} (draws : Draws)
    (hretries : retries cfg login e = true) :
    Variables cfg slept (nextLogin cfg login draws.random) ∧
      (nextLogin cfg login draws.random).numRetries = login.numRetries + 1 ∧
      slept + (nextLogin cfg login draws.random).sleep ≤
        (nextLogin cfg login draws.random).totalElapsedTime ∧
      (cfg.retryTimeout ≠ 0 →
        slept + (nextLogin cfg login draws.random).sleep ≤ cfg.retryTimeout) := by
  simp only [retries, Bool.and_eq_true, Bool.or_eq_true, decide_eq_true_eq] at hretries
  obtain ⟨⟨⟨-, hcount⟩, -⟩, htime⟩ := hretries
  obtain ⟨hpos, hle⟩ := getNextSleepTime_mem draws (n := login.numRetries + 1) h.sleep_pos
    (by rw [pow_succ]; linarith [h.sleep_le])
  set next := nextLogin cfg login draws.random with hnext
  have hsleep : next.sleep = if cfg.retryTimeout ≠ 0 then
      min (cfg.retryTimeout - login.totalElapsedTime)
        (getNextSleepTime draws.random (login.numRetries + 1) login.sleep)
      else getNextSleepTime draws.random (login.numRetries + 1) login.sleep := rfl
  have htotal : next.totalElapsedTime = login.totalElapsedTime + next.sleep := rfl
  have hnum : next.numRetries = login.numRetries + 1 := rfl
  have helapsed := h.elapsed
  have hmin : 0 < next.sleep ∧
      next.sleep ≤ getNextSleepTime draws.random (login.numRetries + 1) login.sleep := by
    rw [hsleep]
    split_ifs with hlimited
    · have := htime.resolve_left hlimited
      exact ⟨lt_min (by linarith) hpos, min_le_right _ _⟩
    · exact ⟨hpos, le_rfl⟩
  refine ⟨⟨hmin.1, ?_, by linarith [hmin.1], by omega⟩, hnum, by linarith, fun hlimited => ?_⟩
  · rw [hnum]
    linarith [hmin.2]
  · have : next.sleep ≤ cfg.retryTimeout - login.totalElapsedTime := by
      rw [hsleep, if_pos hlimited]
      exact min_le_left _ _
    linarith

/-! ## the callbacks, once and for all -/

/-- A failed answer: another try, or the end of the login. -/
theorem requestCallback_error (handler : Handler) (throws : Answer → State) (e : Err)
    (body : Option Body) (draws : Draws) {slept : Rat} {weight : Nat}
    (hvariables : Variables cfg slept login) (hweight : 2 < weight) :
    Next cfg s login weight (requestCallback cfg handler throws s login (some e) body draws) := by
  simp only [requestCallback]
  split_ifs with hretries hsleep
  · obtain ⟨hnext, -⟩ := hvariables.next draws hretries
    exact absurd hnext.sleep_pos (not_lt.mpr hsleep)
  · cases cfg.authenticator with
    | okta => exact .refresh e draws hretries hweight
    | keypair => exact .refresh e draws hretries hweight
    | _ => exact .sleep e draws hretries (by omega)
  · exact .giveUp e (by simpa using hretries)

/-- What asks for a new authentication is an answer to an authenticator that can renew its own. -/
theorem receive_inl {http : Http} {answer : Answer} {env : Env} {pending : Pending}
    (h : receive cfg http answer env = .inl pending) : isRenewable cfg.authenticator = true := by
  unfold receive at h
  split at h
  · contradiction
  · split at h
    · contradiction
    · split_ifs at h with hsuccess hoauth hneeds
      · rw [hoauth]
        rfl
      · cases hauth : cfg.authenticator with
        | idToken => rfl
        | oauthAuthorizationCode => rfl
        | _ => simp [hauth, needsReauth] at hneeds

/-- An answer that `sendHttpRequest`'s callback passes on: with an error, or as it is. -/
theorem receive_inr {http : Http} {answer : Answer} {env : Env} {d : Delivery}
    (h : receive cfg http answer env = .inr d) :
    (∃ e, d.err = some e) ∨ d.err = none ∧ d.body = answer.body ∧
      (lacksData answer = false → ∃ data, answer.body.bind (·.data) = some data) ∧
      (lacksData answer = true → answer.body.bind (·.data) = none) := by
  unfold receive at h
  split at h
  · next e he => exact .inl ⟨e, by rw [← Sum.inr.inj h]⟩
  · next he =>
      split at h
      · next hbody =>
          refine .inr ?_
          obtain rfl := Sum.inr.inj h
          simp [hbody, lacksData, he]
      · next body hbody =>
          split_ifs at h with hsuccess
          · refine .inr ?_
            obtain rfl := Sum.inr.inj h
            simp [hbody, lacksData, he, hsuccess, Option.isSome_iff_exists]
          · exact .inl ⟨_, by rw [← Sum.inr.inj h]⟩

/-- What follows a call by a handler weighs less than this. -/
def Handler.weight : Handler → Nat
  | .fulfilled => 6
  | .rejected => 4

theorem answered_next (handler : Handler) (throws : Answer → State) {answer : Answer}
    (draws : Draws) {slept : Rat} (hvariables : Variables cfg slept login)
    (hlacks : lacksData answer = false) :
    Next cfg s login handler.weight (answered cfg handler throws s login answer draws) := by
  unfold answered
  cases hreceive : receive cfg (.login login) answer ⟨0, draws.random⟩ with
  | inl pending =>
      have hrenewable := receive_inl hreceive
      have hreauthenticating : Next cfg s login handler.weight
          (s.await (.reauthenticating handler login)) :=
        .wait _ rfl (fun _ => hrenewable) (by simp)
          (by cases handler <;> simp [Awaited.weight, Handler.weight])
      cases pending with
      | clearing http body =>
          exact .wait _ rfl (fun _ => hrenewable) (by simp)
            (by cases handler <;> simp [Awaited.weight, Handler.weight])
      | _ => exact hreauthenticating
  | inr d =>
      obtain ⟨e, he⟩ | ⟨herr, hbody, hdata, -⟩ := receive_inr hreceive
      · simp only [he]
        exact requestCallback_error handler throws e d.body draws hvariables
          (by cases handler <;> decide)
      · obtain ⟨data, hdata⟩ := hdata hlacks
        simp only [requestCallback, herr, hbody, hdata]
        refine writeCredentials_next ?_
        have hlength := length_credentials cfg data
        cases handler <;> simp only [Awaited.weight, Handler.weight] <;> omega

/-- A success without its data makes the callback throw. -/
theorem answered_of_lacksData (handler : Handler) (throws : Answer → State) {answer : Answer}
    (draws : Draws) (hlacks : lacksData answer = true) :
    answered cfg handler throws s login answer draws = throws ⟨some (.num 400001), none, none⟩ := by
  simp only [lacksData, Bool.and_eq_true, Option.isNone_iff_eq_none, Option.all_eq_true] at hlacks
  obtain ⟨herror, hbody⟩ := hlacks
  cases hanswer : answer.body with
  | none => simp [answered, receive, herror, hanswer, requestCallback]
  | some body =>
      obtain ⟨hsuccess, hdata⟩ := hbody body hanswer
      simp [answered, receive, herror, hanswer, hsuccess, hdata, requestCallback]

/-- What the handler of a fulfilled request throws is a failed answer for the other handler. -/
theorem throws_next {failure : Answer} (draws : Draws) {slept : Rat}
    (hvariables : Variables cfg slept login) (hlacks : lacksData failure = false) :
    Next cfg s login 4 (throws cfg .fulfilled s login draws failure) :=
  answered_next .rejected _ draws hvariables hlacks

theorem throws_eq_lose {handler : Handler} {failure : Answer} (draws : Draws)
    (h : handler = .rejected ∨ lacksData failure = true) :
    throws cfg handler s login draws failure = s.lose := by
  cases handler with
  | rejected => rfl
  | fulfilled => exact answered_of_lacksData .rejected _ draws (h.resolve_left (by simp))

/-! ## the steps of a login -/

/-- The promise resolves, or the failure comes to the handler of rejected requests. -/
def Handled (handler : Handler) (failure : Option Answer) : Prop :=
  ∀ answer ∈ failure, handler = .fulfilled ∧ lacksData answer = false

/-- The step leads on: a success that the handler of rejected requests is told of has its data,
nothing that this handler waits for is rejected, the identity provider renews the login, and a
login that is sent once more for a new authentication has a request left. -/
def Harmless (options : Options) (s : State) (e : LoginEvent) : Prop :=
  match s.awaited, e with
  | some (.answer _), .answered handler answer _ =>
      handler = .rejected → lacksData answer = false
  | some (.clearing handler _ _), .cleared failure _ => Handled handler failure
  | some (.reauthenticating handler _), .reauthenticated failure _ =>
      Handled handler failure ∧
        (failure = none → s.requests.length ≤ options.config.retrySfMaxLoginRetries)
  | some (.writing handler _ _), .written failure _ => Handled handler failure
  | some (.refreshing login), .refreshed attempt =>
      options.authenticator = .okta →
        options.authOkta.Renews attempt login.numRetries login.totalElapsedTime
  | some (.timer _), .woke =>
      isRenewable options.authenticator = true →
        s.requests.length ≤ options.config.retrySfMaxLoginRetries
  | _, _ => True

/-- The login can be where it is, with so many requests sent and so much time slept. -/
def Awaited.Fits (cfg : ConnectionConfig) (sent : Nat) (slept : Rat) : Awaited → Prop
  | .answer login =>
      Variables cfg slept login ∧
        (isRenewable cfg.authenticator = false → sent ≤ login.numRetries + 1)
  | .clearing _ login _ => Variables cfg slept login ∧ isRenewable cfg.authenticator = true
  | .reauthenticating _ login => Variables cfg slept login ∧ isRenewable cfg.authenticator = true
  | .writing _ login keys =>
      Variables cfg slept login ∧ keys ≠ [] ∧
        (isRenewable cfg.authenticator = false → sent ≤ login.numRetries + 1)
  | .refreshing login =>
      Variables cfg slept login ∧ slept + login.sleep ≤ login.totalElapsedTime ∧
        (cfg.retryTimeout ≠ 0 → slept + login.sleep ≤ cfg.retryTimeout) ∧
        (isRenewable cfg.authenticator = false → sent ≤ login.numRetries)
  | .timer login =>
      Variables cfg slept login ∧
        (isRenewable cfg.authenticator = false → sent ≤ login.numRetries)

/-- What every login keeps: it has not disconnected while it goes on, its variables account for
what was sent and slept, and it was given up for a reason. -/
structure State.Inv (cfg : ConnectionConfig) (s : State) : Prop where
  alive : s.awaited ≠ none → s.disconnected = false ∧ s.called = []
  connected : true ∉ s.requests
  fits : ∀ awaited ∈ s.awaited, awaited.Fits cfg s.requests.length s.sleeps.sum
  nonneg : 0 ≤ s.sleeps.sum
  slept : cfg.retryTimeout ≠ 0 → s.sleeps.sum ≤ cfg.retryTimeout
  given : ∀ e, some e ∈ s.called →
    ∃ login, s.failures.getLast? = some (login, e) ∧ retries cfg login e = false

/-- The callback has been called once, or the login goes on. -/
def State.Completes (s : State) : Prop := s.called.length = if s.awaited.isNone then 1 else 0

theorem Next.completes {weight : Nat} (h : Next cfg s login weight t) (hcalled : s.called = []) :
    t.Completes := by
  cases h <;> simp [State.Completes, hcalled]

/-- What the callback leads to, once a login fits. -/
theorem Next.inv {awaited : Awaited} {weight : Nat} (h : Next cfg s login weight t)
    (hs : s.Inv cfg) (hawaited : s.awaited = some awaited)
    (hrunning : awaited.running = some login) : t.Inv cfg := by
  obtain ⟨hconnected, hcalled⟩ := hs.alive (by simp [hawaited])
  have hfits := hs.fits awaited hawaited
  have hvariables : Variables cfg s.sleeps.sum login ∧
      (isRenewable cfg.authenticator = false → s.requests.length ≤ login.numRetries + 1) := by
    cases awaited <;> simp_all [Awaited.running, Awaited.Fits]
  obtain ⟨hvariables, hsent⟩ := hvariables
  cases h with
  | connected =>
      exact ⟨by simp, hs.connected, by simp, hs.nonneg, hs.slept, by simp [hcalled]⟩
  | wait next hnext hrenews hkeys hweight =>
      refine ⟨fun _ => ⟨hconnected, hcalled⟩, hs.connected, fun other hother => ?_, hs.nonneg,
        hs.slept, hs.given⟩
      obtain rfl := Option.some.inj hother
      cases next with
      | answer next =>
          obtain rfl := Option.some.inj hnext
          exact ⟨hvariables, hsent⟩
      | clearing handler next body =>
          obtain rfl := Option.some.inj hnext
          exact ⟨hvariables, hrenews rfl⟩
      | reauthenticating handler next =>
          obtain rfl := Option.some.inj hnext
          exact ⟨hvariables, hrenews rfl⟩
      | writing handler next keys =>
          obtain rfl := Option.some.inj hnext
          exact ⟨hvariables, hkeys handler keys rfl, hsent⟩
      | refreshing next => contradiction
      | timer next => contradiction
  | refresh e draws hretries hweight =>
      obtain ⟨hnext, hcount, htotal, hlimit⟩ := hvariables.next draws hretries
      refine ⟨fun _ => ⟨hconnected, hcalled⟩, hs.connected, fun other hother => ?_, hs.nonneg,
        hs.slept, by simp [hcalled]⟩
      obtain rfl := Option.some.inj hother
      exact ⟨hnext, htotal, hlimit, fun hother => hcount ▸ hsent hother⟩
  | sleep e draws hretries hweight =>
      obtain ⟨hnext, hcount, htotal, hlimit⟩ := hvariables.next draws hretries
      have hpos := hnext.sleep_pos
      have hnonneg := hs.nonneg
      refine ⟨fun _ => ⟨hconnected, hcalled⟩, hs.connected, fun other hother => ?_, ?_, ?_,
        by simp [hcalled]⟩
      · obtain rfl := Option.some.inj hother
        refine ⟨⟨hpos, hnext.sleep_le, ?_, hnext.count⟩, fun hother => hcount ▸ hsent hother⟩
        simpa using htotal
      · simp only [setTimeout_sleeps, List.sum_append, List.sum_singleton]
        linarith
      · simpa using hlimit
  | giveUp e hretries =>
      exact ⟨by simp, hs.connected, by simp, hs.nonneg, hs.slept,
        by simp [hcalled, hretries]⟩

/-- How many steps a login can take at most. -/
def State.measure (cfg : ConnectionConfig) (s : State) : Nat :=
  6 * (1 + cfg.retrySfMaxLoginRetries - s.requests.length) + (s.awaited.map Awaited.weight).getD 0

theorem Next.measure_lt {awaited : Awaited} {weight : Nat} (h : Next cfg s login weight t)
    (hawaited : s.awaited = some awaited) (hpos : 0 < weight) (hle : weight ≤ awaited.weight) :
    t.measure cfg < s.measure cfg ∧ t.requests = s.requests := by
  cases h with
  | wait next hnext hrenews hkeys hweight =>
      simp only [State.measure, hawaited, await_awaited, await_requests, Option.map_some,
        Option.getD_some, and_true]
      omega
  | _ =>
      simp [State.measure, hawaited]
      omega

/-! ## the other steps -/

theorem State.Inv.lose (hs : s.Inv cfg) : s.lose.Inv cfg :=
  ⟨by simp, hs.connected, by simp, hs.nonneg, hs.slept, hs.given⟩

/-- Nothing comes back to a lost login, and nobody was told. -/
theorem State.Inv.lose_completes (hs : s.Inv cfg) (hawaited : s.awaited ≠ none) :
    ¬ s.lose.Completes := by
  simp [State.Completes, (hs.alive hawaited).2]

theorem State.Inv.sendRequest (hs : s.Inv cfg) (hawaited : s.awaited ≠ none)
    (hvariables : Variables cfg s.sleeps.sum login)
    (hsent : isRenewable cfg.authenticator = false → s.requests.length ≤ login.numRetries) :
    (s.sendRequest login).Inv cfg ∧ (s.sendRequest login).Completes := by
  obtain ⟨hconnected, hcalled⟩ := hs.alive hawaited
  refine ⟨⟨fun _ => ⟨hconnected, hcalled⟩, ?_, fun other hother => ?_, hs.nonneg, hs.slept,
    hs.given⟩, by simp [State.Completes, hcalled]⟩
  · simp [hconnected, hs.connected]
  · obtain rfl := Option.some.inj hother
    refine ⟨hvariables, fun hrenewable => ?_⟩
    simpa using hsent hrenewable

/-- A request that is left is sent with the other steps of the login still ahead. -/
theorem measure_sendRequest (login : Login) {awaited : Awaited} (hawaited : s.awaited = some awaited)
    (hpos : 0 < awaited.weight) (h : s.requests.length ≤ cfg.retrySfMaxLoginRetries) :
    (s.sendRequest login).measure cfg < s.measure cfg ∧
      (s.sendRequest login).requests.length ≤ 1 + cfg.retrySfMaxLoginRetries := by
  simp only [State.measure, hawaited, sendRequest_awaited, sendRequest_requests, Option.map_some,
    Option.getD_some, List.length_append, List.length_singleton, weight_answer]
  omega

theorem State.Inv.setTimeout {awaited : Awaited} (hs : s.Inv cfg)
    (hawaited : s.awaited = some awaited) (hvariables : Variables cfg (s.sleeps.sum + login.sleep) login)
    (hlimit : cfg.retryTimeout ≠ 0 → s.sleeps.sum + login.sleep ≤ cfg.retryTimeout)
    (hsent : isRenewable cfg.authenticator = false → s.requests.length ≤ login.numRetries) :
    (s.setTimeout login).Inv cfg ∧ (s.setTimeout login).Completes := by
  obtain ⟨hconnected, hcalled⟩ := hs.alive (by simp [hawaited])
  have hpos := hvariables.sleep_pos
  have hnonneg := hs.nonneg
  refine ⟨⟨fun _ => ⟨hconnected, hcalled⟩, hs.connected, fun other hother => ?_, ?_, ?_, hs.given⟩,
    by simp [State.Completes, hcalled]⟩
  · obtain rfl := Option.some.inj hother
    exact ⟨by simpa using hvariables, hsent⟩
  · simp only [setTimeout_sleeps, List.sum_append, List.sum_singleton]
    linarith
  · simpa using hlimit

/-- A step leads to a state that keeps what every login keeps; when `P` holds the login has
completed or goes on, with fewer steps ahead and no request too many, and otherwise not. -/
def Leads (options : Options) (s t : State) (P : Prop) : Prop :=
  t.Inv options.config ∧
    (P → t.Completes ∧ t.measure options.config < s.measure options.config ∧
      (s.requests.length ≤ 1 + options.config.retrySfMaxLoginRetries →
        t.requests.length ≤ 1 + options.config.retrySfMaxLoginRetries)) ∧
    (¬ P → ¬ (t.Completes ∧ t.requests.length ≤ 1 + options.config.retrySfMaxLoginRetries))

theorem State.Inv.lose_leads {P : Prop} (hs : s.Inv options.config) (hawaited : s.awaited ≠ none)
    (hP : ¬ P) : Leads options s s.lose P :=
  ⟨hs.lose, fun h => absurd h hP, fun _ h => hs.lose_completes hawaited h.1⟩

theorem Next.leads {awaited : Awaited} {weight : Nat} {P : Prop}
    (h : Next options.config s login weight t) (hs : s.Inv options.config)
    (hawaited : s.awaited = some awaited) (hrunning : awaited.running = some login)
    (hpos : 0 < weight) (hle : weight ≤ awaited.weight) (hP : P) : Leads options s t P := by
  obtain ⟨hlt, hrequests⟩ := h.measure_lt hawaited hpos hle
  refine ⟨h.inv hs hawaited hrunning, fun _ => ⟨?_, hlt, by simp [hrequests]⟩, absurd hP⟩
  exact h.completes (hs.alive (by simp [hawaited])).2

/-- The variables of the login that is running. -/
theorem State.Inv.variables {awaited : Awaited} (hs : s.Inv cfg) (hawaited : s.awaited = some awaited)
    (hrunning : awaited.running = some login) : Variables cfg s.sleeps.sum login := by
  have hfits := hs.fits awaited hawaited
  cases awaited <;> simp_all [Awaited.running, Awaited.Fits]

/-- The callback throws, or what it waited for is rejected: the failure is passed on to the other
handler, or lost. -/
theorem throws_leads {awaited : Awaited} {handler : Handler} {failure : Answer} (draws : Draws)
    (hs : s.Inv options.config) (hawaited : s.awaited = some awaited)
    (hrunning : awaited.running = some login)
    (hweight : handler = .fulfilled → 4 ≤ awaited.weight) :
    Leads options s (throws options.config handler s login draws failure)
      (Handled handler (some failure)) := by
  by_cases hlost : handler = .rejected ∨ lacksData failure = true
  · rw [throws_eq_lose draws hlost]
    refine hs.lose_leads (by simp [hawaited]) fun hhandled => ?_
    obtain ⟨rfl, hdata⟩ := hhandled failure rfl
    simp [hdata] at hlost
  · simp only [not_or, Bool.not_eq_true] at hlost
    obtain rfl : handler = .fulfilled := by cases handler <;> simp_all
    have hnext := throws_next (s := s) draws (hs.variables hawaited hrunning) hlost.2
    refine hnext.leads hs hawaited hrunning (by omega) (hweight rfl) fun answer hanswer => ?_
    obtain rfl := Option.some.inj hanswer
    exact ⟨rfl, hlost.2⟩

theorem Leads.congr {P Q : Prop} (h : Leads options s t P) (hPQ : P ↔ Q) : Leads options s t Q := by
  rwa [← propext hPQ]

/-- The answer to a request. -/
theorem answered_leads (hs : s.Inv options.config) (hawaited : s.awaited = some (.answer login))
    (handler : Handler) (answer : Answer) (draws : Draws) :
    Leads options s
      (answered options.config handler (throws options.config handler s login draws) s login answer
        draws)
      (handler = .rejected → lacksData answer = false) := by
  cases hlacks : lacksData answer with
  | false =>
      refine (answered_next handler _ draws (hs.variables hawaited rfl) hlacks).leads hs hawaited rfl
        ?_ ?_ fun _ => rfl
      · cases handler <;> decide
      · cases handler <;> simp [Handler.weight]
  | true =>
      rw [answered_of_lacksData handler _ draws hlacks]
      refine (throws_leads draws hs hawaited rfl (by simp)).congr ?_
      cases handler <;> simp [Handled, lacksData, answerError]

/-- A cached access token has been cleared. -/
theorem cleared_leads {handler : Handler} {body : Body} (hs : s.Inv options.config)
    (hawaited : s.awaited = some (.clearing handler login body)) {failure : Option Answer}
    {draws : Draws} (h : step options s (.cleared failure draws) = some t) :
    Leads options s t (Handled handler failure) := by
  have hvariables := hs.variables hawaited rfl
  have hrenewable := (hs.fits _ hawaited).2
  cases failure with
  | some failure =>
      simp only [step, hawaited, Option.some.injEq] at h
      subst h
      exact throws_leads draws hs hawaited rfl (by rintro rfl; simp [Awaited.weight])
  | none =>
      have hhandled : Handled handler none := by simp [Handled]
      have hweight : (Awaited.reauthenticating handler login).weight <
          (Awaited.clearing handler login body).weight ∧
          2 < (Awaited.clearing handler login body).weight := by
        cases handler <;> simp [Awaited.weight]
      simp only [step, hawaited, receiveCleared] at h
      split_ifs at h with hneeds
      · obtain rfl := Option.some.inj h
        exact (Next.wait _ rfl (fun _ => hrenewable) (by simp) hweight.1).leads hs hawaited rfl
          (by omega) le_rfl hhandled
      · obtain rfl := Option.some.inj h
        exact (requestCallback_error handler _ _ _ draws hvariables hweight.2).leads hs hawaited rfl
          (by omega) le_rfl hhandled

/-- The authenticator has been asked for a new authentication. -/
theorem reauthenticated_leads {handler : Handler} (hs : s.Inv options.config)
    (hawaited : s.awaited = some (.reauthenticating handler login)) {failure : Option Answer}
    {draws : Draws} (h : step options s (.reauthenticated failure draws) = some t) :
    Leads options s t (Handled handler failure ∧
      (failure = none → s.requests.length ≤ options.config.retrySfMaxLoginRetries)) := by
  obtain ⟨hvariables, hrenewable⟩ := hs.fits _ hawaited
  cases failure with
  | some failure =>
      simp only [step, hawaited, Option.some.injEq] at h
      subst h
      refine (throws_leads draws hs hawaited rfl ?_).congr (by simp)
      rintro rfl
      simp [Awaited.weight]
  | none =>
      simp only [step, hawaited, Option.some.injEq] at h
      subst h
      obtain ⟨hinv, hcompletes⟩ := hs.sendRequest (by simp [hawaited]) hvariables
        (by simp [hrenewable])
      refine ⟨hinv, fun ⟨_, hleft⟩ => ⟨hcompletes, ?_⟩, fun hleft hrequests => hleft ?_⟩
      · obtain ⟨hlt, hle⟩ := measure_sendRequest login hawaited
          (by cases handler <;> simp [Awaited.weight]) (hleft rfl)
        exact ⟨hlt, fun _ => hle⟩
      · have := hrequests.2
        rw [sendRequest_requests, List.length_append, List.length_singleton] at this
        exact ⟨by simp [Handled], fun _ => by omega⟩

/-- A credential has been stored. -/
theorem written_leads {handler : Handler} {keys : List Credential} (hs : s.Inv options.config)
    (hawaited : s.awaited = some (.writing handler login keys)) {failure : Option Answer}
    {draws : Draws} (h : step options s (.written failure draws) = some t) :
    Leads options s t (Handled handler failure) := by
  obtain ⟨hvariables, hkeys, -⟩ := hs.fits _ hawaited
  obtain ⟨key, rest, rfl⟩ := List.exists_cons_of_ne_nil hkeys
  cases failure with
  | some failure =>
      simp only [step, hawaited, Option.some.injEq] at h
      subst h
      refine throws_leads draws hs hawaited rfl ?_
      rintro rfl
      simp only [Awaited.weight, List.length_cons]
      omega
  | none =>
      simp only [step, hawaited, Option.some.injEq, List.tail_cons] at h
      subst h
      have hweight : (Awaited.writing handler login rest).weight <
          (Awaited.writing handler login (key :: rest)).weight := by
        cases handler <;> simp [Awaited.weight]
      exact (writeCredentials_next hweight).leads hs hawaited rfl (by omega) le_rfl
        (by simp [Handled])

/-- The token for the next try has been asked for. -/
theorem refreshed_leads (hs : s.Inv options.config) (hawaited : s.awaited = some (.refreshing login))
    (attempt : Nat → AuthOkta.Attempt) :
    Leads options s (refreshed options s login attempt)
      (options.authenticator = .okta →
        options.authOkta.Renews attempt login.numRetries login.totalElapsedTime) := by
  obtain ⟨hvariables, htotal, hlimit, hsent⟩ := hs.fits _ hawaited
  have hpos : 0 < login.totalElapsedTime := by
    linarith [hs.nonneg, hvariables.sleep_pos]
  -- a timer is set for a login that has not become smaller
  have hset : ∀ next : Login, next.sleep = login.sleep → login.numRetries ≤ next.numRetries →
      next.numRetries ≤ options.config.retrySfMaxLoginRetries →
      login.totalElapsedTime ≤ next.totalElapsedTime → ∀ {P : Prop}, P →
      Leads options s (s.setTimeout next) P := by
    intro next hsleep hnum hmax htime P hP
    have hpow : (2 : Rat) ^ login.numRetries ≤ 2 ^ next.numRetries :=
      pow_le_pow_right₀ (by norm_num) hnum
    have hnext : Variables options.config (s.sleeps.sum + next.sleep) next :=
      ⟨hsleep ▸ hvariables.sleep_pos, by linarith [hvariables.sleep_le], by linarith, hmax⟩
    obtain ⟨hinv, hcompletes⟩ := hs.setTimeout hawaited hnext
      (fun hlimited => hsleep ▸ hlimit hlimited) (fun hrenewable => (hsent hrenewable).trans hnum)
    refine ⟨hinv, fun _ => ⟨hcompletes, ?_, id⟩, absurd hP⟩
    simp [State.measure, hawaited]
  unfold refreshed
  cases hauth : options.authenticator with
  | okta =>
      simp only [forall_const]
      cases hokta : options.authOkta.reauthenticate attempt login.numRetries
        login.totalElapsedTime with
      | error message =>
          refine hs.lose_leads (by simp [hawaited]) fun hrenews => ?_
          obtain ⟨retryOption, hok⟩ := AuthOkta.reauthenticate_of_renews hrenews
          simp [hokta] at hok
      | ok retryOption =>
          obtain ⟨hrenews, hnum, hmax, htime⟩ := AuthOkta.renews_of_reauthenticate hpos hokta
          exact hset { login with numRetries := retryOption.1, totalElapsedTime := retryOption.2 } rfl
            hnum hmax htime hrenews
  | _ => exact hset login rfl le_rfl hvariables.count le_rfl (by simp)

/-- The timer of a retry. -/
theorem woke_leads (hs : s.Inv options.config) (hawaited : s.awaited = some (.timer login)) :
    Leads options s (s.sendRequest login) (isRenewable options.authenticator = true →
      s.requests.length ≤ options.config.retrySfMaxLoginRetries) := by
  obtain ⟨hvariables, hsent⟩ := hs.fits _ hawaited
  obtain ⟨hinv, hcompletes⟩ := hs.sendRequest (by simp [hawaited]) hvariables hsent
  have hleft : (isRenewable options.authenticator = true →
      s.requests.length ≤ options.config.retrySfMaxLoginRetries) ↔
      s.requests.length ≤ options.config.retrySfMaxLoginRetries := by
    refine ⟨fun h => ?_, fun h _ => h⟩
    cases hrenewable : isRenewable options.authenticator with
    | true => exact h hrenewable
    | false => exact (hsent hrenewable).trans hvariables.count
  rw [hleft]
  refine ⟨hinv, fun hle => ⟨hcompletes, ?_⟩, fun hle hrequests => hle ?_⟩
  · obtain ⟨hlt, hle⟩ := measure_sendRequest login hawaited (by simp) hle
    exact ⟨hlt, fun _ => hle⟩
  · have := hrequests.2
    rw [sendRequest_requests, List.length_append, List.length_singleton] at this
    omega

/-- Every step of a login. -/
theorem step_leads {e : LoginEvent} (hs : s.Inv options.config) (h : step options s e = some t) :
    Leads options s t (Harmless options s e) := by
  cases hawaited : s.awaited with
  | none => simp [step, hawaited] at h
  | some awaited =>
      unfold Harmless
      rw [hawaited]
      cases awaited with
      | answer login =>
          cases e with
          | answered handler answer draws =>
              simp only [step, hawaited] at h
              split_ifs at h with hfulfilled
              obtain rfl := Option.some.inj h
              exact answered_leads hs hawaited handler answer draws
          | _ => simp [step, hawaited] at h
      | clearing handler login body =>
          cases e with
          | cleared failure draws => exact cleared_leads hs hawaited h
          | _ => simp [step, hawaited] at h
      | reauthenticating handler login =>
          cases e with
          | reauthenticated failure draws => exact reauthenticated_leads hs hawaited h
          | _ => simp [step, hawaited] at h
      | writing handler login keys =>
          cases e with
          | written failure draws => exact written_leads hs hawaited h
          | _ => simp [step, hawaited] at h
      | refreshing login =>
          cases e with
          | refreshed attempt =>
              simp only [step, hawaited, Option.some.injEq] at h
              subst h
              exact refreshed_leads hs hawaited attempt
          | _ => simp [step, hawaited] at h
      | timer login =>
          cases e with
          | woke =>
              simp only [step, hawaited, Option.some.injEq] at h
              subst h
              exact woke_leads hs hawaited
          | _ => simp [step, hawaited] at h

/-! ## runs -/

/-- A login that is called back once and stays within its budgets: of its requests, of its time
when that is limited, and of its retries alone when it is not. -/
structure State.Sound (cfg : ConnectionConfig) (s : State) : Prop where
  once : s.called.length = if s.awaited.isNone then 1 else 0
  requests : s.requests.length ≤ 1 + cfg.retrySfMaxLoginRetries
  connected : cfg.retryTimeout ≠ 0 → true ∉ s.requests
  slept : cfg.retryTimeout ≠ 0 → s.sleeps.sum ≤ cfg.retryTimeout
  given : cfg.retryTimeout = 0 → ∀ e, some e ∈ s.called →
    ∃ login, s.failures.getLast? = some (login, e) ∧
      (mayRetry e = false ∨ cfg.retrySfMaxLoginRetries ≤ login.numRetries)

theorem State.Inv.sound_iff (hs : s.Inv cfg) :
    s.Sound cfg ↔ s.Completes ∧ s.requests.length ≤ 1 + cfg.retrySfMaxLoginRetries := by
  refine ⟨fun h => ⟨h.once, h.requests⟩, fun h => ⟨h.1, h.2, fun _ => hs.connected, hs.slept, ?_⟩⟩
  intro hunlimited e he
  obtain ⟨login, hlast, hretries⟩ := hs.given e he
  refine ⟨login, hlast, ?_⟩
  by_contra hno
  simp only [not_or, Bool.not_eq_false, not_le, mayRetry, Bool.and_eq_true] at hno
  simp [retries, hno.1.1, hno.1.2, hno.2, hunlimited] at hretries

theorem inv_init (options : Options) (op : Op) : (init options op).Inv options.config := by
  have hvariables : Variables options.config 0 ⟨op, 0, 1, 0⟩ :=
    ⟨by norm_num, by norm_num, le_rfl, Nat.zero_le _⟩
  refine ⟨by simp [init, start], by simp [init, start], fun awaited hawaited => ?_,
    by simp [init, start], fun hlimited => ?_, by simp [init, start]⟩
  · obtain rfl := Option.some.inj hawaited
    exact ⟨by simpa [init, start, Options.config] using hvariables, by simp [init, start]⟩
  · simp only [init, sendRequest_sleeps, start, List.sum_nil]
    unfold Options.config
    dsimp only
    split
    · norm_num
    · split_ifs with hzero
      · exact le_max_of_le_left (by norm_num)
      · exact le_rfl

/-- A login waits for nothing exactly when nothing can happen any more. -/
theorem quiescent_iff (options : Options) (s : State) :
    Lts.Quiescent (step options) s ↔ s.awaited = none := by
  constructor
  · intro h
    cases hawaited : s.awaited with
    | none => rfl
    | some awaited =>
        have draws : Draws := ⟨⟨0, 0, 0⟩, by norm_num, by norm_num, by norm_num⟩
        cases awaited with
        | answer login =>
            have := h (.answered .rejected ⟨none, none, none⟩ draws)
            simp [step, hawaited] at this
        | clearing handler login body =>
            have := h (.cleared (some ⟨none, none, none⟩) draws)
            simp [step, hawaited] at this
        | reauthenticating handler login =>
            have := h (.reauthenticated none draws)
            simp [step, hawaited] at this
        | writing handler login keys =>
            have := h (.written none draws)
            simp [step, hawaited] at this
        | refreshing login =>
            have := h (.refreshed fun _ => ⟨0, none⟩)
            simp [step, hawaited] at this
        | timer login =>
            have := h .woke
            simp [step, hawaited] at this
  · intro hawaited e
    simp [step, hawaited]

/-- A harmless step of a sound login. -/
theorem sound_step {e : LoginEvent} (hs : s.Inv options.config) (hsound : s.Sound options.config)
    (he : Harmless options s e) (h : step options s e = some t) :
    t.Inv options.config ∧ t.Sound options.config ∧
      t.measure options.config < s.measure options.config := by
  obtain ⟨hinv, hharmless, -⟩ := step_leads hs h
  obtain ⟨hcompletes, hlt, hrequests⟩ := hharmless he
  exact ⟨hinv, hinv.sound_iff.mpr ⟨hcompletes, hrequests hsound.requests⟩, hlt⟩

/-- A login stays within its budgets in every state exactly when all of its steps are harmless.
Then it takes a bounded number of steps, and when nothing can happen any more its callback has
been called exactly once. -/
theorem sound_iff_along (options : Options) (op : Op) {es : List LoginEvent}
    (h : Lts.exec (step options) (init options op) es = some t) :
    (Lts.Always (step options) (State.Sound options.config) (init options op) es ↔
        Lts.Along (step options) (Harmless options) (init options op) es) ∧
      (Lts.Along (step options) (Harmless options) (init options op) es →
        es.length ≤ 6 * (1 + options.config.retrySfMaxLoginRetries) ∧
          (Lts.Quiescent (step options) t → t.called.length = 1)) := by
  have hinit := inv_init options op
  have hbegin : (init options op).Sound options.config :=
    hinit.sound_iff.mpr ⟨rfl, by simp [init, start]⟩
  constructor
  · refine Lts.always_iff_along (fun s e t (hs : s.Inv options.config) hstep => ?_)
      (fun s e t hs hsound hstep => ?_) hinit hbegin h
    · exact (step_leads hs hstep).1
    · obtain ⟨hinv, -, hharmful⟩ := step_leads hs hstep
      refine ⟨fun hnext => ?_, fun he => (sound_step hs hsound he hstep).2.1⟩
      by_contra hno
      exact hharmful hno (hinv.sound_iff.mp hnext)
  · intro halong
    constructor
    · have hlength : (es.filter fun _ => true).length + t.measure options.config ≤
          (init options op).measure options.config :=
        Lts.length_filter_le
          (fun s e t (hs : s.Inv options.config ∧ s.Sound options.config) he hstep => by
            obtain ⟨hinv, hnext, hlt⟩ := sound_step hs.1 hs.2 he hstep
            exact ⟨⟨hinv, hnext⟩, by simpa using hlt⟩)
          ⟨hinit, hbegin⟩ halong h
      have hmeasure : (init options op).measure options.config =
          6 * (1 + options.config.retrySfMaxLoginRetries) := by
        simp [State.measure, init, start]
        omega
      rw [List.filter_true] at hlength
      omega
    · intro hquiescent
      have hend := Lts.exec_invariant_of_along
        (fun s e t (hs : s.Inv options.config ∧ s.Sound options.config) he hstep =>
          (sound_step hs.1 hs.2 he hstep).imp_right And.left) ⟨hinit, hbegin⟩ halong h
      rw [hend.2.once, (quiescent_iff options t).mp hquiescent]
      rfl

/-! ## two logins -/

/-- The options of a login that is not limited in time, with the checks that come with it. -/
def unlimitedOptions (authenticator : Authenticator) : Options where
  authenticator
  sfRetryMaxLoginRetries := none
  retryTimeout := some 0
  clientRequestMFAToken := false
  clientStoreTemporaryCredential := false
  disableSamlURLCheck := true
  host := "account.snowflakecomputing.com"

def evenDraws : Draws :=
  ⟨⟨1 / 2, 1 / 2, 1 / 2⟩, by norm_num, by norm_num, by norm_num⟩

/-- No answer comes, and then a success. -/
def secondTry : List LoginEvent :=
  [.answered .rejected .network evenDraws, .woke,
    .answered .fulfilled (.success (some sampleData)) evenDraws]

/-- The second try of a login with a password succeeds. -/
theorem secondTry_sound :
    ∃ t, Lts.exec (step (unlimitedOptions .other)) (init (unlimitedOptions .other) ⟨.connect, 0⟩)
        secondTry = some t ∧ t.called = [none] ∧
      Lts.Always (step (unlimitedOptions .other)) (State.Sound (unlimitedOptions .other).config)
        (init (unlimitedOptions .other) ⟨.connect, 0⟩) secondTry := by
  obtain ⟨t, ht, hcalled⟩ : ∃ t, Lts.exec (step (unlimitedOptions .other))
      (init (unlimitedOptions .other) ⟨.connect, 0⟩) secondTry = some t ∧ t.called = [none] :=
    Lts.exists_exec (by decide +kernel)
  have hharmless : ∀ s, ∀ e ∈ secondTry, Harmless (unlimitedOptions .other) s e := by
    intro s e he
    simp only [secondTry, List.mem_cons, List.not_mem_nil, or_false] at he
    obtain rfl | rfl | rfl := he <;> cases hawaited : s.awaited with
    | none => simp [Harmless, hawaited]
    | some awaited =>
        cases awaited <;> simp [Harmless, hawaited, unlimitedOptions, isRenewable] <;> rfl
  refine ⟨t, ht, hcalled, (sound_iff_along _ _ ht).1.mpr (Lts.along_of_forall hharmless)⟩

/-- The identity provider answers at once, and the login that is not limited in time is out of
time: its callback is never called. -/
theorem okta_login_lost :
    ∃ t, Lts.exec (step (unlimitedOptions .okta)) (init (unlimitedOptions .okta) ⟨.connect, 0⟩)
        [.answered .rejected .network evenDraws, .refreshed fun _ => ⟨0, some (some [])⟩] = some t ∧
      Lts.Quiescent (step (unlimitedOptions .okta)) t ∧ t.called = [] ∧
      ¬ t.Sound (unlimitedOptions .okta).config := by
  obtain ⟨t, ht, hawaited, hcalled⟩ : ∃ t, Lts.exec (step (unlimitedOptions .okta))
      (init (unlimitedOptions .okta) ⟨.connect, 0⟩)
        [.answered .rejected .network evenDraws, .refreshed fun _ => ⟨0, some (some [])⟩] = some t ∧
      t.awaited = none ∧ t.called = [] :=
    Lts.exists_exec (by decide +kernel)
  refine ⟨t, ht, (quiescent_iff _ _).mpr hawaited, hcalled, fun hsound => ?_⟩
  simpa [hcalled, hawaited] using hsound.once

end Connecting

end Service

end SnowflakeConnector
