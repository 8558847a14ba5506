import Mathlib
import SnowflakeConnector.Errors
import SnowflakeConnector.Lts

/-!
# SnowflakeConnector.Service

The Snowflake service of `lib/services/sf.js`: five states, the operation queue,
the tokens, and everything that outlives the state that started it -- HTTP
requests, the awaits inside their callbacks, the login timer, `nextTick` callbacks.

One event is one turn of the event loop up to the next point where code that is
not the service's runs: the user's callbacks may call the service again, so a
turn that calls one of them stops there and goes on when the callback returns.
The drain of the operation queue is such a turn, one queued operation a step.
-/

namespace SnowflakeConnector

namespace Service

/-- `GSErrors.code`. -/
def SESSION_TOKEN_INVALID : ErrCode := .str "390104"
def GONE_SESSION : ErrCode := .str "390111"
def SESSION_TOKEN_EXPIRED : ErrCode := .str "390112"
def OAUTH_TOKEN_INVALID : ErrCode := .str "390303"
def OAUTH_TOKEN_EXPIRED : ErrCode := .str "390318"
def MASTER_TOKEN_EXPIRED : ErrCode := .str "390114"
def ID_TOKEN_INVALID : ErrCode := .str "390195"

/-- The state objects of the service. -/
inductive SfState
  | pristine
  | connecting
  | connected
  | renewing
  | disconnected
  deriving DecidableEq, Repr

/-- The authenticator, as far as the service's `instanceof` tests tell them apart. -/
inductive Authenticator
  | okta
  | keypair
  | idToken
  | oauthAuthorizationCode
  | other
  deriving DecidableEq, Repr

/-- What the service reads of its connection config. -/
structure ConnectionConfig where
  authenticator : Authenticator
  serverSessionKeepAlive : Bool
  retrySfMaxLoginRetries : Nat
  retryTimeout : Rat
  retrySfStartingSleepTime : Rat
  clientRequestMFAToken : Bool
  clientStoreTemporaryCredential : Bool

/-! ## tokens -/

/-- The `data` of a login or renewal answer; a number field may be missing. -/
structure SessionData where
  masterToken : Option String
  token : Option String
  sessionToken : Option String
  masterValidityInSeconds : Option Int
  validityInSecondsMT : Option Int
  validityInSeconds : Option Int
  validityInSecondsST : Option Int
  mfaToken : Option String
  idToken : Option String
  sqlState : Option String
  deriving DecidableEq, Repr

/-- `TokenInfo`: `none` is `undefined`; an expiration time computed from a missing
validity is not a number, the inner `none`. -/
structure TokenInfo where
  masterToken : Option String
  sessionToken : Option String
  masterTokenExpirationTime : Option (Option Int)
  sessionTokenExpirationTime : Option (Option Int)
  deriving DecidableEq, Repr

/-- `a || b` on strings. -/
def orString (a b : Option String) : Option String :=
  match a.filter (· ≠ "") with
  | some s => some s
  | none => b

/-- `a || b` on numbers. -/
def orNumber (a b : Option Int) : Option Int :=
  match a.filter (· ≠ 0) with
  | some n => some n
  | none => b

def TokenInfo.isEmpty (t : TokenInfo) : Bool :=
  t.masterToken.isNone || t.masterTokenExpirationTime.isNone || t.sessionToken.isNone ||
    t.sessionTokenExpirationTime.isNone

/-- `clearTokens`: what the token information is afterwards. -/
def TokenInfo.cleared : TokenInfo := ⟨none, none, none, none⟩

/-- `update`: the token information that `data` makes at `currentTime`. -/
def TokenInfo.ofData (data : SessionData) (currentTime : Int) : TokenInfo where
  masterToken := data.masterToken
  sessionToken := orString data.token data.sessionToken
  masterTokenExpirationTime :=
    some ((orNumber data.masterValidityInSeconds data.validityInSecondsMT).map
      fun n => currentTime + 1000 * n)
  sessionTokenExpirationTime :=
    some ((orNumber data.validityInSeconds data.validityInSecondsST).map
      fun n => currentTime + 1000 * n)

/-! ## HTTP answers -/

/-- A parsed body. -/
structure Body where
  success : Bool
  code : ErrCode
  data : Option SessionData
  deriving DecidableEq, Repr

/-- A response; `innerCode` is the `code` of the JSON in its body text: `none`
without a text, `some none` when it does not parse. -/
structure Response where
  statusCode : Option Nat
  innerCode : Option (Option ErrCode)
  deriving DecidableEq, Repr

/-- The arguments with which the HTTP client answers a request; `err` keeps the
error's code. -/
structure Answer where
  err : Option ErrCode
  response : Option Response
  body : Option Body
  deriving DecidableEq, Repr

/-- The error that `sendHttpRequest`'s callback makes of an answer before it looks
at the body. -/
def answerError (a : Answer) : Option Err :=
  match a.err with
  | some code => some (Errors.createNetworkError 401001 code)
  | none =>
      match a.response with
      | none => some (Errors.createUnexpectedContentError 401003)
      | some response =>
          if response.statusCode.all (· = 200) then none
          else if response.statusCode = some 401 ∧
              response.innerCode = some (some SESSION_TOKEN_INVALID) then
            some (Errors.createRequestFailedError 401004 response.statusCode)
          else some (Errors.createRequestFailedError 401002 response.statusCode)

/-- The error for a body whose success flag is false. -/
def bodyError (body : Body) : Err :=
  Errors.createOperationFailedError body.code (body.data.bind (·.sqlState))

/-- GS rejected the authentication itself. -/
def needsReauth (auth : Authenticator) (body : Body) : Bool :=
  match auth with
  | .idToken => body.code = ID_TOKEN_INVALID
  | .oauthAuthorizationCode => body.code = OAUTH_TOKEN_EXPIRED || body.code = OAUTH_TOKEN_INVALID
  | _ => false

/-! ## login retry -/

def isRetryableHttpError (statusCode : Nat) (retry403 : Bool) : Bool :=
  (500 ≤ statusCode && statusCode < 600) || (retry403 && statusCode = 403) ||
    statusCode = 408 || statusCode = 429

/-- Anything other than a revoked or untrusted certificate can be retried. -/
def isRetryableError (err : Err) : Bool :=
  match err.statusCode with
  | some statusCode => isRetryableHttpError statusCode false
  | none =>
      !([.num 412001, .str "DEPTH_ZERO_SELF_SIGNED_CERT", .str "CERT_HAS_EXPIRED",
        .str "UNABLE_TO_VERIFY_LEAF_SIGNATURE", .str "SELF_SIGNED_CERT_IN_CHAIN",
        .num 413001] : List ErrCode).contains err.causeCode

/-- Choose one of the number between two numbers; `random` is what `Math.random()`
returns. -/
def chooseRandom (random firstNumber secondNumber : Rat) : Rat :=
  random * (firstNumber - secondNumber) + secondNumber

def getJitter (random currentSleepTime : Rat) : Rat :=
  1 / 2 * currentSleepTime * chooseRandom random 1 (-1)

/-- `random` are the three numbers drawn, in order. -/
def getNextSleepTime (random : Rat × Rat × Rat) (numofRetries : Nat) (currentSleepTime : Rat) :
    Rat :=
  chooseRandom random.2.2 (currentSleepTime + getJitter random.1 currentSleepTime)
    (((2 ^ numofRetries : Nat) : Rat) + getJitter random.2.1 currentSleepTime)

/-- The time to sleep; the elapsed time grows by it. -/
def getJitteredSleepTime (random : Rat × Rat × Rat) (numofRetries : Nat)
    (currentSleepTime totalElapsedTime maxRetryTimeout : Rat) : Rat × Rat :=
  let nextsleep := getNextSleepTime random numofRetries currentSleepTime
  let sleep := if maxRetryTimeout ≠ 0 then min (maxRetryTimeout - totalElapsedTime) nextsleep
    else nextsleep
  (sleep, totalElapsedTime + sleep)

/-! ## operations and what is under way -/

inductive OpKind
  | connect
  | request
  | destroy
  deriving DecidableEq, Repr

/-- An operation with the callback of its options, told apart by its number. -/
structure Op where
  kind : OpKind
  id : Nat
  deriving DecidableEq, Repr

/-- The variables of one `StateConnecting.continue`. -/
structure Login where
  op : Op
  numRetries : Nat
  sleep : Rat
  totalElapsedTime : Rat
  deriving DecidableEq, Repr

/-- The HTTP requests of the service. -/
inductive Http
  | login (login : Login)
  | op (op : Op)
  | renew
  deriving DecidableEq, Repr

/-- The credentials that a login stores. -/
inductive Credential
  | mfaToken
  | idToken
  deriving DecidableEq, Repr

/-- Something that the event loop will come back to: a login that awaits the
platform detection, an HTTP request that is out, a callback of one that awaits
the authenticator or the credential manager, the timer of a login retry. -/
inductive Pending
  | preparing (op : Op)
  | sent (http : Http)
  | clearing (http : Http) (body : Body)
  | reauthenticating (http : Http)
  | writing (op : Op) (key : Credential) (keys : List Credential)
  | refreshing (login : Login)
  | sleeping (login : Login)
  deriving DecidableEq, Repr

/-- `drainOperationQueue`: not running, about to be called, or at the test of its
loop with this `index` and `length`. -/
inductive Drain
  | none
  | due
  | loop (index length : Nat)
  deriving DecidableEq, Repr

/-- The service.  `depth` counts the user's callbacks on the stack.  The last five
fields are a history: the states entered, the operations handed to the service,
the callbacks called and with which error, the operations that went into the
queue and those that a drain executed. -/
structure SnowflakeService where
  currentState : SfState
  tokenInfo : TokenInfo
  operationQueue : List Op
  pending : List Pending
  ticks : List (Op × Err)
  depth : Nat
  drain : Drain
  entered : List SfState
  accepted : List Op
  called : List (Op × Option Err)
  enqueued : List Op
  executed : List Op
  deriving DecidableEq, Repr

namespace SnowflakeService

/-- The constructor: without tokens the service starts out as pristine. -/
def create (tokenInfo : TokenInfo) : SnowflakeService :=
  let state := if tokenInfo.isEmpty then SfState.pristine else .connected
  { currentState := state, tokenInfo, operationQueue := [], pending := [], ticks := [], depth := 0,
    drain := .none, entered := [state], accepted := [], called := [], enqueued := [],
    executed := [] }

/-- Something the event loop will come back to. -/
@[simps] def await (s : SnowflakeService) (p : Pending) : SnowflakeService :=
  { s with pending := s.pending ++ [p] }

/-- `process.nextTick` on a callback that passes on a client error. -/
@[simps] def nextTick (s : SnowflakeService) (op : Op) (errorCode : Nat) : SnowflakeService :=
  { s with ticks := s.ticks ++ [(op, Errors.createClientError errorCode)] }

/-- Call the callback of an operation. -/
@[simps] def call (s : SnowflakeService) (op : Op) (err : Option Err) : SnowflakeService :=
  { s with called := s.called ++ [(op, err)], depth := s.depth + 1 }

/-- `enqueueRequest` and `enqueueDestroy`. -/
@[simps] def enqueue (s : SnowflakeService) (op : Op) : SnowflakeService :=
  { s with operationQueue := s.operationQueue ++ [op], enqueued := s.enqueued ++ [op] }

/-- `StateRenewing.enter` sends a request for a new session token; the other states
that `transitionTo` reaches without a context do nothing. -/
def enter (s : SnowflakeService) : SfState → SnowflakeService
  | .renewing => s.await (.sent .renew)
  | _ => s

/-- A state is not entered again while it is the current one. -/
def transitionTo (s : SnowflakeService) (state : SfState) : SnowflakeService :=
  if s.currentState = state then s
  else enter { s with currentState := state, entered := s.entered ++ [state] } state

/-- What a transition changes: the state, the history, and a renewal that is sent
when the service starts renewing. -/
theorem transitionTo_eq (s : SnowflakeService) (state : SfState) :
    s.transitionTo state =
      { s with
        currentState := state
        entered := s.entered ++ (if s.currentState = state then [] else [state])
        pending := s.pending ++
          (if s.currentState ≠ state ∧ state = .renewing then [.sent .renew] else []) } := by
  unfold transitionTo
  by_cases h : s.currentState = state
  · subst h
    simp
  · cases state <;> simp [h, enter, await]

/-- `StateConnecting.enter` begins with the detection of the platform. -/
def transitionToConnecting (s : SnowflakeService) (op : Op) : SnowflakeService :=
  (s.transitionTo .connecting).await (.preparing op)

def transitionToDisconnected (s : SnowflakeService) : SnowflakeService :=
  { s.transitionTo .disconnected with tokenInfo := .cleared }

/-! ## the operations in each state -/

def connect (s : SnowflakeService) (op : Op) : SnowflakeService :=
  match s.currentState with
  | .pristine => s.transitionToConnecting op
  | .connecting => s.nextTick op 405501
  | .connected => s.nextTick op 405502
  | .renewing => s.nextTick op 405502
  | .disconnected => s.nextTick op 405503

def request (s : SnowflakeService) (op : Op) : SnowflakeService :=
  match s.currentState with
  | .pristine => s.nextTick op 407001
  | .connecting => s.enqueue op
  | .connected => s.await (.sent (.op op))
  | .renewing => s.enqueue op
  | .disconnected => s.nextTick op 407002

def destroy (cfg : ConnectionConfig) (s : SnowflakeService) (op : Op) : SnowflakeService :=
  match s.currentState with
  | .pristine => s.nextTick op 406501
  | .connecting => s.enqueue op
  | .connected =>
      if cfg.serverSessionKeepAlive then s.transitionToDisconnected.call op none
      else s.await (.sent (.op op))
  | .renewing => s.enqueue op
  | .disconnected => s.nextTick op 406502

def execute (cfg : ConnectionConfig) (s : SnowflakeService) (op : Op) : SnowflakeService :=
  match op.kind with
  | .connect => s.connect op
  | .request => s.request op
  | .destroy => s.destroy cfg op

/-- What becomes of an operation: the login of a new service, an error of the client, a place in
the queue, a request, or a call without one where the session is kept alive. -/
theorem execute_cases (cfg : ConnectionConfig) (s : SnowflakeService) (op : Op) :
    (op.kind = .connect ∧ s.currentState = .pristine ∧
      s.execute cfg op = s.transitionToConnecting op) ∨
    (∃ errorCode, s.execute cfg op = s.nextTick op errorCode) ∨
    (op.kind ≠ .connect ∧ (s.currentState = .connecting ∨ s.currentState = .renewing) ∧
      s.execute cfg op = s.enqueue op) ∨
    (op.kind ≠ .connect ∧ s.currentState = .connected ∧
      s.execute cfg op = s.await (.sent (.op op))) ∨
    (op.kind = .destroy ∧ s.currentState = .connected ∧ cfg.serverSessionKeepAlive = true ∧
      s.execute cfg op = s.transitionToDisconnected.call op none) := by
  unfold execute connect request destroy
  cases op.kind with
  | connect =>
      cases s.currentState with
      | pristine => exact .inl ⟨rfl, rfl, rfl⟩
      | _ => exact .inr (.inl ⟨_, rfl⟩)
  | request =>
      cases s.currentState with
      | connecting => exact .inr (.inr (.inl ⟨by simp, .inl rfl, rfl⟩))
      | renewing => exact .inr (.inr (.inl ⟨by simp, .inr rfl, rfl⟩))
      | connected => exact .inr (.inr (.inr (.inl ⟨by simp, rfl, rfl⟩)))
      | _ => exact .inr (.inl ⟨_, rfl⟩)
  | destroy =>
      cases s.currentState with
      | connecting => exact .inr (.inr (.inl ⟨by simp, .inl rfl, rfl⟩))
      | renewing => exact .inr (.inr (.inl ⟨by simp, .inr rfl, rfl⟩))
      | connected =>
          cases cfg.serverSessionKeepAlive with
          | false => exact .inr (.inr (.inr (.inl ⟨by simp, rfl, rfl⟩)))
          | true => exact .inr (.inr (.inr (.inr ⟨rfl, rfl, rfl, rfl⟩)))
      | _ => exact .inr (.inl ⟨_, rfl⟩)

/-! ## the callbacks of the HTTP requests -/

/-- What a callback reads of the outside world. -/
structure Env where
  currentTime : Int
  random : Rat × Rat × Rat
  deriving DecidableEq, Repr

/-- The callback that `StateConnected.request` installs. -/
def onRequestAnswer (s : SnowflakeService) (op : Op) (err : Option Err) : SnowflakeService :=
  match err with
  | none => s.call op none
  | some e =>
      if e.code = SESSION_TOKEN_EXPIRED then (s.enqueue op).transitionTo .renewing
      else if e.code = SESSION_TOKEN_INVALID ∨ e.code = GONE_SESSION then
        { (s.enqueue op).transitionToDisconnected with drain := .due }
      else s.call op (some e)

/-- The callback that `StateConnected.destroy` installs. -/
def onDestroyAnswer (s : SnowflakeService) (op : Op) (err : Option Err) : SnowflakeService :=
  match err with
  | none => s.transitionToDisconnected.call op none
  | some e =>
      if e.code = GONE_SESSION ∨ e.code = SESSION_TOKEN_EXPIRED then
        s.transitionToDisconnected.call op none
      else s.call op (some e)

/-- The callback that `StateRenewing.enter` installs; it throws on a success
without data. -/
def onRenewAnswer (s : SnowflakeService) (err : Option Err) (body : Option Body)
    (currentTime : Int) : SnowflakeService :=
  match err with
  | none =>
      match body.bind (·.data) with
      | none => s
      | some data =>
          { { s with tokenInfo := .ofData data currentTime }.transitionTo .connected with
            drain := .due }
  | some e =>
      if e.code = MASTER_TOKEN_EXPIRED then { s.transitionToDisconnected with drain := .due }
      else if Errors.isNetworkError (some e) then { s.transitionTo .connected with drain := .due }
      else { s.transitionToDisconnected with drain := .due }

/-- The end of a login: its callback is called and the queue is free to go. -/
def finishLogin (s : SnowflakeService) (op : Op) (err : Option Err) : SnowflakeService :=
  { s.call op err with drain := .due }

/-- The credentials of `data` that the config asks to store. -/
def credentials (cfg : ConnectionConfig) (data : SessionData) : List Credential :=
  (if cfg.clientRequestMFAToken ∧ data.mfaToken.any (· ≠ "") then [.mfaToken] else []) ++
    (if cfg.clientStoreTemporaryCredential ∧ data.idToken.any (· ≠ "") then [.idToken] else [])

/-- Store the credentials one after the other; with all of them stored the service
is connected. -/
def writeCredentials (s : SnowflakeService) (op : Op) (keys : List Credential) :
    SnowflakeService :=
  match keys with
  | [] => (s.transitionTo .connected).finishLogin op none
  | key :: keys => s.await (.writing op key keys)

/-- The login may be tried again after this error. -/
def retries (cfg : ConnectionConfig) (login : Login) (err : Err) : Bool :=
  (Errors.isNetworkError (some err) || Errors.isRequestFailedError (some err)) &&
    decide (login.numRetries < cfg.retrySfMaxLoginRetries) && isRetryableError err &&
    (decide (cfg.retryTimeout = 0) || decide (login.totalElapsedTime < cfg.retryTimeout))

/-- The variables of the login after a retry has been decided. -/
def nextLogin (cfg : ConnectionConfig) (login : Login) (random : Rat × Rat × Rat) : Login :=
  let jitter := getJitteredSleepTime random (login.numRetries + 1) login.sleep
    login.totalElapsedTime cfg.retryTimeout
  { login with numRetries := login.numRetries + 1, sleep := jitter.1, totalElapsedTime := jitter.2 }

/-- Okta and key pair tokens are refreshed before the login is tried again. -/
def awaitRetry (cfg : ConnectionConfig) (s : SnowflakeService) (login : Login) :
    SnowflakeService :=
  match cfg.authenticator with
  | .okta => s.await (.refreshing login)
  | .keypair => s.await (.refreshing login)
  | _ => s.await (.sleeping login)

/-- The callback that `StateConnecting.continue` installs; it throws on a success
without data.  A retry without time left disconnects but goes on. -/
def onLoginAnswer (cfg : ConnectionConfig) (s : SnowflakeService) (login : Login)
    (err : Option Err) (body : Option Body) (env : Env) : SnowflakeService :=
  match err with
  | none =>
      match body.bind (·.data) with
      | none => s
      | some data =>
          { s with tokenInfo := .ofData data env.currentTime }.writeCredentials login.op
            (credentials cfg data)
  | some e =>
      if retries cfg login e then
        let next := nextLogin cfg login env.random
        awaitRetry cfg (if next.sleep ≤ 0 then s.transitionToDisconnected else s) next
      else s.transitionToDisconnected.finishLogin login.op (some e)

/-- One call of a request's own callback by `sendHttpRequest`. -/
structure Delivery where
  http : Http
  err : Option Err
  body : Option Body
  env : Env
  deriving DecidableEq, Repr

/-- `requestOptions.callback.apply(requestOptions.scope, [err, body, response])`. -/
def deliver (cfg : ConnectionConfig) (s : SnowflakeService) (d : Delivery) : SnowflakeService :=
  match d.http with
  | .login login => s.onLoginAnswer cfg login d.err d.body d.env
  | .renew => s.onRenewAnswer d.err d.body d.env.currentTime
  | .op op =>
      match op.kind with
      | .destroy => s.onDestroyAnswer op d.err
      | _ => s.onRequestAnswer op d.err

/-! ## the event loop -/

/-- What happens: the user calls the service, a callback of the user returns or
throws, the drain goes on, a `nextTick` callback runs, or something pending
comes back.  An outcome `false` or `none` is a rejected promise. -/
inductive Event
  | called (kind : OpKind)
  | returned
  | threw
  | resume
  | tick
  | prepared (op : Op)
  | answered (http : Http) (answer : Answer) (env : Env)
  | cleared (http : Http) (body : Body) (done : Bool) (env : Env)
  | reauthenticated (http : Http) (done : Bool)
  | written (op : Op) (key : Credential) (keys : List Credential) (done : Bool)
  | refreshed (login : Login) (retryOption : Option (Nat × Rat))
  | woke (login : Login)
  deriving DecidableEq, Repr

/-- What `sendHttpRequest`'s callback does with an answer: it calls the request's
callback, or first awaits the authenticator. -/
def receive (cfg : ConnectionConfig) (http : Http) (answer : Answer) (env : Env) :
    Pending ⊕ Delivery :=
  match answerError answer with
  | some e => .inr ⟨http, some e, none, env⟩
  | none =>
      match answer.body with
      | none => .inr ⟨http, none, none, env⟩
      | some body =>
          if body.success then .inr ⟨http, none, some body, env⟩
          else if cfg.authenticator = .oauthAuthorizationCode then .inl (.clearing http body)
          else if needsReauth cfg.authenticator body then .inl (.reauthenticating http)
          else .inr ⟨http, some (bodyError body), none, env⟩

/-- What it does once the cached access token has been cleared. -/
def receiveCleared (cfg : ConnectionConfig) (http : Http) (body : Body) (env : Env) :
    Pending ⊕ Delivery :=
  if needsReauth cfg.authenticator body then .inl (.reauthenticating http)
  else .inr ⟨http, some (bodyError body), none, env⟩

/-- The call of a request's callback that an event makes, if any. -/
def delivery (cfg : ConnectionConfig) : Event → Option Delivery
  | .answered http answer env => (receive cfg http answer env).getRight?
  | .cleared http body true env => (receiveCleared cfg http body env).getRight?
  | _ => none

/-- Go on with what `sendHttpRequest`'s callback decided. -/
def proceed (cfg : ConnectionConfig) (s : SnowflakeService) : Pending ⊕ Delivery → SnowflakeService
  | .inl p => s.await p
  | .inr d => s.deliver cfg d

/-- Only the event loop is running. -/
def Idle (s : SnowflakeService) : Prop := s.depth = 0 ∧ s.drain = .none

instance (s : SnowflakeService) : Decidable s.Idle := inferInstanceAs (Decidable (_ ∧ _))

/-- Come back to something pending: it is pending no more. -/
def take (s : SnowflakeService) (p : Pending) : Option SnowflakeService :=
  if s.Idle ∧ p ∈ s.pending then some { s with pending := s.pending.erase p } else none

/-- The user hands an operation to the service. -/
@[simps] def accept (s : SnowflakeService) (op : Op) : SnowflakeService :=
  { s with accepted := s.accepted ++ [op] }

/-- One step of the drain. -/
def resume (cfg : ConnectionConfig) (s : SnowflakeService) : Option SnowflakeService :=
  match s.drain with
  | .none => none
  | .due => some { s with drain := .loop 0 s.operationQueue.length }
  | .loop index length =>
      if index < length then
        s.operationQueue[index]?.map fun op =>
          { s with drain := .loop (index + 1) length, executed := s.executed ++ [op] }.execute cfg op
      else some { s with operationQueue := [], drain := .none }

def step (cfg : ConnectionConfig) (s : SnowflakeService) : Event → Option SnowflakeService
  | .called kind =>
      if 0 < s.depth ∨ s.drain = .none then
        let op : Op := ⟨kind, s.accepted.length⟩
        some ((s.accept op).execute cfg op)
      else none
  | .returned => if 0 < s.depth then some { s with depth := s.depth - 1 } else none
  | .threw =>
      -- the exception leaves the frame below: a drain, unless another callback is there
      if 0 < s.depth then
        some { s with depth := s.depth - 1, drain := if s.depth = 1 then .none else s.drain }
      else none
  | .resume => if s.depth = 0 then s.resume cfg else none
  | .tick =>
      if s.Idle then
        match s.ticks with
        | [] => none
        | (op, err) :: ticks => some ({ s with ticks }.call op (some err))
      else none
  | .prepared op =>
      (s.take (.preparing op)).map
        (·.await (.sent (.login ⟨op, 0, cfg.retrySfStartingSleepTime, 0⟩)))
  | .answered http answer env =>
      (s.take (.sent http)).map (·.proceed cfg (receive cfg http answer env))
  | .cleared http body done env =>
      (s.take (.clearing http body)).map fun s =>
        if done then s.proceed cfg (receiveCleared cfg http body env) else s
  | .reauthenticated http done =>
      (s.take (.reauthenticating http)).map fun s => if done then s.await (.sent http) else s
  | .written op key keys done =>
      (s.take (.writing op key keys)).map fun s =>
        if done then s.writeCredentials op keys else s
  | .refreshed login retryOption =>
      (s.take (.refreshing login)).map fun s =>
        match retryOption with
        | none => s
        | some (numRetries, totalElapsedTime) =>
            s.await (.sleeping
              (if cfg.authenticator = .okta then { login with numRetries, totalElapsedTime }
              else login))
  | .woke login => (s.take (.sleeping login)).map (·.await (.sent (.login login)))

end SnowflakeService

/-! ## sample values -/

/-- The default retry settings, with nothing else asked for. -/
def sampleConfig (authenticator : Authenticator) : ConnectionConfig where
  authenticator
  serverSessionKeepAlive := false
  retrySfMaxLoginRetries := 7
  retryTimeout := 300
  retrySfStartingSleepTime := 1
  clientRequestMFAToken := false
  clientStoreTemporaryCredential := false

/-- The data of a new session. -/
def sampleData : SessionData where
  masterToken := some "master"
  token := some "session"
  sessionToken := none
  masterValidityInSeconds := some 14400
  validityInSecondsMT := none
  validityInSeconds := some 3600
  validityInSecondsST := none
  mfaToken := none
  idToken := none
  sqlState := none

/-- The first login of the first operation. -/
def sampleLogin : Login := ⟨⟨.connect, 0⟩, 0, 1, 0⟩

def sampleEnv : SnowflakeService.Env := ⟨0, 1 / 2, 1 / 2, 1 / 2⟩

/-- A 200 answer with this body. -/
def Answer.ok (body : Body) : Answer := ⟨none, some ⟨some 200, none⟩, some body⟩

def Answer.success (data : Option SessionData) : Answer := .ok ⟨true, .undefined, data⟩

def Answer.failure (code : ErrCode) : Answer := .ok ⟨false, code, none⟩

/-- No answer came. -/
def Answer.network : Answer := ⟨some (.str "ECONNRESET"), none, none⟩

end Service

end SnowflakeConnector
