import Mathlib

/-!
# SnowflakeConnector.AxiosInstance

The retries of a statement request: `sendSfRequest` of `lib/connection/statement.js` attaches
what the connection is configured with, `sendHttpRequest` of `lib/services/sf.js` and
`prepareRequestOptions` of `lib/http/base.js` each build new options, and the interceptors of
`lib/http/axios_instance.ts` retry.

Times are rational numbers of seconds, and `Math.random()` is a sequence of draws.

* `honoured_iff` -- when the attempts of a statement request are those that the connection is
  configured for.
-/

namespace SnowflakeConnector

namespace AxiosInstance

/-! ## urls -/

structure Url where
  address : String
  searchParams : List (String × String)
  deriving DecidableEq, Repr

/-- `searchParams.set`: the first parameter of the name keeps its place, others are removed. -/
def setParam (name value : String) : List (String × String) → List (String × String)
  | [] => [(name, value)]
  | p :: params =>
      if p.1 = name then (name, value) :: params.filter (·.1 ≠ name)
      else p :: setParam name value params

def Url.set (url : Url) (name value : String) : Url :=
  { url with searchParams := setParam name value url.searchParams }

def Url.get? (url : Url) (name : String) : Option String :=
  (url.searchParams.find? (·.1 = name)).map Prod.snd

@[simp] theorem Url.get?_set_self (url : Url) (name value : String) :
    (url.set name value).get? name = some value := by
  unfold Url.get? Url.set
  induction url.searchParams with
  | nil => simp [setParam]
  | cons p params ih =>
      by_cases hp : p.1 = name
      · simp [setParam, hp]
      · simpa [setParam, hp] using ih

theorem Url.get?_set_of_ne (url : Url) {name other : String} (value : String)
    (hne : other ≠ name) : (url.set name value).get? other = url.get? other := by
  unfold Url.get? Url.set
  congr 1
  induction url.searchParams with
  | nil => simp [setParam, hne.symm]
  | cons p params ih =>
      by_cases hp : p.1 = name
      · have hother : ¬ p.1 = other := by
          rw [hp]
          exact hne.symm
        have hfilter : (params.filter (·.1 ≠ name)).find? (·.1 = other) =
            params.find? (·.1 = other) := by
          rw [List.find?_filter]
          congr 1
          funext q
          by_cases hq : q.1 = other
          · simp [hq, hne]
          · simp [hq]
        dsimp only [setParam]
        rw [if_pos hp, List.find?_cons_of_neg (by simpa using hne.symm), hfilter,
          List.find?_cons_of_neg (by simpa using hother)]
      · dsimp only [setParam] at ih ⊢
        rw [if_neg hp, List.find?_cons, List.find?_cons, ih]

/-! ## options -/

structure SnowflakeRetryConfig where
  maxRetries : Nat
  sleepBase : ℚ
  sleepCap : ℚ
  includeRetryReason : Bool
  deriving DecidableEq, Repr

/-- `Partial<SnowflakeRetryConfig>`. -/
structure PartialRetryConfig where
  maxRetries : Option Nat
  sleepBase : Option ℚ
  sleepCap : Option ℚ
  includeRetryReason : Option Bool
  deriving DecidableEq, Repr

def DEFAULT_SNOWFLAKE_RETRY_CONFIG : SnowflakeRetryConfig where
  maxRetries := 7
  sleepBase := 1
  sleepCap := 16
  includeRetryReason := false

/-- The defaults, and over them what is given. -/
def SnowflakeRetryConfig.override (config : SnowflakeRetryConfig)
    (given : PartialRetryConfig) : SnowflakeRetryConfig where
  maxRetries := given.maxRetries.getD config.maxRetries
  sleepBase := given.sleepBase.getD config.sleepBase
  sleepCap := given.sleepCap.getD config.sleepCap
  includeRetryReason := given.includeRetryReason.getD config.includeRetryReason

/-- What a connection is configured with for its requests. -/
structure ConnectionConfig where
  retrySfMaxNumRetries : Nat
  retrySfStartingSleepTime : ℚ
  retrySfMaxSleepTime : ℚ
  includeRetryReason : Bool
  timeout : Nat

/-- The options of a request, with an absolute url. -/
structure RequestOptions (J : Type*) where
  method : String
  headers : List (String × String)
  url : Url
  json : Option J
  params : List (String × String)
  excludeGuid : Bool
  timeout : Option Nat
  responseType : Option String
  useSnowflakeRetryMiddleware : Bool
  snowflakeRetryConfig : Option PartialRetryConfig

structure SnowflakeRetryState where
  startTime : Nat
  numRetries : Nat
  currentSleepTime : ℚ
  deriving DecidableEq, Repr

/-- `SnowflakeInternalAxiosRequestConfig`. -/
structure AxiosConfig (J : Type*) where
  method : String
  url : Url
  headers : List (String × String)
  data : Option J
  params : List (String × String)
  timeout : Nat
  responseType : String
  useSnowflakeRetryMiddleware : Bool
  snowflakeRetryConfig : Option PartialRetryConfig
  retryConfig : Option SnowflakeRetryConfig
  retryState : Option SnowflakeRetryState

section

variable {J : Type*}

/-- `sendSfRequest`: the configuration of the connection is attached. -/
def sendSfRequest (connectionConfig : ConnectionConfig) (options : RequestOptions J) :
    RequestOptions J :=
  { options with
    useSnowflakeRetryMiddleware := true
    snowflakeRetryConfig := some
      { maxRetries := some connectionConfig.retrySfMaxNumRetries
        sleepBase := some connectionConfig.retrySfStartingSleepTime
        sleepCap := some connectionConfig.retrySfMaxSleepTime
        includeRetryReason := some connectionConfig.includeRetryReason } }

/-- `sendHttpRequest`: the options that are given to the HTTP client. -/
def sendHttpRequest (guid : String) (requestOptions : RequestOptions J) : RequestOptions J where
  method := requestOptions.method
  headers := requestOptions.headers
  url := requestOptions.url
  json := requestOptions.json
  params :=
    if requestOptions.excludeGuid = true then requestOptions.params
    else setParam "request_guid" guid requestOptions.params
  excludeGuid := false
  timeout := none
  responseType := none
  useSnowflakeRetryMiddleware := requestOptions.useSnowflakeRetryMiddleware
  snowflakeRetryConfig := none

/-- `prepareRequestOptions`: the options that are given to axios. -/
def prepareRequestOptions (connectionConfig : ConnectionConfig) (options : RequestOptions J) :
    AxiosConfig J where
  method := options.method
  url := options.url
  headers := options.headers
  data := options.json
  params := options.params
  timeout :=
    match options.timeout with
    | some (timeout + 1) => timeout + 1
    | _ => if connectionConfig.timeout = 0 then 360000 else connectionConfig.timeout
  responseType := options.responseType.getD "text"
  useSnowflakeRetryMiddleware := options.useSnowflakeRetryMiddleware
  snowflakeRetryConfig := none
  retryConfig := none
  retryState := none

/-- What axios is asked for with a statement request. -/
def statementRequest (connectionConfig : ConnectionConfig) (guid : String)
    (options : RequestOptions J) : AxiosConfig J :=
  prepareRequestOptions connectionConfig
    (sendHttpRequest guid (sendSfRequest connectionConfig options))

/-! ## interceptors -/

/-- What an attempt ends with: a response, or an error with a code of its own. -/
inductive Outcome
  | response (status : Nat)
  | failure (code : Option String)
  deriving DecidableEq, Repr

/-- `AxiosError`. -/
structure AxiosError where
  status : Option Nat
  code : Option String
  deriving DecidableEq, Repr

/-- A response that is no success is an error too. -/
def Outcome.error : Outcome → Option AxiosError
  | .response status =>
      if 200 ≤ status ∧ status < 300 then none else some ⟨some status, none⟩
  | .failure code => some ⟨none, code⟩

def isRetryableHttpError (statusCode : Nat) (retry403 : Bool) : Bool :=
  (500 ≤ statusCode ∧ statusCode < 600) ∨ (retry403 = true ∧ statusCode = 403) ∨
    statusCode = 408 ∨ statusCode = 429

/-- Network errors are retryable, but not requests that the client has canceled. -/
def AxiosError.isRetryable (err : AxiosError) : Bool :=
  match err.status with
  | some status => isRetryableHttpError status false
  | none => err.code ≠ some "ERR_CANCELED"

def Outcome.Retryable (outcome : Outcome) : Prop :=
  ∃ err, outcome.error = some err ∧ err.isRetryable = true

def nextSleepTime (base cap previousSleep random : ℚ) : ℚ :=
  min cap (|previousSleep * 3 - base| * random + min base (previousSleep * 3))

/-- The interceptor of requests. -/
def onRequest (now : Nat) (config : AxiosConfig J) : AxiosConfig J :=
  if config.useSnowflakeRetryMiddleware = true then
    { config with
      retryConfig := config.retryConfig.or <| some <|
        match config.snowflakeRetryConfig with
        | some given => DEFAULT_SNOWFLAKE_RETRY_CONFIG.override given
        | none => DEFAULT_SNOWFLAKE_RETRY_CONFIG
      retryState := config.retryState.or (some ⟨now, 0, 1⟩) }
  else config

/-- The url of a retry. -/
def retryUrl (url : Url) (state : SnowflakeRetryState) (includeRetryReason : Bool)
    (err : AxiosError) : Url :=
  let url := url.set "clientStartTime" (toString state.startTime)
  let url := url.set "retryCount" (toString (state.numRetries + 1))
  if includeRetryReason = true then url.set "retryReason" (toString (err.status.getD 0)) else url

/-- The config of a retry. -/
def AxiosConfig.retry (config : AxiosConfig J) (url : Url) (state : SnowflakeRetryState) :
    AxiosConfig J :=
  { config with url := url, retryState := some state }

/-- The interceptor of responses, after an error: how long to sleep and what to send then. -/
def onRejected (random : ℚ) (config : AxiosConfig J) (err : AxiosError) :
    Option (ℚ × AxiosConfig J) :=
  match config.retryConfig, config.retryState with
  | some retryConfig, some retryState =>
      if config.useSnowflakeRetryMiddleware = true ∧ err.isRetryable = true ∧
          retryState.numRetries < retryConfig.maxRetries then
        let sleepTime :=
          nextSleepTime retryConfig.sleepBase retryConfig.sleepCap retryState.currentSleepTime random
        some (sleepTime,
          config.retry (retryUrl config.url retryState retryConfig.includeRetryReason err)
            ⟨retryState.startTime, retryState.numRetries + 1, sleepTime⟩)
      else none
  | _, _ => none

/-! ## attempts -/

/-- What an exchange comes upon: how each attempt ends, a draw for each retry, and when each
attempt is made. -/
structure Exchange where
  outcome : Nat → Outcome
  random : Nat → ℚ
  now : Nat → Nat

/-- A request that is sent, after a sleep. -/
structure Attempt (J : Type*) where
  config : AxiosConfig J
  slept : ℚ

/-- The attempts of a request: the first one, and those after retries. -/
def attempt (x : Exchange) (config : AxiosConfig J) : Nat → Option (Attempt J)
  | 0 => some ⟨onRequest (x.now 0) config, 0⟩
  | k + 1 =>
      (attempt x config k).bind fun a =>
        (x.outcome k).error.bind fun err =>
          (onRejected (x.random k) a.config err).map fun (slept, config) =>
            ⟨onRequest (x.now (k + 1)) config, slept⟩

/-- What the connection's configuration asks of the attempts of a request for `url`. -/
structure Honoured (connectionConfig : ConnectionConfig) (url : Url) (x : Exchange)
    (attempts : Nat → Option (Attempt J)) : Prop where
  bounded : ∀ k, (attempts k).isSome → k ≤ connectionConfig.retrySfMaxNumRetries
  retried : ∀ k, (attempts (k + 1)).isSome ↔ (attempts k).isSome ∧ (x.outcome k).Retryable ∧
    k < connectionConfig.retrySfMaxNumRetries
  slept : ∀ k, ∀ a ∈ attempts (k + 1), a.slept ≤ connectionConfig.retrySfMaxSleepTime
  counted : ∀ k, ∀ a ∈ attempts (k + 1),
    a.config.url.get? "retryCount" = some (toString (k + 1)) ∧
      a.config.url.get? "clientStartTime" = some (toString (x.now 0))
  reason : ∀ k, ∀ a ∈ attempts (k + 1),
    (a.config.url.get? "retryReason").isSome = connectionConfig.includeRetryReason

/-- The sleeps that a configuration of the middleware draws. -/
def sleepTime (config : SnowflakeRetryConfig) (random : Nat → ℚ) : Nat → ℚ
  | 0 => 1
  | k + 1 =>
      nextSleepTime config.sleepBase config.sleepCap (sleepTime config random k) (random k)

variable {config : AxiosConfig J} {c : SnowflakeRetryConfig} {x : Exchange}

/-- An attempt under the configuration `c`, after `k` retries. -/
structure Follows (c : SnowflakeRetryConfig) (url : Url) (x : Exchange) (k : Nat)
    (a : Attempt J) : Prop where
  middleware : a.config.useSnowflakeRetryMiddleware = true
  retryConfig : a.config.retryConfig = some c
  retryState : a.config.retryState = some ⟨x.now 0, k, sleepTime c x.random k⟩
  slept : 0 < k → a.slept = sleepTime c x.random k
  counted : 0 < k → a.config.url.get? "retryCount" = some (toString k) ∧
    a.config.url.get? "clientStartTime" = some (toString (x.now 0))
  reason : (a.config.url.get? "retryReason").isSome =
    if 0 < k ∧ c.includeRetryReason = true then true else (url.get? "retryReason").isSome

theorem onRequest_of_some {config : AxiosConfig J} {state : SnowflakeRetryState} (now : Nat)
    (hconfig : config.retryConfig = some c) (hstate : config.retryState = some state) :
    onRequest now config = config := by
  cases config
  simp only at hconfig hstate
  subst hconfig hstate
  simp [onRequest]

theorem Follows.first (hmiddleware : config.useSnowflakeRetryMiddleware = true)
    (hconfig : (onRequest (x.now 0) config).retryConfig = some c)
    (hstate : config.retryState = none) :
    Follows c config.url x 0 ⟨onRequest (x.now 0) config, 0⟩ := by
  have hurl : (onRequest (x.now 0) config).url = config.url := by
    unfold onRequest
    rw [if_pos hmiddleware]
  constructor
  · unfold onRequest
    rw [if_pos hmiddleware]
    exact hmiddleware
  · exact hconfig
  · simp only [onRequest, if_pos hmiddleware, hstate, Option.none_or]
    rfl
  · intro h
    exact absurd h (Nat.lt_irrefl 0)
  · intro h
    exact absurd h (Nat.lt_irrefl 0)
  · simp [hurl]

/-- What the interceptor makes of an attempt that follows the configuration. -/
theorem Follows.onRejected {url : Url} {k : Nat} {a : Attempt J} (h : Follows c url x k a)
    (err : AxiosError) :
    onRejected (x.random k) a.config err =
      if err.isRetryable = true ∧ k < c.maxRetries then
        some (sleepTime c x.random (k + 1),
          a.config.retry
            (retryUrl a.config.url ⟨x.now 0, k, sleepTime c x.random k⟩ c.includeRetryReason err)
            ⟨x.now 0, k + 1, sleepTime c x.random (k + 1)⟩)
      else none := by
  simp only [AxiosInstance.onRejected, h.retryConfig, h.retryState, h.middleware, true_and]
  rfl

/-- The parameters of a retry. -/
theorem retryUrl_get? (url : Url) (state : SnowflakeRetryState) (includeRetryReason : Bool)
    (err : AxiosError) :
    (retryUrl url state includeRetryReason err).get? "retryCount" =
        some (toString (state.numRetries + 1)) ∧
      (retryUrl url state includeRetryReason err).get? "clientStartTime" =
        some (toString state.startTime) ∧
      (retryUrl url state includeRetryReason err).get? "retryReason" =
        if includeRetryReason = true then some (toString (err.status.getD 0))
        else url.get? "retryReason" := by
  have hcount : "retryCount" ≠ "retryReason" := by decide
  have hstart : "clientStartTime" ≠ "retryReason" := by decide
  have hne : "clientStartTime" ≠ "retryCount" := by decide
  unfold retryUrl
  cases includeRetryReason
  · simp [Url.get?_set_of_ne _ _ hne, Url.get?_set_of_ne _ _ hcount.symm,
      Url.get?_set_of_ne _ _ hstart.symm]
  · simp [Url.get?_set_of_ne _ _ hne, Url.get?_set_of_ne _ _ hcount,
      Url.get?_set_of_ne _ _ hstart]

/-- **Step**: a retry is made after a retryable outcome, up to the bound, and it follows the
configuration again. -/
theorem Follows.next {url : Url} {k : Nat} {a : Attempt J} (h : Follows c url x k a)
    (hattempt : attempt x config k = some a) :
    ((attempt x config (k + 1)).isSome ↔ (x.outcome k).Retryable ∧ k < c.maxRetries) ∧
      ∀ b ∈ attempt x config (k + 1), Follows c url x (k + 1) b := by
  simp only [attempt, hattempt, Option.bind_some]
  cases herr : (x.outcome k).error with
  | none =>
      simp [Outcome.Retryable, herr]
  | some err =>
      rw [Option.bind_some, h.onRejected err]
      have hretryable : (x.outcome k).Retryable ↔ err.isRetryable = true := by
        simp [Outcome.Retryable, herr]
      rw [hretryable]
      by_cases hretry : err.isRetryable = true ∧ k < c.maxRetries
      · rw [if_pos hretry]
        refine ⟨by simpa using hretry, ?_⟩
        intro b hb
        obtain rfl := Option.some.inj hb
        dsimp only
        obtain ⟨hcount, hstart, hreason⟩ := retryUrl_get? a.config.url
          ⟨x.now 0, k, sleepTime c x.random k⟩ c.includeRetryReason err
        have hsame : ∀ url state, onRequest (x.now (k + 1)) (a.config.retry url state) =
            a.config.retry url state := fun url state =>
          onRequest_of_some (x.now (k + 1)) h.retryConfig rfl
        rw [hsame]
        constructor
        · exact h.middleware
        · exact h.retryConfig
        · rfl
        · intro _
          rfl
        · intro _
          exact ⟨hcount, hstart⟩
        · have hkept := h.reason
          dsimp only [AxiosConfig.retry]
          rw [hreason]
          cases hinclude : c.includeRetryReason
          · simpa [hinclude] using hkept
          · simp
      · rw [if_neg hretry]
        simpa using hretry

/-- **Run**: which attempts are made under a configuration, and that they follow it. -/
theorem attempts_follow (hmiddleware : config.useSnowflakeRetryMiddleware = true)
    (hconfig : (onRequest (x.now 0) config).retryConfig = some c)
    (hstate : config.retryState = none) (k : Nat) :
    ((attempt x config k).isSome ↔
        k ≤ c.maxRetries ∧ ∀ i < k, (x.outcome i).Retryable) ∧
      ∀ a ∈ attempt x config k, Follows c config.url x k a := by
  induction k with
  | zero =>
      refine ⟨by simp [attempt], ?_⟩
      intro a ha
      obtain rfl := Option.some.inj ha
      exact Follows.first hmiddleware hconfig hstate
  | succ k ih =>
      obtain ⟨hmade, hfollows⟩ := ih
      cases hattempt : attempt x config k with
      | none =>
          rw [hattempt] at hmade
          have hnot : ¬ (k ≤ c.maxRetries ∧ ∀ i < k, (x.outcome i).Retryable) :=
            mt hmade.mpr (by simp)
          have hnext : attempt x config (k + 1) = none := by simp [attempt, hattempt]
          rw [hnext]
          refine ⟨?_, by simp⟩
          constructor
          · intro h
            contradiction
          · intro h
            exact absurd ⟨by omega, fun i hi => h.2 i (by omega)⟩ hnot
      | some a =>
          obtain ⟨hnext, hkept⟩ := (hfollows a hattempt).next hattempt
          refine ⟨?_, hkept⟩
          rw [hattempt] at hmade
          have hbefore := hmade.mp rfl
          rw [hnext]
          constructor
          · intro h
            refine ⟨h.2, ?_⟩
            intro i hi
            rcases Nat.lt_succ_iff_lt_or_eq.mp hi with hi | rfl
            · exact hbefore.2 i hi
            · exact h.1
          · intro h
            exact ⟨h.2 k (Nat.lt_succ_self k), h.1⟩

/-! ## statement requests -/

/-- What the attempts of a statement request follow. -/
theorem statement_attempts (connectionConfig : ConnectionConfig) (guid : String)
    (options : RequestOptions J) (x : Exchange) (k : Nat) :
    ((attempt x (statementRequest connectionConfig guid options) k).isSome ↔
        k ≤ DEFAULT_SNOWFLAKE_RETRY_CONFIG.maxRetries ∧ ∀ i < k, (x.outcome i).Retryable) ∧
      ∀ a ∈ attempt x (statementRequest connectionConfig guid options) k,
        Follows DEFAULT_SNOWFLAKE_RETRY_CONFIG options.url x k a :=
  attempts_follow rfl rfl rfl k

/-- The condition: as far as retryable outcomes go, the connection asks for the retries and
admits the sleeps of the middleware's own defaults, and wants a reason only where the url
carries one from the beginning. -/
def DefaultsSuffice (connectionConfig : ConnectionConfig) (url : Url) (x : Exchange) : Prop :=
  (∀ k, (∀ i ≤ k, (x.outcome i).Retryable) →
    (k < DEFAULT_SNOWFLAKE_RETRY_CONFIG.maxRetries ↔ k < connectionConfig.retrySfMaxNumRetries)) ∧
  (∀ k < DEFAULT_SNOWFLAKE_RETRY_CONFIG.maxRetries, (∀ i ≤ k, (x.outcome i).Retryable) →
    sleepTime DEFAULT_SNOWFLAKE_RETRY_CONFIG x.random (k + 1) ≤
      connectionConfig.retrySfMaxSleepTime) ∧
  ((x.outcome 0).Retryable →
    (url.get? "retryReason").isSome = connectionConfig.includeRetryReason)

/-- **Retries**: the attempts of a statement request are those that its connection is configured
for exactly when the defaults of the middleware suffice. -/
theorem honoured_iff (connectionConfig : ConnectionConfig) (guid : String)
    (options : RequestOptions J) (x : Exchange) :
    Honoured connectionConfig options.url x
        (attempt x (statementRequest connectionConfig guid options)) ↔
      DefaultsSuffice connectionConfig options.url x := by
  have hrun := statement_attempts connectionConfig guid options x
  have hnext : ∀ k, (attempt x (statementRequest connectionConfig guid options) (k + 1)).isSome ↔
      k < DEFAULT_SNOWFLAKE_RETRY_CONFIG.maxRetries ∧ ∀ i ≤ k, (x.outcome i).Retryable := by
    intro k
    rw [(hrun (k + 1)).1, Nat.succ_le_iff]
    simp only [Nat.lt_succ_iff]
  constructor
  · intro h
    refine ⟨?_, ?_, ?_⟩
    · intro k hretryable
      constructor
      · intro hk
        exact ((h.retried k).mp ((hnext k).mpr ⟨hk, hretryable⟩)).2.2
      · intro hk
        by_contra hdefault
        -- the last attempt that the defaults allow would have to be followed by another one
        have hlast : (attempt x (statementRequest connectionConfig guid options)
            DEFAULT_SNOWFLAKE_RETRY_CONFIG.maxRetries).isSome :=
          (hrun _).1.mpr ⟨le_rfl, fun i hi => hretryable i (by omega)⟩
        have hanother := (h.retried _).mpr ⟨hlast, hretryable _ (by omega), by omega⟩
        exact Nat.lt_irrefl _ ((hnext _).mp hanother).1
    · intro k hk hretryable
      obtain ⟨a, ha⟩ := Option.isSome_iff_exists.mp ((hnext k).mpr ⟨hk, hretryable⟩)
      rw [← ((hrun (k + 1)).2 a ha).slept (Nat.succ_pos k)]
      exact h.slept k a ha
    · intro hretryable
      have hmade : (attempt x (statementRequest connectionConfig guid options) 1).isSome :=
        (hnext 0).mpr ⟨by decide, fun i hi => by rwa [Nat.le_zero.mp hi]⟩
      obtain ⟨a, ha⟩ := Option.isSome_iff_exists.mp hmade
      rw [← h.reason 0 a ha, ((hrun 1).2 a ha).reason]
      rfl
  · intro h
    obtain ⟨hbound, hsleep, hreason⟩ := h
    constructor
    · intro k hmade
      cases k with
      | zero => exact Nat.zero_le _
      | succ k =>
          obtain ⟨hk, hretryable⟩ := (hnext k).mp hmade
          exact (hbound k hretryable).mp hk
    · intro k
      rw [hnext, (hrun k).1]
      constructor
      · intro hmade
        obtain ⟨hk, hretryable⟩ := hmade
        exact ⟨⟨hk.le, fun i hi => hretryable i hi.le⟩, hretryable k le_rfl,
          (hbound k hretryable).mp hk⟩
      · intro hmade
        obtain ⟨⟨_, hbefore⟩, hlast, hk⟩ := hmade
        have hretryable : ∀ i ≤ k, (x.outcome i).Retryable := by
          intro i hi
          rcases Nat.lt_or_eq_of_le hi with hi | rfl
          · exact hbefore i hi
          · exact hlast
        exact ⟨(hbound k hretryable).mpr hk, hretryable⟩
    · intro k a ha
      obtain ⟨hk, hretryable⟩ := (hnext k).mp (Option.isSome_of_mem ha)
      rw [((hrun (k + 1)).2 a ha).slept (Nat.succ_pos k)]
      exact hsleep k hk hretryable
    · intro k a ha
      exact ((hrun (k + 1)).2 a ha).counted (Nat.succ_pos k)
    · intro k a ha
      obtain ⟨_, hretryable⟩ := (hnext k).mp (Option.isSome_of_mem ha)
      have hnone : ¬ (0 < k + 1 ∧ DEFAULT_SNOWFLAKE_RETRY_CONFIG.includeRetryReason = true) :=
        fun h => Bool.false_ne_true h.2
      rw [((hrun (k + 1)).2 a ha).reason, if_neg hnone]
      exact hreason (hretryable 0 (Nat.zero_le k))

/-- A connection as it is configured without options, and a server that does not answer once. -/
def defaultConfig : ConnectionConfig where
  retrySfMaxNumRetries := 1000
  retrySfStartingSleepTime := 1
  retrySfMaxSleepTime := 16
  includeRetryReason := true
  timeout := 90000

def queryRequest : RequestOptions Unit where
  method := "POST"
  headers := []
  url := ⟨"https://a.snowflakecomputing.com/queries/v1/query-request", [("requestId", "1")]⟩
  json := some ()
  params := []
  excludeGuid := false
  timeout := none
  responseType := none
  useSnowflakeRetryMiddleware := false
  snowflakeRetryConfig := none

def unavailableOnce : Exchange where
  outcome k := if k = 0 then .response 503 else .response 200
  random _ := 1 / 2
  now k := 1000 * k

/-- The retry carries no reason. -/
theorem reason_dropped : ¬ Honoured defaultConfig queryRequest.url unavailableOnce
    (attempt unavailableOnce (statementRequest defaultConfig "g" queryRequest)) := by
  intro h
  have hretried : (attempt unavailableOnce (statementRequest defaultConfig "g" queryRequest)
      1).isSome = true := by decide
  obtain ⟨a, ha⟩ := Option.isSome_iff_exists.mp hretried
  have hreason := h.reason 0 a ha
  rw [((statement_attempts defaultConfig "g" queryRequest unavailableOnce 1).2 a ha).reason]
    at hreason
  exact absurd hreason (by decide)

end

end AxiosInstance

end SnowflakeConnector
