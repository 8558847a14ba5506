import SnowflakeConnector.AxiosInstance
import SnowflakeConnector.Errors
import SnowflakeConnector.Lts

/-!
# SnowflakeConnector.LargeResultSet

The download of a chunk: `getObject` of `lib/services/large_result_set.js`, as the events that it
waits for.  A request completes, or the time before the next one has passed; times are rational
numbers of seconds, and every completion comes with the number that `Math.random()` would give.

* `Inv` -- what holds of a download in every state.
* `getObject_retries` -- how often it is tried, and what the callback gets.
-/

namespace SnowflakeConnector

namespace LargeResultSet

open AxiosInstance (isRetryableHttpError nextSleepTime)

variable {B : Type*}

/-- A response; `contentType` is its `Content-Type` header. -/
structure Response (B : Type*) where
  statusCode : Nat
  contentType : Option String
  body : B

/-- How a request completes: with an error of the client, of which the code counts, or with a
response of the server. -/
inductive Outcome (B : Type*)
  | failed (code : ErrCode)
  | answered (response : Response B)

/-! ## what is retried -/

def isRetryableClientError (err : Option ErrCode) : Bool :=
  match err with
  | some code => code ≠ .str "ERR_CANCELED"
  | none => false

/-- 403 is retried too. -/
def isRetryableError (response : Option (Response B)) (err : Option ErrCode) : Bool :=
  (match response with
    | some r => isRetryableHttpError r.statusCode true
    | none => false) ||
  isRetryableClientError err

/-- Even a 200 can come with an error, as XML. -/
def isUnsuccessfulResponse (response : Option (Response B)) : Bool :=
  match response with
  | some r => r.statusCode ≠ 200 ∨ r.contentType = some "application/xml"
  | none => false

/-! ## a download -/

/-- Both parameters are non-negative integers. -/
structure ConnectionConfig where
  retryLargeResultSetMaxNumRetries : Nat
  retryLargeResultSetMaxSleepTime : Nat

structure Options where
  maxNumRetries : Option Nat
  hasCallback : Bool

def maxNumRetries (config : ConnectionConfig) (options : Options) : Nat :=
  options.maxNumRetries.getD config.retryLargeResultSetMaxNumRetries

/-- An error of the callback, and the response that it carries. -/
structure Failure (B : Type*) where
  err : Err
  response : Option (Response B)

def largeResultSetError (response : Response B) : Failure B :=
  ⟨Errors.createLargeResultSetError 402002 (some response.statusCode), some response⟩

def networkError (cause : ErrCode) : Failure B :=
  ⟨Errors.createNetworkError 402001 cause, none⟩

/-- What the download waits for. -/
inductive Pending
  | request
  | timeout
  | nothing
  deriving DecidableEq

/-- The variables of `getObject`, what it waits for, and what has happened so far. -/
structure State (B : Type*) where
  numRetries : Nat
  sleep : ℚ
  pending : Pending
  requests : Nat
  outcomes : List (Outcome B)
  sleeps : List ℚ
  calls : List (Option (Failure B) × Option B)

/-- A number that `Math.random()` can give. -/
abbrev Draw := {random : ℚ // 0 ≤ random ∧ random < 1}

inductive Event (B : Type*)
  | completed (outcome : Outcome B) (random : Draw)
  | timeout

def sendRequest (s : State B) : State B :=
  { s with pending := .request, requests := s.requests + 1 }

def getObject : State B := sendRequest ⟨0, 1, .nothing, 0, [], [], []⟩

/-- `options.callback(err, body)`; what it throws is only logged. -/
def complete (options : Options) (s : State B) (err : Option (Failure B)) (body : Option B) :
    State B :=
  { s with
    pending := .nothing
    calls := if options.hasCallback then
        s.calls ++ [(err, if err.isSome then none else body)]
      else s.calls }

/-- Invoked when the request completes. -/
def callback (config : ConnectionConfig) (options : Options) (s : State B) (random : Draw)
    (err : Option ErrCode) (response : Option (Response B)) (body : Option B) : State B :=
  if err.isSome = true ∨ isUnsuccessfulResponse response = true then
    if s.numRetries < maxNumRetries config options ∧ isRetryableError response err = true then
      let sleep := nextSleepTime 1 config.retryLargeResultSetMaxSleepTime s.sleep random
      { s with
        numRetries := s.numRetries + 1
        sleep := sleep
        pending := .timeout
        sleeps := s.sleeps ++ [sleep] }
    else
      match response with
      | some r =>
          if isUnsuccessfulResponse (some r) = true then
            complete options s (some (largeResultSetError r)) body
          else complete options s (some (networkError (err.getD .undefined))) body
      | none => complete options s (some (networkError (err.getD .undefined))) body
  else complete options s none body

def step (config : ConnectionConfig) (options : Options) (s : State B) :
    Event B → Option (State B)
  | .completed outcome random =>
      if s.pending = .request then
        let s := { s with outcomes := s.outcomes ++ [outcome] }
        match outcome with
        | .failed code => some (callback config options s random (some code) none none)
        | .answered r => some (callback config options s random none (some r) (some r.body))
      else none
  | .timeout => if s.pending = .timeout then some (sendRequest s) else none

/-! ## outcomes -/

/-- A 200 that is no error as XML. -/
def Response.IsProper (response : Response B) : Prop :=
  response.statusCode = 200 ∧ response.contentType ≠ some "application/xml"

/-- The outcomes after which a request is sent again: not a cancelled one, and not one of another
status. -/
def Outcome.Retryable : Outcome B → Prop
  | .failed code => code ≠ .str "ERR_CANCELED"
  | .answered r =>
      500 ≤ r.statusCode ∧ r.statusCode < 600 ∨ r.statusCode = 403 ∨ r.statusCode = 408 ∨
        r.statusCode = 429

/-- What the callback gets when an outcome is the last one. -/
def Outcome.Delivers : Outcome B → Option (Failure B) × Option B → Prop
  | .failed code, call => call = (some (networkError code), none)
  | .answered r, call =>
      r.IsProper ∧ call = (none, some r.body) ∨
        ¬ r.IsProper ∧ call = (some (largeResultSetError r), none)

theorem isUnsuccessfulResponse_iff {r : Response B} :
    isUnsuccessfulResponse (some r) = true ↔ ¬ r.IsProper := by
  simp [isUnsuccessfulResponse, Response.IsProper, imp_iff_not_or]

variable {config : ConnectionConfig} {options : Options} {s t : State B}

/-- What a completion comes to: the next sleep, while there are retries left and the outcome is
retryable, and the callback otherwise. -/
theorem step_completed {outcome : Outcome B} {random : Draw}
    (h : step config options s (.completed outcome random) = some t) :
    s.pending = .request ∧
    ((outcome.Retryable ∧ s.numRetries < maxNumRetries config options ∧
        t = { s with
          numRetries := s.numRetries + 1
          outcomes := s.outcomes ++ [outcome]
          sleep := nextSleepTime 1 config.retryLargeResultSetMaxSleepTime s.sleep random
          pending := .timeout
          sleeps := s.sleeps ++
            [nextSleepTime 1 config.retryLargeResultSetMaxSleepTime s.sleep random] }) ∨
      ∃ call, outcome.Delivers call ∧
        t = { s with
          outcomes := s.outcomes ++ [outcome]
          pending := .nothing
          calls := if options.hasCallback then s.calls ++ [call] else s.calls }) := by
  simp only [step] at h
  split_ifs at h with hpending
  refine ⟨hpending, ?_⟩
  cases outcome with
  | failed code =>
      simp only [Option.some.injEq, callback, Option.isSome_some, true_or, if_true] at h
      split_ifs at h with hretry
      · obtain ⟨hlt, hretryable⟩ := hretry
        refine .inl ⟨?_, hlt, h.symm⟩
        simpa [isRetryableError, isRetryableClientError, Outcome.Retryable] using hretryable
      · exact .inr ⟨_, rfl, by simpa [complete] using h.symm⟩
  | answered r =>
      by_cases hproper : r.IsProper
      · have hsuccess : isUnsuccessfulResponse (some r) = false := by
          simpa [hproper] using isUnsuccessfulResponse_iff (r := r)
        simp only [Option.some.injEq, callback, hsuccess, Option.isSome_none, Bool.false_eq_true,
          or_self, if_false] at h
        exact .inr ⟨_, .inl ⟨hproper, rfl⟩, by simpa [complete] using h.symm⟩
      · have hsuccess := isUnsuccessfulResponse_iff.mpr hproper
        simp only [Option.some.injEq, callback, hsuccess, or_true, if_true] at h
        split_ifs at h with hretry
        · obtain ⟨hlt, hretryable⟩ := hretry
          refine .inl ⟨?_, hlt, h.symm⟩
          simpa [isRetryableError, isRetryableClientError, isRetryableHttpError, Outcome.Retryable]
            using hretryable
        · exact .inr ⟨_, .inr ⟨hproper, rfl⟩, by simpa [complete] using h.symm⟩

theorem step_timeout (h : step config options s .timeout = some t) :
    s.pending = .timeout ∧ t = { s with pending := .request, requests := s.requests + 1 } := by
  simp only [step] at h
  split_ifs at h with hpending
  exact ⟨hpending, (Option.some.inj h).symm⟩

/-- A download that waits for something goes on, whatever happens. -/
theorem quiescent_iff : Lts.Quiescent (step config options) s ↔ s.pending = .nothing := by
  constructor
  · intro h
    cases hpending : s.pending with
    | request =>
        have := h (.completed (.failed .undefined) ⟨0, by norm_num⟩)
        simp [step, hpending] at this
    | timeout =>
        have := h .timeout
        simp [step, hpending] at this
    | nothing => rfl
  · intro h e
    cases e <;> simp [step, h]

/-! ## times -/

/-- Where the last sleep was not too short, the next one lies between a second, or the cap where
that is less, and the cap. -/
theorem nextSleepTime_bounds {cap sleep : ℚ} (hcap : 0 ≤ cap) (hsleep : min 1 cap ≤ sleep)
    (random : Draw) :
    min 1 cap ≤ nextSleepTime 1 cap sleep random ∧ nextSleepTime 1 cap sleep random ≤ cap := by
  refine ⟨?_, min_le_left _ _⟩
  have hjitter : 0 ≤ |sleep * 3 - 1| * (random : ℚ) :=
    mul_nonneg (abs_nonneg _) random.2.1
  have hbase : min 1 cap ≤ min 1 (sleep * 3) := by
    refine le_min (min_le_left _ _) ?_
    have : 0 ≤ min 1 cap := le_min (by norm_num) hcap
    linarith
  refine le_min (min_le_right _ _) ?_
  linarith

/-! ## what holds in every state -/

/-- What holds of a download, whatever it waits for. -/
structure Inv (config : ConnectionConfig) (options : Options) (s : State B) : Prop where
  numRetries : s.numRetries ≤ maxNumRetries config options
  requests : s.requests = s.numRetries + if s.pending = .timeout then 0 else 1
  sleep : min 1 (config.retryLargeResultSetMaxSleepTime : ℚ) ≤ s.sleep
  sleeps : ∀ x ∈ s.sleeps, min 1 (config.retryLargeResultSetMaxSleepTime : ℚ) ≤ x ∧
    x ≤ config.retryLargeResultSetMaxSleepTime
  retried : s.pending ≠ .nothing → (∀ o ∈ s.outcomes, o.Retryable) ∧ s.calls = []
  last : s.pending = .nothing → ∃ earlier o call, s.outcomes = earlier ++ [o] ∧
    (∀ o ∈ earlier, o.Retryable) ∧ o.Delivers call ∧
    s.calls = if options.hasCallback then [call] else []

theorem Inv.initial : Inv config options (getObject : State B) where
  numRetries := Nat.zero_le _
  requests := rfl
  sleep := min_le_left _ _
  sleeps := by simp [getObject, sendRequest]
  retried := fun _ => by simp [getObject, sendRequest]
  last := fun h => by simp [getObject, sendRequest] at h

theorem Inv.step (e : Event B) (hinv : Inv config options s)
    (h : step config options s e = some t) : Inv config options t := by
  cases e with
  | timeout =>
      obtain ⟨hpending, rfl⟩ := step_timeout h
      have hrequests := hinv.requests
      have hretried := hinv.retried (by simp [hpending])
      exact
        { numRetries := hinv.numRetries
          requests := by simpa [hpending] using hrequests
          sleep := hinv.sleep
          sleeps := hinv.sleeps
          retried := fun _ => hretried
          last := fun h => by simp at h }
  | completed outcome random =>
      obtain ⟨hpending, ⟨hretryable, hlt, rfl⟩ | ⟨call, hcall, rfl⟩⟩ := step_completed h
      all_goals
        have hrequests := hinv.requests
        obtain ⟨houtcomes, hcalls⟩ := hinv.retried (by simp [hpending])
      · have hbounds := nextSleepTime_bounds (Nat.cast_nonneg _) hinv.sleep random
        exact
          { numRetries := hlt
            requests := by simpa [hpending] using hrequests
            sleep := hbounds.1
            sleeps := by
              intro x hx
              simp only [List.mem_append, List.mem_singleton] at hx
              obtain hx | rfl := hx
              · exact hinv.sleeps x hx
              · exact hbounds
            retried := fun _ => ⟨by simpa [or_imp, forall_and, hretryable] using houtcomes, hcalls⟩
            last := fun h => by simp at h }
      · exact
          { numRetries := hinv.numRetries
            requests := by simpa [hpending] using hrequests
            sleep := hinv.sleep
            sleeps := hinv.sleeps
            retried := fun h => by simp at h
            last := fun _ => ⟨s.outcomes, outcome, call, rfl, houtcomes, hcall, by simp [hcalls]⟩ }

/-- How many events are left, at most. -/
def remaining (config : ConnectionConfig) (options : Options) (s : State B) : Nat :=
  match s.pending with
  | .request => 2 * (maxNumRetries config options - s.numRetries) + 1
  | .timeout => 2 * (maxNumRetries config options - s.numRetries) + 2
  | .nothing => 0

theorem remaining_step {e : Event B} (h : step config options s e = some t) :
    remaining config options t + 1 ≤ remaining config options s := by
  cases e with
  | timeout =>
      obtain ⟨hpending, rfl⟩ := step_timeout h
      simp [remaining, hpending]
  | completed outcome random =>
      obtain ⟨hpending, ⟨_, hlt, rfl⟩ | ⟨call, _, rfl⟩⟩ := step_completed h
      · simp only [remaining, hpending]
        omega
      · simp [remaining, hpending]

/-! ## runs -/

def Event.outcome? : Event B → Option (Outcome B)
  | .completed outcome _ => some outcome
  | .timeout => none

theorem outcomes_step {e : Event B} (h : step config options s e = some t) :
    t.outcomes = s.outcomes ++ e.outcome?.toList := by
  cases e with
  | timeout =>
      obtain ⟨_, rfl⟩ := step_timeout h
      simp [Event.outcome?]
  | completed outcome random =>
      obtain ⟨_, ⟨_, _, rfl⟩ | ⟨_, _, rfl⟩⟩ := step_completed h <;> rfl

/-- The outcomes of a download are those of its events. -/
theorem outcomes_exec {es : List (Event B)} (h : Lts.exec (step config options) s es = some t) :
    t.outcomes = s.outcomes ++ es.filterMap Event.outcome? := by
  induction es generalizing s with
  | nil =>
      cases h
      simp
  | cons e es ih =>
      obtain ⟨u, hu, hrest⟩ := Lts.exec_cons_eq_some.mp h
      rw [ih hrest, outcomes_step hu]
      cases he : e.outcome? <;> simp [he]

/-- In every state of a download: it has been tried no more often than the retries allow, each sleep
was in its bounds, and only retryable outcomes were followed by another request.  It ends after
so many events, and then the callback has been called once, with what the last outcome delivers. -/
theorem getObject_retries (hcallback : options.hasCallback = true) {es : List (Event B)}
    (h : Lts.exec (step config options) getObject es = some s) :
    s.requests ≤ 1 + maxNumRetries config options ∧
    es.length ≤ 2 * maxNumRetries config options + 1 ∧
    (∀ x ∈ s.sleeps, min 1 (config.retryLargeResultSetMaxSleepTime : ℚ) ≤ x ∧
      x ≤ config.retryLargeResultSetMaxSleepTime) ∧
    (¬ Lts.Quiescent (step config options) s →
      (∀ o ∈ es.filterMap Event.outcome?, o.Retryable) ∧ s.calls = []) ∧
    (Lts.Quiescent (step config options) s →
      ∃ earlier o call, es.filterMap Event.outcome? = earlier ++ [o] ∧
        (∀ o ∈ earlier, o.Retryable) ∧ o.Delivers call ∧ s.calls = [call]) := by
  have hinv : Inv config options s :=
    Lts.exec_invariant (fun _ e _ hinv hstep => hinv.step e hstep) Inv.initial h
  have houtcomes : s.outcomes = es.filterMap Event.outcome? := by
    simpa [getObject, sendRequest] using outcomes_exec h
  refine ⟨?_, ?_, hinv.sleeps, fun hpending => ?_, fun hend => ?_⟩
  · have hrequests := hinv.requests
    have hnumRetries := hinv.numRetries
    split_ifs at hrequests <;> omega
  · have hdecrease : ∀ (s : State B) (e : Event B) (t : State B), True → True →
        step config options s e = some t →
        True ∧ remaining config options t + (if true = true then 1 else 0) ≤
          remaining config options s :=
      fun s e t _ _ hstep => ⟨trivial, by simpa using remaining_step hstep⟩
    have hlength := Lts.length_filter_le hdecrease trivial (Lts.along_true _ _) h
    simp only [List.filter_true, remaining, getObject, sendRequest] at hlength
    omega
  · rw [← houtcomes]
    exact hinv.retried (mt quiescent_iff.mpr hpending)
  · rw [← houtcomes]
    simpa [hcallback] using hinv.last (quiescent_iff.mp hend)

/-- A 403 without retries is tried once. -/
theorem getObject_retries_forbidden :
    ∃ s : State Unit,
      Lts.exec (step ⟨0, 16⟩ ⟨none, true⟩) getObject
        [.completed (.answered ⟨403, none, ()⟩) ⟨0, by norm_num⟩] = some s ∧
      s.calls = [(some (largeResultSetError ⟨403, none, ()⟩), none)] ∧ s.requests ≤ 1 + 0 := by
  refine ⟨_, rfl, rfl, ?_⟩
  exact (@getObject_retries Unit ⟨0, 16⟩ ⟨none, true⟩ _ rfl
    [.completed (.answered ⟨403, none, ()⟩) ⟨0, by norm_num⟩] rfl).1

end LargeResultSet

end SnowflakeConnector
