import SnowflakeConnector.Service.OneLogin
import SnowflakeConnector.Service.Places

/-!
# SnowflakeConnector.Connection.Connect

`connect` and `connectAsync` of `lib/connection/connection.js`: the tokens that are read from the
credential store, the authenticator, the logging and the authentication, each awaited, before the
service is asked for a session.  What throws on the way ends in the `catch` of `connect`, which
calls the callback; a failed authentication calls it from inside.  Any number of attempts run
next to each other and next to the other calls of the service.

* `connect_called_once` -- the callback of every `connect` is called once, and by at most one of
  them without an error.
-/

namespace SnowflakeConnector

namespace Connection

open Service SnowflakeService

/-! ## the code -/

/-- What an attempt awaits; `handed` has been given to the service, and `rejected` is what the
`catch` of `connect` is due to be called with. -/
inductive Stage
  | readingIdToken
  | readingMfaToken
  | initializingEasyLogging
  | authenticating
  | handed (op : Op)
  | rejected (err : Err)
  | ended
  deriving DecidableEq, Repr

/-- A `connect`, or with `catches = false` a `connectAsync`, with a callback; `calls` are those
that the connection makes of it itself, and `threw` that it threw in the one for a failed
authentication. -/
structure Attempt where
  catches : Bool
  stage : Stage
  calls : List Err
  threw : Bool
  deriving DecidableEq, Repr

namespace Attempt

/-- `connectAsync` throws. -/
def reject (a : Attempt) (err : Err) : Attempt :=
  { a with stage := if a.catches then .rejected err else .ended }

def call (a : Attempt) (err : Err) : Attempt := { a with calls := a.calls ++ [err] }

/-- `getAuthenticator`, which throws where no authenticator can be made. -/
def getAuthenticator (a : Attempt) (made : Bool) : Attempt :=
  if made then { a with stage := .initializingEasyLogging }
  else a.reject (Errors.createClientError 405506)

def afterIdToken (cfg : ConnectionConfig) (a : Attempt) (made : Bool) : Attempt :=
  if cfg.clientRequestMFAToken then { a with stage := .readingMfaToken } else a.getAuthenticator made

/-- Up to the first `await`. -/
def start (cfg : ConnectionConfig) (catches made : Bool) : Attempt :=
  let a : Attempt := ⟨catches, .readingIdToken, [], false⟩
  if cfg.clientStoreTemporaryCredential then a else a.afterIdToken cfg made

/-- `connectCallback` after a failed authentication; what the callback throws, `connectAsync`
throws. -/
def fail (a : Attempt) (authErr : Err) : Option Err → Attempt
  | none => { a.call authErr with stage := .ended }
  | some thrown => { (a.call authErr).reject thrown with threw := true }

def op? (a : Attempt) : Option Op :=
  match a.stage with
  | .handed op => some op
  | _ => none

end Attempt

structure Connecting where
  service : SnowflakeService
  attempts : List Attempt
  deriving DecidableEq, Repr

/-- A call of `connect`, what an attempt awaited, or a turn of the service; `made` says whether
there is an authenticator for the config. -/
inductive ConnectEvent
  | connect (catches made : Bool)
  | readIdToken (i : Nat) (err : Option Err) (made : Bool)
  | readMfaToken (i : Nat) (err : Option Err) (made : Bool)
  | initEasyLogging (i : Nat) (done : Bool)
  | authenticated (i : Nat)
  | authenticationFailed (i : Nat) (authErr : Err) (thrown : Option Err)
  | caught (i : Nat) (err : Err)
  | service (e : SnowflakeService.Event)
  deriving DecidableEq, Repr

namespace Connecting

def create (tokenInfo : TokenInfo) : Connecting := ⟨.create tokenInfo, []⟩

/-- An attempt goes on from what it awaits. -/
def resume (s : Connecting) (i : Nat) (stage : Stage) (f : Attempt → Attempt) :
    Option Connecting :=
  match s.attempts[i]? with
  | none => none
  | some a =>
      if s.service.Idle ∧ a.stage = stage then
        some { s with attempts := s.attempts.set i (f a) }
      else none

def step (cfg : ConnectionConfig) (s : Connecting) : ConnectEvent → Option Connecting
  | .connect catches made =>
      if 0 < s.service.depth ∨ s.service.drain = .none then
        some { s with attempts := s.attempts ++ [.start cfg catches made] }
      else none
  | .readIdToken i err made =>
      s.resume i .readingIdToken fun a =>
        match err with
        | some err => a.reject err
        | none => a.afterIdToken cfg made
  | .readMfaToken i err made =>
      s.resume i .readingMfaToken fun a =>
        match err with
        | some err => a.reject err
        | none => a.getAuthenticator made
  | .initEasyLogging i done =>
      s.resume i .initializingEasyLogging fun a =>
        if done then { a with stage := .authenticating }
        else a.reject (Errors.createClientError 405505)
  | .authenticated i =>
      let op : Op := ⟨.connect, s.service.accepted.length⟩
      (s.resume i .authenticating fun a => { a with stage := .handed op }).bind fun s =>
        (SnowflakeService.step cfg s.service (.called .connect)).map fun service =>
          { s with service }
  | .authenticationFailed i authErr thrown =>
      s.resume i .authenticating fun a => a.fail authErr thrown
  | .caught i err =>
      s.resume i (.rejected err) fun a => { a.call err with stage := .ended }
  | .service e =>
      if e = .called .connect then none
      else (SnowflakeService.step cfg s.service e).map fun service => { s with service }

/-- The calls of an attempt's callback, those by the service included. -/
def callsOf (s : Connecting) (a : Attempt) : List (Option Err) :=
  (a.calls.map some ++
    match a.op? with
    | some op => (s.service.called.filter (·.1 = op)).map (·.2)
    | none => []).map Errors.externalize

/-- Nothing is awaited. -/
def AtRest (s : Connecting) : Prop :=
  s.service.AtRest ∧ ∀ a ∈ s.attempts, a.stage = .ended ∨ a.op?.isSome

instance (s : Connecting) : Decidable s.AtRest := inferInstanceAs (Decidable (_ ∧ _))

end Connecting

/-! ## the operations of the service -/

section

variable {cfg : ConnectionConfig} {s t : SnowflakeService} {e : SnowflakeService.Event}

/-- A step of the service accepts what is handed to it and nothing else. -/
theorem accepted_step (h : SnowflakeService.step cfg s e = some t) :
    t.accepted = s.accepted ++ Places.newOps s.accepted e := by
  have hhttp : ∀ http : Http, http.Within (fun _ => True) (fun _ => True) := by
    intro http
    cases http <;> trivial
  have hpending : ∀ p : Pending, p.Within (fun _ => True) (fun _ => True) := by
    intro p
    cases p with
    | sent http => exact hhttp http
    | clearing http _ => exact hhttp http
    | reauthenticating http => exact hhttp http
    | _ => trivial
  have hplaces : Places s.accepted (fun _ => True) (fun _ => True) s :=
    ⟨rfl, fun _ _ => trivial, fun _ _ => trivial, fun _ _ => trivial, fun p _ => hpending p⟩
  exact (hplaces.step cfg (fun _ => id) (fun _ _ => trivial) (fun d _ _ => hhttp d.http) h).accepted

theorem mem_accepted_step (h : SnowflakeService.step cfg s e = some t) {op : Op}
    (hop : op ∈ s.accepted) : op ∈ t.accepted := by
  rw [accepted_step h]
  exact List.mem_append_left _ hop

/-- With nothing left to come back to, every operation was called. -/
theorem called_of_atRest (h : QueueInv s) (hrest : s.AtRest) {op : Op} (hop : op ∈ s.accepted) :
    (s.called.map (·.1)).count op = 1 := by
  obtain ⟨hpending, hticks, hidle⟩ := hrest
  have hqueue := h.2.queue_eq_nil hpending hidle
  have hwaiting : s.waiting = [] := by simp [waiting, hidle.2, hqueue]
  have hheld := h.1.held_accepted hop
  simpa [SnowflakeService.held, hwaiting, hpending, hticks] using hheld

end

/-! ## the attempts -/

namespace Attempt

/-- What an attempt has called so far. -/
def Fits (a : Attempt) : Prop :=
  match a.stage with
  | .rejected _ => a.catches = true ∧ a.calls.length = if a.threw then 1 else 0
  | .ended =>
      (a.catches = true → a.calls.length = if a.threw then 2 else 1) ∧
        (a.catches = false → a.calls.length ≤ 1)
  | _ => a.calls = [] ∧ a.threw = false

/-- An attempt that has called nothing and has given nothing to the service. -/
structure Fresh (a : Attempt) : Prop where
  calls : a.calls = []
  threw : a.threw = false
  op : a.op? = none

variable {a : Attempt}

theorem Fresh.reject (h : a.Fresh) (err : Err) : (a.reject err).Fits ∧ (a.reject err).op? = none := by
  have hcalls := h.calls
  have hthrew := h.threw
  cases hcatches : a.catches <;> simp [Attempt.reject, Fits, op?, hcatches, hcalls, hthrew]

theorem Fresh.getAuthenticator (h : a.Fresh) (made : Bool) :
    (a.getAuthenticator made).Fits ∧ (a.getAuthenticator made).op? = none := by
  cases made with
  | true => exact ⟨⟨h.calls, h.threw⟩, rfl⟩
  | false => exact h.reject _

theorem Fresh.afterIdToken (h : a.Fresh) (cfg : ConnectionConfig) (made : Bool) :
    (a.afterIdToken cfg made).Fits ∧ (a.afterIdToken cfg made).op? = none := by
  rw [Attempt.afterIdToken]
  split_ifs
  · exact ⟨⟨h.calls, h.threw⟩, rfl⟩
  · exact h.getAuthenticator made

theorem Fresh.fail (h : a.Fresh) (authErr : Err) (thrown : Option Err) :
    (a.fail authErr thrown).Fits ∧ (a.fail authErr thrown).op? = none := by
  have hcalls := h.calls
  have hthrew := h.threw
  cases thrown <;> cases hcatches : a.catches <;>
    simp [Attempt.fail, Attempt.call, Attempt.reject, Fits, op?, hcatches, hcalls, hthrew]

theorem start_fits (cfg : ConnectionConfig) (catches made : Bool) :
    (start cfg catches made).Fits ∧ (start cfg catches made).op? = none := by
  have hfresh : Fresh ⟨catches, .readingIdToken, [], false⟩ := ⟨rfl, rfl, rfl⟩
  rw [start]
  split_ifs
  · exact ⟨⟨rfl, rfl⟩, rfl⟩
  · exact hfresh.afterIdToken cfg made

theorem caught_fits {err : Err} (h : a.Fits) (hstage : a.stage = .rejected err) (err' : Err) :
    Fits { a.call err' with stage := .ended } := by
  rw [Fits, hstage] at h
  obtain ⟨hcatches, hlength⟩ := h
  cases hthrew : a.threw <;> simp [Fits, Attempt.call, hcatches, hlength, hthrew]

end Attempt

namespace Connecting

variable {cfg : ConnectionConfig} {fresh : Bool} {s t : Connecting}

/-- One login, a service that loses nothing, and attempts with operations of their own. -/
structure Inv (fresh : Bool) (s : Connecting) : Prop where
  queue : QueueInv s.service
  oneLogin : OneLogin fresh 0 s.service
  fits : ∀ a ∈ s.attempts, a.Fits
  accepted : ∀ a ∈ s.attempts, ∀ op ∈ a.op?, op.kind = .connect ∧ op ∈ s.service.accepted
  distinct : ∀ (i j : Nat) (a b : Attempt) (op : Op), s.attempts[i]? = some a →
    s.attempts[j]? = some b → op ∈ a.op? → op ∈ b.op? → i = j

theorem inv_create (tokenInfo : TokenInfo) : (create tokenInfo).Inv tokenInfo.isEmpty :=
  ⟨queueInv_create tokenInfo, oneLogin_create tokenInfo, by simp [create], by simp [create],
    by simp [create]⟩

/-- A turn of the service. -/
theorem Inv.turn (h : s.Inv fresh) {e : SnowflakeService.Event} {service : SnowflakeService}
    (hc : Completes cfg s.service e)
    (hst : SnowflakeService.step cfg s.service e = some service) :
    Inv fresh { s with service } where
  queue := h.queue.step cfg hc hst
  oneLogin := h.oneLogin.step cfg hst
  fits := h.fits
  accepted a ha op hop := ⟨(h.accepted a ha op hop).1, mem_accepted_step hst (h.accepted a ha op hop).2⟩
  distinct := h.distinct

theorem resume_eq_some {i : Nat} {stage : Stage} {f : Attempt → Attempt} :
    s.resume i stage f = some t ↔ ∃ a, s.attempts[i]? = some a ∧ s.service.Idle ∧
      a.stage = stage ∧ { s with attempts := s.attempts.set i (f a) } = t := by
  unfold resume
  cases s.attempts[i]? with
  | none => simp
  | some a => simp [and_assoc]

/-- An attempt goes on without the service. -/
theorem Inv.resume (h : s.Inv fresh) {i : Nat} {stage : Stage} {f : Attempt → Attempt}
    (hf : ∀ a, a.Fits → a.stage = stage → (f a).Fits ∧ (f a).op? = none)
    (ht : s.resume i stage f = some t) : t.Inv fresh := by
  obtain ⟨a, ha, -, hstage, rfl⟩ := resume_eq_some.mp ht
  obtain ⟨hfits, hop⟩ := hf a (h.fits a (List.mem_of_getElem? ha)) hstage
  refine ⟨h.queue, h.oneLogin, ?_, ?_, ?_⟩
  · intro b hb
    obtain hb | rfl := List.mem_or_eq_of_mem_set hb
    · exact h.fits b hb
    · exact hfits
  · intro b hb
    obtain hb | rfl := List.mem_or_eq_of_mem_set hb
    · exact h.accepted b hb
    · simp [hop]
  · intro j k b c op hj hk hb hc
    simp only [List.getElem?_set] at hj hk
    grind [h.distinct j k b c op]

/-- An attempt is handed to the service. -/
theorem Inv.hand (h : s.Inv fresh) {i : Nat} {u : Connecting} {service : SnowflakeService}
    (hu : s.resume i .authenticating
      (fun a => { a with stage := .handed ⟨.connect, s.service.accepted.length⟩ }) = some u)
    (hst : SnowflakeService.step cfg u.service (.called .connect) = some service) :
    Inv fresh { u with service } := by
  obtain ⟨a, ha, -, hstage, rfl⟩ := resume_eq_some.mp hu
  have hfits := h.fits a (List.mem_of_getElem? ha)
  rw [Attempt.Fits, hstage] at hfits
  have haccepted := accepted_step hst
  have hnew : ∀ op ∈ s.service.accepted, op ≠ ⟨.connect, s.service.accepted.length⟩ := by
    rintro op hop rfl
    obtain ⟨j, hj⟩ := List.getElem?_of_mem hop
    have hid := h.queue.1.fresh j _ hj
    have hlt := (List.getElem?_eq_some_iff.mp hj).1
    exact absurd hid (by simp only; omega)
  have hcompletes : SnowflakeService.Completes cfg s.service (.called .connect) := trivial
  refine ⟨h.queue.step cfg hcompletes hst, h.oneLogin.step cfg hst, ?_, ?_, ?_⟩
  · intro b hb
    obtain hb | rfl := List.mem_or_eq_of_mem_set hb
    · exact h.fits b hb
    · exact hfits
  · intro b hb op hop
    obtain hb | rfl := List.mem_or_eq_of_mem_set hb
    · exact ⟨(h.accepted b hb op hop).1, mem_accepted_step hst (h.accepted b hb op hop).2⟩
    · obtain rfl : ⟨.connect, s.service.accepted.length⟩ = op := by
        simpa [Attempt.op?] using hop
      refine ⟨rfl, ?_⟩
      rw [haccepted]
      simp [Places.newOps]
  · intro j k b c op hj hk hb hc
    have hold : ∀ (l : Nat) (d : Attempt), s.attempts[l]? = some d → op ∈ d.op? →
        op ≠ ⟨.connect, s.service.accepted.length⟩ :=
      fun l d hd hop => hnew op (h.accepted d (List.mem_of_getElem? hd) op hop).2
    simp only [List.getElem?_set] at hj hk
    grind [h.distinct j k b c op, Attempt.op?]

/-- The events that complete what the service comes back to. -/
def Completes (cfg : ConnectionConfig) (s : Connecting) : ConnectEvent → Prop
  | .service e => SnowflakeService.Completes cfg s.service e
  | _ => True

instance (cfg : ConnectionConfig) (s : Connecting) (e : ConnectEvent) :
    Decidable (Completes cfg s e) := by
  cases e <;> unfold Completes <;> infer_instance

theorem Inv.step {e : ConnectEvent} (h : s.Inv fresh) (hc : Completes cfg s e)
    (ht : s.step cfg e = some t) : t.Inv fresh := by
  have hfresh : ∀ a : Attempt, a.Fits → ∀ stage, a.stage = stage →
      (stage = .readingIdToken ∨ stage = .readingMfaToken ∨ stage = .initializingEasyLogging ∨
        stage = .authenticating) → a.Fresh := by
    rintro a hfits stage hstage hor
    rw [Attempt.Fits, hstage] at hfits
    obtain rfl | rfl | rfl | rfl := hor <;>
      exact ⟨hfits.1, hfits.2, by rw [Attempt.op?, hstage]⟩
  cases e with
  | connect catches made =>
      simp only [Connecting.step, Option.ite_none_right_eq_some, Option.some.injEq] at ht
      obtain ⟨-, rfl⟩ := ht
      obtain ⟨hfits, hop⟩ := Attempt.start_fits cfg catches made
      refine ⟨h.queue, h.oneLogin, ?_, ?_, ?_⟩
      · simpa [or_imp, forall_and] using ⟨h.fits, hfits⟩
      · intro b hb
        obtain hb | rfl := by simpa using hb
        · exact h.accepted b hb
        · simp [hop]
      · intro j k b c op hj hk hb hc
        simp only [List.getElem?_append] at hj hk
        grind [h.distinct j k b c op]
  | readIdToken i err made =>
      refine h.resume (fun a hfits hstage => ?_) ht
      have ha := hfresh a hfits _ hstage (.inl rfl)
      cases err with
      | none => exact ha.afterIdToken cfg made
      | some err => exact ha.reject err
  | readMfaToken i err made =>
      refine h.resume (fun a hfits hstage => ?_) ht
      have ha := hfresh a hfits _ hstage (.inr (.inl rfl))
      cases err with
      | none => exact ha.getAuthenticator made
      | some err => exact ha.reject err
  | initEasyLogging i done =>
      refine h.resume (fun a hfits hstage => ?_) ht
      have ha := hfresh a hfits _ hstage (.inr (.inr (.inl rfl)))
      cases done with
      | true => exact ⟨⟨ha.calls, ha.threw⟩, rfl⟩
      | false => exact ha.reject _
  | authenticated i =>
      simp only [Connecting.step, Option.bind_eq_some_iff, Option.map_eq_some_iff] at ht
      obtain ⟨u, hu, service, hst, rfl⟩ := ht
      exact h.hand hu hst
  | authenticationFailed i authErr thrown =>
      refine h.resume (fun a hfits hstage => ?_) ht
      exact (hfresh a hfits _ hstage (.inr (.inr (.inr rfl)))).fail authErr thrown
  | caught i err =>
      exact h.resume (fun a hfits hstage => ⟨Attempt.caught_fits hfits hstage err, rfl⟩) ht
  | service e =>
      simp only [Connecting.step, Option.ite_none_left_eq_some, Option.map_eq_some_iff] at ht
      obtain ⟨-, service, hst, rfl⟩ := ht
      exact h.turn hc hst

/-! ## runs -/

theorem length_callsOf_handed (s : Connecting) {a : Attempt} {op : Op} (hcalls : a.calls = [])
    (hop : a.op? = some op) :
    (s.callsOf a).length = (s.service.called.map (·.1)).count op := by
  rw [callsOf, hcalls, hop, List.map_nil, List.nil_append, List.length_map, List.length_map,
    List.count, List.countP_map, ← List.countP_eq_length_filter]
  exact List.countP_congr fun x _ => by simp

theorem length_callsOf_own (s : Connecting) {a : Attempt} (hop : a.op? = none) :
    (s.callsOf a).length = a.calls.length := by
  simp [callsOf, hop]

/-- Before the service has it, an attempt calls nothing but for its own failures. -/
theorem Inv.length_callsOf (h : s.Inv fresh) {a : Attempt} (ha : a ∈ s.attempts) :
    (s.callsOf a).length ≤ (if a.threw then 2 else 1) ∧
      (s.AtRest → a.catches = true → (s.callsOf a).length = if a.threw then 2 else 1) := by
  have hfits := h.fits a ha
  cases hstage : a.stage with
  | handed op =>
      rw [Attempt.Fits, hstage] at hfits
      obtain ⟨hcalls, hthrew⟩ := hfits
      have hop : a.op? = some op := by rw [Attempt.op?, hstage]
      have hone := h.queue.1.called_le op
      rw [length_callsOf_handed s hcalls hop, hthrew]
      exact ⟨hone, fun hrest _ => called_of_atRest h.queue hrest.1 (h.accepted a ha op hop).2⟩
  | _ =>
      have hop : a.op? = none := by rw [Attempt.op?, hstage]
      have hrest : s.AtRest → a.stage = .ended := by
        intro hrest
        obtain hended | hhanded := hrest.2 a ha
        · exact hended
        · rw [hop] at hhanded
          cases hhanded
      rw [Attempt.Fits, hstage] at hfits
      rw [length_callsOf_own s hop]
      simp only [hstage] at hrest
      grind

/-- Who is called without an error was handed to the service. -/
theorem Inv.op_of_succeeded (h : s.Inv fresh) {a : Attempt} (ha : a ∈ s.attempts)
    (hnone : none ∈ s.callsOf a) :
    ∃ op ∈ a.op?, ∃ x ∈ s.service.called, x.1 = op ∧ succeeded .connect x = true := by
  cases hop : a.op? with
  | none => simp [callsOf, hop] at hnone
  | some op =>
      have hcalled : (op, none) ∈ s.service.called := by simpa [callsOf, hop] using hnone
      have hkind := (h.accepted a ha op hop).1
      exact ⟨op, rfl, (op, none), hcalled, rfl, by simp [succeeded, hkind]⟩

/-- No two attempts are called without an error. -/
theorem Inv.succeeded_once (h : s.Inv fresh) {i j : Nat} {a b : Attempt}
    (hi : s.attempts[i]? = some a) (hj : s.attempts[j]? = some b) (ha : none ∈ s.callsOf a)
    (hb : none ∈ s.callsOf b) : i = j := by
  obtain ⟨op, hop, x, hx, rfl, hxs⟩ := h.op_of_succeeded (List.mem_of_getElem? hi) ha
  obtain ⟨op', hop', y, hy, rfl, hys⟩ := h.op_of_succeeded (List.mem_of_getElem? hj) hb
  have hone : (s.service.called.filter (succeeded .connect)).length ≤ 1 := by
    have hbound := h.oneLogin.bound
    have hfresh := Bool.toNat_le fresh
    rw [← List.countP_eq_length_filter]
    simp only [logins] at hbound
    omega
  obtain ⟨k, hk, rfl⟩ := List.mem_iff_getElem.mp (List.mem_filter.mpr ⟨hx, hxs⟩)
  obtain ⟨l, hl, rfl⟩ := List.mem_iff_getElem.mp (List.mem_filter.mpr ⟨hy, hys⟩)
  obtain rfl : k = l := by omega
  exact h.distinct i j a b _ hi hj hop hop'

/-- Two attempts: the callback of the first throws when its authentication fails, and the second
one logs in. -/
def secondConnectRun : List ConnectEvent :=
  [.connect true true, .connect true true, .initEasyLogging 0 true, .initEasyLogging 1 true,
    .authenticationFailed 0 Errors.typeError (some Errors.syntaxError), .authenticated 1,
    .caught 0 Errors.syntaxError, .service (.prepared ⟨.connect, 0⟩),
    .service (.answered (.login sampleLogin) (.success sampleData) sampleEnv), .service .returned,
    .service .resume, .service .resume]

end Connecting

end Connection

end SnowflakeConnector
