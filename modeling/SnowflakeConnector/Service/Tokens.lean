import SnowflakeConnector.Service.Queue

/-!
# SnowflakeConnector.Service.Tokens

Where the tokens of a session come from.  The states share one `TokenInfo`, which a
login or a renewal updates from within its callback, whatever state the service is in
by then, and a logout clears.

A service that was never disconnected has a session only with tokens that were handed to
it together: those it was created with, if complete, or those of one answer.  Until then
nothing but logins is out.

* `Provenance.step` -- what one step keeps.
* `tokens_granted` -- what holds in every state of every run.
-/

namespace SnowflakeConnector

namespace Service

/-- What is pending is the storing of the credentials of a login that succeeded. -/
def Pending.Stores : Pending → Prop
  | .writing _ _ _ => True
  | _ => False

namespace SnowflakeService

/-- The tokens that the call of a callback grants: those of a login or a renewal that
succeeds with data. -/
def Delivery.tokens (d : Delivery) : Option TokenInfo :=
  match d.http, d.err with
  | .op _, _ => none
  | _, some _ => none
  | _, none => (d.body.bind (·.data)).map fun data => .ofData data d.env.currentTime

/-- The event grants these tokens. -/
def Grants (cfg : ConnectionConfig) (e : Event) (t : TokenInfo) : Prop :=
  ∃ d ∈ delivery cfg e, d.tokens = some t

/-- The tokens that a session may have: those the service was created with, if they are
complete, and those that were answered, `A`. -/
def Granted (first : TokenInfo) (A : TokenInfo → Prop) (t : TokenInfo) : Prop :=
  (first.isEmpty = false ∧ t = first) ∨ A t

/-- Without a session so far: only logins are under way, and tokens are granted before
the credentials that came with them are stored. -/
structure Opening (G : TokenInfo → Prop) (s : SnowflakeService) : Prop where
  state : s.currentState = .pristine ∨ s.currentState = .connecting
  logins : ∀ p ∈ s.pending, p.logsIn = true
  stores : ∀ p ∈ s.pending, p.Stores → G s.tokenInfo

/-- With a session: its tokens are granted. -/
structure Opened (G : TokenInfo → Prop) (s : SnowflakeService) : Prop where
  state : s.currentState = .connected ∨ s.currentState = .renewing
  granted : G s.tokenInfo

/-- The tokens are the ones `first` handed to the constructor, cleared, or answered; and
a service that was not disconnected has yet to open a session or has a granted one. -/
structure Provenance (first : TokenInfo) (A : TokenInfo → Prop) (s : SnowflakeService) :
    Prop where
  origin : s.tokenInfo = first ∨ s.tokenInfo = .cleared ∨ A s.tokenInfo
  session : SfState.disconnected ∉ s.entered →
    Opening (Granted first A) s ∨ Opened (Granted first A) s

theorem provenance_create (first : TokenInfo) (A : TokenInfo → Prop) :
    Provenance first A (create first) := by
  refine ⟨.inl rfl, fun _ => ?_⟩
  cases hempty : first.isEmpty with
  | true => exact .inl ⟨by simp [create, hempty], by simp [create], by simp [create]⟩
  | false => exact .inr ⟨by simp [create, hempty], .inl ⟨hempty, rfl⟩⟩

variable {first : TokenInfo} {A : TokenInfo → Prop} {s t : SnowflakeService}

namespace Provenance

/-- What neither changes the tokens nor the state, with nothing new under way. -/
theorem congr (h : Provenance first A s) (hs : t.currentState = s.currentState)
    (he : t.entered = s.entered) (ht : t.tokenInfo = s.tokenInfo)
    (hp : ∀ p ∈ t.pending, p ∈ s.pending) : Provenance first A t := by
  refine ⟨ht ▸ h.origin, fun hd => ?_⟩
  obtain hopening | hopened := h.session (he ▸ hd)
  · refine .inl ⟨hs ▸ hopening.state, fun p hpt => hopening.logins p (hp p hpt), ?_⟩
    intro p hpt hstores
    rw [ht]
    exact hopening.stores p (hp p hpt) hstores
  · exact .inr ⟨hs ▸ hopened.state, ht ▸ hopened.granted⟩

/-- Something new under way, which belongs to a login until there is a session. -/
theorem await (h : Provenance first A s) (p : Pending)
    (hp : SfState.disconnected ∉ s.entered → Opening (Granted first A) s →
      p.logsIn = true ∧ (p.Stores → Granted first A s.tokenInfo)) :
    Provenance first A (s.await p) := by
  refine ⟨h.origin, fun hd => ?_⟩
  obtain hopening | hopened := h.session hd
  · obtain ⟨hlogin, hstores⟩ := hp hd hopening
    refine .inl ⟨hopening.state, ?_, ?_⟩
    · intro q hq
      obtain hq | rfl := by simpa using hq
      · exact hopening.logins q hq
      · exact hlogin
    · intro q hq
      obtain hq | rfl := by simpa using hq
      · exact hopening.stores q hq
      · exact hstores
  · exact .inr ⟨hopened.state, hopened.granted⟩

/-- A login goes on. -/
theorem awaitLogin (h : Provenance first A s) {p : Pending} (hlogin : p.logsIn = true)
    (hstores : ¬ p.Stores) : Provenance first A (s.await p) :=
  h.await p fun _ _ => ⟨hlogin, fun hp => absurd hp hstores⟩

/-- The service goes on logging in. -/
theorem transitionToConnecting (h : Provenance first A s) (hs : s.currentState = .pristine)
    (op : Op) : Provenance first A (s.transitionToConnecting op) := by
  refine awaitLogin (p := .preparing op) ?_ rfl id
  rw [transitionTo_eq]
  refine ⟨h.origin, fun hd => ?_⟩
  have hbefore : SfState.disconnected ∉ s.entered := fun hmem => hd (by simp [hmem])
  obtain hopening | hopened := h.session hbefore
  · exact .inl ⟨.inr rfl, by simpa using hopening.logins, by simpa using hopening.stores⟩
  · cases hopened.state <;> simp_all

/-- A session is opened or renewed with granted tokens. -/
theorem transitionTo (h : Provenance first A s) {state : SfState}
    (hstate : state = .connected ∨ state = .renewing)
    (hG : SfState.disconnected ∉ s.entered → Granted first A s.tokenInfo) :
    Provenance first A (s.transitionTo state) := by
  rw [transitionTo_eq]
  refine ⟨h.origin, fun hd => .inr ⟨hstate, hG fun hmem => hd ?_⟩⟩
  exact List.mem_append_left _ hmem

/-- From then on, the service was disconnected. -/
theorem transitionToDisconnected (h : Provenance first A s) :
    Provenance first A s.transitionToDisconnected := by
  refine ⟨.inr (.inl rfl), fun hd => absurd ?_ hd⟩
  simp only [SnowflakeService.transitionToDisconnected, transitionTo_eq, List.mem_append]
  by_cases hs : s.currentState = .disconnected
  · left
    by_contra hbefore
    obtain hopening | hopened := h.session hbefore
    · cases hopening.state <;> simp_all
    · cases hopened.state <;> simp_all
  · right
    simp [hs]

/-- An answer brings its tokens. -/
theorem tokens (h : Provenance first A s) {tokenInfo : TokenInfo} (hA : A tokenInfo) :
    Provenance first A { s with tokenInfo } := by
  refine ⟨.inr (.inr hA), fun hd => ?_⟩
  obtain hopening | hopened := h.session hd
  · exact .inl ⟨hopening.state, hopening.logins, fun _ _ _ => .inr hA⟩
  · exact .inr ⟨hopened.state, .inr hA⟩

theorem nextTick (h : Provenance first A s) (op : Op) (errorCode : Nat) :
    Provenance first A (s.nextTick op errorCode) := h.congr rfl rfl rfl fun _ hp => hp

theorem enqueue (h : Provenance first A s) (op : Op) : Provenance first A (s.enqueue op) :=
  h.congr rfl rfl rfl fun _ hp => hp

theorem call (h : Provenance first A s) (op : Op) (err : Option Err) :
    Provenance first A (s.call op err) := h.congr rfl rfl rfl fun _ hp => hp

theorem due (h : Provenance first A s) : Provenance first A { s with drain := .due } :=
  h.congr rfl rfl rfl fun _ hp => hp

theorem execute (cfg : ConnectionConfig) (h : Provenance first A s) (op : Op) :
    Provenance first A (s.execute cfg op) := by
  obtain ⟨-, hs, heq⟩ | ⟨errorCode, heq⟩ | ⟨-, -, heq⟩ | ⟨-, hs, heq⟩ | ⟨-, -, -, heq⟩ :=
    execute_cases cfg s op
  · rw [heq]
    exact h.transitionToConnecting hs op
  · rw [heq]
    exact h.nextTick op errorCode
  · rw [heq]
    exact h.enqueue op
  · rw [heq]
    refine h.await _ fun _ hopening => ?_
    cases hopening.state <;> simp_all
  · rw [heq]
    exact h.transitionToDisconnected.call op none

/-! ## the callbacks -/

theorem onRequestAnswer (h : Provenance first A s) (op : Op) (err : Option Err)
    (hG : SfState.disconnected ∉ s.entered → Granted first A s.tokenInfo) :
    Provenance first A (s.onRequestAnswer op err) := by
  unfold SnowflakeService.onRequestAnswer
  cases err with
  | none => exact h.call op none
  | some e =>
      simp only
      split_ifs
      · exact (h.enqueue op).transitionTo (.inr rfl) hG
      · exact (h.enqueue op).transitionToDisconnected.due
      · exact h.call op (some e)

theorem onDestroyAnswer (h : Provenance first A s) (op : Op) (err : Option Err) :
    Provenance first A (s.onDestroyAnswer op err) := by
  unfold SnowflakeService.onDestroyAnswer
  cases err with
  | none => exact h.transitionToDisconnected.call op none
  | some e =>
      simp only
      split_ifs
      · exact h.transitionToDisconnected.call op none
      · exact h.call op (some e)

theorem onRenewAnswer (h : Provenance first A s) (err : Option Err) (body : Option Body)
    (env : Env) (hA : ∀ t ∈ Delivery.tokens ⟨.renew, err, body, env⟩, A t)
    (hG : SfState.disconnected ∉ s.entered → Granted first A s.tokenInfo) :
    Provenance first A (s.onRenewAnswer err body env.currentTime) := by
  unfold SnowflakeService.onRenewAnswer
  cases err with
  | none =>
      cases hb : body.bind (·.data) with
      | none => exact h
      | some data =>
          have hdata : A (.ofData data env.currentTime) := hA _ (by simp [Delivery.tokens, hb])
          exact ((h.tokens hdata).transitionTo (.inl rfl) fun _ => .inr hdata).due
  | some e =>
      simp only
      split_ifs
      · exact h.transitionToDisconnected.due
      · exact (h.transitionTo (.inl rfl) hG).due
      · exact h.transitionToDisconnected.due

/-- A login that stores its credentials has brought its tokens. -/
theorem writeCredentials (h : Provenance first A s) (op : Op) (keys : List Credential)
    (hG : SfState.disconnected ∉ s.entered → Granted first A s.tokenInfo) :
    Provenance first A (s.writeCredentials op keys) := by
  cases keys with
  | nil => exact ((h.transitionTo (.inl rfl) hG).call op none).due
  | cons key keys => exact h.await _ fun hd _ => ⟨rfl, fun _ => hG hd⟩

theorem awaitRetry (cfg : ConnectionConfig) (h : Provenance first A s) (login : Login) :
    Provenance first A (awaitRetry cfg s login) := by
  unfold SnowflakeService.awaitRetry
  split <;> exact h.awaitLogin rfl id

theorem onLoginAnswer (cfg : ConnectionConfig) (h : Provenance first A s) (login : Login)
    (err : Option Err) (body : Option Body) (env : Env)
    (hA : ∀ t ∈ Delivery.tokens ⟨.login login, err, body, env⟩, A t) :
    Provenance first A (s.onLoginAnswer cfg login err body env) := by
  unfold SnowflakeService.onLoginAnswer
  cases err with
  | none =>
      cases hb : body.bind (·.data) with
      | none => exact h
      | some data =>
          have hdata : A (.ofData data env.currentTime) := hA _ (by simp [Delivery.tokens, hb])
          exact (h.tokens hdata).writeCredentials _ _ fun _ => .inr hdata
  | some e =>
      simp only
      split_ifs
      · exact h.transitionToDisconnected.awaitRetry cfg _
      · exact h.awaitRetry cfg _
      · exact (h.transitionToDisconnected.call _ _).due

/-- What a callback does, that of a request or a renewal once there is a session. -/
theorem deliver (cfg : ConnectionConfig) (h : Provenance first A s) (d : Delivery)
    (hA : ∀ t ∈ d.tokens, A t)
    (hG : d.http.logsIn = false → SfState.disconnected ∉ s.entered → Granted first A s.tokenInfo) :
    Provenance first A (s.deliver cfg d) := by
  obtain ⟨http, err, body, env⟩ := d
  cases http with
  | login login => exact h.onLoginAnswer cfg login err body env hA
  | renew => exact h.onRenewAnswer err body env hA (hG rfl)
  | op op =>
      simp only [SnowflakeService.deliver]
      cases op.kind with
      | connect => exact h.onRequestAnswer op err (hG rfl)
      | request => exact h.onRequestAnswer op err (hG rfl)
      | destroy => exact h.onDestroyAnswer op err

/-! ## one step -/

/-- Coming back to something pending takes it away.  Unless there is a session, it belongs to a
login. -/
theorem take {p : Pending} (h : Provenance first A s) (ht : s.take p = some t) :
    Provenance first A t ∧ (SfState.disconnected ∉ t.entered →
      p.logsIn = true ∧ (p.Stores → Granted first A t.tokenInfo) ∨ Opened (Granted first A) t) := by
  simp only [SnowflakeService.take, Option.ite_none_right_eq_some, Option.some.injEq] at ht
  obtain ⟨⟨-, hp⟩, rfl⟩ := ht
  refine ⟨h.congr rfl rfl rfl fun q hq => List.mem_of_mem_erase hq, fun hd => ?_⟩
  obtain hopening | hopened := h.session hd
  · exact .inl ⟨hopening.logins p hp, hopening.stores p hp⟩
  · exact .inr ⟨hopened.state, hopened.granted⟩

/-- Going on with an HTTP request, that of a login unless there is a session. -/
theorem proceed (cfg : ConnectionConfig) (h : Provenance first A s) {http : Http}
    {next : Pending ⊕ Delivery} (hnext : Continues http next)
    (hinl : ∀ p, next = .inl p → ¬ p.Stores) (hinr : ∀ d, next = .inr d → ∀ t ∈ d.tokens, A t)
    (hhttp : SfState.disconnected ∉ s.entered → http.logsIn = true ∨ Opened (Granted first A) s) :
    Provenance first A (s.proceed cfg next) := by
  cases next with
  | inl p =>
      obtain ⟨-, -, hlogsIn⟩ := hnext
      refine h.await p fun hd hopening => ⟨hlogsIn.trans ?_, fun hp => absurd hp (hinl p rfl)⟩
      obtain hlogin | hopened := hhttp hd
      · exact hlogin
      · cases hopened.state <;> cases hopening.state <;> simp_all
  | inr d =>
      obtain rfl : d.http = http := hnext
      refine h.deliver cfg d (hinr d rfl) fun hlogin hd => ?_
      exact ((hhttp hd).resolve_left (by simp [hlogin])).granted

/-- What `sendHttpRequest`'s callback awaits is no credential. -/
theorem not_stores_receive {cfg : ConnectionConfig} {http : Http} {answer : Answer} {env : Env}
    {p : Pending} (hp : receive cfg http answer env = .inl p) : ¬ p.Stores := by
  unfold receive at hp
  split at hp
  · cases hp
  · split at hp
    · cases hp
    · split_ifs at hp <;> cases hp <;> exact id

theorem not_stores_receiveCleared {cfg : ConnectionConfig} {http : Http} {body : Body} {env : Env}
    {p : Pending} (hp : receiveCleared cfg http body env = .inl p) : ¬ p.Stores := by
  unfold receiveCleared at hp
  split_ifs at hp
  cases hp
  exact id

theorem resume (cfg : ConnectionConfig) (h : Provenance first A s) (ht : s.resume cfg = some t) :
    Provenance first A t := by
  unfold SnowflakeService.resume at ht
  cases hd : s.drain with
  | none => simp [hd] at ht
  | due =>
      simp only [hd, Option.some.injEq] at ht
      subst ht
      exact h.congr rfl rfl rfl fun _ hp => hp
  | loop index length =>
      simp only [hd] at ht
      split at ht
      · simp only [Option.map_eq_some_iff] at ht
        obtain ⟨op, -, rfl⟩ := ht
        have hloop : Provenance first A { s with drain := .loop (index + 1) length
                                                 executed := s.executed ++ [op] } :=
          h.congr rfl rfl rfl fun _ hp => hp
        exact hloop.execute cfg op
      · cases ht
        exact h.congr rfl rfl rfl fun _ hp => hp

/-- What one step keeps, with `A` for the tokens that its event grants. -/
theorem step (cfg : ConnectionConfig) {e : Event} (h : Provenance first A s)
    (hA : ∀ t, Grants cfg e t → A t) (hst : step cfg s e = some t) : Provenance first A t := by
  cases e with
  | called kind =>
      simp only [SnowflakeService.step, Option.ite_none_right_eq_some, Option.some.injEq] at hst
      obtain ⟨-, rfl⟩ := hst
      have haccept : Provenance first A (s.accept ⟨kind, s.accepted.length⟩) :=
        h.congr rfl rfl rfl fun _ hp => hp
      exact haccept.execute cfg _
  | returned =>
      simp only [SnowflakeService.step, Option.ite_none_right_eq_some, Option.some.injEq] at hst
      obtain ⟨-, rfl⟩ := hst
      exact h.congr rfl rfl rfl fun _ hp => hp
  | threw =>
      simp only [SnowflakeService.step, Option.ite_none_right_eq_some, Option.some.injEq] at hst
      obtain ⟨-, rfl⟩ := hst
      exact h.congr rfl rfl rfl fun _ hp => hp
  | resume =>
      simp only [SnowflakeService.step, Option.ite_none_right_eq_some] at hst
      exact h.resume cfg hst.2
  | tick =>
      simp only [SnowflakeService.step, Option.ite_none_right_eq_some] at hst
      obtain ⟨-, hst⟩ := hst
      cases hticks : s.ticks with
      | nil => simp [hticks] at hst
      | cons x ticks =>
          simp only [hticks, Option.some.injEq] at hst
          subst hst
          exact h.congr rfl rfl rfl fun _ hp => hp
  | prepared op =>
      simp only [SnowflakeService.step, Option.map_eq_some_iff] at hst
      obtain ⟨u, hu, rfl⟩ := hst
      exact (h.take hu).1.awaitLogin rfl id
  | answered http answer env =>
      simp only [SnowflakeService.step, Option.map_eq_some_iff] at hst
      obtain ⟨u, hu, rfl⟩ := hst
      obtain ⟨hprov, hback⟩ := h.take hu
      refine hprov.proceed cfg (continues_receive cfg http answer env)
        (fun p hp => not_stores_receive hp) ?_ fun hdis => (hback hdis).imp_left And.left
      exact fun d hd t ht => hA t ⟨d, by simp [delivery, hd], ht⟩
  | cleared http body done env =>
      simp only [SnowflakeService.step, Option.map_eq_some_iff] at hst
      obtain ⟨u, hu, rfl⟩ := hst
      obtain ⟨hprov, hback⟩ := h.take hu
      cases done with
      | false => exact hprov
      | true =>
          refine hprov.proceed cfg (continues_receiveCleared cfg http body env)
            (fun p hp => not_stores_receiveCleared hp) ?_
            fun hdis => (hback hdis).imp_left And.left
          exact fun d hd t ht => hA t ⟨d, by simp [delivery, hd], ht⟩
  | reauthenticated http done =>
      simp only [SnowflakeService.step, Option.map_eq_some_iff] at hst
      obtain ⟨u, hu, rfl⟩ := hst
      obtain ⟨hprov, hback⟩ := h.take hu
      cases done with
      | false => exact hprov
      | true =>
          -- the request is sent again, that of a login unless there is a session
          refine hprov.await _ fun hdis hopening => ⟨?_, False.elim⟩
          obtain ⟨hlogin, -⟩ | hopened := hback hdis
          · exact hlogin
          · cases hopened.state <;> cases hopening.state <;> simp_all
  | written op key keys done =>
      simp only [SnowflakeService.step, Option.map_eq_some_iff] at hst
      obtain ⟨u, hu, rfl⟩ := hst
      obtain ⟨hprov, hback⟩ := h.take hu
      cases done with
      | false => exact hprov
      | true =>
          refine hprov.writeCredentials op keys fun hdis => ?_
          obtain ⟨-, hstores⟩ | hopened := hback hdis
          · exact hstores trivial
          · exact hopened.granted
  | refreshed login retryOption =>
      simp only [SnowflakeService.step, Option.map_eq_some_iff] at hst
      obtain ⟨u, hu, rfl⟩ := hst
      cases retryOption with
      | none => exact (h.take hu).1
      | some x => exact (h.take hu).1.awaitLogin rfl id
  | woke login =>
      simp only [SnowflakeService.step, Option.map_eq_some_iff] at hst
      obtain ⟨u, hu, rfl⟩ := hst
      exact (h.take hu).1.awaitLogin rfl id

end Provenance

/-- What a run keeps: the tokens answered are those of its events. -/
theorem provenance_exec (cfg : ConnectionConfig) (first : TokenInfo) {es : List Event}
    (hrun : Lts.exec (step cfg) (create first) es = some s) :
    Provenance first (fun t => ∃ e ∈ es, Grants cfg e t) s := by
  have hgrants : Lts.Along (step cfg) (fun _ e => ∀ t, Grants cfg e t → ∃ e ∈ es, Grants cfg e t)
      (create first) es := Lts.along_of_forall fun _ e he t ht => ⟨e, he, ht⟩
  exact Lts.exec_invariant_of_along (fun s e t h hA hst => Provenance.step cfg h hA hst)
    (provenance_create first _) hgrants hrun

/-- **Tokens**: in every state of every run, the tokens are the service's first ones, cleared, or
all of one answer.  Unless the service was disconnected, it is connected or renewing, and has a
request other than a login out, only with complete tokens from the start or those of an answer. -/
theorem tokens_granted (cfg : ConnectionConfig) (first : TokenInfo) {es : List Event}
    (hrun : Lts.exec (step cfg) (create first) es = some s) :
    (s.tokenInfo = first ∨ s.tokenInfo = .cleared ∨ ∃ e ∈ es, Grants cfg e s.tokenInfo) ∧
      (SfState.disconnected ∉ s.entered →
        s.currentState = .connected ∨ s.currentState = .renewing ∨
          (∃ http, http.logsIn = false ∧ .sent http ∈ s.pending) →
        first.isEmpty = false ∧ s.tokenInfo = first ∨ ∃ e ∈ es, Grants cfg e s.tokenInfo) := by
  have hprov := provenance_exec cfg first hrun
  refine ⟨hprov.origin, fun hd hopen => ?_⟩
  obtain hopening | hopened := hprov.session hd
  · obtain hs | hs | ⟨http, hlogin, hsent⟩ := hopen
    · cases hopening.state <;> simp_all
    · cases hopening.state <;> simp_all
    · exact absurd (hopening.logins _ hsent) (by simp [Pending.logsIn, hlogin])
  · exact hopened.granted

/-- A request sent in a session. -/
def requestRun : List Event :=
  [.called .connect, .prepared ⟨.connect, 0⟩,
    .answered (.login sampleLogin) (.success sampleData) sampleEnv, .returned, .resume, .resume,
    .called .request]

theorem tokens_granted_request :
    ∃ s, Lts.exec (step (sampleConfig .other)) (create .cleared) requestRun = some s ∧
      .sent (.op ⟨.request, 1⟩) ∈ s.pending ∧
      (TokenInfo.cleared.isEmpty = false ∧ s.tokenInfo = .cleared ∨
        ∃ e ∈ requestRun, Grants (sampleConfig .other) e s.tokenInfo) := by
  obtain ⟨s, hrun, hd, hsent⟩ :
      ∃ s, Lts.exec (step (sampleConfig .other)) (create .cleared) requestRun = some s ∧
        SfState.disconnected ∉ s.entered ∧ .sent (.op ⟨.request, 1⟩) ∈ s.pending :=
    Lts.exists_exec (by decide +kernel)
  have h := tokens_granted (sampleConfig .other) .cleared hrun
  exact ⟨s, hrun, hsent, h.2 hd (.inr (.inr ⟨_, rfl, hsent⟩))⟩

/-- After a logout, a request answered late with an expired session token sends a renewal with
cleared tokens. -/
example : ∃ s, Lts.exec (step (sampleConfig .other)) (create .cleared)
    (requestRun ++ [.called .destroy, .answered (.op ⟨.destroy, 2⟩) (.success none) sampleEnv,
      .returned, .answered (.op ⟨.request, 1⟩) (.failure SESSION_TOKEN_EXPIRED) sampleEnv]) =
      some s ∧ .sent .renew ∈ s.pending ∧ s.tokenInfo = .cleared :=
  Lts.exists_exec (by decide +kernel)

end SnowflakeService

end Service

end SnowflakeConnector
