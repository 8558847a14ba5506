import SnowflakeConnector.Service.Queue

/-!
# SnowflakeConnector.Service.OneLogin

A service logs in at most once, whatever its callbacks throw and whichever of its promises are
rejected: only a pristine service begins to log in, and none becomes pristine again.  So at most
one `connect` succeeded, and it does before any `destroy` succeeds.

* `OneLogin` -- the logins under way and those that succeeded;
* `OneLogin.step` -- what one step keeps.
-/

namespace SnowflakeConnector

namespace Service

namespace SnowflakeService

/-- The callback of an operation of this kind, called without an error. -/
def succeeded (kind : OpKind) (x : Op × Option Err) : Bool := x.1.kind = kind && x.2.isNone

/-- The logins that are under way and those that succeeded. -/
def logins (s : SnowflakeService) : Nat :=
  s.pending.countP Pending.logsIn + s.called.countP (succeeded .connect)

/-- The service has, or had, a session: it is in one of its states, a request is out that is no
login, or a logout succeeded. -/
def HadSession (s : SnowflakeService) : Prop :=
  s.currentState = .connected ∨ s.currentState = .renewing ∨
    (∃ p ∈ s.pending, p.logsIn = false) ∨ ∃ x ∈ s.called, succeeded .destroy x = true

/-- Before a `connect` succeeds neither another one nor a `destroy` does. -/
def Proper (called : List (Op × Option Err)) : Prop :=
  ∀ before x, before ++ [x] <+: called → succeeded .connect x = true →
    ∀ y ∈ before, succeeded .connect y = false ∧ succeeded .destroy y = false

/-- At most one login, and none in a service that was created with a session (`fresh = false`);
`extra` counts the login in the hands of the code that runs. -/
structure OneLogin (fresh : Bool) (extra : Nat) (s : SnowflakeService) : Prop where
  kinds : ∀ p ∈ s.pending, ∀ op ∈ p.op?, op.kind = .connect ↔ p.logsIn = true
  bound : s.logins + extra ≤ fresh.toNat
  pristine : s.currentState = .pristine → fresh = true ∧ s.logins + extra = 0
  opened : fresh = true → s.HadSession → 1 ≤ s.called.countP (succeeded .connect)
  proper : Proper s.called

theorem oneLogin_create (tokenInfo : TokenInfo) :
    OneLogin tokenInfo.isEmpty 0 (create tokenInfo) := by
  have hproper : Proper [] := by
    intro before x hprefix
    simp at hprefix
  cases hempty : tokenInfo.isEmpty with
  | true =>
      exact ⟨by simp [create], by simp [create, logins], by simp [create, logins],
        by simp [create, hempty, HadSession], hproper⟩
  | false =>
      exact ⟨by simp [create], by simp [create, logins], by simp [create, hempty], by simp, hproper⟩

@[simp] theorem transitionToDisconnected_called (s : SnowflakeService) :
    s.transitionToDisconnected.called = s.called := by
  rw [transitionToDisconnected, transitionTo_eq]

variable {s t : SnowflakeService} {fresh : Bool} {extra : Nat} {op : Op}

namespace OneLogin

/-- What neither changes the state nor what is under way or called. -/
theorem congr (h : OneLogin fresh extra s) (hs : t.currentState = s.currentState)
    (hp : t.pending = s.pending) (hc : t.called = s.called) : OneLogin fresh extra t := by
  refine ⟨by rw [hp]; exact h.kinds, ?_, ?_, ?_, by rw [hc]; exact h.proper⟩
  · simpa only [logins, hp, hc] using h.bound
  · simpa only [logins, hs, hp, hc] using h.pristine
  · simpa only [HadSession, hs, hp, hc] using h.opened

/-- The login in hand is given up. -/
theorem drop (h : OneLogin fresh extra s) : OneLogin fresh 0 s := by
  refine ⟨h.kinds, (Nat.le_add_right _ _).trans h.bound, fun hs => ?_, h.opened, h.proper⟩
  obtain ⟨hfresh, hzero⟩ := h.pristine hs
  exact ⟨hfresh, by omega⟩

/-- The login in hand goes on. -/
theorem await {p : Pending} (h : OneLogin fresh 1 s) (hp : p.logsIn = true)
    (hkind : ∀ op ∈ p.op?, op.kind = .connect) : OneLogin fresh 0 (s.await p) := by
  have hlogins : (s.await p).logins = s.logins + 1 := by
    simp only [logins, await_pending, await_called, List.countP_append, List.countP_singleton, hp,
      if_true]
    omega
  refine ⟨?_, by rw [hlogins]; exact h.bound, fun hs => ?_, fun hfresh hsession => ?_, h.proper⟩
  · intro q hq op hop
    obtain hq | rfl := by simpa using hq
    · exact h.kinds q hq op hop
    · exact iff_of_true (hkind op hop) hp
  · have hzero := (h.pristine hs).2
    omega
  · refine h.opened hfresh ?_
    simpa [HadSession, or_and_right, exists_or, hp] using hsession

/-- Something that is no login is under way once one succeeded. -/
theorem awaitOther {p : Pending} (h : OneLogin fresh extra s) (hp : p.logsIn = false)
    (hkind : ∀ op ∈ p.op?, op.kind ≠ .connect)
    (hopened : fresh = true → 1 ≤ s.called.countP (succeeded .connect)) :
    OneLogin fresh extra (s.await p) := by
  have hlogins : (s.await p).logins = s.logins := by
    simp [logins, List.countP_append, hp]
  refine ⟨?_, by rw [hlogins]; exact h.bound, by rw [hlogins]; exact h.pristine,
    fun hfresh _ => hopened hfresh, h.proper⟩
  intro q hq op hop
  obtain hq | rfl := by simpa using hq
  · exact h.kinds q hq op hop
  · exact iff_of_false (hkind op hop) (by simp [hp])

/-- A callback that reports no login. -/
theorem call {err : Option Err} (h : OneLogin fresh extra s)
    (hconnect : succeeded .connect (op, err) = false)
    (hdestroy : succeeded .destroy (op, err) = true → fresh = true →
      1 ≤ s.called.countP (succeeded .connect)) :
    OneLogin fresh extra (s.call op err) := by
  have hcount : (s.called ++ [(op, err)]).countP (succeeded .connect) =
      s.called.countP (succeeded .connect) := by
    rw [List.countP_append, List.countP_singleton, hconnect]
    simp
  refine ⟨h.kinds, ?_, ?_, fun hfresh hsession => ?_, ?_⟩
  · simpa only [logins, call_pending, call_called, hcount] using h.bound
  · simpa only [logins, call_currentState, call_pending, call_called, hcount] using h.pristine
  · rw [call_called, hcount]
    simp only [HadSession, call_currentState, call_pending, call_called, List.mem_append,
      List.mem_singleton] at hsession
    obtain hs | hs | hp | ⟨x, hx | rfl, hsucceeded⟩ := hsession
    · exact h.opened hfresh (.inl hs)
    · exact h.opened hfresh (.inr (.inl hs))
    · exact h.opened hfresh (.inr (.inr (.inl hp)))
    · exact h.opened hfresh (.inr (.inr (.inr ⟨x, hx, hsucceeded⟩)))
    · exact hdestroy hsucceeded hfresh
  · intro before x hprefix hx
    obtain heq | hprefix := List.prefix_concat_iff.mp hprefix
    · obtain ⟨-, rfl⟩ := List.concat_inj.mp (by simpa using heq)
      rw [hconnect] at hx
      cases hx
    · exact h.proper before x hprefix hx

/-- The login succeeds: the service is connected and the callback of its `connect` is called. -/
theorem succeed (h : OneLogin fresh 1 s) (hop : op.kind = .connect) :
    OneLogin fresh 0 ((s.transitionTo .connected).call op none) := by
  have hsucceeded : succeeded .connect (op, none) = true := by simp [succeeded, hop]
  have hbound := h.bound
  have hfresh : fresh = true := by
    by_contra hfresh
    rw [Bool.eq_false_of_not_eq_true hfresh, Bool.toNat_false] at hbound
    omega
  have hnone : s.called.countP (succeeded .connect) = 0 := by
    rw [hfresh, Bool.toNat_true, logins] at hbound
    omega
  rw [transitionTo_eq]
  refine ⟨by simpa using h.kinds, ?_, ?_, fun _ _ => ?_, ?_⟩
  · simp only [logins, call_pending, call_called, List.countP_append, List.countP_singleton,
      hsucceeded] at hbound ⊢
    simpa [Nat.add_assoc] using hbound
  · simp
  · simp [List.countP_append, hsucceeded]
  · intro before x hprefix hx
    obtain heq | hprefix := List.prefix_concat_iff.mp hprefix
    · obtain ⟨rfl, rfl⟩ := List.concat_inj.mp (by simpa using heq)
      intro y hy
      refine ⟨by simpa using List.countP_eq_zero.mp hnone y hy, ?_⟩
      by_contra hdestroy
      have hsession : s.HadSession :=
        .inr (.inr (.inr ⟨y, hy, Bool.eq_true_of_not_eq_false hdestroy⟩))
      have := h.opened hfresh hsession
      omega
    · exact h.proper before x hprefix hx

/-- A session goes on in one of its states. -/
theorem transitionTo (h : OneLogin fresh extra s) {state : SfState}
    (hstate : state = .connected ∨ state = .renewing)
    (hopened : fresh = true → 1 ≤ s.called.countP (succeeded .connect)) :
    OneLogin fresh extra (s.transitionTo state) := by
  have hstep : OneLogin fresh extra { s with
      currentState := state
      entered := s.entered ++ (if s.currentState = state then [] else [state]) } := by
    refine ⟨h.kinds, h.bound, fun hs => ?_, fun hfresh _ => hopened hfresh, h.proper⟩
    obtain rfl : state = .pristine := hs
    simp at hstate
  rw [transitionTo_eq]
  by_cases hrenews : s.currentState ≠ state ∧ state = .renewing
  · rw [if_pos hrenews]
    exact hstep.awaitOther (p := .sent .renew) rfl (by simp [Pending.op?, Http.op?]) hopened
  · rw [if_neg hrenews, List.append_nil]
    exact hstep

theorem transitionToDisconnected (h : OneLogin fresh extra s) :
    OneLogin fresh extra s.transitionToDisconnected := by
  unfold SnowflakeService.transitionToDisconnected
  rw [transitionTo_eq]
  refine ⟨by simpa using h.kinds, by simpa [logins] using h.bound, by simp, ?_, h.proper⟩
  intro hfresh hsession
  refine h.opened hfresh ?_
  simp only [HadSession, reduceCtorEq, and_false, if_false, List.append_nil, false_or] at hsession
  exact .inr (.inr hsession)

theorem tokens (h : OneLogin fresh extra s) (tokenInfo : TokenInfo) :
    OneLogin fresh extra { s with tokenInfo } := h.congr rfl rfl rfl

theorem nextTick (h : OneLogin fresh extra s) (op : Op) (errorCode : Nat) :
    OneLogin fresh extra (s.nextTick op errorCode) := h.congr rfl rfl rfl

theorem enqueue (h : OneLogin fresh extra s) (op : Op) : OneLogin fresh extra (s.enqueue op) :=
  h.congr rfl rfl rfl

theorem due (h : OneLogin fresh extra s) : OneLogin fresh extra { s with drain := .due } :=
  h.congr rfl rfl rfl

/-- A callback that reports an error. -/
theorem callError (h : OneLogin fresh extra s) (op : Op) (e : Err) :
    OneLogin fresh extra (s.call op (some e)) :=
  h.call (by simp [succeeded]) (by simp [succeeded])

/-- The callback of something that is no `connect`. -/
theorem callOther {err : Option Err} (h : OneLogin fresh extra s) (hop : op.kind ≠ .connect)
    (hopened : fresh = true → 1 ≤ s.called.countP (succeeded .connect)) :
    OneLogin fresh extra (s.call op err) :=
  h.call (by simp [succeeded, hop]) fun _ => hopened

/-- A pristine service begins to log in. -/
theorem transitionToConnecting (h : OneLogin fresh 0 s) (hs : s.currentState = .pristine)
    (hop : op.kind = .connect) : OneLogin fresh 0 (s.transitionToConnecting op) := by
  obtain ⟨rfl, hzero⟩ := h.pristine hs
  refine await ?_ rfl (by simpa [Pending.op?] using hop)
  rw [transitionTo_eq]
  refine ⟨by simpa using h.kinds, ?_, by simp, ?_, h.proper⟩
  · simp only [reduceCtorEq, and_false, if_false, List.append_nil]
    simp only [logins] at hzero ⊢
    simp only [Bool.toNat_true]
    omega
  · intro hfresh hsession
    refine h.opened hfresh ?_
    simpa [HadSession, hs] using hsession

theorem execute (cfg : ConnectionConfig) (h : OneLogin fresh 0 s) (op : Op) :
    OneLogin fresh 0 (s.execute cfg op) := by
  obtain ⟨hop, hs, heq⟩ | ⟨errorCode, heq⟩ | ⟨-, -, heq⟩ | ⟨hop, hs, heq⟩ | ⟨hop, hs, -, heq⟩ :=
    execute_cases cfg s op
  · rw [heq]
    exact h.transitionToConnecting hs hop
  · rw [heq]
    exact h.nextTick op errorCode
  · rw [heq]
    exact h.enqueue op
  · rw [heq]
    exact h.awaitOther rfl (by simpa [Pending.op?, Http.op?] using hop)
      fun hfresh => h.opened hfresh (.inl hs)
  · rw [heq]
    exact h.transitionToDisconnected.callOther (by simp [hop])
      fun hfresh => by simpa using h.opened hfresh (.inl hs)

/-! ## the callbacks -/

theorem onRequestAnswer (h : OneLogin fresh 0 s) (op : Op) (err : Option Err)
    (hop : op.kind ≠ .connect)
    (hopened : fresh = true → 1 ≤ s.called.countP (succeeded .connect)) :
    OneLogin fresh 0 (s.onRequestAnswer op err) := by
  unfold SnowflakeService.onRequestAnswer
  cases err with
  | none => exact h.callOther hop hopened
  | some e =>
      simp only
      split_ifs
      · exact (h.enqueue op).transitionTo (.inr rfl) hopened
      · exact (h.enqueue op).transitionToDisconnected.due
      · exact h.callError op e

theorem onDestroyAnswer (h : OneLogin fresh 0 s) (op : Op) (err : Option Err)
    (hop : op.kind = .destroy)
    (hopened : fresh = true → 1 ≤ s.called.countP (succeeded .connect)) :
    OneLogin fresh 0 (s.onDestroyAnswer op err) := by
  unfold SnowflakeService.onDestroyAnswer
  cases err with
  | none => exact h.transitionToDisconnected.callOther (by simp [hop]) (by simpa using hopened)
  | some e =>
      simp only
      split_ifs
      · exact h.transitionToDisconnected.callOther (by simp [hop]) (by simpa using hopened)
      · exact h.callError op e

theorem onRenewAnswer (h : OneLogin fresh 0 s) (err : Option Err) (body : Option Body)
    (currentTime : Int) (hopened : fresh = true → 1 ≤ s.called.countP (succeeded .connect)) :
    OneLogin fresh 0 (s.onRenewAnswer err body currentTime) := by
  unfold SnowflakeService.onRenewAnswer
  cases err with
  | none =>
      cases body.bind (·.data) with
      | none => exact h
      | some data =>
          have htokens := h.tokens (.ofData data currentTime)
          exact (htokens.transitionTo (.inl rfl) hopened).due
  | some e =>
      simp only
      split_ifs
      · exact h.transitionToDisconnected.due
      · exact (h.transitionTo (.inl rfl) hopened).due
      · exact h.transitionToDisconnected.due

theorem writeCredentials (h : OneLogin fresh 1 s) (hop : op.kind = .connect)
    (keys : List Credential) : OneLogin fresh 0 (s.writeCredentials op keys) := by
  cases keys with
  | nil => exact (h.succeed hop).due
  | cons key keys => exact h.await rfl (by simpa [Pending.op?] using hop)

theorem awaitRetry (cfg : ConnectionConfig) (h : OneLogin fresh 1 s) {login : Login}
    (hop : login.op.kind = .connect) : OneLogin fresh 0 (awaitRetry cfg s login) := by
  unfold SnowflakeService.awaitRetry
  split <;> exact h.await rfl (by simpa [Pending.op?] using hop)

theorem onLoginAnswer (cfg : ConnectionConfig) (h : OneLogin fresh 1 s) {login : Login}
    (err : Option Err) (body : Option Body) (env : Env) (hop : login.op.kind = .connect) :
    OneLogin fresh 0 (s.onLoginAnswer cfg login err body env) := by
  unfold SnowflakeService.onLoginAnswer
  cases err with
  | none =>
      cases body.bind (·.data) with
      | none => exact h.drop
      | some data => exact (h.tokens _).writeCredentials hop _
  | some e =>
      simp only
      split_ifs
      · exact h.transitionToDisconnected.awaitRetry cfg hop
      · exact h.awaitRetry cfg hop
      · exact (h.drop.transitionToDisconnected.callError _ e).due

/-- What a callback does: that of a login holds the one login. -/
theorem deliver (cfg : ConnectionConfig) (d : Delivery) (h : OneLogin fresh d.http.logsIn.toNat s)
    (hkind : ∀ op ∈ d.http.op?, op.kind = .connect ↔ d.http.logsIn = true)
    (hopened : d.http.logsIn = false → fresh = true →
      1 ≤ s.called.countP (succeeded .connect)) : OneLogin fresh 0 (s.deliver cfg d) := by
  obtain ⟨http, err, body, env⟩ := d
  cases http with
  | login login => exact h.onLoginAnswer cfg err body env ((hkind login.op rfl).mpr rfl)
  | renew => exact h.onRenewAnswer err body env.currentTime (hopened rfl)
  | op op =>
      have hop : op.kind ≠ .connect := fun hop => Bool.false_ne_true ((hkind op rfl).mp hop)
      simp only [SnowflakeService.deliver]
      cases hk : op.kind with
      | connect => exact absurd hk hop
      | request => exact h.onRequestAnswer op err hop (hopened rfl)
      | destroy => exact h.onDestroyAnswer op err hk (hopened rfl)

/-! ## one step -/

/-- What is pending, taken into the hands of the code that runs. -/
theorem take {p : Pending} (h : OneLogin fresh 0 s) (ht : s.take p = some t) :
    OneLogin fresh p.logsIn.toNat t ∧ (∀ op ∈ p.op?, op.kind = .connect ↔ p.logsIn = true) ∧
      (p.logsIn = false → fresh = true → 1 ≤ t.called.countP (succeeded .connect)) := by
  obtain ⟨⟨-, hp⟩, rfl⟩ := take_eq_some.mp ht
  have hlogins : logins { s with pending := s.pending.erase p } + p.logsIn.toNat = s.logins := by
    have hcount := (List.perm_cons_erase hp).countP_eq Pending.logsIn
    rw [List.countP_cons] at hcount
    simp only [logins, hcount]
    cases p.logsIn <;> simp [Nat.add_right_comm]
  refine ⟨⟨fun q hq => h.kinds q (List.mem_of_mem_erase hq), ?_, fun hs => ?_, ?_, h.proper⟩,
    h.kinds p hp, fun hlogs hfresh => h.opened hfresh (.inr (.inr (.inl ⟨p, hp, hlogs⟩)))⟩
  · rw [hlogins]
    exact h.bound
  · rw [hlogins]
    exact h.pristine hs
  · rintro hfresh (hs | hs | ⟨q, hq, hlogs⟩ | hx)
    · exact h.opened hfresh (.inl hs)
    · exact h.opened hfresh (.inr (.inl hs))
    · exact h.opened hfresh (.inr (.inr (.inl ⟨q, List.mem_of_mem_erase hq, hlogs⟩)))
    · exact h.opened hfresh (.inr (.inr (.inr hx)))

/-- A login goes on with its next step. -/
theorem takeAwait {p q : Pending} (h : OneLogin fresh 0 s) (ht : s.take p = some t)
    (hop : q.op? = p.op?) (hp : q.logsIn = p.logsIn) : OneLogin fresh 0 (t.await q) := by
  obtain ⟨htaken, hkind, hopened⟩ := h.take ht
  cases hlogs : p.logsIn with
  | true =>
      rw [hlogs] at htaken
      exact htaken.await (hp.trans hlogs) fun op hq => (hkind op (hop ▸ hq)).mpr hlogs
  | false =>
      rw [hlogs] at htaken
      refine htaken.awaitOther (hp.trans hlogs) (fun op hq hconnect => ?_) (hopened hlogs)
      have := (hkind op (hop ▸ hq)).mp hconnect
      rw [hlogs] at this
      cases this

/-- `sendHttpRequest`'s callback goes on with its request. -/
theorem proceed (cfg : ConnectionConfig) {p : Pending} {http : Http} {next : Pending ⊕ Delivery}
    (h : OneLogin fresh 0 s) (ht : s.take p = some t)
    (hp : p.op? = http.op? ∧ p.logsIn = http.logsIn) (hnext : Continues http next) :
    OneLogin fresh 0 (t.proceed cfg next) := by
  cases next with
  | inl q => exact h.takeAwait ht (hnext.1.trans hp.1.symm) (hnext.2.2.trans hp.2.symm)
  | inr d =>
      obtain rfl : d.http = http := hnext
      obtain ⟨htaken, hkind, hopened⟩ := h.take ht
      rw [hp.1, hp.2] at hkind
      rw [hp.2] at htaken hopened
      exact htaken.deliver cfg d hkind hopened

theorem resume (cfg : ConnectionConfig) (h : OneLogin fresh 0 s) (ht : s.resume cfg = some t) :
    OneLogin fresh 0 t := by
  unfold SnowflakeService.resume at ht
  cases hd : s.drain with
  | none => simp [hd] at ht
  | due =>
      simp only [hd, Option.some.injEq] at ht
      subst ht
      exact h.congr rfl rfl rfl
  | loop index length =>
      simp only [hd] at ht
      split at ht
      · simp only [Option.map_eq_some_iff] at ht
        obtain ⟨op, -, rfl⟩ := ht
        have hloop : OneLogin fresh 0 { s with drain := .loop (index + 1) length
                                               executed := s.executed ++ [op] } :=
          h.congr rfl rfl rfl
        exact hloop.execute cfg op
      · cases ht
        exact h.congr rfl rfl rfl

/-- What one step keeps. -/
theorem step (cfg : ConnectionConfig) {e : Event} (h : OneLogin fresh 0 s)
    (hst : step cfg s e = some t) : OneLogin fresh 0 t := by
  cases e with
  | called kind =>
      simp only [SnowflakeService.step, Option.ite_none_right_eq_some, Option.some.injEq] at hst
      obtain ⟨-, rfl⟩ := hst
      have haccept : OneLogin fresh 0 (s.accept ⟨kind, s.accepted.length⟩) := h.congr rfl rfl rfl
      exact haccept.execute cfg _
  | returned =>
      simp only [SnowflakeService.step, Option.ite_none_right_eq_some, Option.some.injEq] at hst
      obtain ⟨-, rfl⟩ := hst
      exact h.congr rfl rfl rfl
  | threw =>
      simp only [SnowflakeService.step, Option.ite_none_right_eq_some, Option.some.injEq] at hst
      obtain ⟨-, rfl⟩ := hst
      exact h.congr rfl rfl rfl
  | resume =>
      simp only [SnowflakeService.step, Option.ite_none_right_eq_some] at hst
      exact h.resume cfg hst.2
  | tick =>
      simp only [SnowflakeService.step, Option.ite_none_right_eq_some] at hst
      obtain ⟨-, hst⟩ := hst
      cases hticks : s.ticks with
      | nil => simp [hticks] at hst
      | cons x ticks =>
          simp only [hticks, Option.some.injEq] at hst
          subst hst
          have hrest : OneLogin fresh 0 { s with ticks } := h.congr rfl rfl rfl
          exact hrest.callError x.1 x.2
  | prepared op =>
      simp only [SnowflakeService.step, Option.map_eq_some_iff] at hst
      obtain ⟨u, hu, rfl⟩ := hst
      exact h.takeAwait hu rfl rfl
  | answered http answer env =>
      simp only [SnowflakeService.step, Option.map_eq_some_iff] at hst
      obtain ⟨u, hu, rfl⟩ := hst
      exact h.proceed cfg hu ⟨rfl, rfl⟩ (continues_receive cfg http answer env)
  | cleared http body done env =>
      simp only [SnowflakeService.step, Option.map_eq_some_iff] at hst
      obtain ⟨u, hu, rfl⟩ := hst
      cases done with
      | false => exact (h.take hu).1.drop
      | true => exact h.proceed cfg hu ⟨rfl, rfl⟩ (continues_receiveCleared cfg http body env)
  | reauthenticated http done =>
      simp only [SnowflakeService.step, Option.map_eq_some_iff] at hst
      obtain ⟨u, hu, rfl⟩ := hst
      cases done with
      | false => exact (h.take hu).1.drop
      | true => exact h.takeAwait hu rfl rfl
  | written op key keys done =>
      simp only [SnowflakeService.step, Option.map_eq_some_iff] at hst
      obtain ⟨u, hu, rfl⟩ := hst
      obtain ⟨htaken, hkind, -⟩ := h.take hu
      cases done with
      | false => exact htaken.drop
      | true => exact htaken.writeCredentials ((hkind op rfl).mpr rfl) keys
  | refreshed login retryOption =>
      simp only [SnowflakeService.step, Option.map_eq_some_iff] at hst
      obtain ⟨u, hu, rfl⟩ := hst
      cases retryOption with
      | none => exact (h.take hu).1.drop
      | some x =>
          refine h.takeAwait hu ?_ rfl
          simp only [Pending.op?]
          split <;> rfl
  | woke login =>
      simp only [SnowflakeService.step, Option.map_eq_some_iff] at hst
      obtain ⟨u, hu, rfl⟩ := hst
      exact h.takeAwait hu rfl rfl

end OneLogin

end SnowflakeService

end Service

end SnowflakeConnector
