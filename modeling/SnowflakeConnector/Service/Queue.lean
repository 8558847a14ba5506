import SnowflakeConnector.Service

/-!
# SnowflakeConnector.Service.Queue

No operation of the service is lost and none is completed twice.

* conservation -- every accepted operation is held by exactly one of: the waiting
  part of the queue, something pending, a `nextTick` callback, the list of called
  callbacks;
* order -- what went into the queue is what the drains executed, in that order,
  followed by what still waits;
* drive -- while something waits and no drain runs, a login or a renewal is under
  way, and either one ends in a drain.

All of it holds as long as every promise that a callback awaits resolves, a
successful login or renewal carries data, and no callback of the user throws
into a drain.
-/

namespace SnowflakeConnector

namespace Service

/-- The operation whose callback a request has to call in the end. -/
def Http.op? : Http → Option Op
  | .login l => some l.op
  | .op o => some o
  | .renew => none

def Pending.op? : Pending → Option Op
  | .preparing op => some op
  | .sent http => http.op?
  | .clearing http _ => http.op?
  | .reauthenticating http => http.op?
  | .writing op _ _ => some op
  | .refreshing login => some login.op
  | .sleeping login => some login.op

def Http.logsIn : Http → Bool
  | .login _ => true
  | _ => false

def Http.renews : Http → Bool
  | .renew => true
  | _ => false

/-- Part of a login. -/
def Pending.logsIn : Pending → Bool
  | .sent http => http.logsIn
  | .clearing http _ => http.logsIn
  | .reauthenticating http => http.logsIn
  | _ => true

/-- Part of a renewal. -/
def Pending.renews : Pending → Bool
  | .sent http => http.renews
  | .clearing http _ => http.renews
  | .reauthenticating http => http.renews
  | _ => false

namespace SnowflakeService

/-- A login or renewal that is told of a success without its data. -/
def Delivery.lacksData (d : Delivery) : Bool :=
  (d.http.logsIn || d.http.renews) && d.err.isNone && (d.body.bind (·.data)).isNone

/-- The operations in the queue that no drain has executed yet. -/
def waiting (s : SnowflakeService) : List Op :=
  match s.drain with
  | .loop index _ => s.operationQueue.drop index
  | _ => s.operationQueue

/-- In how many places an operation is held. -/
def held (s : SnowflakeService) (op : Op) : Nat :=
  s.waiting.count op + (s.pending.filterMap Pending.op?).count op + (s.ticks.map (·.1)).count op +
    (s.called.map (·.1)).count op

/-- The step completes what it comes back to: no awaited promise is rejected, no
success lacks its data, and no callback throws into a drain that still has a
queue to empty. -/
def Completes (cfg : ConnectionConfig) (s : SnowflakeService) : Event → Prop
  | .threw => ¬ (s.depth = 1 ∧ s.drain ≠ .none ∧ s.operationQueue ≠ [])
  | .answered http answer env =>
      ∀ d ∈ delivery cfg (.answered http answer env), d.lacksData = false
  | .cleared _ _ done _ => done = true
  | .reauthenticated _ done => done = true
  | .written _ _ _ done => done = true
  | .refreshed _ retryOption => retryOption.isSome = true
  | _ => True

instance (cfg : ConnectionConfig) (s : SnowflakeService) (e : Event) :
    Decidable (Completes cfg s e) := by
  cases e <;> unfold Completes <;> infer_instance

/-! ## conservation and order -/

/-- Every accepted operation is held once, `extra` being in the hands of the code
that runs, and the queue is worked off in order. -/
structure Conserved (extra : List Op) (s : SnowflakeService) : Prop where
  window : ∀ index length, s.drain = .loop index length →
    index ≤ length ∧ length = s.operationQueue.length
  order : s.enqueued = s.executed ++ s.waiting
  held : ∀ op, s.held op + extra.count op = s.accepted.count op
  fresh : ∀ (i : Nat) (op : Op), s.accepted[i]? = some op → op.id = i

theorem conserved_create (tokenInfo : TokenInfo) : Conserved [] (create tokenInfo) where
  window := by intro index length h; cases h
  order := rfl
  held := by intro op; rfl
  fresh := by intro i op h; cases h

variable {s t : SnowflakeService} {extra : List Op} {op : Op}

theorem Conserved.tokens (h : Conserved extra s) (tokenInfo : TokenInfo) :
    Conserved extra { s with tokenInfo } :=
  ⟨h.window, h.order, h.held, h.fresh⟩

theorem Conserved.await {p : Pending} (h : Conserved p.op?.toList s) :
    Conserved [] (s.await p) where
  window := h.window
  order := h.order
  held x := by
    have hx := h.held x
    have hp : (List.filterMap Pending.op? [p]).count x = p.op?.toList.count x := by
      cases hop : p.op? <;> simp [hop]
    simp only [SnowflakeService.held, await_pending, List.filterMap_append, List.count_append, hp,
      List.count_nil, await_accepted] at hx ⊢
    show _ + _ + _ + _ + _ = _
    simp only [waiting, await_drain, await_operationQueue, await_ticks, await_called] at hx ⊢
    omega
  fresh := h.fresh

theorem Conserved.nextTick (h : Conserved [op] s) (errorCode : Nat) :
    Conserved [] (s.nextTick op errorCode) where
  window := h.window
  order := h.order
  held x := by
    have hx := h.held x
    simp only [SnowflakeService.held, waiting, nextTick_drain, nextTick_operationQueue,
      nextTick_pending, nextTick_ticks, nextTick_called, nextTick_accepted, List.map_append,
      List.map_cons, List.map_nil, List.count_append, List.count_nil] at hx ⊢
    omega
  fresh := h.fresh

theorem Conserved.call (h : Conserved [op] s) (err : Option Err) :
    Conserved [] (s.call op err) where
  window := h.window
  order := h.order
  held x := by
    have hx := h.held x
    simp only [SnowflakeService.held, waiting, call_drain, call_operationQueue, call_pending,
      call_ticks, call_called, call_accepted, List.map_append, List.map_cons, List.map_nil,
      List.count_append, List.count_nil] at hx ⊢
    omega
  fresh := h.fresh

/-- Appending to the queue appends to what waits. -/
theorem waiting_enqueue (s : SnowflakeService) (op : Op)
    (h : ∀ index length, s.drain = .loop index length → index ≤ s.operationQueue.length) :
    (s.enqueue op).waiting = s.waiting ++ [op] := by
  cases hd : s.drain with
  | none => simp [waiting, hd]
  | due => simp [waiting, hd]
  | loop index length =>
      have hle := h index length hd
      simp [waiting, hd, List.drop_append_of_le_length hle]

theorem Conserved.enqueue (h : Conserved [op] s) (hd : s.drain = .none) :
    Conserved [] (s.enqueue op) := by
  have hw : (s.enqueue op).waiting = s.waiting ++ [op] :=
    waiting_enqueue s op (by intro index length hl; rw [hd] at hl; cases hl)
  constructor
  · intro index length hl
    rw [enqueue_drain, hd] at hl
    cases hl
  · rw [hw, enqueue_enqueued, enqueue_executed, h.order, List.append_assoc]
  · intro x
    have hx := h.held x
    simp only [SnowflakeService.held, hw, enqueue_pending, enqueue_ticks, enqueue_called,
      enqueue_accepted, List.count_append, List.count_nil] at hx ⊢
    omega
  · exact h.fresh

theorem Conserved.transitionTo (h : Conserved extra s) (state : SfState) :
    Conserved extra (s.transitionTo state) := by
  rw [transitionTo_eq]
  refine ⟨h.window, h.order, fun x => ?_, h.fresh⟩
  have hx := h.held x
  have hnone : (List.filterMap Pending.op?
      (if s.currentState ≠ state ∧ state = .renewing then [.sent .renew] else [])) = [] := by
    split <;> simp [Pending.op?, Http.op?]
  simp only [SnowflakeService.held, waiting, List.filterMap_append, hnone, List.append_nil] at hx ⊢
  exact hx

theorem Conserved.transitionToDisconnected (h : Conserved extra s) :
    Conserved extra s.transitionToDisconnected :=
  (h.transitionTo .disconnected).tokens .cleared

theorem Conserved.due (h : Conserved extra s) (hd : s.drain = .none) :
    Conserved extra { s with drain := .due } where
  window := by intro index length hl; cases hl
  order := by
    have := h.order
    simpa [waiting, hd] using this
  held x := by
    have hx := h.held x
    simpa [SnowflakeService.held, waiting, hd] using hx
  fresh := h.fresh

theorem transitionTo_drain (s : SnowflakeService) (state : SfState) :
    (s.transitionTo state).drain = s.drain := by rw [transitionTo_eq]

/-- An operation in the hands of a state's method ends up in exactly one place. -/
theorem Conserved.execute (cfg : ConnectionConfig) (h : Conserved [op] s)
    (hd : s.drain = .none ∨ s.currentState = .connected ∨ s.currentState = .disconnected) :
    Conserved [] (s.execute cfg op) := by
  have hsent : Conserved (Pending.op? (.sent (.op op))).toList s := h
  have hqueue : s.currentState = .connecting ∨ s.currentState = .renewing → s.drain = .none := by
    rintro (hs | hs) <;> simpa [hs] using hd
  obtain ⟨-, -, heq⟩ | ⟨errorCode, heq⟩ | ⟨-, hs, heq⟩ | ⟨-, -, heq⟩ | ⟨-, -, -, heq⟩ :=
    execute_cases cfg s op
  · rw [heq]
    exact Conserved.await (h.transitionTo .connecting)
  · rw [heq]
    exact h.nextTick errorCode
  · rw [heq]
    exact h.enqueue (hqueue hs)
  · rw [heq]
    exact hsent.await
  · rw [heq]
    exact h.transitionToDisconnected.call none

theorem Conserved.writeCredentials (h : Conserved [op] s) (keys : List Credential)
    (hd : s.drain = .none) : Conserved [] (s.writeCredentials op keys) := by
  cases keys with
  | nil => exact ((h.transitionTo .connected).call none).due ((transitionTo_drain _ _).trans hd)
  | cons key keys => exact Conserved.await h

theorem Conserved.awaitRetry (cfg : ConnectionConfig) {login : Login}
    (h : Conserved [login.op] s) : Conserved [] (awaitRetry cfg s login) := by
  unfold SnowflakeService.awaitRetry
  split <;> exact Conserved.await h

/-- What a request's callback is told puts its operation in exactly one place. -/
theorem Conserved.deliver (cfg : ConnectionConfig) {d : Delivery}
    (h : Conserved d.http.op?.toList s) (hd : s.drain = .none) (hdata : d.lacksData = false) :
    Conserved [] (s.deliver cfg d) := by
  obtain ⟨http, err, body, env⟩ := d
  cases http with
  | op op =>
      have hop : Conserved [op] s := h
      have hrequest : Conserved [] (s.onRequestAnswer op err) := by
        unfold onRequestAnswer
        cases err with
        | none => exact hop.call none
        | some e =>
            simp only
            split
            · exact (hop.enqueue hd).transitionTo .renewing
            · split
              · have hdisc := (hop.enqueue hd).transitionToDisconnected
                exact hdisc.due ((transitionTo_drain _ _).trans hd)
              · exact hop.call (some e)
      have hdestroy : Conserved [] (s.onDestroyAnswer op err) := by
        unfold onDestroyAnswer
        cases err with
        | none => exact hop.transitionToDisconnected.call none
        | some e =>
            simp only
            split
            · exact hop.transitionToDisconnected.call none
            · exact hop.call (some e)
      simp only [SnowflakeService.deliver]
      cases hk : op.kind with
      | connect => exact hrequest
      | request => exact hrequest
      | destroy => exact hdestroy
  | renew =>
      have hnil : Conserved [] s := h
      simp only [SnowflakeService.deliver, onRenewAnswer]
      cases err with
      | none =>
          cases hb : body.bind (·.data) with
          | none => simp [Delivery.lacksData, Http.logsIn, Http.renews, hb] at hdata
          | some data =>
              exact ((hnil.tokens _).transitionTo .connected).due ((transitionTo_drain _ _).trans hd)
      | some e =>
          simp only
          split
          · exact hnil.transitionToDisconnected.due ((transitionTo_drain _ _).trans hd)
          · split
            · exact (hnil.transitionTo .connected).due ((transitionTo_drain _ _).trans hd)
            · exact hnil.transitionToDisconnected.due ((transitionTo_drain _ _).trans hd)
  | login login =>
      have hop : Conserved [login.op] s := h
      simp only [SnowflakeService.deliver, onLoginAnswer]
      cases err with
      | none =>
          cases hb : body.bind (·.data) with
          | none => simp [Delivery.lacksData, Http.logsIn, Http.renews, hb] at hdata
          | some data => exact (hop.tokens _).writeCredentials _ hd
      | some e =>
          simp only
          split
          · refine Conserved.awaitRetry cfg ?_
            split
            · exact hop.transitionToDisconnected
            · exact hop
          · exact (hop.transitionToDisconnected.call _).due ((transitionTo_drain _ _).trans hd)

/-! ## what drives the queue -/

/-- A drain runs only in a settled state, and behind every transient state and
every waiting queue there is a request whose callback ends in a drain. -/
structure Driven (s : SnowflakeService) : Prop where
  settled : s.drain ≠ .none → s.currentState = .connected ∨ s.currentState = .disconnected
  renewing : s.currentState = .renewing → ∃ p ∈ s.pending, p.renews = true
  connecting : s.currentState = .connecting → ∃ p ∈ s.pending, p.logsIn = true
  drained : s.operationQueue ≠ [] → s.drain = .none →
    ∃ p ∈ s.pending, p.renews = true ∨ p.logsIn = true

theorem driven_create (tokenInfo : TokenInfo) : Driven (create tokenInfo) := by
  constructor
  · intro h
    exact absurd rfl h
  · intro h
    simp only [create] at h
    split at h <;> cases h
  · intro h
    simp only [create] at h
    split at h <;> cases h
  · intro h
    exact absurd rfl h

theorem Driven.await (h : Driven s) (p : Pending) : Driven (s.await p) where
  settled := h.settled
  renewing hs := by
    obtain ⟨q, hq, hqr⟩ := h.renewing hs
    exact ⟨q, List.mem_append_left _ hq, hqr⟩
  connecting hs := by
    obtain ⟨q, hq, hql⟩ := h.connecting hs
    exact ⟨q, List.mem_append_left _ hq, hql⟩
  drained hq hd := by
    obtain ⟨q, hq, hqd⟩ := h.drained hq hd
    exact ⟨q, List.mem_append_left _ hq, hqd⟩

theorem Driven.accept (h : Driven s) (op : Op) : Driven (s.accept op) :=
  ⟨h.settled, h.renewing, h.connecting, h.drained⟩

theorem Driven.nextTick (h : Driven s) (op : Op) (errorCode : Nat) :
    Driven (s.nextTick op errorCode) :=
  ⟨h.settled, h.renewing, h.connecting, h.drained⟩

theorem Driven.call (h : Driven s) (op : Op) (err : Option Err) : Driven (s.call op err) :=
  ⟨h.settled, h.renewing, h.connecting, h.drained⟩

/-- The queue grows only in the transient states. -/
theorem Driven.enqueue (h : Driven s) (op : Op)
    (hs : s.currentState = .connecting ∨ s.currentState = .renewing) : Driven (s.enqueue op) where
  settled := h.settled
  renewing := h.renewing
  connecting := h.connecting
  drained _ _ := by
    rcases hs with hs | hs
    · obtain ⟨q, hq, hql⟩ := h.connecting hs
      exact ⟨q, hq, .inr hql⟩
    · obtain ⟨q, hq, hqr⟩ := h.renewing hs
      exact ⟨q, hq, .inl hqr⟩

theorem Driven.transitionToDisconnected (h : Driven s) : Driven s.transitionToDisconnected := by
  have hpending : s.transitionToDisconnected.pending = s.pending := by
    simp [SnowflakeService.transitionToDisconnected, transitionTo_eq]
  have hstate : s.transitionToDisconnected.currentState = .disconnected := by
    simp [SnowflakeService.transitionToDisconnected, transitionTo_eq]
  have hqueue : s.transitionToDisconnected.operationQueue = s.operationQueue := by
    simp [SnowflakeService.transitionToDisconnected, transitionTo_eq]
  have hdrain : s.transitionToDisconnected.drain = s.drain := transitionTo_drain s _
  constructor
  · intro _
    exact .inr hstate
  · intro hs
    rw [hstate] at hs
    cases hs
  · intro hs
    rw [hstate] at hs
    cases hs
  · rw [hqueue, hdrain, hpending]
    exact h.drained

/-- In a settled state a drain that is due answers for the whole queue. -/
theorem driven_due (hs : s.currentState = .connected ∨ s.currentState = .disconnected) :
    Driven { s with drain := .due } where
  settled _ := hs
  renewing h := by
    simp only at h
    rw [h] at hs
    rcases hs with hs | hs <;> cases hs
  connecting h := by
    simp only at h
    rw [h] at hs
    rcases hs with hs | hs <;> cases hs
  drained _ hd := by cases hd

/-- With a pending login nothing waits in vain. -/
theorem Driven.await_login {p : Pending} (hp : p.logsIn = true)
    (hd : s.drain = .none) (hs : s.currentState ≠ .renewing) : Driven (s.await p) where
  settled h := absurd hd h
  renewing h := absurd h hs
  connecting _ := ⟨p, by simp, hp⟩
  drained _ _ := ⟨p, by simp, .inr hp⟩

/-- One pending part of a login or a renewal may take the place of another. -/
theorem Driven.replace {p q : Pending} (h : Driven (s.await p))
    (hr : p.renews = true → q.renews = true) (hl : p.logsIn = true → q.logsIn = true) :
    Driven (s.await q) := by
  have hmem : ∀ {P : Pending → Prop}, (P p → P q) → (∃ x ∈ (s.await p).pending, P x) →
      ∃ x ∈ (s.await q).pending, P x := by
    intro P hP hx
    obtain ⟨x, hx, hPx⟩ := hx
    simp only [await_pending, List.mem_append, List.mem_singleton] at hx
    rcases hx with hx | rfl
    · exact ⟨x, by simp [hx], hPx⟩
    · exact ⟨q, by simp, hP hPx⟩
  constructor
  · exact h.settled
  · exact fun hs => hmem hr (h.renewing hs)
  · exact fun hs => hmem hl (h.connecting hs)
  · exact fun hq hd => hmem (fun hp => hp.imp hr hl) (h.drained hq hd)

/-- What is pending and neither logs in nor renews is not missed. -/
theorem Driven.drop {p : Pending} (h : Driven (s.await p)) (hr : p.renews = false)
    (hl : p.logsIn = false) : Driven s := by
  have hmem : ∀ {P : Pending → Prop}, ¬ P p → (∃ x ∈ (s.await p).pending, P x) →
      ∃ x ∈ s.pending, P x := by
    intro P hP hx
    obtain ⟨x, hx, hPx⟩ := hx
    simp only [await_pending, List.mem_append, List.mem_singleton] at hx
    rcases hx with hx | rfl
    · exact ⟨x, hx, hPx⟩
    · exact absurd hPx hP
  constructor
  · exact h.settled
  · exact fun hs => hmem (by simp [hr]) (h.renewing hs)
  · exact fun hs => hmem (by simp [hl]) (h.connecting hs)
  · exact fun hq hd => hmem (by simp [hr, hl]) (h.drained hq hd)

theorem Driven.execute (cfg : ConnectionConfig) (h : Driven s) (op : Op) :
    Driven (s.execute cfg op) := by
  obtain ⟨-, hs, heq⟩ | ⟨errorCode, heq⟩ | ⟨-, hs, heq⟩ | ⟨-, -, heq⟩ | ⟨-, -, -, heq⟩ :=
    execute_cases cfg s op
  · have hd : s.drain = .none := by
      by_contra hd
      simpa [hs] using h.settled hd
    rw [heq]
    exact Driven.await_login rfl ((transitionTo_drain _ _).trans hd) (by simp [transitionTo_eq])
  · rw [heq]
    exact h.nextTick op errorCode
  · rw [heq]
    exact h.enqueue op hs
  · rw [heq]
    exact h.await (.sent (.op op))
  · rw [heq]
    exact h.transitionToDisconnected.call op none

/-- A request answered with an expired session token goes back into the queue, and
a renewal is under way. -/
theorem onRequestAnswer_expired (h : Driven s) {err : Err} (he : err.code = SESSION_TOKEN_EXPIRED) :
    (s.onRequestAnswer op (some err)).operationQueue = s.operationQueue ++ [op] ∧
      (s.onRequestAnswer op (some err)).currentState = .renewing ∧
      ∃ p ∈ (s.onRequestAnswer op (some err)).pending, p.renews = true := by
  have heq : s.onRequestAnswer op (some err) = (s.enqueue op).transitionTo .renewing := by
    simp [onRequestAnswer, he]
  rw [heq, transitionTo_eq]
  refine ⟨rfl, rfl, ?_⟩
  by_cases hs : s.currentState = .renewing
  · obtain ⟨p, hp, hr⟩ := h.renewing hs
    exact ⟨p, by simp [hp], hr⟩
  · exact ⟨.sent .renew, by simp [hs], rfl⟩

theorem Driven.onRequestAnswer (h : Driven s) (hd : s.drain = .none) (op : Op)
    (err : Option Err) : Driven (s.onRequestAnswer op err) := by
  cases err with
  | none => exact h.call op none
  | some e =>
      by_cases he : e.code = SESSION_TOKEN_EXPIRED
      · obtain ⟨-, hstate, p, hp, hr⟩ := @onRequestAnswer_expired s op h e he
        have hdrain : (s.onRequestAnswer op (some e)).drain = .none := by
          simp [SnowflakeService.onRequestAnswer, he, transitionTo_eq, hd]
        constructor
        · exact fun hne => absurd hdrain hne
        · exact fun _ => ⟨p, hp, hr⟩
        · intro hc
          rw [hstate] at hc
          cases hc
        · exact fun _ _ => ⟨p, hp, .inl hr⟩
      · simp only [SnowflakeService.onRequestAnswer, if_neg he]
        split
        · exact driven_due (.inr (by simp [SnowflakeService.transitionToDisconnected, transitionTo_eq]))
        · exact h.call op (some e)

theorem Driven.onDestroyAnswer (h : Driven s) (op : Op) (err : Option Err) :
    Driven (s.onDestroyAnswer op err) := by
  unfold SnowflakeService.onDestroyAnswer
  cases err with
  | none => exact h.transitionToDisconnected.call op none
  | some e =>
      simp only
      split
      · exact h.transitionToDisconnected.call op none
      · exact h.call op (some e)

theorem disconnected_or (s : SnowflakeService) :
    s.transitionToDisconnected.currentState = .connected ∨
      s.transitionToDisconnected.currentState = .disconnected :=
  .inr (by simp [SnowflakeService.transitionToDisconnected, transitionTo_eq])

theorem connected_or (s : SnowflakeService) :
    (s.transitionTo .connected).currentState = .connected ∨
      (s.transitionTo .connected).currentState = .disconnected :=
  .inl (by simp [transitionTo_eq])

/-- However a renewal that is told something ends, it ends in a drain. -/
theorem driven_onRenewAnswer {err : Option Err} {body : Option Body} (currentTime : Int)
    (hdata : err = none → (body.bind (·.data)).isSome) :
    Driven (s.onRenewAnswer err body currentTime) := by
  unfold onRenewAnswer
  cases err with
  | none =>
      cases hb : body.bind (·.data) with
      | none => simp [hb] at hdata
      | some data => exact driven_due (connected_or _)
  | some e =>
      simp only
      split
      · exact driven_due (disconnected_or s)
      · split
        · exact driven_due (connected_or s)
        · exact driven_due (disconnected_or s)

theorem Driven.writeCredentials {p : Pending} (h : Driven (s.await p)) (hr : p.renews = false)
    (op : Op) (keys : List Credential) : Driven (s.writeCredentials op keys) := by
  cases keys with
  | nil => exact driven_due (connected_or s)
  | cons key keys => exact h.replace (by simp [hr]) (fun _ => rfl)

/-- A login that is told something goes on, or ends in a drain. -/
theorem Driven.onLoginAnswer (cfg : ConnectionConfig) {login : Login} {err : Option Err}
    {body : Option Body} (env : Env) (h : Driven (s.await (.sent (.login login))))
    (hd : s.drain = .none) (hdata : err = none → (body.bind (·.data)).isSome) :
    Driven (s.onLoginAnswer cfg login err body env) := by
  have hnext : ∀ {p : Pending} (next : Login), p.logsIn = true → Driven
      ((if next.sleep ≤ 0 then s.transitionToDisconnected else s).await p) := by
    intro p next hp
    split
    · exact Driven.await_login hp ((transitionTo_drain _ _).trans hd)
        (by simp [SnowflakeService.transitionToDisconnected, transitionTo_eq])
    · exact h.replace (by simp [Pending.renews, Http.renews]) (fun _ => hp)
  unfold SnowflakeService.onLoginAnswer
  cases err with
  | none =>
      cases hb : body.bind (·.data) with
      | none => simp [hb] at hdata
      | some data =>
          have htok : Driven ({ s with tokenInfo := .ofData data env.currentTime }.await
              (.sent (.login login))) := ⟨h.settled, h.renewing, h.connecting, h.drained⟩
          exact htok.writeCredentials rfl login.op (credentials cfg data)
  | some e =>
      simp only
      split
      · unfold awaitRetry
        split <;> exact hnext (nextLogin cfg login env.random) rfl
      · exact driven_due (disconnected_or s)

theorem Driven.deliver (cfg : ConnectionConfig) {d : Delivery} {p : Pending}
    (hp : p.renews = d.http.renews ∧ p.logsIn = d.http.logsIn) (h : Driven (s.await p))
    (hd : s.drain = .none) (hdata : d.lacksData = false) : Driven (s.deliver cfg d) := by
  obtain ⟨http, err, body, env⟩ := d
  cases http with
  | op op =>
      have hs : Driven s := h.drop hp.1 hp.2
      simp only [SnowflakeService.deliver]
      cases hk : op.kind with
      | connect => exact hs.onRequestAnswer hd op err
      | request => exact hs.onRequestAnswer hd op err
      | destroy => exact hs.onDestroyAnswer op err
  | renew =>
      refine driven_onRenewAnswer env.currentTime fun he => ?_
      subst he
      simpa [Delivery.lacksData, Http.logsIn, Http.renews, Option.isSome_iff_ne_none] using hdata
  | login login =>
      refine Driven.onLoginAnswer cfg env ?_ hd fun he => ?_
      · exact h.replace (by simp [hp.1, Http.renews]) (fun _ => rfl)
      · subst he
        simpa [Delivery.lacksData, Http.logsIn, Http.renews, Option.isSome_iff_ne_none]
          using hdata

/-! ## one step -/

theorem take_eq_some {p : Pending} : s.take p = some t ↔
    (s.Idle ∧ p ∈ s.pending) ∧ { s with pending := s.pending.erase p } = t := by
  unfold take
  split <;> simp_all

theorem Driven.take {p : Pending} (h : Driven s) (ht : s.take p = some t) :
    Driven (t.await p) := by
  obtain ⟨⟨-, hp⟩, rfl⟩ := take_eq_some.mp ht
  have hperm : (s.pending.erase p ++ [p]).Perm s.pending :=
    List.perm_append_comm.trans (List.perm_cons_erase hp).symm
  have hmem : ∀ {P : Pending → Prop}, (∃ x ∈ s.pending, P x) →
      ∃ x ∈ s.pending.erase p ++ [p], P x := by
    rintro P ⟨x, hx, hPx⟩
    exact ⟨x, hperm.mem_iff.mpr hx, hPx⟩
  exact ⟨h.settled, fun hs => hmem (h.renewing hs), fun hs => hmem (h.connecting hs),
    fun hq hd => hmem (h.drained hq hd)⟩

theorem Conserved.take {p : Pending} (h : Conserved [] s) (ht : s.take p = some t) :
    Conserved p.op?.toList t := by
  obtain ⟨⟨-, hp⟩, rfl⟩ := take_eq_some.mp ht
  refine ⟨h.window, h.order, fun x => ?_, h.fresh⟩
  have hx := h.held x
  have hcount : (s.pending.filterMap Pending.op?).count x =
      p.op?.toList.count x + ((s.pending.erase p).filterMap Pending.op?).count x := by
    rw [((List.perm_cons_erase hp).filterMap Pending.op?).count_eq, List.filterMap_cons]
    cases hop : p.op? <;> simp [List.count_cons, Nat.add_comm]
  simp only [SnowflakeService.held, waiting, hcount, List.count_nil] at hx ⊢
  omega

theorem idle_of_take {p : Pending} (ht : s.take p = some t) : t.drain = .none := by
  obtain ⟨⟨hidle, -⟩, rfl⟩ := take_eq_some.mp ht
  exact hidle.2

/-- Both halves of the queue's invariant. -/
def QueueInv (s : SnowflakeService) : Prop := Conserved [] s ∧ Driven s

theorem queueInv_create (tokenInfo : TokenInfo) : QueueInv (create tokenInfo) :=
  ⟨conserved_create tokenInfo, driven_create tokenInfo⟩

/-- An operation that is handed to the service. -/
theorem QueueInv.accept_execute (cfg : ConnectionConfig) (h : QueueInv s) (kind : OpKind) :
    QueueInv ((s.accept ⟨kind, s.accepted.length⟩).execute cfg ⟨kind, s.accepted.length⟩) := by
  have hd : s.drain = .none ∨ s.currentState = .connected ∨ s.currentState = .disconnected := by
    by_cases hd : s.drain = .none
    · exact .inl hd
    · exact .inr (h.2.settled hd)
  have hc : Conserved [⟨kind, s.accepted.length⟩] (s.accept ⟨kind, s.accepted.length⟩) := by
    refine ⟨h.1.window, h.1.order, fun x => ?_, fun i op hi => ?_⟩
    · have hx := h.1.held x
      simp only [SnowflakeService.held, waiting, accept_accepted, List.count_append,
        List.count_nil] at hx ⊢
      simp only [accept] at hx ⊢
      omega
    · simp only [accept_accepted, List.getElem?_append] at hi
      split at hi
      · exact h.1.fresh i op hi
      · simp only [List.getElem?_singleton] at hi
        split at hi
        · cases hi
          show s.accepted.length = i
          omega
        · cases hi
  exact ⟨hc.execute cfg hd, (h.2.accept _).execute cfg _⟩

/-- A step of the drain executes the operation that has waited longest; at the end
of the loop nothing waits. -/
theorem QueueInv.resume (cfg : ConnectionConfig) (h : QueueInv s) (ht : s.resume cfg = some t) :
    QueueInv t := by
  unfold SnowflakeService.resume at ht
  cases hd : s.drain with
  | none => simp [hd] at ht
  | due =>
      simp only [hd, Option.some.injEq] at ht
      subst ht
      have hs := h.2.settled (by simp [hd])
      refine ⟨⟨?_, ?_, fun x => ?_, h.1.fresh⟩, ?_⟩
      · intro index length hl
        cases hl
        exact ⟨Nat.zero_le _, rfl⟩
      · have := h.1.order
        simpa [waiting, hd] using this
      · have hx := h.1.held x
        simpa [SnowflakeService.held, waiting, hd] using hx
      · exact ⟨fun _ => hs, h.2.renewing, h.2.connecting, fun _ hn => by cases hn⟩
  | loop index length =>
      have hs := h.2.settled (by simp [hd])
      obtain ⟨hle, hlen⟩ := h.1.window index length hd
      simp only [hd] at ht
      by_cases hlt : index < length
      · have hget : index < s.operationQueue.length := hlen ▸ hlt
        rw [if_pos hlt, List.getElem?_eq_getElem hget] at ht
        simp only [Option.map_some, Option.some.injEq] at ht
        subst ht
        have hdrop : s.operationQueue.drop index =
            s.operationQueue[index] :: s.operationQueue.drop (index + 1) :=
          List.drop_eq_getElem_cons hget
        have hc : Conserved [s.operationQueue[index]]
            { s with drain := .loop (index + 1) length
                     executed := s.executed ++ [s.operationQueue[index]] } := by
          refine ⟨?_, ?_, fun x => ?_, h.1.fresh⟩
          · intro i n hl
            cases hl
            exact ⟨hlt, hlen⟩
          · have ho := h.1.order
            simp only [waiting, hd, hdrop] at ho ⊢
            simpa using ho
          · have hx := h.1.held x
            simp only [SnowflakeService.held, waiting, hd, hdrop, List.count_cons,
              List.count_nil] at hx ⊢
            omega
        have hdr : Driven { s with drain := .loop (index + 1) length
                                   executed := s.executed ++ [s.operationQueue[index]] } :=
          ⟨fun _ => hs, h.2.renewing, h.2.connecting, fun _ hn => by cases hn⟩
        exact ⟨hc.execute cfg (.inr hs), hdr.execute cfg _⟩
      · rw [if_neg hlt, Option.some.injEq] at ht
        subst ht
        have hnil : s.operationQueue.drop index = [] := List.drop_eq_nil_of_le (by omega)
        refine ⟨⟨?_, ?_, fun x => ?_, h.1.fresh⟩, ?_⟩
        · intro i n hl
          cases hl
        · have ho := h.1.order
          simpa [waiting, hd, hnil] using ho
        · have hx := h.1.held x
          simpa [SnowflakeService.held, waiting, hd, hnil] using hx
        · exact ⟨fun hn => absurd rfl hn, h.2.renewing, h.2.connecting, fun hq => absurd rfl hq⟩

/-- What `sendHttpRequest`'s callback goes on with belongs to the same request. -/
def Continues (http : Http) : Pending ⊕ Delivery → Prop
  | .inl p => p.op? = http.op? ∧ p.renews = http.renews ∧ p.logsIn = http.logsIn
  | .inr d => d.http = http

theorem continues_receive (cfg : ConnectionConfig) (http : Http) (answer : Answer) (env : Env) :
    Continues http (receive cfg http answer env) := by
  unfold receive
  cases answerError answer with
  | some e => rfl
  | none =>
      cases answer.body with
      | none => rfl
      | some body =>
          simp only
          split
          · rfl
          · split
            · exact ⟨rfl, rfl, rfl⟩
            · split
              · exact ⟨rfl, rfl, rfl⟩
              · rfl

theorem continues_receiveCleared (cfg : ConnectionConfig) (http : Http) (body : Body) (env : Env) :
    Continues http (receiveCleared cfg http body env) := by
  unfold receiveCleared
  split
  · exact ⟨rfl, rfl, rfl⟩
  · rfl

theorem QueueInv.take_await {p q : Pending} (h : QueueInv s) (ht : s.take p = some t)
    (hop : q.op? = p.op?) (hr : p.renews = true → q.renews = true)
    (hl : p.logsIn = true → q.logsIn = true) : QueueInv (t.await q) :=
  ⟨Conserved.await (hop ▸ h.1.take ht), (h.2.take ht).replace hr hl⟩

theorem QueueInv.proceed (cfg : ConnectionConfig) (h : QueueInv s) {p : Pending} {http : Http}
    (ht : s.take p = some t) (hp : p.op? = http.op? ∧ p.renews = http.renews ∧
      p.logsIn = http.logsIn) {next : Pending ⊕ Delivery} (hn : Continues http next)
    (hdata : ∀ d ∈ next.getRight?, d.lacksData = false) : QueueInv (t.proceed cfg next) := by
  cases next with
  | inl q =>
      obtain ⟨hop, hr, hl⟩ := hn
      refine h.take_await ht (hop.trans hp.1.symm) ?_ ?_
      · rw [hr, hp.2.1]
        exact id
      · rw [hl, hp.2.2]
        exact id
  | inr d =>
      have hhttp : d.http = http := hn
      subst hhttp
      have hd := idle_of_take ht
      have hdata' := hdata d rfl
      refine ⟨Conserved.deliver cfg ?_ hd hdata', Driven.deliver cfg hp.2 (h.2.take ht) hd hdata'⟩
      rw [← hp.1]
      exact h.1.take ht

/-- What one step keeps. -/
theorem QueueInv.step (cfg : ConnectionConfig) {e : Event} (h : QueueInv s)
    (hc : Completes cfg s e) (hst : step cfg s e = some t) : QueueInv t := by
  cases e with
  | called kind =>
      simp only [SnowflakeService.step, Option.ite_none_right_eq_some, Option.some.injEq] at hst
      obtain ⟨-, rfl⟩ := hst
      exact h.accept_execute cfg kind
  | returned =>
      simp only [SnowflakeService.step, Option.ite_none_right_eq_some, Option.some.injEq] at hst
      obtain ⟨-, rfl⟩ := hst
      exact ⟨⟨h.1.window, h.1.order, h.1.held, h.1.fresh⟩,
        ⟨h.2.settled, h.2.renewing, h.2.connecting, h.2.drained⟩⟩
  | threw =>
      simp only [SnowflakeService.step, Option.ite_none_right_eq_some, Option.some.injEq] at hst
      obtain ⟨-, rfl⟩ := hst
      have hdrain : (if s.depth = 1 then Drain.none else s.drain) = s.drain ∨
          s.operationQueue = [] := by
        by_cases h1 : s.depth = 1
        · by_cases hd : s.drain = .none
          · left; simp [h1, hd]
          · right
            by_contra hq
            exact hc ⟨h1, hd, hq⟩
        · left; simp [h1]
      rcases hdrain with hdrain | hq
      · rw [hdrain]
        exact ⟨⟨h.1.window, h.1.order, h.1.held, h.1.fresh⟩,
          ⟨h.2.settled, h.2.renewing, h.2.connecting, h.2.drained⟩⟩
      · split
        · have hw : s.waiting = [] := by
            unfold waiting
            split <;> simp [hq]
          refine ⟨⟨?_, ?_, fun x => ?_, h.1.fresh⟩, ?_⟩
          · intro i n hl
            cases hl
          · have ho := h.1.order
            rw [hw] at ho
            simpa [waiting, hq] using ho
          · have hx := h.1.held x
            simp only [SnowflakeService.held, hw] at hx
            simpa [SnowflakeService.held, waiting, hq] using hx
          · exact ⟨fun hn => absurd rfl hn, h.2.renewing, h.2.connecting, fun hn => absurd hq hn⟩
        · exact ⟨⟨h.1.window, h.1.order, h.1.held, h.1.fresh⟩,
            ⟨h.2.settled, h.2.renewing, h.2.connecting, h.2.drained⟩⟩
  | resume =>
      simp only [SnowflakeService.step, Option.ite_none_right_eq_some] at hst
      exact h.resume cfg hst.2
  | tick =>
      simp only [SnowflakeService.step, Option.ite_none_right_eq_some] at hst
      obtain ⟨-, hst⟩ := hst
      cases hticks : s.ticks with
      | nil => simp [hticks] at hst
      | cons x ticks =>
          obtain ⟨op, err⟩ := x
          simp only [hticks, Option.some.injEq] at hst
          subst hst
          have hcons : Conserved [op] { s with ticks } := by
            refine ⟨h.1.window, h.1.order, fun x => ?_, h.1.fresh⟩
            have hx := h.1.held x
            simp only [SnowflakeService.held, waiting, hticks, List.map_cons, List.count_cons,
              List.count_nil] at hx ⊢
            omega
          have hdr : Driven { s with ticks } :=
            ⟨h.2.settled, h.2.renewing, h.2.connecting, h.2.drained⟩
          exact ⟨hcons.call (some err), hdr.call op (some err)⟩
  | prepared op =>
      simp only [SnowflakeService.step, Option.map_eq_some_iff] at hst
      obtain ⟨u, hu, rfl⟩ := hst
      exact h.take_await hu rfl (by simp [Pending.renews]) (fun _ => rfl)
  | answered http answer env =>
      simp only [SnowflakeService.step, Option.map_eq_some_iff] at hst
      obtain ⟨u, hu, rfl⟩ := hst
      exact h.proceed cfg hu ⟨rfl, rfl, rfl⟩ (continues_receive cfg http answer env) hc
  | cleared http body done env =>
      simp only [SnowflakeService.step, Option.map_eq_some_iff] at hst
      obtain ⟨u, hu, rfl⟩ := hst
      have hdone : done = true := hc
      subst hdone
      refine h.proceed cfg hu ⟨rfl, rfl, rfl⟩ (continues_receiveCleared cfg http body env) ?_
      intro d hd
      unfold receiveCleared at hd
      split at hd
      · cases hd
      · cases hd
        simp [Delivery.lacksData]
  | reauthenticated http done =>
      simp only [SnowflakeService.step, Option.map_eq_some_iff] at hst
      obtain ⟨u, hu, rfl⟩ := hst
      have hdone : done = true := hc
      subst hdone
      exact h.take_await hu rfl id id
  | written op key keys done =>
      simp only [SnowflakeService.step, Option.map_eq_some_iff] at hst
      obtain ⟨u, hu, rfl⟩ := hst
      have hdone : done = true := hc
      subst hdone
      exact ⟨Conserved.writeCredentials (h.1.take hu) keys (idle_of_take hu),
        (h.2.take hu).writeCredentials rfl op keys⟩
  | refreshed login retryOption =>
      simp only [SnowflakeService.step, Option.map_eq_some_iff] at hst
      obtain ⟨u, hu, rfl⟩ := hst
      obtain ⟨x, rfl⟩ := Option.isSome_iff_exists.mp hc
      refine h.take_await hu ?_ id id
      simp only [Pending.op?]
      split <;> rfl
  | woke login =>
      simp only [SnowflakeService.step, Option.map_eq_some_iff] at hst
      obtain ⟨u, hu, rfl⟩ := hst
      exact h.take_await hu rfl (by simp [Pending.renews]) (fun _ => rfl)

/-! ## drains -/

/-- The request that an event tells of an expired session token. -/
def expired (cfg : ConnectionConfig) (e : Event) : Option Op :=
  match delivery cfg e with
  | some ⟨.op op, some err, _, _⟩ =>
      if op.kind ≠ .destroy ∧ err.code = SESSION_TOKEN_EXPIRED then some op else none
  | _ => none

/-- The events after which a drain may be due: a login or a renewal ends, or a
request learns that the session is invalid. -/
def StartsDrain (cfg : ConnectionConfig) (e : Event) : Prop :=
  (∃ d ∈ delivery cfg e, d.http.logsIn = true ∨ d.http.renews = true ∨
    ∃ err ∈ d.err, err.code = SESSION_TOKEN_INVALID ∨ err.code = GONE_SESSION) ∨
  ∃ op key, e = .written op key [] true

/-- An expired request is queued behind a renewal; operations of the queue are
executed by a drain only, and a drain does not start on its own. -/
def DrainsInTurn (cfg : ConnectionConfig) (s : SnowflakeService) (e : Event) : Prop :=
  ∀ t ∈ step cfg s e,
    (∀ op ∈ expired cfg e, t.operationQueue = s.operationQueue ++ [op] ∧
      t.currentState = .renewing ∧ ∃ p ∈ t.pending, p.renews = true) ∧
    (t.executed ≠ s.executed → e = .resume) ∧
    (s.drain = .none → t.drain ≠ .none → StartsDrain cfg e)

theorem execute_frame (cfg : ConnectionConfig) (s : SnowflakeService) (op : Op) :
    (s.execute cfg op).executed = s.executed ∧ (s.execute cfg op).drain = s.drain := by
  obtain ⟨-, -, heq⟩ | ⟨errorCode, heq⟩ | ⟨-, -, heq⟩ | ⟨-, -, heq⟩ | ⟨-, -, -, heq⟩ :=
    execute_cases cfg s op
  all_goals
    rw [heq]
    simp [transitionToConnecting, SnowflakeService.transitionToDisconnected, transitionTo_eq]

theorem awaitRetry_frame (cfg : ConnectionConfig) (s : SnowflakeService) (login : Login) :
    (awaitRetry cfg s login).executed = s.executed ∧ (awaitRetry cfg s login).drain = s.drain := by
  unfold awaitRetry
  split <;> simp

theorem writeCredentials_executed (s : SnowflakeService) (op : Op) (keys : List Credential) :
    (s.writeCredentials op keys).executed = s.executed := by
  cases keys <;> simp [SnowflakeService.writeCredentials, finishLogin, transitionTo_eq]

theorem deliver_executed (cfg : ConnectionConfig) (s : SnowflakeService) (d : Delivery) :
    (s.deliver cfg d).executed = s.executed := by
  unfold SnowflakeService.deliver
  cases d.http with
  | op op =>
      simp only
      cases op.kind <;> cases d.err <;>
        simp only [SnowflakeService.onRequestAnswer, SnowflakeService.onDestroyAnswer] <;>
        (repeat' split) <;> simp [SnowflakeService.transitionToDisconnected, transitionTo_eq]
  | renew =>
      simp only [onRenewAnswer]
      (repeat' split) <;> simp [SnowflakeService.transitionToDisconnected, transitionTo_eq]
  | login login =>
      simp only [SnowflakeService.onLoginAnswer]
      (repeat' split) <;> simp [writeCredentials_executed, (awaitRetry_frame _ _ _).1, finishLogin,
        SnowflakeService.transitionToDisconnected, transitionTo_eq]

/-- Being told something makes a drain due only where `StartsDrain` says so. -/
theorem deliver_starts (cfg : ConnectionConfig) {d : Delivery} (hd : s.drain = .none)
    (hne : (s.deliver cfg d).drain ≠ .none) : d.http.logsIn = true ∨ d.http.renews = true ∨
      ∃ err ∈ d.err, err.code = SESSION_TOKEN_INVALID ∨ err.code = GONE_SESSION := by
  obtain ⟨http, err, body, env⟩ := d
  cases http with
  | login login => exact .inl rfl
  | renew => exact .inr (.inl rfl)
  | op op =>
      have hdestroy : (s.onDestroyAnswer op err).drain = .none := by
        cases err <;> simp only [SnowflakeService.onDestroyAnswer] <;> (try split) <;>
          simp [SnowflakeService.transitionToDisconnected, transitionTo_eq, hd]
      have hrequest : (s.onRequestAnswer op err).drain ≠ .none →
          ∃ e ∈ err, e.code = SESSION_TOKEN_INVALID ∨ e.code = GONE_SESSION := by
        cases err with
        | none => simp [SnowflakeService.onRequestAnswer, hd]
        | some e =>
            simp only [SnowflakeService.onRequestAnswer]
            split
            · simp [transitionTo_eq, hd]
            · split
              · exact fun _ => ⟨e, rfl, ‹_›⟩
              · simp [hd]
      simp only [SnowflakeService.deliver] at hne
      cases hk : op.kind with
      | connect => exact .inr (.inr (hrequest (by simpa only [hk] using hne)))
      | request => exact .inr (.inr (hrequest (by simpa only [hk] using hne)))
      | destroy =>
          simp only [hk] at hne
          exact absurd hdestroy hne

theorem expired_eq_some {cfg : ConnectionConfig} {e : Event} {op : Op}
    (h : op ∈ expired cfg e) : ∃ d ∈ delivery cfg e, d.http = .op op ∧ op.kind ≠ .destroy ∧
      ∃ err, d.err = some err ∧ err.code = SESSION_TOKEN_EXPIRED := by
  simp only [expired, Option.mem_def] at h
  split at h
  · rename_i op' err body env hdel
    simp only [Option.ite_none_right_eq_some, Option.some.injEq] at h
    obtain ⟨⟨hkind, hcode⟩, rfl⟩ := h
    exact ⟨_, hdel, rfl, hkind, err, rfl, hcode⟩
  · cases h

/-- What `proceed` does to the drains, given what it was told. -/
theorem proceed_drainsInTurn (cfg : ConnectionConfig) {p : Pending} {http : Http} {u : SnowflakeService}
    (h : Driven s) (hu : s.take p = some u)
    (hp : p.renews = http.renews ∧ p.logsIn = http.logsIn) {next : Pending ⊕ Delivery}
    (hn : Continues http next) :
    (∀ d ∈ next.getRight?, ∀ op, d.http = .op op → op.kind ≠ .destroy →
      ∀ err, d.err = some err → err.code = SESSION_TOKEN_EXPIRED →
        (u.proceed cfg next).operationQueue = s.operationQueue ++ [op] ∧
        (u.proceed cfg next).currentState = .renewing ∧
        ∃ q ∈ (u.proceed cfg next).pending, q.renews = true) ∧
    (u.proceed cfg next).executed = s.executed ∧
    ((u.proceed cfg next).drain ≠ .none → ∃ d ∈ next.getRight?, d.http.logsIn = true ∨
      d.http.renews = true ∨
      ∃ err ∈ d.err, err.code = SESSION_TOKEN_INVALID ∨ err.code = GONE_SESSION) := by
  have hdrain := idle_of_take hu
  obtain ⟨-, hueq⟩ := take_eq_some.mp hu
  have hexec : u.executed = s.executed := by rw [← hueq]
  have hqueue : u.operationQueue = s.operationQueue := by rw [← hueq]
  cases next with
  | inl q =>
      refine ⟨by simp, by simpa [proceed] using hexec, fun hne => ?_⟩
      exact absurd (by simpa [proceed] using hdrain) hne
  | inr d =>
      refine ⟨?_, (deliver_executed cfg u d).trans hexec,
        fun hne => ⟨d, rfl, deliver_starts cfg hdrain hne⟩⟩
      intro d' hd' op hop hkind err herr hcode
      cases hd'
      have hhttp : d.http = http := hn
      have hdr : Driven u := by
        refine (h.take hu).drop ?_ ?_
        · rw [hp.1, ← hhttp, hop]
          rfl
        · rw [hp.2, ← hhttp, hop]
          rfl
      have heq : u.proceed cfg (.inr d) = u.onRequestAnswer op (some err) := by
        simp only [proceed, SnowflakeService.deliver, hop, herr]
      rw [heq, ← hqueue]
      exact onRequestAnswer_expired hdr hcode

theorem take_frame {p : Pending} {u : SnowflakeService} (hu : s.take p = some u) :
    u.executed = s.executed ∧ u.drain = s.drain := by
  obtain ⟨-, rfl⟩ := take_eq_some.mp hu
  exact ⟨rfl, rfl⟩

theorem Driven.drainsInTurn (cfg : ConnectionConfig) (h : Driven s) (e : Event) :
    DrainsInTurn cfg s e := by
  intro t ht
  have hframe : (∀ op, op ∉ expired cfg e) → t.executed = s.executed → t.drain = s.drain →
      (∀ op ∈ expired cfg e, t.operationQueue = s.operationQueue ++ [op] ∧
        t.currentState = .renewing ∧ ∃ p ∈ t.pending, p.renews = true) ∧
      (t.executed ≠ s.executed → e = .resume) ∧
      (s.drain = .none → t.drain ≠ .none → StartsDrain cfg e) := by
    intro hnone hexec hdrain
    exact ⟨fun op hop => absurd hop (hnone op), fun hne => absurd hexec hne,
      fun hs hne => absurd (hdrain.trans hs) hne⟩
  cases e with
  | called kind =>
      simp only [SnowflakeService.step, Option.mem_def, Option.ite_none_right_eq_some,
        Option.some.injEq] at ht
      obtain ⟨-, rfl⟩ := ht
      exact hframe (by simp [expired, delivery]) (execute_frame _ _ _).1 (execute_frame _ _ _).2
  | returned =>
      simp only [SnowflakeService.step, Option.mem_def, Option.ite_none_right_eq_some,
        Option.some.injEq] at ht
      obtain ⟨-, rfl⟩ := ht
      exact hframe (by simp [expired, delivery]) rfl rfl
  | threw =>
      simp only [SnowflakeService.step, Option.mem_def, Option.ite_none_right_eq_some,
        Option.some.injEq] at ht
      obtain ⟨-, rfl⟩ := ht
      refine ⟨by simp [expired, delivery], fun hne => absurd rfl hne, fun hs hne => ?_⟩
      simp only [hs, ite_self, ne_eq, not_true_eq_false] at hne
  | resume =>
      refine ⟨by simp [expired, delivery], fun _ => rfl, fun hs _ => ?_⟩
      simp [SnowflakeService.step, SnowflakeService.resume, hs] at ht
  | tick =>
      simp only [SnowflakeService.step, Option.mem_def, Option.ite_none_right_eq_some] at ht
      obtain ⟨-, ht⟩ := ht
      cases hticks : s.ticks with
      | nil => simp [hticks] at ht
      | cons x ticks =>
          simp only [hticks, Option.some.injEq] at ht
          subst ht
          exact hframe (by simp [expired, delivery]) rfl rfl
  | prepared op =>
      simp only [SnowflakeService.step, Option.mem_def, Option.map_eq_some_iff] at ht
      obtain ⟨u, hu, rfl⟩ := ht
      exact hframe (by simp [expired, delivery]) (take_frame hu).1 (take_frame hu).2
  | answered http answer env =>
      simp only [SnowflakeService.step, Option.mem_def, Option.map_eq_some_iff] at ht
      obtain ⟨u, hu, rfl⟩ := ht
      obtain ⟨hexp, hexec, hdr⟩ := proceed_drainsInTurn cfg h hu ⟨rfl, rfl⟩
        (continues_receive cfg http answer env)
      refine ⟨fun op hop => ?_, fun hne => absurd hexec hne, fun _ hne => .inl (hdr hne)⟩
      obtain ⟨d, hd, hhttp, hkind, err, herr, hcode⟩ := expired_eq_some hop
      exact hexp d hd op hhttp hkind err herr hcode
  | cleared http body done env =>
      simp only [SnowflakeService.step, Option.mem_def, Option.map_eq_some_iff] at ht
      obtain ⟨u, hu, rfl⟩ := ht
      cases done with
      | false => exact hframe (by simp [expired, delivery]) (take_frame hu).1 (take_frame hu).2
      | true =>
          obtain ⟨hexp, hexec, hdr⟩ := proceed_drainsInTurn cfg h hu ⟨rfl, rfl⟩
            (continues_receiveCleared cfg http body env)
          refine ⟨fun op hop => ?_, fun hne => absurd hexec hne, fun _ hne => .inl (hdr hne)⟩
          obtain ⟨d, hd, hhttp, hkind, err, herr, hcode⟩ := expired_eq_some hop
          exact hexp d hd op hhttp hkind err herr hcode
  | reauthenticated http done =>
      simp only [SnowflakeService.step, Option.mem_def, Option.map_eq_some_iff] at ht
      obtain ⟨u, hu, rfl⟩ := ht
      refine hframe (by simp [expired, delivery]) ?_ ?_
      · cases done <;> simp [(take_frame hu).1]
      · cases done <;> simp [(take_frame hu).2]
  | written op key keys done =>
      simp only [SnowflakeService.step, Option.mem_def, Option.map_eq_some_iff] at ht
      obtain ⟨u, hu, rfl⟩ := ht
      refine ⟨by simp [expired, delivery], fun hne => ?_, fun hs hne => ?_⟩
      · refine absurd ?_ hne
        cases done <;> simp [writeCredentials_executed, (take_frame hu).1]
      · cases done with
        | false => exact absurd ((take_frame hu).2.trans hs) hne
        | true =>
            cases keys with
            | nil => exact .inr ⟨op, key, rfl⟩
            | cons k ks => exact absurd ((take_frame hu).2.trans hs) hne
  | refreshed login retryOption =>
      simp only [SnowflakeService.step, Option.mem_def, Option.map_eq_some_iff] at ht
      obtain ⟨u, hu, rfl⟩ := ht
      refine hframe (by simp [expired, delivery]) ?_ ?_
      · cases retryOption <;> simp [(take_frame hu).1]
      · cases retryOption <;> simp [(take_frame hu).2]
  | woke login =>
      simp only [SnowflakeService.step, Option.mem_def, Option.map_eq_some_iff] at ht
      obtain ⟨u, hu, rfl⟩ := ht
      exact hframe (by simp [expired, delivery]) (take_frame hu).1 (take_frame hu).2

/-! ## whole runs -/

/-- Nothing runs and nothing is left to come back to. -/
def AtRest (s : SnowflakeService) : Prop := s.pending = [] ∧ s.ticks = [] ∧ s.Idle

instance (s : SnowflakeService) : Decidable s.AtRest := inferInstanceAs (Decidable (_ ∧ _ ∧ _))

/-- The service never gets stuck: what is left to come back to can come back well. -/
theorem Conserved.progress (cfg : ConnectionConfig) (h : Conserved extra s) (hr : ¬ s.AtRest) :
    ∃ e, Completes cfg s e ∧ (step cfg s e).isSome = true := by
  by_cases hdepth : 0 < s.depth
  · exact ⟨.returned, trivial, by simp [SnowflakeService.step, hdepth]⟩
  have hzero : s.depth = 0 := by omega
  by_cases hdrain : s.drain = .none
  · have hidle : s.Idle := ⟨hzero, hdrain⟩
    cases hticks : s.ticks with
    | cons x ticks => exact ⟨.tick, trivial, by simp [SnowflakeService.step, hidle, hticks]⟩
    | nil =>
        cases hp : s.pending with
        | nil => exact absurd ⟨hp, hticks, hidle⟩ hr
        | cons p ps =>
            have htake : ∀ q, q = p → (s.take q).isSome = true := by
              rintro q rfl
              simp [SnowflakeService.take, hidle, hp]
            have env : Env := ⟨0, 0, 0, 0⟩
            cases p with
            | preparing op =>
                exact ⟨.prepared op, trivial, by simpa [SnowflakeService.step] using htake _ rfl⟩
            | sent http =>
                refine ⟨.answered http ⟨some .undefined, none, none⟩ env, ?_,
                  by simpa [SnowflakeService.step] using htake _ rfl⟩
                intro d hd
                cases hd
                simp [Delivery.lacksData]
            | clearing http body =>
                exact ⟨.cleared http body true env, rfl,
                  by simpa [SnowflakeService.step] using htake _ rfl⟩
            | reauthenticating http =>
                exact ⟨.reauthenticated http true, rfl,
                  by simpa [SnowflakeService.step] using htake _ rfl⟩
            | writing op key keys =>
                exact ⟨.written op key keys true, rfl,
                  by simpa [SnowflakeService.step] using htake _ rfl⟩
            | refreshing login =>
                exact ⟨.refreshed login (some (0, 0)), rfl,
                  by simpa [SnowflakeService.step] using htake _ rfl⟩
            | sleeping login =>
                exact ⟨.woke login, trivial, by simpa [SnowflakeService.step] using htake _ rfl⟩
  · refine ⟨.resume, trivial, ?_⟩
    cases hd : s.drain with
    | none => exact absurd hd hdrain
    | due => simp [SnowflakeService.step, SnowflakeService.resume, hzero, hd]
    | loop index length =>
        obtain ⟨-, hlen⟩ := h.window index length hd
        by_cases hlt : index < length
        · simp [SnowflakeService.step, SnowflakeService.resume, hzero, hd, hlt, ← hlen]
        · simp [SnowflakeService.step, SnowflakeService.resume, hzero, hd, hlt]

theorem Conserved.nodup_accepted (h : Conserved extra s) : s.accepted.Nodup := by
  refine List.nodup_iff_getElem?_ne_getElem?.mpr fun i j hij hj heq => ?_
  have hjget : s.accepted[j]? = some s.accepted[j] := List.getElem?_eq_getElem hj
  have hi := h.fresh i _ (heq.trans hjget)
  have hj' := h.fresh j _ hjget
  omega

/-- An accepted operation is held in exactly one place. -/
theorem Conserved.held_accepted (h : Conserved [] s) (hop : op ∈ s.accepted) : s.held op = 1 := by
  have hcount := h.held op
  rw [List.count_nil, Nat.add_zero] at hcount
  rw [hcount]
  exact List.count_eq_one_of_mem h.nodup_accepted hop

/-- No callback is called twice. -/
theorem Conserved.called_le (h : Conserved [] s) (op : Op) :
    (s.called.map (·.1)).count op ≤ 1 := by
  have hcount := h.held op
  have hle : s.accepted.count op ≤ 1 := List.nodup_iff_count_le_one.mp h.nodup_accepted op
  simp only [SnowflakeService.held, List.count_nil] at hcount
  omega

/-- With everything pending settled nothing is left in the queue. -/
theorem Driven.queue_eq_nil (h : Driven s) (hp : s.pending = []) (hidle : s.Idle) :
    s.operationQueue = [] := by
  by_contra hq
  obtain ⟨p, hmem, -⟩ := h.drained hq hidle.2
  rw [hp] at hmem
  cases hmem

/-- **Operations**: in every run that completes what it comes back to, every accepted
operation is waiting in the queue, pending, on its way to its callback, or called,
and only one of these, once; the queue is worked off in order, expired requests
behind a renewal; nothing is left in the queue once everything pending has
settled; the run can go on until it is at rest, and then every operation has
been called exactly once. -/
theorem operations_complete_once (cfg : ConnectionConfig) (tokenInfo : TokenInfo)
    {es : List Event} (hrun : Lts.exec (step cfg) (create tokenInfo) es = some s)
    (hcompletes : Lts.Along (step cfg) (Completes cfg) (create tokenInfo) es) :
    (∀ op ∈ s.accepted, s.held op = 1) ∧
      (∀ op, (s.called.map (·.1)).count op ≤ 1) ∧
      s.enqueued = s.executed ++ s.waiting ∧
      Lts.Along (step cfg) (DrainsInTurn cfg) (create tokenInfo) es ∧
      (s.pending = [] → s.Idle → s.operationQueue = []) ∧
      (¬ s.AtRest → ∃ e, Completes cfg s e ∧ (step cfg s e).isSome = true) ∧
      (s.AtRest → s.executed = s.enqueued ∧
        ∀ op ∈ s.accepted, (s.called.map (·.1)).count op = 1) := by
  have hstep : ∀ s e t, QueueInv s → Completes cfg s e → step cfg s e = some t → QueueInv t :=
    fun s e t h hc hst => h.step cfg hc hst
  have hinv : QueueInv s :=
    Lts.exec_invariant_of_along hstep (queueInv_create tokenInfo) hcompletes hrun
  refine ⟨fun op hop => hinv.1.held_accepted hop, hinv.1.called_le, hinv.1.order, ?_,
    hinv.2.queue_eq_nil, hinv.1.progress cfg, ?_⟩
  · exact Lts.along_of_invariant (fun s e t h _ _ => h.2.drainsInTurn cfg e) hstep
      (queueInv_create tokenInfo) hcompletes hrun
  · rintro ⟨hp, hticks, hidle⟩
    have hqueue := hinv.2.queue_eq_nil hp hidle
    have hwaiting : s.waiting = [] := by simp [waiting, hidle.2, hqueue]
    refine ⟨?_, fun op hop => ?_⟩
    · rw [hinv.1.order, hwaiting, List.append_nil]
    · have hheld := hinv.1.held_accepted hop
      simpa [SnowflakeService.held, hwaiting, hp, hticks] using hheld

/-- A request that is queued by a login, expires, is executed again after the
renewal, and completes. -/
def renewedRun : List Event :=
  [.called .connect, .prepared ⟨.connect, 0⟩, .called .request,
    .answered (.login sampleLogin) (.success sampleData) sampleEnv, .returned, .resume, .resume,
    .resume, .answered (.op ⟨.request, 1⟩) (.failure SESSION_TOKEN_EXPIRED) sampleEnv,
    .answered .renew (.success sampleData) sampleEnv, .resume, .resume, .resume,
    .answered (.op ⟨.request, 1⟩) (.success none) sampleEnv, .returned]

theorem operations_complete_once_renewed :
    ∃ s, Lts.exec (step (sampleConfig .other)) (create .cleared) renewedRun = some s ∧ s.AtRest ∧
      s.executed = [⟨.request, 1⟩, ⟨.request, 1⟩] ∧
      ∀ op ∈ s.accepted, (s.called.map (·.1)).count op = 1 := by
  obtain ⟨s, hrun, hrest, hexecuted⟩ :
      ∃ s, Lts.exec (step (sampleConfig .other)) (create .cleared) renewedRun = some s ∧
        s.AtRest ∧ s.executed = [⟨.request, 1⟩, ⟨.request, 1⟩] :=
    Lts.exists_exec (by decide +kernel)
  have h := operations_complete_once (sampleConfig .other) .cleared hrun (by decide +kernel)
  exact ⟨s, hrun, hrest, hexecuted, (h.2.2.2.2.2.2 hrest).2⟩

/-- A request is queued while an Okta login is under way; the login is retried
after a network error, and the refresh of the Okta token is rejected. -/
def rejectedRun : List Event :=
  [.called .connect, .prepared ⟨.connect, 0⟩, .called .request,
    .answered (.login sampleLogin) .network sampleEnv,
    .refreshed (nextLogin (sampleConfig .okta) sampleLogin sampleEnv.random) none]

/-- The queue is never drained: the request stays in it with nothing left to come
back to, and its callback is not called. -/
theorem request_lost_when_rejected :
    ∃ s, Lts.exec (step (sampleConfig .okta)) (create .cleared) rejectedRun = some s ∧ s.AtRest ∧
      ⟨.request, 1⟩ ∈ s.accepted ∧ (s.called.map (·.1)).count ⟨.request, 1⟩ = 0 ∧
      s.operationQueue = [⟨.request, 1⟩] :=
  Lts.exists_exec (by decide +kernel)

end SnowflakeService

end Service

end SnowflakeConnector
