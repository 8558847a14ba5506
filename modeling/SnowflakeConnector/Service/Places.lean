import SnowflakeConnector.Service.Queue

/-!
# SnowflakeConnector.Service.Places

Two facts about every step of the service: what it does does not depend on the
callbacks that were called before, and an operation only moves from the places where
it is to the next ones.

* `prepend_step` -- a step is the same whatever was called before;
* `Places.step` -- a property of the operations in the queue, in the ticks, called and
  pending is kept by a step that does not tell the request of one without it.
-/

namespace SnowflakeConnector

namespace Service

/-! ## calls are never read -/

namespace SnowflakeService

variable {s t : SnowflakeService}

/-- Other calls were made before. -/
def prepend (c : List (Op × Option Err)) (s : SnowflakeService) : SnowflakeService :=
  { s with called := c ++ s.called }

variable (c : List (Op × Option Err))

theorem prepend_call (s : SnowflakeService) (op : Op) (err : Option Err) :
    (s.prepend c).call op err = (s.call op err).prepend c := by
  simp [prepend, call]

theorem prepend_transitionTo (s : SnowflakeService) (state : SfState) :
    (s.prepend c).transitionTo state = (s.transitionTo state).prepend c := by
  rw [transitionTo_eq, transitionTo_eq]
  rfl

theorem prepend_transitionToDisconnected (s : SnowflakeService) :
    (s.prepend c).transitionToDisconnected = s.transitionToDisconnected.prepend c := by
  unfold transitionToDisconnected
  rw [prepend_transitionTo]
  rfl

theorem prepend_execute (cfg : ConnectionConfig) (s : SnowflakeService) (op : Op) :
    (s.prepend c).execute cfg op = (s.execute cfg op).prepend c := by
  unfold execute connect request destroy transitionToConnecting
  have hstate : (s.prepend c).currentState = s.currentState := rfl
  rw [hstate]
  cases op.kind with
  | connect =>
      cases s.currentState with
      | pristine =>
          simp only [prepend_transitionTo]
          rfl
      | _ => rfl
  | request => cases s.currentState <;> rfl
  | destroy =>
      cases s.currentState with
      | connected =>
          simp only
          split
          · rw [prepend_transitionToDisconnected, prepend_call]
          · rfl
      | _ => rfl

theorem prepend_onRequestAnswer (s : SnowflakeService) (op : Op) (err : Option Err) :
    (s.prepend c).onRequestAnswer op err = (s.onRequestAnswer op err).prepend c := by
  unfold onRequestAnswer
  cases err with
  | none => rw [prepend_call]
  | some e =>
      have henqueue : (s.prepend c).enqueue op = (s.enqueue op).prepend c := rfl
      simp only [henqueue, prepend_transitionTo, prepend_transitionToDisconnected, prepend_call]
      split
      · rfl
      · split <;> rfl

theorem prepend_onDestroyAnswer (s : SnowflakeService) (op : Op) (err : Option Err) :
    (s.prepend c).onDestroyAnswer op err = (s.onDestroyAnswer op err).prepend c := by
  unfold onDestroyAnswer
  simp only [prepend_transitionToDisconnected, prepend_call]
  cases err with
  | none => rfl
  | some e => simp only; split <;> rfl

theorem prepend_onRenewAnswer (s : SnowflakeService) (err : Option Err) (body : Option Body)
    (currentTime : Int) :
    (s.prepend c).onRenewAnswer err body currentTime =
      (s.onRenewAnswer err body currentTime).prepend c := by
  unfold onRenewAnswer
  cases err with
  | none =>
      cases body.bind (·.data) with
      | none => rfl
      | some data =>
          have htokens : { s.prepend c with tokenInfo := .ofData data currentTime } =
              prepend c { s with tokenInfo := .ofData data currentTime } := rfl
          simp only [htokens, prepend_transitionTo]
          rfl
  | some e =>
      simp only [prepend_transitionTo, prepend_transitionToDisconnected]
      split
      · rfl
      · split <;> rfl

theorem prepend_writeCredentials (s : SnowflakeService) (op : Op) (keys : List Credential) :
    (s.prepend c).writeCredentials op keys = (s.writeCredentials op keys).prepend c := by
  unfold writeCredentials finishLogin
  cases keys with
  | nil =>
      simp only [prepend_transitionTo, prepend_call]
      rfl
  | cons key keys => rfl

theorem prepend_awaitRetry (cfg : ConnectionConfig) (s : SnowflakeService) (login : Login) :
    awaitRetry cfg (s.prepend c) login = (awaitRetry cfg s login).prepend c := by
  unfold awaitRetry
  split <;> rfl

theorem prepend_onLoginAnswer (cfg : ConnectionConfig) (s : SnowflakeService) (login : Login)
    (err : Option Err) (body : Option Body) (env : Env) :
    (s.prepend c).onLoginAnswer cfg login err body env =
      (s.onLoginAnswer cfg login err body env).prepend c := by
  unfold onLoginAnswer finishLogin
  cases err with
  | none =>
      cases body.bind (·.data) with
      | none => rfl
      | some data =>
          have htokens : { s.prepend c with tokenInfo := .ofData data env.currentTime } =
              prepend c { s with tokenInfo := .ofData data env.currentTime } := rfl
          simp only [htokens, prepend_writeCredentials]
  | some e =>
      simp only [prepend_transitionToDisconnected, prepend_call]
      split
      · rw [← apply_ite (prepend c), prepend_awaitRetry]
      · rfl

theorem prepend_deliver (cfg : ConnectionConfig) (s : SnowflakeService) (d : Delivery) :
    (s.prepend c).deliver cfg d = (s.deliver cfg d).prepend c := by
  unfold deliver
  cases d.http with
  | login login => exact prepend_onLoginAnswer c cfg s login d.err d.body d.env
  | renew => exact prepend_onRenewAnswer c s d.err d.body d.env.currentTime
  | op op =>
      simp only
      cases op.kind with
      | destroy => exact prepend_onDestroyAnswer c s op d.err
      | connect => exact prepend_onRequestAnswer c s op d.err
      | request => exact prepend_onRequestAnswer c s op d.err

theorem prepend_proceed (cfg : ConnectionConfig) (s : SnowflakeService) (next : Pending ⊕ Delivery) :
    (s.prepend c).proceed cfg next = (s.proceed cfg next).prepend c := by
  cases next with
  | inl p => rfl
  | inr d => exact prepend_deliver c cfg s d

theorem prepend_take (s : SnowflakeService) (p : Pending) :
    (s.prepend c).take p = (s.take p).map (prepend c) := by
  unfold take
  have hidle : (s.prepend c).Idle ∧ p ∈ (s.prepend c).pending ↔ s.Idle ∧ p ∈ s.pending := Iff.rfl
  simp only [hidle]
  split <;> rfl

/-- A step is the same whatever was called before. -/
theorem prepend_step (cfg : ConnectionConfig) (s : SnowflakeService) (e : Event) :
    step cfg (s.prepend c) e = (step cfg s e).map (prepend c) := by
  cases e with
  | called kind =>
      have haccept : (s.prepend c).accept ⟨kind, s.accepted.length⟩ =
          (s.accept ⟨kind, s.accepted.length⟩).prepend c := rfl
      unfold step
      simp only
      rw [show (s.prepend c).accepted = s.accepted from rfl, haccept, prepend_execute]
      show (if 0 < s.depth ∨ s.drain = .none then _ else _) = _
      split <;> rfl
  | returned =>
      show (if 0 < s.depth then _ else _) = _
      unfold step
      simp only
      split <;> rfl
  | threw =>
      show (if 0 < s.depth then _ else _) = _
      unfold step
      simp only
      split <;> rfl
  | resume =>
      show (if s.depth = 0 then (s.prepend c).resume cfg else none) = _
      unfold step
      simp only
      split
      · unfold resume
        rw [show (s.prepend c).drain = s.drain from rfl]
        cases s.drain with
        | none => rfl
        | due => rfl
        | loop index length =>
            simp only
            rw [show (s.prepend c).operationQueue = s.operationQueue from rfl]
            split
            · cases s.operationQueue[index]? with
              | none => rfl
              | some op =>
                  exact congrArg some (prepend_execute c cfg { s with
                    drain := .loop (index + 1) length, executed := s.executed ++ [op] } op)
            · rfl
      · rfl
  | tick =>
      show (if s.Idle then _ else _) = _
      unfold step
      simp only
      split
      · rw [show (s.prepend c).ticks = s.ticks from rfl]
        cases s.ticks with
        | nil => rfl
        | cons x ticks => exact congrArg some (prepend_call c { s with ticks } x.1 (some x.2))
      · rfl
  | prepared op =>
      simp only [step, prepend_take, Option.map_map]
      rfl
  | answered http answer env =>
      simp only [step, prepend_take, Option.map_map]
      exact congrArg₂ _ (funext fun u => prepend_proceed c cfg u _) rfl
  | cleared http body done env =>
      simp only [step, prepend_take, Option.map_map]
      refine congrArg₂ _ (funext fun u => ?_) rfl
      cases done with
      | false => rfl
      | true => exact prepend_proceed c cfg u _
  | reauthenticated http done =>
      simp only [step, prepend_take, Option.map_map]
      cases done <;> rfl
  | written op key keys done =>
      simp only [step, prepend_take, Option.map_map]
      refine congrArg₂ _ (funext fun u => ?_) rfl
      cases done with
      | false => rfl
      | true => exact prepend_writeCredentials c u op keys
  | refreshed login retryOption =>
      simp only [step, prepend_take, Option.map_map]
      cases retryOption <;> rfl
  | woke login =>
      simp only [step, prepend_take, Option.map_map]
      rfl

/-! ## where operations are -/

end SnowflakeService

/-- The operation of a login satisfies `Q`, that of a request `R`. -/
def Http.Within (Q R : Op → Prop) : Http → Prop
  | .login l => Q l.op
  | .op o => R o
  | .renew => True

def Pending.Within (Q R : Op → Prop) : Pending → Prop
  | .preparing op => Q op
  | .sent http => http.Within Q R
  | .clearing http _ => http.Within Q R
  | .reauthenticating http => http.Within Q R
  | .writing op _ _ => Q op
  | .refreshing l => Q l.op
  | .sleeping l => Q l.op

namespace SnowflakeService

/-- `accepted` are the operations accepted; those whose request is pending satisfy `R`,
and those in any other place `Q`. -/
structure Places (accepted : List Op) (Q R : Op → Prop) (s : SnowflakeService) : Prop where
  accepted : s.accepted = accepted
  queue : ∀ op ∈ s.operationQueue, Q op
  ticks : ∀ x ∈ s.ticks, Q x.1
  called : ∀ x ∈ s.called, Q x.1
  pending : ∀ p ∈ s.pending, p.Within Q R

namespace Places

variable {s t : SnowflakeService} {accepted : List Op} {Q R : Op → Prop} {op : Op}

theorem create (tokenInfo : TokenInfo) : Places [] Q R (create tokenInfo) :=
  ⟨rfl, by simp [SnowflakeService.create], by simp [SnowflakeService.create],
    by simp [SnowflakeService.create], by simp [SnowflakeService.create]⟩

theorem mono {Q' R' : Op → Prop} (h : Places accepted Q R s) (hQ : ∀ op, Q op → Q' op)
    (hR : ∀ op, R op → R' op) : Places accepted Q' R' s := by
  have hhttp : ∀ http : Http, http.Within Q R → http.Within Q' R' := by
    intro http hw
    cases http with
    | login login => exact hQ _ hw
    | op op => exact hR _ hw
    | renew => trivial
  refine ⟨h.accepted, fun x hx => hQ _ (h.queue x hx), fun x hx => hQ _ (h.ticks x hx),
    fun x hx => hQ _ (h.called x hx), fun p hp => ?_⟩
  have hw := h.pending p hp
  cases p with
  | preparing op => exact hQ _ hw
  | sent http => exact hhttp http hw
  | clearing http body => exact hhttp http hw
  | reauthenticating http => exact hhttp http hw
  | writing op key keys => exact hQ _ hw
  | refreshing login => exact hQ _ hw
  | sleeping login => exact hQ _ hw

theorem inter {Q' R' : Op → Prop} (h : Places accepted Q R s) (h' : Places accepted Q' R' s) :
    Places accepted (fun op => Q op ∧ Q' op) (fun op => R op ∧ R' op) s := by
  have hhttp : ∀ http : Http, http.Within Q R → http.Within Q' R' →
      http.Within (fun op => Q op ∧ Q' op) fun op => R op ∧ R' op := by
    intro http hw hw'
    cases http with
    | login login => exact ⟨hw, hw'⟩
    | op op => exact ⟨hw, hw'⟩
    | renew => trivial
  refine ⟨h.accepted, fun x hx => ⟨h.queue x hx, h'.queue x hx⟩,
    fun x hx => ⟨h.ticks x hx, h'.ticks x hx⟩, fun x hx => ⟨h.called x hx, h'.called x hx⟩,
    fun p hp => ?_⟩
  have hw := h.pending p hp
  have hw' := h'.pending p hp
  cases p with
  | preparing op => exact ⟨hw, hw'⟩
  | sent http => exact hhttp http hw hw'
  | clearing http body => exact hhttp http hw hw'
  | reauthenticating http => exact hhttp http hw hw'
  | writing op key keys => exact ⟨hw, hw'⟩
  | refreshing login => exact ⟨hw, hw'⟩
  | sleeping login => exact ⟨hw, hw'⟩

theorem await {p : Pending} (h : Places accepted Q R s) (hp : p.Within Q R) :
    Places accepted Q R (s.await p) := by
  refine ⟨h.accepted, h.queue, h.ticks, h.called, fun q hq => ?_⟩
  obtain hq | hq := List.mem_append.mp hq
  · exact h.pending q hq
  · rw [List.mem_singleton.mp hq]
    exact hp

theorem nextTick (h : Places accepted Q R s) (hop : Q op) (errorCode : Nat) :
    Places accepted Q R (s.nextTick op errorCode) := by
  refine ⟨h.accepted, h.queue, fun x hx => ?_, h.called, h.pending⟩
  obtain hx | hx := List.mem_append.mp hx
  · exact h.ticks x hx
  · rw [List.mem_singleton.mp hx]
    exact hop

theorem call (h : Places accepted Q R s) (hop : Q op) (err : Option Err) :
    Places accepted Q R (s.call op err) := by
  refine ⟨h.accepted, h.queue, h.ticks, fun x hx => ?_, h.pending⟩
  obtain hx | hx := List.mem_append.mp hx
  · exact h.called x hx
  · rw [List.mem_singleton.mp hx]
    exact hop

theorem enqueue (h : Places accepted Q R s) (hop : Q op) : Places accepted Q R (s.enqueue op) := by
  refine ⟨h.accepted, fun x hx => ?_, h.ticks, h.called, h.pending⟩
  obtain hx | hx := List.mem_append.mp hx
  · exact h.queue x hx
  · rw [List.mem_singleton.mp hx]
    exact hop

theorem tokens (h : Places accepted Q R s) (tokenInfo : TokenInfo) :
    Places accepted Q R { s with tokenInfo } :=
  ⟨h.accepted, h.queue, h.ticks, h.called, h.pending⟩

theorem drain (h : Places accepted Q R s) (drain : Drain) : Places accepted Q R { s with drain } :=
  ⟨h.accepted, h.queue, h.ticks, h.called, h.pending⟩

theorem transitionTo (h : Places accepted Q R s) (state : SfState) :
    Places accepted Q R (s.transitionTo state) := by
  unfold SnowflakeService.transitionTo
  split
  · exact h
  · have hstate : Places accepted Q R
        { s with currentState := state, entered := s.entered ++ [state] } :=
      ⟨h.accepted, h.queue, h.ticks, h.called, h.pending⟩
    cases state with
    | renewing => exact hstate.await trivial
    | _ => exact hstate

theorem transitionToDisconnected (h : Places accepted Q R s) :
    Places accepted Q R s.transitionToDisconnected :=
  (h.transitionTo .disconnected).tokens .cleared

theorem execute (cfg : ConnectionConfig) (h : Places accepted Q R s) (hQR : ∀ op, Q op → R op)
    (hop : Q op) : Places accepted Q R (s.execute cfg op) := by
  obtain ⟨-, -, heq⟩ | ⟨errorCode, heq⟩ | ⟨-, -, heq⟩ | ⟨-, -, heq⟩ | ⟨-, -, -, heq⟩ :=
    execute_cases cfg s op
  · rw [heq]
    exact (h.transitionTo .connecting).await hop
  · rw [heq]
    exact h.nextTick hop errorCode
  · rw [heq]
    exact h.enqueue hop
  · rw [heq]
    exact h.await (hQR op hop)
  · rw [heq]
    exact h.transitionToDisconnected.call hop none

theorem onRequestAnswer (h : Places accepted Q R s) (hop : Q op) (err : Option Err) :
    Places accepted Q R (s.onRequestAnswer op err) := by
  unfold SnowflakeService.onRequestAnswer
  cases err with
  | none => exact h.call hop none
  | some e =>
      simp only
      split
      · exact (h.enqueue hop).transitionTo .renewing
      · split
        · exact (h.enqueue hop).transitionToDisconnected.drain .due
        · exact h.call hop (some e)

theorem onDestroyAnswer (h : Places accepted Q R s) (hop : Q op) (err : Option Err) :
    Places accepted Q R (s.onDestroyAnswer op err) := by
  unfold SnowflakeService.onDestroyAnswer
  cases err with
  | none => exact h.transitionToDisconnected.call hop none
  | some e =>
      simp only
      split
      · exact h.transitionToDisconnected.call hop none
      · exact h.call hop (some e)

theorem onRenewAnswer (h : Places accepted Q R s) (err : Option Err) (body : Option Body)
    (currentTime : Int) : Places accepted Q R (s.onRenewAnswer err body currentTime) := by
  unfold SnowflakeService.onRenewAnswer
  cases err with
  | none =>
      cases body.bind (·.data) with
      | none => exact h
      | some data => exact ((h.tokens _).transitionTo .connected).drain .due
  | some e =>
      simp only
      split
      · exact h.transitionToDisconnected.drain .due
      · split
        · exact (h.transitionTo .connected).drain .due
        · exact h.transitionToDisconnected.drain .due

theorem writeCredentials (h : Places accepted Q R s) (hop : Q op) (keys : List Credential) :
    Places accepted Q R (s.writeCredentials op keys) := by
  cases keys with
  | nil => exact ((h.transitionTo .connected).call hop none).drain .due
  | cons key keys => exact h.await hop

theorem onLoginAnswer (cfg : ConnectionConfig) {login : Login} (h : Places accepted Q R s)
    (hop : Q login.op) (err : Option Err) (body : Option Body) (env : Env) :
    Places accepted Q R (s.onLoginAnswer cfg login err body env) := by
  unfold SnowflakeService.onLoginAnswer
  cases err with
  | none =>
      cases body.bind (·.data) with
      | none => exact h
      | some data => exact (h.tokens _).writeCredentials hop _
  | some e =>
      simp only
      split
      · have hnext : Places accepted Q R (if (nextLogin cfg login env.random).sleep ≤ 0 then
            s.transitionToDisconnected else s) := by
          split
          · exact h.transitionToDisconnected
          · exact h
        unfold awaitRetry
        cases cfg.authenticator <;> exact hnext.await hop
      · exact (h.transitionToDisconnected.call hop (some e)).drain .due

/-- The operation of a request that is told something may go anywhere. -/
theorem deliver (cfg : ConnectionConfig) {d : Delivery} (h : Places accepted Q R s)
    (hd : d.http.Within Q Q) : Places accepted Q R (s.deliver cfg d) := by
  unfold SnowflakeService.deliver
  revert hd
  cases d.http with
  | login login => exact fun hd => h.onLoginAnswer cfg hd d.err d.body d.env
  | renew => exact fun _ => h.onRenewAnswer d.err d.body d.env.currentTime
  | op op =>
      intro hd
      simp only
      cases op.kind with
      | destroy => exact h.onDestroyAnswer hd d.err
      | connect => exact h.onRequestAnswer hd d.err
      | request => exact h.onRequestAnswer hd d.err

theorem take {p : Pending} (h : Places accepted Q R s) (ht : s.take p = some t) :
    Places accepted Q R t ∧ p.Within Q R := by
  obtain ⟨⟨-, hp⟩, rfl⟩ := take_eq_some.mp ht
  exact ⟨⟨h.accepted, h.queue, h.ticks, h.called,
    fun q hq => h.pending q (List.mem_of_mem_erase hq)⟩, h.pending p hp⟩

/-- `sendHttpRequest`'s callback goes on with the same request. -/
theorem proceed_receive (cfg : ConnectionConfig) {http : Http} (answer : Answer) (env : Env)
    (h : Places accepted Q R s) (hhttp : http.Within Q R)
    (hback : ∀ d ∈ (receive cfg http answer env).getRight?, d.http = http → http.Within Q Q) :
    Places accepted Q R (s.proceed cfg (receive cfg http answer env)) := by
  have hright : ∀ d : Delivery, d.http = http → receive cfg http answer env = .inr d →
      Places accepted Q R (s.proceed cfg (receive cfg http answer env)) := by
    intro d hd hd'
    rw [hd']
    refine h.deliver cfg ?_
    rw [hd]
    exact hback d (by rw [hd']; rfl) hd
  have hleft : ∀ p : Pending, p.Within Q R → receive cfg http answer env = .inl p →
      Places accepted Q R (s.proceed cfg (receive cfg http answer env)) := by
    intro p hp hp'
    rw [hp']
    exact h.await hp
  have hcontinues := continues_receive cfg http answer env
  cases hnext : receive cfg http answer env with
  | inr d =>
      rw [hnext] at hcontinues
      rw [← hnext]
      exact hright d hcontinues hnext
  | inl p =>
      rw [← hnext]
      refine hleft p ?_ hnext
      unfold receive at hnext
      cases ha : answerError answer with
      | some e => simp [ha] at hnext
      | none =>
          cases hb : answer.body with
          | none => simp [ha, hb] at hnext
          | some body =>
              simp only [ha, hb] at hnext
              split at hnext
              · cases hnext
              · split at hnext
                · cases hnext
                  exact hhttp
                · split at hnext
                  · cases hnext
                    exact hhttp
                  · cases hnext

theorem proceed_receiveCleared (cfg : ConnectionConfig) {http : Http} (body : Body) (env : Env)
    (h : Places accepted Q R s) (hhttp : http.Within Q R)
    (hback : ∀ d ∈ (receiveCleared cfg http body env).getRight?, d.http = http → http.Within Q Q) :
    Places accepted Q R (s.proceed cfg (receiveCleared cfg http body env)) := by
  unfold receiveCleared at hback ⊢
  split
  · exact h.await hhttp
  · next hauth =>
      rw [if_neg hauth] at hback
      exact h.deliver cfg (hback _ rfl rfl)

/-- The operation that an event hands to the service. -/
def newOps (accepted : List Op) : Event → List Op
  | .called kind => [⟨kind, accepted.length⟩]
  | _ => []

/-- What one step does to the places of the operations. -/
theorem step (cfg : ConnectionConfig) {e : Event} (h : Places accepted Q R s)
    (hQR : ∀ op, Q op → R op) (hnew : ∀ op ∈ newOps accepted e, Q op)
    (hback : ∀ d ∈ delivery cfg e, d.http.Within Q R → d.http.Within Q Q)
    (hst : SnowflakeService.step cfg s e = some t) :
    Places (accepted ++ newOps accepted e) Q R t := by
  have hnone : ∀ {u : SnowflakeService}, Places accepted Q R u → Places (accepted ++ []) Q R u := by
    intro u hu
    rw [List.append_nil]
    exact hu
  cases e with
  | called kind =>
      simp only [SnowflakeService.step, Option.ite_none_right_eq_some, Option.some.injEq] at hst
      obtain ⟨-, rfl⟩ := hst
      have hop : Q ⟨kind, s.accepted.length⟩ := by
        rw [h.accepted]
        exact hnew _ (by simp [newOps])
      refine Places.execute cfg ⟨?_, h.queue, h.ticks, h.called, h.pending⟩ hQR hop
      show s.accepted ++ [⟨kind, s.accepted.length⟩] = _
      rw [h.accepted]
      rfl
  | returned =>
      simp only [SnowflakeService.step, Option.ite_none_right_eq_some, Option.some.injEq] at hst
      obtain ⟨-, rfl⟩ := hst
      exact hnone ⟨h.accepted, h.queue, h.ticks, h.called, h.pending⟩
  | threw =>
      simp only [SnowflakeService.step, Option.ite_none_right_eq_some, Option.some.injEq] at hst
      obtain ⟨-, rfl⟩ := hst
      exact hnone ⟨h.accepted, h.queue, h.ticks, h.called, h.pending⟩
  | resume =>
      simp only [SnowflakeService.step, Option.ite_none_right_eq_some] at hst
      obtain ⟨-, hst⟩ := hst
      refine hnone ?_
      unfold SnowflakeService.resume at hst
      cases hd : s.drain with
      | none => simp [hd] at hst
      | due =>
          simp only [hd, Option.some.injEq] at hst
          subst hst
          exact h.drain _
      | loop index length =>
          simp only [hd] at hst
          split at hst
          · obtain ⟨op, hop, rfl⟩ := Option.map_eq_some_iff.mp hst
            refine Places.execute cfg ?_ hQR (h.queue op (List.mem_of_getElem? hop))
            exact ⟨h.accepted, h.queue, h.ticks, h.called, h.pending⟩
          · simp only [Option.some.injEq] at hst
            subst hst
            exact ⟨h.accepted, by simp, h.ticks, h.called, h.pending⟩
  | tick =>
      simp only [SnowflakeService.step, Option.ite_none_right_eq_some] at hst
      obtain ⟨-, hst⟩ := hst
      refine hnone ?_
      cases hticks : s.ticks with
      | nil => simp [hticks] at hst
      | cons x ticks =>
          simp only [hticks, Option.some.injEq] at hst
          subst hst
          have hall := h.ticks
          rw [hticks] at hall
          refine Places.call ?_ (hall x (by simp)) (some x.2)
          exact ⟨h.accepted, h.queue, fun y hy => hall y (List.mem_cons_of_mem _ hy), h.called,
            h.pending⟩
  | prepared op =>
      simp only [SnowflakeService.step, Option.map_eq_some_iff] at hst
      obtain ⟨u, hu, rfl⟩ := hst
      obtain ⟨hplaces, hp⟩ := h.take hu
      exact hnone (hplaces.await hp)
  | answered http answer env =>
      simp only [SnowflakeService.step, Option.map_eq_some_iff] at hst
      obtain ⟨u, hu, rfl⟩ := hst
      obtain ⟨hplaces, hp⟩ := h.take hu
      refine hnone (hplaces.proceed_receive cfg answer env hp fun d hd hhttp => ?_)
      rw [← hhttp]
      exact hback d hd (hhttp ▸ hp)
  | cleared http body done env =>
      simp only [SnowflakeService.step, Option.map_eq_some_iff] at hst
      obtain ⟨u, hu, rfl⟩ := hst
      obtain ⟨hplaces, hp⟩ := h.take hu
      cases done with
      | false => exact hnone hplaces
      | true =>
          refine hnone (hplaces.proceed_receiveCleared cfg body env hp fun d hd hhttp => ?_)
          rw [← hhttp]
          exact hback d hd (hhttp ▸ hp)
  | reauthenticated http done =>
      simp only [SnowflakeService.step, Option.map_eq_some_iff] at hst
      obtain ⟨u, hu, rfl⟩ := hst
      obtain ⟨hplaces, hp⟩ := h.take hu
      cases done with
      | false => exact hnone hplaces
      | true => exact hnone (hplaces.await hp)
  | written op key keys done =>
      simp only [SnowflakeService.step, Option.map_eq_some_iff] at hst
      obtain ⟨u, hu, rfl⟩ := hst
      obtain ⟨hplaces, hp⟩ := h.take hu
      cases done with
      | false => exact hnone hplaces
      | true => exact hnone (hplaces.writeCredentials hp keys)
  | refreshed login retryOption =>
      simp only [SnowflakeService.step, Option.map_eq_some_iff] at hst
      obtain ⟨u, hu, rfl⟩ := hst
      obtain ⟨hplaces, hp⟩ := h.take hu
      refine hnone ?_
      cases retryOption with
      | none => exact hplaces
      | some x =>
          refine hplaces.await ?_
          show Q (Login.op _)
          split <;> exact hp
  | woke login =>
      simp only [SnowflakeService.step, Option.map_eq_some_iff] at hst
      obtain ⟨u, hu, rfl⟩ := hst
      obtain ⟨hplaces, hp⟩ := h.take hu
      exact hnone (hplaces.await hp)

end Places

end SnowflakeService

end Service

end SnowflakeConnector
