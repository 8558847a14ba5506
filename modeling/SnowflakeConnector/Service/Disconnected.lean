import SnowflakeConnector.Service

/-!
# SnowflakeConnector.Service.Disconnected

When the Disconnected state is final.  The callbacks of a connection outlive it: an
answer that arrives late can still renew the session, so what holds is that a run
in which no such answer reaches a disconnected service stays disconnected, with
its tokens cleared.
-/

namespace SnowflakeConnector

namespace Service

namespace SnowflakeService

/-- What a callback is told would bring a session back: a login or a renewal that
succeeds, a renewal that goes back to Connected after a network error, a request
whose session token has expired. -/
def Delivery.revives (d : Delivery) : Bool :=
  match d.http with
  | .login _ => d.err.isNone && (d.body.bind (·.data)).isSome
  | .renew =>
      match d.err with
      | none => (d.body.bind (·.data)).isSome
      | some e => e.code ≠ MASTER_TOKEN_EXPIRED && Errors.isNetworkError (some e)
  | .op op =>
      match op.kind, d.err with
      | .destroy, _ => false
      | _, some e => e.code = SESSION_TOKEN_EXPIRED
      | _, none => false

/-- The last credential of a login is stored. -/
def storesLast : Event → Bool
  | .written _ _ [] true => true
  | _ => false

/-- If the service is disconnected, the step tells no callback of it anything that
would bring the session back. -/
def StaysDown (cfg : ConnectionConfig) (s : SnowflakeService) (e : Event) : Prop :=
  s.currentState = .disconnected →
    (∀ d ∈ delivery cfg e, d.revives = false) ∧ storesLast e = false

instance (cfg : ConnectionConfig) (s : SnowflakeService) (e : Event) :
    Decidable (StaysDown cfg s e) := by unfold StaysDown; infer_instance

/-- The history ends with the current state, Disconnected was entered last if at
all, and it goes with cleared tokens. -/
structure Final (s : SnowflakeService) : Prop where
  history : ∃ before, s.entered = before ++ [s.currentState] ∧ SfState.disconnected ∉ before
  cleared : s.currentState = .disconnected → s.tokenInfo = .cleared

theorem final_create (tokenInfo : TokenInfo) : Final (create tokenInfo) := by
  refine ⟨⟨[], rfl, by simp⟩, fun h => ?_⟩
  simp only [create] at h
  split at h <;> cases h

variable {s t : SnowflakeService}

/-- What neither changes the state nor the tokens keeps them. -/
theorem Final.congr (h : Final s) (hs : t.currentState = s.currentState)
    (he : t.entered = s.entered) (ht : t.tokenInfo = s.tokenInfo) : Final t := by
  refine ⟨?_, ?_⟩
  · rw [hs, he]
    exact h.history
  · rw [hs, ht]
    exact h.cleared

/-- A service that is not disconnected may enter any other state but that one. -/
theorem Final.transitionTo (h : Final s) {state : SfState} (hs : s.currentState ≠ .disconnected)
    (hstate : state ≠ .disconnected) : Final (s.transitionTo state) := by
  obtain ⟨before, he, hb⟩ := h.history
  rw [transitionTo_eq]
  refine ⟨?_, fun hd => absurd hd hstate⟩
  by_cases hsame : s.currentState = state
  · exact ⟨before, by simp [he, hsame], hb⟩
  · refine ⟨s.entered, by simp [hsame], ?_⟩
    rw [he, List.mem_append, List.mem_singleton]
    rintro (hmem | hmem)
    · exact hb hmem
    · exact hs hmem.symm

theorem Final.transitionToDisconnected (h : Final s) : Final s.transitionToDisconnected := by
  obtain ⟨before, he, hb⟩ := h.history
  unfold SnowflakeService.transitionToDisconnected
  rw [transitionTo_eq]
  refine ⟨?_, fun _ => rfl⟩
  by_cases hsame : s.currentState = .disconnected
  · exact ⟨before, by simp [he, hsame], hb⟩
  · refine ⟨s.entered, by simp [hsame], ?_⟩
    rw [he, List.mem_append, List.mem_singleton]
    rintro (hmem | hmem)
    · exact hb hmem
    · exact hsame hmem.symm

/-- New tokens are for a service that is not disconnected. -/
theorem Final.tokens (h : Final s) (hs : s.currentState ≠ .disconnected) (tokenInfo : TokenInfo) :
    Final { s with tokenInfo } :=
  ⟨h.history, fun hd => absurd hd hs⟩

theorem Final.await (h : Final s) (p : Pending) : Final (s.await p) := h.congr rfl rfl rfl

theorem Final.nextTick (h : Final s) (op : Op) (errorCode : Nat) :
    Final (s.nextTick op errorCode) := h.congr rfl rfl rfl

theorem Final.enqueue (h : Final s) (op : Op) : Final (s.enqueue op) := h.congr rfl rfl rfl

theorem Final.call (h : Final s) (op : Op) (err : Option Err) : Final (s.call op err) :=
  h.congr rfl rfl rfl

theorem Final.due (h : Final s) : Final { s with drain := .due } := h.congr rfl rfl rfl

/-- No method of a state brings a session back. -/
theorem Final.execute (cfg : ConnectionConfig) (h : Final s) (op : Op) :
    Final (s.execute cfg op) := by
  obtain ⟨-, hs, heq⟩ | ⟨errorCode, heq⟩ | ⟨-, -, heq⟩ | ⟨-, -, heq⟩ | ⟨-, -, -, heq⟩ :=
    execute_cases cfg s op
  · rw [heq]
    exact (h.transitionTo (by simp [hs]) (by simp)).await _
  · rw [heq]
    exact h.nextTick op errorCode
  · rw [heq]
    exact h.enqueue op
  · rw [heq]
    exact h.await _
  · rw [heq]
    exact h.transitionToDisconnected.call op none

theorem Final.onRequestAnswer (h : Final s) (op : Op) (err : Option Err)
    (hdown : s.currentState = .disconnected → ∀ e ∈ err, e.code ≠ SESSION_TOKEN_EXPIRED) :
    Final (s.onRequestAnswer op err) := by
  unfold SnowflakeService.onRequestAnswer
  cases err with
  | none => exact h.call op none
  | some e =>
      simp only
      split
      · rename_i he
        have hs : s.currentState ≠ .disconnected := fun hs => hdown hs e rfl he
        exact (h.enqueue op).transitionTo hs (by simp)
      · split
        · exact (h.enqueue op).transitionToDisconnected.due
        · exact h.call op (some e)

theorem Final.onDestroyAnswer (h : Final s) (op : Op) (err : Option Err) :
    Final (s.onDestroyAnswer op err) := by
  unfold SnowflakeService.onDestroyAnswer
  cases err with
  | none => exact h.transitionToDisconnected.call op none
  | some e =>
      simp only
      split
      · exact h.transitionToDisconnected.call op none
      · exact h.call op (some e)

theorem Final.onRenewAnswer (h : Final s) (err : Option Err) (body : Option Body)
    (env : Env) (hdown : s.currentState = .disconnected →
      Delivery.revives ⟨.renew, err, body, env⟩ = false) :
    Final (s.onRenewAnswer err body env.currentTime) := by
  unfold SnowflakeService.onRenewAnswer
  cases err with
  | none =>
      cases hb : body.bind (·.data) with
      | none => exact h
      | some data =>
          have hs : s.currentState ≠ .disconnected := by
            intro hs
            simpa [Delivery.revives, hb] using hdown hs
          have htokens := h.tokens hs (.ofData data env.currentTime)
          exact (htokens.transitionTo hs (by decide : SfState.connected ≠ .disconnected)).due
  | some e =>
      simp only
      split
      · exact h.transitionToDisconnected.due
      · rename_i hcode
        split
        · rename_i hnet
          have hs : s.currentState ≠ .disconnected := by
            intro hs
            simpa [Delivery.revives, hcode, hnet] using hdown hs
          exact (h.transitionTo hs (by simp)).due
        · exact h.transitionToDisconnected.due

theorem Final.writeCredentials (h : Final s) (op : Op) (keys : List Credential)
    (hdown : keys = [] → s.currentState ≠ .disconnected) : Final (s.writeCredentials op keys) := by
  cases keys with
  | nil => exact ((h.transitionTo (hdown rfl) (by simp)).call op none).due
  | cons key keys => exact h.await _

theorem Final.awaitRetry (cfg : ConnectionConfig) (h : Final s) (login : Login) :
    Final (awaitRetry cfg s login) := by
  unfold SnowflakeService.awaitRetry
  split <;> exact h.await _

theorem Final.onLoginAnswer (cfg : ConnectionConfig) (h : Final s) (login : Login)
    (err : Option Err) (body : Option Body) (env : Env)
    (hdown : s.currentState = .disconnected →
      Delivery.revives ⟨.login login, err, body, env⟩ = false) :
    Final (s.onLoginAnswer cfg login err body env) := by
  unfold SnowflakeService.onLoginAnswer
  cases err with
  | none =>
      cases hb : body.bind (·.data) with
      | none => exact h
      | some data =>
          have hs : s.currentState ≠ .disconnected := by
            intro hs
            simpa [Delivery.revives, hb] using hdown hs
          exact (h.tokens hs _).writeCredentials _ _ fun _ => hs
  | some e =>
      simp only
      split
      · refine Final.awaitRetry cfg ?_ _
        split
        · exact h.transitionToDisconnected
        · exact h
      · exact (h.transitionToDisconnected.call _ _).due

theorem Final.deliver (cfg : ConnectionConfig) (h : Final s) (d : Delivery)
    (hdown : s.currentState = .disconnected → d.revives = false) : Final (s.deliver cfg d) := by
  obtain ⟨http, err, body, env⟩ := d
  cases http with
  | login login => exact h.onLoginAnswer cfg login err body env hdown
  | renew => exact h.onRenewAnswer err body env hdown
  | op op =>
      have hrequest : op.kind ≠ .destroy → Final (s.onRequestAnswer op err) := by
        intro hkind
        refine h.onRequestAnswer op err fun hs e he => ?_
        cases he
        have hrev := hdown hs
        cases hk : op.kind <;> simp_all [Delivery.revives]
      simp only [SnowflakeService.deliver]
      cases hk : op.kind with
      | connect => exact hrequest (by simp [hk])
      | request => exact hrequest (by simp [hk])
      | destroy => exact h.onDestroyAnswer op err

theorem Final.take {p : Pending} (h : Final s) (ht : s.take p = some t) :
    Final t ∧ t.currentState = s.currentState := by
  unfold SnowflakeService.take at ht
  split at ht
  · cases ht
    exact ⟨h.congr rfl rfl rfl, rfl⟩
  · cases ht

theorem Final.proceed (cfg : ConnectionConfig) (h : Final s) (next : Pending ⊕ Delivery)
    (hdown : s.currentState = .disconnected → ∀ d ∈ next.getRight?, d.revives = false) :
    Final (s.proceed cfg next) := by
  cases next with
  | inl p => exact h.await p
  | inr d => exact h.deliver cfg d fun hs => hdown hs d rfl

theorem Final.resume (cfg : ConnectionConfig) (h : Final s) (ht : s.resume cfg = some t) :
    Final t := by
  unfold SnowflakeService.resume at ht
  cases hd : s.drain with
  | none => simp [hd] at ht
  | due =>
      simp only [hd, Option.some.injEq] at ht
      subst ht
      exact h.congr rfl rfl rfl
  | loop index length =>
      simp only [hd] at ht
      split at ht
      · simp only [Option.map_eq_some_iff] at ht
        obtain ⟨op, -, rfl⟩ := ht
        have hloop : Final { s with drain := .loop (index + 1) length
                                    executed := s.executed ++ [op] } := h.congr rfl rfl rfl
        exact hloop.execute cfg op
      · cases ht
        exact h.congr rfl rfl rfl

/-- What one step keeps. -/
theorem Final.step (cfg : ConnectionConfig) {e : Event} (h : Final s) (hc : StaysDown cfg s e)
    (hst : step cfg s e = some t) : Final t := by
  cases e with
  | called kind =>
      simp only [SnowflakeService.step, Option.ite_none_right_eq_some, Option.some.injEq] at hst
      obtain ⟨-, rfl⟩ := hst
      have haccept : Final (s.accept ⟨kind, s.accepted.length⟩) := h.congr rfl rfl rfl
      exact haccept.execute cfg _
  | returned =>
      simp only [SnowflakeService.step, Option.ite_none_right_eq_some, Option.some.injEq] at hst
      obtain ⟨-, rfl⟩ := hst
      exact h.congr rfl rfl rfl
  | threw =>
      simp only [SnowflakeService.step, Option.ite_none_right_eq_some, Option.some.injEq] at hst
      obtain ⟨-, rfl⟩ := hst
      exact h.congr rfl rfl rfl
  | resume =>
      simp only [SnowflakeService.step, Option.ite_none_right_eq_some] at hst
      exact h.resume cfg hst.2
  | tick =>
      simp only [SnowflakeService.step, Option.ite_none_right_eq_some] at hst
      obtain ⟨-, hst⟩ := hst
      cases hticks : s.ticks with
      | nil => simp [hticks] at hst
      | cons x ticks =>
          simp only [hticks, Option.some.injEq] at hst
          subst hst
          exact h.congr rfl rfl rfl
  | prepared op =>
      simp only [SnowflakeService.step, Option.map_eq_some_iff] at hst
      obtain ⟨u, hu, rfl⟩ := hst
      exact (h.take hu).1.await _
  | answered http answer env =>
      simp only [SnowflakeService.step, Option.map_eq_some_iff] at hst
      obtain ⟨u, hu, rfl⟩ := hst
      refine (h.take hu).1.proceed cfg _ fun hs => (hc ?_).1
      rw [← hs, (h.take hu).2]
  | cleared http body done env =>
      simp only [SnowflakeService.step, Option.map_eq_some_iff] at hst
      obtain ⟨u, hu, rfl⟩ := hst
      cases done with
      | false => exact (h.take hu).1
      | true =>
          refine (h.take hu).1.proceed cfg _ fun hs => (hc ?_).1
          rw [← hs, (h.take hu).2]
  | reauthenticated http done =>
      simp only [SnowflakeService.step, Option.map_eq_some_iff] at hst
      obtain ⟨u, hu, rfl⟩ := hst
      cases done with
      | false => exact (h.take hu).1
      | true => exact (h.take hu).1.await _
  | written op key keys done =>
      simp only [SnowflakeService.step, Option.map_eq_some_iff] at hst
      obtain ⟨u, hu, rfl⟩ := hst
      cases done with
      | false => exact (h.take hu).1
      | true =>
          refine (h.take hu).1.writeCredentials op keys fun hnil hs => ?_
          have hlast := (hc ((h.take hu).2 ▸ hs)).2
          simp [storesLast, hnil] at hlast
  | refreshed login retryOption =>
      simp only [SnowflakeService.step, Option.map_eq_some_iff] at hst
      obtain ⟨u, hu, rfl⟩ := hst
      cases retryOption with
      | none => exact (h.take hu).1
      | some x => exact (h.take hu).1.await _
  | woke login =>
      simp only [SnowflakeService.step, Option.map_eq_some_iff] at hst
      obtain ⟨u, hu, rfl⟩ := hst
      exact (h.take hu).1.await _

/-- A logout, with a request still out that fails for another reason. -/
def logoutRun : List Event :=
  [.called .connect, .prepared ⟨.connect, 0⟩,
    .answered (.login sampleLogin) (.success sampleData) sampleEnv, .returned, .resume, .resume,
    .called .request, .called .destroy,
    .answered (.op ⟨.destroy, 2⟩) (.success none) sampleEnv, .returned]

end SnowflakeService

end Service

end SnowflakeConnector
