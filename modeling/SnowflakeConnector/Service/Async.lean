import SnowflakeConnector.Service.Places

/-!
# SnowflakeConnector.Service.Async

`requestAsync` and `postAsync`, the entry points of the service that return a promise.
The request of a promise is pending like any other, but its own callback settles the
promise and does nothing else, and only the connected state has the method at all.

* `requestAsync_agrees` -- every run in which requests are made while connected, and
  none is told of an expired or lost session, is the run of the callback path.
-/

namespace SnowflakeConnector

namespace Service

open SnowflakeService

/-- The service together with the operations that have a promise, and the promises that
are settled. -/
structure AsyncService where
  service : SnowflakeService
  promises : List Op
  settled : List (Op × Option Err)
  deriving DecidableEq, Repr

namespace AsyncService

def create (tokenInfo : TokenInfo) : AsyncService := ⟨.create tokenInfo, [], []⟩

/-- Resolve or reject the promise of an operation. -/
def settle (s : AsyncService) (op : Op) (err : Option Err) : AsyncService :=
  { s with settled := s.settled ++ [(op, err)] }

/-- `OperationRequest.executeAsync`: only `StateConnected` has the method. -/
def requestAsync (s : AsyncService) : AsyncService :=
  let op : Op := ⟨.request, s.service.accepted.length⟩
  let service := s.service.accept op
  match s.service.currentState with
  | .connected => { s with service := service.await (.sent (.op op)), promises := s.promises ++ [op] }
  | _ => { s with service, promises := s.promises ++ [op] }.settle op (some Errors.typeError)

/-- What `sendHttpRequest`'s callback goes on with for the request of a promise. -/
def proceed (s : AsyncService) (op : Op) : Pending ⊕ Delivery → AsyncService
  | .inl p => { s with service := s.service.await p }
  | .inr d => s.settle op d.err

inductive AsyncEvent
  | requestAsync
  | service (e : Event)
  deriving DecidableEq, Repr

/-- What does not come back to the request of a promise. -/
def serviceStep (cfg : ConnectionConfig) (s : AsyncService) (e : Event) : Option AsyncService :=
  (SnowflakeService.step cfg s.service e).map fun service => { s with service }

def step (cfg : ConnectionConfig) (s : AsyncService) : AsyncEvent → Option AsyncService
  | .requestAsync =>
      if 0 < s.service.depth ∨ s.service.drain = .none then some s.requestAsync else none
  | .service (.answered (.op op) answer env) =>
      if op ∈ s.promises then
        (s.service.take (.sent (.op op))).map fun service =>
          { s with service }.proceed op (receive cfg (.op op) answer env)
      else s.serviceStep cfg (.answered (.op op) answer env)
  | .service (.cleared (.op op) body done env) =>
      if op ∈ s.promises then
        (s.service.take (.clearing (.op op) body)).map fun service =>
          if done then { s with service }.proceed op (receiveCleared cfg (.op op) body env)
          else { s with service }
      else s.serviceStep cfg (.cleared (.op op) body done env)
  | .service e => s.serviceStep cfg e

/-! ## the callback path -/

/-- The promise that an event settles, and with which error. -/
def settles (cfg : ConnectionConfig) (s : AsyncService) (e : Event) : Option (Op × Option Err) :=
  (delivery cfg e).bind fun d =>
    match d.http with
    | .op op => if op ∈ s.promises then some (op, d.err) else none
    | _ => none

/-- The same with `request`: its callback returns at once. -/
def callbackEvents (cfg : ConnectionConfig) (s : AsyncService) : AsyncEvent → List Event
  | .requestAsync => [.called .request]
  | .service e => if (s.settles cfg e).isSome then [e, .returned] else [e]

/-- A request is made while connected; no promise is told that the session has expired
or is lost. -/
def Agreeable (cfg : ConnectionConfig) (s : AsyncService) : AsyncEvent → Prop
  | .requestAsync => s.service.currentState = .connected
  | .service e => ∀ op err, s.settles cfg e = some (op, some err) →
      err.code ≠ SESSION_TOKEN_EXPIRED ∧ err.code ≠ SESSION_TOKEN_INVALID ∧ err.code ≠ GONE_SESSION

/-! ## the two paths -/

instance (cfg : ConnectionConfig) (s : AsyncService) : ∀ e, Decidable (Agreeable cfg s e)
  | .requestAsync => inferInstanceAs (Decidable (s.service.currentState = .connected))
  | .service e =>
      match h : s.settles cfg e with
      | some (_, some err) =>
          decidable_of_iff (err.code ≠ SESSION_TOKEN_EXPIRED ∧ err.code ≠ SESSION_TOKEN_INVALID ∧
            err.code ≠ GONE_SESSION) (by simp [Agreeable, h])
      | some (_, none) => isTrue (by simp [Agreeable, h])
      | none => isTrue (by simp [Agreeable, h])

/-- The service of the callback path has called `calls`, among them the callbacks that
the promises stand for. -/
structure Agrees (s : AsyncService) (calls : List (Op × Option Err)) : Prop where
  called : s.service.called = calls.filter fun x => decide (x.1 ∉ s.promises)
  settled : s.settled = calls.filter fun x => decide (x.1 ∈ s.promises)
  promises : ∀ op ∈ s.promises, op.kind = .request ∧ op.id < s.service.accepted.length
  calls : ∀ x ∈ calls, x.1.id < s.service.accepted.length
  fresh : Places s.service.accepted (·.id < s.service.accepted.length)
    (·.id < s.service.accepted.length) s.service
  apart : Places s.service.accepted (· ∉ s.promises) (fun _ => True) s.service

section

variable {s t : AsyncService} {calls : List (Op × Option Err)} {e : Event}

theorem settles_eq_none {cfg : ConnectionConfig} (h : s.settles cfg e = none) :
    ∀ d ∈ delivery cfg e, ∀ op, d.http = .op op → op ∉ s.promises := by
  intro d hd op hhttp hop
  rw [settles, hd, Option.bind_some, hhttp] at h
  simp [hop] at h

theorem delivery_http {cfg : ConnectionConfig} {d : Delivery} (hd : d ∈ delivery cfg e) :
    (∃ http answer env, e = .answered http answer env ∧ d.http = http) ∨
    ∃ http body env, e = .cleared http body true env ∧ d.http = http := by
  cases e with
  | answered http answer env =>
      have hcontinues := continues_receive cfg http answer env
      have hd' : (receive cfg http answer env).getRight? = some d := hd
      rw [Sum.getRight?_eq_some_iff] at hd'
      rw [hd'] at hcontinues
      exact .inl ⟨http, answer, env, rfl, hcontinues⟩
  | cleared http body done env =>
      cases done with
      | false => exact absurd hd (by simp [delivery])
      | true =>
          have hcontinues := continues_receiveCleared cfg http body env
          have hd' : (receiveCleared cfg http body env).getRight? = some d := hd
          rw [Sum.getRight?_eq_some_iff] at hd'
          rw [hd'] at hcontinues
          exact .inr ⟨http, body, env, rfl, hcontinues⟩
  | _ => exact absurd hd (by simp [delivery])

/-- An event that settles no promise is a step of the service. -/
theorem step_eq_serviceStep {cfg : ConnectionConfig} (h : s.settles cfg e = none) :
    s.step cfg (.service e) = s.serviceStep cfg e := by
  cases e with
  | answered http answer env =>
      cases http with
      | op op =>
          unfold AsyncService.step
          simp only
          split
          · next hop =>
              rw [serviceStep, SnowflakeService.step, Option.map_map]
              refine congrArg₂ _ (funext fun service => ?_) rfl
              cases hnext : receive cfg (.op op) answer env with
              | inl p => rfl
              | inr d =>
                  have hd : d ∈ delivery cfg (.answered (.op op) answer env) := by
                    show (receive cfg (.op op) answer env).getRight? = some d
                    rw [hnext]
                    rfl
                  have hcontinues := continues_receive cfg (.op op) answer env
                  rw [hnext] at hcontinues
                  exact absurd hop (settles_eq_none h d hd op hcontinues)
          · rfl
      | _ => rfl
  | cleared http body done env =>
      cases http with
      | op op =>
          unfold AsyncService.step
          simp only
          split
          · next hop =>
              rw [serviceStep, SnowflakeService.step, Option.map_map]
              refine congrArg₂ _ (funext fun service => ?_) rfl
              cases done with
              | false => rfl
              | true =>
                  cases hnext : receiveCleared cfg (.op op) body env with
                  | inl p => simp [AsyncService.proceed, SnowflakeService.proceed]
                  | inr d =>
                      have hd : d ∈ delivery cfg (.cleared (.op op) body true env) := by
                        show (receiveCleared cfg (.op op) body env).getRight? = some d
                        rw [hnext]
                        rfl
                      have hcontinues := continues_receiveCleared cfg (.op op) body env
                      rw [hnext] at hcontinues
                      exact absurd hop (settles_eq_none h d hd op hcontinues)
          · rfl
      | _ => rfl
  | _ => rfl

/-- An event that settles a promise takes what is pending; the callback path would tell
the request's own callback. -/
theorem step_settles {cfg : ConnectionConfig} {op : Op} {err : Option Err}
    (h : s.settles cfg e = some (op, err)) (hkind : op.kind = .request) :
    op ∈ s.promises ∧ ∃ p : Pending,
      (s.step cfg (.service e) =
        (s.service.take p).map fun service => { s with service }.settle op err) ∧
      ∀ u : SnowflakeService, SnowflakeService.step cfg u e =
        (u.take p).map fun u => u.onRequestAnswer op err := by
  obtain ⟨d, hd, hsome⟩ := Option.bind_eq_some_iff.mp h
  obtain ⟨hhttp, hop, herr⟩ : d.http = .op op ∧ op ∈ s.promises ∧ d.err = err := by
    cases hhttp : d.http with
    | op o =>
        simp only [hhttp, Option.ite_none_right_eq_some, Option.some.injEq, Prod.mk.injEq] at hsome
        obtain ⟨ho, rfl, rfl⟩ := hsome
        exact ⟨rfl, ho, rfl⟩
    | login login => simp [hhttp] at hsome
    | renew => simp [hhttp] at hsome
  have hdeliver : ∀ u : SnowflakeService, u.deliver cfg d = u.onRequestAnswer op err := by
    intro u
    rw [deliver, hhttp]
    simp only [hkind, herr]
  refine ⟨hop, ?_⟩
  obtain ⟨http, answer, env, rfl, rfl⟩ | ⟨http, body, env, rfl, rfl⟩ := delivery_http hd
  · rw [hhttp] at hd ⊢
    have hnext := Sum.getRight?_eq_some_iff.mp hd
    refine ⟨.sent (.op op), ?_, fun u => ?_⟩
    · rw [AsyncService.step, if_pos hop, hnext, ← herr]
      rfl
    · rw [SnowflakeService.step, hnext]
      exact congrArg₂ _ (funext hdeliver) rfl
  · rw [hhttp] at hd ⊢
    have hnext := Sum.getRight?_eq_some_iff.mp hd
    refine ⟨.clearing (.op op) body, ?_, fun u => ?_⟩
    · rw [AsyncService.step, if_pos hop, hnext, ← herr]
      rfl
    · rw [SnowflakeService.step, hnext]
      exact congrArg₂ _ (funext hdeliver) rfl

/-- The service of the callback path. -/
def callbackService (s : AsyncService) (calls : List (Op × Option Err)) : SnowflakeService :=
  { s.service with called := calls }

theorem callbackService_eq_prepend (s : AsyncService) (calls : List (Op × Option Err)) :
    s.callbackService calls = prepend calls { s.service with called := [] } := by
  rw [callbackService, prepend, List.append_nil]

/-- A step of the service is the same on both paths. -/
theorem Agrees.serviceStep {cfg : ConnectionConfig} (h : s.Agrees calls) (hsettles : s.settles cfg e = none)
    (hst : s.serviceStep cfg e = some t) :
    ∃ calls', SnowflakeService.step cfg (s.callbackService calls) e = some (t.callbackService calls') ∧
      t.Agrees calls' := by
  obtain ⟨service, hservice, rfl⟩ := Option.map_eq_some_iff.mp hst
  have hself : s.service = prepend s.service.called { s.service with called := [] } := by
    rw [prepend, List.append_nil]
  have hsplit := prepend_step s.service.called cfg { s.service with called := [] } e
  rw [← hself, hservice] at hsplit
  obtain ⟨u, hu, hservice'⟩ := Option.map_eq_some_iff.mp hsplit.symm
  subst hservice'
  have hbound : ∀ op ∈ Places.newOps s.service.accepted e, op.id = s.service.accepted.length := by
    intro op hop
    cases e with
    | called kind =>
        rw [List.mem_singleton.mp hop]
    | _ => exact absurd hop (by simp [Places.newOps])
  have hapart := h.apart.step cfg (fun _ _ => trivial)
    (fun op hop hpromise => by
      have hlt := (h.promises op hpromise).2
      rw [hbound op hop] at hlt
      exact lt_irrefl _ hlt)
    (fun d hd hwithin => by
      cases hhttp : d.http with
      | login login =>
          rw [hhttp] at hwithin
          exact hwithin
      | op op => exact settles_eq_none hsettles d hd op hhttp
      | renew => trivial) hservice
  have hgrow : s.service.accepted.length ≤
      (s.service.accepted ++ Places.newOps s.service.accepted e).length := by
    rw [List.length_append]
    exact Nat.le_add_right _ _
  have hfresh := (h.fresh.mono (fun _ hlt => lt_of_lt_of_le hlt hgrow)
      fun _ hlt => lt_of_lt_of_le hlt hgrow).step cfg (fun _ hlt => hlt)
    (fun op hop => by
      rw [hbound op hop, List.length_append]
      exact Nat.lt_add_of_pos_right (List.length_pos_of_mem hop))
    (fun d _ hwithin => hwithin) hservice
  have haccepted := hfresh.accepted
  refine ⟨calls ++ u.called, ?_, ?_, ?_, fun op hop => ?_, fun x hx => ?_, ?_, ?_⟩
  · rw [callbackService_eq_prepend, prepend_step, hu]
    rfl
  · show s.service.called ++ u.called = _
    have hnew : u.called.filter (fun x => decide (x.1 ∉ s.promises)) = u.called :=
      List.filter_eq_self.mpr fun x hx => decide_eq_true (hapart.called x (List.mem_append_right _ hx))
    rw [List.filter_append, ← h.called, hnew]
  · show s.settled = _
    have hnew : u.called.filter (fun x => decide (x.1 ∈ s.promises)) = [] :=
      List.filter_eq_nil_iff.mpr fun x hx hmem =>
        hapart.called x (List.mem_append_right _ hx) (of_decide_eq_true hmem)
    rw [List.filter_append, ← h.settled, hnew, List.append_nil]
  · refine ⟨(h.promises op hop).1, ?_⟩
    rw [haccepted]
    exact lt_of_lt_of_le (h.promises op hop).2 hgrow
  · rw [haccepted]
    obtain hx | hx := List.mem_append.mp hx
    · exact lt_of_lt_of_le (h.calls x hx) hgrow
    · exact hfresh.called x (List.mem_append_right _ hx)
  · rw [haccepted]
    exact hfresh
  · rw [haccepted]
    exact hapart

/-- A promise is settled where the callback would be called. -/
theorem Agrees.settle {cfg : ConnectionConfig} {op : Op} {err : Option Err} (h : s.Agrees calls)
    (hsettles : s.settles cfg e = some (op, err)) (hagreeable : s.Agreeable cfg (.service e))
    (hst : s.step cfg (.service e) = some t) :
    ∃ calls', Lts.exec (SnowflakeService.step cfg) (s.callbackService calls) [e, .returned] =
      some (t.callbackService calls') ∧ t.Agrees calls' := by
  have hop : op ∈ s.promises := by
    obtain ⟨d, -, hsome⟩ := Option.bind_eq_some_iff.mp hsettles
    split at hsome
    · simp only [Option.ite_none_right_eq_some, Option.some.injEq, Prod.mk.injEq] at hsome
      obtain ⟨hmem, rfl, -⟩ := hsome
      exact hmem
    · exact absurd hsome (by simp)
  obtain ⟨-, p, hasync, hcallback⟩ := step_settles hsettles (h.promises op hop).1
  rw [hasync] at hst
  obtain ⟨service, htake, rfl⟩ := Option.map_eq_some_iff.mp hst
  have hanswer : ∀ u : SnowflakeService, u.onRequestAnswer op err = u.call op err := by
    intro u
    cases err with
    | none => rfl
    | some err =>
        obtain ⟨hexpired, hinvalid, hgone⟩ := hagreeable op err hsettles
        rw [onRequestAnswer]
        simp only
        rw [if_neg hexpired, if_neg (by simp [hinvalid, hgone])]
  have htake' : (s.callbackService calls).take p = some { service with called := calls } := by
    obtain ⟨hidle, rfl⟩ := take_eq_some.mp htake
    exact take_eq_some.mpr ⟨hidle, rfl⟩
  have hfresh := (h.fresh.take htake).1
  have hapart := (h.apart.take htake).1
  have hbound := (h.promises op hop).2
  obtain ⟨-, rfl⟩ := take_eq_some.mp htake
  refine ⟨calls ++ [(op, err)], ?_, ?_, ?_, h.promises, fun x hx => ?_, hfresh, hapart⟩
  · rw [Lts.exec_cons, hcallback, htake', Option.map_some, Option.bind_some, hanswer]
    rfl
  · show s.service.called = (calls ++ [(op, err)]).filter fun x => decide (x.1 ∉ s.promises)
    rw [List.filter_append, ← h.called]
    simp [hop]
  · show s.settled ++ [(op, err)] =
      (calls ++ [(op, err)]).filter fun x => decide (x.1 ∈ s.promises)
    rw [List.filter_append, ← h.settled]
    simp [hop]
  · obtain hx | hx := List.mem_append.mp hx
    · exact h.calls x hx
    · rw [List.mem_singleton.mp hx]
      exact hbound

/-- A request that is made while connected is sent on both paths. -/
theorem Agrees.requestAsync {cfg : ConnectionConfig} (h : s.Agrees calls)
    (hconnected : s.service.currentState = .connected) (hst : s.step cfg .requestAsync = some t) :
    ∃ calls', SnowflakeService.step cfg (s.callbackService calls) (.called .request) =
      some (t.callbackService calls') ∧ t.Agrees calls' := by
  simp only [AsyncService.step, Option.ite_none_right_eq_some, Option.some.injEq] at hst
  obtain ⟨henabled, rfl⟩ := hst
  let op : Op := ⟨.request, s.service.accepted.length⟩
  have hrequest : s.requestAsync =
      { s with service := (s.service.accept op).await (.sent (.op op)), promises := s.promises ++ [op] } := by
    rw [AsyncService.requestAsync, hconnected]
  have hlength : (s.service.accepted ++ [op]).length = s.service.accepted.length + 1 := by simp
  have hnew : ∀ x : Op × Option Err, x.1.id < s.service.accepted.length → x.1 ≠ op := by
    intro x hx heq
    rw [heq] at hx
    exact lt_irrefl _ hx
  have haccept : ∀ {Q R : Op → Prop}, Places s.service.accepted Q R s.service → R op →
      Places (s.service.accepted ++ [op]) Q R ((s.service.accept op).await (.sent (.op op))) := by
    intro Q R hplaces hop
    have haccepted : Places (s.service.accepted ++ [op]) Q R (s.service.accept op) :=
      ⟨rfl, hplaces.queue, hplaces.ticks, hplaces.called, hplaces.pending⟩
    exact haccepted.await hop
  rw [hrequest]
  refine ⟨calls, ?_, ?_, ?_, fun x hx => ?_, fun x hx => ?_, ?_, ?_⟩
  · have hexecute : ((s.callbackService calls).accept op).execute cfg op =
        ((s.callbackService calls).accept op).await (.sent (.op op)) := by
      have hstate : ((s.callbackService calls).accept op).currentState = .connected := hconnected
      rw [execute, request, hstate]
    exact (if_pos henabled).trans (congrArg some hexecute)
  · show s.service.called = _
    rw [h.called]
    refine List.filter_congr fun x hx => ?_
    simp [hnew x (h.calls x hx)]
  · show s.settled = _
    rw [h.settled]
    refine List.filter_congr fun x hx => ?_
    simp [hnew x (h.calls x hx)]
  · show x.kind = .request ∧ x.id < (s.service.accepted ++ [op]).length
    rw [hlength]
    obtain hx | hx := List.mem_append.mp hx
    · exact ⟨(h.promises x hx).1, Nat.lt_succ_of_lt (h.promises x hx).2⟩
    · rw [List.mem_singleton.mp hx]
      exact ⟨rfl, Nat.lt_succ_self _⟩
  · show x.1.id < (s.service.accepted ++ [op]).length
    rw [hlength]
    exact Nat.lt_succ_of_lt (h.calls x hx)
  · show Places (s.service.accepted ++ [op]) (·.id < (s.service.accepted ++ [op]).length)
      (·.id < (s.service.accepted ++ [op]).length) _
    rw [hlength]
    exact haccept (h.fresh.mono (fun _ hlt => Nat.lt_succ_of_lt hlt) fun _ hlt => Nat.lt_succ_of_lt hlt)
      (Nat.lt_succ_self _)
  · refine haccept ?_ trivial
    refine (h.apart.inter h.fresh).mono (fun x hx hmem => ?_) fun _ _ => trivial
    obtain hmem | hmem := List.mem_append.mp hmem
    · exact hx.1 hmem
    · exact hnew (x, none) hx.2 (List.mem_singleton.mp hmem)

/-- One event on the promise path is one or two on the callback path. -/
theorem Agrees.step {cfg : ConnectionConfig} {e : AsyncEvent} (h : s.Agrees calls)
    (hagreeable : s.Agreeable cfg e) (hst : s.step cfg e = some t) :
    ∃ calls', Lts.exec (SnowflakeService.step cfg) (s.callbackService calls) (s.callbackEvents cfg e) =
      some (t.callbackService calls') ∧ t.Agrees calls' := by
  cases e with
  | requestAsync =>
      obtain ⟨calls', hstep, hagrees⟩ := @Agrees.requestAsync _ _ _ cfg h hagreeable hst
      refine ⟨calls', ?_, hagrees⟩
      rw [callbackEvents, Lts.exec_cons, hstep]
      rfl
  | service e =>
      cases hsettles : s.settles cfg e with
      | none =>
          rw [step_eq_serviceStep hsettles] at hst
          obtain ⟨calls', hstep, hagrees⟩ := h.serviceStep hsettles hst
          refine ⟨calls', ?_, hagrees⟩
          rw [callbackEvents, hsettles, Option.isSome_none, if_neg Bool.false_ne_true,
            Lts.exec_cons, hstep]
          rfl
      | some x =>
          obtain ⟨calls', hexec, hagrees⟩ := h.settle hsettles hagreeable hst
          refine ⟨calls', ?_, hagrees⟩
          rw [callbackEvents, hsettles]
          exact hexec

end

/-- **Promises**: in every run that makes its requests while connected, and in which no
promise is told that the session has expired or is lost, `requestAsync` settles as
`request` in its place calls back, and the service does the same otherwise. -/
theorem requestAsync_agrees (cfg : ConnectionConfig) (tokenInfo : TokenInfo) (es : List AsyncEvent)
    (t : AsyncService) (hagreeable : Lts.Along (AsyncService.step cfg) (Agreeable cfg) (create tokenInfo) es)
    (h : Lts.exec (AsyncService.step cfg) (create tokenInfo) es = some t) :
    ∃ u, Lts.exec (SnowflakeService.step cfg) (SnowflakeService.create tokenInfo)
        (Lts.translate (AsyncService.step cfg) (callbackEvents cfg) (create tokenInfo) es) = some u ∧
      u = { t.service with called := u.called } ∧
      t.settled = (u.called.filter fun x => decide (x.1 ∈ t.promises)) ∧
      t.service.called = u.called.filter fun x => decide (x.1 ∉ t.promises) := by
  have hcreate : (create tokenInfo).Agrees [] :=
    ⟨rfl, rfl, by simp [create], by simp, Places.create tokenInfo, Places.create tokenInfo⟩
  have hsim : ∀ (s : AsyncService) (e : AsyncEvent) (t : AsyncService) (u : SnowflakeService),
      (∃ calls, u = s.callbackService calls ∧ s.Agrees calls) → s.Agreeable cfg e →
      s.step cfg e = some t →
      ∃ v, Lts.exec (SnowflakeService.step cfg) u (s.callbackEvents cfg e) = some v ∧
        ∃ calls, v = t.callbackService calls ∧ t.Agrees calls := by
    intro s e t u hR hP hst
    obtain ⟨calls, rfl, hagrees⟩ := hR
    obtain ⟨calls', hexec, hagrees'⟩ := hagrees.step hP hst
    exact ⟨_, hexec, calls', rfl, hagrees'⟩
  obtain ⟨u, hu, calls, rfl, hagrees⟩ :=
    Lts.exec_translate hsim ⟨[], rfl, hcreate⟩ hagreeable h
  exact ⟨_, hu, rfl, hagrees.settled, hagrees.called⟩

/-- A login and the end of its drain. -/
def loginEvents : List Event :=
  [.called .connect, .prepared ⟨.connect, 0⟩,
    .answered (.login sampleLogin) (.success sampleData) sampleEnv, .returned, .resume, .resume]

/-- Two requests, one of which no answer comes to. -/
def connectedRun : List AsyncEvent :=
  loginEvents.map .service ++ [.requestAsync, .requestAsync,
    .service (.answered (.op ⟨.request, 2⟩) .network sampleEnv),
    .service (.answered (.op ⟨.request, 1⟩) (.success none) sampleEnv)]

theorem requestAsync_agrees_connected :
    ∃ t u, Lts.exec (AsyncService.step (sampleConfig .other)) (create .cleared) connectedRun = some t ∧
      t.settled.map (·.1.id) = [2, 1] ∧
      Lts.exec (SnowflakeService.step (sampleConfig .other)) (SnowflakeService.create .cleared)
        (Lts.translate (AsyncService.step (sampleConfig .other)) (callbackEvents (sampleConfig .other))
          (create .cleared) connectedRun) = some u ∧
      t.settled = u.called.filter fun x => decide (x.1 ∈ t.promises) := by
  have hagreeable : Lts.Along (AsyncService.step (sampleConfig .other)) (Agreeable (sampleConfig .other))
      (create .cleared) connectedRun := by decide +kernel
  obtain ⟨t, ht, hids⟩ : ∃ t, Lts.exec (AsyncService.step (sampleConfig .other)) (create .cleared)
      connectedRun = some t ∧ t.settled.map (·.1.id) = [2, 1] := Lts.exists_exec (by decide +kernel)
  obtain ⟨u, hu, -, hsettled, -⟩ :=
    requestAsync_agrees (sampleConfig .other) .cleared connectedRun t hagreeable ht
  exact ⟨t, u, ht, hids, hu, hsettled⟩

/-- An expired session rejects the promise, where `request` renews the session and
succeeds; before the login the promise fails with the engine's own error. -/
theorem requestAsync_disagrees :
    (∃ t, Lts.exec (AsyncService.step (sampleConfig .other)) (create .cleared)
        (loginEvents.map .service ++ [.requestAsync,
          .service (.answered (.op ⟨.request, 1⟩) (.failure SESSION_TOKEN_EXPIRED) sampleEnv)]) = some t ∧
      t.settled = [(⟨.request, 1⟩, some (Errors.createOperationFailedError SESSION_TOKEN_EXPIRED none))] ∧
      t.service.currentState = .connected) ∧
    (∃ u, Lts.exec (SnowflakeService.step (sampleConfig .other)) (SnowflakeService.create .cleared)
        (loginEvents ++ [.called .request,
          .answered (.op ⟨.request, 1⟩) (.failure SESSION_TOKEN_EXPIRED) sampleEnv,
          .answered .renew (.success sampleData) sampleEnv, .resume, .resume, .resume,
          .answered (.op ⟨.request, 1⟩) (.success none) sampleEnv]) = some u ∧
      u.called.filter (fun x => decide (x.1.kind = .request)) = [(⟨.request, 1⟩, none)]) ∧
    (∃ t, Lts.exec (AsyncService.step (sampleConfig .other)) (create .cleared) [.requestAsync] = some t ∧
      t.settled = [(⟨.request, 0⟩, some Errors.typeError)]) ∧
    ∃ u, Lts.exec (SnowflakeService.step (sampleConfig .other)) (SnowflakeService.create .cleared)
        [.called .request, .tick] = some u ∧
      u.called = [(⟨.request, 0⟩, some (Errors.createClientError 407001))] :=
  ⟨Lts.exists_exec (by decide +kernel), Lts.exists_exec (by decide +kernel),
    Lts.exists_exec (by decide +kernel), Lts.exists_exec (by decide +kernel)⟩

end AsyncService

end Service

end SnowflakeConnector
