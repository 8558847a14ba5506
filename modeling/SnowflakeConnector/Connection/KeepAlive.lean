import SnowflakeConnector.Service.OneLogin
import SnowflakeConnector.Service.Places

/-!
# SnowflakeConnector.Connection.KeepAlive

The heartbeat of `lib/connection/connection.js`: a connection wraps the callbacks of its
`connect` and `destroy`, and where the session is to be kept alive, the first starts a timer and
the second stops it.  The service goes on by itself in between: it drains its queue, renews its
tokens, is disconnected by a server that has forgotten the session, and the user may connect and
destroy as often as they like, from inside of a callback as well.

* `Timers.Fits` -- what the callbacks called so far make of the timers;
* `heartbeats` -- the timers in every run.
-/

namespace SnowflakeConnector

namespace Connection

open Service SnowflakeService

/-! ## the code -/

/-- `self.keepalive`, and the intervals that run.  `setInterval` numbers its timers. -/
structure Timers where
  keepalive : Option Nat
  running : List Nat
  started : Nat
  deriving DecidableEq, Repr

namespace Timers

def setInterval (t : Timers) : Timers :=
  ⟨some t.started, t.running ++ [t.started], t.started + 1⟩

def clearInterval (t : Timers) (id : Nat) : Timers := { t with running := t.running.erase id }

/-- What the callbacks of the connection do before they call the user's: `connectCallback` and
that of `destroy`.  `keepAlive` is the parameter `CLIENT_SESSION_KEEP_ALIVE` by then. -/
def onCalled (keepAlive : Bool) (t : Timers) (x : Op × Option Err) : Timers :=
  match x.1.kind, x.2 with
  | .connect, none => if keepAlive then t.setInterval else t
  | .destroy, _ =>
      match t.keepalive with
      | some id => t.clearInterval id
      | none => t
  | _, _ => t

end Timers

structure State where
  service : SnowflakeService
  timers : Timers
  deriving DecidableEq, Repr

/-- A turn of the service, or a timer that calls `heartbeat`. -/
inductive Event
  | service (e : SnowflakeService.Event) (keepAlive : Bool)
  | heartbeat (timer : Nat)
  deriving DecidableEq, Repr

namespace State

/-- A new connection. -/
def create (tokenInfo : TokenInfo) : State := ⟨.create tokenInfo, ⟨none, [], 0⟩⟩

/-- A turn of the service, with what the connection's callbacks do in it. -/
def turn (cfg : ConnectionConfig) (keepAlive : Bool) (s : State) (e : SnowflakeService.Event) :
    Option State :=
  (SnowflakeService.step cfg s.service e).map fun service =>
    ⟨service,
      (service.called.drop s.service.called.length).foldl (Timers.onCalled keepAlive) s.timers⟩

/-- The heartbeat is a request to the service, with a callback that only logs. -/
def step (cfg : ConnectionConfig) (s : State) : Event → Option State
  | .service e keepAlive => s.turn cfg keepAlive e
  | .heartbeat timer =>
      if timer ∈ s.timers.running ∧ s.service.Idle then s.turn cfg false (.called .request)
      else none

end State

/-! ## the timers and the callbacks -/

variable {called : List (Op × Option Err)} {t : Timers}

/-- A `connect` succeeded, and no `destroy` was called back since. -/
def Beating (called : List (Op × Option Err)) : Prop :=
  ∃ before x after, called = before ++ x :: after ∧ succeeded .connect x = true ∧
    ∀ y ∈ after, y.1.kind ≠ .destroy

/-- At most one timer was started, by a `connect` that succeeded, and it runs until a `destroy`
is called back; after a `destroy` that succeeded none runs. -/
structure Timers.Fits (t : Timers) (called : List (Op × Option Err)) : Prop where
  started : t.started ≤ called.countP (succeeded .connect)
  keepalive : t.keepalive = if t.started = 0 then none else some 0
  running : t.running = [] ∨ t.running = [0]
  beating : t.running = [0] ↔ t.started ≠ 0 ∧ Beating called
  destroyed : ∀ x ∈ called, succeeded .destroy x = true → t.running = []

theorem beating_concat (x : Op × Option Err) :
    Beating (called ++ [x]) ↔
      succeeded .connect x = true ∨ Beating called ∧ x.1.kind ≠ .destroy := by
  constructor
  · rintro ⟨before, y, after, heq, hy, hafter⟩
    rcases List.eq_nil_or_concat after with rfl | ⟨after, z, rfl⟩
    · obtain ⟨-, rfl⟩ := List.concat_inj.mp (by simpa using heq)
      exact .inl hy
    · have heq' : called ++ [x] = (before ++ y :: after) ++ [z] := by simpa using heq
      obtain ⟨rfl, hxz⟩ := List.append_inj' heq' rfl
      obtain rfl : x = z := by simpa using hxz
      exact .inr ⟨⟨before, y, after, rfl, hy, fun w hw => hafter w (by simp [hw])⟩,
        hafter x (by simp)⟩
  · rintro (hx | ⟨⟨before, y, after, rfl, hy, hafter⟩, hx⟩)
    · exact ⟨called, x, [], rfl, hx, by simp⟩
    · refine ⟨before, y, after ++ [x], by simp, hy, ?_⟩
      intro w hw
      obtain hw | rfl := by simpa using hw
      · exact hafter w hw
      · exact hx

theorem Timers.onCalled_connect {x : Op × Option Err} (keepAlive : Bool)
    (hx : succeeded .connect x = true) :
    t.onCalled keepAlive x = if keepAlive then t.setInterval else t := by
  obtain ⟨⟨kind, id⟩, err⟩ := x
  simp only [succeeded, Bool.and_eq_true, decide_eq_true_eq, Option.isNone_iff_eq_none] at hx
  obtain ⟨rfl, rfl⟩ := hx
  rfl

theorem Timers.onCalled_destroy {x : Op × Option Err} (keepAlive : Bool)
    (hx : x.1.kind = .destroy) :
    t.onCalled keepAlive x = (t.keepalive.map t.clearInterval).getD t := by
  obtain ⟨⟨kind, id⟩, err⟩ := x
  obtain rfl : kind = .destroy := hx
  cases h : t.keepalive <;> simp [onCalled, h]

theorem Timers.onCalled_other {x : Op × Option Err} (keepAlive : Bool)
    (hconnect : succeeded .connect x = false) (hdestroy : x.1.kind ≠ .destroy) :
    t.onCalled keepAlive x = t := by
  obtain ⟨⟨kind, id⟩, err⟩ := x
  cases kind with
  | request => rfl
  | destroy => exact absurd rfl hdestroy
  | connect =>
      cases err with
      | none => simp [succeeded] at hconnect
      | some e => rfl

theorem Timers.Fits.not_running (h : t.Fits called) (hzero : t.started = 0) : t.running = [] :=
  h.running.resolve_right fun hrun => (h.beating.mp hrun).1 hzero

theorem Timers.Fits.started_concat (h : t.Fits called) (x : Op × Option Err) :
    t.started ≤ (called ++ [x]).countP (succeeded .connect) := by
  rw [List.countP_append]
  exact h.started.trans (Nat.le_add_right _ _)

/-- The timer is stopped, whether the `destroy` succeeded or not. -/
theorem Timers.Fits.concat_destroy {x : Op × Option Err} (h : t.Fits called) (keepAlive : Bool)
    (hdestroy : x.1.kind = .destroy) : (t.onCalled keepAlive x).Fits (called ++ [x]) := by
  have hconnect : succeeded .connect x = false := by simp [succeeded, hdestroy]
  have hstopped : (t.onCalled keepAlive x).running = [] ∧
      (t.onCalled keepAlive x).started = t.started ∧
      (t.onCalled keepAlive x).keepalive = t.keepalive := by
    rw [onCalled_destroy keepAlive hdestroy, h.keepalive]
    by_cases hzero : t.started = 0
    · simp [hzero, h.not_running hzero, h.keepalive]
    · obtain hrun | hrun := h.running <;> simp [hzero, clearInterval, hrun, h.keepalive]
  obtain ⟨hrun, hstarted, hkeepalive⟩ := hstopped
  refine ⟨?_, ?_, .inl hrun, ?_, fun _ _ _ => hrun⟩
  · rw [hstarted]
    exact h.started_concat x
  · rw [hstarted, hkeepalive]
    exact h.keepalive
  · rw [hrun, beating_concat]
    simp [hconnect, hdestroy]

/-- The first `connect` that succeeds may start the timer. -/
theorem Timers.Fits.concat_connect {x : Op × Option Err} (h : t.Fits called) (keepAlive : Bool)
    (hconnect : succeeded .connect x = true)
    (hfirst : ∀ y ∈ called, succeeded .connect y = false ∧ succeeded .destroy y = false) :
    (t.onCalled keepAlive x).Fits (called ++ [x]) := by
  have hnone : called.countP (succeeded .connect) = 0 :=
    List.countP_eq_zero.mpr fun y hy => by simp [(hfirst y hy).1]
  have hzero : t.started = 0 := by
    have := h.started
    omega
  have hrun := h.not_running hzero
  rw [onCalled_connect keepAlive hconnect]
  cases keepAlive with
  | false =>
      refine ⟨h.started_concat x, h.keepalive, h.running, ?_, fun _ _ _ => hrun⟩
      simp [hrun, hzero]
  | true =>
      have hset : t.setInterval = ⟨some 0, [0], 1⟩ := by simp [setInterval, hzero, hrun]
      rw [if_pos rfl, hset]
      refine ⟨?_, rfl, .inr rfl, ?_, fun y hy hsucceeded => ?_⟩
      · rw [List.countP_append, hnone, List.countP_singleton, if_pos hconnect]
      · simp [beating_concat, hconnect]
      · obtain hy | rfl := by simpa using hy
        · rw [(hfirst y hy).2] at hsucceeded
          cases hsucceeded
        · simp only [succeeded, Bool.and_eq_true, decide_eq_true_eq] at hconnect hsucceeded
          rw [hconnect.1] at hsucceeded
          cases hsucceeded.1

theorem Timers.Fits.concat_other {x : Op × Option Err} (h : t.Fits called) (keepAlive : Bool)
    (hconnect : succeeded .connect x = false) (hdestroy : x.1.kind ≠ .destroy) :
    (t.onCalled keepAlive x).Fits (called ++ [x]) := by
  rw [onCalled_other keepAlive hconnect hdestroy]
  refine ⟨h.started_concat x, h.keepalive, h.running, ?_, fun y hy hsucceeded => ?_⟩
  · rw [beating_concat, h.beating]
    simp [hconnect, hdestroy]
  · obtain hy | rfl := by simpa using hy
    · exact h.destroyed y hy hsucceeded
    · simp [succeeded, hdestroy] at hsucceeded

/-- One more callback is called. -/
theorem Timers.Fits.concat {x : Op × Option Err} (h : t.Fits called) (keepAlive : Bool)
    (hx : succeeded .connect x = true →
      ∀ y ∈ called, succeeded .connect y = false ∧ succeeded .destroy y = false) :
    (t.onCalled keepAlive x).Fits (called ++ [x]) := by
  by_cases hdestroy : x.1.kind = .destroy
  · exact h.concat_destroy keepAlive hdestroy
  · cases hconnect : succeeded .connect x with
    | true => exact h.concat_connect keepAlive hconnect (hx hconnect)
    | false => exact h.concat_other keepAlive hconnect hdestroy

/-- The callbacks of a whole turn are called. -/
theorem Timers.Fits.append {new : List (Op × Option Err)} (h : t.Fits called) (keepAlive : Bool)
    (hproper : Proper (called ++ new)) : (new.foldl (onCalled keepAlive) t).Fits (called ++ new) := by
  induction new generalizing called t with
  | nil => simpa using h
  | cons x new ih =>
      have hx : (t.onCalled keepAlive x).Fits (called ++ [x]) :=
        h.concat keepAlive (hproper called x (by simp))
      have hrest := ih hx (by simpa using hproper)
      simpa using hrest

/-! ## runs -/

/-- A step of the service only adds to the callbacks called. -/
theorem called_prefix_step {cfg : ConnectionConfig} {s t : SnowflakeService}
    {e : SnowflakeService.Event} (h : SnowflakeService.step cfg s e = some t) :
    s.called <+: t.called := by
  have hprepend := prepend_step s.called cfg { s with called := [] } e
  have hs : SnowflakeService.prepend s.called { s with called := [] } = s := by
    simp [SnowflakeService.prepend]
  rw [hs, h] at hprepend
  obtain ⟨u, -, rfl⟩ := Option.map_eq_some_iff.mp hprepend.symm
  exact List.prefix_append _ _

/-- One login, and the timers are those of the callbacks called. -/
structure State.Inv (fresh : Bool) (s : State) : Prop where
  oneLogin : OneLogin fresh 0 s.service
  fits : s.timers.Fits s.service.called

theorem State.inv_create (tokenInfo : TokenInfo) : (create tokenInfo).Inv tokenInfo.isEmpty where
  oneLogin := oneLogin_create tokenInfo
  fits := by
    have hbeating : ¬ Beating [] := by
      rintro ⟨before, x, after, heq, -⟩
      simp at heq
    exact ⟨by simp [create], rfl, .inl rfl, by simp [create], by simp [create, SnowflakeService.create]⟩

theorem State.Inv.turn {cfg : ConnectionConfig} {keepAlive fresh : Bool} {s t : State}
    {e : SnowflakeService.Event} (h : s.Inv fresh) (ht : s.turn cfg keepAlive e = some t) :
    t.Inv fresh := by
  obtain ⟨service, hservice, rfl⟩ := Option.map_eq_some_iff.mp ht
  have hlogin := h.oneLogin.step cfg hservice
  obtain ⟨new, hnew⟩ := called_prefix_step hservice
  refine ⟨hlogin, ?_⟩
  have hproper := hlogin.proper
  rw [← hnew] at hproper ⊢
  rw [List.drop_left]
  exact h.fits.append keepAlive hproper

theorem State.Inv.step {cfg : ConnectionConfig} {fresh : Bool} {s t : State} {e : Event}
    (h : s.Inv fresh) (ht : s.step cfg e = some t) : t.Inv fresh := by
  cases e with
  | service e keepAlive => exact h.turn ht
  | heartbeat timer =>
      simp only [State.step, Option.ite_none_right_eq_some] at ht
      exact h.turn ht.2

/-- A session that is kept alive, a heartbeat, and a logout. -/
def keptAliveRun : List Event :=
  [.service (.called .connect) true, .service (.prepared ⟨.connect, 0⟩) true,
    .service (.answered (.login sampleLogin) (.success sampleData) sampleEnv) true,
    .service .returned true, .service .resume true, .service .resume true, .heartbeat 0,
    .service (.called .destroy) true]

/-- A `destroy` that fails stops the heartbeat of a session that goes on. -/
example : ∃ s, Lts.exec (State.step (sampleConfig .other)) (.create .cleared)
    (keptAliveRun ++ [.service (.answered (.op ⟨.destroy, 2⟩) .network sampleEnv) true]) = some s ∧
      s.service.currentState = .connected ∧ s.timers.running = [] :=
  Lts.exists_exec (by decide +kernel)

end Connection

end SnowflakeConnector
