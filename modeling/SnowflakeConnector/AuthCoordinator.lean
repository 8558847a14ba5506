import Mathlib
import SnowflakeConnector.Lts

/-!
# SnowflakeConnector.AuthCoordinator

`lib/authentication/auth_coordinator.ts`: calls of `coordinateAuth` that share the
authentication which is pending for their key.

A call runs up to its first `await` at once: it looks for a pending promise, starts its own
authentication function if there is none, and registers what that returns.  Everything else
is a turn of its own, and the turns come in any order: new calls, the end of an authentication
function, the continuation of the call that started it and those of the calls that wait.  An
authentication function does not call `coordinateAuth` itself before it returns its promise.

* `single_flight` -- one authentication function for each key at any time, whose result is that
  of every call that came while it ran.
-/

namespace SnowflakeConnector

namespace AuthCoordinator

/-- The arguments of a call, apart from its authentication function. -/
structure Call where
  host : String
  username : String
  authType : String
  deriving DecidableEq, Repr

def buildCoordinatorKey (call : Call) : String := s!"{call.host}:{call.username}:{call.authType}"

/-- Where a call is: its authentication function is started and its promise awaited, or the
promise of another call has been returned. -/
inductive Phase (ι ε α : Type*)
  | idle
  | authenticating
  | waiting (owner : ι)
  | settled (result : Except ε α)

/-- `PENDING_AUTHS`, with the call that a promise is of, what the promises of authentication
functions have settled with, and whose functions were started. -/
structure State (ι ε α : Type*) where
  pendingAuths : String → Option ι
  promise : ι → Option (Except ε α)
  phase : ι → Phase ι ε α
  started : ι → Bool

/-- `thrown` is what the authentication function of the call throws at once. -/
inductive Event (ι ε α : Type*)
  | coordinateAuth (i : ι) (thrown : Option ε)
  | settle (i : ι) (result : Except ε α)
  | resume (i : ι)

section

variable {ι ε α : Type*}

def init : State ι ε α where
  pendingAuths _ := none
  promise _ := none
  phase _ := .idle
  started _ := false

variable [DecidableEq ι]

namespace State

variable (s : State ι ε α)

def goto (i : ι) (phase : Phase ι ε α) : State ι ε α :=
  { s with phase := Function.update s.phase i phase }

/-- The authentication function of a call is started; unless it throws, its promise is
registered. -/
def start (key : String) (i : ι) (thrown : Option ε) : State ι ε α :=
  match thrown with
  | some e => { s.goto i (.settled (.error e)) with started := Function.update s.started i true }
  | none =>
      { s.goto i .authenticating with
        started := Function.update s.started i true
        pendingAuths := Function.update s.pendingAuths key (some i) }

/-- The call that started an authentication function removes its entry and returns. -/
def finish (key : String) (i : ι) (result : Except ε α) : State ι ε α :=
  { s.goto i (.settled result) with pendingAuths := Function.update s.pendingAuths key none }

/-- The authentication function of a call runs. -/
def Running (i : ι) : Prop := s.phase i = .authenticating ∧ s.promise i = none

end State

/-- One turn. -/
def step (calls : ι → Call) (s : State ι ε α) : Event ι ε α → Option (State ι ε α)
  | .coordinateAuth i thrown =>
      match s.phase i with
      | .idle =>
          match s.pendingAuths (buildCoordinatorKey (calls i)) with
          | some owner => some (s.goto i (.waiting owner))
          | none => some (s.start (buildCoordinatorKey (calls i)) i thrown)
      | _ => none
  | .settle i result =>
      match s.phase i, s.promise i with
      | .authenticating, none =>
          some { s with promise := Function.update s.promise i (some result) }
      | _, _ => none
  | .resume i =>
      match s.phase i with
      | .authenticating =>
          (s.promise i).map fun result => s.finish (buildCoordinatorKey (calls i)) i result
      | .waiting owner => (s.promise owner).map fun result => s.goto i (.settled result)
      | _ => none

/-! ## one turn -/

variable {calls : ι → Call} {s t : State ι ε α} {i j : ι}

theorem step_coordinateAuth {thrown : Option ε}
    (h : step calls s (.coordinateAuth i thrown) = some t) :
    s.phase i = .idle ∧
      ((∃ owner, s.pendingAuths (buildCoordinatorKey (calls i)) = some owner ∧
          t = s.goto i (.waiting owner)) ∨
        (s.pendingAuths (buildCoordinatorKey (calls i)) = none ∧
          t = s.start (buildCoordinatorKey (calls i)) i thrown)) := by
  cases hphase : s.phase i with
  | idle =>
      cases hpending : s.pendingAuths (buildCoordinatorKey (calls i)) with
      | some owner =>
          simp only [step, hphase, hpending, Option.some.injEq] at h
          exact ⟨rfl, .inl ⟨owner, rfl, h.symm⟩⟩
      | none =>
          simp only [step, hphase, hpending, Option.some.injEq] at h
          exact ⟨rfl, .inr ⟨rfl, h.symm⟩⟩
  | _ => simp [step, hphase] at h

theorem step_settle {result : Except ε α} (h : step calls s (.settle i result) = some t) :
    s.Running i ∧ t = { s with promise := Function.update s.promise i (some result) } := by
  cases hphase : s.phase i with
  | authenticating =>
      cases hpromise : s.promise i with
      | none =>
          simp only [step, hphase, hpromise, Option.some.injEq] at h
          exact ⟨⟨hphase, hpromise⟩, h.symm⟩
      | some result' => simp [step, hphase, hpromise] at h
  | _ => simp [step, hphase] at h

theorem step_resume (h : step calls s (.resume i) = some t) :
    (∃ result, s.phase i = .authenticating ∧ s.promise i = some result ∧
        t = s.finish (buildCoordinatorKey (calls i)) i result) ∨
      (∃ owner result, s.phase i = .waiting owner ∧ s.promise owner = some result ∧
        t = s.goto i (.settled result)) := by
  cases hphase : s.phase i with
  | authenticating =>
      simp only [step, hphase, Option.map_eq_some_iff] at h
      obtain ⟨result, hpromise, rfl⟩ := h
      exact .inl ⟨result, rfl, hpromise, rfl⟩
  | waiting owner =>
      simp only [step, hphase, Option.map_eq_some_iff] at h
      obtain ⟨result, hpromise, rfl⟩ := h
      exact .inr ⟨owner, result, rfl, hpromise, rfl⟩
  | _ => simp [step, hphase] at h

/-! ## the pending authentications -/

/-- The entries are the calls whose authentication function has been started and that have not
gone on, each under its key. -/
structure Inv (calls : ι → Call) (s : State ι ε α) : Prop where
  entry : ∀ i, s.phase i = .authenticating →
    s.pendingAuths (buildCoordinatorKey (calls i)) = some i
  owner : ∀ key i, s.pendingAuths key = some i →
    buildCoordinatorKey (calls i) = key ∧ s.phase i = .authenticating
  idle : ∀ i, s.phase i = .idle → s.started i = false ∧ s.promise i = none

omit [DecidableEq ι] in
theorem inv_init (calls : ι → Call) : Inv calls (init : State ι ε α) where
  entry := by simp [init]
  owner := by simp [init]
  idle := by simp [init]

/-- A call that has no entry may go on without one. -/
theorem Inv.goto (hs : Inv calls s) {phase : Phase ι ε α} (hi : s.phase i ≠ .authenticating)
    (hphase : phase ≠ .authenticating) (hidle : phase ≠ .idle) : Inv calls (s.goto i phase) where
  entry j hj := by
    rcases eq_or_ne j i with rfl | hji
    · simp [State.goto, hphase] at hj
    · exact hs.entry j (by simpa [State.goto, hji] using hj)
  owner key j hj := by
    obtain ⟨hkey, hj⟩ := hs.owner key j hj
    have hji : j ≠ i := fun h => hi (h ▸ hj)
    exact ⟨hkey, by simpa [State.goto, hji] using hj⟩
  idle j hj := by
    rcases eq_or_ne j i with rfl | hji
    · simp [State.goto, hidle] at hj
    · exact hs.idle j (by simpa [State.goto, hji] using hj)

theorem Inv.start (hs : Inv calls s) (hi : s.phase i = .idle)
    (hpending : s.pendingAuths (buildCoordinatorKey (calls i)) = none) (thrown : Option ε) :
    Inv calls (s.start (buildCoordinatorKey (calls i)) i thrown) := by
  cases thrown with
  | some e =>
      have hgoto : Inv calls (s.goto i (.settled (.error e))) :=
        hs.goto (by simp [hi]) (by simp) (by simp)
      refine ⟨hgoto.entry, hgoto.owner, fun j hj => ?_⟩
      have hji : j ≠ i := by
        rintro rfl
        simp [State.start, State.goto] at hj
      simpa [State.start, State.goto, hji] using hgoto.idle j hj
  | none =>
      refine ⟨fun j hj => ?_, fun key j hj => ?_, fun j hj => ?_⟩
      · rcases eq_or_ne j i with rfl | hji
        · simp [State.start]
        · have hj : s.phase j = .authenticating := by simpa [State.start, State.goto, hji] using hj
          have hentry := hs.entry j hj
          have hkey : buildCoordinatorKey (calls j) ≠ buildCoordinatorKey (calls i) := by
            intro hkey
            rw [hkey, hpending] at hentry
            simp at hentry
          simpa [State.start, hkey] using hentry
      · rcases eq_or_ne key (buildCoordinatorKey (calls i)) with rfl | hkey
        · obtain rfl : i = j := by simpa [State.start] using hj
          exact ⟨rfl, by simp [State.start, State.goto]⟩
        · obtain ⟨hkey', hj⟩ := hs.owner key j (by simpa [State.start, State.goto, hkey] using hj)
          refine ⟨hkey', ?_⟩
          rcases eq_or_ne j i with rfl | hji
          · simp [State.start, State.goto]
          · simpa [State.start, State.goto, hji] using hj
      · rcases eq_or_ne j i with rfl | hji
        · simp [State.start, State.goto] at hj
        · simpa [State.start, State.goto, hji] using
            hs.idle j (by simpa [State.start, State.goto, hji] using hj)

theorem Inv.finish (hs : Inv calls s) {result : Except ε α} (hi : s.phase i = .authenticating) :
    Inv calls (s.finish (buildCoordinatorKey (calls i)) i result) := by
  refine ⟨fun j hj => ?_, fun key j hj => ?_, fun j hj => ?_⟩
  · rcases eq_or_ne j i with rfl | hji
    · simp [State.finish, State.goto] at hj
    · have hj : s.phase j = .authenticating := by simpa [State.finish, State.goto, hji] using hj
      have hentry := hs.entry j hj
      have hkey : buildCoordinatorKey (calls j) ≠ buildCoordinatorKey (calls i) := by
        intro hkey
        rw [hkey, hs.entry i hi] at hentry
        exact hji (Option.some.inj hentry).symm
      simpa [State.finish, hkey] using hentry
  · rcases eq_or_ne key (buildCoordinatorKey (calls i)) with rfl | hkey
    · simp [State.finish] at hj
    · obtain ⟨hkey', hj⟩ := hs.owner key j (by simpa [State.finish, State.goto, hkey] using hj)
      have hji : j ≠ i := by
        rintro rfl
        exact hkey hkey'.symm
      exact ⟨hkey', by simpa [State.finish, State.goto, hji] using hj⟩
  · rcases eq_or_ne j i with rfl | hji
    · simp [State.finish, State.goto] at hj
    · simpa [State.finish, State.goto, hji] using
        hs.idle j (by simpa [State.finish, State.goto, hji] using hj)

theorem Inv.next (s : State ι ε α) (event : Event ι ε α) (t : State ι ε α) (hs : Inv calls s)
    (h : step calls s event = some t) : Inv calls t := by
  cases event with
  | coordinateAuth i thrown =>
      obtain ⟨hi, ⟨owner, _, rfl⟩ | ⟨hpending, rfl⟩⟩ := step_coordinateAuth h
      · exact hs.goto (by simp [hi]) (by simp) (by simp)
      · exact hs.start hi hpending thrown
  | settle i result =>
      obtain ⟨⟨hi, _⟩, rfl⟩ := step_settle h
      refine ⟨hs.entry, hs.owner, fun j hj => ?_⟩
      have hji : j ≠ i := by
        rintro rfl
        simp [hi] at hj
      simpa [hji] using hs.idle j hj
  | resume i =>
      obtain ⟨result, hi, _, rfl⟩ | ⟨owner, result, hi, _, rfl⟩ := step_resume h
      · exact hs.finish hi
      · exact hs.goto (by simp [hi]) (by simp) (by simp)

omit [DecidableEq ι] in
/-- Two calls of one key do not both authenticate. -/
theorem Inv.unique (hs : Inv calls s)
    (hkey : buildCoordinatorKey (calls i) = buildCoordinatorKey (calls j))
    (hi : s.phase i = .authenticating) (hj : s.phase j = .authenticating) : i = j := by
  have hentry := hs.entry i hi
  rw [hkey, hs.entry j hj] at hentry
  exact (Option.some.inj hentry).symm

/-! ## calls that come while a function runs -/

/-- The call has not authenticated itself: it waits for the promise of another one, or has
returned what that settled with. -/
def State.Joined (s : State ι ε α) (i j : ι) : Prop :=
  s.started j = false ∧
    (s.phase j = .waiting i ∨ ∃ result, s.promise i = some result ∧ s.phase j = .settled result)

/-- What the turn of a call leaves of the others. -/
theorem step_other {event : Event ι ε α} (h : step calls s event = some t) :
    (∀ j, s.phase j ≠ .idle → t.started j = s.started j) ∧
      (∀ j result, s.promise j = some result → t.promise j = some result) ∧
        (∀ j, s.phase j ≠ .idle → event ≠ .resume j → t.phase j = s.phase j) := by
  cases event with
  | coordinateAuth i thrown =>
      obtain ⟨hi, ⟨owner, _, rfl⟩ | ⟨_, rfl⟩⟩ := step_coordinateAuth h
      · refine ⟨fun j _ => rfl, fun j result hj => hj, fun j hj _ => ?_⟩
        have hji : j ≠ i := fun hji => hj (hji ▸ hi)
        simp [State.goto, hji]
      · have hother : ∀ j, s.phase j ≠ .idle → j ≠ i := fun j hj hji => hj (hji ▸ hi)
        cases thrown with
        | some e =>
            exact ⟨fun j hj => by simp [State.start, hother j hj], fun j result hj => hj,
              fun j hj _ => by simp [State.start, State.goto, hother j hj]⟩
        | none =>
            exact ⟨fun j hj => by simp [State.start, hother j hj], fun j result hj => hj,
              fun j hj _ => by simp [State.start, State.goto, hother j hj]⟩
  | settle i result =>
      obtain ⟨⟨_, hi⟩, rfl⟩ := step_settle h
      refine ⟨fun j _ => rfl, fun j result' hj => ?_, fun j _ _ => rfl⟩
      have hji : j ≠ i := by
        rintro rfl
        simp [hi] at hj
      simpa [hji] using hj
  | resume i =>
      obtain ⟨result, hi, _, rfl⟩ | ⟨owner, result, hi, _, rfl⟩ := step_resume h
      · refine ⟨fun j _ => rfl, fun j result' hj => hj, fun j _ hne => ?_⟩
        have hji : j ≠ i := fun hji => hne (hji ▸ rfl)
        simp [State.finish, State.goto, hji]
      · refine ⟨fun j _ => rfl, fun j result' hj => hj, fun j _ hne => ?_⟩
        have hji : j ≠ i := fun hji => hne (hji ▸ rfl)
        simp [State.goto, hji]

theorem State.Joined.next (i j : ι) (s : State ι ε α) (event : Event ι ε α) (t : State ι ε α)
    (hs : s.Joined i j) (h : step calls s event = some t) : t.Joined i j := by
  obtain ⟨hstarted, hphase⟩ := hs
  obtain ⟨hstarted', hpromise', hphase'⟩ := step_other h
  have hidle : s.phase j ≠ .idle := by
    obtain hwaiting | ⟨result, _, hsettled⟩ := hphase
    · simp [hwaiting]
    · simp [hsettled]
  refine ⟨by rw [hstarted' j hidle, hstarted], ?_⟩
  by_cases hevent : event = .resume j
  · subst hevent
    obtain hwaiting | ⟨result, hpromise, hsettled⟩ := hphase
    · obtain ⟨result, hj, _, rfl⟩ | ⟨owner, result, hj, hpromise, rfl⟩ := step_resume h
      · simp [hwaiting] at hj
      · obtain rfl : i = owner := by simpa [hwaiting] using hj
        exact .inr ⟨result, hpromise, by simp [State.goto]⟩
    · obtain ⟨_, hj, _⟩ | ⟨_, _, hj, _⟩ := step_resume h <;> simp [hsettled] at hj
  · rw [hphase' j hidle hevent]
    obtain hwaiting | ⟨result, hpromise, hsettled⟩ := hphase
    · exact .inl hwaiting
    · exact .inr ⟨result, hpromise' i result hpromise, hsettled⟩

/-! ## single flight -/

/-- What holds of a state of the calls, and of all that comes after it. -/
structure SingleFlight (calls : ι → Call) (s : State ι ε α) : Prop where
  /-- One authentication function for each key. -/
  one_running : ∀ i j, buildCoordinatorKey (calls i) = buildCoordinatorKey (calls j) →
    s.Running i → s.Running j → i = j
  /-- A call that comes while a function for its key runs never starts its own, and once that
  function has ended its next turn returns the result. -/
  joins : ∀ i j thrown t, buildCoordinatorKey (calls i) = buildCoordinatorKey (calls j) →
    s.Running i → step calls s (.coordinateAuth j thrown) = some t →
      ∀ es u, Lts.exec (step calls) t es = some u →
        u.Joined i j ∧ ∀ result, u.promise i = some result → u.phase j = .settled result ∨
          ∃ v, step calls u (.resume j) = some v ∧ v.phase j = .settled result
  /-- A call that finds no entry starts its own. -/
  starts : ∀ j thrown t, s.pendingAuths (buildCoordinatorKey (calls j)) = none →
    step calls s (.coordinateAuth j thrown) = some t →
      t.started j = true ∧ (∀ e, thrown = some e → t.phase j = .settled (.error e)) ∧
        (thrown = none → t.Running j)
  /-- A function runs with its entry, and no turn but that of the call itself removes an entry. -/
  kept : ∀ i, s.Running i → s.pendingAuths (buildCoordinatorKey (calls i)) = some i
  removes : ∀ key owner, s.pendingAuths key = some owner → ∀ event t,
    step calls s event = some t → event ≠ .resume owner → t.pendingAuths key = some owner

theorem Inv.joins (hs : Inv calls s) {thrown : Option ε}
    (hkey : buildCoordinatorKey (calls i) = buildCoordinatorKey (calls j)) (hi : s.Running i)
    (h : step calls s (.coordinateAuth j thrown) = some t) : t.Joined i j := by
  have hentry := hs.entry i hi.1
  obtain ⟨hj, ⟨owner, howner, rfl⟩ | ⟨hpending, _⟩⟩ := step_coordinateAuth h
  · rw [← hkey, hentry] at howner
    obtain rfl := Option.some.inj howner
    exact ⟨(hs.idle j hj).1, .inl (by simp [State.goto])⟩
  · rw [← hkey, hentry] at hpending
    simp at hpending

theorem State.Joined.settles (hs : s.Joined i j) {result : Except ε α}
    (hresult : s.promise i = some result) : s.phase j = .settled result ∨
      ∃ t, step calls s (.resume j) = some t ∧ t.phase j = .settled result := by
  obtain hwaiting | ⟨result', hresult', hsettled⟩ := hs.2
  · refine .inr ⟨s.goto j (.settled result), ?_, by simp [State.goto]⟩
    simp [step, hwaiting, hresult]
  · obtain rfl := Option.some.inj (hresult'.symm.trans hresult)
    exact .inl hsettled

theorem starts {thrown : Option ε} (hnone : s.pendingAuths (buildCoordinatorKey (calls j)) = none)
    (hs : Inv calls s) (h : step calls s (.coordinateAuth j thrown) = some t) :
    t.started j = true ∧ (∀ e, thrown = some e → t.phase j = .settled (.error e)) ∧
      (thrown = none → t.Running j) := by
  obtain ⟨hj, ⟨owner, howner, _⟩ | ⟨_, rfl⟩⟩ := step_coordinateAuth h
  · rw [hnone] at howner
    simp at howner
  · cases thrown with
    | some e => exact ⟨by simp [State.start], by simp [State.start, State.goto], by simp⟩
    | none =>
        refine ⟨by simp [State.start], by simp, fun _ => ⟨by simp [State.start, State.goto], ?_⟩⟩
        exact (hs.idle j hj).2

theorem Inv.removes (hs : Inv calls s) {key : String} {owner : ι}
    (howner : s.pendingAuths key = some owner) {event : Event ι ε α}
    (h : step calls s event = some t) (hevent : event ≠ .resume owner) :
    t.pendingAuths key = some owner := by
  cases event with
  | coordinateAuth i thrown =>
      obtain ⟨_, ⟨owner', _, rfl⟩ | ⟨hnone, rfl⟩⟩ := step_coordinateAuth h
      · exact howner
      · have hkey : key ≠ buildCoordinatorKey (calls i) := by
          rintro rfl
          simp [hnone] at howner
        cases thrown with
        | some e => exact howner
        | none => simpa [State.start, State.goto, hkey] using howner
  | settle i result =>
      obtain ⟨_, rfl⟩ := step_settle h
      exact howner
  | resume i =>
      obtain ⟨result, hi, _, rfl⟩ | ⟨_, _, _, _, rfl⟩ := step_resume h
      · have hkey : key ≠ buildCoordinatorKey (calls i) := by
          rintro rfl
          rw [hs.entry i hi] at howner
          exact hevent (congrArg Event.resume (Option.some.inj howner))
        simpa [State.finish, State.goto, hkey] using howner
      · exact howner

theorem Inv.singleFlight (hs : Inv calls s) : SingleFlight calls s where
  one_running i j hkey hi hj := hs.unique hkey hi.1 hj.1
  joins i j thrown t hkey hi h es u hu := by
    have hjoined := Lts.exec_invariant (State.Joined.next i j) (hs.joins hkey hi h) hu
    exact ⟨hjoined, fun result hresult => hjoined.settles hresult⟩
  starts j thrown t hnone h := starts hnone hs h
  kept i hi := hs.entry i hi.1
  removes key owner howner event t h hevent := hs.removes howner h hevent

/-- In every state of every run, however its turns are ordered. -/
theorem single_flight (calls : ι → Call) (es : List (Event ι ε α)) :
    Lts.Always (step calls) (SingleFlight calls) init es :=
  Lts.always_of_along (fun _ hs => hs.singleFlight) (fun s event t hs _ => Inv.next s event t hs)
    (inv_init calls) (Lts.along_true init es)

end

end AuthCoordinator

end SnowflakeConnector
