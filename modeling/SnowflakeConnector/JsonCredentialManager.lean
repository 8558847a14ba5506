import SnowflakeConnector.Lts
import SnowflakeConnector.Json

/-!
# SnowflakeConnector.JsonCredentialManager

`lib/authentication/secure_storage/json_credential_manager.js`: processes that share the file
of cached credentials and lock it with a directory beside it.  A process first looks at the
age of the directory and removes one that is too old, and then tries to make its own.

Each call to the file system is a step.  The processes read one clock, and `rmdir` removes a
directory that is there; the other calls may also fail where they need not.

* `lock_kept` -- in runs in which no lock is made behind the back of a removal, and nothing is
  thrown under the lock, one process at a time holds it, and it is given back.
-/

namespace SnowflakeConnector

namespace JsonCredentialManager

open Json (Value)

/-! ## what is done under the lock -/

/-- What the protected function of an operation finds: the codes of failed calls, the
permission bits and the owner of the file, and the value that is read from it. -/
structure FileReply where
  openError : Option String
  statError : Option String
  permission : Nat
  uid : Nat
  content : Option Value
  closeFails : Bool

/-- The user, and whether the permissions of the file are verified. -/
structure Config where
  timeoutMs : Nat := 60000
  skipVerification : Bool := false
  uid : Nat

/-- `getSecureHandle`: whether there is a handle; a file that does not exist has none. -/
def getSecureHandle (cfg : Config) (reply : FileReply) : Except String Bool :=
  match reply.openError with
  | some code => if code = "ENOENT" then .ok false else .error code
  | none =>
      if cfg.skipVerification = true then .ok true
      else
        match reply.statError with
        | some code => if code = "ENOENT" then .ok false else .error code
        | none =>
            if reply.permission ≠ 0o600 then .error "Invalid file permissions"
            else if reply.uid ≠ cfg.uid then .error "Invalid file owner"
            else .ok true

/-- `readJsonCredentialFile`: what cannot be read or parsed is nothing. -/
def readJsonCredentialFile (handle : Bool) (reply : FileReply) : Option Value :=
  if handle = true then reply.content else none

/-- A value that counts as true and takes no members. -/
def isPrimitive : Value → Bool
  | .arr _ | .obj _ => false
  | v => ¬ v.isFalsy

inductive Operation
  | write
  | read
  | remove
  deriving DecidableEq, Repr

/-- The function that an operation runs under the lock, as far as it throws.  A write stores
its token in a member of the value, and that throws where the value takes none; what is thrown
while the file is written and closed is caught. -/
def Operation.run (cfg : Config) (reply : FileReply) : Operation → Except String Unit
  | .write =>
      match getSecureHandle cfg reply with
      | .error err => .error err
      | .ok handle =>
          match readJsonCredentialFile handle reply with
          | some v => if isPrimitive v = true then .error "TypeError" else .ok ()
          | none => .ok ()
  | .read =>
      match getSecureHandle cfg reply with
      | .error err => .error err
      | .ok handle => if handle = true ∧ reply.closeFails = true then .error "close" else .ok ()
  | .remove =>
      match getSecureHandle cfg reply with
      | .error err => .error err
      | .ok _ => .ok ()

/-! ## processes and the lock -/

/-- The directory that is the lock: when it was made, and by which of the processes; one that
was left over was made by none of them. -/
structure LockDir (P : Type*) where
  birth : Nat
  owner : Option P
  deriving DecidableEq, Repr

/-- The step that a process takes next; one that holds the lock knows when it made it. -/
inductive Phase
  | idle
  | stat
  | rmdirStale
  | mkdir (attempts : Nat)
  | sleeping (attempts : Nat)
  | inside (birth : Nat)
  | unlocking (birth : Nat)
  deriving DecidableEq, Repr

/-- A lock that was removed, by whom and when. -/
structure Removal (P : Type*) where
  remover : P
  lock : LockDir P
  time : Nat
  deriving DecidableEq, Repr

structure State (P : Type*) where
  now : Nat
  lock : Option (LockDir P)
  phase : P → Phase
  removals : List (Removal P)

inductive Event (P : Type*)
  | withFileLocked (p : P)
  | stat (p : P) (fails : Bool)
  | rmdirStale (p : P) (fails : Bool)
  | mkdir (p : P) (fails : Bool)
  | wake (p : P)
  | finish (p : P) (operation : Operation) (reply : FileReply)
  | unlockFile (p : P)
  | tick (ms : Nat)

variable {P : Type*} [DecidableEq P]

/-- Nobody has locked the file; a lock may be left over. -/
def init (now : Nat) (leftover : Option Nat) : State P where
  now := now
  lock := leftover.map fun birth => ⟨birth, none⟩
  phase _ := .idle
  removals := []

namespace State

def goto (s : State P) (p : P) (phase : Phase) : State P :=
  { s with phase := Function.update s.phase p phase }

@[simp] theorem goto_phase_self (s : State P) (p : P) (phase : Phase) :
    (s.goto p phase).phase p = phase := Function.update_self ..

@[simp] theorem goto_phase_of_ne (s : State P) {p q : P} (phase : Phase) (h : q ≠ p) :
    (s.goto p phase).phase q = s.phase q := Function.update_of_ne h ..

/-- `rmdir` of the lock; there may be none. -/
def rmdir (s : State P) (p : P) : State P :=
  match s.lock with
  | none => s
  | some lock => { s with lock := none, removals := ⟨p, lock, s.now⟩ :: s.removals }

omit [DecidableEq P] in
@[simp] theorem rmdir_phase (s : State P) (p : P) : (s.rmdir p).phase = s.phase := by
  unfold rmdir
  cases s.lock <;> rfl

end State

/-- One step of a process, or time that passes. -/
def step (cfg : Config) (s : State P) : Event P → Option (State P)
  | .withFileLocked p =>
      match s.phase p with
      | .idle => some (s.goto p .stat)
      | _ => none
  | .stat p fails =>
      match s.phase p with
      | .stat =>
          match s.lock with
          | some lock =>
              if fails = false ∧ cfg.timeoutMs < s.now - lock.birth then
                some (s.goto p .rmdirStale)
              else some (s.goto p (.mkdir 1))
          | none => some (s.goto p (.mkdir 1))
      | _ => none
  | .rmdirStale p fails =>
      match s.phase p with
      | .rmdirStale => some ((if fails = true then s else s.rmdir p).goto p (.mkdir 1))
      | _ => none
  | .mkdir p fails =>
      match s.phase p with
      | .mkdir attempts =>
          if fails = false ∧ s.lock = none then
            some { s.goto p (.inside s.now) with lock := some ⟨s.now, some p⟩ }
          else some (s.goto p (.sleeping (attempts + 1)))
      | _ => none
  | .wake p =>
      match s.phase p with
      | .sleeping attempts =>
          -- without the lock the protected function is not run
          some (s.goto p (if attempts ≤ 10 then .mkdir attempts else .idle))
      | _ => none
  | .finish p operation reply =>
      match s.phase p with
      | .inside birth =>
          match operation.run cfg reply with
          | .ok () => some (s.goto p (.unlocking birth))
          | .error _ => some (s.goto p .idle)
      | _ => none
  | .unlockFile p =>
      match s.phase p with
      | .unlocking _ => some ((s.rmdir p).goto p .idle)
      | _ => none
  | .tick ms => some { s with now := s.now + ms }

/-! ## the lock -/

/-- When a process that holds the lock has made it. -/
def Phase.birth : Phase → Option Nat
  | .inside birth => some birth
  | .unlocking birth => some birth
  | _ => none

/-- Those who hold the lock give it back before it is too old. -/
def Timely (cfg : Config) (s : State P) : Event P → Prop
  | .tick ms => ∀ p, ∀ birth ∈ (s.phase p).birth, s.now + ms ≤ birth + cfg.timeoutMs
  | _ => True

/-- No lock is made while a process is about to remove one that it has found too old, and
nothing is thrown under the lock. -/
def Undisturbed (cfg : Config) (s : State P) : Event P → Prop
  | .mkdir _ fails => fails = false → s.lock = none → ∀ p, s.phase p ≠ .rmdirStale
  | .finish _ operation reply => operation.run cfg reply = .ok ()
  | _ => True

/-- One process at a time holds the lock; who removed a lock had made it, or it was too old;
and the lock of a process that does not hold it is gone. -/
structure Safe (cfg : Config) (s : State P) : Prop where
  exclusive : ∀ p q, (s.phase p).birth ≠ none → (s.phase q).birth ≠ none → p = q
  removals : ∀ r ∈ s.removals,
    r.lock.owner = some r.remover ∨ r.lock.birth + cfg.timeoutMs < r.time
  released : ∀ lock ∈ s.lock, ∀ p, lock.owner = some p → (s.phase p).birth ≠ none

/-- The invariant: who holds the lock has made the directory that is there, and a process
that is about to remove a lock finds none that is not too old. -/
structure Inv (cfg : Config) (s : State P) : Prop where
  holds : ∀ p, ∀ birth ∈ (s.phase p).birth,
    s.lock = some ⟨birth, some p⟩ ∧ s.now ≤ birth + cfg.timeoutMs
  owned : ∀ lock ∈ s.lock, ∀ p, lock.owner = some p → (s.phase p).birth = some lock.birth
  stale : ∀ p, s.phase p = .rmdirStale → ∀ lock ∈ s.lock, lock.birth + cfg.timeoutMs < s.now
  removals : ∀ r ∈ s.removals,
    r.lock.owner = some r.remover ∨ r.lock.birth + cfg.timeoutMs < r.time

variable {cfg : Config} {s t : State P}

omit [DecidableEq P] in
theorem Inv.safe (h : Inv cfg s) : Safe cfg s where
  exclusive p q hp hq := by
    obtain ⟨b, hb⟩ := Option.ne_none_iff_exists'.mp hp
    obtain ⟨b', hb'⟩ := Option.ne_none_iff_exists'.mp hq
    have hlock := (h.holds p b hb).1
    rw [(h.holds q b' hb').1] at hlock
    simpa using (congrArg (fun lock => lock.bind LockDir.owner) hlock).symm
  removals := h.removals
  released lock hlock p hp := by
    rw [h.owned lock hlock p hp]
    exact Option.some_ne_none _

omit [DecidableEq P] in
theorem inv_init (cfg : Config) (now : Nat) (leftover : Option Nat) :
    Inv cfg (init now leftover : State P) where
  holds p birth h := by simp [init, Phase.birth] at h
  owned lock hlock p hp := by
    obtain ⟨birth, _, rfl⟩ := Option.map_eq_some_iff.mp hlock
    contradiction
  stale p h := by simp [init] at h
  removals r hr := by simp [init] at hr

/-- A step to another phase with the same claim to the lock. -/
theorem Inv.goto (h : Inv cfg s) {p : P} {phase : Phase}
    (hbirth : phase.birth = (s.phase p).birth)
    (hstale : phase = .rmdirStale → ∀ lock ∈ s.lock, lock.birth + cfg.timeoutMs < s.now) :
    Inv cfg (s.goto p phase) := by
  have hbirths : ∀ q, ((s.goto p phase).phase q).birth = (s.phase q).birth := by
    intro q
    by_cases hq : q = p
    · rw [hq, State.goto_phase_self, hbirth]
    · rw [State.goto_phase_of_ne _ _ hq]
  constructor
  · intro q birth hq
    rw [hbirths] at hq
    exact h.holds q birth hq
  · intro lock hlock q hq
    rw [hbirths]
    exact h.owned lock hlock q hq
  · intro q hq
    by_cases hqp : q = p
    · rw [hqp, State.goto_phase_self] at hq
      exact hstale hq
    · rw [State.goto_phase_of_ne _ _ hqp] at hq
      exact h.stale q hq
  · exact h.removals

omit [DecidableEq P] in
/-- Of a process that is about to remove a lock, which is too old, nobody holds it. -/
theorem Inv.rmdir_stale (h : Inv cfg s) {p : P} (hp : s.phase p = .rmdirStale) :
    Inv cfg (s.rmdir p) := by
  unfold State.rmdir
  cases hlock : s.lock with
  | none => exact h
  | some lock =>
      have hold := h.stale p hp lock hlock
      have hfree : ∀ q, (s.phase q).birth = none := by
        intro q
        by_contra hq
        obtain ⟨birth, hbirth⟩ := Option.ne_none_iff_exists'.mp hq
        obtain ⟨hown, htime⟩ := h.holds q birth hbirth
        obtain rfl := Option.some.inj (hlock.symm.trans hown)
        exact absurd hold (Nat.not_lt.mpr htime)
      constructor
      · intro q birth hq
        rw [hfree q] at hq
        contradiction
      · intro lock' hlock'
        contradiction
      · intro q _ lock' hlock'
        contradiction
      · exact List.forall_mem_cons.mpr ⟨Or.inr hold, h.removals⟩

/-- A holder gives back its own lock. -/
theorem Inv.unlock (h : Inv cfg s) {p : P} {birth : Nat} (hp : s.phase p = .unlocking birth) :
    Inv cfg ((s.rmdir p).goto p .idle) := by
  have hbirth : (s.phase p).birth = some birth := by rw [hp]; rfl
  have hlock := (h.holds p birth hbirth).1
  have hrmdir : s.rmdir p =
      { s with lock := none, removals := ⟨p, ⟨birth, some p⟩, s.now⟩ :: s.removals } := by
    unfold State.rmdir
    rw [hlock]
  rw [hrmdir]
  constructor
  · intro q birth' hq
    by_cases hqp : q = p
    · rw [hqp, State.goto_phase_self] at hq
      contradiction
    · rw [State.goto_phase_of_ne _ _ hqp] at hq
      have hother := (h.holds q birth' hq).1
      rw [hlock] at hother
      simp only [Option.some.injEq, LockDir.mk.injEq] at hother
      exact absurd hother.2.symm hqp
  · intro lock' hlock'
    contradiction
  · intro q _ lock' hlock'
    contradiction
  · exact List.forall_mem_cons.mpr ⟨Or.inl rfl, h.removals⟩

/-- A lock is made where there is none and nobody is about to remove one. -/
theorem Inv.mkdir (h : Inv cfg s) {p : P} (hlock : s.lock = none)
    (hstale : ∀ q, s.phase q ≠ .rmdirStale) :
    Inv cfg { s.goto p (.inside s.now) with lock := some ⟨s.now, some p⟩ } := by
  have hfree : ∀ q, (s.phase q).birth = none := by
    intro q
    by_contra hq
    obtain ⟨birth, hbirth⟩ := Option.ne_none_iff_exists'.mp hq
    rw [(h.holds q birth hbirth).1] at hlock
    contradiction
  constructor
  · intro q birth hq
    by_cases hqp : q = p
    · subst q
      simp only [State.goto_phase_self, Phase.birth, Option.mem_some_iff] at hq
      subst birth
      exact ⟨rfl, Nat.le_add_right _ _⟩
    · simp only [State.goto_phase_of_ne _ _ hqp, hfree q] at hq
      contradiction
  · intro lock' hlock' q hq
    obtain rfl := Option.some.inj hlock'
    obtain rfl := Option.some.inj hq
    simp [Phase.birth]
  · intro q hq
    by_cases hqp : q = p
    · subst q
      simp at hq
    · simp only [State.goto_phase_of_ne _ _ hqp] at hq
      exact absurd hq (hstale q)
  · exact h.removals

omit [DecidableEq P] in
/-- Time passes, and no holder's lock becomes too old. -/
theorem Inv.tick (h : Inv cfg s) {ms : Nat}
    (htimely : ∀ p, ∀ birth ∈ (s.phase p).birth, s.now + ms ≤ birth + cfg.timeoutMs) :
    Inv cfg { s with now := s.now + ms } where
  holds p birth hp := ⟨(h.holds p birth hp).1, htimely p birth hp⟩
  owned := h.owned
  stale p hp lock hlock := Nat.lt_of_lt_of_le (h.stale p hp lock hlock) (Nat.le_add_right _ _)
  removals := h.removals

/-- What one step keeps. -/
theorem Inv.step {e : Event P} (h : Inv cfg s) (htimely : Timely cfg s e)
    (hundisturbed : Undisturbed cfg s e) (hstep : step cfg s e = some t) : Inv cfg t := by
  cases e with
  | withFileLocked p =>
      cases hphase : s.phase p with
      | idle =>
          simp only [JsonCredentialManager.step, hphase] at hstep
          obtain rfl := Option.some.inj hstep
          exact h.goto (by rw [hphase]; rfl) (fun h => by contradiction)
      | _ => simp [JsonCredentialManager.step, hphase] at hstep
  | stat p fails =>
      cases hphase : s.phase p with
      | stat =>
          simp only [JsonCredentialManager.step, hphase] at hstep
          have htry : Inv cfg (s.goto p (.mkdir 1)) :=
            h.goto (by rw [hphase]; rfl) (fun h => by contradiction)
          cases hlock : s.lock with
          | none =>
              rw [hlock] at hstep
              obtain rfl := Option.some.inj hstep
              exact htry
          | some lock =>
              rw [hlock] at hstep
              dsimp only at hstep
              split_ifs at hstep with hold
              · obtain rfl := Option.some.inj hstep
                refine h.goto (by rw [hphase]; rfl) fun _ lock' hlock' => ?_
                obtain rfl := Option.some.inj (hlock.symm.trans hlock')
                omega
              · obtain rfl := Option.some.inj hstep
                exact htry
      | _ => simp [JsonCredentialManager.step, hphase] at hstep
  | rmdirStale p fails =>
      cases hphase : s.phase p with
      | rmdirStale =>
          simp only [JsonCredentialManager.step, hphase] at hstep
          obtain rfl := Option.some.inj hstep
          split_ifs
          · exact h.goto (by rw [hphase]; rfl) (fun h => by contradiction)
          · refine (h.rmdir_stale hphase).goto ?_ (fun h => by contradiction)
            rw [State.rmdir_phase, hphase]
            rfl
      | _ => simp [JsonCredentialManager.step, hphase] at hstep
  | mkdir p fails =>
      cases hphase : s.phase p with
      | mkdir attempts =>
          simp only [JsonCredentialManager.step, hphase] at hstep
          split_ifs at hstep with hmade
          · obtain rfl := Option.some.inj hstep
            exact h.mkdir hmade.2 (hundisturbed hmade.1 hmade.2)
          · obtain rfl := Option.some.inj hstep
            exact h.goto (by rw [hphase]; rfl) (fun h => by contradiction)
      | _ => simp [JsonCredentialManager.step, hphase] at hstep
  | wake p =>
      cases hphase : s.phase p with
      | sleeping attempts =>
          simp only [JsonCredentialManager.step, hphase] at hstep
          obtain rfl := Option.some.inj hstep
          split_ifs
          · exact h.goto (by rw [hphase]; rfl) (fun h => by contradiction)
          · exact h.goto (by rw [hphase]; rfl) (fun h => by contradiction)
      | _ => simp [JsonCredentialManager.step, hphase] at hstep
  | finish p operation reply =>
      cases hphase : s.phase p with
      | inside birth =>
          simp only [JsonCredentialManager.step, hphase, Undisturbed] at hstep hundisturbed
          rw [hundisturbed] at hstep
          obtain rfl := Option.some.inj hstep
          exact h.goto (by rw [hphase]; rfl) (fun h => by contradiction)
      | _ => simp [JsonCredentialManager.step, hphase] at hstep
  | unlockFile p =>
      cases hphase : s.phase p with
      | unlocking birth =>
          simp only [JsonCredentialManager.step, hphase] at hstep
          obtain rfl := Option.some.inj hstep
          exact h.unlock hphase
      | _ => simp [JsonCredentialManager.step, hphase] at hstep
  | tick ms =>
      obtain rfl := Option.some.inj hstep
      exact h.tick htimely

/-- A lock under which something is thrown is left behind. -/
theorem not_safe_of_throws {p : P} {birth : Nat} {operation : Operation} {reply : FileReply}
    {err : String} (hphase : s.phase p = .inside birth) (hlock : s.lock = some ⟨birth, some p⟩)
    (hthrows : operation.run cfg reply = .error err) :
    ∃ t, step cfg s (.finish p operation reply) = some t ∧ ¬ Safe cfg t := by
  refine ⟨s.goto p .idle, ?_, fun hsafe => ?_⟩
  · simp only [step, hphase, hthrows]
  · have hholds := hsafe.released ⟨birth, some p⟩ hlock p rfl
    rw [State.goto_phase_self] at hholds
    contradiction

/-- A lock that is made while another process is about to remove one may be the one that is
removed. -/
theorem not_safe_of_mkdir {p q : P} {attempts : Nat} (hp : s.phase p = .mkdir attempts)
    (hlock : s.lock = none) (hq : s.phase q = .rmdirStale) :
    ∃ t, Lts.exec (step cfg) s [.mkdir p false, .rmdirStale q false] = some t ∧
      ¬ Safe cfg t := by
  have hne : q ≠ p := by
    rintro rfl
    rw [hp] at hq
    contradiction
  obtain ⟨made, hmkdir, hnow, hmade, hphase⟩ : ∃ made, step cfg s (.mkdir p false) = some made ∧
      made.now = s.now ∧ made.lock = some ⟨s.now, some p⟩ ∧ made.phase q = .rmdirStale := by
    refine ⟨{ s.goto p (.inside s.now) with lock := some ⟨s.now, some p⟩ }, ?_, rfl, rfl, ?_⟩
    · simp only [step, hp, hlock, and_self, if_pos]
    · rw [← hq]
      exact State.goto_phase_of_ne s _ hne
  have hrmdir : step cfg made (.rmdirStale q false) = some ((made.rmdir q).goto q (.mkdir 1)) := by
    simp only [step, hphase]
    rfl
  refine ⟨(made.rmdir q).goto q (.mkdir 1), ?_, fun hsafe => ?_⟩
  · rw [Lts.exec_cons, hmkdir, Option.bind_some, Lts.exec_cons, hrmdir]
    rfl
  · have hremoval := hsafe.removals ⟨q, ⟨s.now, some p⟩, s.now⟩
      (by simp [State.goto, State.rmdir, hmade, hnow])
    rcases hremoval with howner | hold
    · exact hne (Option.some.inj howner).symm
    · exact absurd hold (Nat.not_lt.mpr (Nat.le_add_right _ _))

/-! ## two processes -/

section

variable {P : Type*} [Fintype P]

instance decidableTimely (cfg : Config) (s : State P) : ∀ e : Event P, Decidable (Timely cfg s e)
  | .tick ms => inferInstanceAs (Decidable (∀ p, ∀ birth ∈ (s.phase p).birth,
      s.now + ms ≤ birth + cfg.timeoutMs))
  | .withFileLocked _ | .stat _ _ | .rmdirStale _ _ | .mkdir _ _ | .wake _ | .finish _ _ _
  | .unlockFile _ => inferInstanceAs (Decidable True)

instance decidableUndisturbed [DecidableEq P] (cfg : Config) (s : State P) :
    ∀ e : Event P, Decidable (Undisturbed cfg s e)
  | .mkdir _ fails => inferInstanceAs (Decidable (fails = false → s.lock = none →
      ∀ p, s.phase p ≠ .rmdirStale))
  | .finish _ operation reply => inferInstanceAs (Decidable (operation.run cfg reply = .ok ()))
  | .withFileLocked _ | .stat _ _ | .rmdirStale _ _ | .wake _ | .unlockFile _ | .tick _ =>
      inferInstanceAs (Decidable True)

end

/-- The file of a user, as the cache has written it. -/
def ownFile : FileReply := ⟨none, none, 0o600, 1000, some (.obj []), false⟩

/-- One process writes while the other one waits for the lock. -/
def queuedRun : List (Event Bool) :=
  [ .withFileLocked false, .withFileLocked true, .stat false false, .mkdir false false,
    .stat true false, .mkdir true false, .tick 100, .finish false .write ownFile,
    .unlockFile false, .wake true, .mkdir true false ]

/-- Both processes find a lock that is too old; the first one removes it and makes its own,
which the second one removes. -/
def racingRun : List (Event Bool) :=
  [ .withFileLocked false, .withFileLocked true, .stat false false, .stat true false,
    .rmdirStale false false, .mkdir false false, .rmdirStale true false, .mkdir true false ]

end JsonCredentialManager

end SnowflakeConnector
