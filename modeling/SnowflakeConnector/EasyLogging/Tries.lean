import SnowflakeConnector.EasyLogging

/-!
# SnowflakeConnector.EasyLogging.Tries

How often the logger is configured by connections that come one after the other: a call of `init`
is not made before the others have come back.

* `step_moves` -- what a step does to the calls that are under way;
* `configured_twice` -- twice at most, and for good by a path that was given.
-/

namespace SnowflakeConnector

namespace EasyLogging

open ClientConfiguration Lts

section

variable {ι : Type*} {s t u : State ι} {home : String} {user : User} {phase : Phase} {i : ι}
  {given : Option String}

/-! ## the invariant -/

/-- What a call that is under way was given, and the path that it works on. -/
def Phase.call : Phase → Option (Option String × Option String)
  | .finding given => some (given, none)
  | .opening given path | .stating given path _ | .reading given path _ _ _
  | .checking given path _ | .closing given path _ => some (given, some path)
  | .preparing given settings => some (given, some settings.configPath)
  | .idle | .done _ => none

/-- How often the logger may have been configured. -/
def limit : Option (Option String) → Nat
  | none => 0
  | some none => 1
  | some (some _) => 2

theorem limit_le (tried : Option (Option String)) : limit tried ≤ 2 := by
  rcases tried with _ | _ | _ <;> simp [limit]

/-- A call that is allowed is one more try. -/
theorem limit_lt {tried : Option (Option String)} (h : allowedToInitialize tried given = true) :
    limit tried < limit (some given) := by
  rcases tried with _ | _ | _
  · cases given <;> simp [limit]
  · cases given with
    | none => cases h
    | some path => exact Nat.lt_succ_self 1
  · cases h

structure Tries (s : State ι) : Prop where
  alone : ∀ i j, (s.phase i).call.isSome → (s.phase j).call.isSome → i = j
  allowed : ∀ i given path, (s.phase i).call = some (given, path) →
    allowedToInitialize s.initTrialParameters given = true ∧ ∀ p ∈ path, ∀ q ∈ given, p = q
  length : s.configured.length ≤ limit s.initTrialParameters
  second : ∀ c d, s.configured = [c, d] → s.initTrialParameters = some (some d.configPath)

/-- A connection connects when the others have done so. -/
def Sequential (s : State ι) : Event ι → Prop
  | .init _ _ => ∀ j, (s.phase j).call = none
  | _ => True

theorem tries_start : Tries (State.start : State ι) :=
  ⟨nofun, nofun, Nat.le_refl 0, nofun⟩

/-- No call is under way when no other may be made. -/
theorem Tries.idle {path : String} (h : Tries s)
    (hlast : s.initTrialParameters = some (some path)) : ∀ j, (s.phase j).call = none := by
  intro j
  cases hcall : (s.phase j).call with
  | none => rfl
  | some call =>
      have hallowed := (h.allowed j call.1 call.2 hcall).1
      rw [hlast] at hallowed
      cases hallowed

variable [DecidableEq ι]

theorem Tries.goto (h : Tries s) (hphase : u.phase = s.phase)
    (htrial : u.initTrialParameters = s.initTrialParameters)
    (hconfigured : u.configured = s.configured)
    (hcall : ∀ given path, phase.call = some (given, path) →
      ∃ path', (s.phase i).call = some (given, path') ∧ ∀ p ∈ path, ∀ q ∈ given, p = q) :
    Tries (u.goto i phase) := by
  have hsome : ∀ j, ((u.goto i phase).phase j).call.isSome → (s.phase j).call.isSome := by
    intro j hj
    rw [State.goto_phase, hphase, Function.update_apply] at hj
    split_ifs at hj with hji
    · subst hji
      obtain ⟨⟨given, path⟩, hp⟩ := Option.isSome_iff_exists.mp hj
      obtain ⟨path', hp', -⟩ := hcall given path hp
      rw [hp']
      rfl
    · exact hj
  exact {
    alone := fun j k hj hk => h.alone j k (hsome j hj) (hsome k hk)
    allowed := by
      intro j given path hj
      rw [State.goto_initTrialParameters, htrial]
      rw [State.goto_phase, hphase, Function.update_apply] at hj
      split_ifs at hj with hji
      · subst hji
        obtain ⟨path', hp', hpath⟩ := hcall given path hj
        exact ⟨(h.allowed j given path' hp').1, hpath⟩
      · exact h.allowed j given path hj
    length := by
      rw [State.goto_configured, State.goto_initTrialParameters, hconfigured, htrial]
      exact h.length
    second := by
      rw [State.goto_configured, State.goto_initTrialParameters, hconfigured, htrial]
      exact h.second }

/-- The end of the only call that is under way. -/
theorem Tries.tried {path : Option String} (h : Tries s)
    (hcall : (s.phase i).call = some (given, path)) (hphase : u.phase = s.phase)
    (hconfigured : u.configured = s.configured ∨
      ∃ c, u.configured = s.configured ++ [c] ∧ path = some c.configPath) :
    Tries (u.tried i given) := by
  have hidle : ∀ j, ((u.tried i given).phase j).call = none := by
    intro j
    rw [State.tried_phase, hphase, Function.update_apply]
    split_ifs with hji
    · rfl
    · cases hj : (s.phase j).call with
      | none => rfl
      | some call => exact absurd (h.alone j i (by simp [hj]) (by simp [hcall])) hji
  obtain ⟨hallowed, hpath⟩ := h.allowed i given path hcall
  have hlength := h.length
  have hlimit := limit_lt hallowed
  refine ⟨fun j k hj => ?_, fun j given' path' hj => ?_, ?_, ?_⟩
  · rw [hidle j] at hj
    cases hj
  · rw [hidle j] at hj
    cases hj
  · rw [State.tried_configured, State.tried_initTrialParameters]
    rcases hconfigured with hsame | ⟨c, hmore, -⟩
    · rw [hsame]
      omega
    · rw [hmore, List.length_append, List.length_singleton]
      omega
  · rw [State.tried_configured, State.tried_initTrialParameters]
    intro c d hboth
    have htwo : u.configured.length = 2 := by rw [hboth]; rfl
    rcases hconfigured with hsame | ⟨e, hmore, rfl⟩
    · have hle := limit_le (some given)
      rw [hsame] at htwo
      omega
    · have hlast : some d = some e := by
        have := congrArg List.getLast? (hboth.symm.trans hmore)
        simpa using this
      rw [hmore, List.length_append, List.length_singleton] at htwo
      cases given with
      | none =>
          have hone : limit (some none) = 1 := rfl
          omega
      | some q => rw [Option.some.inj hlast, hpath e.configPath rfl q rfl]

theorem findConfig_given (env : Environment) (path : String) :
    findConfig env (some path) = some path := by
  cases hfile : env.SF_CLIENT_CONFIG_FILE.filter (· ≠ "") <;> simp [findConfig]

/-! ## what a step does to the calls -/

/-- A call goes on with its path or fails, a call is over, or there are other files. -/
inductive Moves (s : State ι) : State ι → Prop
  | goes {i : ι} {given path : Option String} {u : State ι} {phase : Phase}
      (hcall : (s.phase i).call = some (given, path)) (hphase : u.phase = s.phase)
      (htrial : u.initTrialParameters = s.initTrialParameters)
      (hconfigured : u.configured = s.configured)
      (hnext : ∀ given' path', phase.call = some (given', path') →
        given' = given ∧ (path' = path ∨ ∀ p ∈ path', ∀ q ∈ given, p = q)) :
      Moves s (u.goto i phase)
  | tried {i : ι} {given path : Option String} {u : State ι}
      (hcall : (s.phase i).call = some (given, path)) (hphase : u.phase = s.phase)
      (hconfigured : u.configured = s.configured ∨
        ∃ c, u.configured = s.configured ++ [c] ∧ path = some c.configPath) :
      Moves s (u.tried i given)
  | files {t : State ι} (hphase : t.phase = s.phase)
      (htrial : t.initTrialParameters = s.initTrialParameters)
      (hconfigured : t.configured = s.configured) : Moves s t

theorem Moves.go_on {path : Option String} (hcall : (s.phase i).call = some (given, path))
    (hphase : u.phase = s.phase) (htrial : u.initTrialParameters = s.initTrialParameters)
    (hconfigured : u.configured = s.configured)
    (hsame : phase.call = some (given, path)) : Moves s (u.goto i phase) := by
  refine .goes hcall hphase htrial hconfigured fun given' path' hp => ?_
  rw [hsame] at hp
  cases hp
  exact ⟨rfl, .inl rfl⟩

theorem Moves.fail {path : Option String} (hcall : (s.phase i).call = some (given, path))
    (err : Option String) : Moves s (s.goto i (.done err)) :=
  .goes hcall rfl rfl rfl nofun

theorem Moves.finish {path : String} (hcall : (s.phase i).call = some (given, some path))
    (err : Option String) : Moves s (s.finish i given path err) :=
  .go_on (u := s.close) hcall rfl rfl rfl rfl

theorem opened_moves {path : String} {result : Except String Unit}
    (hphase : s.phase i = .opening given path) (hst : opened s i given path result = some t) :
    Moves s t := by
  have hcall : (s.phase i).call = some (given, some path) := by rw [hphase]; rfl
  rw [EasyLogging.opened.eq_def] at hst
  split at hst
  · cases hst
    exact .finish hcall _
  · split at hst
    · cases hst
      exact .go_on hcall rfl rfl rfl rfl
    · cases hst

theorem stated_moves {path : String} {fd : Nat} {result : Except String Stats}
    (hphase : s.phase i = .stating given path fd)
    (hst : stated user s i given path fd result = some t) : Moves s t := by
  have hcall : (s.phase i).call = some (given, some path) := by rw [hphase]; rfl
  rw [EasyLogging.stated.eq_def] at hst
  split at hst
  · cases hst
    exact .finish hcall _
  · split_ifs at hst
    split at hst
    · cases hst
      exact .finish hcall _
    · cases hst
      exact .go_on hcall rfl rfl rfl rfl

theorem read_moves {path : String} {openStats : Stats} {fd : Option Nat} {version : Nat}
    {result : Except String (List Char)}
    (hphase : s.phase i = .reading given path openStats fd version)
    (hst : read s i given path openStats fd version result = some t) : Moves s t := by
  have hcall : (s.phase i).call = some (given, some path) := by rw [hphase]; rfl
  rw [EasyLogging.read.eq_def] at hst
  split at hst
  · cases hst
    exact .finish hcall _
  · split_ifs at hst
    cases hst
    exact .go_on hcall rfl rfl rfl rfl

theorem checked_moves {path : String} {openStats : Stats} {result : Except String Stats}
    (hphase : s.phase i = .checking given path openStats)
    (hst : checked s i given path openStats result = some t) : Moves s t := by
  have hcall : (s.phase i).call = some (given, some path) := by rw [hphase]; rfl
  rw [EasyLogging.checked.eq_def] at hst
  split at hst
  · cases hst
    exact .finish hcall _
  · split_ifs at hst
    · cases hst
      exact .finish hcall _
    · cases hst
      exact .finish hcall _

theorem closed_moves {path : String} {err : Option String} {result : Except String Unit}
    (hphase : s.phase i = .closing given path err) :
    Moves s (closed home s i given path err result) := by
  have hcall : (s.phase i).call = some (given, some path) := by rw [hphase]; rfl
  rw [EasyLogging.closed.eq_def]
  split
  · exact .fail hcall _
  · split
    · exact .fail hcall _
    · exact .tried hcall rfl (.inl rfl)
    · split
      · exact .fail hcall _
      · rename_i config hconfig
        split
        · exact .fail hcall _
        · rename_i settings hsettings
          refine .go_on hcall rfl rfl rfl ?_
          rw [Phase.call, configPath_of_parse hconfig hsettings]

/-- A call is made, or those that are under way move. -/
theorem step_moves {e : Event ι} (hst : step home user s e = some t) :
    (∃ i given, e = .init i given ∧ t = s.goto i
      (if allowedToInitialize s.initTrialParameters given then .finding given else .done none)) ∨
      Moves s t := by
  cases e with
  | init i given =>
      simp only [EasyLogging.step] at hst
      split at hst
      · cases hst
        exact .inl ⟨i, given, rfl, rfl⟩
      · cases hst
  | found i env =>
      simp only [EasyLogging.step] at hst
      split at hst
      · rename_i given hphase
        have hcall : (s.phase i).call = some (given, none) := by rw [hphase]; rfl
        split at hst
        · cases hst
          exact .inr (.tried hcall rfl (.inl rfl))
        · rename_i path hpath
          cases hst
          refine .inr (.goes hcall rfl rfl rfl ?_)
          rintro given' path' ⟨⟩
          refine ⟨rfl, .inr ?_⟩
          rintro p ⟨⟩ q ⟨⟩
          rw [findConfig_given] at hpath
          exact (Option.some.inj (Option.mem_filter_iff.mp hpath).1).symm
      · cases hst
  | opened i result =>
      simp only [EasyLogging.step] at hst
      split at hst
      · rename_i hphase
        exact .inr (opened_moves hphase hst)
      · cases hst
  | stats i result =>
      simp only [EasyLogging.step] at hst
      split at hst
      · rename_i hphase
        exact .inr (stated_moves hphase hst)
      · cases hst
  | read i result =>
      simp only [EasyLogging.step] at hst
      split at hst
      · rename_i hphase
        exact .inr (read_moves hphase hst)
      · cases hst
  | checked i result =>
      simp only [EasyLogging.step] at hst
      split at hst
      · rename_i hphase
        exact .inr (checked_moves hphase hst)
      · cases hst
  | closed i result =>
      simp only [EasyLogging.step] at hst
      split at hst
      · rename_i hphase
        cases hst
        exact .inr (closed_moves hphase)
      · cases hst
  | prepared i result =>
      simp only [EasyLogging.step] at hst
      split at hst
      · rename_i given settings hphase
        have hcall : (s.phase i).call = some (given, some settings.configPath) := by
          rw [hphase]; rfl
        split at hst
        · cases hst
          exact .inr (.fail hcall _)
        · cases hst
          exact .inr (.tried (u := s.configure settings) hcall rfl (.inr ⟨settings, rfl, rfl⟩))
      · cases hst
  | create file =>
      cases hst
      exact .inr (.files rfl rfl rfl)
  | write ino file =>
      simp only [EasyLogging.step] at hst
      split_ifs at hst
      cases hst
      exact .inr (.files rfl rfl rfl)
  | link path entry =>
      cases hst
      exact .inr (.files rfl rfl rfl)

/-! ## every step -/

theorem Tries.moves (h : Tries s) (hst : Moves s t) : Tries t := by
  cases hst with
  | @goes i given path u phase hcall hphase htrial hconfigured hnext =>
      refine h.goto hphase htrial hconfigured fun given' path' hp => ?_
      obtain ⟨rfl, hpath⟩ := hnext given' path' hp
      refine ⟨path, hcall, ?_⟩
      rcases hpath with rfl | hpath
      · exact (h.allowed i given' path' hcall).2
      · exact hpath
  | tried hcall hphase hconfigured => exact h.tried hcall hphase hconfigured
  | files hphase htrial hconfigured =>
      refine ⟨?_, ?_, ?_, ?_⟩
      · rw [hphase]
        exact h.alone
      · rw [hphase, htrial]
        exact h.allowed
      · rw [hconfigured, htrial]
        exact h.length
      · rw [hconfigured, htrial]
        exact h.second

theorem Tries.init (h : Tries s) (hidle : ∀ j, (s.phase j).call = none) (given : Option String) :
    Tries (s.goto i (if allowedToInitialize s.initTrialParameters given then .finding given
      else .done none)) := by
  split_ifs with hallowed
  · have hcall : ∀ j call, ((s.goto i (.finding given)).phase j).call = some call →
        j = i ∧ call = (given, none) := by
      intro j call hj
      rw [State.goto_phase, Function.update_apply] at hj
      split_ifs at hj with hji
      · exact ⟨hji, (Option.some.inj hj).symm⟩
      · rw [hidle j] at hj
        cases hj
    refine ⟨fun j k hj hk => ?_, fun j given' path hj => ?_, h.length, h.second⟩
    · obtain ⟨call, hj⟩ := Option.isSome_iff_exists.mp hj
      obtain ⟨call', hk⟩ := Option.isSome_iff_exists.mp hk
      rw [(hcall j call hj).1, (hcall k call' hk).1]
    · obtain ⟨-, ⟨⟩⟩ := hcall j _ hj
      exact ⟨hallowed, nofun⟩
  · exact h.goto rfl rfl rfl nofun

theorem Tries.step {e : Event ι} (h : Tries s) (hP : Sequential s e)
    (hst : step home user s e = some t) : Tries t := by
  obtain ⟨i, given, rfl, rfl⟩ | hmoves := step_moves hst
  · exact h.init hP given
  · exact h.moves hmoves

/-! ## the last try -/

theorem step_idle {e : Event ι} (hidle : ∀ j, (s.phase j).call = none)
    (hst : step home user s e = some t) :
    t.configured = s.configured ∧ t.initTrialParameters = s.initTrialParameters := by
  obtain ⟨i, given, -, rfl⟩ | hmoves := step_moves hst
  · exact ⟨rfl, rfl⟩
  · cases hmoves with
    | goes hcall | tried hcall =>
        rw [hidle] at hcall
        cases hcall
    | files _ htrial hconfigured => exact ⟨hconfigured, htrial⟩

/-- **Once for good**: connections that come one after the other configure the logger twice at
most, the second time with the file at a path that was given with the connection; and once such a
path has been tried, no later connection configures it. -/
theorem configured_twice (home : String) (user : User) {es : List (Event ι)}
    (hP : Along (step home user) Sequential State.start es)
    (h : exec (step home user) State.start es = some t) :
    t.configured.length ≤ 2 ∧
      (∀ c d, t.configured = [c, d] → t.initTrialParameters = some (some d.configPath)) ∧
      ∀ path, t.initTrialParameters = some (some path) → ∀ fs u,
        Along (step home user) Sequential t fs → exec (step home user) t fs = some u →
        u.configured = t.configured := by
  have ht : Tries t :=
    exec_invariant_of_along (fun _ _ _ hs hP hst => Tries.step hs hP hst) tries_start hP h
  refine ⟨ht.length.trans (limit_le _), ht.second, fun path hlast fs u hfs hu => ?_⟩
  have hstep : ∀ (s : State ι) e s', (Tries s ∧ s.configured = t.configured ∧
      s.initTrialParameters = some (some path)) → Sequential s e →
      step home user s e = some s' → Tries s' ∧ s'.configured = t.configured ∧
        s'.initTrialParameters = some (some path) := by
    rintro s e s' ⟨hs, hconfigured, hlast⟩ hP hst
    obtain ⟨hsame, htrial⟩ := step_idle (hs.idle hlast) hst
    exact ⟨hs.step hP hst, hsame.trans hconfigured, htrial.trans hlast⟩
  exact (exec_invariant_of_along hstep ⟨ht, rfl, hlast⟩ hfs hu).2.1

end

instance {ι : Type*} [Fintype ι] (s : State ι) : ∀ e, Decidable (Sequential s e)
  | .init _ _ => inferInstanceAs (Decidable (∀ j, (s.phase j).call = none))
  | .found _ _ | .opened _ _ | .stats _ _ | .read _ _ | .checked _ _ | .closed _ _ | .prepared _ _
  | .create _ | .write _ _ | .link _ _ => isTrue trivial

/-- A call that nothing disturbs. -/
def wholeCall (i : Bool) (given : Option String) (file : File) : List (Event Bool) :=
  [.init i given, .found i ⟨some "/env.json", [], fun _ => false⟩, .opened i (.ok ()),
    .stats i (.ok file.stats), .read i (.ok file.content), .checked i (.ok file.stats),
    .closed i (.ok ()), .prepared i (.ok ())]

/-- The first connection finds the file of the environment, the second names one. -/
def twoConnections : List (Event Bool) :=
  [.create (levelFile 1 "info"), .create (levelFile 2 "trace"),
    .link "/env.json" (some (.file 0)), .link "/own.json" (some (.file 1))] ++
  wholeCall false none (levelFile 1 "info") ++
  wholeCall true (some "/own.json") (levelFile 2 "trace")

theorem configured_twice_given :
    ∃ t, exec (step "/home/me" ⟨1000, 1000⟩) State.start twoConnections = some t ∧
      t.configured.length = 2 ∧ ∀ fs u,
        Along (step "/home/me" ⟨1000, 1000⟩) Sequential t fs →
        exec (step "/home/me" ⟨1000, 1000⟩) t fs = some u → u.configured = t.configured := by
  obtain ⟨t, ht, hlength, hlast⟩ : ∃ t, exec (step "/home/me" ⟨1000, 1000⟩) State.start
      twoConnections = some t ∧ t.configured.length = 2 ∧
        t.initTrialParameters = some (some "/own.json") := exists_exec (by decide +kernel)
  exact ⟨t, ht, hlength, (configured_twice _ _ (by decide +kernel) ht).2.2 _ hlast⟩

end EasyLogging

end SnowflakeConnector
