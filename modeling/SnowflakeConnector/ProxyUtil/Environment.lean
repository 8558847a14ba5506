import Mathlib

/-!
# SnowflakeConnector.ProxyUtil.Environment

`hideEnvironmentProxy` and `restoreEnvironmentProxy` of `lib/proxy_util.js`, and `createClient` of
`lib/file_transfer_agent/azure_util.js`, which creates a client between the two.  What is hidden
is kept in a variable of the module, in the order of the names.

* `restore_save` -- what was hidden is restored.
* `clients_env` -- when a run of clients leaves the environment as it was.
-/

namespace SnowflakeConnector

namespace ProxyUtil

namespace Environment

/-! ## the environment -/

/-- `process.env`; on Windows names differ by more than their letters' case. -/
structure Platform where
  isWindows : Bool
  deriving DecidableEq, Repr

def upperCase (s : String) : String := String.ofList (s.toList.map Char.toUpper)

def Platform.key (platform : Platform) (name : String) : String :=
  if platform.isWindows = true then upperCase name else name

/-- The variables by their keys. -/
abbrev Env := String → Option String

def Env.get (platform : Platform) (env : Env) (name : String) : Option String :=
  env (platform.key name)

def Env.set (platform : Platform) (env : Env) (name : String) (value : Option String) : Env :=
  Function.update env (platform.key name) value

/-- `Util.getEnvVar`: an empty value does not count. -/
def getEnvVar (platform : Platform) (env : Env) (name : String) : Option String :=
  ((env.get platform name).filter (· ≠ "")).or (env.get platform (upperCase name))

/-! ## hiding and restoring -/

/-- The environment, the variable of the module and the setting `useEnvProxy`. -/
structure State where
  env : Env
  envProxyList : Option (List (Option String))
  useEnvProxy : Bool

def proxyEnvList : List String := ["http_proxy", "https_proxy", "no_proxy"]

/-- The names in the order of the loops: on Windows the upper case is the same variable. -/
def Platform.names (platform : Platform) : List String :=
  proxyEnvList.flatMap fun envVar =>
    if platform.isWindows = true then [envVar] else [envVar, upperCase envVar]

/-- `saveProxyInfoInList`, for one name after the other. -/
def save (platform : Platform) : List String → Env → List (Option String) × Env
  | [], env => ([], env)
  | name :: names, env =>
      let rest := save platform names (env.set platform name none)
      (env.get platform name :: rest.1, rest.2)

/-- The loop of `restoreEnvironmentProxy`; what is not there is not set. -/
def restore (platform : Platform) : List String → List (Option String) → Env → Env
  | [], _, env => env
  | name :: names, values, env =>
      let env :=
        match values.head? with
        | some (some value) => env.set platform name (some value)
        | _ => env
      restore platform names values.tail env

def hideEnvironmentProxy (platform : Platform) (s : State) : State :=
  if s.useEnvProxy = true then s
  else
    let saved := save platform platform.names s.env
    { s with env := saved.2, envProxyList := some saved.1 }

/-- Without a list there is no iterator. -/
def restoreEnvironmentProxy (platform : Platform) (s : State) : Except String State :=
  if s.useEnvProxy = true then .ok s
  else
    match s.envProxyList with
    | none => .error "TypeError: undefined is not iterable"
    | some values => .ok { s with env := restore platform platform.names values s.env }

/-- `createClient`: the constructor reads the environment and may throw. -/
def createClient (platform : Platform) (construct : Env → Except String Unit) (s : State) :
    Except String Unit × State :=
  let s := hideEnvironmentProxy platform s
  match construct s.env with
  | .error err => (.error err, s)
  | .ok () =>
      match restoreEnvironmentProxy platform s with
      | .error err => (.error err, s)
      | .ok s => (.ok (), s)

/-- The creation of one client after the other. -/
def clients (platform : Platform) (s : State) (constructs : List (Env → Except String Unit)) :
    State :=
  constructs.foldl (fun s construct => (createClient platform construct s).2) s

/-! ## what is restored -/

variable {platform : Platform} {env : Env} {names : List String}

/-- An environment without the variables of some names. -/
def without (platform : Platform) (names : List String) (env : Env) : Env := fun key =>
  if key ∈ names.map platform.key then none else env key

theorem save_eq (hnodup : (names.map platform.key).Nodup) :
    save platform names env = (names.map (env.get platform), without platform names env) := by
  induction names generalizing env with
  | nil =>
      have hnil : without platform [] env = env := funext fun key => by simp [without]
      rw [hnil]
      rfl
  | cons name names ih =>
      rw [List.map_cons, List.nodup_cons] at hnodup
      have hothers : names.map ((env.set platform name none).get platform) =
          names.map (env.get platform) := by
        refine List.map_congr_left fun other hother => ?_
        have hne : platform.key other ≠ platform.key name := fun h =>
          hnodup.1 (h ▸ List.mem_map_of_mem hother)
        rw [Env.get, Env.set, Function.update_of_ne hne, Env.get]
      have hwithout : without platform names (env.set platform name none) =
          without platform (name :: names) env := by
        funext key
        by_cases hkey : key = platform.key name
        · simp [without, hkey, Env.set]
        · simp [without, hkey, Env.set]
      rw [save, ih hnodup.2, hothers, hwithout, List.map_cons]

/-- What is restored is what the list has, and what it does not have is left alone. -/
theorem restore_eq (saved : Env) (hnodup : (names.map platform.key).Nodup) :
    restore platform names (names.map (saved.get platform)) env = fun key =>
      if key ∈ names.map platform.key then (saved key).or (env key) else env key := by
  induction names generalizing env with
  | nil => simp [restore]
  | cons name names ih =>
      rw [List.map_cons, List.nodup_cons] at hnodup
      rw [List.map_cons, restore, List.tail_cons, List.head?_cons, ih hnodup.2]
      funext key
      by_cases hkey : key = platform.key name
      · subst hkey
        rw [if_neg hnodup.1, if_pos (by simp)]
        cases hvalue : saved.get platform name with
        | none => simp [show saved (platform.key name) = none from hvalue]
        | some value => simp [show saved (platform.key name) = some value from hvalue, Env.set]
      · cases hvalue : saved.get platform name <;>
          simp [hkey, Env.set]

theorem restore_save (hnodup : (names.map platform.key).Nodup) :
    restore platform names (save platform names env).1 (save platform names env).2 = env := by
  rw [save_eq hnodup, restore_eq env hnodup]
  funext key
  by_cases hkey : key ∈ names.map platform.key <;> simp [without, hkey]

/-- The names are of different variables. -/
theorem Platform.nodup_names (platform : Platform) :
    (platform.names.map platform.key).Nodup := by
  obtain ⟨isWindows⟩ := platform
  cases isWindows <;> decide +kernel

/-! ## a run of clients -/

/-- The environment that the constructor of a client reads. -/
def State.seen (platform : Platform) (s : State) : Env :=
  if s.useEnvProxy = true then s.env else without platform platform.names s.env

theorem hideEnvironmentProxy_env (platform : Platform) (s : State) :
    (hideEnvironmentProxy platform s).env = s.seen platform := by
  rw [hideEnvironmentProxy, State.seen]
  split_ifs
  · rfl
  · rw [save_eq platform.nodup_names]

/-- A client that is created leaves the environment as it was, one that is not as the constructor
has seen it. -/
theorem createClient_env (platform : Platform) (construct : Env → Except String Unit)
    (s : State) :
    (createClient platform construct s).2.env =
        (if (construct (s.seen platform)).isOk = true then s.env else s.seen platform) ∧
      (createClient platform construct s).2.useEnvProxy = s.useEnvProxy := by
  have hseen := hideEnvironmentProxy_env platform s
  rw [createClient, hseen]
  have hkept : (hideEnvironmentProxy platform s).useEnvProxy = s.useEnvProxy := by
    rw [hideEnvironmentProxy]
    split_ifs <;> rfl
  cases construct (s.seen platform) with
  | error err => exact ⟨by simpa [Except.isOk, Except.toBool] using hseen, hkept⟩
  | ok _ =>
      cases huse : s.useEnvProxy with
      | true =>
          simp [restoreEnvironmentProxy, hideEnvironmentProxy, huse, Except.isOk, Except.toBool]
      | false =>
          simp [restoreEnvironmentProxy, hideEnvironmentProxy, huse, Except.isOk, Except.toBool,
            restore_save platform.nodup_names]

/-- Hiding once more hides nothing. -/
theorem without_without : without platform names (without platform names env) =
    without platform names env := by
  funext key
  by_cases hkey : key ∈ names.map platform.key <;> simp [without, hkey]

theorem seen_of_env_eq_seen {s t : State} (huse : t.useEnvProxy = s.useEnvProxy)
    (h : t.env = s.seen platform) : t.seen platform = s.seen platform := by
  rw [State.seen, huse, h, State.seen]
  split_ifs
  · rfl
  · exact without_without

/-- After a run of clients the environment is as it was, or without the proxies where one of them
was not created. -/
theorem clients_eq (platform : Platform) (s : State)
    (constructs : List (Env → Except String Unit)) :
    (clients platform s constructs).env =
        (if constructs.all (fun construct => (construct (s.seen platform)).isOk) = true then s.env
        else s.seen platform) ∧
      (clients platform s constructs).useEnvProxy = s.useEnvProxy := by
  induction constructs generalizing s with
  | nil => exact ⟨rfl, rfl⟩
  | cons construct constructs ih =>
      obtain ⟨henv, huse⟩ := createClient_env platform construct s
      obtain ⟨hrest, huses⟩ := ih (createClient platform construct s).2
      refine ⟨?_, huses.trans huse⟩
      rw [clients, List.foldl_cons, ← clients, hrest, List.all_cons]
      cases hok : (construct (s.seen platform)).isOk with
      | true =>
          rw [hok, if_pos rfl] at henv
          have hseen : (createClient platform construct s).2.seen platform = s.seen platform := by
            rw [State.seen, huse, henv, State.seen]
          rw [hseen, henv, Bool.true_and]
      | false =>
          rw [hok, if_neg Bool.false_ne_true] at henv
          rw [seen_of_env_eq_seen huse henv, henv, Bool.false_and, if_neg Bool.false_ne_true,
            ite_self]

theorem seen_eq_env_iff (s : State) :
    s.seen platform = s.env ↔
      s.useEnvProxy = true ∨ ∀ name ∈ platform.names, s.env.get platform name = none := by
  rw [State.seen]
  split_ifs with huse
  · simp [huse]
  · simp only [huse, Bool.false_eq_true, false_or]
    constructor
    · intro h name hname
      rw [Env.get, ← h, without, if_pos (List.mem_map_of_mem hname)]
    · intro h
      funext key
      by_cases hkey : key ∈ platform.names.map platform.key
      · obtain ⟨name, hname, rfl⟩ := List.mem_map.mp hkey
        rw [without, if_pos hkey]
        exact (h name hname).symm
      · rw [without, if_neg hkey]

/-- A proxy is looked up under names that are hidden. -/
theorem getEnvVar_without {name : String} (hname : name ∈ proxyEnvList) :
    getEnvVar platform (without platform platform.names env) name = none := by
  have hkeys : ∀ platform : Platform, ∀ name ∈ proxyEnvList,
      platform.key name ∈ platform.names.map platform.key ∧
        platform.key (upperCase name) ∈ platform.names.map platform.key := by
    rintro ⟨isWindows⟩
    cases isWindows <;> decide +kernel
  obtain ⟨hlower, hupper⟩ := hkeys platform name hname
  simp [getEnvVar, Env.get, without, hlower, hupper]

/-- After a run of clients the environment is as it was exactly when every client was created, or
no proxy was to be hidden; no constructor reads a proxy that is to be hidden. -/
theorem clients_env (platform : Platform) (s : State)
    (constructs : List (Env → Except String Unit)) :
    ((clients platform s constructs).env = s.env ↔
      s.useEnvProxy = true ∨ (∀ name ∈ platform.names, s.env.get platform name = none) ∨
        ∀ construct ∈ constructs, (construct (s.seen platform)).isOk = true) ∧
    (s.useEnvProxy = true ∨ ∀ name ∈ proxyEnvList,
      getEnvVar platform ((clients platform s constructs).seen platform) name = none) := by
  obtain ⟨henv, huse⟩ := clients_eq platform s constructs
  constructor
  · rw [henv, ← or_assoc, ← seen_eq_env_iff, ← List.all_eq_true]
    split_ifs with hall <;> simp [hall]
  · cases hactive : s.useEnvProxy with
    | true => exact Or.inl rfl
    | false =>
        refine Or.inr fun name hname => ?_
        rw [State.seen, huse, hactive, if_neg Bool.false_ne_true]
        exact getEnvVar_without hname

end Environment

end ProxyUtil

end SnowflakeConnector
