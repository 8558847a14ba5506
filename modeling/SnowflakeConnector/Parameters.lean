import SnowflakeConnector.QueryContextCache

/-!
# SnowflakeConnector.Parameters

`lib/parameters.js`: the session parameters, one table of the module, and what the
connections of a process do with it.  Every login and every answer to a query writes
the parameters it brings; requests, statements and new sessions read them.

A value is typed as the server types it.  One event is what one connection does between
two awaits; the parameters that each connection was sent are kept as a history.

* `connection_isolated` -- two runs in which a connection does the same, and reads no
  parameter that another connection has changed, leave it in the same state.
-/

namespace SnowflakeConnector

/-! ## the table -/

/-- The values of the parameters that are read. -/
structure Parameters where
  serviceName : String
  clientSessionKeepAlive : Bool
  clientSessionKeepAliveHeartbeatFrequency : Nat
  clientStageArrayBindingThreshold : Int
  queryContextCacheSize : Nat
  deriving DecidableEq, Repr

/-- An entry of the parameters that an answer brings. -/
inductive ParameterConfig
  | serviceName (value : String)
  | clientSessionKeepAlive (value : Bool)
  | clientSessionKeepAliveHeartbeatFrequency (value : Nat)
  | clientStageArrayBindingThreshold (value : Int)
  | queryContextCacheSize (value : Nat)
  | other (name : String)
  deriving DecidableEq, Repr

namespace Parameters

/-- The values that the parameters start with. -/
def initial : Parameters where
  serviceName := ""
  clientSessionKeepAlive := false
  clientSessionKeepAliveHeartbeatFrequency := 3600
  clientStageArrayBindingThreshold := 100000
  queryContextCacheSize := 5

def setValue (p : Parameters) : ParameterConfig → Parameters
  | .serviceName value => { p with serviceName := value }
  | .clientSessionKeepAlive value => { p with clientSessionKeepAlive := value }
  | .clientSessionKeepAliveHeartbeatFrequency value =>
      { p with clientSessionKeepAliveHeartbeatFrequency := value }
  | .clientStageArrayBindingThreshold value => { p with clientStageArrayBindingThreshold := value }
  | .queryContextCacheSize value => { p with queryContextCacheSize := value }
  | .other _ => p

/-- Updates the parameter values; a parameter that is not known is ignored. -/
def update (p : Parameters) (parametersConfig : List ParameterConfig) : Parameters :=
  parametersConfig.foldl setValue p

theorem update_append (p : Parameters) (a b : List ParameterConfig) :
    p.update (a ++ b) = (p.update a).update b :=
  List.foldl_append

end Parameters

/-! ## requests -/

/-- The headers of a request. -/
abbrev Headers := List (String × String)

/-- `headers[key] = value`. -/
def Headers.assign (headers : Headers) (key value : String) : Headers :=
  if headers.any (·.1 = key) then headers.map fun x => if x.1 = key then (key, value) else x
  else headers ++ [(key, value)]

/-- `Util.apply`: copy everything from `src`. -/
def Headers.apply (dst src : Headers) : Headers :=
  src.foldl (fun headers x => headers.assign x.1 x.2) dst

/-- A request as it is sent. -/
structure Request where
  url : String
  headers : Headers
  deriving DecidableEq, Repr

/-- What a connection's own configuration says. -/
structure ConnectionSettings where
  accessUrl : String
  clientType : String
  clientVersion : String
  bindThreshold : Option Int
  disableQueryContextCache : Bool
  deriving DecidableEq, Repr

structure Tokens where
  sessionToken : Option String
  masterToken : Option String
  deriving DecidableEq, Repr

/-- `Request.prototype.preprocessOptions`. -/
def preprocessOptions (settings : ConnectionSettings) (url : String) (headers : Headers) : Request where
  url := settings.accessUrl ++ url
  headers := Headers.apply [("Accept", "application/json"), ("Content-Type", "application/json")] headers

/-- A token in the `Authorization` header. -/
def authorization (token : Option String) : String :=
  "Snowflake Token=\"" ++ token.getD "undefined" ++ "\""

/-- `SessionTokenRequest`. -/
def sessionTokenRequest (settings : ConnectionSettings) (tokens : Tokens) (serviceName url : String)
    (headers : Headers) : Request :=
  let request := preprocessOptions settings url headers
  let headers := request.headers.assign "Authorization" (authorization tokens.sessionToken)
  { request with
    headers := if serviceName ≠ "" then headers.assign "X-Snowflake-Service" serviceName else headers }

/-- `MasterTokenRequest`. -/
def masterTokenRequest (settings : ConnectionSettings) (tokens : Tokens) (url : String)
    (headers : Headers) : Request :=
  let request := preprocessOptions settings url headers
  { request with
    headers := request.headers.assign "Authorization" (authorization tokens.masterToken) }

/-- An `UnauthenticatedRequest` that logs in. -/
def loginRequest (settings : ConnectionSettings) (url : String) : Request :=
  let request := preprocessOptions settings url []
  { request with
    headers := request.headers.apply
      [("CLIENT_APP_VERSION", settings.clientVersion), ("CLIENT_APP_ID", settings.clientType)] }

/-- `exports.createStatementPreExec`: the binds go to a stage. -/
def bindsToStage (settings : ConnectionSettings) (threshold : Int) (numBinds : Nat) : Bool :=
  match settings.bindThreshold.filter (· ≠ 0) with
  | some bindThreshold => (numBinds : Int) > bindThreshold
  | none => (numBinds : Int) > threshold

/-! ## the process -/

/-- A connection, with the requests it has sent and its choices between inline and
stage binds. -/
structure Connection (α τ π : Type*) where
  tokens : Tokens
  qcc : Option (QueryContextCache α τ π)
  keepalive : Option Nat
  sent : List Request
  staged : List Bool

/-- The process; `received` are the parameters that each connection was sent. -/
structure Process (ι α τ π : Type*) where
  parameters : Parameters
  connections : ι → Connection α τ π
  received : ι → List ParameterConfig

/-- What a connection does. -/
inductive ConnectionEvent (α τ π : Type*)
  | login (url : String)
  | loginAnswered (tokens : Tokens) (parameters : List ParameterConfig)
  | connected
  | request (url : String) (headers : Headers)
  | heartbeat (url : String)
  | renew (url : String) (headers : Headers)
  | renewed (tokens : Tokens)
  | createStatement (numBinds : Nat)
  | statementAnswered (queryContext : Option (QueryContextCache.Data α τ π))
      (parameters : List ParameterConfig)

namespace Connection

variable {α τ π : Type*}

def create : Connection α τ π := ⟨⟨none, none⟩, none, none, [], []⟩

def send (c : Connection α τ π) (request : Request) : Connection α τ π :=
  { c with sent := c.sent ++ [request] }

variable [LinearOrder π] [DecidableEq α] [LinearOrder τ]

/-- What an event makes of its connection and of the table. -/
def step (settings : ConnectionSettings) (parameters : Parameters) (c : Connection α τ π) :
    ConnectionEvent α τ π → Option (Connection α τ π × List ParameterConfig)
  | .login url => some (c.send (loginRequest settings url), [])
  | .loginAnswered tokens received => some ({ c with tokens }, received)
  | .connected =>
      let qcc := if settings.disableQueryContextCache then c.qcc
        else some (.create parameters.queryContextCacheSize)
      let keepalive := if parameters.clientSessionKeepAlive then
          some (parameters.clientSessionKeepAliveHeartbeatFrequency * 1000) else c.keepalive
      some ({ c with qcc, keepalive }, [])
  | .request url headers =>
      some (c.send (sessionTokenRequest settings c.tokens parameters.serviceName url headers), [])
  | .heartbeat url =>
      if c.keepalive.isSome then
        some (c.send (sessionTokenRequest settings c.tokens parameters.serviceName url []), [])
      else none
  | .renew url headers => some (c.send (masterTokenRequest settings c.tokens url headers), [])
  | .renewed tokens => some ({ c with tokens }, [])
  | .createStatement numBinds =>
      let stage := bindsToStage settings parameters.clientStageArrayBindingThreshold numBinds
      some ({ c with staged := c.staged ++ [stage] }, [])
  | .statementAnswered queryContext received =>
      -- a result that is refreshed does not read the query context again
      let qcc := match queryContext with
        | some data => c.qcc.map (·.deserializeQueryContext data)
        | none => c.qcc
      some ({ c with qcc }, received)

end Connection

namespace Process

variable {ι α τ π : Type*} [DecidableEq ι] [LinearOrder π] [DecidableEq α] [LinearOrder τ]

def create : Process ι α τ π := ⟨.initial, fun _ => .create, fun _ => []⟩

/-- One connection goes on; the parameters it is sent are written to the table. -/
def step (settings : ι → ConnectionSettings) (s : Process ι α τ π) (e : ι × ConnectionEvent α τ π) :
    Option (Process ι α τ π) :=
  ((s.connections e.1).step (settings e.1) s.parameters e.2).map fun x =>
    { parameters := s.parameters.update x.2
      connections := Function.update s.connections e.1 x.1
      received := Function.update s.received e.1 (s.received e.1 ++ x.2) }

/-- The table as it would be if only `i` had been sent parameters. -/
def own (s : Process ι α τ π) (i : ι) : Parameters := Parameters.initial.update (s.received i)

/-- The parameters that an event reads, if any, have the values that its connection was
sent last. -/
def ReadsOwn (settings : ι → ConnectionSettings) (s : Process ι α τ π) (i : ι) :
    ConnectionEvent α τ π → Prop
  | .request _ _ => s.parameters.serviceName = (s.own i).serviceName
  | .heartbeat _ => s.parameters.serviceName = (s.own i).serviceName
  | .connected =>
      ((settings i).disableQueryContextCache = false →
        s.parameters.queryContextCacheSize = (s.own i).queryContextCacheSize) ∧
      s.parameters.clientSessionKeepAlive = (s.own i).clientSessionKeepAlive ∧
      (s.parameters.clientSessionKeepAlive = true →
        s.parameters.clientSessionKeepAliveHeartbeatFrequency =
          (s.own i).clientSessionKeepAliveHeartbeatFrequency)
  | .createStatement _ => (settings i).bindThreshold.filter (· ≠ 0) = none →
      s.parameters.clientStageArrayBindingThreshold = (s.own i).clientStageArrayBindingThreshold
  | _ => True

section

variable {settings : ι → ConnectionSettings} {s : Process ι α τ π} {i : ι}

instance (settings : ι → ConnectionSettings) (s : Process ι α τ π) (i : ι) :
    ∀ e : ConnectionEvent α τ π, Decidable (s.ReadsOwn settings i e)
  | .request _ _ => inferInstanceAs (Decidable (_ = _))
  | .heartbeat _ => inferInstanceAs (Decidable (_ = _))
  | .connected => inferInstanceAs (Decidable ((_ = _ → _ = _) ∧ _ = _ ∧ (_ = _ → _ = _)))
  | .createStatement _ => inferInstanceAs (Decidable (_ = _ → _ = _))
  | .login _ => isTrue trivial
  | .loginAnswered _ _ => isTrue trivial
  | .renew _ _ => isTrue trivial
  | .renewed _ => isTrue trivial
  | .statementAnswered _ _ => isTrue trivial

omit [DecidableEq ι] in
/-- An event that reads only its own parameters does the same with them alone. -/
theorem step_own {e : ConnectionEvent α τ π} (h : s.ReadsOwn settings i e) :
    (s.connections i).step (settings i) (s.own i) e =
      (s.connections i).step (settings i) s.parameters e := by
  cases e with
  | request url headers =>
      have hname : s.parameters.serviceName = (s.own i).serviceName := h
      rw [Connection.step, Connection.step, hname]
  | heartbeat url =>
      have hname : s.parameters.serviceName = (s.own i).serviceName := h
      rw [Connection.step, Connection.step, hname]
  | connected =>
      obtain ⟨hsize, halive, hfrequency⟩ := h
      have hqcc : (if (settings i).disableQueryContextCache then (s.connections i).qcc
            else some (.create (s.own i).queryContextCacheSize)) =
          if (settings i).disableQueryContextCache then (s.connections i).qcc
            else some (.create s.parameters.queryContextCacheSize) := by
        cases hdisable : (settings i).disableQueryContextCache with
        | true => rfl
        | false => rw [hsize hdisable]
      have hkeepalive : (if (s.own i).clientSessionKeepAlive then
            some ((s.own i).clientSessionKeepAliveHeartbeatFrequency * 1000)
            else (s.connections i).keepalive) =
          if s.parameters.clientSessionKeepAlive then
            some (s.parameters.clientSessionKeepAliveHeartbeatFrequency * 1000)
            else (s.connections i).keepalive := by
        rw [← halive]
        cases hon : s.parameters.clientSessionKeepAlive with
        | true => rw [hfrequency hon]
        | false => rw [if_neg Bool.false_ne_true, if_neg Bool.false_ne_true]
      rw [Connection.step, Connection.step, hqcc, hkeepalive]
  | createStatement numBinds =>
      have hbinds : bindsToStage (settings i) (s.own i).clientStageArrayBindingThreshold numBinds =
          bindsToStage (settings i) s.parameters.clientStageArrayBindingThreshold numBinds := by
        unfold bindsToStage
        cases hthreshold : (settings i).bindThreshold.filter (· ≠ 0) with
        | some bindThreshold => rfl
        | none => rw [h hthreshold]
      rw [Connection.step, Connection.step, hbinds]
  | _ => rfl

/-- A run is, for one connection that reads only its own parameters, the run of that
connection alone, whatever the others are configured with. -/
theorem exec_alone {settings' : ι → ConnectionSettings} (i : ι) (hsettings : settings' i = settings i)
    {es : List (ι × ConnectionEvent α τ π)}
    (hown : Lts.Along (step settings) (fun s e => e.1 = i → s.ReadsOwn settings i e.2) create es)
    (h : Lts.exec (step settings) create es = some s) :
    ∃ u, Lts.exec (step settings') create (es.filter (·.1 = i)) = some u ∧
      u.connections i = s.connections i := by
  have hseen : ∀ (s : Process ι α τ π) (e : ι × ConnectionEvent α τ π) (t u : Process ι α τ π),
      (u.connections i = s.connections i ∧ u.received i = s.received i ∧ u.parameters = s.own i) →
      (e.1 = i → s.ReadsOwn settings i e.2) → decide (e.1 = i) = true → step settings s e = some t →
      ∃ v, step settings' u e = some v ∧
        v.connections i = t.connections i ∧ v.received i = t.received i ∧ v.parameters = t.own i := by
    intro s e t u hR hP he hst
    obtain ⟨hconnections, hreceived, hparameters⟩ := hR
    obtain ⟨j, e⟩ := e
    obtain rfl : j = i := of_decide_eq_true he
    obtain ⟨x, hx, rfl⟩ := Option.map_eq_some_iff.mp hst
    have hstep : (u.connections j).step (settings' j) u.parameters e = some x := by
      rw [hconnections, hsettings, hparameters, step_own (hP rfl)]
      exact hx
    refine ⟨_, Option.map_eq_some_iff.mpr ⟨x, hstep, rfl⟩, ?_, ?_, ?_⟩
    · simp
    · simp [hreceived]
    · simp [own, hparameters, Parameters.update_append]
  have hunseen : ∀ (s : Process ι α τ π) (e : ι × ConnectionEvent α τ π) (t u : Process ι α τ π),
      (u.connections i = s.connections i ∧ u.received i = s.received i ∧ u.parameters = s.own i) →
      decide (e.1 = i) = false → step settings s e = some t →
      u.connections i = t.connections i ∧ u.received i = t.received i ∧ u.parameters = t.own i := by
    intro s e t u hR he hst
    have hne : i ≠ e.1 := fun hi => of_decide_eq_false he hi.symm
    obtain ⟨x, hx, rfl⟩ := Option.map_eq_some_iff.mp hst
    simpa [own, Function.update_of_ne hne] using hR
  obtain ⟨u, hu, hconnections, -, -⟩ := Lts.exec_filter hseen hunseen ⟨rfl, rfl, rfl⟩ hown h
  exact ⟨u, hu, hconnections⟩

/-- **Isolation**: in any two runs of a process that agree in what one connection is
configured with and does, and in which it reads only parameters whose values it was
sent last itself, the connection has sent the same requests, chosen the same way
between inline and stage binds, and has the same query context cache. -/
theorem connection_isolated (settings settings' : ι → ConnectionSettings) (i : ι)
    (hsettings : settings i = settings' i) (es es' : List (ι × ConnectionEvent α τ π))
    (hsame : es.filter (·.1 = i) = es'.filter (·.1 = i)) (s s' : Process ι α τ π)
    (hown : Lts.Along (step settings) (fun s e => e.1 = i → s.ReadsOwn settings i e.2) create es)
    (hown' : Lts.Along (step settings') (fun s e => e.1 = i → s.ReadsOwn settings' i e.2) create es')
    (h : Lts.exec (step settings) create es = some s)
    (h' : Lts.exec (step settings') create es' = some s') :
    s.connections i = s'.connections i := by
  obtain ⟨u, hu, hconnections⟩ := exec_alone i hsettings.symm hown h
  have halone' : settings' i = settings' i := rfl
  obtain ⟨u', hu', hconnections'⟩ := exec_alone i halone' hown' h'
  rw [hsame] at hu
  have heq : u = u' := Option.some.inj (hu.symm.trans hu')
  rw [← hconnections, ← hconnections', heq]

end

/-- Two connections to one account, without settings of their own. -/
def sampleSettings (_ : Bool) : ConnectionSettings where
  accessUrl := "https://account"
  clientType := "JavaScript"
  clientVersion := "2"
  bindThreshold := none
  disableQueryContextCache := false

/-- A session that is told a service, a threshold and a cache size, and uses them. -/
def sessionEvents (token service : String) (threshold : Int) (size : Nat) :
    List (ConnectionEvent Nat Nat Nat) :=
  [.login "/session/v1/login-request",
    .loginAnswered ⟨some token, some "master"⟩ [.serviceName service,
      .clientStageArrayBindingThreshold threshold, .queryContextCacheSize size],
    .connected, .createStatement 3, .request "/queries/v1/query-request" []]

/-- The sessions of two connections, one after the other. -/
def sequentialRun : List (Bool × ConnectionEvent Nat Nat Nat) :=
  (sessionEvents "a" "blue" 2 7).map (Prod.mk false) ++ (sessionEvents "b" "green" 9 1).map (Prod.mk true)

theorem connection_isolated_sequential :
    ∃ s s' : Process Bool Nat Nat Nat,
      Lts.exec (step sampleSettings) create sequentialRun = some s ∧
      Lts.exec (step sampleSettings) create ((sessionEvents "b" "green" 9 1).map (Prod.mk true)) = some s' ∧
      s.connections true = s'.connections true := by
  obtain ⟨s, hs, -⟩ : ∃ s, Lts.exec (step sampleSettings) (create : Process Bool Nat Nat Nat)
      sequentialRun = some s ∧ (s.connections false).staged = [true] := Lts.exists_exec (by decide)
  obtain ⟨s', hs', -⟩ : ∃ s, Lts.exec (step sampleSettings) (create : Process Bool Nat Nat Nat)
      ((sessionEvents "b" "green" 9 1).map (Prod.mk true)) = some s ∧
        (s.connections true).staged = [false] := Lts.exists_exec (by decide)
  exact ⟨s, s', hs, hs', connection_isolated sampleSettings sampleSettings true rfl sequentialRun _
    (by rfl) s s' (by decide) (by decide) hs hs'⟩

/-- A connection that is sent no parameters of its own, before and after another one's
login brought some. -/
theorem connection_not_isolated :
    let session : List (Bool × ConnectionEvent Nat Nat Nat) :=
      [(true, .loginAnswered ⟨some "b", some "master"⟩ []), (true, .connected),
        (true, .createStatement 3), (true, .request "/queries/v1/query-request" [])]
    let other : List (Bool × ConnectionEvent Nat Nat Nat) :=
      [(false, .loginAnswered ⟨some "a", some "master"⟩ [.serviceName "blue",
        .clientStageArrayBindingThreshold 2, .queryContextCacheSize 7])]
    (∃ s, Lts.exec (step sampleSettings) (create : Process Bool Nat Nat Nat) session = some s ∧
      ((s.connections true).sent.any fun r => r.headers.any (·.1 = "X-Snowflake-Service")) = false ∧
      (s.connections true).qcc.map (·.capacity) = some 5 ∧ (s.connections true).staged = [false]) ∧
    ∃ s, Lts.exec (step sampleSettings) (create : Process Bool Nat Nat Nat) (other ++ session) = some s ∧
      ((s.connections true).sent.any fun r => decide (("X-Snowflake-Service", "blue") ∈ r.headers)) = true ∧
      (s.connections true).qcc.map (·.capacity) = some 7 ∧ (s.connections true).staged = [true] :=
  ⟨Lts.exists_exec (by decide), Lts.exists_exec (by decide)⟩

end Process

end SnowflakeConnector
