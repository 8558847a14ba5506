import Mathlib
import SnowflakeConnector.Lts
import SnowflakeConnector.ProxyUtil
import SnowflakeConnector.CrlValidator

/-!
# SnowflakeConnector.NodeHttpClient

`lib/http/node_untyped.js`: the agents that requests are sent with, and the cache of them that a
connection keeps.  Agents are asked for by the HTTP client, for the host of each url, and by the
clients of S3 and GCS, for a storage host but with the access url of the connection.

An agent is what it was created with.  The url is given by its protocol and its host.

* `createAgentId_inj` -- when two agents of the cache have one id.
* `agents_are_as_created` -- in every run the agent is the one that would be created.
-/

namespace SnowflakeConnector

namespace NodeHttpClient

open JsString ProxyUtil CrlValidator

/-! ## the code -/

/-- The options of a proxy. -/
structure ProxyOptions where
  host : List UInt16
  port : Nat
  protocol : Option (List UInt16)
  user : Option (List UInt16)
  password : Option (List UInt16)
  noProxy : Option (List UInt16)
  useForOCSP : Option Bool
  deriving DecidableEq

/-- What `isByPassProxy` reads of it. -/
def ProxyOptions.toProxy (proxy : ProxyOptions) : Proxy := ⟨proxy.noProxy⟩

inductive AgentClass
  | httpsProxyAgent
  | httpsCrlAgent
  | httpsOcspAgent
  | httpAgent
  deriving DecidableEq, Repr

/-- `agentOptions`. -/
structure AgentOptions where
  protocol : Option (List UInt16)
  hostname : List UInt16
  keepAlive : Bool
  timeout : Nat := 30 * 1000
  crlValidatorConfig : Option CRLValidatorConfig := none
  host : Option (List UInt16) := none
  port : Option Nat := none
  useForOCSP : Option Bool := none
  noProxy : Option (List UInt16) := none
  user : Option (List UInt16) := none
  password : Option (List UInt16) := none

/-- An agent is its class and its options. -/
structure HttpAgent where
  agentClass : AgentClass
  options : AgentOptions

/-- The agents of a connection, by their ids. -/
abbrev AgentCache := List (List UInt16 × HttpAgent)

/-- The protocol of a url. -/
inductive Protocol
  | http
  | https
  deriving DecidableEq, Repr

def Protocol.name : Protocol → List UInt16
  | .http => text "http:"
  | .https => text "https:"

def createAgentId (protocol : Protocol) (hostname destination : List UInt16) (keepAlive : Bool) :
    List UInt16 :=
  [unit '-'].intercalate [protocol.name, hostname, destination,
    if keepAlive = true then text "keepAlive" else text "noKeepAlive"]

def enrichAgentOptionsWithProxyConfig (agentOptions : AgentOptions) (proxy : ProxyOptions) :
    AgentOptions :=
  let agentOptions := { agentOptions with
    host := some proxy.host
    port := some proxy.port
    protocol := proxy.protocol
    useForOCSP := proxy.useForOCSP
    noProxy := proxy.noProxy }
  match proxy.user, proxy.password with
  | some user, some password =>
      if user ≠ [] ∧ password ≠ [] then
        { agentOptions with user := some user, password := some password }
      else agentOptions
  | _, _ => agentOptions

def isCrlValidationEnabled (config : CRLValidatorConfig) : Bool := config.checkMode ≠ .disabled

/-- The agent that `getProxyAgent` creates. -/
def createAgent (crlValidatorConfig : CRLValidatorConfig) (proxyOptions : Option ProxyOptions)
    (bypassProxy : Bool) (protocol : Protocol) (hostname : List UInt16) (keepAlive : Bool) :
    HttpAgent :=
  let agentOptions : AgentOptions := { protocol := some protocol.name, hostname, keepAlive }
  let proxied := if bypassProxy = true then none else proxyOptions
  match protocol, proxied with
  | .https, some proxy =>
      ⟨.httpsProxyAgent, enrichAgentOptionsWithProxyConfig
        { agentOptions with crlValidatorConfig := some crlValidatorConfig } proxy⟩
  | .https, none =>
      ⟨if isCrlValidationEnabled crlValidatorConfig = true then .httpsCrlAgent
        else .httpsOcspAgent,
        { agentOptions with crlValidatorConfig := some crlValidatorConfig }⟩
  | .http, some proxy => ⟨.httpAgent, enrichAgentOptionsWithProxyConfig agentOptions proxy⟩
  | .http, none => ⟨.httpAgent, agentOptions⟩

def getFromCacheOrCreate (agent : HttpAgent) (agentId : List UInt16) (agentCache : AgentCache) :
    HttpAgent × AgentCache :=
  match agentCache.lookup agentId with
  | some cached => (cached, agentCache)
  | none => (agent, agentCache ++ [(agentId, agent)])

/-- The destination is given by its host; nothing where the expression of the list throws. -/
def getProxyAgent (crlValidatorConfig : CRLValidatorConfig) (proxyOptions : Option ProxyOptions)
    (protocol : Protocol) (hostname destination : List UInt16) (keepAlive : Bool)
    (agentCache : AgentCache) : Option (HttpAgent × AgentCache) :=
  (isBypassProxy (proxyOptions.map ProxyOptions.toProxy) (.host destination)).map
    fun bypassProxy =>
      getFromCacheOrCreate
        (createAgent crlValidatorConfig proxyOptions bypassProxy protocol hostname keepAlive)
        (createAgentId protocol hostname destination keepAlive) agentCache

/-! ## the agents of a connection -/

/-- What does not change while a connection asks for agents: its configuration, and the proxies
of the environment for https and for http where they are used. -/
structure Connection where
  accessProtocol : Protocol
  accessHost : List UInt16
  proxy : Option ProxyOptions
  crlValidatorConfig : CRLValidatorConfig
  proxyFromEnv : (isHttps : Bool) → Option ProxyOptions

/-- Who asks: the HTTP client with a url, or the client of a storage with its host. -/
inductive AgentRequest
  | url (protocol : Protocol) (host : List UInt16)
  | storage (destination : List UInt16)

namespace Connection

variable (connection : Connection)

/-- `ProxyUtil.getProxy`. -/
def getProxy (isHttps : Bool) : Option ProxyOptions :=
  connection.proxy <|> connection.proxyFromEnv isHttps

def protocolOf : AgentRequest → Protocol
  | .url protocol _ => protocol
  | .storage _ => connection.accessProtocol

def hostOf : AgentRequest → List UInt16
  | .url _ host => host
  | .storage _ => connection.accessHost

def destinationOf : AgentRequest → List UInt16
  | .url _ host => host
  | .storage destination => destination

/-- The clients of the storages take the proxy for https. -/
def proxyOf : AgentRequest → Option ProxyOptions
  | .url protocol _ => connection.getProxy (protocol = .https)
  | .storage _ => connection.getProxy true

def getAgent (keepAlive : Bool) (agentCache : AgentCache) (request : AgentRequest) :
    Option (HttpAgent × AgentCache) :=
  getProxyAgent connection.crlValidatorConfig (connection.proxyOf request)
    (connection.protocolOf request) (connection.hostOf request)
    (destinationOf request) keepAlive agentCache

end Connection

/-- The agents of a connection, and the setting that new ones are created with. -/
structure State where
  keepAlive : Bool
  agentCache : AgentCache

inductive Event
  | request (request : AgentRequest)
  | setKeepAlive (keepAlive : Bool)
  | destroyAgentCache

def step (connection : Connection) (s : State) : Event → Option State
  | .request request =>
      (connection.getAgent s.keepAlive s.agentCache request).map fun r =>
        { s with agentCache := r.2 }
  | .setKeepAlive keepAlive => some { s with keepAlive }
  | .destroyAgentCache => some { s with agentCache := [] }

/-! ## ids -/

def keepAliveText (keepAlive : Bool) : List UInt16 :=
  if keepAlive = true then text "keepAlive" else text "noKeepAlive"

theorem createAgentId_eq (protocol : Protocol) (hostname destination : List UInt16)
    (keepAlive : Bool) :
    createAgentId protocol hostname destination keepAlive =
      protocol.name ++ (unit '-' :: (hostname ++ unit '-' :: destination) ++ [unit '-']) ++
        keepAliveText keepAlive := by
  simp [createAgentId, keepAliveText, List.intercalate]

/-- The two texts differ before their last letters. -/
theorem keepAliveText_inj {s s' : List UInt16} {keepAlive keepAlive' : Bool}
    (h : s ++ keepAliveText keepAlive = s' ++ keepAliveText keepAlive') :
    keepAlive = keepAlive' := by
  have hlast : ∀ t t' : List UInt16, t ++ text "keepAlive" ≠ t' ++ text "noKeepAlive" := by
    intro t t' h
    rw [show text "noKeepAlive" = text "no" ++ text "KeepAlive" by decide,
      ← List.append_assoc] at h
    exact absurd (List.append_inj' h (by decide)).2 (by decide)
  cases keepAlive <;> cases keepAlive'
  · rfl
  · exact absurd h.symm (hlast _ _)
  · exact absurd h (hlast _ _)
  · rfl

theorem createAgentId_inj {protocol protocol' : Protocol}
    {hostname hostname' destination destination' : List UInt16} {keepAlive keepAlive' : Bool}
    (h : createAgentId protocol hostname destination keepAlive =
      createAgentId protocol' hostname' destination' keepAlive') :
    protocol = protocol' ∧ keepAlive = keepAlive' ∧
      hostname ++ unit '-' :: destination = hostname' ++ unit '-' :: destination' := by
  rw [createAgentId_eq, createAgentId_eq] at h
  obtain rfl := keepAliveText_inj h
  have h := List.append_cancel_right h
  cases protocol <;> cases protocol'
  · have h := List.append_cancel_left h
    simp only [List.append_cancel_right_eq, List.cons.injEq, true_and] at h
    exact ⟨rfl, rfl, h⟩
  · simp [Protocol.name, text, unit] at h
  · simp [Protocol.name, text, unit] at h
  · have h := List.append_cancel_left h
    simp only [List.append_cancel_right_eq, List.cons.injEq, true_and] at h
    exact ⟨rfl, rfl, h⟩

theorem twice_inj {host host' : List UInt16}
    (h : host ++ unit '-' :: host = host' ++ unit '-' :: host') : host = host' := by
  have hlength := congrArg List.length h
  simp only [List.length_append, List.length_cons] at hlength
  exact (List.append_inj h (by omega)).1

/-- A host with another one in the middle, and the same before and after it. -/
def Around (outer inner : List UInt16) : Prop :=
  ∃ side, outer = side ++ unit '-' :: (inner ++ unit '-' :: side)

/-- The host of a url stands in its id twice. -/
theorem hosts_inj {host host' destination' : List UInt16} (h₁ : ¬ Around destination' host')
    (h₂ : ¬ Around host' destination')
    (h : host ++ unit '-' :: host = host' ++ unit '-' :: destination') :
    host = host' ∧ host = destination' := by
  rcases List.append_eq_append_iff.mp h with ⟨rest, hhost', hrest⟩ | ⟨rest, hhost, hrest⟩
  · cases rest with
    | nil => simp_all
    | cons c side =>
        obtain ⟨rfl, (hside : host = side ++ unit '-' :: destination')⟩ := List.cons.inj hrest
        exact absurd ⟨side, by simp [hhost', hside]⟩ h₂
  · cases rest with
    | nil => simp_all
    | cons c side =>
        obtain ⟨rfl, (hside : destination' = side ++ unit '-' :: host)⟩ := List.cons.inj hrest
        exact absurd ⟨side, by simp [hside, hhost]⟩ h₁

/-! ## the agents of a run -/

theorem isBypassProxy_isSome (proxy : Option Proxy) (host : List UInt16) :
    ∃ bypass, isBypassProxy proxy (.host host) = some bypass := by
  have hfor : ∀ entry, isFor (.host host) entry =
      some (RegExp.test (RegExp.assemble piecesOf 0 (trim entry)) host) := by
    intro entry
    rw [isFor, noProxyRegex_eq, Option.map_some]
  rw [isBypassProxy, isByPassProxy]
  split
  · split_ifs
    · exact ⟨_, rfl⟩
    · rw [findM?_eq_some hfor]
      exact ⟨_, rfl⟩
  · exact ⟨_, rfl⟩

namespace Connection

variable {connection : Connection}

/-- The agent that is created for a request. -/
def agentFor (connection : Connection) (keepAlive : Bool) (request : AgentRequest) : HttpAgent :=
  createAgent connection.crlValidatorConfig (connection.proxyOf request)
    ((isBypassProxy ((connection.proxyOf request).map ProxyOptions.toProxy)
      (.host (destinationOf request))).getD false)
    (connection.protocolOf request) (connection.hostOf request) keepAlive

def idOf (connection : Connection) (keepAlive : Bool) (request : AgentRequest) : List UInt16 :=
  createAgentId (connection.protocolOf request) (connection.hostOf request)
    (destinationOf request) keepAlive

theorem getAgent_eq (keepAlive : Bool) (agentCache : AgentCache) (request : AgentRequest) :
    connection.getAgent keepAlive agentCache request =
      some (getFromCacheOrCreate (connection.agentFor keepAlive request)
        (connection.idOf keepAlive request) agentCache) := by
  obtain ⟨bypass, hbypass⟩ := isBypassProxy_isSome
    ((connection.proxyOf request).map ProxyOptions.toProxy) (destinationOf request)
  rw [getAgent, getProxyAgent, agentFor, idOf, hbypass]
  rfl

/-- A storage whose host and that of the access url are not around each other; where they are the
same, the access url is for https, as the proxy of a storage is. -/
def Apart (connection : Connection) : AgentRequest → Prop
  | .url _ _ => True
  | .storage destination =>
      ¬ Around destination connection.accessHost ∧ ¬ Around connection.accessHost destination ∧
        (destination = connection.accessHost → connection.accessProtocol = .https)

/-- An id is that of one agent. -/
theorem agentFor_eq_of_idOf_eq {keepAlive keepAlive' : Bool} {request request' : AgentRequest}
    (h : connection.Apart request) (h' : connection.Apart request')
    (hid : connection.idOf keepAlive request = connection.idOf keepAlive' request') :
    connection.agentFor keepAlive request = connection.agentFor keepAlive' request' := by
  obtain ⟨hprotocol, rfl, hhosts⟩ := createAgentId_inj hid
  -- a url and a storage with one id have the access url's protocol and host
  have hmixed : ∀ host destination, connection.Apart (.storage destination) →
      host ++ unit '-' :: host = connection.accessHost ++ unit '-' :: destination →
      connection.agentFor keepAlive (.url connection.accessProtocol host) =
        connection.agentFor keepAlive (.storage destination) := by
    intro host destination h hhosts
    obtain ⟨rfl, rfl⟩ := hosts_inj h.1 h.2.1 hhosts
    simp [agentFor, proxyOf, protocolOf, hostOf, destinationOf, h.2.2 rfl]
  match request, request' with
  | .url protocol host, .url protocol' host' =>
      obtain rfl : protocol = protocol' := hprotocol
      obtain rfl := twice_inj hhosts
      rfl
  | .url protocol host, .storage destination =>
      obtain rfl : protocol = connection.accessProtocol := hprotocol
      exact hmixed host destination h' hhosts
  | .storage destination, .url protocol host =>
      obtain rfl : connection.accessProtocol = protocol := hprotocol
      exact (hmixed host destination h hhosts.symm).symm
  | .storage destination, .storage destination' =>
      obtain rfl : destination = destination' :=
        (List.cons.inj (List.append_cancel_left hhosts)).2
      rfl

/-- Every agent of the cache was created for a request with its id. -/
def Faithful (connection : Connection) (s : State) : Prop :=
  ∀ e ∈ s.agentCache, ∃ keepAlive request, connection.Apart request ∧
    e = (connection.idOf keepAlive request, connection.agentFor keepAlive request)

theorem Faithful.getFromCacheOrCreate {s : State} (h : connection.Faithful s) {keepAlive : Bool}
    {request : AgentRequest} (hrequest : connection.Apart request) :
    (getFromCacheOrCreate (connection.agentFor keepAlive request)
        (connection.idOf keepAlive request) s.agentCache).1 =
      connection.agentFor keepAlive request ∧
    connection.Faithful { s with agentCache :=
      (NodeHttpClient.getFromCacheOrCreate (connection.agentFor keepAlive request)
        (connection.idOf keepAlive request) s.agentCache).2 } := by
  rw [NodeHttpClient.getFromCacheOrCreate]
  cases hcached : s.agentCache.lookup (connection.idOf keepAlive request) with
  | none =>
      refine ⟨rfl, fun e he => ?_⟩
      rcases List.mem_append.mp he with he | he
      · exact h e he
      · exact ⟨keepAlive, request, hrequest, List.mem_singleton.mp he⟩
  | some cached =>
      obtain ⟨before, after, hcache, -⟩ := List.lookup_eq_some_iff.mp hcached
      have hmem : (connection.idOf keepAlive request, cached) ∈ s.agentCache := by simp [hcache]
      obtain ⟨keepAlive', request', hrequest', he⟩ := h _ hmem
      obtain ⟨hid, rfl⟩ := Prod.mk.inj he
      exact ⟨(agentFor_eq_of_idOf_eq hrequest hrequest' hid).symm, h⟩

theorem Faithful.step {s t : State} {e : Event} (h : connection.Faithful s)
    (he : ∀ request, e = .request request → connection.Apart request)
    (hstep : step connection s e = some t) : connection.Faithful t := by
  cases e with
  | request request =>
      simp only [NodeHttpClient.step, getAgent_eq, Option.map_some, Option.some.injEq] at hstep
      rw [← hstep]
      exact (h.getFromCacheOrCreate (he request rfl)).2
  | setKeepAlive keepAlive =>
      obtain rfl := Option.some.inj hstep
      exact h
  | destroyAgentCache =>
      obtain rfl := Option.some.inj hstep
      exact fun e he => by contradiction

/-- A connection can always ask for an agent. -/
theorem exists_exec (connection : Connection) (s : State) (events : List Event) :
    ∃ t, Lts.exec (NodeHttpClient.step connection) s events = some t := by
  induction events generalizing s with
  | nil => exact ⟨s, rfl⟩
  | cons e events ih =>
      have hstep : ∃ t, NodeHttpClient.step connection s e = some t := by
        cases e with
        | request request => exact ⟨_, by rw [NodeHttpClient.step, getAgent_eq, Option.map_some]⟩
        | setKeepAlive keepAlive => exact ⟨_, rfl⟩
        | destroyAgentCache => exact ⟨_, rfl⟩
      obtain ⟨t, ht⟩ := hstep
      obtain ⟨u, hu⟩ := ih t
      exact ⟨u, by rw [Lts.exec_cons, ht, Option.bind_some, hu]⟩

end Connection

/-- A proxy is used unless it is bypassed. -/
theorem createAgent_host (crlValidatorConfig : CRLValidatorConfig)
    (proxyOptions : Option ProxyOptions) (bypassProxy : Bool) (protocol : Protocol)
    (hostname : List UInt16) (keepAlive : Bool) :
    (createAgent crlValidatorConfig proxyOptions bypassProxy protocol hostname
        keepAlive).options.host =
      if bypassProxy = true then none else proxyOptions.map ProxyOptions.host := by
  have henrich : ∀ options (proxy : ProxyOptions),
      (enrichAgentOptionsWithProxyConfig options proxy).host = some proxy.host := by
    intro options proxy
    rw [enrichAgentOptionsWithProxyConfig]
    split
    · split_ifs <;> rfl
    · rfl
  cases bypassProxy <;> cases proxyOptions <;> cases protocol <;>
    simp [createAgent, henrich]

/-- A connection through a proxy, but for one domain. -/
def exampleConnection : Connection where
  accessProtocol := .https
  accessHost := text "org-acct.snowflakecomputing.com"
  proxy := some
    { host := text "proxy.local"
      port := 3128
      protocol := some (text "http:")
      user := none
      password := none
      noProxy := some (text "*.amazonaws.com")
      useForOCSP := none }
  crlValidatorConfig := ⟨.disabled, false⟩
  proxyFromEnv _ := none

end NodeHttpClient

end SnowflakeConnector
