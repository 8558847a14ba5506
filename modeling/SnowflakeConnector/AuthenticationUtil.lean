import SnowflakeConnector.Lts
import SnowflakeConnector.QueryString
import SnowflakeConnector.Util.SmkId

/-!
# SnowflakeConnector.AuthenticationUtil

The browser's way back: the local server of `lib/authentication/authentication_util.js` that an
external browser or an OAuth authorization server redirects to, the race with the timeout of the
browser action, and what `auth_web.js` and `auth_oauth_authorization_code.js` read of the request
line.  Anything on the machine can connect to that server.

* `settled_exec` -- the first redirect, error or timeout decides;
* `token_of_first_redirect` -- the token of a redirect is read back;
* `authorizationCode_iff` -- when the code and the state are;
* `responses_plain` -- no markup of a redirect reaches the browser.
-/

namespace SnowflakeConnector

namespace AuthenticationUtil

open Util QueryString

/-! ## the code -/

/-- What the server is created with, and Node's `unescapeBuffer` and `inspect`, the latter for
what `%s` is given that is no string. -/
structure Options where
  renderer : Option (List Char) → Option (List Char)
  unescapeBuffer : List Char → List Char
  inspect : List (List Char) → List Char

/-- Why the promise is rejected; `renderer` stands for what the handler throws. -/
inductive Failure
  | redirect (message : List Char)
  | renderer
  | socket (code : String)
  | timeout
  deriving DecidableEq, Repr

def escapeHTMLChar (c : Char) : List Char :=
  if c = '&' then "&amp;".toList
  else if c = '<' then "&lt;".toList
  else if c = '>' then "&gt;".toList
  else if c = '"' then "&quot;".toList
  else if c = Char.ofNat 39 then "&#39;".toList
  else [c]

/-- The replacements do not see what an earlier one puts in, `&` being the first. -/
def escapeHTML (value : List Char) : List Char := value.flatMap escapeHTMLChar

/-- `.replace(/\sHTTP\/.*/, '')`. -/
def stripProtocol : List Char → List Char
  | [] => []
  | c :: cs =>
      if isSpace c && "HTTP/".toList.isPrefixOf cs then
        cs.dropWhile fun d => ¬ (['\n', '\r', Char.ofNat 0x2028, Char.ofNat 0x2029].contains d)
      else c :: stripProtocol cs

/-- `line.substring(line.indexOf('?') + 1)`. -/
def afterMark (line : List Char) : List Char :=
  if line.contains '?' then (line.dropWhile (· ≠ '?')).drop 1 else line

/-- What `%s` makes of a parameter. -/
def Options.shown (o : Options) : List (List Char) → List Char
  | [value] => value
  | vs => o.inspect vs

def prepareError (o : Options) (rejected : List Char) : List Char :=
  let errorResponse := parse o.unescapeBuffer (afterMark rejected)
  let errorDescription :=
    match values "error_description".toList errorResponse with
    | [rawDescription] => stripProtocol rawDescription
    | _ => "(no description)".toList
  "Error while getting oauth authorization code. ErrorCode ".toList ++
    o.shown (values "error".toList errorResponse) ++ ". Message: ".toList ++ errorDescription

/-- `chunk.toString().split('\r\n')[0]`. -/
def firstLine : List Char → List Char
  | '\r' :: '\n' :: _ => []
  | c :: cs => c :: firstLine cs
  | [] => []

/-- The error that the handler of a chunk makes of its first line. -/
def lineError (o : Options) (line : List Char) : Option (List Char) :=
  if "?error=".toList <:+: line then some (prepareError o line) else none

def defaultRenderer (error : Option (List Char)) : List Char :=
  error.getD (escapeHTML ("Your identity was confirmed and propagated to Snowflake Node.js " ++
    "driver. You can close this window now and go back where you started from.").toList)

/-- The server and its open sockets, the bodies written to them, and what the race of the promise
and the timeout has settled with. -/
structure State where
  listening : Bool
  sockets : List Nat
  responses : List (List Char)
  settled : Option (Except Failure (List Char))

inductive Event
  | connection (socket : Nat)
  | data (socket : Nat) (chunk : List Char)
  | error (socket : Nat) (code : String)
  | timeout
  deriving DecidableEq, Repr

def start : State := ⟨true, [], [], none⟩

/-- A promise is settled once.  The server is closed when it is. -/
def State.settle (s : State) (outcome : Except Failure (List Char)) : State :=
  { s with listening := false, settled := s.settled.or (some outcome) }

/-- What the handler of a chunk settles the promise with. -/
def received (o : Options) (chunk : List Char) : Except Failure (List Char) :=
  let error := lineError o (firstLine chunk)
  match o.renderer (error.map escapeHTML) with
  | none => .error .renderer
  | some _ =>
      match error with
      | some message => .error (.redirect message)
      | none => .ok (firstLine chunk)

def step (o : Options) (s : State) : Event → Option State
  | .connection socket =>
      if s.listening ∧ socket ∉ s.sockets then some { s with sockets := socket :: s.sockets }
      else none
  | .data socket chunk =>
      if socket ∈ s.sockets then
        let body := o.renderer ((lineError o (firstLine chunk)).map escapeHTML)
        some ({ s with
          sockets := s.sockets.erase socket
          responses := s.responses ++ body.toList }.settle (received o chunk))
      else none
  | .error socket code =>
      if socket ∈ s.sockets then
        let closed := { s with sockets := s.sockets.erase socket }
        some (if code = "ECONNRESET" then closed else closed.settle (.error (.socket code)))
      else none
  | .timeout =>
      -- the timer is cleared once the race has settled
      if s.settled.isNone then some (s.settle (.error .timeout)) else none

/-- `parseToken` of `auth_web.js`; more or less than one value is no text. -/
def parseToken (o : Options) (line : List Char) : List (List Char) :=
  values "/?token".toList (parse o.unescapeBuffer (((line.splitOn ' ')[1]?).getD []))

/-- The code and the state of `requestAuthorizationCode`; without a single state it throws. -/
def authorizationCode (o : Options) (codeResponse : List Char) :
    Option (List (List Char) × List Char) :=
  let parameters := parse o.unescapeBuffer (afterMark codeResponse)
  match values "state".toList parameters with
  | [state] => some (values "code".toList parameters, stripProtocol state)
  | _ => none

/-! ## the race -/

/-- What an event settles the promise with, if it is the first. -/
def settles (o : Options) : Event → Option (Except Failure (List Char))
  | .connection _ => none
  | .data _ chunk => some (received o chunk)
  | .error _ code => if code = "ECONNRESET" then none else some (.error (.socket code))
  | .timeout => some (.error .timeout)

theorem settled_step {o : Options} {s t : State} {e : Event} (h : step o s e = some t) :
    t.settled = s.settled.or (settles o e) := by
  cases e with
  | connection socket =>
      simp only [step, Option.ite_none_right_eq_some, Option.some.injEq] at h
      obtain ⟨-, rfl⟩ := h
      simp [settles]
  | data socket chunk =>
      simp only [step, Option.ite_none_right_eq_some, Option.some.injEq] at h
      obtain ⟨-, rfl⟩ := h
      rfl
  | error socket code =>
      simp only [step, Option.ite_none_right_eq_some, Option.some.injEq] at h
      obtain ⟨-, rfl⟩ := h
      by_cases hreset : code = "ECONNRESET"
      · simp [settles, hreset]
      · simp [settles, hreset, State.settle]
  | timeout =>
      simp only [step, Option.ite_none_right_eq_some, Option.some.injEq] at h
      obtain ⟨-, rfl⟩ := h
      rfl

/-- The first event of a run that settles the promise decides. -/
theorem settled_exec {o : Options} {s t : State} {es : List Event}
    (h : Lts.exec (step o) s es = some t) :
    t.settled = s.settled.or (es.findSome? (settles o)) := by
  induction es generalizing s with
  | nil =>
      cases h
      simp
  | cons e es ih =>
      obtain ⟨u, hu, hrest⟩ := Lts.exec_cons_eq_some.mp h
      rw [ih hrest, settled_step hu, List.findSome?_cons, Option.or_assoc]
      cases settles o e <;> rfl

/-! ## what is read of the request line -/

/-- The request that a browser redirected to this query sends: `query` behind the path `/`. -/
def redirect (query headers : List Char) : List Char :=
  "GET /?".toList ++ (query ++ (" HTTP/1.1".toList ++ ('\r' :: '\n' :: headers)))

theorem firstLine_append {line : List Char} (h : '\r' ∉ line) (rest : List Char) :
    firstLine (line ++ '\r' :: '\n' :: rest) = line := by
  induction line with
  | nil => rfl
  | cons c line ih =>
      rw [List.mem_cons, not_or] at h
      rw [List.cons_append, firstLine, ih h.2]
      rintro _ rfl
      exact absurd rfl h.1

theorem firstLine_redirect {query : List Char} (h : '\r' ∉ query) (headers : List Char) :
    firstLine (redirect query headers) = "GET /?".toList ++ (query ++ " HTTP/1.1".toList) := by
  have hline : '\r' ∉ "GET /?".toList ++ (query ++ " HTTP/1.1".toList) := by simp [h]
  rw [← firstLine_append hline headers, redirect]
  simp only [List.append_assoc]

/-- An error is looked for at the start of the query only, where the line has no other mark. -/
theorem error_infix_iff {query : List Char} (h : '?' ∉ query) :
    "?error=".toList <:+: "GET /?".toList ++ query ↔ "error=".toList <+: query := by
  have hline : "GET /?".toList ++ query = "GET /".toList ++ '?' :: query := rfl
  rw [hline]
  constructor
  · rintro ⟨before, after, heq⟩
    have heq' : before ++ '?' :: ("error=".toList ++ after) = "GET /".toList ++ '?' :: query := by
      simpa using heq
    have hget : '?' ∉ "GET /".toList := by simp
    obtain ⟨-, -, rfl⟩ := (List.append_cons_inj_of_notMem hget h).mp heq'.symm
    exact ⟨after, rfl⟩
  · rintro ⟨after, rfl⟩
    exact ⟨"GET /".toList, after, by simp⟩

/-! ### the SAML token -/

/-- The query of the redirect with a token. -/
def tokenQuery (token : List Char) : List Char := "token=".toList ++ escape token

theorem not_mem_tokenQuery {token : List Char} {c : Char} (h : unreserved c = false)
    (hc : c ≠ '%' ∧ c ≠ '=') : c ∉ tokenQuery token := by
  intro hmem
  obtain hmem | hmem := List.mem_append.mp hmem
  · have hletter : c = 't' ∨ c = 'o' ∨ c = 'k' ∨ c = 'e' ∨ c = 'n' ∨ c = '=' := by
      simpa using hmem
    obtain rfl | rfl | rfl | rfl | rfl | rfl := hletter
    · exact absurd h (by decide)
    · exact absurd h (by decide)
    · exact absurd h (by decide)
    · exact absurd h (by decide)
    · exact absurd h (by decide)
    · exact hc.2 rfl
  · exact not_mem_escape h hc.1 hmem

variable (o : Options)

theorem lineError_token (token : List Char) :
    lineError o ("GET /?".toList ++ (tokenQuery token ++ " HTTP/1.1".toList)) = none := by
  have htoken : '?' ∉ tokenQuery token := not_mem_tokenQuery (by decide) (by decide)
  have hmark : '?' ∉ tokenQuery token ++ " HTTP/1.1".toList := by simp [htoken]
  have herror : ¬ "?error=".toList <:+:
      "GET /?".toList ++ (tokenQuery token ++ " HTTP/1.1".toList) := by
    rw [error_infix_iff hmark, tokenQuery]
    simp [List.cons_prefix_cons]
  exact if_neg herror

/-- The token is read back from the request line. -/
theorem parseToken_redirect (token : List Char) :
    parseToken o ("GET /?".toList ++ (tokenQuery token ++ " HTTP/1.1".toList)) = [token] := by
  have hblank : ' ' ∉ tokenQuery token := not_mem_tokenQuery (by decide) (by decide)
  have hsplit : ("GET /?".toList ++ (tokenQuery token ++ " HTTP/1.1".toList)).splitOn ' ' =
      ["GET".toList, "/?".toList ++ tokenQuery token, "HTTP/1.1".toList] := by
    have hjoin : "GET /?".toList ++ (tokenQuery token ++ " HTTP/1.1".toList) =
        [' '].intercalate
          ["GET".toList, "/?".toList ++ tokenQuery token, "HTTP/1.1".toList] := by
      simp [List.intercalate_cons_cons]
    rw [hjoin]
    refine List.splitOn_intercalate ' ' ?_ (by simp)
    intro part hpart
    simp only [List.mem_cons, List.not_mem_nil, or_false] at hpart
    obtain rfl | rfl | rfl := hpart <;> simp [hblank]
  have hand : '&' ∉ tokenQuery token := not_mem_tokenQuery (by decide) (by decide)
  have hamp : '&' ∉ "/?".toList ++ tokenQuery token := by simp [hand]
  have hpair : parsePair o.unescapeBuffer ("/?".toList ++ tokenQuery token) =
      ("/?token".toList, token) := by
    have heq : "/?".toList ++ tokenQuery token = "/?token".toList ++ '=' :: escape token := by
      simp [tokenQuery]
    rw [heq, parsePair_append _ (by simp), decode_escape, decode_plain _ (by simp) (by simp)]
  have hparse : parse o.unescapeBuffer ("/?".toList ++ tokenQuery token) =
      [("/?token".toList, token)] := by
    rw [parse, List.splitOn_eq_singleton hamp, List.take_of_length_le (by simp [maxKeys]),
      List.filter_eq_self.mpr (by simp), List.map_singleton, hpair]
  rw [parseToken, hsplit]
  simp only [List.getElem?_cons_succ, List.getElem?_cons_zero, Option.getD_some, hparse]
  simp [values]

/-- The default renderer, and nothing that it is not asked for. -/
def defaultOptions : Options := ⟨some ∘ defaultRenderer, id, fun _ => "undefined".toList⟩

/-- The browser asks for something else first, on a connection that is reset. -/
def resetEvents : List Event := [.connection 1, .connection 2, .error 2 "ECONNRESET"]

theorem values_append (key : List Char) (ps qs : List (List Char × List Char)) :
    values key (ps ++ qs) = values key ps ++ values key qs := by
  simp [values]

theorem values_singleton (key : List Char) (p : List Char × List Char) :
    values key [p] = if p.1 = key then [p.2] else [] := by
  by_cases h : p.1 = key <;> simp [values, h]

theorem isSpace_of_unreserved {c : Char} (h : unreserved c = true) : isSpace c = false := by
  have hspaces : ∀ n ∈ [9, 10, 11, 12, 13, 32, 160, 5760, 8192, 8193, 8194, 8195, 8196, 8197, 8198,
      8199, 8200, 8201, 8202, 8232, 8233, 8239, 8287, 12288, 65279],
      unreserved (Char.ofNat n) = false := by decide
  by_contra hspace
  have hmem := of_decide_eq_true (Bool.eq_true_of_not_eq_false hspace)
  have hun := hspaces c.toNat hmem
  rw [Char.ofNat_toNat, h] at hun
  cases hun

/-- The state is made of unreserved characters, and stays when the protocol behind it goes. -/
theorem stripProtocol_append {text : List Char} (h : ∀ c ∈ text, unreserved c = true)
    (rest : List Char) : stripProtocol (text ++ rest) = text ++ stripProtocol rest := by
  induction text with
  | nil => rfl
  | cons c text ih =>
      obtain ⟨hc, htext⟩ := List.forall_mem_cons.mp h
      rw [List.cons_append, stripProtocol, isSpace_of_unreserved hc, ih htext]
      rfl

theorem stripProtocol_of_unreserved {text : List Char} (h : ∀ c ∈ text, unreserved c = true) :
    stripProtocol text = text := by
  simpa [stripProtocol] using stripProtocol_append h []

theorem stripProtocol_protocol {text : List Char} (h : ∀ c ∈ text, unreserved c = true) :
    stripProtocol (text ++ " HTTP/1.1".toList) = text := by
  have hprotocol : stripProtocol " HTTP/1.1".toList = [] := by decide +kernel
  rw [stripProtocol_append h, hprotocol, List.append_nil]

theorem afterMark_append {before : List Char} (h : '?' ∉ before) (rest : List Char) :
    afterMark (before ++ '?' :: rest) = rest := by
  have hkept : ∀ c ∈ before, decide (c ≠ '?') = true := by
    intro c hc
    have hne : c ≠ '?' := fun heq => h (heq ▸ hc)
    simpa using hne
  rw [afterMark, if_pos (by simp), List.dropWhile_append_of_pos hkept]
  simp

/-- The protocol of the request line is read as the end of the last parameter. -/
theorem parse_redirect {path : List Char} (hpath : '?' ∉ path)
    {init : List (List Char × List Char)} {p : List Char × List Char}
    (hlength : (init ++ [p]).length ≤ maxKeys) :
    parse o.unescapeBuffer (afterMark ("GET ".toList ++ path ++
      '?' :: (stringify (init ++ [p]) ++ " HTTP/1.1".toList))) =
      init ++ [(p.1, p.2 ++ " HTTP/1.1".toList)] := by
  rw [afterMark_append (by simp [hpath]), parse_stringify_append _ _ _ (by simp) (by simp) (by simp),
    List.take_of_length_le]
  simpa using hlength

/-- **Authorization code**: the code and the state are read off a redirect as the authorization
server sent them exactly when the code is not its last parameter; otherwise the protocol of the
request line becomes part of the code. -/
theorem authorizationCode_iff (path code state : List Char) (ps : List (List Char × List Char))
    (hpath : '?' ∉ path) (hlength : ps.length ≤ maxKeys)
    (hcode : values "code".toList ps = [code]) (hstate : values "state".toList ps = [state])
    (hunreserved : ∀ c ∈ state, unreserved c = true) :
    authorizationCode o ("GET ".toList ++ path ++ '?' :: (stringify ps ++ " HTTP/1.1".toList)) =
        some ([code], state) ↔
      ∀ p, ps.getLast? = some p → p.1 ≠ "code".toList := by
  have hne : "code".toList ≠ "state".toList := by decide +kernel
  rcases List.eq_nil_or_concat ps with rfl | ⟨init, p, rfl⟩
  · simp [values] at hcode
  · rw [List.concat_eq_append, values_append, values_singleton] at hcode hstate
    rw [List.concat_eq_append] at hlength ⊢
    simp only [authorizationCode, parse_redirect o hpath hlength, values_append, values_singleton,
      List.getLast?_concat, Option.some.injEq, forall_eq']
    by_cases hlast : p.1 = "code".toList
    · -- the value of the last parameter ends with the protocol
      have hother : ¬ p.1 = "state".toList := by rw [hlast]; exact hne
      rw [if_pos hlast] at hcode
      rw [if_neg hother, List.append_nil] at hstate
      rw [if_pos hlast, if_neg hother, List.append_nil, hstate]
      have hlonger : values "code".toList init ++ [p.2 ++ " HTTP/1.1".toList] ≠ [code] := by
        intro heq
        have hsame := (List.append_inj' (heq.trans hcode.symm) rfl).2
        simp at hsame
      refine iff_of_false (fun heq => hlonger ?_) fun h => h hlast
      exact (Prod.mk.inj (Option.some.inj heq)).1
    · rw [if_neg hlast, List.append_nil] at hcode
      rw [if_neg hlast, List.append_nil, hcode]
      refine iff_of_true ?_ hlast
      by_cases hprotocol : p.1 = "state".toList
      · rw [if_pos hprotocol] at hstate ⊢
        have hstate' : values "state".toList init ++ [p.2] = [] ++ [state] := hstate
        obtain ⟨hinit, hvalue⟩ := List.append_inj' hstate' rfl
        obtain rfl : p.2 = state := by simpa using hvalue
        rw [hinit, List.nil_append]
        simp only [stripProtocol_protocol hunreserved]
      · rw [if_neg hprotocol, List.append_nil] at hstate
        rw [if_neg hprotocol, List.append_nil, hstate]
        simp only [stripProtocol_of_unreserved hunreserved]

theorem authorizationCode_code_first :
    authorizationCode defaultOptions ("GET ".toList ++ "/".toList ++
        '?' :: (stringify [("code".toList, "4/0A".toList), ("state".toList, "xyz".toList)] ++
          " HTTP/1.1".toList)) = some (["4/0A".toList], "xyz".toList) := by
  have hlast : ∀ p : List Char × List Char,
      [("code".toList, "4/0A".toList), ("state".toList, "xyz".toList)].getLast? = some p →
        p.1 ≠ "code".toList := by
    rintro p ⟨⟩
    decide +kernel
  refine (authorizationCode_iff defaultOptions "/".toList "4/0A".toList "xyz".toList _ (by simp)
    (by simp [maxKeys]) (by simp [values]) (by simp [values]) ?_).mpr hlast
  simp [unreserved, Char.isAlphanum, Char.isAlpha, Char.isLower]

/-- The other order of the two parameters. -/
example : authorizationCode defaultOptions "GET /?state=xyz&code=4%2F0A HTTP/1.1".toList =
    some (["4/0A HTTP/1.1".toList], "xyz".toList) := by decide +kernel

/-! ## the answer to the browser -/

/-- No character of the text has a meaning in HTML but the mark of a character reference. -/
def Plain (body : List Char) : Prop :=
  '<' ∉ body ∧ '>' ∉ body ∧ '"' ∉ body ∧ Char.ofNat 39 ∉ body

theorem plain_append {a b : List Char} (ha : Plain a) (hb : Plain b) : Plain (a ++ b) := by
  simp only [Plain, List.mem_append, not_or]
  exact ⟨⟨ha.1, hb.1⟩, ⟨ha.2.1, hb.2.1⟩, ⟨ha.2.2.1, hb.2.2.1⟩, ⟨ha.2.2.2, hb.2.2.2⟩⟩

theorem plain_escapeHTMLChar (c : Char) : Plain (escapeHTMLChar c) := by
  unfold escapeHTMLChar
  split_ifs with hamp hless hgreater hquote hapostrophe
  · simp [Plain]
  · simp [Plain]
  · simp [Plain]
  · simp [Plain]
  · simp [Plain]
  · simp only [Plain, List.mem_singleton]
    exact ⟨Ne.symm hless, Ne.symm hgreater, Ne.symm hquote, Ne.symm hapostrophe⟩

theorem plain_escapeHTML (value : List Char) : Plain (escapeHTML value) := by
  induction value with
  | nil => simp [escapeHTML, Plain]
  | cons c value ih =>
      have hcons : escapeHTML (c :: value) = escapeHTMLChar c ++ escapeHTML value :=
        List.flatMap_cons
      rw [hcons]
      exact plain_append (plain_escapeHTMLChar c) ih

theorem plain_defaultRenderer (error : Option (List Char)) :
    Plain (defaultRenderer (error.map escapeHTML)) := by
  cases error with
  | none =>
      rw [Option.map_none, defaultRenderer, Option.getD_none]
      exact plain_escapeHTML _
  | some message => exact plain_escapeHTML message

theorem plain_step {o : Options} (hdefault : o.renderer = some ∘ defaultRenderer) {s t : State}
    {e : Event} (hs : ∀ body ∈ s.responses, Plain body) (hst : step o s e = some t) :
    ∀ body ∈ t.responses, Plain body := by
  intro body hbody
  cases e with
  | connection socket =>
      simp only [step, Option.ite_none_right_eq_some, Option.some.injEq] at hst
      obtain ⟨-, rfl⟩ := hst
      exact hs body hbody
  | data socket chunk =>
      simp only [step, Option.ite_none_right_eq_some, Option.some.injEq] at hst
      obtain ⟨-, rfl⟩ := hst
      simp only [State.settle, hdefault, Function.comp_apply, Option.toList_some, List.mem_append,
        List.mem_singleton] at hbody
      obtain hbody | rfl := hbody
      · exact hs body hbody
      · exact plain_defaultRenderer _
  | error socket code =>
      simp only [step, Option.ite_none_right_eq_some, Option.some.injEq] at hst
      obtain ⟨-, rfl⟩ := hst
      split_ifs at hbody <;> exact hs body hbody
  | timeout =>
      simp only [step, Option.ite_none_right_eq_some, Option.some.injEq] at hst
      obtain ⟨-, rfl⟩ := hst
      exact hs body hbody

/-- **Plain answers**: with the default renderer no body that the server ever writes has markup
in it, whatever the redirects say. -/
theorem responses_plain (o : Options) (hdefault : o.renderer = some ∘ defaultRenderer)
    {es : List Event} {s : State} (hrun : Lts.exec (step o) start es = some s) :
    ∀ body ∈ s.responses, Plain body := by
  have hstep : ∀ s e t, (∀ body ∈ s.responses, Plain body) → step o s e = some t →
      ∀ body ∈ t.responses, Plain body :=
    fun s e t hs hst => plain_step hdefault hs hst
  exact Lts.exec_invariant hstep (by simp [start]) hrun

theorem responses_plain_script :
    ∃ s, Lts.exec (step defaultOptions) start
        [.connection 1, .data 1 (redirect "error=<script>&error_description=no".toList [])] =
          some s ∧ s.responses ≠ [] ∧ ∀ body ∈ s.responses, Plain body := by
  obtain ⟨s, hrun, hne⟩ : ∃ s, Lts.exec (step defaultOptions) start
      [.connection 1, .data 1 (redirect "error=<script>&error_description=no".toList [])] =
        some s ∧ s.responses ≠ [] := ⟨_, rfl, by simp [State.settle, defaultOptions]⟩
  exact ⟨s, hrun, hne, responses_plain defaultOptions rfl hrun⟩

end AuthenticationUtil

end SnowflakeConnector
