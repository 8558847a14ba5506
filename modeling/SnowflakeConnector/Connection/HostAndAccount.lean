import SnowflakeConnector.AuthOkta.PostBack
import SnowflakeConnector.Errors

/-!
# SnowflakeConnector.Connection.HostAndAccount

`consolidateHostAndAccount` of `lib/connection/connection_config.js`, which completes the account,
the region, the host and the url in the very object that the user has passed.  A pool passes the
same object for every connection, so the object is completed again and again.

* `pooled_alike_iff` -- when the connections of a pool are all configured alike;
* `host_of_account` -- the host that is made of an account and a region.
-/

namespace SnowflakeConnector

namespace Connection

open AuthOkta

/-! ## the code -/

structure ConnectionOptions where
  account : Option String
  region : Option String
  host : Option String
  accessUrl : Option String
  protocol : Option String
  port : Option String
  deriving DecidableEq, Repr

/-- `\w`. -/
def isWord (c : Char) : Bool := c.isAlphanum || c = '_'

def isSeparator (c : Char) : Bool := c = '.' || c = '-'

/-- `/^\w+([.-]\w+)*$/i`: words with single separators between them. -/
def isCorrectSubdomain (value : String) : Bool :=
  (value.toList.splitOnP isSeparator).all fun word => word ≠ [] && word.all isWord

/-- What is before and behind the first `c`, where `indexOf` is positive. -/
def cutAt (c : Char) (s : String) : Option (String × String) :=
  let before := s.toList.takeWhile (· ≠ c)
  if before ≠ [] ∧ c ∈ s.toList then
    some (String.ofList before, String.ofList ((s.toList.dropWhile (· ≠ c)).drop 1))
  else none

/-- `Errors.checkArgumentValid(false, errorCode)`. -/
def invalidParameter (errorCode : Nat) : Err :=
  Errors.createError .invalidParameterError (.num errorCode) .undefined none none

namespace ConnectionOptions

/-- `Util.format('%s://%s%s', protocol, options.host, port)`. -/
def urlOf (o : ConnectionOptions) (host : String) : String :=
  (o.protocol.filter (· ≠ "")).getD "https" ++ "://" ++ host ++
    match o.port with
    | some port => ":" ++ port
    | none => ""

/-- An account that is not given is the first label of the host. -/
def derivedAccount (o : ConnectionOptions) (realAccount : Option String) (host : String) :
    Option String :=
  match cutAt '.' host with
  | some (label, _) => if o.account.isNone then some label else realAccount
  | none => realAccount

def isGlobal (accessUrl : String) : Bool :=
  ".global.snowflakecomputing.".toList <:+: accessUrl.toList

/-- The end of the function: the account of a global url ends at its first dash. -/
def settle (o : ConnectionOptions) (realAccount realRegion : Option String) : ConnectionOptions :=
  { o with
    account := realAccount.map fun account =>
      if o.accessUrl.any isGlobal then
        match cutAt '-' account with
        | some (label, _) => label
        | none => account
      else account
    region := realRegion }

def realAccount (o : ConnectionOptions) : Option String :=
  o.account.map fun account => ((cutAt '.' account).map (·.1)).getD account

def realRegion (o : ConnectionOptions) : Option String :=
  match o.account.bind (cutAt '.') with
  | some (_, rest) => some rest
  | none => o.region

/-- `hostname` is that of `new URL(url)`, or `none` where the constructor throws.  The region that
is emptied for `us-west-2` is written again at the end. -/
def consolidateHostAndAccount (hostname : String → Option String) (o : ConnectionOptions) :
    Except Err ConnectionOptions :=
  if o.region.any (!isCorrectSubdomain ·) then .error (invalidParameter 404046)
  else if o.account.any (!isCorrectSubdomain ·) then .error (invalidParameter 404045)
  else
    match o.accessUrl, o.host with
    | some accessUrl, _ =>
        match hostname accessUrl with
        | none => .error (invalidParameter 404010)
        | some host =>
            .ok ({ o with host := some (o.host.getD host) }.settle
              (o.derivedAccount o.realAccount host) o.realRegion)
    | none, some host =>
        .ok ({ o with accessUrl := some (o.urlOf host) }.settle
          (o.derivedAccount o.realAccount host) o.realRegion)
    | none, none =>
        match o.realAccount with
        | some account =>
            let host := constructHostname o.realRegion account
            .ok ({ o with host := some host, accessUrl := some (o.urlOf host) }.settle
              (some account) o.realRegion)
        | none => .ok (o.settle none o.realRegion)

/-- The constructor of `ConnectionConfig` as far as it completes the options, which stay as they
are when it throws before the account is looked at. -/
def createConnection (hostname : String → Option String) (o : ConnectionOptions) :
    Except Err ConnectionOptions × ConnectionOptions :=
  match o.consolidateHostAndAccount hostname with
  | .error err => (.error err, o)
  | .ok p =>
      if p.account.isSome then (.ok p, p)
      else (.error (Errors.createError .missingParameterError (.num 404007) .undefined none none), p)

/-- The connections of a pool, all from one object. -/
def createConnections (hostname : String → Option String) :
    Nat → ConnectionOptions → List (Except Err ConnectionOptions)
  | 0, _ => []
  | n + 1, o =>
      (o.createConnection hostname).1 ::
        createConnections hostname n (o.createConnection hostname).2

end ConnectionOptions

/-! ## labels -/

theorem cutAt_eq_some {c : Char} {s label rest : String} (h : cutAt c s = some (label, rest)) :
    s.toList = label.toList ++ c :: rest.toList ∧ label.toList ≠ [] ∧ c ∉ label.toList := by
  simp only [cutAt, Option.ite_none_right_eq_some, Option.some.injEq, Prod.mk.injEq] at h
  obtain ⟨⟨hbefore, hmem⟩, rfl, rfl⟩ := h
  have hnot : c ∉ s.toList.takeWhile (· ≠ c) := by
    intro hc
    simpa using List.mem_takeWhile_imp hc
  refine ⟨?_, by simpa using hbefore, by simpa using hnot⟩
  have hsplit : s.toList.takeWhile (· ≠ c) ++ s.toList.dropWhile (· ≠ c) = s.toList :=
    List.takeWhile_append_dropWhile
  cases hdrop : s.toList.dropWhile (· ≠ c) with
  | nil =>
      rw [hdrop, List.append_nil] at hsplit
      rw [← hsplit] at hmem
      exact absurd hmem hnot
  | cons d rest =>
      have hd : d = c := by
        have hhead := List.head?_dropWhile_not (fun x => decide (x ≠ c)) s.toList
        rw [hdrop] at hhead
        simpa using hhead
      rw [String.toList_ofList, String.toList_ofList, List.drop_one, List.tail_cons, ← hd, ← hdrop,
        hd, hsplit]

theorem cutAt_eq_none {c : Char} {s : String} :
    cutAt c s = none ↔ c ∉ s.toList ∨ s.toList.head? = some c := by
  have hhead : s.toList.takeWhile (· ≠ c) = [] ↔ s.toList = [] ∨ s.toList.head? = some c := by
    cases s.toList with
    | nil => simp
    | cons d cs => by_cases hd : d = c <;> simp [hd]
  rw [cutAt, ite_eq_right_iff]
  simp only [reduceCtorEq, imp_false, not_and_or, not_not, hhead]
  grind

/-- The words of a subdomain are those of its two sides. -/
theorem isCorrectSubdomain_append {c : Char} (hc : isSeparator c = true) {s a b : String}
    (hs : s.toList = a.toList ++ c :: b.toList) (h : isCorrectSubdomain s = true) :
    isCorrectSubdomain a = true ∧ isCorrectSubdomain b = true := by
  rw [isCorrectSubdomain, hs, List.splitOnP_append_cons _ _ hc, List.all_append,
    Bool.and_eq_true] at h
  exact h

theorem isCorrectSubdomain_cutAt {c : Char} (hc : isSeparator c = true) {s label rest : String}
    (hcut : cutAt c s = some (label, rest)) (h : isCorrectSubdomain s = true) :
    isCorrectSubdomain label = true ∧ isCorrectSubdomain rest = true :=
  isCorrectSubdomain_append hc (cutAt_eq_some hcut).1 h

/-- What a label ends at does not matter to a cut elsewhere. -/
theorem cutAt_label {c d : Char} {s label rest : String} (hcut : cutAt c s = some (label, rest))
    (h : cutAt d s = none) : cutAt d label = none := by
  obtain ⟨hs, hlabel, -⟩ := cutAt_eq_some hcut
  rw [cutAt_eq_none] at h ⊢
  obtain ⟨x, xs, hx⟩ := List.exists_cons_of_ne_nil hlabel
  rw [hs, hx] at h
  rw [hx]
  simp only [List.cons_append, List.head?_cons, List.mem_cons, List.mem_append] at h ⊢
  tauto

theorem cutAt_self {c : Char} {s label rest : String} (hcut : cutAt c s = some (label, rest)) :
    cutAt c label = none :=
  cutAt_eq_none.mpr (.inl (cutAt_eq_some hcut).2.2)

/-! ## completing -/

namespace ConnectionOptions

variable {hostname : String → Option String} {o p : ConnectionOptions} {account : String}

/-- What completed options with an account are. -/
structure Complete (o : ConnectionOptions) (account : String) : Prop where
  given : o.account = some account
  region : ∀ region ∈ o.region, isCorrectSubdomain region = true
  host : o.host.isSome
  accessUrl : o.accessUrl.isSome
  label : cutAt '.' account = none
  dash : o.accessUrl.any isGlobal = true → cutAt '-' account = none

theorem realAccount_cut {a : String} (h : o.realAccount = some a) : cutAt '.' a = none := by
  obtain ⟨account, -, rfl⟩ := Option.map_eq_some_iff.mp h
  cases hcut : cutAt '.' account with
  | none => exact hcut
  | some x => exact cutAt_self hcut

theorem derivedAccount_cut {host a : String} (h : o.derivedAccount o.realAccount host = some a) :
    cutAt '.' a = none ∧ (o.account.isSome → o.realAccount = some a) := by
  rw [derivedAccount] at h
  split at h
  · rename_i label rest hcut
    split_ifs at h with hnone
    · obtain rfl := Option.some.inj h
      exact ⟨cutAt_self hcut, fun hsome => by simp_all⟩
    · exact ⟨realAccount_cut h, fun _ => h⟩
  · exact ⟨realAccount_cut h, fun _ => h⟩

/-- The account of a global url has no dash left to end at. -/
theorem settle_account {realAccount realRegion : Option String}
    (hlabel : ∀ a ∈ realAccount, cutAt '.' a = none)
    (h : (o.settle realAccount realRegion).account = some account) :
    cutAt '.' account = none ∧ (o.accessUrl.any isGlobal = true → cutAt '-' account = none) := by
  obtain ⟨a, ha, rfl⟩ := Option.map_eq_some_iff.mp h
  have hdot := hlabel a ha
  split_ifs with hglobal
  · cases hcut : cutAt '-' a with
    | none => exact ⟨hdot, fun _ => hcut⟩
    | some x => exact ⟨cutAt_label hcut hdot, fun _ => cutAt_self hcut⟩
  · exact ⟨hdot, fun hg => absurd hg hglobal⟩

theorem realRegion_correct (hregion : ¬ o.region.any (!isCorrectSubdomain ·) = true)
    (haccount : ¬ o.account.any (!isCorrectSubdomain ·) = true) :
    ∀ region ∈ o.realRegion, isCorrectSubdomain region = true := by
  intro region hmem
  rw [realRegion] at hmem
  split at hmem
  · rename_i label rest hcut
    obtain ⟨account, ha, hcut⟩ := Option.bind_eq_some_iff.mp hcut
    obtain rfl : rest = region := by simpa using hmem
    have hcorrect : isCorrectSubdomain account = true := by simpa [ha] using haccount
    exact (isCorrectSubdomain_cutAt rfl hcut hcorrect).2
  · have hr : o.region = some region := hmem
    simpa [hr] using hregion

theorem valid_of_any {v : Option String} :
    v.any (!isCorrectSubdomain ·) = false ↔ ∀ s ∈ v, isCorrectSubdomain s = true := by
  cases v <;> simp

/-- What is settled in the end: with an account there are a host and a url, and a given account is
taken at its word. -/
theorem consolidate_cases (h : o.consolidateHostAndAccount hostname = .ok p) :
    (¬ o.region.any (!isCorrectSubdomain ·) = true) ∧
      (¬ o.account.any (!isCorrectSubdomain ·) = true) ∧
      ∃ (q : ConnectionOptions) (real : Option String), p = q.settle real o.realRegion ∧
        ∀ a ∈ real, q.host.isSome ∧ q.accessUrl.isSome ∧ cutAt '.' a = none ∧
          (o.account.isSome → o.realAccount = some a) := by
  rw [consolidateHostAndAccount] at h
  split_ifs at h with hregion haccount
  refine ⟨hregion, haccount, ?_⟩
  split at h
  · rename_i accessUrl hurl
    split at h
    · cases h
    · cases h
      exact ⟨_, _, rfl, fun a ha => ⟨rfl, by simp [hurl], derivedAccount_cut ha⟩⟩
  · rename_i host hurl hhost
    cases h
    exact ⟨_, _, rfl, fun a ha => ⟨by simp [hhost], rfl, derivedAccount_cut ha⟩⟩
  · split at h
    · rename_i real hreal
      cases h
      refine ⟨_, _, rfl, ?_⟩
      rintro a ⟨⟩
      exact ⟨rfl, rfl, realAccount_cut hreal, fun _ => hreal⟩
    · cases h
      exact ⟨_, none, rfl, by simp⟩

/-- Completed options with an account are complete. -/
theorem Complete.of_consolidate (h : o.consolidateHostAndAccount hostname = .ok p)
    (haccount : p.account = some account) : p.Complete account := by
  obtain ⟨hregion, hgiven, q, real, rfl, hreal⟩ := consolidate_cases h
  obtain ⟨a, ha, -⟩ := Option.map_eq_some_iff.mp haccount
  obtain ⟨hhost, hurl, -⟩ := hreal a ha
  obtain ⟨hlabel, hdash⟩ := settle_account (fun a ha => (hreal a ha).2.2.1) haccount
  exact ⟨haccount, realRegion_correct hregion hgiven, hhost, hurl, hlabel, hdash⟩

/-- What is left of an account that was given is accepted again. -/
theorem correct_of_given (h : o.consolidateHostAndAccount hostname = .ok p)
    (haccount : p.account = some account) (hsome : o.account.isSome) :
    isCorrectSubdomain account = true := by
  obtain ⟨-, hgiven, q, real, rfl, hreal⟩ := consolidate_cases h
  obtain ⟨a, ha, rfl⟩ := Option.map_eq_some_iff.mp haccount
  have hword : isCorrectSubdomain a = true := by
    obtain ⟨given, hgiven', rfl⟩ := Option.map_eq_some_iff.mp ((hreal a ha).2.2.2 hsome)
    have hcorrect : isCorrectSubdomain given = true := by simpa [hgiven'] using hgiven
    cases hcut : cutAt '.' given with
    | none => exact hcorrect
    | some x => exact (isCorrectSubdomain_cutAt rfl hcut hcorrect).1
  split_ifs
  · cases hcut : cutAt '-' a with
    | none => exact hword
    | some x => exact (isCorrectSubdomain_cutAt rfl hcut hword).1
  · exact hword

/-- What is settled already is not changed. -/
theorem Complete.settle (h : p.Complete account) : p.settle (some account) p.region = p := by
  obtain ⟨given, region, host, accessUrl, protocol, port⟩ := p
  obtain ⟨rfl, -, -, -, -, hdash⟩ := h
  simp only [ConnectionOptions.settle, Option.map_some]
  split_ifs with hglobal
  · rw [hdash hglobal]
  · rfl

/-- Complete options are completed to themselves, where their account and their url are accepted
once more. -/
theorem Complete.consolidate_iff (h : p.Complete account) :
    p.consolidateHostAndAccount hostname = .ok p ↔
      isCorrectSubdomain account = true ∧ (p.accessUrl.bind hostname).isSome := by
  obtain ⟨accessUrl, hurl⟩ := Option.isSome_iff_exists.mp h.accessUrl
  obtain ⟨host, hhost⟩ := Option.isSome_iff_exists.mp h.host
  have hregion : ¬ p.region.any (!isCorrectSubdomain ·) = true := by
    rw [Bool.not_eq_true, valid_of_any]
    exact h.region
  have haccount : p.account.any (!isCorrectSubdomain ·) = !isCorrectSubdomain account := by
    rw [h.given]
    rfl
  have hrealAccount : p.realAccount = some account := by simp [realAccount, h.given, h.label]
  have hrealRegion : p.realRegion = p.region := by simp [realRegion, h.given, h.label]
  have hderived : ∀ name, p.derivedAccount (some account) name = some account := by
    intro name
    rw [derivedAccount]
    split <;> simp [h.given]
  have hsame : { p with host := some host, accessUrl := some accessUrl } = p := by
    rw [← hhost, ← hurl]
  rw [consolidateHostAndAccount, if_neg hregion, haccount, hurl, hrealAccount, hrealRegion, hhost]
  cases hcorrect : isCorrectSubdomain account with
  | false => simp
  | true =>
      cases hname : hostname accessUrl with
      | none => simp [hname]
      | some name => simp [hname, hderived, hsame, h.settle]

/-- Completing options that give an account leaves them as they are when it is done again, if the
url that it made is one; without a given account the one of the host has to be accepted too. -/
theorem consolidate_again_iff (hostname : String → Option String)
    (h : o.consolidateHostAndAccount hostname = .ok p) (haccount : p.account = some account) :
    p.consolidateHostAndAccount hostname = .ok p ↔
      (o.account = none → isCorrectSubdomain account = true) ∧
        (p.accessUrl.bind hostname).isSome := by
  rw [(Complete.of_consolidate h haccount).consolidate_iff]
  refine and_congr_left fun _ => ⟨fun hcorrect _ => hcorrect, fun hcorrect => ?_⟩
  cases hgiven : o.account with
  | none => exact hcorrect hgiven
  | some given => exact correct_of_given h haccount (by simp [hgiven])

/-! ## pools -/

theorem createConnection_eq_ok : (o.createConnection hostname).1 = .ok p ↔
    o.consolidateHostAndAccount hostname = .ok p ∧ p.account.isSome := by
  rw [createConnection]
  split
  · simp [*]
  · split_ifs with hsome
    · rename_i q hq
      simp only [hq, Except.ok.injEq, iff_self_and]
      rintro rfl
      exact hsome
    · rename_i q hq
      simp only [hq, Except.ok.injEq, false_iff, not_and]
      rintro rfl
      exact hsome

theorem createConnection_options (h : (o.createConnection hostname).1 = .ok p) :
    (o.createConnection hostname).2 = p := by
  obtain ⟨hok, haccount⟩ := createConnection_eq_ok.mp h
  rw [createConnection, hok]
  simp [haccount]

/-- **Pools**: the connections of a pool of any size are all configured as its first one exactly
when the url that the first one made of the options is one and, unless they give the account, the
account that it took from the host is accepted. -/
theorem pooled_alike_iff (hostname : String → Option String)
    (h : (o.createConnection hostname).1 = .ok p) (haccount : p.account = some account) :
    (∀ n, ∀ created ∈ createConnections hostname n o, created = .ok p) ↔
      (o.account = none → isCorrectSubdomain account = true) ∧
        (p.accessUrl.bind hostname).isSome := by
  rw [← consolidate_again_iff hostname (createConnection_eq_ok.mp h).1 haccount]
  constructor
  · intro hall
    have hsecond : (p.createConnection hostname).1 = .ok p := by
      refine hall 2 _ ?_
      simp [createConnections, createConnection_options h]
    exact (createConnection_eq_ok.mp hsecond).1
  · intro hagain
    have hagain : (p.createConnection hostname).1 = .ok p :=
      createConnection_eq_ok.mpr ⟨hagain, by simp [haccount]⟩
    have hlater : ∀ n, ∀ created ∈ createConnections hostname n p, created = .ok p := by
      intro n
      induction n with
      | zero => simp [createConnections]
      | succ n ih =>
          rw [createConnections, createConnection_options hagain, hagain]
          exact List.forall_mem_cons.mpr ⟨rfl, ih⟩
    intro n
    cases n with
    | zero => simp [createConnections]
    | succ n =>
        rw [createConnections, createConnection_options h, h]
        exact List.forall_mem_cons.mpr ⟨rfl, hlater n⟩

/-- A host whose first label has two dashes is good for one connection only. -/
theorem pooled_alike_iff_host :
    let url := "https://acme--dev.snowflakecomputing.com"
    ¬ ∀ n, ∀ created ∈ createConnections
        (fun u => if u = url then some "acme--dev.snowflakecomputing.com" else none) n
        ⟨none, none, some "acme--dev.snowflakecomputing.com", none, none, none⟩,
      created = .ok ⟨some "acme--dev", none, some "acme--dev.snowflakecomputing.com",
        some url, none, none⟩ := by
  intro url
  rw [pooled_alike_iff _ rfl rfl]
  decide

/-! ## the host of an account -/

/-- A character of a host name. -/
def IsHostChar (c : Char) : Prop := isWord c = true ∨ isSeparator c = true

instance (c : Char) : Decidable (IsHostChar c) := inferInstanceAs (Decidable (_ ∨ _))

theorem mem_splitOnP {c : Char} {cs : List Char} (h : c ∈ cs) (hc : isSeparator c = false) :
    ∃ word ∈ cs.splitOnP isSeparator, c ∈ word := by
  induction cs with
  | nil => cases h
  | cons d cs ih =>
      obtain ⟨first, rest, hsplit⟩ :=
        List.exists_cons_of_ne_nil (List.splitOnP_ne_nil isSeparator cs)
      rw [List.splitOnP_cons_eq_if_modifyHead]
      rw [hsplit] at ih ⊢
      obtain rfl | h := List.mem_cons.mp h
      · simp [hc]
      · obtain ⟨word, hword, hmem⟩ := ih h
        split_ifs
        · exact ⟨word, List.mem_cons_of_mem _ hword, hmem⟩
        · obtain rfl | hword := List.mem_cons.mp hword
          · exact ⟨d :: word, .head _, List.mem_cons_of_mem _ hmem⟩
          · exact ⟨word, .tail _ hword, hmem⟩

theorem isHostChar_of_correct {s : String} (h : isCorrectSubdomain s = true) :
    ∀ c ∈ s.toList, IsHostChar c := by
  intro c hc
  cases hsep : isSeparator c with
  | true => exact .inr hsep
  | false =>
      obtain ⟨word, hword, hmem⟩ := mem_splitOnP hc hsep
      have hall := List.all_eq_true.mp h word hword
      simp only [Bool.and_eq_true, List.all_eq_true] at hall
      exact .inl (hall.2 c hmem)

/-- The ends of a host that is made by the driver. -/
def IsDomain (s : List Char) : Prop :=
  s = ".snowflakecomputing.com".toList ∨ s = ".snowflakecomputing.cn".toList

/-- Names of hosts before a domain of the vendor. -/
def OfVendor (host : String) : Prop :=
  ∃ name domain : List Char, host.toList = name ++ domain ∧ IsDomain domain ∧
    ∀ c ∈ name, IsHostChar c

theorem OfVendor.of_append {name domain : String} (hdomain : IsDomain domain.toList)
    (hname : ∀ c ∈ name.toList, IsHostChar c) : OfVendor (name ++ domain) :=
  ⟨_, _, String.toList_append, hdomain, hname⟩

theorem isHostChar_substring {s : List Char} (h : ∀ c ∈ s, IsHostChar c) (start stop : Nat) :
    ∀ c ∈ substring s start stop, IsHostChar c :=
  fun c hc => h c (List.drop_subset _ _ (List.take_subset _ _ hc))

/-- A host that is made of an account and a region. -/
theorem constructHostname_spec {region : Option String} {account : String}
    (hregion : ∀ r ∈ region, ∀ c ∈ r.toList, IsHostChar c)
    (haccount : ∀ c ∈ account.toList, IsHostChar c) :
    OfVendor (constructHostname region account) := by
  unfold constructHostname
  split
  · exact .of_append (.inl rfl) haccount
  · exact .of_append (.inl rfl) haccount
  · rename_i region _
    have hname : ∀ label : String, (∀ c ∈ label.toList, IsHostChar c) →
        OfVendor (if region.startsWith "cn-" || region.startsWith "CN-" then
          label ++ "." ++ region ++ ".snowflakecomputing.cn"
        else label ++ "." ++ region ++ ".snowflakecomputing.com") := by
      intro label hlabel
      have hcut : ∀ c ∈ (label ++ "." ++ region).toList, IsHostChar c := by
        rw [String.toList_append, String.toList_append]
        refine List.forall_mem_append.mpr ⟨List.forall_mem_append.mpr ⟨hlabel, ?_⟩, hregion _ rfl⟩
        exact List.forall_mem_singleton.mpr (.inr rfl)
      split_ifs
      · exact .of_append (.inr rfl) hcut
      · exact .of_append (.inl rfl) hcut
    refine hname _ ?_
    split
    · exact haccount
    · exact haccount
    · rw [String.toList_ofList]
      exact isHostChar_substring haccount 0 _

theorem host_of_consolidate (h : o.consolidateHostAndAccount hostname = .ok p)
    (haccount : o.account = some account) (hurl : o.accessUrl = none) (hhost : o.host = none) :
    ∃ host, OfVendor host ∧ p.host = some host ∧ p.accessUrl = some (o.urlOf host) := by
  obtain ⟨hregion, hgiven, -⟩ := consolidate_cases h
  have hcorrect : isCorrectSubdomain account = true := by simpa [haccount] using hgiven
  have hlabel : isCorrectSubdomain (((cutAt '.' account).map (·.1)).getD account) = true := by
    cases hcut : cutAt '.' account with
    | none => exact hcorrect
    | some x => exact (isCorrectSubdomain_cutAt rfl hcut hcorrect).1
  have hreal : o.realAccount = some (((cutAt '.' account).map (·.1)).getD account) := by
    rw [realAccount, haccount, Option.map_some]
  rw [consolidateHostAndAccount, if_neg hregion, if_neg hgiven, hurl, hhost, hreal] at h
  cases h
  refine ⟨_, constructHostname_spec ?_ (isHostChar_of_correct hlabel), rfl, rfl⟩
  exact fun r hr => isHostChar_of_correct (realRegion_correct hregion hgiven r hr)

/-- A host and a url that are there stay. -/
theorem host_kept {host url : String} (hhost : o.host = some host) (hurl : o.accessUrl = some url)
    (h : o.consolidateHostAndAccount hostname = .ok p) :
    p.host = some host ∧ p.accessUrl = some url := by
  rw [consolidateHostAndAccount, hhost, hurl] at h
  split_ifs at h
  split at h
  · rename_i accessUrl _ heq
    obtain rfl := Option.some.inj heq
    split at h
    · cases h
    · cases h
      exact ⟨rfl, rfl⟩
  · rename_i heq _
    cases heq
  · rename_i heq _
    cases heq

/-- What the options are after a connection is created of them, or after that has failed. -/
theorem createConnection_snd (hostname : String → Option String) (o : ConnectionOptions) :
    (o.createConnection hostname).2 = o ∨
    o.consolidateHostAndAccount hostname = .ok (o.createConnection hostname).2 := by
  rw [createConnection]
  split
  · exact .inl rfl
  · rename_i q hq
    right
    split_ifs
    · exact hq
    · exact hq

theorem createConnections_host {host url : String} (hhost : o.host = some host)
    (hurl : o.accessUrl = some url) (n : Nat) :
    ∀ created ∈ createConnections hostname n o, ∀ p, created = .ok p →
      p.host = some host ∧ p.accessUrl = some url := by
  induction n generalizing o with
  | zero => simp [createConnections]
  | succ n ih =>
      have hnext : (o.createConnection hostname).2.host = some host ∧
          (o.createConnection hostname).2.accessUrl = some url := by
        rcases createConnection_snd hostname o with hsame | hok
        · rw [hsame]
          exact ⟨hhost, hurl⟩
        · exact host_kept hhost hurl hok
      rw [createConnections]
      refine List.forall_mem_cons.mpr ⟨fun p hp => ?_, ih hnext.1 hnext.2⟩
      exact host_kept hhost hurl (createConnection_eq_ok.mp hp).1

/-- **Hosts**: whatever account and region are accepted, every connection of a pool of any size
talks to one host, which belongs to the vendor, and its url is that of the host: no other
character than those of host names gets in. -/
theorem host_of_account (hostname : String → Option String) (haccount : o.account = some account)
    (hurl : o.accessUrl = none) (hhost : o.host = none) :
    ∃ host, OfVendor host ∧ ∀ n, ∀ created ∈ createConnections hostname n o, ∀ p,
      created = .ok p → p.host = some host ∧ p.accessUrl = some (o.urlOf host) := by
  cases hfirst : o.consolidateHostAndAccount hostname with
  | error err =>
      have hall : ∀ n, ∀ created ∈ createConnections hostname n o, created = .error err := by
        intro n
        induction n with
        | zero => simp [createConnections]
        | succ n ih =>
            have hfails : o.createConnection hostname = (.error err, o) := by
              rw [createConnection, hfirst]
            rw [createConnections, hfails]
            exact List.forall_mem_cons.mpr ⟨rfl, ih⟩
      refine ⟨"" ++ ".snowflakecomputing.com", .of_append (.inl rfl) (by simp), ?_⟩
      intro n created hmem p hp
      rw [hall n created hmem] at hp
      cases hp
  | ok q =>
      obtain ⟨host, hvendor, hq⟩ := host_of_consolidate hfirst haccount hurl hhost
      refine ⟨host, hvendor, fun n => ?_⟩
      have hnext : (o.createConnection hostname).2 = q := by
        rw [createConnection, hfirst]
        exact apply_ite Prod.snd _ _ _ |>.trans (ite_self q)
      cases n with
      | zero => simp [createConnections]
      | succ n =>
          rw [createConnections, hnext]
          refine List.forall_mem_cons.mpr ⟨fun p hp => ?_, createConnections_host hq.1 hq.2 n⟩
          obtain rfl : q = p :=
            Except.ok.inj (hfirst.symm.trans (createConnection_eq_ok.mp hp).1)
          exact hq

/-- The region may stand in the account. -/
theorem host_of_account_region :
    let url := "https://acme.cn-north-1.snowflakecomputing.cn:8080"
    ∃ host, OfVendor host ∧ ∀ n, ∀ created ∈ createConnections
        (fun u => if u = url then some "acme.cn-north-1.snowflakecomputing.cn" else none) n
        ⟨some "acme.cn-north-1", none, none, none, none, some "8080"⟩, ∀ p, created = .ok p →
      p.host = some host ∧ p.accessUrl = some ("https://" ++ host ++ ":8080") :=
  host_of_account _ rfl rfl rfl

end ConnectionOptions

end Connection

end SnowflakeConnector
