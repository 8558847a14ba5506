import SnowflakeConnector.Util

/-!
# SnowflakeConnector.ProxyUtil

The hosts that are reached without the proxy: `getNoProxyEnv` and `isByPassProxy` of
`lib/proxy_util.js`, and `isBypassProxy` of `lib/http/node_untyped.js`.  Texts are of code units.

* `EntryMatches` -- the hosts that an entry of the list stands for.
* `test_noProxyRegex` -- the hosts that its expression accepts.
* `bypasses_iff` -- when these are the same.
-/

namespace SnowflakeConnector

namespace ProxyUtil

open JsString RegExp Util

/-! ## the code -/

def trim (s : List UInt16) : List UInt16 := (s.dropWhile isSpace).rdropWhile isSpace

/-- The list of an environment variable; an empty one is no list. -/
def getNoProxyEnv (noProxy : Option (List UInt16)) : Option (List UInt16) :=
  match noProxy with
  | some noProxy =>
      if noProxy = [] then none else some ([unit '|'].intercalate (noProxy.splitOn (unit ',')))
  | none => none

/-- What is read of a proxy here. -/
structure Proxy where
  noProxy : Option (List UInt16)

/-- What is reached: a host, or the hosts of an expression. -/
inductive Destination
  | host (name : List UInt16)
  | regExp (accepts : List UInt16 → Bool)

/-- What a character of an entry is turned into. -/
def translate (i : Nat) (char : UInt16) : List UInt16 :=
  if char = unit '*' ∨ char = unit '.' ∧ i = 0 then text ".*" else escapeRegex [char]

/-- The expression of an entry, or nothing where `new RegExp` throws. -/
def noProxyRegex (host : List UInt16) : Option (List (Piece UInt16)) :=
  compile (unit '^' :: assemble translate 0 host ++ [unit '$'])

/-- Whether an entry of the list is for the destination. -/
def isFor (destination : Destination) (noProxy : List UInt16) : Option Bool :=
  match destination with
  | .regExp accepts => some (accepts (trim noProxy))
  | .host name => (noProxyRegex (trim noProxy)).map fun regex => test regex name

/-- The first entry for the destination, with its spaces. -/
def isByPassProxy (proxy : Option Proxy) (destination : Destination) :
    Option (Option (List UInt16)) :=
  match proxy.bind Proxy.noProxy with
  | some noProxy =>
      if noProxy = [] then some none
      else (noProxy.splitOn (unit '|')).findM? (isFor destination)
  | none => some none

/-- An entry that is empty does not count. -/
def isBypassProxy (proxy : Option Proxy) (destination : Destination) : Option Bool :=
  (isByPassProxy proxy destination).map fun found => found.any (· ≠ [])

/-! ## entries -/

/-- A host's name has a character, and none that ends a line. -/
structure HostName where
  name : List UInt16
  nonempty : name ≠ []
  inLine : ∀ c ∈ name, isLineTerminator c = false

/-- The words that a character of an entry stands for. -/
def Takes (char : UInt16) (word : List UInt16) : Prop :=
  if char = unit '*' then True else word = [char]

def StandsFor (entry s : List UInt16) : Prop :=
  ∃ words, List.Forall₂ Takes entry words ∧ words.flatten = s

/-- An entry with a dot at its start is for the hosts that end with it, another one for the hosts
that it stands for. -/
def EntryMatches (entry host : List UInt16) : Prop :=
  if entry.head? = some (unit '.') then ∃ ending, ending <:+ host ∧ StandsFor entry ending
  else StandsFor entry host

/-- The hosts that end with what comes after the dot of an entry. -/
def MatchesDotless (entry host : List UInt16) : Prop :=
  entry.head? = some (unit '.') ∧ ∃ ending, ending <:+ host ∧ StandsFor entry.tail ending

/-- The entries of a list in the form of the driver. -/
def entries (noProxy : List UInt16) : List (List UInt16) := (noProxy.splitOn (unit '|')).map trim

/-- The entries of an environment variable, where a comma separates as the driver's bar does. -/
def environmentEntries (noProxy : List UInt16) : List (List UInt16) :=
  (noProxy.splitOnP fun c => c == unit ',' || c == unit '|').map trim

theorem standsFor_cons {char : UInt16} {entry s : List UInt16} :
    StandsFor (char :: entry) s ↔
      ∃ word rest, Takes char word ∧ StandsFor entry rest ∧ word ++ rest = s := by
  constructor
  · rintro ⟨_, hwords, rfl⟩
    obtain ⟨word, rest, hword, hrest, rfl⟩ := List.forall₂_cons_left_iff.mp hwords
    exact ⟨word, rest.flatten, hword, ⟨rest, hrest, rfl⟩, rfl⟩
  · rintro ⟨word, _, hword, ⟨words, hwords, rfl⟩, rfl⟩
    exact ⟨word :: words, .cons hword hwords, rfl⟩

/-- An entry without a wildcard stands for itself. -/
theorem standsFor_iff_of_notMem {entry s : List UInt16} (h : unit '*' ∉ entry) :
    StandsFor entry s ↔ s = entry := by
  induction entry generalizing s with
  | nil => simp [StandsFor, eq_comm]
  | cons char entry ih =>
      simp only [List.mem_cons, not_or] at h
      simp only [standsFor_cons, ih h.2, Takes, if_neg (Ne.symm h.1)]
      simp [eq_comm]

/-! ## the expression of an entry -/

def notTerminator (c : UInt16) : Bool := !isLineTerminator c

def piecesOf (i : Nat) (char : UInt16) : List (Piece UInt16) :=
  if char = unit '*' ∨ char = unit '.' ∧ i = 0 then [.many notTerminator] else [.one (· == char)]

theorem noProxyRegex_eq (host : List UInt16) :
    noProxyRegex host = some (assemble piecesOf 0 host) := by
  refine compile_assemble (fun i char => ?_) host
  unfold piecesOf translate
  split_ifs
  · exact ⟨[text ".*"], .cons spells_dot.2 .nil, rfl⟩
  · exact ⟨[escapeRegex [char]], .cons (spells_escapeRegex char) .nil, by simp⟩

/-- A wildcard takes no line terminator. -/
def TakesInLine (char : UInt16) (word : List UInt16) : Prop :=
  Takes char word ∧ (char = unit '*' → ∀ c ∈ word, isLineTerminator c = false)

/-- Every piece but that of a dot at the start is one of a character. -/
theorem accepts_piecesOf {i : Nat} {char : UInt16} (h : char = unit '.' → i ≠ 0) :
    ∃ piece, piecesOf i char = [piece] ∧ ∀ word, piece.Accepts word ↔ TakesInLine char word := by
  by_cases hstar : char = unit '*'
  · refine ⟨.many notTerminator, by simp [piecesOf, hstar], fun word => ?_⟩
    simp [TakesInLine, Takes, hstar, notTerminator]
  · refine ⟨.one (· == char), by grind [piecesOf], fun word => ?_⟩
    simp [TakesInLine, Takes, hstar]

/-- In a text of one line this is no restriction. -/
theorem takesInLine_iff {entry : List UInt16} {words : List (List UInt16)}
    (h : ∀ c ∈ words.flatten, isLineTerminator c = false) :
    List.Forall₂ TakesInLine entry words ↔ List.Forall₂ Takes entry words := by
  constructor
  · exact fun hwords => hwords.imp fun _ _ hword => hword.1
  · intro hwords
    induction hwords with
    | nil => exact .nil
    | cons hword _ ih =>
        simp only [List.flatten_cons, List.mem_append] at h
        exact .cons ⟨hword, fun _ c hc => h c (.inl hc)⟩ (ih fun c hc => h c (.inr hc))

theorem test_piecesOf_succ {i : Nat} {entry s : List UInt16}
    (h : ∀ c ∈ s, isLineTerminator c = false) :
    test (assemble piecesOf (i + 1) entry) s = true ↔ StandsFor entry s := by
  rw [test_iff]
  simp only [accepts_assemble_succ (fun i char => accepts_piecesOf fun _ => Nat.succ_ne_zero i)]
  constructor
  · rintro ⟨words, hwords, rfl⟩
    exact ⟨words, (takesInLine_iff h).mp hwords, rfl⟩
  · rintro ⟨words, hwords, rfl⟩
    exact ⟨words, (takesInLine_iff h).mpr hwords, rfl⟩

/-- A host that ends with an entry ends with what comes after its dot. -/
theorem EntryMatches.dotless {entry host : List UInt16} (h : EntryMatches entry host)
    (hdot : entry.head? = some (unit '.')) : MatchesDotless entry host := by
  rw [EntryMatches, if_pos hdot] at h
  obtain ⟨ending, hsuffix, hstands⟩ := h
  obtain ⟨rest, rfl⟩ := List.head?_eq_some_iff.mp hdot
  obtain ⟨word, ending, _, hrest, rfl⟩ := standsFor_cons.mp hstands
  exact ⟨hdot, ending, (List.suffix_append word ending).trans hsuffix, hrest⟩

/-- The hosts that the expression of an entry accepts. -/
theorem test_noProxyRegex (entry : List UInt16) (host : HostName) :
    test (assemble piecesOf 0 entry) host.name = true ↔
      EntryMatches entry host.name ∨ MatchesDotless entry host.name := by
  have hrest : ∀ t u, t ++ u = host.name → ∀ c ∈ u, isLineTerminator c = false :=
    fun t u htu c hc => host.inLine c (htu ▸ List.mem_append_right t hc)
  cases entry with
  | nil => simp [assemble, test_iff, EntryMatches, MatchesDotless, StandsFor]
  | cons char entry =>
      rw [assemble, test_append]
      by_cases hdot : char = unit '.'
      · have hor : EntryMatches (char :: entry) host.name ∨ MatchesDotless (char :: entry) host.name ↔
            MatchesDotless (char :: entry) host.name :=
          or_iff_right_of_imp fun h => h.dotless (by simp [hdot])
        have hpieces : piecesOf 0 char = [.many notTerminator] := by simp [piecesOf, hdot]
        rw [hor, hpieces]
        simp only [test_singleton, Piece.accepts_many, MatchesDotless, hdot, List.head?_cons,
          List.tail_cons, true_and]
        constructor
        · rintro ⟨before, ending, _, hending, hname⟩
          exact ⟨ending, ⟨before, hname⟩, (test_piecesOf_succ (hrest _ _ hname)).mp hending⟩
        · rintro ⟨ending, ⟨before, hname⟩, hending⟩
          refine ⟨before, ending, fun c hc => ?_, (test_piecesOf_succ (hrest _ _ hname)).mpr hending, hname⟩
          simpa [notTerminator] using host.inLine c (hname ▸ List.mem_append_left ending hc)
      · have hhead : (char :: entry).head? ≠ some (unit '.') := by simpa using hdot
        obtain ⟨piece, hpiece, haccepts⟩ := accepts_piecesOf (i := 0) fun h => absurd h hdot
        rw [EntryMatches, if_neg hhead, or_iff_left fun h : MatchesDotless _ _ => hhead h.1, hpiece,
          standsFor_cons]
        simp only [test_singleton, haccepts]
        constructor
        · rintro ⟨word, rest, hword, hrests, hname⟩
          exact ⟨word, rest, hword.1, (test_piecesOf_succ (hrest _ _ hname)).mp hrests, hname⟩
        · rintro ⟨word, rest, hword, hrests, hname⟩
          refine ⟨word, rest, ⟨hword, fun _ c hc => ?_⟩,
            (test_piecesOf_succ (hrest _ _ hname)).mpr hrests, hname⟩
          exact host.inLine c (hname ▸ List.mem_append_left rest hc)

/-! ## the list -/

/-- A search that never fails. -/
theorem findM?_eq_some {β : Type} {f : β → Option Bool} {p : β → Bool} (h : ∀ x, f x = some (p x))
    (l : List β) : l.findM? f = some (l.find? p) := by
  induction l with
  | nil => rfl
  | cons x l ih => cases hx : p x <;> simp [List.findM?, h, hx, ih]

/-- No host is the one of an empty entry. -/
theorem test_nil (host : HostName) : test (assemble piecesOf 0 []) host.name = false := by
  rw [Bool.eq_false_iff]
  intro h
  obtain ⟨words, hwords, hname⟩ := test_iff.mp h
  cases hwords
  exact host.nonempty hname.symm

/-- The proxy is bypassed for the hosts that the expression of an entry accepts. -/
theorem isBypassProxy_eq (noProxy : List UInt16) (host : HostName) :
    isBypassProxy (some ⟨some noProxy⟩) (.host host.name) =
      some ((entries noProxy).any fun entry => test (assemble piecesOf 0 entry) host.name) := by
  have hfor : ∀ entry, isFor (.host host.name) entry =
      some (test (assemble piecesOf 0 (trim entry)) host.name) := by
    intro entry
    rw [isFor, noProxyRegex_eq, Option.map_some]
  simp only [isBypassProxy, isByPassProxy, Option.bind_some]
  split_ifs with hempty
  · simp [hempty, entries, trim, test_nil]
  · simp only [findM?_eq_some hfor, Option.map_some, Option.some.injEq, entries, List.any_map]
    rw [Bool.eq_iff_iff, List.any_eq_true]
    constructor
    · intro hfound
      obtain ⟨entry, hfind, _⟩ := (Option.any_eq_true _ _).mp hfound
      exact ⟨entry, List.mem_of_find?_eq_some hfind, by simpa using List.find?_some hfind⟩
    · rintro ⟨entry, hmem, htest⟩
      have hsome := List.find?_isSome.mpr ⟨entry, hmem, htest⟩
      obtain ⟨found, hfind⟩ := Option.isSome_iff_exists.mp hsome
      have hfoundtest := List.find?_some hfind
      have hne : found ≠ [] := by
        rintro rfl
        simp [trim, test_nil] at hfoundtest
      exact (Option.any_eq_true _ _).mpr ⟨found, hfind, by simp [hne]⟩

/-- Another separator is put in the place of the one that a text is split at. -/
theorem intercalate_splitOn_eq_map (a b : UInt16) (s : List UInt16) :
    [b].intercalate (s.splitOn a) = s.map fun c => if c = a then b else c := by
  induction s with
  | nil => simp [List.splitOn]
  | cons c s ih =>
      obtain ⟨first, rest, hsplit⟩ := List.exists_cons_of_ne_nil (List.splitOnP_ne_nil (· == a) s)
      rw [List.splitOn, hsplit] at ih
      rw [List.splitOn, List.splitOnP_cons_eq_if_modifyHead, hsplit, List.map_cons, ← ih]
      by_cases hc : c = a
      · simp [hc]
      · cases rest <;> simp [hc, List.intercalate]

theorem splitOn_map (a b : UInt16) (s : List UInt16) :
    (s.map fun c => if c = a then b else c).splitOn b =
      s.splitOnP fun c => c == a || c == b := by
  induction s with
  | nil => rfl
  | cons c s ih =>
      rw [List.splitOn] at ih ⊢
      rw [List.map_cons, List.splitOnP_cons_eq_if_modifyHead, List.splitOnP_cons_eq_if_modifyHead, ih]
      by_cases hc : c = a <;> simp [hc]

/-- What is between the bars of the list is what is between the separators of the variable. -/
theorem entries_getNoProxyEnv {noProxy list : List UInt16}
    (h : getNoProxyEnv (some noProxy) = some list) : entries list = environmentEntries noProxy := by
  simp only [getNoProxyEnv] at h
  split_ifs at h with hempty
  obtain rfl := Option.some.inj h
  rw [entries, intercalate_splitOn_eq_map, splitOn_map, environmentEntries]

/-- The proxy is bypassed just for the hosts of the entries. -/
def Follows (noProxy : Option (List UInt16)) (entries : List (List UInt16)) (host : HostName) :
    Prop :=
  ∃ bypass, isBypassProxy (some ⟨noProxy⟩) (.host host.name) = some bypass ∧
    (bypass = true ↔ ∃ entry ∈ entries, EntryMatches entry host.name)

theorem follows_some_iff (noProxy : List UInt16) (host : HostName) :
    Follows (some noProxy) (entries noProxy) host ↔
      ((∃ entry ∈ entries noProxy, MatchesDotless entry host.name) →
        ∃ entry ∈ entries noProxy, EntryMatches entry host.name) := by
  simp only [Follows, isBypassProxy_eq, Option.some.injEq, exists_eq_left', List.any_eq_true,
    test_noProxyRegex]
  grind

/-- Without a list no host is reached without the proxy. -/
theorem follows_none (host : HostName) : Follows none [[]] host := by
  refine ⟨false, rfl, ?_⟩
  simp [EntryMatches, StandsFor, Ne.symm host.nonempty]

/-- The list and the variable are followed exactly where a host that ends with what comes after
the dot of an entry is one that some entry is for. -/
theorem bypasses_iff (noProxy : List UInt16) (host : HostName) :
    (Follows (some noProxy) (entries noProxy) host ↔
      ((∃ entry ∈ entries noProxy, MatchesDotless entry host.name) →
        ∃ entry ∈ entries noProxy, EntryMatches entry host.name)) ∧
    (Follows (getNoProxyEnv (some noProxy)) (environmentEntries noProxy) host ↔
      ((∃ entry ∈ environmentEntries noProxy, MatchesDotless entry host.name) →
        ∃ entry ∈ environmentEntries noProxy, EntryMatches entry host.name)) := by
  refine ⟨follows_some_iff noProxy host, ?_⟩
  by_cases hempty : noProxy = []
  · have hentries : environmentEntries noProxy = [[]] := by rw [hempty]; rfl
    have hnone : getNoProxyEnv (some noProxy) = none := by rw [hempty]; rfl
    rw [hnone, hentries]
    simp [follows_none, MatchesDotless]
  · have hlist : getNoProxyEnv (some noProxy) =
        some ([unit '|'].intercalate (noProxy.splitOn (unit ','))) := by
      rw [getNoProxyEnv, if_neg hempty]
    rw [hlist, ← entries_getNoProxyEnv hlist]
    exact follows_some_iff _ host

/-- `.example.com` is not for `notexample.com`, which is reached without the proxy. -/
theorem isByPassProxy_not_exact :
    ¬ ((∀ noProxy host, Follows (some noProxy) (entries noProxy) host) ∧
      ∀ noProxy host, Follows (getNoProxyEnv (some noProxy)) (environmentEntries noProxy) host) := by
  rintro ⟨h, -⟩
  have hline : (text "notexample.com").all (fun c => !isLineTerminator c) = true := by decide
  let host : HostName :=
    { name := text "notexample.com"
      nonempty := by decide
      inLine := by simpa using hline }
  have hentries : entries (text ".example.com") = [text ".example.com"] := by
    decide +kernel
  have hdotless : MatchesDotless (text ".example.com") host.name := by
    refine ⟨by decide, text "example.com", ⟨text "not", rfl⟩, ?_⟩
    exact (standsFor_iff_of_notMem (by decide)).mpr rfl
  have hmatch := (follows_some_iff (text ".example.com") host).mp (h _ host)
  simp only [hentries, List.mem_singleton, exists_eq_left] at hmatch
  have hentry := hmatch hdotless
  rw [EntryMatches, if_pos (by decide)] at hentry
  obtain ⟨ending, hsuffix, hstands⟩ := hentry
  rw [(standsFor_iff_of_notMem (by decide)).mp hstands] at hsuffix
  have hnot : ¬ text ".example.com" <:+ text "notexample.com" := by decide +kernel
  exact hnot hsuffix

end ProxyUtil

end SnowflakeConnector
