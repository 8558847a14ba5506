import SnowflakeConnector.Util

/-!
# SnowflakeConnector.FileUtil

The wildcards of a PUT: `globToRegex` and `getMatchingFilePaths` of `lib/file_util.js`.  A
character is one of a JavaScript string, a code unit.

* `GlobMatches` -- the names that a pattern stands for, a wildcard at its start never for a dot.
* `test_patternPieces` -- the names that its expression accepts.
* `matchesExactly_iff` -- when these are the same.
-/

namespace SnowflakeConnector

namespace FileUtil

open JsString RegExp Util

/-! ## the code -/

/-- What a character of the pattern is turned into. -/
def translate (i : Nat) (char : UInt16) : List UInt16 :=
  if char = unit '*' then
    if i = 0 then text "[^.].*" else text ".*"
  else if char = unit '?' then
    if i = 0 then text "[^.]" else text "."
  else escapeRegex [char]

def regexPattern (pattern : List UInt16) : List UInt16 := assemble translate 0 pattern

/-- The expression, or nothing where `new RegExp` throws. -/
def globToRegex (pattern : List UInt16) : Option (List (Piece UInt16)) :=
  compile (unit '^' :: regexPattern pattern ++ [unit '$'])

/-- The paths of the directory's files whose names match; a directory that is not read has none. -/
def getMatchingFilePaths (readdirSync : List UInt16 → Option (List (List UInt16)))
    (join : List UInt16 → List UInt16 → List UInt16) (dir fileName : List UInt16) :
    Option (List (List UInt16)) :=
  (globToRegex fileName).map fun fileNameRegex =>
    match readdirSync dir with
    | some files => (files.filter (test fileNameRegex)).map (join dir)
    | none => []

/-! ## globs -/

def IsWildcard (char : UInt16) : Prop := char = unit '*' ∨ char = unit '?'

theorem mark_ne_star : unit '?' ≠ unit '*' := by decide

/-- The words that a character of a pattern stands for. -/
def Takes (char : UInt16) (word : List UInt16) : Prop :=
  if char = unit '*' then True
  else if char = unit '?' then ∃ c, word = [c]
  else word = [char]

/-- The name is made of words of the characters in turn, and does not start with a dot where the
pattern starts with a wildcard. -/
structure GlobMatches (pattern name : List UInt16) : Prop where
  words : ∃ words, List.Forall₂ Takes pattern words ∧ words.flatten = name
  dot : ∀ char ∈ pattern.head?, IsWildcard char → name.head? ≠ some (unit '.')

/-- A wildcard takes no line terminator. -/
def TakesInLine (char : UInt16) (word : List UInt16) : Prop :=
  Takes char word ∧ (IsWildcard char → ∀ c ∈ word, isLineTerminator c = false)

/-- At the start, the first character may be one, and `*` takes a character at least. -/
def TakesFirst (char : UInt16) (word : List UInt16) : Prop :=
  Takes char word ∧ (char = unit '*' → word ≠ []) ∧
    (IsWildcard char → ∀ c ∈ word.tail, isLineTerminator c = false)

/-- The name is made of words where a `*` at the start takes a character at least, and no wildcard
takes a line terminator that is not the name's first character. -/
def MatchesInLine : List UInt16 → List UInt16 → Prop
  | [], name => name = []
  | char :: pattern, name =>
      ∃ word words, TakesFirst char word ∧ List.Forall₂ TakesInLine pattern words ∧
        word ++ words.flatten = name

theorem MatchesInLine.words {pattern name : List UInt16} (h : MatchesInLine pattern name) :
    ∃ words, List.Forall₂ Takes pattern words ∧ words.flatten = name := by
  cases pattern with
  | nil => exact ⟨[], .nil, h.symm⟩
  | cons char pattern =>
      obtain ⟨word, words, hfirst, hwords, hname⟩ := h
      exact ⟨word :: words, .cons hfirst.1 (hwords.imp fun _ _ hin => hin.1), hname⟩

/-! ## the expression of a pattern -/

def notTerminator (c : UInt16) : Bool := !isLineTerminator c

def notDot (c : UInt16) : Bool := c != unit '.'

/-- The pieces that a character is turned into. -/
def piecesOf (i : Nat) (char : UInt16) : List (Piece UInt16) :=
  if char = unit '*' then
    if i = 0 then [.one notDot, .many notTerminator] else [.many notTerminator]
  else if char = unit '?' then
    if i = 0 then [.one notDot] else [.one notTerminator]
  else [.one (· == char)]

def patternPieces (pattern : List UInt16) : List (Piece UInt16) := assemble piecesOf 0 pattern

theorem spells_notDot : Spells (.one notDot) (text "[^.]") :=
  (Spells.of_atom (fun rest => by simp [text, unit]) fun _ => rfl).1

theorem spells_translate (i : Nat) (char : UInt16) :
    ∃ spellings, List.Forall₂ Spells (piecesOf i char) spellings ∧
      spellings.flatten = translate i char := by
  unfold piecesOf translate
  split_ifs
  · exact ⟨[text "[^.]", text ".*"], .cons spells_notDot (.cons spells_dot.2 .nil), rfl⟩
  · exact ⟨[text ".*"], .cons spells_dot.2 .nil, rfl⟩
  · exact ⟨[text "[^.]"], .cons spells_notDot .nil, rfl⟩
  · exact ⟨[text "."], .cons spells_dot.1 .nil, rfl⟩
  · exact ⟨[escapeRegex [char]], .cons (spells_escapeRegex char) .nil, by simp⟩

/-- The expression is always one that can be built. -/
theorem globToRegex_eq (pattern : List UInt16) :
    globToRegex pattern = some (patternPieces pattern) :=
  compile_assemble spells_translate pattern

/-! ## the names that it accepts -/

theorem exists_piecesOf_succ (i : Nat) (char : UInt16) :
    ∃ piece, piecesOf (i + 1) char = [piece] ∧
      ∀ word, piece.Accepts word ↔ TakesInLine char word := by
  by_cases hstar : char = unit '*'
  · refine ⟨.many notTerminator, by simp [piecesOf, hstar], fun word => ?_⟩
    simp [TakesInLine, Takes, IsWildcard, hstar, notTerminator]
  · by_cases hmark : char = unit '?'
    · refine ⟨.one notTerminator, by simp [piecesOf, hmark, mark_ne_star], fun word => ?_⟩
      simp only [Piece.accepts_one, notTerminator, TakesInLine, Takes, IsWildcard, hmark, if_neg mark_ne_star,
        or_true, true_implies]
      constructor
      · rintro ⟨c, rfl, hc⟩
        exact ⟨⟨c, rfl⟩, by simpa using hc⟩
      · rintro ⟨⟨c, rfl⟩, hc⟩
        exact ⟨c, rfl, by simpa using hc⟩
    · refine ⟨.one (· == char), by simp [piecesOf, hstar, hmark], fun word => ?_⟩
      simp [TakesInLine, Takes, IsWildcard, hstar, hmark]

/-- The first character, where a wildcard does not take a dot. -/
theorem test_piecesOf_zero (char : UInt16) (word : List UInt16) :
    test (piecesOf 0 char) word = true ↔
      TakesFirst char word ∧ (IsWildcard char → word.head? ≠ some (unit '.')) := by
  by_cases hstar : char = unit '*'
  · have hpieces : piecesOf 0 char = [.one notDot] ++ [.many notTerminator] := by
      simp [piecesOf, hstar]
    rw [hpieces, test_append]
    simp only [test_singleton, Piece.accepts_one, Piece.accepts_many]
    cases word with
    | nil => simp [TakesFirst, hstar]
    | cons c word =>
        simp [TakesFirst, Takes, IsWildcard, hstar, notDot, notTerminator, and_comm]
  · by_cases hmark : char = unit '?'
    · have hpieces : piecesOf 0 char = [.one notDot] := by simp [piecesOf, hmark, mark_ne_star]
      rw [hpieces, test_singleton, Piece.accepts_one]
      simp only [TakesFirst, Takes, IsWildcard, hmark, if_neg mark_ne_star]
      constructor
      · rintro ⟨c, rfl, hc⟩
        simpa [mark_ne_star, notDot] using hc
      · rintro ⟨⟨⟨c, rfl⟩, -⟩, hdot⟩
        exact ⟨c, rfl, by simpa [notDot] using hdot⟩
    · have hpieces : piecesOf 0 char = [.one (· == char)] := by simp [piecesOf, hstar, hmark]
      rw [hpieces, test_singleton, Piece.accepts_one]
      simp only [TakesFirst, Takes, IsWildcard, hstar, hmark]
      grind

theorem head?_append_of_takesFirst {char : UInt16} {word : List UInt16}
    (hfirst : TakesFirst char word) (hwild : IsWildcard char) (rest : List UInt16) :
    (word ++ rest).head? = word.head? := by
  have hne : word ≠ [] := by
    by_cases hstar : char = unit '*'
    · exact hfirst.2.1 hstar
    · have hmark : char = unit '?' := hwild.resolve_left hstar
      obtain ⟨c, rfl⟩ : ∃ c, word = [c] := by simpa [Takes, hmark, mark_ne_star] using hfirst.1
      simp
  exact List.head?_append_of_ne_nil _ hne

/-- The names that the expression of a pattern accepts. -/
theorem test_patternPieces (pattern name : List UInt16) :
    test (patternPieces pattern) name = true ↔ MatchesInLine pattern name ∧
      ∀ char ∈ pattern.head?, IsWildcard char → name.head? ≠ some (unit '.') := by
  cases pattern with
  | nil =>
      simp only [patternPieces, assemble, MatchesInLine, test_iff, List.forall₂_nil_left_iff]
      simp [eq_comm]
  | cons char pattern =>
      simp only [patternPieces, assemble, MatchesInLine, List.head?_cons, Option.mem_some_iff,
        forall_eq']
      rw [test_append]
      simp only [test_piecesOf_zero]
      simp only [test_iff, accepts_assemble_succ exists_piecesOf_succ]
      constructor
      · rintro ⟨word, _, ⟨hfirst, hdot⟩, ⟨words, hwords, rfl⟩, rfl⟩
        refine ⟨⟨word, words, hfirst, hwords, rfl⟩, fun hwild => ?_⟩
        rw [head?_append_of_takesFirst hfirst hwild]
        exact hdot hwild
      · rintro ⟨⟨word, words, hfirst, hwords, rfl⟩, hdot⟩
        refine ⟨word, _, ⟨hfirst, fun hwild => ?_⟩, ⟨words, hwords, rfl⟩, rfl⟩
        rw [← head?_append_of_takesFirst hfirst hwild words.flatten]
        exact hdot hwild

/-! ## exactness -/

/-- The expression of the pattern accepts the name just where the pattern stands for it. -/
def MatchesExactly (pattern name : List UInt16) : Prop :=
  ∃ regex ∈ globToRegex pattern, (test regex name = true ↔ GlobMatches pattern name)

theorem matchesExactly_iff {pattern name : List UInt16} :
    MatchesExactly pattern name ↔ (GlobMatches pattern name → MatchesInLine pattern name) := by
  simp only [MatchesExactly, globToRegex_eq, Option.mem_some_iff, exists_eq_left',
    test_patternPieces]
  constructor
  · intro h hglob
    exact (h.mpr hglob).1
  · intro h
    exact ⟨fun hname => ⟨hname.1.words, hname.2⟩, fun hglob => ⟨h hglob, hglob.dot⟩⟩

open Classical in
/-- The paths of the files that the pattern stands for, in the order of the directory. -/
noncomputable def matchingFilePaths (readdirSync : List UInt16 → Option (List (List UInt16)))
    (join : List UInt16 → List UInt16 → List UInt16) (dir fileName : List UInt16) :
    List (List UInt16) :=
  (((readdirSync dir).getD []).filter fun file => GlobMatches fileName file).map (join dir)

/-- A selection that takes no more than another one is the same when it takes as many. -/
theorem filter_length_eq_iff {β : Type*} {p q : β → Bool} {l : List β}
    (hpq : ∀ x, p x = true → q x = true) :
    (l.filter p).length = (l.filter q).length ↔ ∀ x ∈ l, p x = q x := by
  constructor
  · intro hlength x hx
    have heq := (List.monotone_filter_right l hpq).eq_of_length hlength
    have hmem : x ∈ l.filter p ↔ x ∈ l.filter q := by rw [heq]
    simp only [List.mem_filter, hx, true_and] at hmem
    exact Bool.eq_iff_iff.mpr hmem
  · intro h
    rw [List.filter_congr h]

theorem getMatchingFilePaths_eq_iff (readdirSync : List UInt16 → Option (List (List UInt16)))
    (join : List UInt16 → List UInt16 → List UInt16) (dir fileName : List UInt16) :
    getMatchingFilePaths readdirSync join dir fileName =
        some (matchingFilePaths readdirSync join dir fileName) ↔
      ∀ files ∈ readdirSync dir, ∀ name ∈ files, MatchesExactly fileName name := by
  simp only [getMatchingFilePaths, globToRegex_eq, Option.map_some, Option.some.injEq,
    matchingFilePaths, MatchesExactly, Option.mem_some_iff, exists_eq_left']
  cases readdirSync dir with
  | none => simp
  | some files =>
      simp only [Option.getD_some, Option.mem_some_iff, forall_eq']
      -- what the expression accepts the pattern stands for, so that only a name can be missed
      have hsub : ∀ name, test (patternPieces fileName) name = true →
          GlobMatches fileName name := by
        intro name hname
        obtain ⟨hline, hdot⟩ := (test_patternPieces fileName name).mp hname
        exact ⟨hline.words, hdot⟩
      constructor
      · intro h
        have hlength := congrArg List.length h
        rw [List.length_map, List.length_map, filter_length_eq_iff (by simpa using hsub)] at hlength
        intro name hname
        simp [hlength name hname]
      · intro h
        rw [List.filter_congr fun name hname => ?_]
        rw [Bool.eq_iff_iff, h name hname]
        simp

/-- A pattern is matched exactly when each name that it stands for has words without a line
terminator, and with a character for a `*` at the start. -/
theorem exact_iff (pattern : List UInt16) :
    (∀ name, MatchesExactly pattern name ↔
      (GlobMatches pattern name → MatchesInLine pattern name)) ∧
    ∀ readdirSync join dir,
      getMatchingFilePaths readdirSync join dir pattern =
          some (matchingFilePaths readdirSync join dir pattern) ↔
        ∀ files ∈ readdirSync dir, ∀ name ∈ files,
          GlobMatches pattern name → MatchesInLine pattern name := by
  refine ⟨fun name => matchesExactly_iff, fun readdirSync join dir => ?_⟩
  rw [getMatchingFilePaths_eq_iff]
  simp only [matchesExactly_iff]

/-- `*a` stands for `a`, which has no character for the `*`. -/
theorem globToRegex_not_exact :
    ¬ ((∀ pattern name, MatchesExactly pattern name) ∧
      ∀ readdirSync join dir fileName,
        getMatchingFilePaths readdirSync join dir fileName =
          some (matchingFilePaths readdirSync join dir fileName)) := by
  rintro ⟨h, -⟩
  have hglob : GlobMatches (text "*a") (text "a") :=
    { words := ⟨[[], text "a"], by simp [text, Takes], rfl⟩
      dot := by intro _ _ _; decide }
  obtain ⟨word, words, hfirst, hwords, hname⟩ := matchesExactly_iff.mp (h _ _) hglob
  have hword : word ≠ [] := hfirst.2.1 rfl
  obtain ⟨last, rest, hlast, hrest, rfl⟩ := List.forall₂_cons_left_iff.mp hwords
  have hlast : last = text "a" := hlast.1
  have hlength := congrArg List.length hname
  have := List.length_pos_iff.mpr hword
  simp [hlast, text] at hlength
  omega

end FileUtil

end SnowflakeConnector
