import SnowflakeConnector.JsString

/-!
# SnowflakeConnector.RegExp

Regular expressions of JavaScript that are a sequence of pieces, each a class of characters with
a quantifier or a choice of words, over any alphabet.

A piece has its words at the start of a text in order of preference, the longest first, and the
match of a sequence is the first one in the order of its pieces.

* `mem_matches` -- the matches of a sequence are the ways to cut a text into words of its pieces;
* `test_iff` -- an anchored expression accepts the texts that are made of such words;
* `compile` -- the pieces that the text of an expression stands for;
* `compile_assemble` -- the pieces of an expression that is translated from another pattern.
-/

namespace SnowflakeConnector

namespace RegExp

open JsString

universe u

variable {α : Type u}

/-! ## pieces -/

/-- A class of characters, taken so many times, or one of some words, each a list of classes. -/
inductive Piece (α : Type u)
  | rep (p : α → Bool) (least : Nat) (most : Option Nat)
  | alt (words : List (List (α → Bool)))

namespace Piece

/-- One character of a class. -/
def one (p : α → Bool) : Piece α := rep p 1 (some 1)

/-- Any number of them. -/
def many (p : α → Bool) : Piece α := rep p 0 none

def IsRep (piece : Piece α) : Prop := ∃ p least most, piece = rep p least most

theorem isRep_rep (p : α → Bool) (least : Nat) (most : Option Nat) : (rep p least most).IsRep :=
  ⟨p, least, most, rfl⟩

/-- The characters are each of its class. -/
def Fits (classes : List (α → Bool)) (word : List α) : Prop :=
  List.Forall₂ (fun p c => p c = true) classes word

def fits : List (α → Bool) → List α → Bool
  | [], [] => true
  | p :: ps, c :: cs => p c && fits ps cs
  | _, _ => false

/-- The words of a piece. -/
def Accepts : Piece α → List α → Prop
  | rep p least most, word =>
      (∀ c ∈ word, p c = true) ∧ least ≤ word.length ∧ ∀ n ∈ most, word.length ≤ n
  | alt words, word => ∃ classes ∈ words, Fits classes word

/-- The words at the start of a text, with what comes after them, in order of preference. -/
def ways : Piece α → List α → List (List α × List α)
  | rep p least most, s =>
      let run := (s.takeWhile p).length
      let top := match most with
        | some n => min n run
        | none => run
      (List.range' least (top + 1 - least)).reverse.map fun k => (s.take k, s.drop k)
  | alt words, s =>
      words.filterMap fun classes =>
        if fits classes (s.take classes.length) then
          some (s.take classes.length, s.drop classes.length)
        else none

theorem fits_iff {classes : List (α → Bool)} {word : List α} :
    fits classes word = true ↔ Fits classes word := by
  induction classes generalizing word with
  | nil => cases word <;> simp [fits, Fits]
  | cons p classes ih =>
      cases word with
      | nil => simp [fits, Fits]
      | cons c word =>
          simp only [fits, Bool.and_eq_true, ih, Fits, List.forall₂_cons]

/-- The first characters of a text are of a class as long as its run of them lasts. -/
theorem forall_take_iff {p : α → Bool} {s : List α} {k : Nat} (hk : k ≤ s.length) :
    (∀ c ∈ s.take k, p c = true) ↔ k ≤ (s.takeWhile p).length := by
  induction s generalizing k with
  | nil =>
      have hzero : k = 0 := by simpa using hk
      simp [hzero]
  | cons c s ih =>
      cases k with
      | zero => simp
      | succ k =>
          simp only [List.length_cons, Nat.add_le_add_iff_right] at hk
          cases hc : p c with
          | true => simp [hc, ih hk]
          | false => simp [hc]

theorem mem_ways {piece : Piece α} {s word rest : List α} :
    (word, rest) ∈ piece.ways s ↔ piece.Accepts word ∧ word ++ rest = s := by
  cases piece with
  | rep p least most =>
      simp only [ways, List.mem_map, List.mem_reverse, List.mem_range'_1, Prod.mk.injEq, Accepts]
      constructor
      · rintro ⟨k, ⟨hge, hlt⟩, rfl, rfl⟩
        have hrun := (List.takeWhile_sublist p (l := s)).length_le
        have hk : k ≤ (s.takeWhile p).length := by
          cases most <;> simp only at hlt <;> omega
        have hlength : (s.take k).length = k := by
          rw [List.length_take]
          omega
        refine ⟨⟨(forall_take_iff (by omega)).mpr hk, by omega, fun n hn => ?_⟩, List.take_append_drop k s⟩
        subst hn
        simp only at hlt
        omega
      · rintro ⟨⟨hall, hge, hle⟩, rfl⟩
        refine ⟨word.length, ⟨hge, ?_⟩, by simp, by simp⟩
        have hk : word.length ≤ ((word ++ rest).takeWhile p).length :=
          (forall_take_iff (by simp)).mp (by simpa using hall)
        cases most with
        | none =>
            simp only
            omega
        | some n =>
            have := hle n rfl
            simp only
            omega
  | alt words =>
      simp only [ways, List.mem_filterMap, Accepts]
      constructor
      · rintro ⟨classes, hmem, h⟩
        split_ifs at h with hfits
        simp only [Option.some.injEq, Prod.mk.injEq] at h
        obtain ⟨rfl, rfl⟩ := h
        exact ⟨⟨classes, hmem, fits_iff.mp hfits⟩, List.take_append_drop _ s⟩
      · rintro ⟨⟨classes, hmem, hfits⟩, rfl⟩
        refine ⟨classes, hmem, ?_⟩
        have hlength : classes.length = word.length := hfits.length_eq
        rw [if_pos (by simpa [hlength] using fits_iff.mpr hfits)]
        simp [hlength]

@[simp] theorem accepts_one {p : α → Bool} {word : List α} :
    (one p).Accepts word ↔ ∃ c, word = [c] ∧ p c = true := by
  constructor
  · rintro ⟨hall, hge, hle⟩
    have hlength : word.length = 1 := by
      have := hle 1 rfl
      omega
    obtain ⟨c, rfl⟩ := List.length_eq_one_iff.mp hlength
    exact ⟨c, rfl, hall c (by simp)⟩
  · rintro ⟨c, rfl, hc⟩
    exact ⟨by simpa using hc, by simp, by simp⟩

@[simp] theorem accepts_many {p : α → Bool} {word : List α} :
    (many p).Accepts word ↔ ∀ c ∈ word, p c = true := by
  simp [many, Accepts]

end Piece

/-! ## sequences -/

/-- The matches of a sequence at the start of a text: the words of the pieces and what comes after
them, the preferred match first. -/
def «matches» : List (Piece α) → List α → List (List (List α) × List α)
  | [], s => [([], s)]
  | piece :: pieces, s =>
      (piece.ways s).flatMap fun way =>
        («matches» pieces way.2).map fun m => (way.1 :: m.1, m.2)

theorem mem_matches {pieces : List (Piece α)} {s rest : List α} {words : List (List α)} :
    (words, rest) ∈ «matches» pieces s ↔
      List.Forall₂ Piece.Accepts pieces words ∧ words.flatten ++ rest = s := by
  induction pieces generalizing s words with
  | nil => cases words <;> simp [«matches», eq_comm]
  | cons piece pieces ih =>
      simp only [«matches», List.mem_flatMap, List.mem_map, Prod.exists, Prod.mk.injEq]
      constructor
      · rintro ⟨word, rest', hway, words', _, hmatch, rfl, rfl⟩
        obtain ⟨haccepts, rfl⟩ := Piece.mem_ways.mp hway
        obtain ⟨hwords, rfl⟩ := ih.mp hmatch
        exact ⟨.cons haccepts hwords, by simp⟩
      · rintro ⟨hwords, rfl⟩
        cases hwords with
        | cons haccepts hwords =>
            exact ⟨_, _, Piece.mem_ways.mpr ⟨haccepts, by simp⟩, _, _, ih.mpr ⟨hwords, rfl⟩, rfl, rfl⟩

/-- Whether an expression with an anchor at both ends matches. -/
def test (pieces : List (Piece α)) (s : List α) : Bool :=
  («matches» pieces s).any fun m => m.2.isEmpty

theorem test_iff {pieces : List (Piece α)} {s : List α} :
    test pieces s = true ↔ ∃ words, List.Forall₂ Piece.Accepts pieces words ∧ words.flatten = s := by
  simp only [test, List.any_eq_true, List.isEmpty_iff, Prod.exists]
  constructor
  · rintro ⟨words, rest, hmatch, rfl⟩
    exact ⟨words, by simpa using mem_matches.mp hmatch⟩
  · rintro ⟨words, haccepts, hflatten⟩
    exact ⟨words, [], mem_matches.mpr (by simpa using ⟨haccepts, hflatten⟩), rfl⟩

theorem accepts_append {ps qs : List (Piece α)} {words : List (List α)} :
    List.Forall₂ Piece.Accepts (ps ++ qs) words ↔
      ∃ ts us, List.Forall₂ Piece.Accepts ps ts ∧ List.Forall₂ Piece.Accepts qs us ∧
        words = ts ++ us := by
  constructor
  · intro h
    induction ps generalizing words with
    | nil => exact ⟨[], words, .nil, h, rfl⟩
    | cons piece ps ih =>
        cases h with
        | cons hword hwords =>
            obtain ⟨ts, us, hts, hus, rfl⟩ := ih hwords
            exact ⟨_ :: ts, us, .cons hword hts, hus, rfl⟩
  · rintro ⟨ts, us, hts, hus, rfl⟩
    exact List.rel_append hts hus

/-- A text is accepted by two expressions in turn. -/
theorem test_append {ps qs : List (Piece α)} {s : List α} :
    test (ps ++ qs) s = true ↔ ∃ t u, test ps t = true ∧ test qs u = true ∧ t ++ u = s := by
  simp only [test_iff, accepts_append]
  constructor
  · rintro ⟨_, ⟨ts, us, hts, hus, rfl⟩, rfl⟩
    exact ⟨_, _, ⟨ts, hts, rfl⟩, ⟨us, hus, rfl⟩, List.flatten_append.symm⟩
  · rintro ⟨_, _, ⟨ts, hts, rfl⟩, ⟨us, hus, rfl⟩, rfl⟩
    exact ⟨ts ++ us, ⟨ts, us, hts, hus, rfl⟩, List.flatten_append⟩

/-- One piece alone. -/
theorem test_singleton {piece : Piece α} {s : List α} :
    test [piece] s = true ↔ piece.Accepts s := by
  simp [test_iff, List.forall₂_cons_left_iff]

/-! ## the preferred match -/

/-- The preferred match at the start of a text. -/
def firstMatch (pieces : List (Piece α)) (s : List α) : Option (List (List α) × List α) :=
  («matches» pieces s).head?

/-- Of two matches the one is preferred that has the longer word at the first difference. -/
def Longer : List (List α) → List (List α) → Prop
  | word :: words, word' :: words' =>
      word'.length < word.length ∨ word.length = word'.length ∧ Longer words words'
  | _, _ => False

theorem not_longer_self (words : List (List α)) : ¬ Longer words words := by
  induction words with
  | nil => exact id
  | cons word words ih => simp [Longer, ih]

theorem ways_pairwise (p : α → Bool) (least : Nat) (most : Option Nat) (s : List α) :
    ((Piece.rep p least most).ways s).Pairwise fun way way' =>
      way'.1.length < way.1.length := by
  have hrun := (List.takeWhile_sublist p (l := s)).length_le
  simp only [Piece.ways, List.pairwise_map, List.pairwise_reverse]
  refine List.Pairwise.imp_of_mem ?_ (List.pairwise_lt_range' 1)
  intro a b ha hb hlt
  have hb := List.mem_range'_1.mp hb
  have hle : b ≤ s.length := by cases most <;> simp only at hb <;> omega
  simp only [List.length_take]
  omega

/-- The matches of classes with quantifiers are in order of preference. -/
theorem matches_pairwise {pieces : List (Piece α)}
    (h : ∀ piece ∈ pieces, piece.IsRep) (s : List α) :
    («matches» pieces s).Pairwise fun m m' => Longer m.1 m'.1 := by
  induction pieces generalizing s with
  | nil => simp [«matches»]
  | cons piece pieces ih =>
      obtain ⟨⟨p, least, most, rfl⟩, hpieces⟩ := List.forall_mem_cons.mp h
      simp only [«matches», List.pairwise_flatMap, List.pairwise_map]
      constructor
      · intro way _
        exact (ih hpieces way.2).imp fun hlonger => .inr ⟨rfl, hlonger⟩
      · refine (ways_pairwise p least most s).imp fun {way way'} hlt => ?_
        simp only [List.mem_map]
        rintro _ ⟨m, _, rfl⟩ _ ⟨m', _, rfl⟩
        exact .inl hlt

/-- The preferred match is the one that no other is preferred to. -/
theorem firstMatch_eq {pieces : List (Piece α)}
    (h : ∀ piece ∈ pieces, piece.IsRep)
    {s rest : List α} {words : List (List α)} (hm : (words, rest) ∈ «matches» pieces s)
    (hmax : ∀ words' rest', (words', rest') ∈ «matches» pieces s → ¬ Longer words' words) :
    firstMatch pieces s = some (words, rest) := by
  have hpairwise := matches_pairwise h s
  rw [firstMatch]
  cases hmatches : «matches» pieces s with
  | nil =>
      rw [hmatches] at hm
      exact absurd hm List.not_mem_nil
  | cons first others =>
      rw [hmatches] at hm hpairwise
      obtain heq | hother := List.mem_cons.mp hm
      · rw [heq, List.head?_cons]
      · have hlonger := List.rel_of_pairwise_cons hpairwise hother
        exact absurd hlonger (hmax first.1 first.2 (hmatches ▸ List.mem_cons_self))

/-- The ways of the first piece are all the same. -/
theorem firstMatch_cons {piece : Piece α} {pieces : List (Piece α)} {s word rest : List α}
    (hmem : (word, rest) ∈ piece.ways s)
    (hunique : ∀ way ∈ piece.ways s, way = (word, rest)) :
    firstMatch (piece :: pieces) s =
      (firstMatch pieces rest).map fun m => (word :: m.1, m.2) := by
  have hall := List.eq_replicate_of_mem hunique
  obtain ⟨n, hn⟩ : ∃ n, (piece.ways s).length = n + 1 :=
    Nat.exists_eq_succ_of_ne_zero (List.length_pos_of_mem hmem).ne'
  rw [hn] at hall
  simp only [firstMatch, «matches», hall]
  cases hmatches : «matches» pieces rest with
  | nil => simp [hmatches]
  | cons m ms => simp [List.replicate_succ, hmatches]

/-- A match of pieces is a word of the first one and a match of the others. -/
theorem mem_matches_cons {piece : Piece α} {pieces : List (Piece α)} {s rest : List α}
    {words : List (List α)} (h : (words, rest) ∈ «matches» (piece :: pieces) s) :
    ∃ word words' s', words = word :: words' ∧ piece.Accepts word ∧ word ++ s' = s ∧
      (words', rest) ∈ «matches» pieces s' := by
  obtain ⟨hwords, rfl⟩ := mem_matches.mp h
  cases hwords with
  | cons hword hwords =>
      exact ⟨_, _, _, rfl, hword, by simp, mem_matches.mpr ⟨hwords, rfl⟩⟩

theorem mem_matches_one {p : α → Bool} {pieces : List (Piece α)} {c : α} {s rest : List α}
    {words : List (List α)} (h : (words, rest) ∈ «matches» (.one p :: pieces) (c :: s)) :
    ∃ words', words = [c] :: words' ∧ (words', rest) ∈ «matches» pieces s := by
  obtain ⟨word, words', s', rfl, hword, hs, hmatch⟩ := mem_matches_cons h
  obtain ⟨d, rfl, _⟩ := Piece.accepts_one.mp hword
  obtain ⟨rfl, rfl⟩ := List.cons.inj hs
  exact ⟨words', rfl, hmatch⟩

/-- Two runs of a class that end at their texts' first character outside it. -/
theorem run_unique {p : α → Bool} {cs cs' rest rest' : List α} (hcs : ∀ c ∈ cs, p c = true)
    (hcs' : ∀ c ∈ cs', p c = true) (hrest : ∀ c ∈ rest.head?, p c = false)
    (hrest' : ∀ c ∈ rest'.head?, p c = false) (h : cs ++ rest = cs' ++ rest') :
    cs = cs' ∧ rest = rest' := by
  have hrun : ∀ cs rest : List α, (∀ c ∈ cs, p c = true) → (∀ c ∈ rest.head?, p c = false) →
      (cs ++ rest).takeWhile p = cs := by
    intro cs rest hcs hrest
    rw [List.takeWhile_append_of_pos hcs]
    cases rest with
    | nil => simp
    | cons c rest => simp [hrest c rfl]
  have heq : cs = cs' := by rw [← hrun cs rest hcs hrest, h, hrun cs' rest' hcs' hrest']
  exact ⟨heq, List.append_cancel_left (heq ▸ h)⟩

/-- A run before a piece that takes none of its class. -/
theorem mem_matches_run {p : α → Bool} {least : Nat} {most : Option Nat}
    {pieces : List (Piece α)} {run s rest : List α} {words : List (List α)}
    (hrun : ∀ c ∈ run, p c = true) (hs : ∀ c ∈ s.head?, p c = false)
    (hnext : ∀ s' words' rest', (words', rest') ∈ «matches» pieces s' →
      ∀ c ∈ s'.head?, p c = false)
    (h : (words, rest) ∈ «matches» (.rep p least most :: pieces) (run ++ s)) :
    ∃ words', words = run :: words' ∧ (words', rest) ∈ «matches» pieces s := by
  obtain ⟨word, words', s', rfl, hword, heq, hmatch⟩ := mem_matches_cons h
  obtain ⟨rfl, rfl⟩ := run_unique hword.1 hrun (hnext s' words' rest hmatch) hs heq
  exact ⟨words', rfl, hmatch⟩

/-- What a piece matches starts with a character of its class. -/
theorem head_of_matches {p q : α → Bool} {least : Nat} {most : Option Nat}
    {pieces : List (Piece α)} (hleast : 1 ≤ least) (hpq : ∀ c, q c = true → p c = false)
    {s rest : List α} {words : List (List α)}
    (h : (words, rest) ∈ «matches» (.rep q least most :: pieces) s) :
    ∀ c ∈ s.head?, p c = false := by
  obtain ⟨word, _, s', _, ⟨hall, hlength, _⟩, rfl, _⟩ := mem_matches_cons h
  cases word with
  | nil => simp at hlength; omega
  | cons c word =>
      rintro d hd
      obtain rfl := Option.some.inj hd
      exact hpq _ (hall _ List.mem_cons_self)

/-- The same of a piece that may take nothing, by what follows it. -/
theorem head_of_matches_rep {p q : α → Bool} {least : Nat} {most : Option Nat}
    {pieces : List (Piece α)} (hpq : ∀ c, q c = true → p c = false)
    (hnext : ∀ s words rest, (words, rest) ∈ «matches» pieces s → ∀ c ∈ s.head?, p c = false)
    {s rest : List α} {words : List (List α)}
    (h : (words, rest) ∈ «matches» (.rep q least most :: pieces) s) :
    ∀ c ∈ s.head?, p c = false := by
  obtain ⟨word, words', s', _, ⟨hall, _⟩, rfl, hm⟩ := mem_matches_cons h
  cases word with
  | nil => exact hnext s' words' rest hm
  | cons c word =>
      rintro d hd
      obtain rfl := Option.some.inj hd
      exact hpq _ (hall _ List.mem_cons_self)

theorem firstMatch_of_unique {pieces : List (Piece α)}
    (h : ∀ piece ∈ pieces, piece.IsRep)
    {s rest : List α} {words : List (List α)} (hm : (words, rest) ∈ «matches» pieces s)
    (hunique : ∀ words' rest', (words', rest') ∈ «matches» pieces s → words' = words) :
    firstMatch pieces s = some (words, rest) :=
  firstMatch_eq h hm fun words' rest' hm' =>
    hunique words' rest' hm' ▸ not_longer_self words

/-- A word takes no more of a text than the text's first run of its class. -/
theorem length_le_of_accepts {p : α → Bool} {least : Nat} {most : Option Nat}
    {word s rest : List α} (hword : (Piece.rep p least most).Accepts word)
    (h : word ++ rest = s) : word.length ≤ (s.takeWhile p).length := by
  subst h
  exact (Piece.forall_take_iff (by simp)).mp (by simpa using hword.1)

/-- Of a run of one class and one of another, what both take is taken by the first, as long as
enough is left for the second. -/
theorem firstMatch_overlap {p q : α → Bool} {least : Nat} {run word after : List α}
    (hrun : ∀ c ∈ run, p c = true) (hne : run ≠ []) (hword : ∀ c ∈ word, q c = true)
    (hlength : least ≤ word.length) (hafter : ∀ c ∈ after.head?, q c = false)
    (hother : ∃ c ∈ word, p c = false) :
    firstMatch [.rep p 1 none, .rep q least none] (run ++ (word ++ after)) =
      some ([run ++ word.take (min (word.takeWhile p).length (word.length - least)),
        word.drop (min (word.takeWhile p).length (word.length - least))], after) := by
  set k := min (word.takeWhile p).length (word.length - least) with hk
  have hpos : 0 < run.length := List.length_pos_iff.mpr hne
  have hshort : (word.takeWhile p).length < word.length := by
    refine lt_of_le_of_ne (List.takeWhile_sublist p).length_le fun heq => ?_
    obtain ⟨c, hc, hp⟩ := hother
    have hall := (List.takeWhile_sublist p).eq_of_length heq
    rw [← hall] at hc
    rw [List.mem_takeWhile_imp hc] at hp
    contradiction
  refine firstMatch_eq ?_ (mem_matches.mpr ⟨.cons ⟨?_, ?_, by simp⟩ (.cons ⟨?_, ?_, by simp⟩ .nil),
    by simp⟩) ?_
  · simp [Piece.isRep_rep]
  · intro c hc
    obtain hc | hc := List.mem_append.mp hc
    · exact hrun c hc
    · exact (Piece.forall_take_iff (by omega)).mpr (by omega) c hc
  · simp
    omega
  · exact fun c hc => hword c (List.mem_of_mem_drop hc)
  · simp
    omega
  · intro words' rest' hm hlonger
    obtain ⟨first, words', s', rfl, hfirst, hs', hm⟩ := mem_matches_cons hm
    obtain ⟨second, words', s'', rfl, hsecond, hs'', hm⟩ := mem_matches_cons hm
    have hle := length_le_of_accepts hfirst hs'
    rw [List.takeWhile_append_of_pos hrun, List.takeWhile_append, if_neg (by omega),
      List.length_append] at hle
    simp only [«matches», List.mem_singleton, Prod.mk.injEq] at hm
    simp only [hm.1, Longer, List.length_append, List.length_take, List.length_drop, and_false,
      or_false] at hlonger
    -- the second word ends where the text's word does
    have hdrop : s' = word.drop (first.length - run.length) ++ after := by
      have hdrop := congrArg (List.drop first.length) hs'
      rw [List.drop_left, List.drop_append, List.drop_append,
        List.drop_eq_nil_of_le (by omega : run.length ≤ first.length)] at hdrop
      rw [hdrop, show first.length - run.length - word.length = 0 by omega]
      rfl
    have hsecondle := length_le_of_accepts hsecond hs''
    have hrest : after.takeWhile q = [] := by
      cases after with
      | nil => rfl
      | cons c after => simp [hafter c rfl]
    rw [hdrop, List.takeWhile_append_of_pos fun c hc => hword c (List.mem_of_mem_drop hc), hrest,
      List.append_nil, List.length_drop] at hsecondle
    have hleast := hsecond.2.1
    omega

/-! ## replacements -/

/-- Every match from the left is replaced, where `find` tells what a match at the start of a text
becomes and how long it is; `skip` characters are of the match before. -/
def replaceAll (find : List α → Option (List α × Nat)) (skip : Nat) : List α → List α
  | [] => []
  | c :: cs =>
      match skip with
      | skip + 1 => replaceAll find skip cs
      | 0 =>
          match find (c :: cs) with
          | some (new, length) => new ++ replaceAll find (length - 1) cs
          | none => c :: replaceAll find 0 cs

variable {find : List α → Option (List α × Nat)}

theorem replaceAll_eq_drop (find : List α → Option (List α × Nat)) (skip : Nat) (s : List α) :
    replaceAll find skip s = replaceAll find 0 (s.drop skip) := by
  induction s generalizing skip with
  | nil => simp [replaceAll]
  | cons c s ih =>
      cases skip with
      | zero => rfl
      | succ skip => exact ih skip

theorem replaceAll_of_none {c : α} {s : List α} (h : find (c :: s) = none) :
    replaceAll find 0 (c :: s) = c :: replaceAll find 0 s := by
  simp only [replaceAll, h]

theorem replaceAll_of_some {s new : List α} {length : Nat} (h : find s = some (new, length))
    (hlength : 0 < length) (hs : s ≠ []) :
    replaceAll find 0 s = new ++ replaceAll find 0 (s.drop length) := by
  obtain ⟨c, s, rfl⟩ := List.exists_cons_of_ne_nil hs
  obtain ⟨length, rfl⟩ := Nat.exists_eq_succ_of_ne_zero hlength.ne'
  simp only [replaceAll, h, Nat.succ_sub_one, List.drop_succ_cons]
  rw [replaceAll_eq_drop]

/-- What comes before the first match stays. -/
theorem replaceAll_append {before rest : List α}
    (h : ∀ i < before.length, find (before.drop i ++ rest) = none) :
    replaceAll find 0 (before ++ rest) = before ++ replaceAll find 0 rest := by
  induction before with
  | nil => rfl
  | cons c before ih =>
      have hfirst : find (c :: (before ++ rest)) = none := h 0 (by simp)
      have hrest := ih fun i hi => h (i + 1) (by simpa using hi)
      rw [List.cons_append, replaceAll_of_none hfirst, hrest, List.cons_append]

theorem replaceAll_eq_self {s : List α} (h : ∀ i < s.length, find (s.drop i) = none) :
    replaceAll find 0 s = s := by
  have hself : replaceAll find 0 (s ++ []) = s ++ replaceAll find 0 [] :=
    replaceAll_append fun i hi => by simpa using h i hi
  simpa [replaceAll] using hself

/-! ## texts -/

/-- The characters that stand for themselves only after a backslash. -/
def syntaxCharacters : List UInt16 := text "^$\\.*+?()[]\x7b\x7d|"

/-- The characters that `.` does not stand for. -/
def lineTerminators : List UInt16 := [10, 13, 0x2028, 0x2029]

def isLineTerminator (c : UInt16) : Bool := lineTerminators.contains c

/-- The class at the start of an expression, with what comes after it. -/
def atom : List UInt16 → Option ((UInt16 → Bool) × List UInt16)
  | [] => none
  | c :: rest =>
      if c = unit '\\' then
        match rest with
        | d :: rest => if d ∈ syntaxCharacters then some ((· == d), rest) else none
        | [] => none
      else if c = unit '.' then some (fun d => !isLineTerminator d, rest)
      else if c = unit '[' then
        match rest with
        | hat :: d :: close :: rest =>
            if hat = unit '^' ∧ close = unit ']' ∧ d ≠ unit '\\' ∧ d ≠ unit ']' then
              some ((· != d), rest)
            else none
        | _ => none
      else if c ∈ syntaxCharacters then none
      else some ((· == c), rest)

theorem atom_of_notMem {c : UInt16} (hc : c ∉ syntaxCharacters) (rest : List UInt16) :
    atom (c :: rest) = some ((· == c), rest) := by
  have hne : ∀ d ∈ syntaxCharacters, c ≠ d := fun d hd h => hc (h ▸ hd)
  have hslash := hne (unit '\\') (by decide)
  have hdot := hne (unit '.') (by decide)
  have hbracket := hne (unit '[') (by decide)
  simp [atom, hslash, hdot, hbracket, hc]

theorem atom_escape {c : UInt16} (hc : c ∈ syntaxCharacters) (rest : List UInt16) :
    atom (unit '\\' :: c :: rest) = some ((· == c), rest) := by
  simp [atom, hc]

theorem atom_dot (rest : List UInt16) :
    atom (unit '.' :: rest) = some (fun d => !isLineTerminator d, rest) := by
  rfl

/-- The piece at the start of an expression. -/
def piece? (s : List UInt16) : Option (Piece UInt16 × List UInt16) :=
  (atom s).map fun a =>
    match a.2 with
    | star :: rest => if star = unit '*' then (.many a.1, rest) else (.one a.1, a.2)
    | [] => (.one a.1, [])

/-- The pieces of an expression up to the `$` that ends it. -/
def pieces? : Nat → List UInt16 → Option (List (Piece UInt16))
  | 0, _ => none
  | fuel + 1, s =>
      match piece? s with
      | some (piece, rest) => (pieces? fuel rest).map (piece :: ·)
      | none => if s = [unit '$'] then some [] else none

/-- The pieces of an expression from `^` to `$`. -/
def compile : List UInt16 → Option (List (Piece UInt16))
  | [] => none
  | c :: rest => if c = unit '^' then pieces? rest.length rest else none

/-- The text of an expression that is read as a piece, whatever comes after it but a quantifier. -/
structure Spells (piece : Piece UInt16) (spelling : List UInt16) : Prop where
  head : ∀ rest, (spelling ++ rest).head? ≠ some (unit '*')
  read : ∀ rest, rest.head? ≠ some (unit '*') → piece? (spelling ++ rest) = some (piece, rest)

theorem Spells.ne_nil {piece : Piece UInt16} {spelling : List UInt16}
    (h : Spells piece spelling) : spelling ≠ [] := by
  rintro rfl
  exact h.head [unit '*'] rfl

/-- The text of a class, by itself and with a star. -/
theorem Spells.of_atom {p : UInt16 → Bool} {spelling : List UInt16}
    (hhead : ∀ rest, (spelling ++ rest).head? ≠ some (unit '*'))
    (hatom : ∀ rest, atom (spelling ++ rest) = some (p, rest)) :
    Spells (.one p) spelling ∧ Spells (.many p) (spelling ++ [unit '*']) := by
  refine ⟨⟨hhead, fun rest hrest => ?_⟩, fun rest => ?_, fun rest _ => ?_⟩
  · cases rest with
    | nil => simp only [piece?, hatom, Option.map_some]
    | cons c rest =>
        have hc : c ≠ unit '*' := by simpa using hrest
        simp only [piece?, hatom, Option.map_some, if_neg hc]
  · rw [List.append_assoc]
    exact hhead _
  · simp [piece?, hatom]

/-- `.` and `.*`. -/
theorem spells_dot : Spells (.one fun d => !isLineTerminator d) (text ".") ∧
    Spells (.many fun d => !isLineTerminator d) (text ".*") := by
  refine Spells.of_atom (fun rest => ?_) atom_dot
  simp [text, unit]

/-- What a text is put together from is read back. -/
theorem compile_flatten {pieces : List (Piece UInt16)} {spellings : List (List UInt16)}
    (h : List.Forall₂ Spells pieces spellings) :
    compile (unit '^' :: spellings.flatten ++ [unit '$']) = some pieces := by
  have hpieces : ∀ fuel, (spellings.flatten ++ [unit '$']).length ≤ fuel →
      pieces? fuel (spellings.flatten ++ [unit '$']) = some pieces := by
    induction h with
    | nil =>
        intro fuel hfuel
        cases fuel with
        | zero => simp at hfuel
        | succ fuel => rfl
    | @cons piece spelling pieces spellings hpiece hrest ih =>
        intro fuel hfuel
        have hpos := List.length_pos_iff.mpr hpiece.ne_nil
        have hhead : (spellings.flatten ++ [unit '$']).head? ≠ some (unit '*') := by
          cases hrest with
          | nil => decide
          | cons hnext _ =>
              rw [List.flatten_cons, List.append_assoc]
              exact hnext.head _
        simp only [List.flatten_cons, List.append_assoc] at hfuel ⊢
        cases fuel with
        | zero => simp at hfuel
        | succ fuel =>
            rw [pieces?, hpiece.read _ hhead]
            simp only [Option.map_eq_some_iff]
            refine ⟨pieces, ih fuel ?_, rfl⟩
            simp only [List.length_append] at hfuel ⊢
            omega
  rw [List.cons_append, compile, if_pos rfl]
  exact hpieces _ le_rfl

/-! ## translations -/

/-- What the characters of a text are turned into, each with its position. -/
def assemble {β : Type u} (f : Nat → UInt16 → List β) : Nat → List UInt16 → List β
  | _, [] => []
  | i, c :: cs => f i c ++ assemble f (i + 1) cs

/-- The expression of a translation is made of the pieces that its parts spell. -/
theorem compile_assemble {pieces : Nat → UInt16 → List (Piece UInt16)}
    {translate : Nat → UInt16 → List UInt16}
    (h : ∀ i c, ∃ spellings, List.Forall₂ Spells (pieces i c) spellings ∧
      spellings.flatten = translate i c) (s : List UInt16) :
    compile (unit '^' :: assemble translate 0 s ++ [unit '$']) = some (assemble pieces 0 s) := by
  have hspells : ∀ i, ∃ spellings, List.Forall₂ Spells (assemble pieces i s) spellings ∧
      spellings.flatten = assemble translate i s := by
    induction s with
    | nil => exact fun _ => ⟨[], .nil, rfl⟩
    | cons c s ih =>
        intro i
        obtain ⟨first, hfirst, hc⟩ := h i c
        obtain ⟨rest, hrest, hs⟩ := ih (i + 1)
        refine ⟨first ++ rest, List.rel_append hfirst hrest, ?_⟩
        rw [List.flatten_append, hc, hs, assemble]
  obtain ⟨spellings, hpieces, hflatten⟩ := hspells 0
  rw [← hflatten]
  exact compile_flatten hpieces

/-- Where a character is turned into one piece after the start, the words are those of the
characters. -/
theorem accepts_assemble_succ {pieces : Nat → UInt16 → List (Piece UInt16)}
    {Takes : UInt16 → List UInt16 → Prop}
    (h : ∀ i c, ∃ piece, pieces (i + 1) c = [piece] ∧ ∀ word, piece.Accepts word ↔ Takes c word)
    (i : Nat) (s : List UInt16) (words : List (List UInt16)) :
    List.Forall₂ Piece.Accepts (assemble pieces (i + 1) s) words ↔
      List.Forall₂ Takes s words := by
  induction s generalizing i words with
  | nil => simp [assemble]
  | cons c s ih =>
      obtain ⟨piece, hpiece, haccepts⟩ := h i c
      simp only [assemble, hpiece, List.cons_append, List.nil_append]
      cases words with
      | nil => simp
      | cons word words => rw [List.forall₂_cons, List.forall₂_cons, haccepts, ih]

end RegExp

end SnowflakeConnector
