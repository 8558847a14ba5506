import SnowflakeConnector.Json.Tree
import SnowflakeConnector.RegExp

/-!
# SnowflakeConnector.Util.SmkId

`convertSmkIdToString` of `lib/util.ts`, which puts the marks of a string around the digits after
`"smkId":` in a text that is not yet parsed.

* `convert_tree` -- what it does to the text of a tree: the numbers of some members are spelled as
  strings.
* `keepsAnswer_iff` -- when the text is parsed to the same value but for the ids.
-/

namespace SnowflakeConnector

namespace Util

open Json RegExp

/-! ## the code -/

/-- What `\s` matches. -/
def isSpace (c : Char) : Bool :=
  c.toNat ∈ [9, 10, 11, 12, 13, 32, 160, 5760, 8192, 8193, 8194, 8195, 8196, 8197, 8198, 8199,
    8200, 8201, 8202, 8232, 8233, 8239, 8287, 12288, 65279]

/-- The groups of `(\s*):(\s*)([0-9]+)`, matched at the start of a text. -/
def groups (cs : List Char) : Option (List Char × List Char × List Char) :=
  match cs.dropWhile isSpace with
  | ':' :: tail =>
      let digits := (tail.dropWhile isSpace).takeWhile Char.isDigit
      if digits = [] then none else some (cs.takeWhile isSpace, tail.takeWhile isSpace, digits)
  | _ => none

/-- `"smkId"`. -/
def smkId : List Char := ['"', 's', 'm', 'k', 'I', 'd', '"']

/-- `"smkId"$1:$2"$3"` for a match at the start of a text, with the length of the match. -/
def smkIdMatch (cs : List Char) : Option (List Char × Nat) :=
  if smkId <+: cs then
    (groups (cs.drop smkId.length)).map fun g =>
      (smkId ++ (g.1 ++ ':' :: (g.2.1 ++ '"' :: (g.2.2 ++ ['"']))),
        smkId.length + (g.1.length + 1 + g.2.1.length + g.2.2.length))
  else none

def convertSmkIdToString (body : List Char) : List Char := replaceAll smkIdMatch 0 body

/-! ## texts without a match -/

theorem convert_nil : convertSmkIdToString [] = [] := rfl

theorem convert_of_none {c : Char} {cs : List Char} (h : smkIdMatch (c :: cs) = none) :
    convertSmkIdToString (c :: cs) = c :: convertSmkIdToString cs :=
  replaceAll_of_none h

theorem convert_of_some {cs new : List Char} {length : Nat}
    (h : smkIdMatch cs = some (new, length)) (hlength : 0 < length) (hcs : cs ≠ []) :
    convertSmkIdToString cs = new ++ convertSmkIdToString (cs.drop length) :=
  replaceAll_of_some h hlength hcs

theorem smkIdMatch_of_ne {c : Char} (cs : List Char) (h : c ≠ '"') :
    smkIdMatch (c :: cs) = none := by
  rw [smkIdMatch, if_neg]
  rw [smkId, List.cons_prefix_cons]
  exact fun heq => h heq.1.symm

theorem convert_cons {c : Char} (cs : List Char) (h : c ≠ '"') :
    convertSmkIdToString (c :: cs) = c :: convertSmkIdToString cs :=
  convert_of_none (smkIdMatch_of_ne cs h)

/-- A text without a mark stays. -/
theorem convert_append {cs : List Char} (rest : List Char) (h : ∀ c ∈ cs, c ≠ '"') :
    convertSmkIdToString (cs ++ rest) = cs ++ convertSmkIdToString rest := by
  induction cs with
  | nil => rfl
  | cons c cs ih =>
      obtain ⟨hc, hcs⟩ := List.forall_mem_cons.mp h
      rw [List.cons_append, convert_cons _ hc, ih hcs, List.cons_append]

/-- Nothing is changed in a text that does not hold the name. -/
theorem convert_of_not_infix {body : List Char} (h : ¬ ['s', 'm', 'k', 'I', 'd'] <:+: body) :
    convertSmkIdToString body = body := by
  induction body with
  | nil => rfl
  | cons c cs ih =>
      have hnone : smkIdMatch (c :: cs) = none := by
        rw [smkIdMatch, if_neg]
        rintro ⟨rest, hrest⟩
        exact h ⟨['"'], '"' :: rest, hrest⟩
      rw [convert_of_none hnone, ih fun hcs => h (hcs.trans (List.suffix_cons c cs).isInfix)]

/-! ## strings -/

/-- What is left of a text after `"smkId"`. -/
def convertAfterKey (cs : List Char) : List Char :=
  match groups cs with
  | some (one, two, digits) =>
      one ++ ':' :: (two ++ '"' :: (digits ++ '"' ::
        convertSmkIdToString (cs.drop (one.length + 1 + two.length + digits.length))))
  | none => convertSmkIdToString cs

/-- The mark that closes a string is found at its place. -/
theorem raw_eq {word raw rest rest' : List Char} (hword : ∀ c ∈ word, c ≠ '\\' ∧ c ≠ '"')
    (hraw : Escaped raw) (h : word ++ '"' :: rest = raw ++ '"' :: rest') :
    word = raw ∧ rest = rest' := by
  induction word generalizing raw with
  | nil =>
      cases raw with
      | nil => exact ⟨rfl, (List.cons.inj h).2⟩
      | cons c raw =>
          obtain rfl := (List.cons.inj h).1
          exact absurd hraw id
  | cons c word ih =>
      obtain ⟨hc, hword⟩ := List.forall_mem_cons.mp hword
      cases raw with
      | nil => exact absurd (List.cons.inj h).1 hc.2
      | cons c' raw =>
          obtain ⟨rfl, htail⟩ := List.cons.inj h
          obtain ⟨rfl, hrest⟩ := ih hword ((escaped_cons hc.1 hc.2).mp hraw) htail
          exact ⟨rfl, hrest⟩

def name : List Char := ['s', 'm', 'k', 'I', 'd']

theorem convert_close {rest : List Char} (h : rest.head? ≠ some 's') :
    convertSmkIdToString ('"' :: rest) = '"' :: convertSmkIdToString rest := by
  refine convert_of_none ?_
  rw [smkIdMatch, if_neg]
  rintro ⟨rest', hrest⟩
  exact h (by rw [← (List.cons.inj hrest).2]; rfl)

/-- At a mark, what may be the key is what comes before the next one. -/
theorem convert_mark {raw rest : List Char} (hraw : Escaped raw) (hrest : rest.head? ≠ some 's') :
    convertSmkIdToString ('"' :: (raw ++ '"' :: rest)) =
      if raw = name then '"' :: (raw ++ '"' :: convertAfterKey rest)
      else '"' :: convertSmkIdToString (raw ++ '"' :: rest) := by
  split_ifs with hname
  · subst hname
    have hprefix : smkId <+: '"' :: (name ++ '"' :: rest) := ⟨rest, rfl⟩
    have hdrop : ('"' :: (name ++ '"' :: rest)).drop smkId.length = rest := rfl
    cases hgroups : groups rest with
    | none =>
        have hnone : smkIdMatch ('"' :: (name ++ '"' :: rest)) = none := by
          rw [smkIdMatch, if_pos hprefix, hdrop, hgroups]
          rfl
        rw [convert_of_none hnone, convert_append _ (by simp [name]), convert_close hrest,
          convertAfterKey, hgroups]
    | some g =>
        obtain ⟨one, two, digits⟩ := g
        have hmatch : smkIdMatch ('"' :: (name ++ '"' :: rest)) = some
            (smkId ++ (one ++ ':' :: (two ++ '"' :: (digits ++ ['"']))),
              smkId.length + (one.length + 1 + two.length + digits.length)) := by
          rw [smkIdMatch, if_pos hprefix, hdrop, hgroups]
          rfl
        rw [convert_of_some hmatch (Nat.lt_add_right _ (by decide)) (List.cons_ne_nil _ _), ← List.drop_drop,
          hdrop, convertAfterKey, hgroups]
        simp [smkId, name]
  · refine convert_of_none ?_
    rw [smkIdMatch, if_neg]
    rintro ⟨rest', htext⟩
    have hword : ∀ c ∈ name, c ≠ '\\' ∧ c ≠ '"' := by simp [name]
    exact hname (raw_eq hword hraw (List.cons.inj htext).2).1.symm

theorem suffix_cons_of_ne {c : Char} {raw : List Char} (h : c ≠ '"') :
    '"' :: name <:+ c :: raw ↔ '"' :: name <:+ raw := by
  simp [List.suffix_cons_iff, h.symm]

/-- A string that ends, with the mark that opens it, as the key does. -/
def EndsAsKey (raw : List Char) : Prop := '"' :: name <:+ '"' :: raw

instance (raw : List Char) : Decidable (EndsAsKey raw) :=
  inferInstanceAs (Decidable (_ <:+ _))

/-- Within a string, only its end may be the key. -/
theorem convert_raw {raw rest : List Char} (hraw : Escaped raw) (hrest : rest.head? ≠ some 's') :
    convertSmkIdToString (raw ++ '"' :: rest) =
      raw ++ '"' :: if '"' :: name <:+ raw then convertAfterKey rest
        else convertSmkIdToString rest := by
  induction raw using Escaped.induct with
  | case1 => rw [if_neg (by decide), List.nil_append, convert_close hrest, List.nil_append]
  | case2 c raw ih =>
      have hescaped : Escaped raw := hraw
      rw [List.cons_append, List.cons_append, convert_cons _ (by decide), List.cons_append,
        List.cons_append]
      simp only [suffix_cons_of_ne (by decide : '\\' ≠ '"')]
      by_cases hc : c = '"'
      · subst hc
        rw [convert_mark hescaped hrest, ih hescaped]
        by_cases hname : raw = name
        · rw [if_pos hname, if_pos (hname ▸ List.suffix_rfl)]
        · have hends : '"' :: name <:+ '"' :: raw ↔ '"' :: name <:+ raw := by
            simp [List.suffix_cons_iff, Ne.symm hname]
          rw [if_neg hname]
          simp only [hends]
      · rw [convert_cons _ hc, ih hescaped]
        simp only [suffix_cons_of_ne hc]
  | case3 raw => exact absurd hraw id
  | case4 c raw hslash hmark ih =>
      have hescaped : Escaped raw := by
        rw [Escaped] at hraw
        · exact hraw
        · exact hslash
        · exact hmark
      rw [List.cons_append, convert_cons _ hmark, ih hescaped, List.cons_append]
      simp only [suffix_cons_of_ne hmark]

/-- A string stays, and only what follows one that ends as the key may change. -/
theorem convert_string {raw rest : List Char} (hraw : Escaped raw)
    (hrest : rest.head? ≠ some 's') :
    convertSmkIdToString ('"' :: (raw ++ '"' :: rest)) =
      '"' :: (raw ++ '"' :: if EndsAsKey raw then convertAfterKey rest
        else convertSmkIdToString rest) := by
  rw [convert_mark hraw hrest, convert_raw hraw hrest]
  by_cases hname : raw = name
  · rw [if_pos hname, if_pos]
    rw [hname]
    exact List.suffix_rfl
  · have hends : EndsAsKey raw ↔ '"' :: name <:+ raw := by
      rw [EndsAsKey, List.suffix_cons_iff]
      simp [Ne.symm hname]
    rw [if_neg hname]
    simp only [hends]

/-! ## members -/

theorem isSpace_of_isBlank {c : Char} (h : isBlank c = true) : isSpace c = true := by
  simp only [isBlank, decide_eq_true_eq] at h
  obtain rfl | rfl | rfl | rfl := h <;> rfl

theorem isSpace_of_isDigit {c : Char} (h : c.isDigit = true) : isSpace c = false := by
  simp only [Char.isDigit, Bool.and_eq_true, decide_eq_true_eq] at h
  have hlow : 48 ≤ c.toNat := h.1
  have hhigh : c.toNat ≤ 57 := h.2
  simp only [isSpace, List.mem_cons, List.not_mem_nil, or_false, decide_eq_false_iff_not]
  omega

theorem all_isSpace (blanks : Blanks) : ∀ c ∈ blanks.1, isSpace c = true :=
  fun c hc => isSpace_of_isBlank (blanks.2 c hc)

theorem ne_mark_of_blanks (blanks : Blanks) : ∀ c ∈ blanks.1, c ≠ '"' := by
  rintro c hc rfl
  exact absurd (blanks.2 _ hc) (by decide)

theorem dropWhile_isSpace (blanks : Blanks) {c : Char} (tail : List Char)
    (h : isSpace c = false) : (blanks.1 ++ c :: tail).dropWhile isSpace = c :: tail := by
  rw [List.dropWhile_append_of_pos (all_isSpace blanks)]
  simp [h]

theorem takeWhile_isSpace (blanks : Blanks) {c : Char} (tail : List Char)
    (h : isSpace c = false) : (blanks.1 ++ c :: tail).takeWhile isSpace = blanks.1 := by
  rw [List.takeWhile_append_of_pos (all_isSpace blanks)]
  simp [h]

theorem groups_colon {cs tail : List Char} (h : cs.dropWhile isSpace = ':' :: tail) :
    groups cs = if (tail.dropWhile isSpace).takeWhile Char.isDigit = [] then none
      else some (cs.takeWhile isSpace, tail.takeWhile isSpace,
        (tail.dropWhile isSpace).takeWhile Char.isDigit) := by
  rw [groups, h]
  rfl

/-- What is left between a key that matches and its value, and of the value's digits. -/
theorem convertAfterKey_colon (colon within : Blanks) {c : Char} (tail : List Char)
    (hspace : isSpace c = false) :
    convertAfterKey (colon.1 ++ ':' :: (within.1 ++ c :: tail)) =
      colon.1 ++ ':' :: (within.1 ++
        if (c :: tail).takeWhile Char.isDigit = [] then convertSmkIdToString (c :: tail)
        else '"' :: ((c :: tail).takeWhile Char.isDigit ++
          '"' :: convertSmkIdToString ((c :: tail).dropWhile Char.isDigit))) := by
  have hgroups : groups (colon.1 ++ ':' :: (within.1 ++ c :: tail)) =
      if (c :: tail).takeWhile Char.isDigit = [] then none
      else some (colon.1, within.1, (c :: tail).takeWhile Char.isDigit) := by
    rw [groups_colon (dropWhile_isSpace colon _ (by decide)), dropWhile_isSpace _ _ hspace,
      takeWhile_isSpace _ _ hspace, takeWhile_isSpace _ _ (by decide)]
  rw [convertAfterKey, hgroups]
  split_ifs with hdigits
  · dsimp only
    rw [convert_append _ (ne_mark_of_blanks colon), convert_cons _ (by decide),
      convert_append _ (ne_mark_of_blanks within)]
  · have hdigits : ((c :: tail).takeWhile Char.isDigit ++ (c :: tail).dropWhile Char.isDigit).drop
        ((c :: tail).takeWhile Char.isDigit).length = (c :: tail).dropWhile Char.isDigit :=
      List.drop_left
    rw [List.takeWhile_append_dropWhile] at hdigits
    have hdrop : (colon.1 ++ ':' :: (within.1 ++ c :: tail)).drop
        (colon.1.length + 1 + within.1.length + ((c :: tail).takeWhile Char.isDigit).length) =
          (c :: tail).dropWhile Char.isDigit := by
      rw [← List.drop_drop, ← List.drop_drop, ← List.drop_drop, List.drop_left,
        List.drop_succ_cons, List.drop_zero, List.drop_left, hdigits]
    dsimp only
    rw [hdrop]

/-- What follows a value. -/
def Follows (rest : List Char) : Prop :=
  ∃ (blanks : Blanks) (tail : List Char), rest = blanks.1 ++ tail ∧
    ∀ c ∈ tail.head?, c = ',' ∨ c = ']' ∨ c = '\x7d'

theorem follows_mark (blanks : Blanks) {c : Char} (tail : List Char)
    (h : c = ',' ∨ c = ']' ∨ c = '\x7d') : Follows (blanks.1 ++ c :: tail) := by
  refine ⟨blanks, c :: tail, rfl, ?_⟩
  rintro d hd
  obtain rfl := Option.some.inj hd
  exact h

theorem follows_blanks (blanks : Blanks) : Follows blanks.1 :=
  ⟨blanks, [], (List.append_nil _).symm, by simp⟩

theorem Follows.head {rest : List Char} (h : Follows rest) :
    ∀ c ∈ rest.head?, isBlank c = true ∨ c = ',' ∨ c = ']' ∨ c = '\x7d' := by
  obtain ⟨⟨blanks, hblanks⟩, tail, rfl, htail⟩ := h
  cases blanks with
  | nil => exact fun c hc => .inr (htail c hc)
  | cons b blanks =>
      rintro c hc
      obtain rfl := Option.some.inj hc
      exact .inl (hblanks _ List.mem_cons_self)

theorem Follows.groups_eq_none {rest : List Char} (h : Follows rest) : groups rest = none := by
  obtain ⟨blanks, tail, rfl, htail⟩ := h
  cases tail with
  | nil =>
      rw [groups, List.append_nil, List.dropWhile_eq_nil_iff.mpr (all_isSpace blanks)]
  | cons c tail =>
      obtain rfl | rfl | rfl := htail c rfl
      all_goals
        rw [groups, dropWhile_isSpace _ _ (by decide)]
        rfl

/-! ## the numbers that become strings -/

/-- The pattern matches at the member of a key. -/
def Matched (key : Spelling) (numeral : Numeral) : Prop :=
  EndsAsKey key.raw ∧ numeral.digits ≠ []

instance (key : Spelling) (numeral : Numeral) : Decidable (Matched key numeral) :=
  inferInstanceAs (Decidable (_ ∧ _))

theorem escapeChar_of_isDigit {c : Char} (h : c.isDigit = true) : escapeChar c = [c] := by
  simp only [Char.isDigit, Bool.and_eq_true, decide_eq_true_eq] at h
  have hlow : 48 ≤ c.toNat := h.1
  have hhigh : c.toNat ≤ 57 := h.2
  have hne : ∀ d : Char, ¬ (48 ≤ d.toNat ∧ d.toNat ≤ 57) → c ≠ d := by
    rintro d hd rfl
    exact hd ⟨hlow, hhigh⟩
  rw [escapeChar, if_neg (hne _ (by decide)), if_neg (hne _ (by decide)),
    if_neg (hne _ (by decide)), if_neg (hne _ (by decide)), if_neg (hne _ (by decide)),
    if_neg (hne _ (by decide)), if_neg (hne _ (by decide)), if_neg (by omega)]

theorem parseChars_digits {digits : List Char} (h : ∀ c ∈ digits, c.isDigit = true)
    (rest : List Char) : parseChars (digits ++ '"' :: rest) = some (digits, rest) := by
  induction digits with
  | nil => rfl
  | cons c digits ih =>
      obtain ⟨hc, hdigits⟩ := List.forall_mem_cons.mp h
      have hchar := parseChars_escapeChar c (digits ++ '"' :: rest)
      rw [escapeChar_of_isDigit hc, ih hdigits] at hchar
      exact hchar

theorem parseValue_digits (numeral : Numeral) (rest : List Char) (fuel : Nat) :
    parseValue (fuel + 1) ('"' :: (numeral.digits ++ '"' :: rest)) =
      some (.str (String.ofList (numeral.digits)), rest) := by
  rw [parseValue_mark, parseChars_digits fun c => numeral.isDigit_of_mem_digits]
  rfl

/-- How the numbers of members are spelled after the replacement: where the key matches, what is
not a digit is left behind the string. -/
def converted : Numbers where
  text key numeral :=
    if Matched key numeral then
      '"' :: (numeral.digits ++ '"' :: numeral.remainder)
    else numeral.literal
  value key numeral :=
    if Matched key numeral then .str (String.ofList (numeral.digits)) else numeral.value
  Good key numeral := Matched key numeral → numeral.remainder = []
  reads := by
    rintro key numeral hgood rest hrest fuel
    split_ifs with hmatched
    · rw [hgood hmatched, List.cons_append, List.append_assoc, List.cons_append, List.nil_append,
        parseValue_digits]
    · exact parseValue_numeral numeral hrest fuel
  fails := by
    rintro key numeral hbad rest fuel
    obtain ⟨hmatched, hremainder⟩ := Classical.not_imp.mp hbad
    obtain ⟨c, tail, htail⟩ := List.exists_cons_of_ne_nil hremainder
    refine ⟨.str (String.ofList (numeral.digits)), c, tail ++ rest, ?_, ?_⟩
    · rw [if_pos hmatched, List.cons_append, List.append_assoc, List.cons_append,
        parseValue_digits, htail, List.cons_append]
    · refine (isLiteral_spec numeral.isLiteral).2 c ?_
      rw [← numeral.digits_append_remainder, htail]
      simp

/-! ## the text of a tree -/

theorem ne_mark_of_literal (numeral : Numeral) : ∀ c ∈ numeral.literal, c ≠ '"' := by
  rintro c hc rfl
  exact absurd ((isLiteral_spec numeral.isLiteral).2 _ hc) (by decide)

/-- A value starts with no white space, and with a digit only if it is a number. -/
theorem text_start (v : Tree) :
    ∃ c tail, v.text .plain = c :: tail ∧ isSpace c = false ∧
      (c.isDigit = true → ∃ numeral, v = .num numeral) := by
  cases v with
  | bool b => cases b <;> exact ⟨_, _, rfl, by decide, fun h => absurd h (by decide)⟩
  | num numeral =>
      obtain ⟨⟨c, tail, htext, hc⟩, _⟩ := isLiteral_spec numeral.isLiteral
      refine ⟨c, tail, htext, ?_, fun _ => ⟨numeral, rfl⟩⟩
      obtain hc | rfl := hc
      · exact isSpace_of_isDigit hc
      · decide
  | _ => exact ⟨_, _, rfl, by decide, fun h => absurd h (by decide)⟩

/-- A run of characters that ends before what follows. -/
theorem while_append {p : Char → Bool} (cs : List Char) {rest : List Char}
    (h : ∀ c ∈ rest.head?, p c = false) :
    (cs ++ rest).takeWhile p = cs.takeWhile p ∧
      (cs ++ rest).dropWhile p = cs.dropWhile p ++ rest := by
  induction cs with
  | nil =>
      cases rest with
      | nil => exact ⟨rfl, rfl⟩
      | cons c rest => simp [h c rfl]
  | cons c cs ih =>
      by_cases hc : p c = true
      · simp [hc, ih]
      · simp [hc]

theorem Follows.not_isDigit {rest : List Char} (h : Follows rest) :
    ∀ c ∈ rest.head?, c.isDigit = false := by
  intro c hc
  obtain hblank | rfl | rfl | rfl := h.head c hc
  · simp only [isBlank, decide_eq_true_eq] at hblank
    obtain rfl | rfl | rfl | rfl := hblank <;> rfl
  all_goals rfl

theorem Follows.head_ne {rest : List Char} (h : Follows rest) : rest.head? ≠ some 's' := by
  intro hs
  obtain hc | hc | hc | hc := h.head 's' hs <;> exact absurd hc (by decide)

theorem orNumber_of_not_matched {key : Spelling} {v : Tree}
    (h : ∀ numeral, v = .num numeral → ¬ Matched key numeral) :
    v.orNumber (converted.text key) (v.text converted) = v.text converted := by
  cases v with
  | num numeral => exact if_neg (h numeral rfl)
  | _ => rfl

/-- What follows a key that ends as it does. -/
theorem convertAfterKey_member {v : Tree} {rest : List Char} (hrest : Follows rest)
    (hv : convertSmkIdToString (v.text .plain ++ rest) =
      v.text converted ++ convertSmkIdToString rest)
    {key : Spelling} (hkey : EndsAsKey key.raw) (colon within : Blanks) :
    convertAfterKey (colon.1 ++ ':' :: (within.1 ++ (v.text .plain ++ rest))) =
      colon.1 ++ ':' :: (within.1 ++
        (v.orNumber (converted.text key) (v.text converted) ++ convertSmkIdToString rest)) := by
  obtain ⟨c, tail, htext, hspace, hdigit⟩ := text_start v
  have hafter := convertAfterKey_colon colon within (tail ++ rest) hspace
  have hcons : c :: (tail ++ rest) = v.text .plain ++ rest := by rw [htext, List.cons_append]
  rw [hcons] at hafter
  rw [hafter]
  split_ifs with hdigits
  · rw [hv, orNumber_of_not_matched]
    rintro numeral rfl ⟨_, hne⟩
    exact hne ((while_append numeral.literal hrest.not_isDigit).1.symm.trans hdigits)
  · obtain ⟨numeral, rfl⟩ : ∃ numeral, v = .num numeral := by
      refine hdigit ?_
      by_contra hc
      rw [htext, List.cons_append] at hdigits
      exact hdigits (by simp [hc])
    obtain ⟨htake, hdrop⟩ : (numeral.literal ++ rest).takeWhile Char.isDigit = numeral.digits ∧
        (numeral.literal ++ rest).dropWhile Char.isDigit = numeral.remainder ++ rest :=
      while_append numeral.literal hrest.not_isDigit
    have hmatched : Matched key numeral := ⟨hkey, fun h => hdigits (htake.trans h)⟩
    have hremainder : ∀ c ∈ numeral.remainder, c ≠ '"' :=
      fun c hc => ne_mark_of_literal numeral c ((List.dropWhile_suffix _).subset hc)
    have hnumber : (Tree.num numeral).orNumber (converted.text key)
        ((Tree.num numeral).text converted) =
          '"' :: (numeral.digits ++ '"' :: numeral.remainder) := if_pos hmatched
    rw [hnumber, Tree.text, htake, hdrop, convert_append _ hremainder]
    simp

/-- At a member only the number may change. -/
theorem convert_member {v : Tree} {rest : List Char} (hrest : Follows rest)
    (hv : convertSmkIdToString (v.text .plain ++ rest) =
      v.text converted ++ convertSmkIdToString rest)
    (key : Spelling) (colon within : Blanks) :
    convertSmkIdToString (keyText key colon within ++ (v.text .plain ++ rest)) =
      keyText key colon within ++
        (v.orNumber (converted.text key) (v.text converted) ++ convertSmkIdToString rest) := by
  have htext : ∀ cs : List Char, keyText key colon within ++ cs =
      '"' :: (key.raw ++ '"' :: (colon.1 ++ ':' :: (within.1 ++ cs))) := by
    intro cs
    simp [keyText]
  have hhead : (colon.1 ++ ':' :: (within.1 ++ (v.text .plain ++ rest))).head? ≠ some 's' := by
    obtain ⟨blanks, hblanks⟩ := colon
    cases blanks with
    | nil => simp
    | cons b blanks =>
        intro h
        obtain rfl := Option.some.inj h
        exact absurd (hblanks _ List.mem_cons_self) (by decide)
  rw [htext, htext, convert_string key.escaped hhead]
  split_ifs with hkey
  · rw [convertAfterKey_member hrest hv hkey]
  · rw [convert_append _ (ne_mark_of_blanks colon), convert_cons _ (by decide),
      convert_append _ (ne_mark_of_blanks within), hv,
      orNumber_of_not_matched fun numeral _ hmatched => hkey hmatched.1]

theorem ne_mark_of_enclosed (blanks : Blanks) {first last : Char} (hfirst : first ≠ '"')
    (hlast : last ≠ '"') : ∀ c ∈ first :: (blanks.1 ++ [last]), c ≠ '"' := by
  simp only [List.forall_mem_cons, List.forall_mem_append, List.not_mem_nil, false_implies,
    implies_true, and_true]
  exact ⟨hfirst, ne_mark_of_blanks blanks, hlast⟩

mutual

/-- What the replacement does to the text of a tree. -/
theorem convert_tree (t : Tree) {rest : List Char} (hrest : Follows rest) :
    convertSmkIdToString (t.text .plain ++ rest) =
      t.text converted ++ convertSmkIdToString rest := by
  match t with
  | .null => exact convert_append _ (by simp [Tree.text])
  | .bool true => exact convert_append _ (by simp [Tree.text])
  | .bool false => exact convert_append _ (by simp [Tree.text])
  | .num numeral => exact convert_append _ (ne_mark_of_literal numeral)
  | .str spelling =>
      rw [Tree.text, Tree.text, List.cons_append, List.append_assoc, List.cons_append,
        List.nil_append, convert_string spelling.escaped hrest.head_ne, convertAfterKey,
        hrest.groups_eq_none, ite_self]
      simp
  | .noItems blanks => exact convert_append _ (ne_mark_of_enclosed blanks (by decide) (by decide))
  | .noMembers blanks => exact convert_append _ (ne_mark_of_enclosed blanks (by decide) (by decide))
  | .arr items =>
      rw [Tree.text, Tree.text, List.cons_append, convert_cons _ (by decide),
        convert_items items rest, List.cons_append]
  | .obj members =>
      rw [Tree.text, Tree.text, List.cons_append, convert_cons _ (by decide),
        convert_members members rest, List.cons_append]

theorem convert_items (items : Items) (rest : List Char) :
    convertSmkIdToString (items.text .plain ++ rest) =
      items.text converted ++ convertSmkIdToString rest := by
  match items with
  | .last before v after =>
      have hv := convert_tree v (follows_mark after rest (c := ']') (by decide))
      rw [convert_append _ (ne_mark_of_blanks after), convert_cons _ (by decide)] at hv
      rw [Items.text, Items.text]
      simp only [List.append_assoc, List.cons_append, List.nil_append]
      rw [convert_append _ (ne_mark_of_blanks before), hv]
  | .more before v after items =>
      have hv := convert_tree v
        (follows_mark after (items.text .plain ++ rest) (c := ',') (by decide))
      rw [convert_append _ (ne_mark_of_blanks after), convert_cons _ (by decide),
        convert_items items rest] at hv
      rw [Items.text, Items.text]
      simp only [List.append_assoc, List.cons_append]
      rw [convert_append _ (ne_mark_of_blanks before), hv]

theorem convert_members (members : Members) (rest : List Char) :
    convertSmkIdToString (members.text .plain ++ rest) =
      members.text converted ++ convertSmkIdToString rest := by
  match members with
  | .last before key colon within v after =>
      have hfollows := follows_mark after rest (c := '\x7d') (by decide)
      have hmember := convert_member hfollows (convert_tree v hfollows) key colon within
      rw [convert_append _ (ne_mark_of_blanks after), convert_cons _ (by decide)] at hmember
      rw [Members.text, Members.text, orNumber_text_plain]
      simp only [List.append_assoc, List.cons_append, List.nil_append] at hmember ⊢
      rw [convert_append _ (ne_mark_of_blanks before), hmember]
  | .more before key colon within v after members =>
      have hfollows := follows_mark after (members.text .plain ++ rest) (c := ',') (by decide)
      have hmember := convert_member hfollows (convert_tree v hfollows) key colon within
      rw [convert_append _ (ne_mark_of_blanks after), convert_cons _ (by decide),
        convert_members members rest] at hmember
      rw [Members.text, Members.text, orNumber_text_plain]
      simp only [List.append_assoc, List.cons_append] at hmember ⊢
      rw [convert_append _ (ne_mark_of_blanks before), hmember]

end

theorem convert_document (doc : Document) :
    convertSmkIdToString (doc.text .plain) = doc.text converted := by
  have hafter := convert_append [] (ne_mark_of_blanks doc.after)
  rw [List.append_nil, convert_nil, List.append_nil] at hafter
  rw [Document.text, convert_append _ (ne_mark_of_blanks doc.before),
    convert_tree doc.tree (follows_blanks doc.after), hafter, Document.text]

/-! ## the values -/

/-- The digits of a literal that is nothing else. -/
def integerDigits : Value → Option String
  | .num literal => if literal.toList.all Char.isDigit then some literal else none
  | _ => none

/-- An integer with the name `smkId` becomes a string. -/
def withStringId (key : String) (v other : Value) : Value :=
  if key = "smkId" then ((integerDigits v).map Value.str).getD other else other

mutual

/-- The integers of the members of the name `smkId` become strings. -/
def withStringIds : Value → Value
  | .arr items => .arr (withStringIdsItems items)
  | .obj members => .obj (withStringIdsMembers members)
  | v => v

def withStringIdsItems : List Value → List Value
  | [] => []
  | v :: items => withStringIds v :: withStringIdsItems items

def withStringIdsMembers : List (String × Value) → List (String × Value)
  | [] => []
  | (key, v) :: members =>
      (key, withStringId key v (withStringIds v)) :: withStringIdsMembers members

end

/-- A text is parsed to the same value after the replacement, but for the ids. -/
def KeepsAnswer (body : List Char) : Prop :=
  (parse (convertSmkIdToString body)).map settle =
    (parse body).map fun v => withStringIds (settle v)

/-! ## when the answer is kept -/

/-- A key before an integer ends as the name does if and only if it is the name. -/
def NamesId (key : Spelling) (numeral : Numeral) : Prop :=
  numeral.remainder = [] → (EndsAsKey key.raw ↔ key.name = "smkId")

mutual

/-- The keys of the members that count, those that no later one repeats. -/
def NamesIds : Tree → Prop
  | .arr items => NamesIdsItems items
  | .obj members => NamesIdsMembers members
  | _ => True

def NamesIdsItems : Items → Prop
  | .last _ v _ => NamesIds v
  | .more _ v _ items => NamesIds v ∧ NamesIdsItems items

def NamesIdsMembers : Members → Prop
  | .last _ key _ _ v _ => v.orNumber (NamesId key) (NamesIds v)
  | .more _ key _ _ v _ members =>
      (key.name ∉ members.names → v.orNumber (NamesId key) (NamesIds v)) ∧
        NamesIdsMembers members

end

theorem integerDigits_numeral (numeral : Numeral) :
    integerDigits numeral.value =
      if numeral.remainder = [] then some (String.ofList numeral.literal) else none := by
  simp [integerDigits, Numeral.value, Numeral.remainder, List.dropWhile_eq_nil_iff]

theorem matched_iff {numeral : Numeral} (h : numeral.remainder = []) (key : Spelling) :
    Matched key numeral ↔ EndsAsKey key.raw := by
  refine and_iff_left_of_imp fun _ hdigits => ?_
  obtain ⟨⟨c, tail, hliteral, _⟩, _⟩ := isLiteral_spec numeral.isLiteral
  rw [← numeral.digits_append_remainder, h, hdigits] at hliteral
  contradiction

/-- The number of a member is the value that is asked for. -/
theorem settle_number {key : Spelling} {numeral : Numeral} (hgood : converted.Good key numeral) :
    settle (converted.value key numeral) =
        withStringId key.name numeral.value (withStringIds numeral.value) ↔
      NamesId key numeral := by
  have hvalue : settle (converted.value key numeral) =
      if Matched key numeral then .str (String.ofList numeral.digits) else numeral.value := by
    simp only [converted]
    split_ifs <;> rfl
  have hself : withStringIds numeral.value = numeral.value := rfl
  rw [hvalue, hself, withStringId, integerDigits_numeral, NamesId]
  by_cases hremainder : numeral.remainder = []
  · have hdigits : numeral.digits = numeral.literal := by
      rw [← numeral.digits_append_remainder, hremainder, List.append_nil]
    simp only [matched_iff hremainder, hdigits, hremainder, Numeral.value]
    by_cases hkey : EndsAsKey key.raw <;> by_cases hname : key.name = "smkId" <;> simp [hkey, hname]
  · have hmatched : ¬ Matched key numeral := fun h => hremainder (hgood h)
    simp [hmatched, hremainder]

/-- The value of a member is the one that is asked for. -/
theorem settle_member {key : Spelling} {v : Tree}
    (hgood : v.orNumber (converted.Good key) (v.Good converted))
    (hv : v.Good converted →
      (settle (v.value converted) = withStringIds (settle (v.value .plain)) ↔ NamesIds v)) :
    settle (v.orNumber (converted.value key) (v.value converted)) =
        withStringId key.name (settle (v.value .plain)) (withStringIds (settle (v.value .plain))) ↔
      v.orNumber (NamesId key) (NamesIds v) := by
  cases v with
  | num numeral => exact settle_number hgood
  | _ => simpa [withStringId, integerDigits, Tree.value, settle, Tree.orNumber] using hv hgood

mutual

theorem settle_tree (t : Tree) (h : t.Good converted) :
    settle (t.value converted) = withStringIds (settle (t.value .plain)) ↔ NamesIds t := by
  match t with
  | .null | .bool _ | .num _ | .str _ | .noItems _ | .noMembers _ =>
      exact iff_of_true rfl trivial
  | .arr items =>
      simpa [Tree.value, settle, withStringIds, NamesIds] using settle_items items h
  | .obj members =>
      simpa [Tree.value, settle, withStringIds, NamesIds] using settle_members members h

theorem settle_items (items : Items) (h : items.Good converted) :
    settleItems (items.value converted) = withStringIdsItems (settleItems (items.value .plain)) ↔
      NamesIdsItems items := by
  match items with
  | .last _ v _ =>
      simpa [Items.value, settleItems, withStringIdsItems, NamesIdsItems] using settle_tree v h
  | .more _ v _ items =>
      simpa [Items.value, settleItems, withStringIdsItems, NamesIdsItems] using
        and_congr (settle_tree v h.1) (settle_items items h.2)

theorem settle_members (members : Members) (h : members.Good converted) :
    settleMembers (members.value converted) =
        withStringIdsMembers (settleMembers (members.value .plain)) ↔
      NamesIdsMembers members := by
  match members with
  | .last _ key _ _ v _ =>
      have hgood : v.orNumber (converted.Good key) (v.Good converted) := h
      have hv := settle_member hgood (settle_tree v)
      simpa [Members.value, settleMembers, withStringIdsMembers, NamesIdsMembers,
        orNumber_value_plain] using hv
  | .more _ key _ _ v _ members =>
      have hgood : v.orNumber (converted.Good key) (v.Good converted) := h.1
      have hv := settle_member hgood (settle_tree v)
      have hmembers := settle_members members h.2
      simp only [Members.value, settleMembers, members.names_eq, orNumber_value_plain,
        NamesIdsMembers]
      by_cases hname : key.name ∈ members.names
      · simpa [hname] using hmembers
      · simpa [hname, withStringIdsMembers] using and_congr hv hmembers

end

/-- Every text that is parsed is that of a document, and its answer is kept if and only if the
numbers after the keys that match are integers and these keys are those of the name. -/
theorem keepsAnswer_iff (body : List Char) :
    ((parse body).isSome = true → ∃ doc : Document, doc.text .plain = body) ∧
    ∀ doc : Document, doc.text .plain = body → parse body = some (doc.value .plain) ∧
      (KeepsAnswer body ↔ doc.Good converted ∧ NamesIds doc.tree) := by
  constructor
  · intro h
    obtain ⟨v, hv⟩ := Option.isSome_iff_exists.mp h
    obtain ⟨doc, htext, _⟩ := exists_document hv
    exact ⟨doc, htext⟩
  rintro doc rfl
  have hplain : parse (doc.text .plain) = some (doc.value .plain) :=
    parse_document doc.tree.good_plain
  refine ⟨hplain, ?_⟩
  rw [KeepsAnswer, hplain, convert_document]
  by_cases hgood : doc.Good converted
  · rw [parse_document hgood]
    simpa [hgood, Document.value] using settle_tree doc.tree hgood
  · simp [parse_eq_none hgood, hgood]

/-- A fraction is left behind the string. -/
theorem not_keepsAnswer : ¬ ∀ body v, parse body = some v → KeepsAnswer body := by
  intro h
  have hparse : (parse "\x7b\"smkId\":5.5\x7d".toList).isSome = true := by decide +kernel
  obtain ⟨v, hv⟩ := Option.isSome_iff_exists.mp hparse
  have hkeeps := congrArg Option.isSome (h _ v hv)
  rw [Option.isSome_map, Option.isSome_map] at hkeeps
  exact absurd hkeeps (by decide +kernel)

end Util

end SnowflakeConnector
