import SnowflakeConnector.Json

/-!
# SnowflakeConnector.Json.Tree

The syntax of JSON texts, with the blanks and the spelling of strings as the text has them.  The
numbers of members may be spelled another way, `Numbers`.

* `exists_document` -- every text that is read is the text of a document.
* `parse_document` -- and its text is read as its value.
* `parse_eq_none` -- unless the number of some member is not read to its end.
-/

namespace SnowflakeConnector

namespace Json

/-! ## syntax -/

abbrev Blanks := { cs : List Char // ∀ c ∈ cs, isBlank c = true }

/-- The marks within a string follow a backslash. -/
def Escaped : List Char → Prop
  | [] => True
  | '\\' :: _ :: cs => Escaped cs
  | '"' :: _ => False
  | _ :: cs => Escaped cs

/-- The characters between the marks of a string, and those they stand for. -/
structure Spelling where
  raw : List Char
  chars : List Char
  reads : parseChars (raw ++ ['"']) = some (chars, [])
  escaped : Escaped raw

def Spelling.name (spelling : Spelling) : String := String.ofList spelling.chars

structure Numeral where
  literal : List Char
  isLiteral : isLiteral literal = true

namespace Numeral

variable (numeral : Numeral)

def value : Value := .num (String.ofList numeral.literal)

def digits : List Char := numeral.literal.takeWhile Char.isDigit

/-- A fraction or an exponent, or all of a negative number. -/
def remainder : List Char := numeral.literal.dropWhile Char.isDigit

theorem digits_append_remainder : numeral.digits ++ numeral.remainder = numeral.literal :=
  List.takeWhile_append_dropWhile

theorem isDigit_of_mem_digits {c : Char} (h : c ∈ numeral.digits) : c.isDigit = true :=
  List.mem_takeWhile_imp h

end Numeral

mutual

inductive Tree
  | null
  | bool (b : Bool)
  | num (numeral : Numeral)
  | str (spelling : Spelling)
  | noItems (blanks : Blanks)
  | arr (items : Items)
  | noMembers (blanks : Blanks)
  | obj (members : Members)

/-- The items of a list that has some, up to its closing bracket. -/
inductive Items
  | last (before : Blanks) (v : Tree) (after : Blanks)
  | more (before : Blanks) (v : Tree) (after : Blanks) (items : Items)

/-- The members of an object that has some, up to its closing brace. -/
inductive Members
  | last (before : Blanks) (key : Spelling) (colon within : Blanks) (v : Tree) (after : Blanks)
  | more (before : Blanks) (key : Spelling) (colon within : Blanks) (v : Tree) (after : Blanks)
      (members : Members)

end

/-- A tree, or what stands for a number. -/
def Tree.orNumber {α : Sort*} (number : Numeral → α) (other : α) : Tree → α
  | .num numeral => number numeral
  | _ => other

/-! ## numbers of members -/

/-- How the number of a member is spelled.  A good one is read as a value; where one is not, what
is read of it is followed by a character of a number. -/
structure Numbers where
  text : Spelling → Numeral → List Char
  value : Spelling → Numeral → Value
  Good : Spelling → Numeral → Prop
  reads : ∀ {key numeral}, Good key numeral → ∀ {rest}, Ends rest → ∀ fuel,
    parseValue (fuel + 1) (text key numeral ++ rest) = some (value key numeral, rest)
  fails : ∀ {key numeral}, ¬ Good key numeral → ∀ rest fuel, ∃ v c tail,
    parseValue (fuel + 1) (text key numeral ++ rest) = some (v, c :: tail) ∧
      isNumberChar c = true

section

variable (n : Numbers)

/-- A member up to its value. -/
def keyText (key : Spelling) (colon within : Blanks) : List Char :=
  '"' :: (key.raw ++ '"' :: (colon.1 ++ ':' :: within.1))

mutual

def Tree.text : Tree → List Char
  | .null => ['n', 'u', 'l', 'l']
  | .bool true => ['t', 'r', 'u', 'e']
  | .bool false => ['f', 'a', 'l', 's', 'e']
  | .num numeral => numeral.literal
  | .str spelling => '"' :: (spelling.raw ++ ['"'])
  | .noItems blanks => '[' :: (blanks.1 ++ [']'])
  | .arr items => '[' :: items.text
  | .noMembers blanks => '\x7b' :: (blanks.1 ++ ['\x7d'])
  | .obj members => '\x7b' :: members.text

def Items.text : Items → List Char
  | .last before v after => before.1 ++ v.text ++ (after.1 ++ [']'])
  | .more before v after items => before.1 ++ v.text ++ (after.1 ++ ',' :: items.text)

def Members.text : Members → List Char
  | .last before key colon within v after =>
      before.1 ++ keyText key colon within ++ v.orNumber (n.text key) v.text ++
        (after.1 ++ ['\x7d'])
  | .more before key colon within v after members =>
      before.1 ++ keyText key colon within ++ v.orNumber (n.text key) v.text ++
        (after.1 ++ ',' :: members.text)

end

mutual

def Tree.value : Tree → Value
  | .null => .null
  | .bool b => .bool b
  | .num numeral => numeral.value
  | .str spelling => .str spelling.name
  | .noItems _ => .arr []
  | .arr items => .arr items.value
  | .noMembers _ => .obj []
  | .obj members => .obj members.value

def Items.value : Items → List Value
  | .last _ v _ => [v.value]
  | .more _ v _ items => v.value :: items.value

def Members.value : Members → List (String × Value)
  | .last _ key _ _ v _ => [(key.name, v.orNumber (n.value key) v.value)]
  | .more _ key _ _ v _ members =>
      (key.name, v.orNumber (n.value key) v.value) :: members.value

end

/-- The names of the members, in their order. -/
def Members.names : Members → List String
  | .last _ key _ _ _ _ => [key.name]
  | .more _ key _ _ _ _ members => key.name :: members.names

theorem Members.names_eq (members : Members) :
    (members.value n).map Prod.fst = members.names := by
  match members with
  | .last .. => rfl
  | .more _ _ _ _ _ _ members => rw [Members.value, List.map_cons, members.names_eq, names]

mutual

/-- The numbers of all members are good. -/
def Tree.Good : Tree → Prop
  | .arr items => items.Good
  | .obj members => members.Good
  | _ => True

def Items.Good : Items → Prop
  | .last _ v _ => v.Good
  | .more _ v _ items => v.Good ∧ items.Good

def Members.Good : Members → Prop
  | .last _ key _ _ v _ => v.orNumber (n.Good key) v.Good
  | .more _ key _ _ v _ members => v.orNumber (n.Good key) v.Good ∧ members.Good

end

end

/-! ## blanks -/

theorem skipBlanks_blanks (blanks : Blanks) (rest : List Char) :
    skipBlanks (blanks.1 ++ rest) = skipBlanks rest :=
  List.dropWhile_append_of_pos blanks.2

theorem skipBlanks_mark {c : Char} (blanks : Blanks) (rest : List Char) (h : isBlank c = false) :
    skipBlanks (blanks.1 ++ c :: rest) = c :: rest := by
  rw [skipBlanks_blanks, skipBlanks_cons rest h]

theorem ends_mark {c : Char} (blanks : Blanks) (rest : List Char) (h : isNumberChar c = false) :
    Ends (blanks.1 ++ c :: rest) := by
  obtain ⟨cs, hblanks⟩ := blanks
  cases cs with
  | nil => exact ends_cons rest h
  | cons b cs =>
      refine ends_cons _ ?_
      have hb := hblanks b List.mem_cons_self
      simp only [isBlank, decide_eq_true_eq] at hb
      obtain rfl | rfl | rfl | rfl := hb <;> rfl

theorem parseValue_blanks (fuel : Nat) (blanks : Blanks) (cs : List Char) :
    parseValue fuel (blanks.1 ++ cs) = parseValue fuel cs := by
  rw [← parseValue_skipBlanks, skipBlanks_blanks, parseValue_skipBlanks]

theorem parseItems_skipBlanks (fuel : Nat) (cs : List Char) :
    parseItems fuel (skipBlanks cs) = parseItems fuel cs := by
  cases fuel with
  | zero => rfl
  | succ fuel => rw [parseItems, parseItems, parseValue_skipBlanks]

theorem parseMembers_skipBlanks (fuel : Nat) (cs : List Char) :
    parseMembers fuel (skipBlanks cs) = parseMembers fuel cs := by
  have hidem : skipBlanks (skipBlanks cs) = skipBlanks cs := List.dropWhile_idempotent _ _
  match fuel with
  | 0 => rfl
  | 1 => rfl
  | fuel + 2 => rw [parseMembers, parseMembers, parseMember, parseMember, hidem]

/-- The blanks at the start of a text. -/
theorem exists_blanks (cs : List Char) : ∃ blanks : Blanks, cs = blanks.1 ++ skipBlanks cs :=
  ⟨⟨cs.takeWhile isBlank, fun _ h => List.mem_takeWhile_imp h⟩,
    List.takeWhile_append_dropWhile.symm⟩

/-! ## strings -/

theorem Spelling.parseChars_raw (spelling : Spelling) (rest : List Char) :
    parseChars (spelling.raw ++ '"' :: rest) = some (spelling.chars, rest) := by
  have h := parseChars_append rest spelling.reads
  rwa [List.append_assoc] at h

theorem escaped_cons {c : Char} {cs : List Char} (hslash : c ≠ '\\') (hmark : c ≠ '"') :
    Escaped (c :: cs) ↔ Escaped cs := by
  rw [Escaped]
  · exact fun _ _ h _ => hslash h
  · exact hmark

theorem ne_of_hexValue {c : Char} {n : Nat} (h : hexValue c = some n) : c ≠ '\\' ∧ c ≠ '"' := by
  constructor <;> rintro rfl <;> contradiction

theorem escaped_hexUnit {a b c d : Char} {n : Nat} (h : hexUnit a b c d = some n)
    (cs : List Char) : Escaped ('\\' :: 'u' :: a :: b :: c :: d :: cs) ↔ Escaped cs := by
  simp only [hexUnit, Option.bind_eq_bind, Option.bind_eq_some_iff] at h
  obtain ⟨_, ha, _, hb, _, hc, _, hd, _⟩ := h
  rw [Escaped, escaped_cons (ne_of_hexValue ha).1 (ne_of_hexValue ha).2,
    escaped_cons (ne_of_hexValue hb).1 (ne_of_hexValue hb).2,
    escaped_cons (ne_of_hexValue hc).1 (ne_of_hexValue hc).2,
    escaped_cons (ne_of_hexValue hd).1 (ne_of_hexValue hd).2]

/-- A string that is read has a spelling. -/
theorem exists_spelling {cs chars rest : List Char} (h : parseChars cs = some (chars, rest)) :
    ∃ spelling : Spelling, spelling.chars = chars ∧ cs = spelling.raw ++ '"' :: rest := by
  fun_induction parseChars cs generalizing chars rest with
  | case1 => contradiction
  | case2 tail =>
      obtain ⟨rfl, rfl⟩ := Prod.mk.inj (Option.some.inj h)
      exact ⟨⟨[], [], rfl, trivial⟩, rfl, rfl⟩
  | case4 a b c d tail high hhigh hchar ih =>
      obtain ⟨r, hr, hs⟩ := Option.map_eq_some_iff.mp h
      obtain ⟨rfl, rfl⟩ := Prod.mk.inj hs
      obtain ⟨spelling, hchars, rfl⟩ := ih hr
      refine ⟨⟨_, _, ?_, (escaped_hexUnit hhigh spelling.raw).mpr spelling.escaped⟩, rfl, rfl⟩
      simp only [List.cons_append, parseChars, hhigh, if_pos hchar, spelling.reads, hchars]
      rfl
  | case6 a b c d high hhigh hchar a' b' c' d' tail low hlow hpair ih =>
      obtain ⟨r, hr, hs⟩ := Option.map_eq_some_iff.mp h
      obtain ⟨rfl, rfl⟩ := Prod.mk.inj hs
      obtain ⟨spelling, hchars, rfl⟩ := ih hr
      refine ⟨⟨_, _, ?_, (escaped_hexUnit hhigh _).mpr
        ((escaped_hexUnit hlow spelling.raw).mpr spelling.escaped)⟩, rfl, rfl⟩
      simp only [List.cons_append, parseChars, hhigh, if_neg hchar, hlow, if_pos hpair,
        spelling.reads, hchars]
      rfl
  | case10 c tail hunit e hescape ih =>
      obtain ⟨r, hr, hs⟩ := Option.map_eq_some_iff.mp h
      obtain ⟨rfl, rfl⟩ := Prod.mk.inj hs
      obtain ⟨spelling, hchars, rfl⟩ := ih hr
      have hu : c ≠ 'u' := by
        rintro rfl
        contradiction
      have hletter := parseChars.eq_4 c (spelling.raw ++ ['"']) fun _ _ _ _ _ hc => absurd hc hu
      refine ⟨⟨'\\' :: c :: spelling.raw, _, ?_, spelling.escaped⟩, rfl, rfl⟩
      rw [List.cons_append, List.cons_append, hletter, hescape]
      simp [spelling.reads, hchars]
  | case12 c tail hmark hunit hslash hplain ih =>
      obtain ⟨r, hr, hs⟩ := Option.map_eq_some_iff.mp h
      obtain ⟨rfl, rfl⟩ := Prod.mk.inj hs
      obtain ⟨spelling, hchars, rfl⟩ := ih hr
      have hc : c ≠ '\\' := fun hc => hplain (Or.inr hc)
      have hself := parseChars.eq_5 c (spelling.raw ++ ['"']) hmark
        (fun _ _ _ _ _ h => absurd h hc) fun _ _ h => absurd h hc
      refine ⟨⟨c :: spelling.raw, _, ?_, (escaped_cons hc hmark).mpr spelling.escaped⟩, rfl, rfl⟩
      rw [List.cons_append, hself, if_neg hplain]
      simp [spelling.reads, hchars]
  | _ => contradiction

/-! ## numbers -/

theorem parseValue_numeral (numeral : Numeral) {rest : List Char} (hrest : Ends rest)
    (fuel : Nat) :
    parseValue (fuel + 1) (numeral.literal ++ rest) = some (numeral.value, rest) := by
  obtain ⟨⟨c, tail, hcs, hc⟩, _⟩ := isLiteral_spec numeral.isLiteral
  have hnumber := parseNumber_literal numeral.isLiteral hrest
  rw [hcs, List.cons_append, parseValue_number _ _ hc, ← List.cons_append, ← hcs, hnumber]
  rfl

theorem isBlank_of_isNumberChar {c : Char} (h : isNumberChar c = true) : isBlank c = false := by
  by_contra hblank
  simp only [isBlank, Bool.not_eq_false, decide_eq_true_eq] at hblank
  obtain rfl | rfl | rfl | rfl := hblank <;> contradiction

/-- The numbers of members as they stand. -/
def Numbers.plain : Numbers where
  text _ numeral := numeral.literal
  value _ numeral := numeral.value
  Good _ _ := True
  reads _ _ hrest fuel := parseValue_numeral _ hrest fuel
  fails h := absurd trivial h

theorem orNumber_text_plain (key : Spelling) (v : Tree) :
    v.orNumber (Numbers.plain.text key) (v.text .plain) = v.text .plain := by
  cases v <;> rfl

theorem orNumber_value_plain (key : Spelling) (v : Tree) :
    v.orNumber (Numbers.plain.value key) (v.value .plain) = v.value .plain := by
  cases v <;> rfl

theorem orNumber_good_plain {key : Spelling} {v : Tree} (h : v.Good .plain) :
    v.orNumber (Numbers.plain.Good key) (v.Good .plain) := by
  cases v <;> exact h

mutual

theorem Tree.good_plain : (t : Tree) → t.Good .plain
  | .arr items => items.good_plain
  | .obj members => members.good_plain
  | .null | .bool _ | .num _ | .str _ | .noItems _ | .noMembers _ => trivial

theorem Items.good_plain : (items : Items) → items.Good .plain
  | .last _ v _ => v.good_plain
  | .more _ v _ items => ⟨v.good_plain, items.good_plain⟩

theorem Members.good_plain : (members : Members) → members.Good .plain
  | .last _ _ _ _ v _ => orNumber_good_plain v.good_plain
  | .more _ _ _ _ v _ members => ⟨orNumber_good_plain v.good_plain, members.good_plain⟩

end

/-! ## trees are read -/

section

variable (n : Numbers)

theorem Tree.text_head (t : Tree) :
    ∃ c tail, t.text n = c :: tail ∧ isBlank c = false ∧ c ≠ ']' := by
  cases t with
  | bool b => cases b <;> exact ⟨_, _, rfl, by decide, by decide⟩
  | num numeral =>
      obtain ⟨c, tail, htext, hblank, hc⟩ := stringify_head numeral.value
        (by simpa [Numeral.value, Valid] using numeral.isLiteral)
      exact ⟨c, tail, by simpa [Numeral.value, stringify, Tree.text] using htext, hblank, hc⟩
  | _ => exact ⟨_, _, rfl, by decide, by decide⟩

theorem Items.text_head (items : Items) (rest : List Char) :
    ∃ c tail, skipBlanks (items.text n ++ rest) = c :: tail ∧ c ≠ ']' := by
  cases items with
  | last before v after =>
      obtain ⟨c, tail, hv, hblank, hc⟩ := v.text_head n
      refine ⟨c, tail ++ (after.1 ++ ([']'] ++ rest)), ?_, hc⟩
      rw [Items.text, hv, List.append_assoc, List.append_assoc, List.append_assoc,
        skipBlanks_blanks, List.cons_append, skipBlanks_cons _ hblank]
  | more before v after items =>
      obtain ⟨c, tail, hv, hblank, hc⟩ := v.text_head n
      refine ⟨c, tail ++ (after.1 ++ (',' :: items.text n ++ rest)), ?_, hc⟩
      rw [Items.text, hv, List.append_assoc, List.append_assoc, List.append_assoc,
        skipBlanks_blanks, List.cons_append, skipBlanks_cons _ hblank]

theorem Members.text_head (members : Members) (rest : List Char) :
    ∃ tail, skipBlanks (members.text n ++ rest) = '"' :: tail := by
  cases members with
  | last => exact ⟨_, by
      rw [Members.text, List.append_assoc, List.append_assoc, List.append_assoc,
        skipBlanks_blanks, keyText, List.cons_append, skipBlanks_cons _ (by decide)]⟩
  | more => exact ⟨_, by
      rw [Members.text, List.append_assoc, List.append_assoc, List.append_assoc,
        skipBlanks_blanks, keyText, List.cons_append, skipBlanks_cons _ (by decide)]⟩

/-- A list that has items is read item by item. -/
theorem parseValue_arr (items : Items) (rest : List Char) (fuel : Nat) :
    parseValue (fuel + 1) ((Tree.arr items).text n ++ rest) =
      (parseItems fuel (items.text n ++ rest)).map fun r => (.arr r.1, r.2) := by
  obtain ⟨c, tail, hhead, hc⟩ := items.text_head n rest
  rw [Tree.text, List.cons_append, parseValue_someItems fuel hhead hc, ← hhead,
    parseItems_skipBlanks]

theorem parseValue_obj (members : Members) (rest : List Char) (fuel : Nat) :
    parseValue (fuel + 1) ((Tree.obj members).text n ++ rest) =
      (parseMembers fuel (members.text n ++ rest)).map fun r => (.obj r.1, r.2) := by
  obtain ⟨tail, hhead⟩ := members.text_head n rest
  rw [Tree.text, List.cons_append, parseValue_someMembers fuel hhead (by decide), ← hhead,
    parseMembers_skipBlanks]

/-- A member is read up to its value, and then its value is. -/
theorem parseMember_key (before : Blanks) (key : Spelling) (colon within : Blanks)
    (cs : List Char) (fuel : Nat) :
    parseMember (fuel + 1) (before.1 ++ keyText key colon within ++ cs) =
      (parseValue fuel cs).map fun r => ((key.name, r.1), r.2) := by
  have htext : before.1 ++ keyText key colon within ++ cs =
      before.1 ++ '"' :: (key.raw ++ '"' :: (colon.1 ++ ':' :: (within.1 ++ cs))) := by
    simp [keyText]
  have hopen : skipBlanks (before.1 ++ keyText key colon within ++ cs) =
      '"' :: (key.raw ++ '"' :: (colon.1 ++ ':' :: (within.1 ++ cs))) := by
    rw [htext, skipBlanks_mark _ _ (by decide)]
  rw [parseMember]
  split
  · next tail htail =>
      obtain rfl := (List.cons.inj (hopen.symm.trans htail)).2
      rw [key.parseChars_raw]
      dsimp only
      rw [skipBlanks_mark _ _ (by decide)]
      change (parseValue fuel _).map _ = _
      rw [parseValue_blanks]
      rfl
  · next hmark => exact absurd hopen (hmark _)

/-- The value of a member is read if the tree is. -/
theorem parseMember_good {key : Spelling} {v : Tree} (h : v.orNumber (n.Good key) (v.Good n))
    {rest : List Char} (hrest : Ends rest) {fuel : Nat}
    (hfuel : (v.orNumber (n.text key) (v.text n)).length < fuel + 1)
    (hv : (v.text n).length < fuel + 1 → v.Good n →
      parseValue (fuel + 1) (v.text n ++ rest) = some (v.value n, rest))
    (before colon within : Blanks) :
    parseMember (fuel + 2) (before.1 ++ keyText key colon within ++
        (v.orNumber (n.text key) (v.text n) ++ rest)) =
      some ((key.name, v.orNumber (n.value key) (v.value n)), rest) := by
  rw [parseMember_key]
  cases v with
  | num numeral => exact congrArg (Option.map _) (n.reads h hrest fuel)
  | _ => exact congrArg (Option.map _) (hv hfuel h)

mutual

/-- A good tree is read from its text. -/
theorem parseValue_text (t : Tree) (h : t.Good n) (rest : List Char) (hrest : Ends rest)
    (fuel : Nat) (hfuel : (t.text n).length < fuel) :
    parseValue fuel (t.text n ++ rest) = some (t.value n, rest) := by
  cases fuel with
  | zero => contradiction
  | succ fuel =>
    match t with
    | .null => rfl
    | .bool true => rfl
    | .bool false => rfl
    | .num numeral => exact parseValue_numeral numeral hrest fuel
    | .str spelling =>
        rw [Tree.text, List.cons_append, List.append_assoc, List.singleton_append,
          parseValue_mark, spelling.parseChars_raw]
        rfl
    | .noItems blanks =>
        rw [Tree.text, List.cons_append, List.append_assoc, List.singleton_append]
        exact parseValue_noItems fuel (skipBlanks_mark _ _ (by decide))
    | .noMembers blanks =>
        rw [Tree.text, List.cons_append, List.append_assoc, List.singleton_append]
        exact parseValue_noMembers fuel (skipBlanks_mark _ _ (by decide))
    | .arr items =>
        have hitems := parseItems_text items h rest fuel (by simpa [Tree.text] using hfuel)
        rw [parseValue_arr, hitems]
        rfl
    | .obj members =>
        have hmembers := parseMembers_text members h rest fuel (by simpa [Tree.text] using hfuel)
        rw [parseValue_obj, hmembers]
        rfl
termination_by fuel

theorem parseItems_text (items : Items) (h : items.Good n) (rest : List Char) (fuel : Nat)
    (hfuel : (items.text n).length < fuel) :
    parseItems fuel (items.text n ++ rest) = some (items.value n, rest) := by
  cases fuel with
  | zero => contradiction
  | succ fuel =>
    match items with
    | .last before v after =>
        have hv := parseValue_text v h (after.1 ++ ']' :: rest) (ends_mark _ _ (by decide)) fuel
          (by simp [Items.text] at hfuel; omega)
        have htext : (Items.last before v after).text n ++ rest =
            before.1 ++ (v.text n ++ (after.1 ++ ']' :: rest)) := by simp [Items.text]
        rw [htext, parseItems, parseValue_blanks, hv]
        dsimp only
        rw [skipBlanks_mark _ _ (by decide)]
        rfl
    | .more before v after items =>
        have hv := parseValue_text v h.1 (after.1 ++ ',' :: (items.text n ++ rest))
          (ends_mark _ _ (by decide)) fuel (by simp [Items.text] at hfuel; omega)
        have hitems := parseItems_text items h.2 rest fuel
          (by simp [Items.text] at hfuel; omega)
        have htext : (Items.more before v after items).text n ++ rest =
            before.1 ++ (v.text n ++ (after.1 ++ ',' :: (items.text n ++ rest))) := by
          simp [Items.text]
        rw [htext, parseItems, parseValue_blanks, hv]
        dsimp only
        rw [skipBlanks_mark _ _ (by decide)]
        change (parseItems fuel _).map _ = _
        rw [hitems]
        rfl
termination_by fuel

theorem parseMembers_text (members : Members) (h : members.Good n) (rest : List Char) (fuel : Nat)
    (hfuel : (members.text n).length < fuel) :
    parseMembers fuel (members.text n ++ rest) = some (members.value n, rest) := by
  match fuel with
  | 0 | 1 | 2 => exact absurd hfuel (by cases members <;> simp [Members.text, keyText] <;> omega)
  | fuel + 3 =>
    match members with
    | .last before key colon within v after =>
        have hmember := parseMember_good n h (ends_mark after rest (c := '\x7d') (by decide))
          (by simp [Members.text, keyText] at hfuel; omega)
          (fun hlt hv => parseValue_text v hv _ (ends_mark _ _ (by decide)) (fuel + 1) hlt)
          before colon within
        have htext : (Members.last before key colon within v after).text n ++ rest =
            before.1 ++ keyText key colon within ++
              (v.orNumber (n.text key) (v.text n) ++ (after.1 ++ '\x7d' :: rest)) := by
          simp [Members.text]
        rw [htext, parseMembers, hmember]
        dsimp only
        rw [skipBlanks_mark _ _ (by decide)]
        rfl
    | .more before key colon within v after members =>
        have hmember := parseMember_good n h.1
          (ends_mark after (members.text n ++ rest) (c := ',') (by decide))
          (by simp [Members.text, keyText] at hfuel; omega)
          (fun hlt hv => parseValue_text v hv _ (ends_mark _ _ (by decide)) (fuel + 1) hlt)
          before colon within
        have hmembers := parseMembers_text members h.2 rest (fuel + 2)
          (by simp [Members.text, keyText] at hfuel; omega)
        have htext : (Members.more before key colon within v after members).text n ++ rest =
            before.1 ++ keyText key colon within ++ (v.orNumber (n.text key) (v.text n) ++
              (after.1 ++ ',' :: (members.text n ++ rest))) := by
          simp [Members.text]
        rw [htext, parseMembers, hmember]
        dsimp only
        rw [skipBlanks_mark _ _ (by decide)]
        change (parseMembers (fuel + 2) _).map _ = _
        rw [hmembers]
        rfl
termination_by fuel

end

/-! ## numbers that are not read to their end -/

theorem parseMembers_bad {key : Spelling} {v : Tree}
    (h : ¬ v.orNumber (n.Good key) (v.Good n)) {rest : List Char} {fuel : Nat}
    (hfuel : (v.orNumber (n.text key) (v.text n)).length < fuel + 1)
    (hv : (v.text n).length < fuel + 1 → ¬ v.Good n →
      parseValue (fuel + 1) (v.text n ++ rest) = none)
    (before colon within : Blanks) :
    parseMembers (fuel + 3) (before.1 ++ keyText key colon within ++
      (v.orNumber (n.text key) (v.text n) ++ rest)) = none := by
  rw [parseMembers, parseMember_key]
  cases v with
  | num numeral =>
      obtain ⟨v, c, tail, hread, hc⟩ := n.fails h rest fuel
      have hskip := skipBlanks_cons tail (isBlank_of_isNumberChar hc)
      have hcomma : c ≠ ',' := by
        rintro rfl
        contradiction
      have hbrace : c ≠ '\x7d' := by
        rintro rfl
        contradiction
      simp only [Tree.orNumber, hread, Option.map_some, hskip]
      split
      · next heq => exact absurd (List.cons.inj heq).1 hcomma
      · next heq => exact absurd (List.cons.inj heq).1 hbrace
      · rfl
  | _ =>
      simp only [Tree.orNumber] at hfuel h ⊢
      rw [hv hfuel h]
      rfl

mutual

/-- A tree with a number that is not good is not read. -/
theorem parseValue_eq_none (t : Tree) (h : ¬ t.Good n) (rest : List Char) (fuel : Nat)
    (hfuel : (t.text n).length < fuel) : parseValue fuel (t.text n ++ rest) = none := by
  cases fuel with
  | zero => contradiction
  | succ fuel =>
    match t with
    | .null | .bool _ | .num _ | .str _ | .noItems _ | .noMembers _ => exact absurd trivial h
    | .arr items =>
        have hitems := parseItems_eq_none items h rest fuel (by simpa [Tree.text] using hfuel)
        rw [parseValue_arr, hitems]
        rfl
    | .obj members =>
        have hmembers := parseMembers_eq_none members h rest fuel
          (by simpa [Tree.text] using hfuel)
        rw [parseValue_obj, hmembers]
        rfl
termination_by fuel

theorem parseItems_eq_none (items : Items) (h : ¬ items.Good n) (rest : List Char) (fuel : Nat)
    (hfuel : (items.text n).length < fuel) : parseItems fuel (items.text n ++ rest) = none := by
  cases fuel with
  | zero => contradiction
  | succ fuel =>
    match items with
    | .last before v after =>
        have hv := parseValue_eq_none v h (after.1 ++ ']' :: rest) fuel
          (by simp [Items.text] at hfuel; omega)
        have htext : (Items.last before v after).text n ++ rest =
            before.1 ++ (v.text n ++ (after.1 ++ ']' :: rest)) := by simp [Items.text]
        rw [htext, parseItems, parseValue_blanks, hv]
    | .more before v after items =>
        have hlength : (v.text n).length < fuel := by
          simp [Items.text] at hfuel
          omega
        have htext : (Items.more before v after items).text n ++ rest =
            before.1 ++ (v.text n ++ (after.1 ++ ',' :: (items.text n ++ rest))) := by
          simp [Items.text]
        rw [htext, parseItems, parseValue_blanks]
        by_cases hgood : v.Good n
        · have hv := parseValue_text n v hgood (after.1 ++ ',' :: (items.text n ++ rest))
            (ends_mark _ _ (by decide)) fuel hlength
          have hitems := parseItems_eq_none items (fun hitems => h ⟨hgood, hitems⟩) rest fuel
            (by simp [Items.text] at hfuel; omega)
          rw [hv]
          dsimp only
          rw [skipBlanks_mark _ _ (by decide)]
          change (parseItems fuel _).map _ = _
          rw [hitems]
          rfl
        · rw [parseValue_eq_none v hgood _ fuel hlength]
termination_by fuel

theorem parseMembers_eq_none (members : Members) (h : ¬ members.Good n) (rest : List Char)
    (fuel : Nat) (hfuel : (members.text n).length < fuel) :
    parseMembers fuel (members.text n ++ rest) = none := by
  match fuel with
  | 0 | 1 | 2 => exact absurd hfuel (by cases members <;> simp [Members.text, keyText] <;> omega)
  | fuel + 3 =>
    match members with
    | .last before key colon within v after =>
        have htext : (Members.last before key colon within v after).text n ++ rest =
            before.1 ++ keyText key colon within ++
              (v.orNumber (n.text key) (v.text n) ++ (after.1 ++ '\x7d' :: rest)) := by
          simp [Members.text]
        rw [htext]
        exact parseMembers_bad n h (by simp [Members.text, keyText] at hfuel; omega)
          (fun hlt hv => parseValue_eq_none v hv _ (fuel + 1) hlt) before colon within
    | .more before key colon within v after members =>
        have hlength : (v.orNumber (n.text key) (v.text n)).length < fuel + 1 := by
          simp [Members.text, keyText] at hfuel
          omega
        have htext : (Members.more before key colon within v after members).text n ++ rest =
            before.1 ++ keyText key colon within ++ (v.orNumber (n.text key) (v.text n) ++
              (after.1 ++ ',' :: (members.text n ++ rest))) := by
          simp [Members.text]
        rw [htext]
        by_cases hgood : v.orNumber (n.Good key) (v.Good n)
        · have hmember := parseMember_good n hgood
            (ends_mark after (members.text n ++ rest) (c := ',') (by decide)) hlength
            (fun hlt hv => parseValue_text n v hv _ (ends_mark _ _ (by decide)) (fuel + 1) hlt)
            before colon within
          have hmembers := parseMembers_eq_none members (fun hmembers => h ⟨hgood, hmembers⟩) rest
            (fuel + 2) (by simp [Members.text, keyText] at hfuel; omega)
          rw [parseMembers, hmember]
          dsimp only
          rw [skipBlanks_mark _ _ (by decide)]
          change (parseMembers (fuel + 2) _).map _ = _
          rw [hmembers]
          rfl
        · exact parseMembers_bad n hgood hlength
            (fun hlt hv => parseValue_eq_none v hv _ (fuel + 1) hlt) before colon within
termination_by fuel

end

end

/-! ## what is read has a tree -/

theorem exists_numeral {cs rest : List Char} {v : Value} (h : parseNumber cs = some (v, rest)) :
    ∃ numeral : Numeral, numeral.value = v ∧ cs = numeral.literal ++ rest := by
  unfold parseNumber at h
  dsimp only at h
  split_ifs at h with hliteral
  obtain ⟨rfl, rfl⟩ := Prod.mk.inj (Option.some.inj h)
  exact ⟨⟨_, hliteral⟩, rfl, List.takeWhile_append_dropWhile.symm⟩

mutual

/-- A value that is read has a tree, after blanks. -/
theorem exists_tree {fuel : Nat} {cs rest : List Char} {v : Value}
    (h : parseValue fuel cs = some (v, rest)) :
    ∃ (before : Blanks) (t : Tree), t.value .plain = v ∧
      cs = before.1 ++ (t.text .plain ++ rest) := by
  match fuel with
  | 0 => contradiction
  | fuel + 1 =>
    obtain ⟨before, hbefore⟩ := exists_blanks cs
    suffices hskip : ∃ t : Tree, t.value .plain = v ∧ skipBlanks cs = t.text .plain ++ rest by
      obtain ⟨t, hv, htext⟩ := hskip
      exact ⟨before, t, hv, htext ▸ hbefore⟩
    rw [parseValue] at h
    split at h
    · next tail hcs =>
        obtain ⟨rfl, rfl⟩ := Prod.mk.inj (Option.some.inj h)
        exact ⟨.null, rfl, hcs⟩
    · next tail hcs =>
        obtain ⟨rfl, rfl⟩ := Prod.mk.inj (Option.some.inj h)
        exact ⟨.bool true, rfl, hcs⟩
    · next tail hcs =>
        obtain ⟨rfl, rfl⟩ := Prod.mk.inj (Option.some.inj h)
        exact ⟨.bool false, rfl, hcs⟩
    · next tail hcs =>
        obtain ⟨r, hr, hs⟩ := Option.map_eq_some_iff.mp h
        obtain ⟨rfl, rfl⟩ := Prod.mk.inj hs
        obtain ⟨spelling, hchars, htail⟩ := exists_spelling hr
        refine ⟨.str spelling, ?_, ?_⟩
        · rw [Tree.value, Spelling.name, hchars]
        · rw [hcs, htail]
          simp [Tree.text]
    · next tail hcs =>
        obtain ⟨blanks, hblanks⟩ := exists_blanks tail
        split at h
        · next tail' htail =>
            obtain ⟨rfl, rfl⟩ := Prod.mk.inj (Option.some.inj h)
            refine ⟨.noItems blanks, rfl, ?_⟩
            rw [hcs, hblanks, htail]
            simp [Tree.text]
        · obtain ⟨r, hr, hs⟩ := Option.map_eq_some_iff.mp h
          obtain ⟨rfl, rfl⟩ := Prod.mk.inj hs
          rw [parseItems_skipBlanks] at hr
          obtain ⟨items, hitems, rfl⟩ := exists_items hr
          exact ⟨.arr items, congrArg Value.arr hitems, hcs⟩
    · next tail hcs =>
        obtain ⟨blanks, hblanks⟩ := exists_blanks tail
        split at h
        · next tail' htail =>
            obtain ⟨rfl, rfl⟩ := Prod.mk.inj (Option.some.inj h)
            refine ⟨.noMembers blanks, rfl, ?_⟩
            rw [hcs, hblanks, htail]
            simp [Tree.text]
        · obtain ⟨r, hr, hs⟩ := Option.map_eq_some_iff.mp h
          obtain ⟨rfl, rfl⟩ := Prod.mk.inj hs
          rw [parseMembers_skipBlanks] at hr
          obtain ⟨members, hmembers, rfl⟩ := exists_members hr
          exact ⟨.obj members, congrArg Value.obj hmembers, hcs⟩
    · obtain ⟨numeral, hv, hcs⟩ := exists_numeral h
      exact ⟨.num numeral, hv, hcs⟩
termination_by fuel

theorem exists_items {fuel : Nat} {cs rest : List Char} {vs : List Value}
    (h : parseItems fuel cs = some (vs, rest)) :
    ∃ items : Items, items.value .plain = vs ∧ cs = items.text .plain ++ rest := by
  match fuel with
  | 0 => contradiction
  | fuel + 1 =>
    rw [parseItems] at h
    split at h
    · contradiction
    · next v tail hv =>
        obtain ⟨before, t, rfl, rfl⟩ := exists_tree hv
        obtain ⟨after, hafter⟩ := exists_blanks tail
        split at h
        · next tail' htail =>
            obtain ⟨r, hr, hs⟩ := Option.map_eq_some_iff.mp h
            obtain ⟨rfl, rfl⟩ := Prod.mk.inj hs
            obtain ⟨items, hitems, rfl⟩ := exists_items hr
            refine ⟨.more before t after items, by rw [Items.value, hitems], ?_⟩
            rw [hafter, htail]
            simp [Items.text]
        · next tail' htail =>
            obtain ⟨rfl, rfl⟩ := Prod.mk.inj (Option.some.inj h)
            refine ⟨.last before t after, rfl, ?_⟩
            rw [hafter, htail]
            simp [Items.text]
        · contradiction
termination_by fuel

theorem exists_members {fuel : Nat} {cs rest : List Char} {ms : List (String × Value)}
    (h : parseMembers fuel cs = some (ms, rest)) :
    ∃ members : Members, members.value .plain = ms ∧ cs = members.text .plain ++ rest := by
  match fuel with
  | 0 => contradiction
  | fuel + 1 =>
    rw [parseMembers] at h
    split at h
    · contradiction
    · next m tail hm =>
        obtain ⟨before, key, colon, within, t, rfl, rfl⟩ := exists_member hm
        obtain ⟨after, hafter⟩ := exists_blanks tail
        split at h
        · next tail' htail =>
            obtain ⟨r, hr, hs⟩ := Option.map_eq_some_iff.mp h
            obtain ⟨rfl, rfl⟩ := Prod.mk.inj hs
            obtain ⟨members, hmembers, rfl⟩ := exists_members hr
            refine ⟨.more before key colon within t after members,
              by rw [Members.value, orNumber_value_plain, hmembers], ?_⟩
            rw [hafter, htail, Members.text, orNumber_text_plain]
            simp
        · next tail' htail =>
            obtain ⟨rfl, rfl⟩ := Prod.mk.inj (Option.some.inj h)
            refine ⟨.last before key colon within t after,
              by rw [Members.value, orNumber_value_plain], ?_⟩
            rw [hafter, htail, Members.text, orNumber_text_plain]
            simp
        · contradiction
termination_by fuel

theorem exists_member {fuel : Nat} {cs rest : List Char} {m : String × Value}
    (h : parseMember fuel cs = some (m, rest)) :
    ∃ (before : Blanks) (key : Spelling) (colon within : Blanks) (t : Tree),
      (key.name, t.value .plain) = m ∧
        cs = before.1 ++ keyText key colon within ++ (t.text .plain ++ rest) := by
  match fuel with
  | 0 => contradiction
  | fuel + 1 =>
    obtain ⟨before, hbefore⟩ := exists_blanks cs
    rw [parseMember] at h
    split at h
    · next tail hcs =>
        split at h
        · contradiction
        · next chars tail' hchars =>
            obtain ⟨key, rfl, rfl⟩ := exists_spelling hchars
            obtain ⟨colon, hcolon⟩ := exists_blanks tail'
            split at h
            · next tail'' hmark =>
                obtain ⟨r, hr, hs⟩ := Option.map_eq_some_iff.mp h
                obtain ⟨rfl, rfl⟩ := Prod.mk.inj hs
                obtain ⟨within, t, hv, rfl⟩ := exists_tree hr
                refine ⟨before, key, colon, within, t, by rw [hv]; rfl, ?_⟩
                rw [hbefore, hcs, hcolon, hmark]
                simp [keyText]
            · contradiction
    · contradiction
termination_by fuel

end

/-! ## objects -/

mutual

/-- A value as objects hold it: of the members of one name the last. -/
def settle : Value → Value
  | .arr items => .arr (settleItems items)
  | .obj members => .obj (settleMembers members)
  | v => v

def settleItems : List Value → List Value
  | [] => []
  | v :: items => settle v :: settleItems items

def settleMembers : List (String × Value) → List (String × Value)
  | [] => []
  | (key, v) :: members =>
      if key ∈ members.map Prod.fst then settleMembers members
      else (key, settle v) :: settleMembers members

end

/-! ## documents -/

/-- A whole text. -/
structure Document where
  before : Blanks
  tree : Tree
  after : Blanks

namespace Document

variable (doc : Document) (n : Numbers)

def text : List Char := doc.before.1 ++ (doc.tree.text n ++ doc.after.1)

def value : Value := doc.tree.value n

def Good : Prop := doc.tree.Good n

theorem ends_after : Ends doc.after.1 := by
  intro c hc
  have hblank := doc.after.2 c (List.mem_of_head? hc)
  by_contra hnumber
  rw [isBlank_of_isNumberChar (by simpa using hnumber)] at hblank
  contradiction

end Document

theorem parse_document {doc : Document} {n : Numbers} (h : doc.Good n) :
    parse (doc.text n) = some (doc.value n) := by
  have hread := parseValue_text n doc.tree h doc.after.1 doc.ends_after
    ((doc.text n).length + 2) (by simp [Document.text]; omega)
  have hblanks : skipBlanks doc.after.1 = [] := List.dropWhile_eq_nil_iff.mpr doc.after.2
  rw [← parseValue_blanks _ doc.before] at hread
  rw [parse, show parseValue _ (doc.text n) = _ from hread]
  exact if_pos hblanks

theorem parse_eq_none {doc : Document} {n : Numbers} (h : ¬ doc.Good n) :
    parse (doc.text n) = none := by
  have hread := parseValue_eq_none n doc.tree h doc.after.1
    ((doc.text n).length + 2) (by simp [Document.text]; omega)
  rw [← parseValue_blanks _ doc.before] at hread
  rw [parse, show parseValue _ (doc.text n) = _ from hread]

theorem exists_document {text : List Char} {v : Value} (h : parse text = some v) :
    ∃ doc : Document, doc.text .plain = text ∧ doc.value .plain = v := by
  unfold parse at h
  split at h
  · next v' rest hread =>
      split_ifs at h with hrest
      obtain rfl := Option.some.inj h
      obtain ⟨before, t, hv, rfl⟩ := exists_tree hread
      exact ⟨⟨before, t, rest, List.dropWhile_eq_nil_iff.mp hrest⟩, rfl, hv⟩
  · contradiction

end Json

end SnowflakeConnector
