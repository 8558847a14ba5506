import Mathlib.Data.List.DropRight
import Mathlib.Data.List.TakeWhile

/-!
# SnowflakeConnector.Json

JSON texts: values, `stringify` and `parse`.  Texts are lists of characters; a number is kept
as its literal.  A value may hold a member twice, as a text may; reading a member takes the
last one.

* `parse_stringify` -- a value is read back from its own text.
* `parse_of_prefix` -- nothing is read of a text of an object that is cut short.
-/

namespace SnowflakeConnector

namespace Json

/-- A JSON value. -/
inductive Value
  | null
  | bool (b : Bool)
  | num (literal : String)
  | str (s : String)
  | arr (items : List Value)
  | obj (members : List (String × Value))
  deriving Repr

/-- `value[key]`, where the last member of a name counts. -/
def Value.get? (key : String) : Value → Option Value
  | .obj members => (members.reverse.find? fun m => m.1 = key).map Prod.snd
  | _ => none

/-- The values that count as false; a number is zero when its digits are. -/
def Value.isFalsy : Value → Bool
  | .null | .bool false | .str "" => true
  | .num literal =>
      (literal.toList.takeWhile fun c => c ≠ 'e' ∧ c ≠ 'E').all fun c =>
        ¬ ('1' ≤ c ∧ c ≤ '9')
  | _ => false

/-! ## texts -/

def hexDigit (n : Nat) : Char :=
  if n < 10 then Char.ofNat (48 + n) else Char.ofNat (87 + n)

/-- `\\u00XX`. -/
def escapeControl (c : Char) : List Char :=
  ['\\', 'u', '0', '0', hexDigit (c.toNat / 16), hexDigit (c.toNat % 16)]

def escapeChar (c : Char) : List Char :=
  if c = '"' then ['\\', '"']
  else if c = '\\' then ['\\', '\\']
  else if c = Char.ofNat 8 then ['\\', 'b']
  else if c = Char.ofNat 9 then ['\\', 't']
  else if c = Char.ofNat 10 then ['\\', 'n']
  else if c = Char.ofNat 12 then ['\\', 'f']
  else if c = Char.ofNat 13 then ['\\', 'r']
  else if c.toNat < 32 then escapeControl c
  else [c]

/-- A string literal. -/
def quote (s : String) : List Char :=
  '"' :: (s.toList.flatMap escapeChar ++ ['"'])

mutual

/-- The text of a value, without blanks. -/
def stringify : Value → List Char
  | .null => ['n', 'u', 'l', 'l']
  | .bool true => ['t', 'r', 'u', 'e']
  | .bool false => ['f', 'a', 'l', 's', 'e']
  | .num literal => literal.toList
  | .str s => quote s
  | .arr items => '[' :: stringifyItems items ++ [']']
  | .obj members => '\x7b' :: stringifyMembers members ++ ['\x7d']

def stringifyItems : List Value → List Char
  | [] => []
  | [v] => stringify v
  | v :: v' :: items => stringify v ++ ',' :: stringifyItems (v' :: items)

def stringifyMembers : List (String × Value) → List Char
  | [] => []
  | [(key, v)] => quote key ++ ':' :: stringify v
  | (key, v) :: m :: members =>
      quote key ++ ':' :: stringify v ++ ',' :: stringifyMembers (m :: members)

end

/-! ## reading -/

def isBlank (c : Char) : Bool :=
  c = ' ' ∨ c = Char.ofNat 9 ∨ c = Char.ofNat 10 ∨ c = Char.ofNat 13

def skipBlanks (cs : List Char) : List Char := cs.dropWhile isBlank

def hexValue (c : Char) : Option Nat :=
  if '0' ≤ c ∧ c ≤ '9' then some (c.toNat - 48)
  else if 'a' ≤ c ∧ c ≤ 'f' then some (c.toNat - 87)
  else if 'A' ≤ c ∧ c ≤ 'F' then some (c.toNat - 55)
  else none

/-- Four hexadecimal digits. -/
def hexUnit (a b c d : Char) : Option Nat := do
  let a ← hexValue a
  let b ← hexValue b
  let c ← hexValue c
  let d ← hexValue d
  some (((a * 16 + b) * 16 + c) * 16 + d)

/-- The character of an escape with one letter. -/
def unescape (c : Char) : Option Char :=
  if c = '"' ∨ c = '\\' ∨ c = '/' then some c
  else if c = 'b' then some (Char.ofNat 8)
  else if c = 't' then some (Char.ofNat 9)
  else if c = 'n' then some (Char.ofNat 10)
  else if c = 'f' then some (Char.ofNat 12)
  else if c = 'r' then some (Char.ofNat 13)
  else none

/-- A string literal after its opening mark; an escaped pair of surrogates is one character,
and a surrogate without its partner is none. -/
def parseChars : List Char → Option (List Char × List Char)
  | [] => none
  | '"' :: rest => some ([], rest)
  | '\\' :: 'u' :: a :: b :: c :: d :: rest =>
      match hexUnit a b c d with
      | none => none
      | some high =>
          if high.isValidChar then (parseChars rest).map fun r => (Char.ofNat high :: r.1, r.2)
          else
            match rest with
            | '\\' :: 'u' :: a :: b :: c :: d :: rest =>
                match hexUnit a b c d with
                | none => none
                | some low =>
                    if high < 56320 ∧ 56320 ≤ low ∧ low < 57344 then
                      (parseChars rest).map fun r =>
                        (Char.ofNat (65536 + (high - 55296) * 1024 + (low - 56320)) :: r.1, r.2)
                    else none
            | _ => none
  | '\\' :: c :: rest =>
      match unescape c with
      | none => none
      | some c => (parseChars rest).map fun r => (c :: r.1, r.2)
  | c :: rest =>
      if c.toNat < 32 ∨ c = '\\' then none else (parseChars rest).map fun r => (c :: r.1, r.2)

/-! ### numbers -/

def isNumberChar (c : Char) : Bool :=
  c.isDigit ∨ c = '-' ∨ c = '+' ∨ c = '.' ∨ c = 'e' ∨ c = 'E'

/-- An exponent, or nothing. -/
def isExponent : List Char → Bool
  | [] => true
  | c :: cs =>
      let digits := match cs with
        | '+' :: cs => cs
        | '-' :: cs => cs
        | cs => cs
      (c = 'e' ∨ c = 'E') ∧ digits ≠ [] ∧ digits.all Char.isDigit

/-- A fraction and an exponent, or one of them, or nothing. -/
def isFraction : List Char → Bool
  | '.' :: cs => cs.takeWhile Char.isDigit ≠ [] ∧ isExponent (cs.dropWhile Char.isDigit)
  | cs => isExponent cs

def isUnsigned (cs : List Char) : Bool :=
  let digits := cs.takeWhile Char.isDigit
  digits ≠ [] ∧ (digits.head? = some '0' → digits = ['0']) ∧
    isFraction (cs.dropWhile Char.isDigit)

/-- The literals of the numbers. -/
def isLiteral : List Char → Bool
  | '-' :: cs => isUnsigned cs
  | cs => isUnsigned cs

def parseNumber (cs : List Char) : Option (Value × List Char) :=
  let literal := cs.takeWhile isNumberChar
  if isLiteral literal = true then some (.num (String.ofList literal), cs.dropWhile isNumberChar)
  else none

/-! ### values -/

mutual

/-- A value at the start of a text, and the text after it. -/
def parseValue : Nat → List Char → Option (Value × List Char)
  | 0, _ => none
  | fuel + 1, cs =>
      match skipBlanks cs with
      | 'n' :: 'u' :: 'l' :: 'l' :: rest => some (.null, rest)
      | 't' :: 'r' :: 'u' :: 'e' :: rest => some (.bool true, rest)
      | 'f' :: 'a' :: 'l' :: 's' :: 'e' :: rest => some (.bool false, rest)
      | '"' :: rest => (parseChars rest).map fun r => (.str (String.ofList r.1), r.2)
      | '[' :: rest =>
          match skipBlanks rest with
          | ']' :: rest => some (.arr [], rest)
          | rest => (parseItems fuel rest).map fun r => (.arr r.1, r.2)
      | '\x7b' :: rest =>
          match skipBlanks rest with
          | '\x7d' :: rest => some (.obj [], rest)
          | rest => (parseMembers fuel rest).map fun r => (.obj r.1, r.2)
      | rest => parseNumber rest

def parseItems : Nat → List Char → Option (List Value × List Char)
  | 0, _ => none
  | fuel + 1, cs =>
      match parseValue fuel cs with
      | none => none
      | some (v, rest) =>
          match skipBlanks rest with
          | ',' :: rest => (parseItems fuel rest).map fun r => (v :: r.1, r.2)
          | ']' :: rest => some ([v], rest)
          | _ => none

def parseMembers : Nat → List Char → Option (List (String × Value) × List Char)
  | 0, _ => none
  | fuel + 1, cs =>
      match parseMember fuel cs with
      | none => none
      | some (m, rest) =>
          match skipBlanks rest with
          | ',' :: rest => (parseMembers fuel rest).map fun r => (m :: r.1, r.2)
          | '\x7d' :: rest => some ([m], rest)
          | _ => none

def parseMember : Nat → List Char → Option ((String × Value) × List Char)
  | 0, _ => none
  | fuel + 1, cs =>
      match skipBlanks cs with
      | '"' :: rest =>
          match parseChars rest with
          | none => none
          | some (key, rest) =>
              match skipBlanks rest with
              | ':' :: rest =>
                  (parseValue fuel rest).map fun r => ((String.ofList key, r.1), r.2)
              | _ => none
      | _ => none

end

/-- The value of a whole text. -/
def parse (text : List Char) : Option Value :=
  match parseValue (text.length + 2) text with
  | some (v, rest) => if skipBlanks rest = [] then some v else none
  | none => none

/-! ## strings are read back -/

theorem hexUnit_control : ∀ n < 32,
    hexUnit '0' '0' (hexDigit (n / 16)) (hexDigit (n % 16)) = some n := by decide

/-- A character is read back from its escape. -/
theorem parseChars_escapeChar (c : Char) (rest : List Char) :
    parseChars (escapeChar c ++ rest) = (parseChars rest).map fun r => (c :: r.1, r.2) := by
  unfold escapeChar
  split_ifs with hmark hslash hback htab hline hform hreturn hcontrol
  case pos | pos | pos | pos | pos | pos | pos =>
    subst c
    rfl
  · have hunit := hexUnit_control c.toNat hcontrol
    have hvalid : c.toNat.isValidChar := c.valid
    simp only [escapeControl, List.cons_append, List.nil_append]
    rw [parseChars]
    simp only [hunit, if_pos hvalid, Char.ofNat_toNat]
  · have hplain : ¬ (c.toNat < 32 ∨ c = '\\') := by simp [hcontrol, hslash]
    rw [List.singleton_append, parseChars, if_neg hplain]
    · exact hmark
    · exact fun _ _ _ _ _ h _ => hslash h
    · exact fun _ _ h _ => hslash h

theorem parseChars_quote (s : String) (rest : List Char) :
    parseChars (s.toList.flatMap escapeChar ++ '"' :: rest) = some (s.toList, rest) := by
  induction s.toList with
  | nil => rfl
  | cons c cs ih =>
      rw [List.flatMap_cons, List.append_assoc, parseChars_escapeChar, ih]
      rfl

/-! ## numbers are read back -/

/-- What may follow a value in a text. -/
def Ends (rest : List Char) : Prop := ∀ c ∈ rest.head?, isNumberChar c = false

theorem ends_nil : Ends [] := by
  intro c hc
  contradiction

theorem isNumberChar_of_isDigit {c : Char} (h : c.isDigit = true) : isNumberChar c = true := by
  simp [isNumberChar, h]

theorem isNumberChar_of_isExponent {cs : List Char} (h : isExponent cs = true) :
    ∀ c ∈ cs, isNumberChar c = true := by
  cases cs with
  | nil => simp
  | cons e cs =>
      simp only [isExponent, decide_eq_true_eq] at h
      obtain ⟨he, _, hdigits⟩ := h
      have hhead : isNumberChar e = true := by
        rcases he with rfl | rfl <;> rfl
      have htail : ∀ c ∈ cs, isNumberChar c = true := by
        intro c hc
        split at hdigits
        · rcases List.mem_cons.mp hc with rfl | hc
          · rfl
          · exact isNumberChar_of_isDigit (List.all_eq_true.mp hdigits c hc)
        · rcases List.mem_cons.mp hc with rfl | hc
          · rfl
          · exact isNumberChar_of_isDigit (List.all_eq_true.mp hdigits c hc)
        · exact isNumberChar_of_isDigit (List.all_eq_true.mp hdigits c hc)
      exact List.forall_mem_cons.mpr ⟨hhead, htail⟩

/-- Digits, and then number characters. -/
theorem isNumberChar_of_digits {cs : List Char}
    (h : ∀ c ∈ cs.dropWhile Char.isDigit, isNumberChar c = true) :
    ∀ c ∈ cs, isNumberChar c = true := by
  intro c hc
  rw [← List.takeWhile_append_dropWhile (p := Char.isDigit) (l := cs), List.mem_append] at hc
  rcases hc with hc | hc
  · exact isNumberChar_of_isDigit (List.mem_takeWhile_imp hc)
  · exact h c hc

theorem isNumberChar_of_isFraction {cs : List Char} (h : isFraction cs = true) :
    ∀ c ∈ cs, isNumberChar c = true := by
  unfold isFraction at h
  split at h
  · simp only [decide_eq_true_eq] at h
    exact List.forall_mem_cons.mpr
      ⟨rfl, isNumberChar_of_digits (isNumberChar_of_isExponent h.2)⟩
  · exact isNumberChar_of_isExponent h

theorem isUnsigned_spec {cs : List Char} (h : isUnsigned cs = true) :
    (∃ c tail, cs = c :: tail ∧ c.isDigit = true) ∧ ∀ c ∈ cs, isNumberChar c = true := by
  simp only [isUnsigned, decide_eq_true_eq] at h
  obtain ⟨hdigits, _, hfraction⟩ := h
  refine ⟨?_, isNumberChar_of_digits (isNumberChar_of_isFraction hfraction)⟩
  cases cs with
  | nil => simp at hdigits
  | cons c tail =>
      refine ⟨c, tail, rfl, ?_⟩
      by_contra hdigit
      simp [hdigit] at hdigits

/-- A literal starts with a digit or a sign. -/
theorem isLiteral_spec {cs : List Char} (h : isLiteral cs = true) :
    (∃ c tail, cs = c :: tail ∧ (c.isDigit = true ∨ c = '-')) ∧
      ∀ c ∈ cs, isNumberChar c = true := by
  unfold isLiteral at h
  split at h
  · next tail =>
    obtain ⟨_, hall⟩ := isUnsigned_spec h
    exact ⟨⟨'-', tail, rfl, Or.inr rfl⟩, List.forall_mem_cons.mpr ⟨rfl, hall⟩⟩
  · obtain ⟨⟨c, tail, hcs, hdigit⟩, hall⟩ := isUnsigned_spec h
    exact ⟨⟨c, tail, hcs, Or.inl hdigit⟩, hall⟩

theorem parseNumber_literal {cs rest : List Char} (h : isLiteral cs = true) (hrest : Ends rest) :
    parseNumber (cs ++ rest) = some (.num (String.ofList cs), rest) := by
  obtain ⟨_, hall⟩ := isLiteral_spec h
  have htake : (cs ++ rest).takeWhile isNumberChar = cs := by
    rw [List.takeWhile_append_of_pos hall]
    cases rest with
    | nil => simp
    | cons c rest => simp [hrest c rfl]
  have hdrop : (cs ++ rest).dropWhile isNumberChar = rest := by
    rw [List.dropWhile_append_of_pos hall]
    cases rest with
    | nil => rfl
    | cons c rest => simp [hrest c rfl]
  simp only [parseNumber, htake, hdrop, if_pos h]

/-! ## values are read back -/

mutual

/-- The numbers of a value are literals. -/
def Valid : Value → Bool
  | .num literal => isLiteral literal.toList
  | .arr items => ValidItems items
  | .obj members => ValidMembers members
  | _ => true

def ValidItems : List Value → Bool
  | [] => true
  | v :: items => Valid v && ValidItems items

def ValidMembers : List (String × Value) → Bool
  | [] => true
  | (_, v) :: members => Valid v && ValidMembers members

end

/-- The digits of a positive number do not begin with a zero. -/
theorem toDigits_head (n : Nat) (hn : n ≠ 0) : (Nat.toDigits 10 n).head? ≠ some '0' := by
  induction n using Nat.strongRecOn with
  | ind n ih =>
      by_cases hlt : n < 10
      · have hdigit : ∀ d < 10, d ≠ 0 → d.digitChar ≠ '0' := by decide
        rw [Nat.toDigits_of_lt_base hlt, List.head?_cons]
        exact fun h => hdigit n hlt hn (Option.some.inj h)
      · have hne : Nat.toDigits 10 (n / 10) ≠ [] := Nat.toDigits_ne_nil
        rw [Nat.toDigits_of_base_le (by decide) (by omega), List.head?_append_of_ne_nil _ hne]
        exact ih (n / 10) (by omega) (by omega)

theorem isUnsigned_toDigits (n : Nat) : isUnsigned (Nat.toDigits 10 n) = true := by
  have hdigit : ∀ c ∈ Nat.toDigits 10 n, c.isDigit = true :=
    fun c hc => Nat.isDigit_of_mem_toDigits (by decide) (by decide) hc
  have htake : (Nat.toDigits 10 n).takeWhile Char.isDigit = Nat.toDigits 10 n :=
    List.takeWhile_eq_self_iff.mpr hdigit
  have hdrop : (Nat.toDigits 10 n).dropWhile Char.isDigit = [] :=
    List.dropWhile_eq_nil_iff.mpr hdigit
  have hzero : (Nat.toDigits 10 n).head? = some '0' → Nat.toDigits 10 n = ['0'] := by
    intro h
    by_cases hn : n = 0
    · rw [hn, Nat.toDigits_zero]
    · exact absurd h (toDigits_head n hn)
  simpa [isUnsigned, htake, hdrop, Nat.toDigits_ne_nil, isFraction, isExponent] using
    Decidable.imp_iff_not_or.mp hzero

/-- An integer is written as a literal. -/
theorem isLiteral_repr (n : Int) : isLiteral n.repr.toList = true := by
  by_cases h : 0 ≤ n
  · rw [Int.repr_eq_if, if_pos h, Nat.toList_repr, isLiteral]
    · exact isUnsigned_toDigits _
    · intro cs hcs
      have hminus : '-' ∈ Nat.toDigits 10 n.toNat := by simp [hcs]
      exact absurd (Nat.isDigit_of_mem_toDigits (by decide) (by decide) hminus) (by decide)
  · rw [Int.repr_eq_if, if_neg h, String.toList_append, Nat.toList_repr]
    exact isUnsigned_toDigits _

theorem skipBlanks_cons {c : Char} (rest : List Char) (h : isBlank c = false) :
    skipBlanks (c :: rest) = c :: rest := by
  simp [skipBlanks, h]

/-- A digit and a sign are no blanks and start no other value. -/
theorem parseValue_number {c : Char} (rest : List Char) (fuel : Nat)
    (h : c.isDigit = true ∨ c = '-') :
    parseValue (fuel + 1) (c :: rest) = parseNumber (c :: rest) := by
  have hne : ∀ c' : Char, c'.isDigit = false → c' ≠ '-' → c ≠ c' := by
    intro c' hdigit hsign hc
    rw [hc, hdigit] at h
    exact h.elim (fun h => by contradiction) hsign
  have hblank : isBlank c = false := by
    simp [isBlank, hne ' ' rfl (by decide), hne (Char.ofNat 9) rfl (by decide),
      hne (Char.ofNat 10) rfl (by decide), hne (Char.ofNat 13) rfl (by decide)]
  rw [parseValue, skipBlanks_cons rest hblank]
  split
  · next hcs => exact absurd (List.cons.inj hcs).1 (hne 'n' rfl (by decide))
  · next hcs => exact absurd (List.cons.inj hcs).1 (hne 't' rfl (by decide))
  · next hcs => exact absurd (List.cons.inj hcs).1 (hne 'f' rfl (by decide))
  · next hcs => exact absurd (List.cons.inj hcs).1 (hne '"' rfl (by decide))
  · next hcs => exact absurd (List.cons.inj hcs).1 (hne '[' rfl (by decide))
  · next hcs => exact absurd (List.cons.inj hcs).1 (hne '\x7b' rfl (by decide))
  · rfl

/-- The first character of a text is no blank, and none that ends a list. -/
theorem stringify_head (v : Value) (hv : Valid v = true) :
    ∃ c tail, stringify v = c :: tail ∧ isBlank c = false ∧ c ≠ ']' := by
  cases v with
  | null => exact ⟨'n', _, rfl, by decide, by decide⟩
  | bool b => cases b <;> exact ⟨_, _, rfl, by decide, by decide⟩
  | str s => exact ⟨'"', _, rfl, by decide, by decide⟩
  | arr items => exact ⟨'[', _, rfl, by decide, by decide⟩
  | obj members => exact ⟨'\x7b', _, rfl, by decide, by decide⟩
  | num literal =>
      obtain ⟨⟨c, tail, hcs, hc⟩, _⟩ := isLiteral_spec (by simpa [Valid] using hv)
      refine ⟨c, tail, by simpa [stringify] using hcs, ?_, ?_⟩
      · rcases hc with hc | rfl
        · by_contra hblank
          simp only [isBlank, Bool.not_eq_false, decide_eq_true_eq] at hblank
          rcases hblank with rfl | rfl | rfl | rfl <;> exact absurd hc (by decide)
        · decide
      · rintro rfl
        exact absurd hc (by decide)

/-- The last character of a text is no carriage return. -/
theorem stringify_last (v : Value) (hv : Valid v = true) :
    ∃ c, (stringify v).getLast? = some c ∧ c ≠ Char.ofNat 13 := by
  cases v with
  | null => exact ⟨'l', rfl, by decide⟩
  | bool b => cases b <;> exact ⟨'e', rfl, by decide⟩
  | str s =>
      refine ⟨'"', ?_, by decide⟩
      rw [stringify, quote, ← List.cons_append, List.getLast?_concat]
  | arr items => exact ⟨']', by rw [stringify, List.getLast?_concat], by decide⟩
  | obj members => exact ⟨'\x7d', by rw [stringify, List.getLast?_concat], by decide⟩
  | num literal =>
      obtain ⟨⟨c, tail, hcs, _⟩, hall⟩ := isLiteral_spec (by simpa [Valid] using hv)
      have hlast : (stringify (.num literal)).getLast? = some (literal.toList.getLast
          (by rw [hcs]; simp)) := List.getLast?_eq_some_getLast _
      refine ⟨_, hlast, fun hreturn => ?_⟩
      have hnumber := hall _ (List.getLast_mem (by rw [hcs]; simp))
      rw [hreturn] at hnumber
      contradiction

theorem stringifyItems_cons (v : Value) (items : List Value) :
    stringifyItems (v :: items) =
      stringify v ++ if items = [] then [] else ',' :: stringifyItems items := by
  cases items <;> simp [stringifyItems]

theorem stringifyMembers_cons (m : String × Value) (members : List (String × Value)) :
    stringifyMembers (m :: members) = (quote m.1 ++ ':' :: stringify m.2) ++
      if members = [] then [] else ',' :: stringifyMembers members := by
  cases members <;> simp [stringifyMembers]

theorem ends_cons {c : Char} (rest : List Char) (h : isNumberChar c = false) :
    Ends (c :: rest) := by
  intro c' hc'
  obtain rfl := Option.some.inj hc'
  exact h

theorem parseValue_mark (rest : List Char) (fuel : Nat) :
    parseValue (fuel + 1) ('"' :: rest) =
      (parseChars rest).map fun r => (.str (String.ofList r.1), r.2) := by
  rw [parseValue, skipBlanks_cons _ (by decide)]
  rfl

theorem parseValue_bracket (rest : List Char) (fuel : Nat) :
    parseValue (fuel + 1) ('[' :: rest) =
      match skipBlanks rest with
      | ']' :: rest => some (.arr [], rest)
      | rest => (parseItems fuel rest).map fun r => (.arr r.1, r.2) := by
  rw [parseValue, skipBlanks_cons _ (by decide)]
  rfl

/-- A list that is not empty, after its opening bracket. -/
theorem parseValue_items (cs : List Char) (fuel : Nat) {c : Char} {tail : List Char}
    (hcs : cs = c :: tail) (hblank : isBlank c = false) (hc : c ≠ ']') :
    parseValue (fuel + 1) ('[' :: cs) = (parseItems fuel cs).map fun r => (.arr r.1, r.2) := by
  rw [parseValue_bracket, hcs, skipBlanks_cons _ hblank]
  split
  · next h => exact absurd (List.cons.inj h).1 hc
  · rfl

theorem parseValue_members (tail : List Char) (fuel : Nat) :
    parseValue (fuel + 1) ('\x7b' :: '"' :: tail) =
      (parseMembers fuel ('"' :: tail)).map fun r => (.obj r.1, r.2) := by
  rw [parseValue, skipBlanks_cons _ (by decide)]
  rfl

mutual

/-- A value is read back from its text, whatever follows. -/
theorem parseValue_stringify (v : Value) (hv : Valid v = true) (rest : List Char)
    (hrest : Ends rest) (fuel : Nat) (hfuel : (stringify v).length < fuel) :
    parseValue fuel (stringify v ++ rest) = some (v, rest) := by
  cases fuel with
  | zero => contradiction
  | succ fuel =>
    match v with
    | .null => rfl
    | .bool true => rfl
    | .bool false => rfl
    | .num literal =>
        have hliteral : isLiteral literal.toList = true := by simpa [Valid] using hv
        obtain ⟨⟨c, tail, hcs, hc⟩, _⟩ := isLiteral_spec hliteral
        have hnumber := parseNumber_literal hliteral hrest
        rw [stringify, hcs, List.cons_append, parseValue_number _ _ hc, ← List.cons_append,
          ← hcs, hnumber, String.ofList_toList]
    | .str s =>
        have hchars := parseChars_quote s rest
        rw [stringify, quote, List.cons_append, List.append_assoc, List.singleton_append,
          parseValue_mark, hchars, Option.map_some, String.ofList_toList]
    | .arr [] => rfl
    | .obj [] => rfl
    | .arr (v :: items) =>
        have hvalid : ValidItems (v :: items) = true := by simpa [Valid] using hv
        have hv : Valid v = true := by
          rw [ValidItems, Bool.and_eq_true] at hvalid
          exact hvalid.1
        obtain ⟨c, tail, hhead, hblank, hc⟩ := stringify_head v hv
        have hitems := parseItems_stringify v items hvalid rest fuel
          (by simp [stringify] at hfuel; omega)
        rw [stringify, List.append_assoc, List.cons_append, List.singleton_append,
          parseValue_items _ _ (c := c) (by rw [stringifyItems_cons, hhead]; rfl) hblank hc, hitems]
        rfl
    | .obj (m :: members) =>
        have hvalid : ValidMembers (m :: members) = true := by simpa [Valid] using hv
        have hmembers := parseMembers_stringify m members hvalid rest fuel
          (by simp [stringify] at hfuel; omega)
        obtain ⟨tail, htail⟩ : ∃ tail, stringifyMembers (m :: members) = '"' :: tail :=
          ⟨_, by rw [stringifyMembers_cons]; rfl⟩
        rw [htail] at hmembers
        rw [stringify, List.append_assoc, List.cons_append, List.singleton_append, htail,
          List.cons_append, parseValue_members, ← List.cons_append, hmembers]
        rfl
termination_by fuel

theorem parseItems_stringify (v : Value) (items : List Value) (hv : ValidItems (v :: items) = true)
    (rest : List Char) (fuel : Nat) (hfuel : (stringifyItems (v :: items)).length + 1 < fuel) :
    parseItems fuel (stringifyItems (v :: items) ++ ']' :: rest) = some (v :: items, rest) := by
  cases fuel with
  | zero => contradiction
  | succ fuel =>
    simp only [ValidItems, Bool.and_eq_true] at hv
    rw [stringifyItems_cons] at hfuel
    rw [parseItems, stringifyItems_cons]
    match items with
    | [] =>
        have hvalue := parseValue_stringify v hv.1 (']' :: rest) (ends_cons _ (by decide)) fuel
          (by simp at hfuel; omega)
        rw [if_pos rfl, List.append_nil, hvalue]
        rfl
    | v' :: items =>
        have hvalue := parseValue_stringify v hv.1
          (',' :: stringifyItems (v' :: items) ++ ']' :: rest) (ends_cons _ (by decide)) fuel
          (by simp at hfuel; omega)
        have hitems := parseItems_stringify v' items (by simpa [ValidItems] using hv.2) rest fuel
          (by simp at hfuel; omega)
        rw [if_neg (by simp), List.append_assoc, hvalue]
        change (parseItems fuel (stringifyItems (v' :: items) ++ ']' :: rest)).map _ = _
        rw [hitems]
        rfl
termination_by fuel

theorem parseMembers_stringify (m : String × Value) (members : List (String × Value))
    (hv : ValidMembers (m :: members) = true) (rest : List Char) (fuel : Nat)
    (hfuel : (stringifyMembers (m :: members)).length + 1 < fuel) :
    parseMembers fuel (stringifyMembers (m :: members) ++ '\x7d' :: rest) =
      some (m :: members, rest) := by
  cases fuel with
  | zero => contradiction
  | succ fuel =>
    simp only [ValidMembers, Bool.and_eq_true] at hv
    rw [stringifyMembers_cons] at hfuel
    rw [parseMembers, stringifyMembers_cons]
    match members with
    | [] =>
        have hmember := parseMember_stringify m hv.1 ('\x7d' :: rest) (ends_cons _ (by decide)) fuel
          (by simp at hfuel ⊢; omega)
        rw [if_pos rfl, List.append_nil, hmember]
        rfl
    | m' :: members =>
        have hmember := parseMember_stringify m hv.1
          (',' :: stringifyMembers (m' :: members) ++ '\x7d' :: rest) (ends_cons _ (by decide)) fuel
          (by simp at hfuel ⊢; omega)
        have hmembers := parseMembers_stringify m' members (by simpa [ValidMembers] using hv.2) rest
          fuel (by simp at hfuel; omega)
        rw [if_neg (by simp), List.append_assoc, hmember]
        change (parseMembers fuel (stringifyMembers (m' :: members) ++ '\x7d' :: rest)).map _ = _
        rw [hmembers]
        rfl
termination_by fuel

theorem parseMember_stringify (m : String × Value) (hv : Valid m.2 = true) (rest : List Char)
    (hrest : Ends rest) (fuel : Nat)
    (hfuel : (quote m.1 ++ ':' :: stringify m.2).length < fuel) :
    parseMember fuel ((quote m.1 ++ ':' :: stringify m.2) ++ rest) = some (m, rest) := by
  cases fuel with
  | zero => contradiction
  | succ fuel =>
    have hvalue := parseValue_stringify m.2 hv rest hrest fuel (by simp [quote] at hfuel; omega)
    have hchars := parseChars_quote m.1 (':' :: stringify m.2 ++ rest)
    have htext : (quote m.1 ++ ':' :: stringify m.2) ++ rest =
        '"' :: (m.1.toList.flatMap escapeChar ++ '"' :: (':' :: stringify m.2 ++ rest)) := by
      simp [quote]
    rw [htext, parseMember, skipBlanks_cons _ (by decide)]
    change (match parseChars _ with | none => none | some (key, rest) => _) = _
    rw [hchars]
    change (parseValue fuel (stringify m.2 ++ rest)).map _ = _
    rw [hvalue, Option.map_some, String.ofList_toList]
termination_by fuel

end

/-- A value is read back from its own text. -/
theorem parse_stringify (v : Value) (hv : Valid v = true) : parse (stringify v) = some v := by
  have hvalue := parseValue_stringify v hv [] ends_nil ((stringify v).length + 2) (by omega)
  rw [List.append_nil] at hvalue
  rw [parse, hvalue]
  rfl

/-! ## texts that go on -/

/-- A string is read the same when the text goes on. -/
theorem parseChars_append {cs s rest : List Char} (ext : List Char)
    (h : parseChars cs = some (s, rest)) : parseChars (cs ++ ext) = some (s, rest ++ ext) := by
  fun_induction parseChars cs generalizing s rest with
  | case1 => contradiction
  | case2 tail =>
      obtain ⟨rfl, rfl⟩ := Prod.mk.inj (Option.some.inj h)
      rfl
  | case4 a b c d tail high hhigh hchar ih =>
      obtain ⟨r, hr, hs⟩ := Option.map_eq_some_iff.mp h
      obtain ⟨rfl, rfl⟩ := Prod.mk.inj hs
      simp only [List.cons_append, parseChars, hhigh, if_pos hchar, ih hr]
      rfl
  | case6 a b c d high hhigh hchar a' b' c' d' tail low hlow hpair ih =>
      obtain ⟨r, hr, hs⟩ := Option.map_eq_some_iff.mp h
      obtain ⟨rfl, rfl⟩ := Prod.mk.inj hs
      simp only [List.cons_append, parseChars, hhigh, if_neg hchar, hlow, if_pos hpair, ih hr]
      rfl
  | case10 c tail hunit e hescape ih =>
      obtain ⟨r, hr, hs⟩ := Option.map_eq_some_iff.mp h
      obtain ⟨rfl, rfl⟩ := Prod.mk.inj hs
      have hu : c ≠ 'u' := by
        rintro rfl
        contradiction
      have hletter := parseChars.eq_4 c (tail ++ ext) fun _ _ _ _ _ hc => absurd hc hu
      rw [List.cons_append, List.cons_append, hletter, hescape]
      simp [ih hr]
  | case12 c tail hmark hunit hslash hplain ih =>
      obtain ⟨r, hr, hs⟩ := Option.map_eq_some_iff.mp h
      obtain ⟨rfl, rfl⟩ := Prod.mk.inj hs
      have hc : c ≠ '\\' := fun hc => hplain (Or.inr hc)
      have hself := parseChars.eq_5 c (tail ++ ext) hmark (fun _ _ _ _ _ h => absurd h hc)
        fun _ _ h => absurd h hc
      rw [List.cons_append, hself, if_neg hplain]
      simp [ih hr]
  | _ => contradiction

theorem skipBlanks_append {cs : List Char} (ext : List Char) (h : skipBlanks cs ≠ []) :
    skipBlanks (cs ++ ext) = skipBlanks cs ++ ext := by
  unfold skipBlanks at h ⊢
  induction cs with
  | nil => exact absurd rfl h
  | cons c cs ih =>
      by_cases hc : isBlank c = true
      · simp only [List.cons_append, List.dropWhile_cons_of_pos hc] at h ⊢
        exact ih h
      · simp [List.dropWhile_cons_of_neg hc]

/-- A number that ends before the text does. -/
theorem parseNumber_append {cs rest : List Char} {v : Value} (ext : List Char)
    (h : parseNumber cs = some (v, rest)) (hrest : rest ≠ []) :
    parseNumber (cs ++ ext) = some (v, rest ++ ext) := by
  unfold parseNumber at h
  dsimp only at h
  split_ifs at h with hliteral
  obtain ⟨rfl, rfl⟩ := Prod.mk.inj (Option.some.inj h)
  obtain ⟨c, tail, htail⟩ := List.exists_cons_of_ne_nil hrest
  have hends : Ends (cs.dropWhile isNumberChar ++ ext) := by
    have hhead := List.head_dropWhile_not isNumberChar hrest
    intro c' hc'
    rw [htail, List.cons_append, List.head?_cons, Option.mem_some_iff] at hc'
    subst hc'
    simpa [htail] using hhead
  have hnumber := parseNumber_literal hliteral hends
  rwa [← List.append_assoc, List.takeWhile_append_dropWhile] at hnumber

theorem parseNumber_head {cs rest : List Char} {v : Value}
    (h : parseNumber cs = some (v, rest)) :
    ∃ c tail, cs = c :: tail ∧ (c.isDigit = true ∨ c = '-') := by
  unfold parseNumber at h
  dsimp only at h
  split_ifs at h with hliteral
  obtain ⟨⟨c, tail, hcs, hc⟩, _⟩ := isLiteral_spec hliteral
  refine ⟨c, tail ++ cs.dropWhile isNumberChar, ?_, hc⟩
  rw [← List.cons_append, ← hcs, List.takeWhile_append_dropWhile]

theorem parseItems_ne_nil {fuel : Nat} {cs : List Char} {r : List Value × List Char}
    (h : parseItems fuel cs = some r) : cs ≠ [] := by
  rintro rfl
  match fuel with
  | 0 => contradiction
  | 1 => contradiction
  | fuel + 2 => contradiction

theorem parseMembers_ne_nil {fuel : Nat} {cs : List Char}
    {r : List (String × Value) × List Char} (h : parseMembers fuel cs = some r) : cs ≠ [] := by
  rintro rfl
  match fuel with
  | 0 => contradiction
  | 1 => contradiction
  | fuel + 2 => contradiction

theorem parseValue_skipBlanks (fuel : Nat) (cs : List Char) :
    parseValue fuel (skipBlanks cs) = parseValue fuel cs := by
  have hidem : skipBlanks (skipBlanks cs) = skipBlanks cs := List.dropWhile_idempotent _ _
  match fuel with
  | 0 => rfl
  | fuel + 1 => rw [parseValue, parseValue, hidem]

theorem parseValue_noItems {tail rest : List Char} (fuel : Nat)
    (h : skipBlanks tail = ']' :: rest) :
    parseValue (fuel + 1) ('[' :: tail) = some (.arr [], rest) := by
  rw [parseValue, skipBlanks_cons tail (by decide)]
  simp only [h]

theorem parseValue_someItems {tail rest : List Char} {c : Char} (fuel : Nat)
    (h : skipBlanks tail = c :: rest) (hc : c ≠ ']') :
    parseValue (fuel + 1) ('[' :: tail) =
      (parseItems fuel (c :: rest)).map fun r => (.arr r.1, r.2) := by
  rw [parseValue, skipBlanks_cons tail (by decide)]
  simp only [h]
  split
  · next heq => exact absurd (List.cons.inj heq).1 hc
  · rfl

theorem parseValue_noMembers {tail rest : List Char} (fuel : Nat)
    (h : skipBlanks tail = '\x7d' :: rest) :
    parseValue (fuel + 1) ('\x7b' :: tail) = some (.obj [], rest) := by
  rw [parseValue, skipBlanks_cons tail (by decide)]
  simp only [h]

theorem parseValue_someMembers {tail rest : List Char} {c : Char} (fuel : Nat)
    (h : skipBlanks tail = c :: rest) (hc : c ≠ '\x7d') :
    parseValue (fuel + 1) ('\x7b' :: tail) =
      (parseMembers fuel (c :: rest)).map fun r => (.obj r.1, r.2) := by
  rw [parseValue, skipBlanks_cons tail (by decide)]
  simp only [h]
  split
  · next heq => exact absurd (List.cons.inj heq).1 hc
  · rfl

mutual

/-- What is read of a text is read of a longer one too, unless a number ends the text. -/
theorem parseValue_append {fuel fuel' : Nat} {cs rest : List Char} {v : Value}
    (h : parseValue fuel cs = some (v, rest))
    (hends : rest ≠ [] ∨ (skipBlanks cs).head? = some '\x7b') (hfuel : fuel ≤ fuel')
    (ext : List Char) : parseValue fuel' (cs ++ ext) = some (v, rest ++ ext) := by
  match fuel, fuel' with
  | 0, _ => contradiction
  | fuel + 1, 0 => contradiction
  | fuel + 1, fuel' + 1 =>
    have hne : skipBlanks cs ≠ [] := by
      intro hnil
      rw [parseValue, hnil] at h
      contradiction
    rw [← parseValue_skipBlanks, skipBlanks_append ext hne]
    rw [parseValue] at h
    split at h
    · next tail hcs =>
        obtain ⟨rfl, rfl⟩ := Prod.mk.inj (Option.some.inj h)
        rw [hcs]
        rfl
    · next tail hcs =>
        obtain ⟨rfl, rfl⟩ := Prod.mk.inj (Option.some.inj h)
        rw [hcs]
        rfl
    · next tail hcs =>
        obtain ⟨rfl, rfl⟩ := Prod.mk.inj (Option.some.inj h)
        rw [hcs]
        rfl
    · next tail hcs =>
        obtain ⟨r, hr, hs⟩ := Option.map_eq_some_iff.mp h
        obtain ⟨rfl, rfl⟩ := Prod.mk.inj hs
        rw [hcs, List.cons_append, parseValue_mark, parseChars_append ext hr]
        rfl
    · next tail hcs =>
        rw [hcs, List.cons_append]
        split at h
        · next tail' htail =>
            obtain ⟨rfl, rfl⟩ := Prod.mk.inj (Option.some.inj h)
            exact parseValue_noItems fuel'
              (by rw [skipBlanks_append ext (by simp [htail]), htail]; rfl)
        · next hclose =>
            obtain ⟨r, hr, hs⟩ := Option.map_eq_some_iff.mp h
            obtain ⟨rfl, rfl⟩ := Prod.mk.inj hs
            have hitems := parseItems_append hr (Nat.le_of_succ_le_succ hfuel) ext
            obtain ⟨c, tail', htail⟩ := List.exists_cons_of_ne_nil (parseItems_ne_nil hr)
            have hext : skipBlanks (tail ++ ext) = c :: (tail' ++ ext) := by
              rw [skipBlanks_append ext (by simp [htail]), htail, List.cons_append]
            rw [htail, List.cons_append] at hitems
            rw [parseValue_someItems fuel' hext (fun hc => hclose tail' (by rw [htail, hc])),
              hitems]
            rfl
    · next tail hcs =>
        rw [hcs, List.cons_append]
        split at h
        · next tail' htail =>
            obtain ⟨rfl, rfl⟩ := Prod.mk.inj (Option.some.inj h)
            exact parseValue_noMembers fuel'
              (by rw [skipBlanks_append ext (by simp [htail]), htail]; rfl)
        · next hclose =>
            obtain ⟨r, hr, hs⟩ := Option.map_eq_some_iff.mp h
            obtain ⟨rfl, rfl⟩ := Prod.mk.inj hs
            have hmembers := parseMembers_append hr (Nat.le_of_succ_le_succ hfuel) ext
            obtain ⟨c, tail', htail⟩ := List.exists_cons_of_ne_nil (parseMembers_ne_nil hr)
            have hext : skipBlanks (tail ++ ext) = c :: (tail' ++ ext) := by
              rw [skipBlanks_append ext (by simp [htail]), htail, List.cons_append]
            rw [htail, List.cons_append] at hmembers
            rw [parseValue_someMembers fuel' hext (fun hc => hclose tail' (by rw [htail, hc])),
              hmembers]
            rfl
    · next hnull htrue hfalse hmark hbracket hbrace =>
        have hrest : rest ≠ [] := by
          refine hends.resolve_right fun hhead => ?_
          obtain ⟨tail, htail⟩ := List.head?_eq_some_iff.mp hhead
          exact hbrace tail htail
        obtain ⟨c, tail, hcs, hc⟩ := parseNumber_head h
        have hnumber := parseNumber_append ext h hrest
        rw [hcs, List.cons_append] at hnumber ⊢
        rw [parseValue_number _ _ hc, hnumber]
termination_by fuel

theorem parseItems_append {fuel fuel' : Nat} {cs rest : List Char} {items : List Value}
    (h : parseItems fuel cs = some (items, rest)) (hfuel : fuel ≤ fuel') (ext : List Char) :
    parseItems fuel' (cs ++ ext) = some (items, rest ++ ext) := by
  match fuel, fuel' with
  | 0, _ => contradiction
  | fuel + 1, 0 => contradiction
  | fuel + 1, fuel' + 1 =>
    rw [parseItems] at h ⊢
    split at h
    · contradiction
    · next v tail hv =>
        have hne : tail ≠ [] := by
          rintro rfl
          contradiction
        have hvalue := parseValue_append hv (Or.inl hne) (Nat.le_of_succ_le_succ hfuel) ext
        rw [hvalue]
        dsimp only
        split at h
        · next tail' htail =>
            obtain ⟨r, hr, hs⟩ := Option.map_eq_some_iff.mp h
            obtain ⟨rfl, rfl⟩ := Prod.mk.inj hs
            rw [skipBlanks_append ext (by simp [htail]), htail]
            change (parseItems fuel' (tail' ++ ext)).map _ = _
            rw [parseItems_append hr (Nat.le_of_succ_le_succ hfuel) ext]
            rfl
        · next tail' htail =>
            obtain ⟨rfl, rfl⟩ := Prod.mk.inj (Option.some.inj h)
            rw [skipBlanks_append ext (by simp [htail]), htail]
            rfl
        · contradiction
termination_by fuel

theorem parseMembers_append {fuel fuel' : Nat} {cs rest : List Char}
    {members : List (String × Value)} (h : parseMembers fuel cs = some (members, rest))
    (hfuel : fuel ≤ fuel') (ext : List Char) :
    parseMembers fuel' (cs ++ ext) = some (members, rest ++ ext) := by
  match fuel, fuel' with
  | 0, _ => contradiction
  | fuel + 1, 0 => contradiction
  | fuel + 1, fuel' + 1 =>
    rw [parseMembers] at h ⊢
    split at h
    · contradiction
    · next m tail hm =>
        have hne : tail ≠ [] := by
          rintro rfl
          contradiction
        have hmember := parseMember_append hm hne (Nat.le_of_succ_le_succ hfuel) ext
        rw [hmember]
        dsimp only
        split at h
        · next tail' htail =>
            obtain ⟨r, hr, hs⟩ := Option.map_eq_some_iff.mp h
            obtain ⟨rfl, rfl⟩ := Prod.mk.inj hs
            rw [skipBlanks_append ext (by simp [htail]), htail]
            change (parseMembers fuel' (tail' ++ ext)).map _ = _
            rw [parseMembers_append hr (Nat.le_of_succ_le_succ hfuel) ext]
            rfl
        · next tail' htail =>
            obtain ⟨rfl, rfl⟩ := Prod.mk.inj (Option.some.inj h)
            rw [skipBlanks_append ext (by simp [htail]), htail]
            rfl
        · contradiction
termination_by fuel

theorem parseMember_append {fuel fuel' : Nat} {cs rest : List Char} {m : String × Value}
    (h : parseMember fuel cs = some (m, rest)) (hrest : rest ≠ []) (hfuel : fuel ≤ fuel')
    (ext : List Char) : parseMember fuel' (cs ++ ext) = some (m, rest ++ ext) := by
  match fuel, fuel' with
  | 0, _ => contradiction
  | fuel + 1, 0 => contradiction
  | fuel + 1, fuel' + 1 =>
    rw [parseMember] at h ⊢
    split at h
    · next tail hcs =>
        rw [skipBlanks_append ext (by simp [hcs]), hcs]
        change (match parseChars (tail ++ ext) with | none => none | some (key, rest) => _) = _
        split at h
        · contradiction
        · next key tail' hkey =>
            rw [parseChars_append ext hkey]
            dsimp only
            split at h
            · next tail'' hcolon =>
                obtain ⟨r, hr, hs⟩ := Option.map_eq_some_iff.mp h
                obtain ⟨rfl, rfl⟩ := Prod.mk.inj hs
                rw [skipBlanks_append ext (by simp [hcolon]), hcolon]
                change (parseValue fuel' (tail'' ++ ext)).map _ = _
                rw [parseValue_append hr (Or.inl hrest) (Nat.le_of_succ_le_succ hfuel) ext]
                rfl
            · contradiction
    · contradiction
termination_by fuel

end

/-- The text of an object is read as a whole or not at all. -/
theorem parse_of_prefix {members : List (String × Value)} (hv : Valid (.obj members) = true)
    {text rest : List Char} (h : text ++ rest = stringify (.obj members)) (hrest : rest ≠ []) :
    parse text = none := by
  cases text with
  | nil => rfl
  | cons c text =>
      obtain ⟨rfl, -⟩ : c = '\x7b' ∧ text ++ rest = _ := List.cons.inj h
      unfold parse
      split
      · next v tail hvalue =>
          have hwhole := parseValue_append hvalue (Or.inr rfl)
            (by omega : _ ≤ (stringify (.obj members)).length + ('\x7b' :: text).length + 2) rest
          rw [h] at hwhole
          have hread := parseValue_stringify (.obj members) hv [] ends_nil
            ((stringify (.obj members)).length + ('\x7b' :: text).length + 2) (by omega)
          rw [List.append_nil, hwhole] at hread
          have hnil := (Prod.mk.inj (Option.some.inj hread)).2
          exact absurd (List.append_eq_nil_iff.mp hnil).2 hrest
      · rfl

end Json

end SnowflakeConnector
