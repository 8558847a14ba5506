import Mathlib

/-!
# SnowflakeConnector.QueryString

Percent-encoding and query strings as Node's `querystring` has them: `escape` writes a text in
UTF-8 and keeps the unreserved characters, `parse` splits at `&` and at the first `=`, reads a
`+` as a blank and decodes what holds an escape.

* `unescape_escape_append` -- an escaped text is read back;
* `mem_escape` -- which characters an escaped text has;
* `parse_stringify` -- the parameters of a query string are read back, up to `maxKeys` of them.
-/

namespace QueryString

/-! ## percent-encoding -/

/-- The characters that `escape` keeps. -/
def unreserved (c : Char) : Bool :=
  c.isAlphanum || ['-', '_', '.', '!', '~', '*', Char.ofNat 39, '(', ')'].contains c

def hexDigit (n : Nat) : Char := "0123456789ABCDEF".toList.getD n '0'

def hexValue (c : Char) : Option Nat :=
  if '0' ≤ c ∧ c ≤ '9' then some (c.toNat - 48)
  else if 'A' ≤ c ∧ c ≤ 'F' then some (c.toNat - 55)
  else if 'a' ≤ c ∧ c ≤ 'f' then some (c.toNat - 87)
  else none

def escapeByte (b : UInt8) : List Char := ['%', hexDigit (b.toNat / 16), hexDigit (b.toNat % 16)]

def escapeChar (c : Char) : List Char :=
  if unreserved c then [c] else (String.utf8EncodeChar c).flatMap escapeByte

def escape (text : List Char) : List Char := text.flatMap escapeChar

/-- The bytes that a text with escapes stands for. -/
def unescapeBytes : List Char → Option (List UInt8)
  | [] => some []
  | '%' :: high :: low :: text =>
      match hexValue high, hexValue low with
      | some h, some l => (unescapeBytes text).map (UInt8.ofNat (16 * h + l) :: ·)
      | _, _ => none
  | '%' :: _ => none
  | c :: text => (unescapeBytes text).map (String.utf8EncodeChar c ++ ·)

/-- `decodeURIComponent`: `none` where it throws. -/
def unescape (text : List Char) : Option (List Char) :=
  (unescapeBytes text).bind fun bytes => bytes.toByteArray.utf8Decode?.map Array.toList

/-! ### what is escaped is read back -/

theorem hexValue_hexDigit : ∀ n < 16, hexValue (hexDigit n) = some n := by decide

theorem unescapeBytes_escapeByte (b : UInt8) (text : List Char) :
    unescapeBytes (escapeByte b ++ text) = (unescapeBytes text).map (b :: ·) := by
  have hb : b.toNat < 256 := b.toNat_lt
  have hhigh : hexValue (hexDigit (b.toNat / 16)) = some (b.toNat / 16) :=
    hexValue_hexDigit _ (by omega)
  have hlow : hexValue (hexDigit (b.toNat % 16)) = some (b.toNat % 16) :=
    hexValue_hexDigit _ (by omega)
  have hbyte : UInt8.ofNat (16 * (b.toNat / 16) + b.toNat % 16) = b := by
    rw [Nat.div_add_mod]
    exact UInt8.ofNat_toNat
  simp only [escapeByte, List.cons_append, List.nil_append, unescapeBytes, hhigh, hlow, hbyte]

theorem unescapeBytes_escapeBytes (bytes : List UInt8) (text : List Char) :
    unescapeBytes (bytes.flatMap escapeByte ++ text) = (unescapeBytes text).map (bytes ++ ·) := by
  induction bytes with
  | nil => simp
  | cons b bytes ih =>
      rw [List.flatMap_cons, List.append_assoc, unescapeBytes_escapeByte, ih, Option.map_map]
      rfl

theorem ne_percent_of_unreserved {c : Char} (h : unreserved c = true) : c ≠ '%' := by
  rintro rfl
  exact absurd h (by decide)

theorem unescapeBytes_cons {c : Char} (h : c ≠ '%') (text : List Char) :
    unescapeBytes (c :: text) = (unescapeBytes text).map (String.utf8EncodeChar c ++ ·) := by
  rw [unescapeBytes]
  · rintro _ _ _ rfl
    exact absurd rfl h
  · rintro rfl
    exact absurd rfl h

theorem unescapeBytes_escape (text rest : List Char) :
    unescapeBytes (escape text ++ rest) =
      (unescapeBytes rest).map (text.flatMap String.utf8EncodeChar ++ ·) := by
  induction text with
  | nil => simp [escape]
  | cons c text ih =>
      have hcons : escape (c :: text) = escapeChar c ++ escape text := List.flatMap_cons
      rw [hcons, List.append_assoc, List.flatMap_cons, escapeChar]
      split_ifs with hc
      · rw [List.singleton_append, unescapeBytes_cons (ne_percent_of_unreserved hc), ih,
          Option.map_map]
        simp [Function.comp_def, List.append_assoc]
      · rw [unescapeBytes_escapeBytes, ih, Option.map_map]
        simp [Function.comp_def, List.append_assoc]

theorem unescapeBytes_plain {text : List Char} (h : '%' ∉ text) :
    unescapeBytes text = some (text.flatMap String.utf8EncodeChar) := by
  induction text with
  | nil => rfl
  | cons c text ih =>
      rw [List.mem_cons, not_or] at h
      rw [unescapeBytes_cons (Ne.symm h.1), ih h.2]
      rfl

/-- An escaped text is read back, before one without escapes. -/
theorem unescape_escape_append (text : List Char) {rest : List Char} (h : '%' ∉ rest) :
    unescape (escape text ++ rest) = some (text ++ rest) := by
  rw [unescape, unescapeBytes_escape, unescapeBytes_plain h, Option.map_some, Option.bind_some,
    ← List.flatMap_append]
  have hencode : ((text ++ rest).flatMap String.utf8EncodeChar).toByteArray =
      (text ++ rest).utf8Encode := rfl
  rw [hencode, List.utf8Decode?_utf8Encode]
  rfl

/-! ### the characters of an escaped text -/

theorem unreserved_hexDigit : ∀ n < 16, unreserved (hexDigit n) = true := by decide

/-- An escaped text has unreserved characters and `%` only. -/
theorem mem_escape {text : List Char} {c : Char} (h : c ∈ escape text) :
    unreserved c = true ∨ c = '%' := by
  obtain ⟨d, -, hc⟩ := List.mem_flatMap.mp h
  rw [escapeChar] at hc
  split_ifs at hc with hd
  · obtain rfl := List.mem_singleton.mp hc
    exact .inl hd
  · obtain ⟨b, -, hb⟩ := List.mem_flatMap.mp hc
    have hlt : b.toNat < 256 := b.toNat_lt
    simp only [escapeByte, List.mem_cons, List.not_mem_nil, or_false] at hb
    obtain rfl | rfl | rfl := hb
    · exact .inr rfl
    · exact .inl (unreserved_hexDigit _ (by omega))
    · exact .inl (unreserved_hexDigit _ (by omega))

/-- So it has no delimiter in it. -/
theorem not_mem_escape {text : List Char} {c : Char} (h : unreserved c = false) (hc : c ≠ '%') :
    c ∉ escape text := by
  intro hmem
  obtain hun | rfl := mem_escape hmem
  · rw [h] at hun
    cases hun
  · exact hc rfl

/-! ## query strings -/

/-- How many parameters `parse` reads at most. -/
def maxKeys : Nat := 1000

/-- A valid escape occurs in the text. -/
def hasEscape : List Char → Bool
  | '%' :: high :: low :: text =>
      ((hexValue high).isSome && (hexValue low).isSome) || hasEscape (high :: low :: text)
  | _ :: text => hasEscape text
  | [] => false

/-- A key or a value; what `unescape` throws on, `unescapeBuffer` decodes. -/
def decode (unescapeBuffer : List Char → List Char) (text : List Char) : List Char :=
  let plain := text.map fun c => if c = '+' then ' ' else c
  if hasEscape text then (unescape plain).getD (unescapeBuffer plain) else plain

def parsePair (unescapeBuffer : List Char → List Char) (pair : List Char) :
    List Char × List Char :=
  (decode unescapeBuffer (pair.takeWhile (· ≠ '=')),
    decode unescapeBuffer ((pair.dropWhile (· ≠ '=')).drop 1))

/-- The parameters of a query string in their order. -/
def parse (unescapeBuffer : List Char → List Char) (qs : List Char) :
    List (List Char × List Char) :=
  (((qs.splitOn '&').take maxKeys).filter (· ≠ [])).map (parsePair unescapeBuffer)

/-- The values of a parameter. -/
def values (key : List Char) (ps : List (List Char × List Char)) : List (List Char) :=
  (ps.filter (·.1 = key)).map (·.2)

def stringifyPair (p : List Char × List Char) : List Char := escape p.1 ++ '=' :: escape p.2

def stringify (ps : List (List Char × List Char)) : List Char :=
  ['&'].intercalate (ps.map stringifyPair)

/-! ### parameters are read back -/

theorem escape_of_unreserved {text : List Char} (h : ∀ c ∈ text, unreserved c = true) :
    escape text = text := by
  induction text with
  | nil => rfl
  | cons c text ih =>
      obtain ⟨hc, htext⟩ := List.forall_mem_cons.mp h
      have hcons : escape (c :: text) = escapeChar c ++ escape text := List.flatMap_cons
      rw [hcons, ih htext, escapeChar, if_pos hc]
      rfl

theorem stringify_eq_nil {ps : List (List Char × List Char)} : stringify ps = [] ↔ ps = [] := by
  cases ps with
  | nil => simp [stringify]
  | cons p ps =>
      cases ps with
      | nil => simp [stringify, stringifyPair]
      | cons q ps => simp [stringify, stringifyPair, List.intercalate_cons_cons]

theorem stringify_append {ps qs : List (List Char × List Char)} (hps : ps ≠ []) (hqs : qs ≠ []) :
    stringify (ps ++ qs) = stringify ps ++ '&' :: stringify qs := by
  have hmap : qs.map stringifyPair ≠ [] := by simpa using hqs
  induction ps with
  | nil => exact absurd rfl hps
  | cons p ps ih =>
      cases ps with
      | nil =>
          rw [List.singleton_append, stringify, List.map_cons,
            List.intercalate_cons_of_ne_nil hmap, stringify, List.map_singleton,
            List.intercalate_singleton, stringify, List.append_assoc]
          rfl
      | cons q ps =>
          have hrest := ih (by simp)
          simp only [stringify, List.map_append, List.map_cons, List.cons_append,
            List.intercalate_cons_cons] at hrest ⊢
          rw [hrest]
          simp only [List.append_assoc]

/-- Two parameters without anything to escape. -/
theorem stringify_pair {k v k' v' : List Char} (h : ∀ c ∈ k ++ v ++ k' ++ v', unreserved c = true) :
    stringify [(k, v), (k', v')] = k ++ '=' :: v ++ '&' :: (k' ++ '=' :: v') := by
  simp only [List.forall_mem_append] at h
  obtain ⟨⟨⟨hk, hv⟩, hk'⟩, hv'⟩ := h
  simp only [stringify, List.map_cons, List.map_nil, List.intercalate_cons_cons,
    List.intercalate_singleton, stringifyPair, escape_of_unreserved hk, escape_of_unreserved hv,
    escape_of_unreserved hk', escape_of_unreserved hv', List.append_assoc, List.singleton_append]

theorem hasEscape_cons {c : Char} (h : c ≠ '%') (text : List Char) :
    hasEscape (c :: text) = hasEscape text := by
  rw [hasEscape]
  rintro _ _ _ rfl
  exact absurd rfl h

theorem hasEscape_plain {text : List Char} (h : '%' ∉ text) : hasEscape text = false := by
  induction text with
  | nil => rfl
  | cons c text ih =>
      rw [List.mem_cons, not_or] at h
      rw [hasEscape_cons (Ne.symm h.1), ih h.2]

theorem hasEscape_escapeByte (b : UInt8) (text : List Char) :
    hasEscape (escapeByte b ++ text) = true := by
  have hb : b.toNat < 256 := b.toNat_lt
  have hhigh : hexValue (hexDigit (b.toNat / 16)) = some (b.toNat / 16) :=
    hexValue_hexDigit _ (by omega)
  have hlow : hexValue (hexDigit (b.toNat % 16)) = some (b.toNat % 16) :=
    hexValue_hexDigit _ (by omega)
  simp [escapeByte, hasEscape, hhigh, hlow]

/-- A text with a character to escape has an escape in it. -/
theorem hasEscape_escape {text : List Char} (h : ¬ ∀ c ∈ text, unreserved c = true)
    (rest : List Char) : hasEscape (escape text ++ rest) = true := by
  induction text with
  | nil => simp at h
  | cons c text ih =>
      have hcons : escape (c :: text) = escapeChar c ++ escape text := List.flatMap_cons
      rw [hcons, escapeChar]
      split_ifs with hc
      · have htext : ¬ ∀ c ∈ text, unreserved c = true := by
          intro htext
          exact h (List.forall_mem_cons.mpr ⟨hc, htext⟩)
        rw [List.singleton_append, List.cons_append,
          hasEscape_cons (ne_percent_of_unreserved hc)]
        exact ih htext
      · obtain ⟨b, bytes, hbytes⟩ : ∃ b bytes, String.utf8EncodeChar c = b :: bytes := by
          refine List.exists_cons_of_length_pos ?_
          rw [String.length_utf8EncodeChar]
          exact c.utf8Size_pos
        rw [hbytes, List.flatMap_cons, List.append_assoc, List.append_assoc]
        exact hasEscape_escapeByte b _

variable (unescapeBuffer : List Char → List Char)

/-- A key or a value is read back, before a text that stands for itself. -/
theorem decode_escape_append (text : List Char) {rest : List Char} (hpercent : '%' ∉ rest)
    (hplus : '+' ∉ rest) : decode unescapeBuffer (escape text ++ rest) = text ++ rest := by
  have hplain : (escape text ++ rest).map (fun c => if c = '+' then ' ' else c) =
      escape text ++ rest := by
    refine (List.map_congr_left fun c hc => if_neg ?_).trans (List.map_id' _)
    rintro rfl
    obtain hc | hc := List.mem_append.mp hc
    · exact not_mem_escape (by decide) (by decide) hc
    · exact hplus hc
  simp only [decode, hplain]
  by_cases h : ∀ c ∈ text, unreserved c = true
  · have hnone : '%' ∉ text ++ rest := by
      rw [List.mem_append, not_or]
      exact ⟨fun hc => ne_percent_of_unreserved (h _ hc) rfl, hpercent⟩
    rw [escape_of_unreserved h, hasEscape_plain hnone]
    rfl
  · rw [hasEscape_escape h, unescape_escape_append text hpercent]
    rfl

theorem decode_escape (text : List Char) : decode unescapeBuffer (escape text) = text := by
  have hnil : ∀ c : Char, c ∉ ([] : List Char) := fun _ => List.not_mem_nil
  simpa using decode_escape_append unescapeBuffer text (hnil '%') (hnil '+')

theorem decode_plain {text : List Char} (hpercent : '%' ∉ text) (hplus : '+' ∉ text) :
    decode unescapeBuffer text = text :=
  decode_escape_append unescapeBuffer [] hpercent hplus

theorem parsePair_append {key : List Char} (h : '=' ∉ key) (value : List Char) :
    parsePair unescapeBuffer (key ++ '=' :: value) =
      (decode unescapeBuffer key, decode unescapeBuffer value) := by
  have hkey : ∀ c ∈ key, decide (c ≠ '=') = true := by
    intro c hc
    have hne : c ≠ '=' := fun heq => h (heq ▸ hc)
    simpa using hne
  rw [parsePair, List.takeWhile_append_of_pos hkey, List.dropWhile_append_of_pos hkey]
  simp

/-- What stands behind the last parameter becomes part of its value. -/
theorem parse_stringify_append (ps : List (List Char × List Char)) (p : List Char × List Char)
    {rest : List Char} (hamp : '&' ∉ rest) (hpercent : '%' ∉ rest) (hplus : '+' ∉ rest) :
    parse unescapeBuffer (stringify (ps ++ [p]) ++ rest) =
      (ps ++ [(p.1, p.2 ++ rest)]).take maxKeys := by
  have hand : ∀ text, '&' ∉ escape text := fun text => not_mem_escape (by decide) (by decide)
  have hsplit : (stringify (ps ++ [p]) ++ rest).splitOn '&' =
      ps.map stringifyPair ++ [stringifyPair p ++ rest] := by
    have hjoin : stringify (ps ++ [p]) ++ rest =
        ['&'].intercalate (ps.map stringifyPair ++ [stringifyPair p ++ rest]) := by
      induction ps with
      | nil => simp [stringify]
      | cons q ps ih =>
          cases ps with
          | nil => simp [stringify, List.intercalate_cons_cons]
          | cons r ps => simpa [stringify, List.intercalate_cons_cons] using ih
    rw [hjoin]
    refine List.splitOn_intercalate '&' ?_ (by simp)
    intro pair hpair
    obtain hpair | rfl := by simpa using hpair
    · obtain ⟨key, value, -, rfl⟩ := hpair
      simp [stringifyPair, hand]
    · simp [stringifyPair, hand, hamp]
  have hequals : ∀ text, '=' ∉ escape text := fun text => not_mem_escape (by decide) (by decide)
  have hpairs : ∀ q : List Char × List Char, parsePair unescapeBuffer (stringifyPair q) = q := by
    intro q
    rw [stringifyPair, parsePair_append _ (hequals q.1), decode_escape, decode_escape]
  have hlast : parsePair unescapeBuffer (stringifyPair p ++ rest) = (p.1, p.2 ++ rest) := by
    rw [stringifyPair, List.append_assoc, List.cons_append, parsePair_append _ (hequals p.1),
      decode_escape, decode_escape_append unescapeBuffer p.2 hpercent hplus]
  have hmap : (ps.map stringifyPair ++ [stringifyPair p ++ rest]).map (parsePair unescapeBuffer) =
      ps ++ [(p.1, p.2 ++ rest)] := by
    rw [List.map_append, List.map_map, List.map_singleton, hlast]
    congr 1
    exact (List.map_congr_left fun q _ => hpairs q).trans (List.map_id _)
  rw [parse, hsplit, List.filter_eq_self.mpr, List.map_take, hmap]
  intro pair hpair
  obtain hpair | rfl := by simpa using List.mem_of_mem_take hpair
  · obtain ⟨key, value, -, rfl⟩ := hpair
    simp [stringifyPair]
  · simp [stringifyPair]

/-- The parameters are read back, as many of them as are read at all. -/
theorem parse_stringify (ps : List (List Char × List Char)) :
    parse unescapeBuffer (stringify ps) = ps.take maxKeys := by
  rcases List.eq_nil_or_concat ps with rfl | ⟨ps, p, rfl⟩
  · rfl
  · have hnil : ∀ c : Char, c ∉ ([] : List Char) := fun _ => List.not_mem_nil
    simpa using parse_stringify_append unescapeBuffer ps p (hnil '&') (hnil '%') (hnil '+')

end QueryString
