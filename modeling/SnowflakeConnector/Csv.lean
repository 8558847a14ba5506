import Mathlib.Data.List.Basic

/-!
# SnowflakeConnector.Csv

CSV texts: cells with commas between them, optionally enclosed by double quotes, which are
doubled inside, and records that end with a line feed or with a carriage return and a line
feed.  A cell that is empty and not enclosed is a null.

* `parse_lines` -- what lines of fields are read as.
-/

namespace SnowflakeConnector

namespace Csv

abbrev Cell := Option (List Char)

/-! ## reading -/

/-- Where a reader is: before a cell, inside one, or behind the mark that may close one. -/
inductive Place
  | start
  | plain (text : List Char)
  | enclosed (text : List Char)
  | closed (text : List Char)
  deriving DecidableEq, Repr

/-- The cell that ends at a place. -/
def Place.cell : Place → Cell
  | .start => none
  | .plain text | .enclosed text | .closed text => some text

/-- The records of the rest of a text, after the cells of a row. -/
def read (place : Place) (row : List Cell) : List Char → Option (List (List Cell))
  | [] =>
      match place with
      | .enclosed _ => none
      | .start => if row = [] then some [] else some [row ++ [none]]
      | place => some [row ++ [place.cell]]
  | c :: rest =>
      match place with
      | .enclosed text =>
          if c = '"' then read (.closed text) row rest
          else read (.enclosed (text ++ [c])) row rest
      | place =>
          if c = ',' then read .start (row ++ [place.cell]) rest
          else if c = '\n' then
            (read .start [] rest).map fun records => (row ++ [place.cell]) :: records
          -- the line feed ends the record
          else if c = '\r' ∧ rest.head? = some '\n' then read place row rest
          else
            match place with
            | .start =>
                if c = '"' then read (.enclosed []) row rest else read (.plain [c]) row rest
            | .plain text | .enclosed text => read (.plain (text ++ [c])) row rest
            | .closed text =>
                if c = '"' then read (.enclosed (text ++ ['"'])) row rest else none

def parse (text : List Char) : Option (List (List Cell)) := read .start [] text

/-! ## writing -/

/-- The text with its marks doubled. -/
def doubled (text : List Char) : List Char :=
  text.flatMap fun c => if c = '"' then ['"', '"'] else [c]

/-- A field of a line: enclosed, or as it is. -/
inductive Field
  | enclosed (text : List Char)
  | plain (text : List Char)
  deriving DecidableEq, Repr

def Field.toText : Field → List Char
  | .enclosed text => '"' :: doubled text ++ ['"']
  | .plain text => text

/-- Nothing in a plain field has a meaning of its own, but for a carriage return. -/
def Field.Ok : Field → Prop
  | .enclosed _ => True
  | .plain text => ',' ∉ text ∧ '\n' ∉ text ∧ '"' ∉ text

def plainCell : List Char → Cell
  | [] => none
  | text => some text

/-- A carriage return at the end belongs to the line feed after it. -/
def chomp (text : List Char) : List Char :=
  if text.getLast? = some '\r' then text.dropLast else text

/-- What a field is read as before a comma. -/
def Field.cell : Field → Cell
  | .enclosed text => some text
  | .plain text => plainCell text

/-- What a field is read as at the end of a line. -/
def Field.lastCell : Field → Cell
  | .enclosed text => some text
  | .plain text => plainCell (chomp text)

def lineText : List Field → List Char
  | [] => ['\n']
  | [f] => f.toText ++ ['\n']
  | f :: f' :: fs => f.toText ++ ',' :: lineText (f' :: fs)

def lineCells : List Field → List Cell
  | [] => [none]
  | [f] => [f.lastCell]
  | f :: f' :: fs => f.cell :: lineCells (f' :: fs)

/-! ## reading what is written -/

/-- The next character of an enclosed text. -/
theorem read_enclosed_cons (text : List Char) (row : List Cell) (c : Char) (rest : List Char) :
    read (.enclosed text) row (c :: rest) =
      if c = '"' then read (.closed text) row rest
      else read (.enclosed (text ++ [c])) row rest := rfl

theorem read_start_cons (row : List Cell) (c : Char) (rest : List Char) :
    read .start row (c :: rest) =
      if c = ',' then read .start (row ++ [none]) rest
      else if c = '\n' then (read .start [] rest).map fun records => (row ++ [none]) :: records
      else if c = '\r' ∧ rest.head? = some '\n' then read .start row rest
      else if c = '"' then read (.enclosed []) row rest
      else read (.plain [c]) row rest := rfl

theorem read_plain_cons (text : List Char) (row : List Cell) (c : Char) (rest : List Char) :
    read (.plain text) row (c :: rest) =
      if c = ',' then read .start (row ++ [some text]) rest
      else if c = '\n' then
        (read .start [] rest).map fun records => (row ++ [some text]) :: records
      else if c = '\r' ∧ rest.head? = some '\n' then read (.plain text) row rest
      else read (.plain (text ++ [c])) row rest := rfl

theorem read_closed_cons (text : List Char) (row : List Cell) (c : Char) (rest : List Char) :
    read (.closed text) row (c :: rest) =
      if c = ',' then read .start (row ++ [some text]) rest
      else if c = '\n' then
        (read .start [] rest).map fun records => (row ++ [some text]) :: records
      else if c = '\r' ∧ rest.head? = some '\n' then read (.closed text) row rest
      else if c = '"' then read (.enclosed (text ++ ['"'])) row rest
      else none := rfl

theorem read_comma (place : Place) (row : List Cell) (rest : List Char)
    (h : ∀ text, place ≠ .enclosed text) :
    read place row (',' :: rest) = read .start (row ++ [place.cell]) rest := by
  cases place with
  | enclosed text => exact absurd rfl (h text)
  | start => exact read_start_cons row ',' rest
  | plain text => exact read_plain_cons text row ',' rest
  | closed text => exact read_closed_cons text row ',' rest

theorem read_lineFeed (place : Place) (row : List Cell) (rest : List Char)
    (h : ∀ text, place ≠ .enclosed text) :
    read place row ('\n' :: rest) =
      (read .start [] rest).map fun records => (row ++ [place.cell]) :: records := by
  cases place with
  | enclosed text => exact absurd rfl (h text)
  | start => exact read_start_cons row '\n' rest
  | plain text => exact read_plain_cons text row '\n' rest
  | closed text => exact read_closed_cons text row '\n' rest

/-- A carriage return before a line feed is skipped. -/
theorem read_return (place : Place) (row : List Cell) (rest : List Char)
    (h : ∀ text, place ≠ .enclosed text) :
    read place row ('\r' :: '\n' :: rest) = read place row ('\n' :: rest) := by
  cases place with
  | enclosed text => exact absurd rfl (h text)
  | start => exact read_start_cons row '\r' ('\n' :: rest)
  | plain text => exact read_plain_cons text row '\r' ('\n' :: rest)
  | closed text => exact read_closed_cons text row '\r' ('\n' :: rest)

theorem read_plain_other {text : List Char} {row : List Cell} {c : Char} {rest : List Char}
    (hcomma : c ≠ ',') (hfeed : c ≠ '\n') (hreturn : ¬ (c = '\r' ∧ rest.head? = some '\n')) :
    read (.plain text) row (c :: rest) = read (.plain (text ++ [c])) row rest := by
  rw [read_plain_cons, if_neg hcomma, if_neg hfeed, if_neg hreturn]

theorem read_start_other {row : List Cell} {c : Char} {rest : List Char} (hcomma : c ≠ ',')
    (hfeed : c ≠ '\n') (hmark : c ≠ '"') (hreturn : ¬ (c = '\r' ∧ rest.head? = some '\n')) :
    read .start row (c :: rest) = read (.plain [c]) row rest := by
  rw [read_start_cons, if_neg hcomma, if_neg hfeed, if_neg hreturn, if_neg hmark]

/-- An enclosed text is read to its closing mark. -/
theorem read_doubled (text text' : List Char) (row : List Cell) (rest : List Char) :
    read (.enclosed text) row (doubled text' ++ '"' :: rest) =
      read (.closed (text ++ text')) row rest := by
  induction text' generalizing text with
  | nil => rw [List.append_nil]; exact read_enclosed_cons text row '"' rest
  | cons c text' ih =>
      by_cases hmark : c = '"'
      · subst hmark
        have h := ih (text ++ ['"'])
        simp only [List.append_assoc, List.singleton_append] at h
        rw [← h]
        -- the first mark closes the text, the second one opens it again
        exact (read_enclosed_cons text row '"' _).trans (read_closed_cons text row '"' _)
      · have h := ih (text ++ [c])
        simp only [List.append_assoc, List.singleton_append] at h
        rw [← h, doubled, List.flatMap_cons, if_neg hmark, List.singleton_append, List.cons_append,
          read_enclosed_cons, if_neg hmark, ← doubled]

theorem chomp_cons (c : Char) {text : List Char} (h : text ≠ [] ∨ c ≠ '\r') :
    chomp (c :: text) = c :: chomp text := by
  cases text with
  | nil =>
      have hc : c ≠ '\r' := h.resolve_left (by simp)
      simp [chomp, hc]
  | cons c' text =>
      simp only [chomp, List.getLast?_cons_cons]
      split_ifs <;> simp

theorem head?_append_ne {text : List Char} {sep : Char} (rest : List Char)
    (hfeed : '\n' ∉ text) (h : text ≠ [] ∨ sep ≠ '\n') :
    (text ++ sep :: rest).head? ≠ some '\n' := by
  cases text with
  | nil => simpa using h
  | cons c text =>
      intro hhead
      obtain rfl := Option.some.inj hhead
      exact hfeed (List.mem_cons_self ..)

/-- A plain field before a comma. -/
theorem read_plain_comma (text text' : List Char) (row : List Cell) (rest : List Char)
    (h : Field.Ok (.plain text')) :
    read (.plain text) row (text' ++ ',' :: rest) =
      read .start (row ++ [some (text ++ text')]) rest := by
  induction text' generalizing text with
  | nil => simp [read_comma, Place.cell]
  | cons c text' ih =>
      obtain ⟨hcomma, hfeed, hmark⟩ := h
      simp only [List.mem_cons, not_or] at hcomma hfeed hmark
      have hhead := head?_append_ne rest hfeed.2 (Or.inr (by decide : ',' ≠ '\n'))
      rw [List.cons_append, read_plain_other (Ne.symm hcomma.1) (Ne.symm hfeed.1) fun h =>
        hhead h.2,
        ih _ ⟨hcomma.2, hfeed.2, hmark.2⟩]
      simp

/-- A plain field at the end of a line. -/
theorem read_plain_lineFeed (text text' : List Char) (row : List Cell) (rest : List Char)
    (h : Field.Ok (.plain text')) :
    read (.plain text) row (text' ++ '\n' :: rest) =
      (read .start [] rest).map fun records => (row ++ [some (text ++ chomp text')]) :: records := by
  induction text' generalizing text with
  | nil => simp [read_lineFeed, Place.cell, chomp]
  | cons c text' ih =>
      obtain ⟨hcomma, hfeed, hmark⟩ := h
      simp only [List.mem_cons, not_or] at hcomma hfeed hmark
      by_cases hlast : text' = [] ∧ c = '\r'
      · obtain ⟨rfl, rfl⟩ := hlast
        simp [read_return, read_lineFeed, Place.cell, chomp]
      · have hkept : text' ≠ [] ∨ c ≠ '\r' := by tauto
        have hreturn : ¬ (c = '\r' ∧ (text' ++ '\n' :: rest).head? = some '\n') := fun h =>
          head?_append_ne rest hfeed.2 (Or.inl (hkept.resolve_right (fun hc => hc h.1))) h.2
        rw [List.cons_append, read_plain_other (Ne.symm hcomma.1) (Ne.symm hfeed.1) hreturn,
          ih _ ⟨hcomma.2, hfeed.2, hmark.2⟩, chomp_cons c hkept]
        simp

theorem Field.read_comma (f : Field) (hf : f.Ok) (row : List Cell) (rest : List Char) :
    read .start row (f.toText ++ ',' :: rest) = read .start (row ++ [f.cell]) rest := by
  cases f with
  | enclosed text =>
      have h := read_doubled [] text row (',' :: rest)
      simp only [Field.toText, List.cons_append, List.append_assoc] at h ⊢
      exact (read_start_cons row '"' _).trans
        (h.trans (Csv.read_comma (.closed text) row rest (by simp)))
  | plain text =>
      cases text with
      | nil => simp [Field.toText, Csv.read_comma, Place.cell, Field.cell, plainCell]
      | cons c text =>
          obtain ⟨hcomma, hfeed, hmark⟩ := hf
          simp only [List.mem_cons, not_or] at hcomma hfeed hmark
          have hhead := head?_append_ne rest hfeed.2 (Or.inr (by decide : ',' ≠ '\n'))
          rw [Field.toText, List.cons_append,
            read_start_other (Ne.symm hcomma.1) (Ne.symm hfeed.1) (Ne.symm hmark.1) fun h =>
              hhead h.2,
            read_plain_comma [c] text row rest ⟨hcomma.2, hfeed.2, hmark.2⟩]
          simp [Field.cell, plainCell]

theorem Field.read_lineFeed (f : Field) (hf : f.Ok) (row : List Cell) (rest : List Char) :
    read .start row (f.toText ++ '\n' :: rest) =
      (read .start [] rest).map fun records => (row ++ [f.lastCell]) :: records := by
  cases f with
  | enclosed text =>
      have h := read_doubled [] text row ('\n' :: rest)
      simp only [Field.toText, List.cons_append, List.append_assoc] at h ⊢
      exact (read_start_cons row '"' _).trans
        (h.trans (Csv.read_lineFeed (.closed text) row rest (by simp)))
  | plain text =>
      cases text with
      | nil => simp [Field.toText, Csv.read_lineFeed, Place.cell, Field.lastCell, plainCell, chomp]
      | cons c text =>
          obtain ⟨hcomma, hfeed, hmark⟩ := hf
          simp only [List.mem_cons, not_or] at hcomma hfeed hmark
          by_cases hlast : text = [] ∧ c = '\r'
          · obtain ⟨rfl, rfl⟩ := hlast
            simp [Field.toText, read_return, Csv.read_lineFeed, Place.cell, Field.lastCell,
              plainCell, chomp]
          · have hkept : text ≠ [] ∨ c ≠ '\r' := by tauto
            have hreturn : ¬ (c = '\r' ∧ (text ++ '\n' :: rest).head? = some '\n') := fun h =>
              head?_append_ne rest hfeed.2 (Or.inl (hkept.resolve_right (fun hc => hc h.1))) h.2
            rw [Field.toText, List.cons_append,
              read_start_other (Ne.symm hcomma.1) (Ne.symm hfeed.1) (Ne.symm hmark.1) hreturn,
              read_plain_lineFeed [c] text row rest ⟨hcomma.2, hfeed.2, hmark.2⟩]
            simp [Field.lastCell, chomp_cons c hkept, plainCell]

theorem read_lineText (fs : List Field) (hfs : ∀ f ∈ fs, f.Ok) (row : List Cell)
    (rest : List Char) :
    read .start row (lineText fs ++ rest) =
      (read .start [] rest).map fun records => (row ++ lineCells fs) :: records := by
  induction fs using lineText.induct generalizing row with
  | case1 => simp [lineText, lineCells, Csv.read_lineFeed, Place.cell]
  | case2 f =>
      rw [lineText, List.append_assoc, List.singleton_append, lineCells]
      exact f.read_lineFeed (hfs f (by simp)) row rest
  | case3 f f' fs ih =>
      rw [lineText, List.append_assoc, List.cons_append, f.read_comma (hfs f (by simp)),
        ih fun g hg => hfs g (List.mem_cons_of_mem f hg)]
      simp [lineCells]

/-- Lines of fields are read back as their cells. -/
theorem parse_lines (lines : List (List Field)) (h : ∀ fs ∈ lines, ∀ f ∈ fs, f.Ok) :
    parse (lines.flatMap lineText) = some (lines.map lineCells) := by
  induction lines with
  | nil => rfl
  | cons fs lines ih =>
      have hrest := ih fun gs hgs => h gs (List.mem_cons_of_mem fs hgs)
      rw [parse] at hrest
      rw [parse, List.flatMap_cons, read_lineText fs (h fs (by simp)), hrest]
      simp

end Csv

end SnowflakeConnector
