import Mathlib
import SnowflakeConnector.Csv
import SnowflakeConnector.Json

/-!
# SnowflakeConnector.BindUploader

`lib/connection/bind_uploader.js` and `buildBindsMap` in `statement.js`: the rows of an array
binding are written to CSV files, or sent in the request.

* `carries_iff` -- when the files hold what would have been sent.
-/

namespace SnowflakeConnector

namespace BindUploader

/-! ## values -/

/-- A number is kept as the text that `JSON.stringify` gives; there is none for `NaN` and the
infinities. -/
inductive JsNumber
  | finite (literal : String) (valid : Json.isLiteral literal.toList = true)
  | nonFinite

/-- A value to be bound.  A date is its time in milliseconds, or invalid. -/
inductive BindValue
  | null
  | str (s : String)
  | bool (b : Bool)
  | num (n : JsNumber)
  | date (time : Option Int)
  | arr (items : List BindValue)
  | obj (members : List (String × BindValue))

/-! ## dates -/

def padded (width n : Nat) : List Char := (Nat.toDigits 10 n).leftpad width '0'

/-- Years outside of four digits have six, and a sign. -/
def isoYear (year : Int) : List Char :=
  if 0 ≤ year ∧ year ≤ 9999 then padded 4 year.toNat
  else (if year < 0 then '-' else '+') :: padded 6 year.natAbs

/-- The year, the month and the day of a day after the 1st of January 1970; the years are
counted from March. -/
def civil (days : Int) : Int × Nat × Nat :=
  let z := days + 719468
  let era := z / 146097
  let doe := (z % 146097).toNat
  let yoe := (doe - doe / 1460 + doe / 36524 - doe / 146096) / 365
  let doy := doe - (365 * yoe + yoe / 4 - yoe / 100)
  let mp := (5 * doy + 2) / 153
  let month := if mp < 10 then mp + 3 else mp - 9
  (yoe + era * 400 + (if month ≤ 2 then 1 else 0), month, doy - (153 * mp + 2) / 5 + 1)

/-- `toISOString`. -/
def isoString (time : Int) : List Char :=
  let (year, month, day) := civil (time / 86400000)
  let ms := (time % 86400000).toNat
  isoYear year ++ '-' :: padded 2 month ++ '-' :: padded 2 day ++ 'T' ::
    padded 2 (ms / 3600000) ++ ':' :: padded 2 (ms / 60000 % 60) ++ ':' ::
    padded 2 (ms / 1000 % 60) ++ '.' :: padded 3 (ms % 1000) ++ ['Z']

example : String.ofList (isoString 1709210096789) = "2024-02-29T12:34:56.789Z" := by decide

/-! ## `buildBindsMap` -/

mutual

/-- What `JSON.stringify` sees of a value. -/
def BindValue.toJson : BindValue → Json.Value
  | .null => .null
  | .str s => .str s
  | .bool b => .bool b
  | .num (.finite literal _) => .num literal
  | .num .nonFinite => .null
  | .date none => .null
  | .date (some time) => .str (String.ofList (isoString time))
  | .arr items => .arr (itemsToJson items)
  | .obj members => .obj (membersToJson members)

def itemsToJson : List BindValue → List Json.Value
  | [] => []
  | v :: items => v.toJson :: itemsToJson items

def membersToJson : List (String × BindValue) → List (String × Json.Value)
  | [] => []
  | (key, v) :: members => (key, v.toJson) :: membersToJson members

end

/-- The string that is sent for a value; nulls are sent as they are. -/
def stringOf : BindValue → Option (List Char)
  | .null => none
  | .str s => some s.toList
  | .date none => none
  | .date (some time) => some (isoString time)
  | v => some (Json.stringify v.toJson)

inductive BindType
  | boolean
  | variant
  | fixed
  | real
  | text
  deriving DecidableEq, Repr

/-- A number without a fraction: one with a positive exponent, or with neither a point nor an
exponent. -/
def isInteger (literal : String) : Bool :=
  literal.toList.contains '+' ||
    (!literal.toList.contains '.' && !literal.toList.contains 'e')

def typeOf : BindValue → BindType
  | .bool _ => .boolean
  | .obj _ | .arr _ => .variant
  | .num (.finite literal _) => if isInteger literal = true then .fixed else .real
  | _ => .text

structure Bind where
  type : BindType
  value : List (Option (List Char))

/-- `buildBindsMap` of an array binding: one entry for each value of the first row. -/
def buildBindsMap (bindsArray : List (List BindValue)) : List Bind :=
  (bindsArray.headD []).mapIdx fun index value =>
    { type := typeOf value
      value := bindsArray.map fun row => row[index]?.bind stringOf }

/-! ## `csvData` -/

mutual

/-- Whether `toString` gives the empty text; an object's own `toString` is no function. -/
def toStringIsEmpty : BindValue → Except String Bool
  | .null => .ok true
  | .str s => .ok (s == "")
  | .arr items => (itemsAreEmpty items).map fun empty => empty.length ≤ 1 ∧ empty.all id
  | .obj members =>
      if members.any (fun m => m.1 == "toString") = true then
        .error "TypeError: data.toString is not a function"
      else .ok false
  | _ => .ok false

/-- The items are joined with commas, nulls as empty texts. -/
def itemsAreEmpty : List BindValue → Except String (List Bool)
  | [] => .ok []
  | v :: items => do
      let empty ← toStringIsEmpty v
      let rest ← itemsAreEmpty items
      return empty :: rest

end

/-- The characters for which a text is enclosed. -/
def isSpecial (data : List Char) : Bool :=
  data.contains '"' || data.contains ',' || data.contains '\\' || data.contains '\n' ||
    data.contains '\t'

def csvData (data : BindValue) : Except String (List Char) :=
  match data with
  | .null => .ok []
  | data => do
      if ← toStringIsEmpty data then return ['"', '"']
      match stringOf data with
      | none => throw "TypeError: Cannot read properties of null (reading 'toString')"
      | some text =>
          if isSpecial text = true then return '"' :: Csv.doubled text ++ ['"']
          return text

/-! ## `Upload` -/

structure CsvFile where
  fileName : String
  fileData : List Char
  deriving DecidableEq, Repr

/-- `length`, in code units. -/
def utf16Length (text : List Char) : Nat :=
  (text.map fun c => if 65536 ≤ c.toNat then 2 else 1).sum

def maxBufferSize : Nat := 1024 * 1024 * 100

/-- The cells of a row, with commas. -/
def csvRow : List BindValue → Except String (List Char)
  | [] => .ok []
  | [v] => csvData v
  | v :: v' :: row => do
      let value ← csvData v
      let rest ← csvRow (v' :: row)
      return value ++ ',' :: rest

/-- The rows go to a buffer, which is uploaded when it is long enough, and at the end. -/
def uploadLoop : List (List BindValue) → List Char → Nat → Except String (List CsvFile)
  | [], _, _ => .ok []
  | row :: rows, strbuffer, fileCount => do
      let line ← csvRow row
      let strbuffer := strbuffer ++ line ++ ['\n']
      if maxBufferSize ≤ utf16Length strbuffer ∨ rows = [] then
        let files ← uploadLoop rows [] (fileCount + 1)
        return ⟨toString (fileCount + 1), strbuffer⟩ :: files
      else uploadLoop rows strbuffer fileCount

/-- The files of `Upload`. -/
def upload (bindings : List (List BindValue)) : Except String (List CsvFile) :=
  uploadLoop bindings [] 0

/-! ## what the files hold -/

/-- A value that both ways accept: `csvData` does not throw. -/
def Accepted (v : BindValue) : Prop := ∃ text, csvData v = .ok text

/-- All rows have as many values. -/
def Rectangular (rows : List (List BindValue)) : Prop := ∃ width, ∀ row ∈ rows, row.length = width

/-- The lines of a group of rows. -/
def csvLines : List (List BindValue) → Except String (List Char)
  | [] => .ok []
  | row :: rows => do
      let line ← csvRow row
      let rest ← csvLines rows
      return line ++ '\n' :: rest

/-- The rows as they are sent in the request, each from the entries of its columns. -/
def inlineRows (bindsMap : List Bind) (count : Nat) : List (List Csv.Cell) :=
  (List.range count).map fun i => bindsMap.map fun bind => bind.value.getD i none

/-- The files have the names `1` to `n`, hold all rows in order, and are read as what is sent
in the request. -/
structure Carries (rows : List (List BindValue)) (files : List CsvFile) : Prop where
  names : files.map CsvFile.fileName = (List.range' 1 files.length).map toString
  groups : ∃ groups : List (List (List BindValue)), groups.flatten = rows ∧
    List.Forall₂ (fun group file => csvLines group = .ok (CsvFile.fileData file)) groups files
  cells : Csv.parse (files.flatMap CsvFile.fileData) =
    some (inlineRows (buildBindsMap rows) rows.length)

/-- An array without a text, such as one that is empty or has nothing but a null. -/
def EmptyArray (v : BindValue) : Prop := ∃ items, v = .arr items ∧ toStringIsEmpty v = .ok true

/-- A text that ends with a carriage return and is not enclosed. -/
def EndsInReturn (v : BindValue) : Prop :=
  ∃ s, v = .str s ∧ s.toList.getLast? = some '\r' ∧ isSpecial s.toList = false

/-- A row of values that the files do not change. -/
@[mk_iff]
structure Kept (row : List BindValue) : Prop where
  nonempty : row ≠ []
  noArray : ∀ v ∈ row, ¬ EmptyArray v
  noReturn : ∀ v ∈ row.getLast?, ¬ EndsInReturn v

/-! ## fields -/

def textField (text : List Char) : Csv.Field :=
  if isSpecial text = true then .enclosed text else .plain text

/-- The field that a value is written to. -/
def fieldOf : BindValue → Csv.Field
  | .null => .plain []
  | v => if toStringIsEmpty v = .ok true then .enclosed [] else textField ((stringOf v).getD [])

theorem textField_ok (text : List Char) : (textField text).Ok := by
  unfold textField
  split_ifs with hspecial
  · trivial
  · simp only [isSpecial, Bool.or_eq_true, not_or] at hspecial
    obtain ⟨⟨⟨⟨hmark, hcomma⟩, _⟩, hfeed⟩, _⟩ := hspecial
    exact ⟨by simpa using hcomma, by simpa using hfeed, by simpa using hmark⟩

theorem fieldOf_ok (v : BindValue) : (fieldOf v).Ok := by
  unfold fieldOf
  split
  · exact ⟨by simp, by simp, by simp⟩
  · split_ifs
    · trivial
    · exact textField_ok _

/-- The text of an accepted value is that of its field. -/
theorem csvData_eq {v : BindValue} (hv : Accepted v) : csvData v = .ok (fieldOf v).toText := by
  obtain ⟨text, htext⟩ := hv
  rw [htext]
  unfold csvData at htext
  unfold fieldOf
  split at htext
  · obtain rfl := Except.ok.inj htext
    rfl
  · next hnull =>
    cases hempty : toStringIsEmpty v with
    | error message => simp [hempty, bind, Except.bind] at htext
    | ok empty =>
        cases empty with
        | true =>
            simp [hempty, bind, Except.bind, pure, Except.pure] at htext
            simp [htext, Csv.Field.toText, Csv.doubled]
        | false =>
            cases hstring : stringOf v with
            | none =>
                simp [hempty, hstring, bind, Except.bind, throw, throwThe,
                  MonadExceptOf.throw] at htext
            | some data =>
                by_cases hspecial : isSpecial data = true
                · simp [hempty, hstring, hspecial, bind, Except.bind, pure, Except.pure] at htext
                  simp [hspecial, textField, ← htext, Csv.Field.toText]
                · simp [hempty, hstring, hspecial, bind, Except.bind, pure, Except.pure] at htext
                  simp [hspecial, textField, ← htext, Csv.Field.toText]

theorem csvRow_eq {row : List BindValue} (h : ∀ v ∈ row, Accepted v) :
    ∃ text, csvRow row = .ok text ∧ text ++ ['\n'] = Csv.lineText (row.map fieldOf) := by
  induction row using csvRow.induct with
  | case1 => exact ⟨[], rfl, rfl⟩
  | case2 v => exact ⟨_, csvData_eq (h v (by simp)), rfl⟩
  | case3 v v' row ih =>
      obtain ⟨text, hrow, htext⟩ := ih fun u hu => h u (List.mem_cons_of_mem v hu)
      refine ⟨(fieldOf v).toText ++ ',' :: text, ?_, ?_⟩
      · rw [csvRow, csvData_eq (h v (by simp)), hrow]
        rfl
      · rw [List.append_assoc, List.cons_append, htext]
        rfl

/-- The lines of accepted values. -/
theorem csvLines_eq {rows : List (List BindValue)} (h : ∀ row ∈ rows, ∀ v ∈ row, Accepted v) :
    csvLines rows = .ok ((rows.map (List.map fieldOf)).flatMap Csv.lineText) := by
  induction rows with
  | nil => rfl
  | cons row rows ih =>
      obtain ⟨text, hrow, htext⟩ := csvRow_eq (h row (by simp))
      rw [csvLines, hrow, ih fun r hr => h r (List.mem_cons_of_mem row hr), List.map_cons,
        List.flatMap_cons, ← htext]
      simp [bind, Except.bind, pure, Except.pure]

/-! ## files -/

/-- The loop with the lines of some rows in its buffer, which are not the last ones. -/
theorem uploadLoop_eq {rows : List (List BindValue)} (pending : List (List BindValue))
    (strbuffer : List Char) (fileCount : Nat) (h : ∀ row ∈ pending ++ rows, ∀ v ∈ row, Accepted v)
    (hbuffer : csvLines pending = .ok strbuffer) (hpending : rows = [] → pending = []) :
    ∃ files groups, uploadLoop rows strbuffer fileCount = .ok files ∧
      files.map CsvFile.fileName =
        (List.range' (fileCount + 1) files.length).map toString ∧
      groups.flatten = pending ++ rows ∧
      List.Forall₂ (fun group file => csvLines group = .ok (CsvFile.fileData file)) groups
        files := by
  induction rows generalizing pending strbuffer fileCount with
  | nil =>
      obtain rfl := hpending rfl
      exact ⟨[], [], rfl, rfl, rfl, .nil⟩
  | cons row rows ih =>
      obtain ⟨line, hline, htext⟩ := csvRow_eq (h row (by simp))
      have hlines : csvLines (pending ++ [row]) = .ok (strbuffer ++ line ++ ['\n']) := by
        rw [csvLines_eq fun r hr v hv => h r (by grind) v hv] at hbuffer ⊢
        obtain rfl := Except.ok.inj hbuffer
        simp [← htext]
      by_cases hflush : maxBufferSize ≤ utf16Length (strbuffer ++ line ++ ['\n']) ∨ rows = []
      · obtain ⟨files, groups, hloop, hnames, hflatten, hgroups⟩ := ih [] []
          (fileCount + 1) (fun r hr v hv => h r (by grind) v hv) rfl (fun _ => rfl)
        refine ⟨⟨toString (fileCount + 1), strbuffer ++ line ++ ['\n']⟩ :: files,
          (pending ++ [row]) :: groups, ?_, ?_, ?_, ?_⟩
        · simp only [uploadLoop, hline, hloop, bind, Except.bind, if_pos hflush, pure, Except.pure]
        · simp [hnames, List.range'_succ]
        · simp [hflatten]
        · exact .cons hlines hgroups
      · obtain ⟨files, groups, hloop, hnames, hflatten, hgroups⟩ := ih (pending ++ [row])
          (strbuffer ++ line ++ ['\n']) fileCount (fun r hr v hv => h r (by grind) v hv) hlines
          (fun hrows => absurd (Or.inr hrows) hflush)
        refine ⟨files, groups, ?_, hnames, by simp [hflatten], hgroups⟩
        simp only [uploadLoop, hline, bind, Except.bind, if_neg hflush, hloop]

theorem flatMap_fileData {groups : List (List (List BindValue))} {files : List CsvFile}
    (hgroups : List.Forall₂ (fun group file => csvLines group = .ok (CsvFile.fileData file))
      groups files) (h : ∀ row ∈ groups.flatten, ∀ v ∈ row, Accepted v) :
    files.flatMap CsvFile.fileData =
      (groups.flatten.map (List.map fieldOf)).flatMap Csv.lineText := by
  induction hgroups with
  | nil => rfl
  | cons hgroup hrest ih =>
      rw [csvLines_eq fun row hrow => h row (by simp [hrow])] at hgroup
      rw [List.flatMap_cons, List.flatten_cons, List.map_append, List.flatMap_append,
        ih fun row hrow => h row (by rw [List.flatten_cons]; exact List.mem_append_right _ hrow)]
      rw [← Except.ok.inj hgroup]

/-! ## cells -/

mutual

theorem valid_toJson : ∀ v : BindValue, Json.Valid v.toJson = true
  | .null | .str _ | .bool _ | .num .nonFinite | .date none | .date (some _) => rfl
  | .num (.finite _ valid) => valid
  | .arr items => validItems_toJson items
  | .obj members => validMembers_toJson members

theorem validItems_toJson : ∀ items : List BindValue, Json.ValidItems (itemsToJson items) = true
  | [] => rfl
  | v :: items => Bool.and_eq_true _ _ ▸ ⟨valid_toJson v, validItems_toJson items⟩

theorem validMembers_toJson :
    ∀ members : List (String × BindValue), Json.ValidMembers (membersToJson members) = true
  | [] => rfl
  | (_, v) :: members => Bool.and_eq_true _ _ ▸ ⟨valid_toJson v, validMembers_toJson members⟩

end

/-- A text that a field of its own holds before a comma. -/
theorem cell_textField {text : List Char} (h : text ≠ []) : (textField text).cell = some text := by
  unfold textField
  split_ifs
  · rfl
  · cases text with
    | nil => contradiction
    | cons c text => rfl

theorem chomp_eq_iff (text : List Char) : Csv.chomp text = text ↔ text.getLast? ≠ some '\r' := by
  unfold Csv.chomp
  split_ifs with hreturn
  · simp only [hreturn, ne_eq, not_true_eq_false, iff_false]
    intro hdrop
    have hlength := congrArg List.length hdrop
    have hne : text ≠ [] := by
      rintro rfl
      contradiction
    have hpos := List.length_pos_iff.mpr hne
    rw [List.length_dropLast] at hlength
    omega
  · simp [hreturn]

theorem plainCell_eq_some_iff {text text' : List Char} (h : text' ≠ []) :
    Csv.plainCell text = some text' ↔ text = text' := by
  cases text with
  | nil => simp [Csv.plainCell, h.symm]
  | cons c text => simp [Csv.plainCell]

/-- At the end of a line, one that ends with a carriage return has to be enclosed. -/
theorem lastCell_textField {text : List Char} (h : text ≠ []) :
    (textField text).lastCell = some text ↔
      ¬ (text.getLast? = some '\r' ∧ isSpecial text = false) := by
  unfold textField
  split_ifs with hspecial
  · simp [Csv.Field.lastCell, hspecial]
  · rw [Csv.Field.lastCell, plainCell_eq_some_iff h, chomp_eq_iff]
    simp [hspecial]

theorem isoString_getLast? (time : Int) : (isoString time).getLast? = some 'Z' := by
  simp [isoString, List.getLast?_cons]

/-- The text of a value that is neither null nor a string, and has one, is not empty and does
not end with a carriage return. -/
theorem stringOf_last {v : BindValue} {text : List Char} (hstring : stringOf v = some text)
    (hv : ∀ s, v ≠ .str s) : text ≠ [] ∧ text.getLast? ≠ some '\r' := by
  have hlast : ∃ c, text.getLast? = some c ∧ c ≠ '\r' := by
    cases v with
    | null => contradiction
    | str s => exact absurd rfl (hv s)
    | date time =>
        cases time with
        | none => contradiction
        | some time =>
            obtain rfl := Option.some.inj hstring
            exact ⟨'Z', isoString_getLast? time, by decide⟩
    | bool | num | arr | obj =>
        obtain rfl := Option.some.inj hstring
        exact Json.stringify_last _ (valid_toJson _)
  obtain ⟨c, hlast, hreturn⟩ := hlast
  rw [hlast]
  refine ⟨?_, by simpa using hreturn⟩
  rintro rfl
  contradiction

/-- The only strings without a text are empty ones, and arrays may have none either. -/
theorem toStringIsEmpty_iff {v : BindValue} (hnull : v ≠ .null) :
    toStringIsEmpty v = .ok true ↔ v = .str "" ∨ EmptyArray v := by
  cases v with
  | null => contradiction
  | arr items => simp [EmptyArray]
  | obj members =>
      simp only [toStringIsEmpty, EmptyArray]
      split_ifs <;> simp
  | str s => simp [toStringIsEmpty, EmptyArray]
  | bool | num | date => simp [toStringIsEmpty, EmptyArray]

theorem not_endsInReturn {v : BindValue} (hv : ∀ s, v ≠ .str s) : ¬ EndsInReturn v := by
  rintro ⟨s, rfl, _⟩
  exact hv s rfl

/-- What is written for a value: nothing, an empty text, or the text that is sent for it. -/
theorem fieldOf_cases {v : BindValue} (hv : Accepted v) :
    (fieldOf v = .plain [] ∧ stringOf v = none ∧ ¬ EmptyArray v ∧ ¬ EndsInReturn v) ∨
      (fieldOf v = .enclosed [] ∧ stringOf v = some [] ∧ ¬ EmptyArray v ∧ ¬ EndsInReturn v) ∨
      (fieldOf v = .enclosed [] ∧ stringOf v ≠ some [] ∧ EmptyArray v) ∨
      ∃ text, fieldOf v = textField text ∧ stringOf v = some text ∧ text ≠ [] ∧ ¬ EmptyArray v ∧
        (EndsInReturn v ↔ text.getLast? = some '\r' ∧ isSpecial text = false) := by
  by_cases hnull : v = .null
  · subst hnull
    exact Or.inl ⟨rfl, rfl, by simp [EmptyArray], by simp [EndsInReturn]⟩
  have hfield : fieldOf v = if toStringIsEmpty v = .ok true then .enclosed []
      else textField ((stringOf v).getD []) := by
    cases v <;> first | contradiction | rfl
  by_cases hempty : toStringIsEmpty v = .ok true
  · rw [if_pos hempty] at hfield
    rcases (toStringIsEmpty_iff hnull).mp hempty with rfl | harray
    · exact Or.inr (Or.inl ⟨rfl, rfl, by simp [EmptyArray], by simp [EndsInReturn]⟩)
    · have hstring : stringOf v ≠ some [] := by
        obtain ⟨items, rfl, _⟩ := harray
        simp [stringOf, BindValue.toJson, Json.stringify]
      exact Or.inr (Or.inr (Or.inl ⟨hfield, hstring, harray⟩))
  · rw [if_neg hempty] at hfield
    have harray := mt (toStringIsEmpty_iff hnull).mpr hempty
    rw [not_or] at harray
    cases hstring : stringOf v with
    | none =>
        cases v with
        | date time =>
            cases time with
            | none =>
                obtain ⟨text, htext⟩ := hv
                contradiction
            | some time => contradiction
        | null | str | bool | num | arr | obj => contradiction
    | some text =>
        rw [hstring, Option.getD_some] at hfield
        refine Or.inr (Or.inr (Or.inr ⟨text, hfield, rfl, ?_, harray.2, ?_⟩))
        · by_cases hstr : ∃ s, v = .str s
          · obtain ⟨s, rfl⟩ := hstr
            obtain rfl := Option.some.inj hstring
            simpa using harray.1
          · exact (stringOf_last hstring (by simpa using hstr)).1
        · by_cases hstr : ∃ s, v = .str s
          · obtain ⟨s, rfl⟩ := hstr
            obtain rfl := Option.some.inj hstring
            simp [EndsInReturn]
          · have hlast := (stringOf_last hstring (by simpa using hstr)).2
            have hnot := not_endsInReturn (by simpa using hstr)
            simp [hlast, hnot]

/-- The field of a value is read as the string that is sent for it, unless it is an array
without a text. -/
theorem cell_fieldOf {v : BindValue} (hv : Accepted v) :
    (fieldOf v).cell = stringOf v ↔ ¬ EmptyArray v := by
  obtain ⟨hfield, hstring, harray, _⟩ | ⟨hfield, hstring, harray, _⟩ |
    ⟨hfield, hstring, harray⟩ | ⟨text, hfield, hstring, htext, harray, _⟩ := fieldOf_cases hv
  · simp [hfield, hstring, harray, Csv.Field.cell, Csv.plainCell]
  · simp [hfield, hstring, harray, Csv.Field.cell]
  · simp [hfield, harray, Csv.Field.cell, hstring.symm]
  · simp [hfield, hstring, harray, cell_textField htext]

theorem lastCell_fieldOf {v : BindValue} (hv : Accepted v) :
    (fieldOf v).lastCell = stringOf v ↔ ¬ EmptyArray v ∧ ¬ EndsInReturn v := by
  obtain ⟨hfield, hstring, harray, hreturn⟩ | ⟨hfield, hstring, harray, hreturn⟩ |
    ⟨hfield, hstring, harray⟩ | ⟨text, hfield, hstring, htext, harray, hreturn⟩ :=
    fieldOf_cases hv
  · simp [hfield, hstring, harray, hreturn, Csv.Field.lastCell, Csv.plainCell, Csv.chomp]
  · simp [hfield, hstring, harray, hreturn, Csv.Field.lastCell]
  · simp [hfield, harray, Csv.Field.lastCell, hstring.symm]
  · rw [hfield, hstring, lastCell_textField htext, hreturn]
    simp [harray]

/-- A line is read as the row that is sent exactly when the row is kept. -/
theorem lineCells_fieldOf {row : List BindValue} (h : ∀ v ∈ row, Accepted v) :
    Csv.lineCells (row.map fieldOf) = row.map stringOf ↔ Kept row := by
  induction row using csvRow.induct with
  | case1 => simp [Csv.lineCells, kept_iff]
  | case2 v => simp [Csv.lineCells, kept_iff, lastCell_fieldOf (h v (by simp))]
  | case3 v v' row ih =>
      have hrest := ih fun u hu => h u (List.mem_cons_of_mem v hu)
      rw [kept_iff] at hrest ⊢
      simp only [List.map_cons, Csv.lineCells, List.cons.injEq] at hrest ⊢
      rw [cell_fieldOf (h v (by simp))]
      refine (and_congr_right fun _ => hrest).trans ?_
      simp [and_assoc]

/-! ## rows -/

theorem inlineRows_eq {rows : List (List BindValue)} (hrows : Rectangular rows) :
    inlineRows (buildBindsMap rows) rows.length = rows.map (List.map stringOf) := by
  obtain ⟨width, hwidth⟩ := hrows
  apply List.ext_getElem
  · simp [inlineRows]
  · intro i hi hi'
    have hlt : i < rows.length := by simpa using hi'
    have hrow := hwidth _ (List.getElem_mem hlt)
    have hfirst : (rows.headD []).length = width := by
      cases rows with
      | nil => simp at hlt
      | cons row rows => exact hwidth row (by simp)
    simp only [inlineRows, List.getElem_map, List.getElem_range]
    apply List.ext_getElem
    · rw [List.length_map, List.length_map, buildBindsMap, List.length_mapIdx, hfirst, hrow]
    · intro j hj hj'
      have hjlt : j < rows[i].length := by simpa using hj'
      simp [buildBindsMap, hlt, hjlt]

/-- The files that are uploaded for accepted values hold what is sent in the request exactly
when every row is kept. -/
theorem carries_iff {rows : List (List BindValue)} (hrows : Rectangular rows)
    (haccepted : ∀ row ∈ rows, ∀ v ∈ row, Accepted v) :
    (∃ files, upload rows = .ok files ∧ Carries rows files) ↔ ∀ row ∈ rows, Kept row := by
  obtain ⟨files, groups, hupload, hnames, hflatten, hgroups⟩ := uploadLoop_eq [] [] 0
    haccepted rfl (fun _ => rfl)
  rw [List.nil_append] at hflatten
  have hdata := flatMap_fileData hgroups (by rw [hflatten]; exact haccepted)
  have hparse : Csv.parse (files.flatMap CsvFile.fileData) =
      some ((rows.map (List.map fieldOf)).map Csv.lineCells) := by
    rw [hdata, hflatten]
    apply Csv.parse_lines
    intro fs hfs f hf
    obtain ⟨row, _, rfl⟩ := List.mem_map.mp hfs
    obtain ⟨v, _, rfl⟩ := List.mem_map.mp hf
    exact fieldOf_ok v
  have hcells : Csv.parse (files.flatMap CsvFile.fileData) =
      some (inlineRows (buildBindsMap rows) rows.length) ↔ ∀ row ∈ rows, Kept row := by
    rw [hparse, inlineRows_eq hrows, Option.some.injEq, List.map_map, List.map_inj_left]
    exact forall₂_congr fun row hrow => lineCells_fieldOf (haccepted row hrow)
  constructor
  · rintro ⟨files', hfiles', hcarries⟩
    obtain rfl := Except.ok.inj (hupload.symm.trans hfiles')
    exact hcells.mp hcarries.cells
  · intro hkept
    exact ⟨files, hupload, hnames, ⟨groups, hflatten, hgroups⟩, hcells.mpr hkept⟩

/-- A row with a null and a text that is enclosed. -/
theorem carries_iff_row :
    (∃ files, upload [[.null, .str "say \"hi\""]] = .ok files ∧
        Carries [[.null, .str "say \"hi\""]] files) ↔
      ∀ row ∈ [[BindValue.null, .str "say \"hi\""]], Kept row :=
  carries_iff ⟨2, by simp⟩ fun row hrow v hv => by
    simp only [List.mem_singleton] at hrow
    subst hrow
    simp only [List.mem_cons, List.not_mem_nil, or_false] at hv
    rcases hv with rfl | rfl
    · exact ⟨_, rfl⟩
    · exact ⟨_, rfl⟩

/-- An empty array is written as an empty text, and a text loses the carriage return that it
ends with. -/
theorem not_carried :
    (Rectangular [[.arr []]] ∧ Accepted (.arr []) ∧
        ¬ ∃ files, upload [[.arr []]] = .ok files ∧ Carries [[.arr []]] files) ∧
      Rectangular [[.str "a\r"]] ∧ Accepted (.str "a\r") ∧
        ¬ ∃ files, upload [[.str "a\r"]] = .ok files ∧ Carries [[.str "a\r"]] files := by
  refine ⟨⟨⟨1, by simp⟩, ⟨_, rfl⟩, ?_⟩, ⟨1, by simp⟩, ⟨_, rfl⟩, ?_⟩
  · rintro ⟨files, hupload, hcarries⟩
    have hfiles : upload [[.arr []]] = .ok [⟨"1", ['"', '"', '\n']⟩] := by decide
    obtain rfl := Except.ok.inj (hupload.symm.trans hfiles)
    have hread : Csv.parse ['"', '"', '\n'] = some [[some []]] := by decide
    have hcells := hcarries.cells
    contradiction
  · rintro ⟨files, hupload, hcarries⟩
    have hfiles : upload [[.str "a\r"]] = .ok [⟨"1", ['a', '\r', '\n']⟩] := by decide
    obtain rfl := Except.ok.inj (hupload.symm.trans hfiles)
    have hread : Csv.parse ['a', '\r', '\n'] = some [[some ['a']]] := by decide
    have hcells := hcarries.cells
    contradiction

end BindUploader

end SnowflakeConnector
