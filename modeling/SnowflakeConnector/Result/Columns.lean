import SnowflakeConnector.Errors
import SnowflakeConnector.PlainObject

/-!
# SnowflakeConnector.Result.Columns

The columns of a result and their lookup by name, in `lib/connection/result/result.js` and
`chunk.js`.

The constructor fills a plain object with the indices of the columns of each name, by reading
a property or creating it.  A property that `Object.prototype` has is read from there, and
nothing can be pushed to it.

* `mapColumns` -- the loop of the constructor;
* `resolves_iff` -- the results that are constructed, and whose columns are found by name.
-/

namespace SnowflakeConnector

namespace Result

variable {κ ω ν : Type*}

/-- `_mapColumnNameToIndices`: a property is an array of indices, or a copy of a member of
`Object.prototype`. -/
abbrev IndexMap := PlainObject (Option (List Nat))

/-- `mapColumnNameToIndices[name] || []`. -/
def readOrCreate (m : IndexMap) (name : String) : Option (List Nat) :=
  match m.get name with
  | .own indices => indices
  | .inherited => none
  | .undefined => some []

/-- If we don't already have an index array for a column with this name, create a new one,
otherwise just append to the existing array of indices. -/
def addColumn (m : IndexMap) (name : String) (index : Nat) : Except Err IndexMap :=
  let m := m.set name (readOrCreate m name)
  match m.get name with
  | .own (some indices) => .ok (m.set name (some (indices ++ [index])))
  | _ => .error Errors.typeError

/-- The loop over the columns, from an index on. -/
def mapColumns : List String → Nat → IndexMap → Except Err IndexMap
  | [], _, m => .ok m
  | name :: names, index, m =>
      match addColumn m name index with
      | .ok m => mapColumns names (index + 1) m
      | .error err => .error err

/-- What a constructed result has of its columns. -/
structure Columns (κ : Type*) where
  columns : List κ
  mapColumnNameToIndices : IndexMap

/-- The part of the constructor that maps the columns; `getName` is that of the columns. -/
def createColumns (getName : κ → String) (columns : List κ) : Except Err (Columns κ) :=
  (mapColumns (columns.map getName) 0 .empty).map (⟨columns, ·⟩)

/-- A column identifier: a name, an index, or anything else. -/
inductive ColumnIdentifier
  | name (s : String)
  | index (n : Rat)
  | other

/-- The first index of a name. -/
def firstIndex (m : IndexMap) (name : String) : Option Nat :=
  match m.getOwn? name with
  | some (some indices) => indices[0]?
  | _ => none

/-- Resolves a column identifier to the corresponding column if possible. -/
def resolveColumnIdentifierToColumn (columns : List κ) (columnIdentifier : ColumnIdentifier)
    (mapColumnNameToIndices : IndexMap) : Option κ :=
  match columnIdentifier with
  | .name s => (firstIndex mapColumnNameToIndices s).bind fun i => columns[i]?
  | .index n => if n.den = 1 ∧ 0 ≤ n then columns[n.num.toNat]? else none
  | .other => none

/-- `Result.prototype.getColumn`, which has the same body. -/
def Columns.getColumn (r : Columns κ) (columnIdentifier : ColumnIdentifier) : Option κ :=
  resolveColumnIdentifierToColumn r.columns columnIdentifier r.mapColumnNameToIndices

/-- What `getColumnValue` and `getColumnValueAsString` of a row share: the column is resolved, and
asked for its value of the row. -/
def Columns.rowValue (getRowValue : κ → ω → ν) (r : Columns κ) (row : ω)
    (columnIdentifier : ColumnIdentifier) : Option ν :=
  (resolveColumnIdentifierToColumn r.columns columnIdentifier r.mapColumnNameToIndices).map
    (getRowValue · row)

/-! ## the lookup -/

variable {getName : κ → String} {columns : List κ} {names : List String} {m : IndexMap}

/-- The names so far have their first indices in the map, and nothing else is in it. -/
def Indexed (names : List String) (m : IndexMap) : Prop :=
  ∀ s, (s ∉ names ∧ m.getOwn? s = none) ∨
    ∃ indices, m.getOwn? s = some (some indices) ∧ s ∈ names ∧ indices[0]? = some (names.idxOf s)

theorem indexed_empty : Indexed [] .empty := fun _ => .inl ⟨List.not_mem_nil, rfl⟩

/-- What is pushed to an array does not change its first element. -/
theorem Indexed.push (h : Indexed names m) {name : String} (hproto : name ≠ "__proto__")
    (indices : List Nat)
    (hindices : (indices ++ [names.length])[0]? = some ((names ++ [name]).idxOf name)) :
    Indexed (names ++ [name])
      ((m.set name (some indices)).set name (some (indices ++ [names.length]))) := by
  intro s
  by_cases hs : s = name
  · subst hs
    exact .inr ⟨_, PlainObject.getOwn?_set_self hproto, by simp, hindices⟩
  · rw [PlainObject.getOwn?_set_of_ne hs, PlainObject.getOwn?_set_of_ne hs]
    obtain ⟨hmem, hnone⟩ | ⟨is, his, hmem, hfirst⟩ := h s
    · exact .inl ⟨by simp [hmem, hs], hnone⟩
    · exact .inr ⟨is, his, by simp [hmem], by rw [hfirst, List.idxOf_append_of_mem hmem]⟩

/-- A name that no object inherits is added. -/
theorem Indexed.addColumn (h : Indexed names m) {name : String}
    (hname : name ∉ PlainObject.prototypeMembers) :
    ∃ m', Result.addColumn m name names.length = .ok m' ∧ Indexed (names ++ [name]) m' := by
  have hproto := PlainObject.ne_proto_of_notMem hname
  obtain ⟨hmem, hnone⟩ | ⟨indices, hindices, hmem, hfirst⟩ := h name
  · refine ⟨_, ?_, h.push hproto [] ?_⟩
    · simp [Result.addColumn, readOrCreate, PlainObject.get_of_undefined hnone hname,
        PlainObject.get_of_own (PlainObject.getOwn?_set_self hproto)]
    · simp [List.idxOf_append_of_notMem hmem]
  · refine ⟨_, ?_, h.push hproto indices ?_⟩
    · simp [Result.addColumn, readOrCreate, PlainObject.get_of_own hindices,
        PlainObject.get_of_own (PlainObject.getOwn?_set_self hproto)]
    · rw [List.idxOf_append_of_mem hmem, ← hfirst]
      cases indices with
      | nil => simp at hfirst
      | cons i is => rfl

/-- Nothing can be pushed to what every object inherits. -/
theorem Indexed.addColumn_throws (h : Indexed names m) {name : String} (hnot : name ∉ names)
    (hname : name ∈ PlainObject.prototypeMembers) :
    Result.addColumn m name names.length = .error Errors.typeError := by
  have hnone : m.getOwn? name = none := by
    obtain ⟨-, hnone⟩ | ⟨_, _, hmem, _⟩ := h name
    · exact hnone
    · exact absurd hmem hnot
  by_cases hproto : name = "__proto__"
  · subst hproto
    simp [Result.addColumn, readOrCreate, PlainObject.get_of_inherited hnone hname]
  · simp [Result.addColumn, readOrCreate, PlainObject.get_of_inherited hnone hname,
      PlainObject.get_of_own (PlainObject.getOwn?_set_self hproto)]

/-- The loop maps all columns unless one has a name that every object inherits. -/
theorem mapColumns_spec (h : Indexed names m)
    (hnames : ∀ name ∈ names, name ∉ PlainObject.prototypeMembers) (rest : List String) :
    (∃ m', mapColumns rest names.length m = .ok m' ∧ Indexed (names ++ rest) m' ∧
      ∀ name ∈ rest, name ∉ PlainObject.prototypeMembers) ∨
    (mapColumns rest names.length m = .error Errors.typeError ∧
      ∃ name ∈ rest, name ∈ PlainObject.prototypeMembers) := by
  induction rest generalizing names m with
  | nil => exact .inl ⟨m, rfl, by simpa using h, by simp⟩
  | cons name rest ih =>
      by_cases hname : name ∈ PlainObject.prototypeMembers
      · refine .inr ⟨?_, name, List.mem_cons_self, hname⟩
        rw [mapColumns, h.addColumn_throws (fun hmem => hnames name hmem hname) hname]
      · obtain ⟨m', hadd, hm'⟩ := h.addColumn hname
        have hnames' : ∀ n ∈ names ++ [name], n ∉ PlainObject.prototypeMembers := by
          intro n hn
          obtain hn | hn := List.mem_append.mp hn
          · exact hnames n hn
          · rwa [List.mem_singleton.mp hn]
        have hrest := ih hm' hnames'
        rw [List.length_append, List.length_singleton, List.append_assoc,
          List.singleton_append] at hrest
        rw [mapColumns, hadd]
        obtain ⟨m'', hmap, hindexed, hall⟩ | ⟨hthrows, n, hn, hproto⟩ := hrest
        · exact .inl ⟨m'', hmap, hindexed, by simpa [hname] using hall⟩
        · exact .inr ⟨hthrows, n, List.mem_cons_of_mem _ hn, hproto⟩

/-- The first column of a name is the one at the first index of the name. -/
theorem find?_eq_getElem? (getName : κ → String) (columns : List κ) (s : String) :
    columns.find? (fun c => getName c = s) = columns[(columns.map getName).idxOf s]? := by
  induction columns with
  | nil => rfl
  | cons c columns ih =>
      by_cases h : getName c = s
      · simp [h]
      · simp [h, ih]

/-- A lookup in the map finds the first column of the name. -/
theorem Indexed.resolve (h : Indexed (columns.map getName) m) (s : String) :
    resolveColumnIdentifierToColumn columns (.name s) m =
      columns.find? (fun c => getName c = s) := by
  rw [find?_eq_getElem?]
  obtain ⟨hmem, hnone⟩ | ⟨indices, hindices, -, hfirst⟩ := h s
  · have hlength : columns.length ≤ (columns.map getName).idxOf s := by
      simp [List.idxOf_eq_length hmem]
    simp [resolveColumnIdentifierToColumn, firstIndex, hnone, List.getElem?_eq_none hlength]
  · simp [resolveColumnIdentifierToColumn, firstIndex, hindices, hfirst]

/-- Every name resolves to the first column of the name, or to none, for a result and its rows. -/
structure Columns.Resolves (getName : κ → String) (r : Columns κ) (getRowValue : κ → ω → ν)
    (getRowValueAsString : κ → ω → Option String) : Prop where
  getColumn : ∀ s, r.getColumn (.name s) = r.columns.find? (fun c => getName c = s)
  getColumnValue : ∀ row s, r.rowValue getRowValue row (.name s) =
    (r.columns.find? (fun c => getName c = s)).map (getRowValue · row)
  getColumnValueAsString : ∀ row s, r.rowValue getRowValueAsString row (.name s) =
    (r.columns.find? (fun c => getName c = s)).map (getRowValueAsString · row)

/-- **Lookup**: a result is constructed of the columns, and every name resolves to the first column
of the name, exactly when no column is named like a member of `Object.prototype`. -/
theorem resolves_iff (getName : κ → String) (columns : List κ) (getRowValue : κ → ω → ν)
    (getRowValueAsString : κ → ω → Option String) :
    (∃ r, createColumns getName columns = .ok r ∧ r.columns = columns ∧
      r.Resolves getName getRowValue getRowValueAsString) ↔
    ∀ c ∈ columns, getName c ∉ PlainObject.prototypeMembers := by
  obtain ⟨m, hmap, hindexed, hall⟩ | ⟨hthrows, name, hname, hproto⟩ :=
    mapColumns_spec indexed_empty (by simp) (columns.map getName)
  · refine iff_of_true ⟨⟨columns, m⟩, ?_, rfl, ?_, ?_, ?_⟩ (by simpa using hall)
    · simp only [List.length_nil] at hmap
      simp [createColumns, hmap, Except.map]
    · exact fun s => hindexed.resolve s
    · exact fun row s => congrArg (Option.map _) (hindexed.resolve s)
    · exact fun row s => congrArg (Option.map _) (hindexed.resolve s)
  · refine iff_of_false ?_ ?_
    · rintro ⟨r, hr, -⟩
      simp only [List.length_nil] at hthrows
      simp [createColumns, hthrows, Except.map] at hr
    · intro hno
      obtain ⟨c, hc, rfl⟩ := List.mem_map.mp hname
      exact hno c hc hproto

/-- A result with a column named `constructor` is not constructed. -/
theorem constructor_throws :
    createColumns id ["ID", "constructor"] = .error Errors.typeError ∧
      ¬ ∃ r, createColumns id ["ID", "constructor"] = .ok r := by
  have hthrows : createColumns id ["ID", "constructor"] = .error Errors.typeError := by rfl
  simp [hthrows]

end Result

end SnowflakeConnector
