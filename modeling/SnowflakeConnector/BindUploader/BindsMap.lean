import SnowflakeConnector.BindUploader

/-!
# SnowflakeConnector.BindUploader.BindsMap

The types of an array binding in `buildBindsMap`, which are those of its first row, and the form
of the function for the values of one row.

* `TypedByColumn` -- entries that are right for whole columns, whatever the order of the rows.
* `typedByColumn_iff` -- when the entries of an array binding are.
-/

namespace SnowflakeConnector

namespace BindUploader

/-! ## one row -/

/-- An entry of the map for a value that is bound by itself. -/
structure SingleBind where
  type : BindType
  value : Option (List Char)

/-- `buildBindsMap` of values the first of which is no array. -/
def buildSingleBindsMap (bindsArray : List BindValue) : List SingleBind :=
  bindsArray.map fun value => { type := typeOf value, value := stringOf value }

/-- The names of the entries, which count from 1. -/
def named {β : Type*} (bindsMap : List β) : List (Nat × β) :=
  bindsMap.mapIdx fun index bind => (index + 1, bind)

/-! ## arrays -/

/-- Rows of one length, at least one of them. -/
structure BindArray where
  rows : List (List BindValue)
  width : Nat
  nonempty : rows ≠ []
  rectangular : ∀ row ∈ rows, row.length = width

/-- The values of a column, in the order of the rows. -/
def BindArray.column (binds : BindArray) (index : Nat) : List BindValue :=
  binds.rows.filterMap (·[index]?)

/-- Whether a value can be sent under a type; every value can be sent as a text. -/
def Accommodates : BindType → BindValue → Prop
  | _, .null => True
  | .text, _ => True
  | .boolean, .bool _ => True
  | .variant, .arr _ => True
  | .variant, .obj _ => True
  | .real, .num (.finite _ _) => True
  | .fixed, .num (.finite literal _) => isInteger literal = true
  | _, _ => False

/-- Values that are numbers, that are booleans, or that are objects and arrays. -/
inductive Kind
  | number
  | boolean
  | object
  deriving DecidableEq

def Kind.Is : Kind → BindValue → Prop
  | .number, .num (.finite _ _) => True
  | .boolean, .bool _ => True
  | .object, .obj _ => True
  | .object, .arr _ => True
  | _, _ => False

/-- A map with the entries `1` to `m`, each with what is sent for every row, of a type that is
right for the column. -/
structure TypedByColumn (binds : BindArray) : Prop where
  names : (named (buildBindsMap binds.rows)).map Prod.fst = List.range' 1 binds.width
  values : ∀ index bind, (buildBindsMap binds.rows)[index]? = some bind →
    bind.value = (buildSingleBindsMap (binds.column index)).map SingleBind.value
  accommodates : ∀ index bind, (buildBindsMap binds.rows)[index]? = some bind →
    ∀ v ∈ binds.column index, Accommodates bind.type v
  notDemoted : ∀ index bind, (buildBindsMap binds.rows)[index]? = some bind → ∀ kind : Kind,
    (∃ v ∈ binds.column index, kind.Is v) →
    (∀ v ∈ binds.column index, v = .null ∨ kind.Is v) → bind.type ≠ .text
  anyOrder : ∀ other : BindArray, other.rows.Perm binds.rows →
    (buildBindsMap other.rows).map Bind.type = (buildBindsMap binds.rows).map Bind.type

/-! ## entries -/

theorem accommodates_typeOf (v : BindValue) : Accommodates (typeOf v) v := by
  unfold typeOf
  split
  · trivial
  · trivial
  · trivial
  · split_ifs with hinteger
    · exact hinteger
    · trivial
  · cases v <;> trivial

theorem typeOf_ne_text {kind : Kind} {v : BindValue} (h : kind.Is v) : typeOf v ≠ .text := by
  unfold typeOf
  split
  · simp
  · simp
  · simp
  · split_ifs <;> simp
  · cases kind <;> cases v <;> simp_all [Kind.Is]

/-- The types are those of the first row. -/
theorem types_buildBindsMap (rows : List (List BindValue)) :
    (buildBindsMap rows).map Bind.type = (rows.headD []).map typeOf := by
  apply List.ext_getElem?
  intro index
  simp [buildBindsMap, Function.comp_def]

variable {binds : BindArray}

theorem length_first (binds : BindArray) : (binds.rows.headD []).length = binds.width := by
  obtain ⟨first, rest, hrows⟩ := List.exists_cons_of_ne_nil binds.nonempty
  have hfirst := binds.rectangular first (by simp [hrows])
  simpa [hrows] using hfirst

theorem length_buildBindsMap (binds : BindArray) :
    (buildBindsMap binds.rows).length = binds.width := by
  rw [buildBindsMap, List.length_mapIdx, length_first]

/-- The rows have the same types, value by value. -/
def SameTypes (binds : BindArray) : Prop :=
  ∀ row ∈ binds.rows, ∀ other ∈ binds.rows, row.map typeOf = other.map typeOf

/-- The value of a row in a column. -/
theorem mem_column {binds : BindArray} {index : Nat} {v : BindValue} :
    v ∈ binds.column index ↔ ∃ row ∈ binds.rows, row[index]? = some v := by
  simp [BindArray.column]

/-- An entry has the type of a value in its column. -/
theorem exists_typeOf {index : Nat} {bind : Bind}
    (h : (buildBindsMap binds.rows)[index]? = some bind) :
    ∃ first ∈ binds.rows, ∃ v, first[index]? = some v ∧ bind.type = typeOf v := by
  obtain ⟨first, rest, hrows⟩ := List.exists_cons_of_ne_nil binds.nonempty
  refine ⟨first, by simp [hrows], ?_⟩
  simp only [buildBindsMap, hrows, List.headD_cons, List.getElem?_mapIdx,
    Option.map_eq_some_iff] at h
  obtain ⟨v, hv, rfl⟩ := h
  exact ⟨v, hv, rfl⟩

/-- In rows of the same types an entry has the type of every value of its column. -/
theorem SameTypes.type_eq (hsame : SameTypes binds) {index : Nat} {bind : Bind}
    (h : (buildBindsMap binds.rows)[index]? = some bind) {v : BindValue}
    (hv : v ∈ binds.column index) : bind.type = typeOf v := by
  obtain ⟨first, hfirst, u, hu, htype⟩ := exists_typeOf h
  obtain ⟨row, hrow, hv⟩ := mem_column.mp hv
  have heq := congrArg (·[index]?) (hsame first hfirst row hrow)
  simp only [List.getElem?_map, hu, hv, Option.map_some, Option.some.injEq] at heq
  rw [htype, heq]

/-- Reading every row in a column is reading the column. -/
theorem map_column {β : Type*} {f : BindValue → Option β} {rows : List (List BindValue)} {index : Nat}
    (h : ∀ row ∈ rows, index < row.length) :
    (rows.map fun row => row[index]?.bind f) = (rows.filterMap (·[index]?)).map f := by
  induction rows with
  | nil => rfl
  | cons row rows ih =>
      have hrow := h row (by simp)
      rw [List.map_cons, List.getElem?_eq_getElem hrow, ih fun r hr => h r (by simp [hr])]
      simp [List.getElem?_eq_getElem hrow]

/-- Every entry has what is sent for the values of its column. -/
theorem value_buildBindsMap {index : Nat} {bind : Bind}
    (h : (buildBindsMap binds.rows)[index]? = some bind) :
    bind.value = (buildSingleBindsMap (binds.column index)).map SingleBind.value := by
  have hlt : index < binds.width := by
    rw [← length_buildBindsMap]
    exact (List.getElem?_eq_some_iff.mp h).1
  have hvalue : bind.value = binds.rows.map fun row => row[index]?.bind stringOf := by
    simp only [buildBindsMap, List.getElem?_mapIdx, Option.map_eq_some_iff] at h
    obtain ⟨_, _, rfl⟩ := h
    rfl
  rw [hvalue, buildSingleBindsMap, List.map_map]
  refine map_column fun row hrow => ?_
  rw [binds.rectangular row hrow]
  exact hlt

/-- The entries of an array binding are right for its columns exactly when its rows have the same
types. -/
theorem typedByColumn_iff (binds : BindArray) : TypedByColumn binds ↔ SameTypes binds := by
  constructor
  · intro h
    -- each row comes first in some order of the rows
    have hfirst : ∀ row ∈ binds.rows,
        row.map typeOf = (buildBindsMap binds.rows).map Bind.type := by
      intro row hrow
      obtain ⟨before, after, hrows⟩ := List.append_of_mem hrow
      let other : BindArray :=
        { rows := row :: (before ++ after)
          width := binds.width
          nonempty := by simp
          rectangular := fun r hr => binds.rectangular r (by rw [hrows]; grind) }
      have hperm : other.rows.Perm binds.rows := by
        rw [hrows]
        exact List.perm_middle.symm
      have htypes := h.anyOrder other hperm
      rw [types_buildBindsMap other.rows] at htypes
      exact htypes
    intro row hrow other hother
    rw [hfirst row hrow, hfirst other hother]
  · intro hsame
    exact
      { names := by
          have hlength := length_buildBindsMap binds
          apply List.ext_getElem
          · simp [named, hlength]
          · intro i hi hi'
            simp [named, Nat.add_comm]
        values := fun index bind h => value_buildBindsMap h
        accommodates := fun index bind h v hv => by
          rw [hsame.type_eq h hv]
          exact accommodates_typeOf v
        notDemoted := fun index bind h kind ⟨v, hv, hkind⟩ _ => by
          rw [hsame.type_eq h hv]
          exact typeOf_ne_text hkind
        anyOrder := fun other hperm => by
          rw [types_buildBindsMap, types_buildBindsMap]
          obtain ⟨row, rows, hrows⟩ := List.exists_cons_of_ne_nil other.nonempty
          obtain ⟨first, rest, hfirst⟩ := List.exists_cons_of_ne_nil binds.nonempty
          rw [hrows, hfirst, List.headD_cons, List.headD_cons]
          exact hsame row (hperm.subset (by simp [hrows])) first (by simp [hfirst]) }

/-- The column `1`, `1.5` is sent as integers. -/
theorem not_typedByColumn : ¬ ∀ binds : BindArray, TypedByColumn binds := by
  intro h
  let binds : BindArray :=
    { rows := [[.num (.finite "1" (by decide))], [.num (.finite "1.5" (by decide))]]
      width := 1
      nonempty := by simp
      rectangular := by simp }
  have hmem : .num (.finite "1.5" (by decide)) ∈ binds.column 0 :=
    mem_column.mpr ⟨[.num (.finite "1.5" (by decide))], by simp [binds], rfl⟩
  have haccommodates : isInteger "1.5" = true := (h binds).accommodates 0 _ rfl _ hmem
  exact absurd haccommodates (by decide)

end BindUploader

end SnowflakeConnector
