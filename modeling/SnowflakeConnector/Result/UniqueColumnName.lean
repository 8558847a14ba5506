import SnowflakeConnector.Result.Columns
import SnowflakeConnector.While
import Mathlib

/-!
# SnowflakeConnector.Result.UniqueColumnName

Duplicated columns of a result get names of their own, in
`lib/connection/result/unique_column_name_creator.js`.

The second column of a name gets the name with a suffix, the third one with another; a suffix
is free when the name with it is neither an original name nor one that was made before.

* `endsWith_suffix` -- the search for a free suffix ends;
* `renames` -- the names are unique, and the values of a row are kept under them.
-/

namespace SnowflakeConnector

open While

namespace Result

/-- The metadata of a column, as far as it has to do with its name. -/
structure ColumnMetadata where
  name : String
  overriddenName : Option String
  deriving DecidableEq, Repr

/-- `columnMetadata.overriddenName || columnMetadata.name`. -/
def ColumnMetadata.getName (m : ColumnMetadata) : String :=
  match m.overriddenName with
  | some overriddenName => if overriddenName ≠ "" then overriddenName else m.name
  | none => m.name

/-! ## renaming -/

def resultContainsDuplicatedColumns (columnNames : List String) : Bool :=
  columnNames.length ≠ columnNames.dedup.length

/-- `columnName + '_' + times`. -/
def suffixed (columnName : String) (times : Nat) : String :=
  columnName ++ "_" ++ toString times

/-- A turn of the search for a name that is not among the names so far. -/
def suffixTurn (columnNames : List String) (columnName : String) (times : Nat) : Turn Nat Nat :=
  if suffixed columnName times ∈ columnNames then .next (times + 1) else .done times

/-- The loop over the columns, with the names so far and the number that each had last; the search
for a suffix takes as many turns as it is given. -/
def renameFrom (fuel : Nat) :
    List String → (String → Option Nat) → List String → Option (List ColumnMetadata)
  | _, _, [] => some []
  | columnNames, quantity, name :: rest =>
      if name = "" then (renameFrom fuel columnNames quantity rest).map (⟨name, none⟩ :: ·)
      else
        match quantity name with
        | some n =>
            (loop (suffixTurn columnNames name) fuel (n + 1)).bind fun times =>
              (renameFrom fuel (columnNames ++ [suffixed name times])
                (Function.update quantity name (some times)) rest).map
                (⟨name, some (suffixed name times)⟩ :: ·)
        | none =>
            (renameFrom fuel columnNames (Function.update quantity name (some 1)) rest).map
              (⟨name, none⟩ :: ·)

/-- `addOverriddenNamesForDuplicatedColumns` of a rowtype with these names. -/
def addOverriddenNamesForDuplicatedColumns (fuel : Nat) (names : List String) :
    Option (List ColumnMetadata) :=
  if resultContainsDuplicatedColumns names then renameFrom fuel names (fun _ => none) names
  else some (names.map (⟨·, none⟩))

/-- The row modes. -/
inductive RowMode
  | array
  | object
  | objectWithRenamedDuplicatedColumns
  deriving DecidableEq, Repr

/-- The rowtype of which the constructor makes the columns. -/
def prepareRowtype (fuel : Nat) (rowMode : RowMode) (names : List String) :
    Option (List ColumnMetadata) :=
  if rowMode = .objectWithRenamedDuplicatedColumns then
    addOverriddenNamesForDuplicatedColumns fuel names
  else some (names.map (⟨·, none⟩))

/-! ## externalizing -/

/-- A row as it is given out: an array, or an object with a property for each column. -/
inductive ExternalizedRow (ν : Type*)
  | array (values : List ν)
  | object (o : PlainObject ν)

/-- `externalizeRow`; `value` is what the row gives of the column of an id, which is its index. -/
def externalizeRow {κ ν : Type*} (getName : κ → String) (rowMode : RowMode) (columns : List κ)
    (value : Nat → ν) : ExternalizedRow ν :=
  if rowMode = .array then .array (columns.mapIdx fun index _ => value index)
  else .object (PlainObject.empty.assign (columns.mapIdx fun index c => (getName c, value index)))

/-! ## the search for a suffix -/

theorem length_suffixed (columnName : String) (times : Nat) :
    (suffixed columnName times).length =
      columnName.length + 1 + (Nat.toDigits 10 times).length := by
  have hsuffix : "_".length = 1 := rfl
  rw [suffixed, String.length_append, String.length_append, hsuffix,
    Nat.toString_eq_ofList_toDigits, String.length_ofList]

theorem suffixed_ne_empty (columnName : String) (times : Nat) : suffixed columnName times ≠ "" := by
  intro h
  have hlength := length_suffixed columnName times
  rw [h, String.length_empty] at hlength
  omega

theorem exists_length_le (columnNames : List String) :
    ∃ bound, ∀ name ∈ columnNames, name.length ≤ bound := by
  induction columnNames with
  | nil => exact ⟨0, by simp⟩
  | cons name columnNames ih =>
      obtain ⟨bound, hbound⟩ := ih
      refine ⟨max name.length bound, fun other hother => ?_⟩
      obtain rfl | hmem := List.mem_cons.mp hother
      · exact Nat.le_max_left _ _
      · exact Nat.le_trans (hbound other hmem) (Nat.le_max_right _ _)

/-- No name with a suffix is longer than the longest of the names so far, so the suffix is bounded
and the search ends. -/
theorem endsWith_suffix (columnNames : List String) (columnName : String) (times : Nat) :
    ∃ free, EndsWith (suffixTurn columnNames columnName) times free ∧
      suffixed columnName free ∉ columnNames := by
  obtain ⟨bound, hbound⟩ := exists_length_le columnNames
  have hlt : ∀ times, suffixed columnName times ∈ columnNames → times < 10 ^ bound := by
    intro times hmem
    have hlength := hbound _ hmem
    rw [length_suffixed] at hlength
    exact (Nat.length_toDigits_le_iff (by decide) (by omega)).mp
      (show (Nat.toDigits 10 times).length ≤ bound by omega)
  induction hm : 10 ^ bound - times using Nat.strong_induction_on generalizing times with
  | _ measure ih =>
      by_cases hmem : suffixed columnName times ∈ columnNames
      · have htimes := hlt times hmem
        obtain ⟨free, hends, hfree⟩ := ih _ (by omega) (times + 1) rfl
        exact ⟨free, (endsWith_iff_of_next (by simp [suffixTurn, hmem])).mpr hends, hfree⟩
      · exact ⟨times, (endsWith_iff_of_done (by simp [suffixTurn, hmem])).mpr rfl, hmem⟩

/-! ## the names that are made -/

/-- The columns of the rest of a rowtype after the loop: columns without a name of their own keep
the original one, which was not seen before, and the others have a name that is not among the names
so far; no name is used twice. -/
structure Renamed (columnNames seen rest : List String) (out : List ColumnMetadata) : Prop where
  names : out.map ColumnMetadata.name = rest
  overridden : ∀ m ∈ out, ∀ n ∈ m.overriddenName, n ≠ "" ∧ n ∉ columnNames
  kept : ∀ m ∈ out, m.overriddenName = none → m.name ∉ seen
  first : ∀ i m, out[i]? = some m → m.name ∉ seen → m.name ∉ rest.take i → m.overriddenName = none
  nodup : (out.map ColumnMetadata.getName).Nodup

theorem getName_of_none (name : String) : (⟨name, none⟩ : ColumnMetadata).getName = name := rfl

theorem getName_of_some {name n : String} (h : n ≠ "") :
    (⟨name, some n⟩ : ColumnMetadata).getName = n := by
  simp [ColumnMetadata.getName, h]

/-- The names that the columns have are new or were not seen. -/
theorem Renamed.getName_mem {columnNames seen rest : List String} {out : List ColumnMetadata}
    (h : Renamed columnNames seen rest out) {name : String}
    (hname : name ∈ out.map ColumnMetadata.getName) :
    name ∉ columnNames ∨ name ∈ rest ∧ name ∉ seen := by
  obtain ⟨m, hm, rfl⟩ := List.mem_map.mp hname
  obtain ⟨original, overriddenName⟩ := m
  cases overriddenName with
  | none =>
      refine .inr ⟨?_, h.kept _ hm rfl⟩
      rw [← h.names]
      exact List.mem_map_of_mem hm
  | some n =>
      obtain ⟨hne, hnot⟩ := h.overridden _ hm n rfl
      rw [getName_of_some hne]
      exact .inl hnot

/-- A column whose name was not seen keeps it. -/
theorem Renamed.keep {columnNames seen rest : List String} {out : List ColumnMetadata} {name : String}
    (h : Renamed columnNames (name :: seen) rest out) (hmem : name ∈ columnNames)
    (hnot : name ∉ seen) : Renamed columnNames seen (name :: rest) (⟨name, none⟩ :: out) := by
  refine ⟨by simp [h.names], ?_, ?_, ?_, ?_⟩
  · simpa using h.overridden
  · intro m hm hnone
    obtain rfl | hm := List.mem_cons.mp hm
    · exact hnot
    · exact fun hseen => h.kept m hm hnone (List.mem_cons_of_mem _ hseen)
  · intro i m hm hseen htake
    cases i with
    | zero =>
        obtain rfl := Option.some.inj hm
        rfl
    | succ i =>
        simp only [List.take_succ_cons, List.mem_cons, not_or] at htake
        exact h.first i m hm (by simp [htake.1, hseen]) htake.2
  · rw [List.map_cons, List.nodup_cons, getName_of_none]
    refine ⟨fun hdup => ?_, h.nodup⟩
    obtain hno | ⟨-, hno⟩ := h.getName_mem hdup
    · exact hno hmem
    · exact hno List.mem_cons_self

/-- A column whose name was seen gets a new one. -/
theorem Renamed.override {columnNames seen rest : List String} {out : List ColumnMetadata}
    {name new : String} (h : Renamed (columnNames ++ [new]) seen rest out) (hseen : name ∈ seen)
    (hne : new ≠ "") (hnew : new ∉ columnNames) (hrest : ∀ n ∈ rest, n ∈ columnNames) :
    Renamed columnNames seen (name :: rest) (⟨name, some new⟩ :: out) := by
  refine ⟨by simp [h.names], ?_, ?_, ?_, ?_⟩
  · intro m hm n hn
    obtain rfl | hm := List.mem_cons.mp hm
    · obtain rfl := Option.some.inj hn
      exact ⟨hne, hnew⟩
    · obtain ⟨hne', hnot⟩ := h.overridden m hm n hn
      exact ⟨hne', fun hmem => hnot (List.mem_append_left _ hmem)⟩
  · intro m hm hnone
    obtain rfl | hm := List.mem_cons.mp hm
    · contradiction
    · exact h.kept m hm hnone
  · intro i m hm hnot htake
    cases i with
    | zero =>
        obtain rfl := Option.some.inj hm
        exact absurd hseen hnot
    | succ i =>
        simp only [List.take_succ_cons, List.mem_cons, not_or] at htake
        exact h.first i m hm hnot htake.2
  · rw [List.map_cons, List.nodup_cons, getName_of_some hne]
    refine ⟨fun hdup => ?_, h.nodup⟩
    obtain hno | ⟨hmem, -⟩ := h.getName_mem hdup
    · exact hno (by simp)
    · exact hnew (hrest new hmem)

/-- The loop ends, and renames the rest of the columns. -/
theorem renameFrom_spec {columnNames seen rest : List String} {quantity : String → Option Nat}
    (hne : ∀ name ∈ rest, name ≠ "") (hrest : ∀ name ∈ rest, name ∈ columnNames)
    (hseen : ∀ name, (quantity name).isSome = true ↔ name ∈ seen) :
    ∃ out, (∃ enough, ∀ fuel, enough ≤ fuel →
        renameFrom fuel columnNames quantity rest = some out) ∧
      Renamed columnNames seen rest out := by
  induction rest generalizing columnNames seen quantity with
  | nil =>
      exact ⟨[], ⟨0, fun _ _ => rfl⟩, rfl, by simp, by simp, by simp, List.nodup_nil⟩
  | cons name rest ih =>
      have hname := hne name List.mem_cons_self
      have hmem := hrest name List.mem_cons_self
      have hne' : ∀ n ∈ rest, n ≠ "" := fun n hn => hne n (List.mem_cons_of_mem _ hn)
      have hrest' : ∀ n ∈ rest, n ∈ columnNames := fun n hn => hrest n (List.mem_cons_of_mem _ hn)
      cases hquantity : quantity name with
      | none =>
          have hseen' : ∀ n, (Function.update quantity name (some 1) n).isSome = true ↔
              n ∈ name :: seen := by
            intro n
            by_cases hn : n = name
            · simp [hn]
            · simp [hseen, hn]
          obtain ⟨out, ⟨enough, hout⟩, hrenamed⟩ := ih hne' hrest' hseen'
          refine ⟨_, ⟨enough, fun fuel hfuel => ?_⟩, hrenamed.keep hmem ?_⟩
          · simp [renameFrom, hname, hquantity, hout fuel hfuel]
          · rw [← hseen]
            simp [hquantity]
      | some n =>
          obtain ⟨free, ⟨turns, hturns⟩, hfree⟩ := endsWith_suffix columnNames name (n + 1)
          have hname_seen : name ∈ seen := by
            rw [← hseen]
            simp [hquantity]
          have hseen' : ∀ n, (Function.update quantity name (some free) n).isSome = true ↔
              n ∈ seen := by
            intro n
            by_cases hn : n = name
            · simp [hn, hname_seen]
            · simp [Function.update_of_ne hn, hseen]
          obtain ⟨out, ⟨enough, hout⟩, hrenamed⟩ := ih hne'
            (fun n hn => List.mem_append_left [suffixed name free] (hrest' n hn)) hseen'
          refine ⟨_, ⟨max enough turns, fun fuel hfuel => ?_⟩,
            hrenamed.override hname_seen (suffixed_ne_empty name free) hfree hrest'⟩
          have hloop := loop_mono (show turns ≤ fuel by omega) hturns
          simp [renameFrom, hname, hquantity, hloop, hout fuel (by omega)]

theorem renamed_of_nodup {names : List String} (h : names.Nodup) :
    Renamed names [] names (names.map (⟨·, none⟩)) := by
  have hnone : ∀ m ∈ names.map (⟨·, none⟩ : String → ColumnMetadata), m.overriddenName = none := by
    intro m hm
    obtain ⟨name, -, rfl⟩ := List.mem_map.mp hm
    rfl
  refine ⟨by simp [Function.comp_def], fun m hm n hn => ?_, by simp,
    fun i m hm _ _ => hnone m (List.mem_of_getElem? hm), ?_⟩
  · rw [hnone m hm] at hn
    contradiction
  · simpa [Function.comp_def, getName_of_none] using h

/-! ## the rows -/

theorem map_fst_mapIdx {κ ν : Type*} (getName : κ → String) (columns : List κ) (value : Nat → ν) :
    (columns.mapIdx fun index c => (getName c, value index)).map Prod.fst = columns.map getName := by
  refine List.ext_getElem? fun i => ?_
  cases h : columns[i]? <;> simp [h]

/-- When the names are unique and none is a setter, an object has a property for each column. -/
theorem externalizeRow_object {κ ν : Type*} {getName : κ → String} {columns : List κ}
    (hnodup : (columns.map getName).Nodup)
    (hproto : ∀ c ∈ columns, getName c ∉ PlainObject.prototypeMembers) (value : Nat → ν) :
    externalizeRow getName .objectWithRenamedDuplicatedColumns columns value =
      .object ⟨columns.mapIdx fun index c => (getName c, value index)⟩ := by
  have hassign : (PlainObject.empty.assign
      (columns.mapIdx fun index c => (getName c, value index))).own =
        columns.mapIdx fun index c => (getName c, value index) := by
    refine PlainObject.own_assign_of_nodup ?_ ?_
    · rw [map_fst_mapIdx]
      intro hmem
      obtain ⟨c, hc, hname⟩ := List.mem_map.mp hmem
      exact PlainObject.ne_proto_of_notMem (hproto c hc) hname
    · simpa [PlainObject.empty, map_fst_mapIdx] using hnodup
  rw [externalizeRow, if_neg (by decide)]
  exact congrArg ExternalizedRow.object (congrArg PlainObject.mk hassign)

/-- The rowtype that the columns of a result are made of: with names that are unique, where the first
column of a name has it, where no new name is an original one, and under which an object keeps the
value of every column. -/
structure KeepsColumns (ν : Type*) (names : List String) (rowtype : List ColumnMetadata) : Prop where
  original : rowtype.map ColumnMetadata.name = names
  unique : (rowtype.map ColumnMetadata.getName).Nodup
  first : ∀ i m, rowtype[i]? = some m → m.name ∉ names.take i → m.getName = m.name
  generated : ∀ m ∈ rowtype, ∀ n ∈ m.overriddenName, n ∉ names
  externalized : ∀ r, createColumns ColumnMetadata.getName rowtype = .ok r → ∀ value : Nat → ν,
    ∃ o, externalizeRow ColumnMetadata.getName .objectWithRenamedDuplicatedColumns r.columns value =
        .object o ∧
      o.own.length = rowtype.length ∧
      ∀ i m, rowtype[i]? = some m → o.getOwn? m.getName = some (value i)

/-- Unique names keep the values of a row in an object. -/
theorem Renamed.keepsColumns {ν : Type*} {names : List String} {rowtype : List ColumnMetadata}
    (h : Renamed names [] names rowtype) : KeepsColumns ν names rowtype := by
  refine ⟨h.names, h.nodup, fun i m hm htake => ?_, fun m hm n hn => (h.overridden m hm n hn).2,
    fun r hr value => ?_⟩
  · have hnone := h.first i m hm List.not_mem_nil htake
    simp [ColumnMetadata.getName, hnone]
  · have hcolumns : r.columns = rowtype := by
      unfold createColumns at hr
      cases hmap : mapColumns (rowtype.map ColumnMetadata.getName) 0 .empty with
      | error err => simp [hmap, Except.map] at hr
      | ok m =>
          simp only [hmap, Except.map, Except.ok.injEq] at hr
          rw [← hr]
    have hproto : ∀ c ∈ rowtype, c.getName ∉ PlainObject.prototypeMembers := by
      obtain ⟨m, -, -, hall⟩ | ⟨hthrows, -⟩ :=
        mapColumns_spec indexed_empty (by simp) (rowtype.map ColumnMetadata.getName)
      · simpa using hall
      · simp only [List.length_nil] at hthrows
        simp [createColumns, hthrows, Except.map] at hr
    refine ⟨_, by rw [hcolumns]; exact externalizeRow_object h.nodup hproto value, by simp, ?_⟩
    intro i m hm
    refine PlainObject.getOwn?_of_mem ?_ ?_
    · rw [map_fst_mapIdx]
      exact h.nodup
    · refine List.mem_of_getElem? (i := i) ?_
      simp [hm]

/-- **Renaming**: for any rowtype whose names are not empty the search for suffixes ends, the names
become unique without taking one from a column that has it, and no value of a row is lost. -/
theorem renames (ν : Type*) {names : List String} (hne : ∀ name ∈ names, name ≠ "") :
    ∃ rowtype, (∃ enough, ∀ fuel, enough ≤ fuel →
        prepareRowtype fuel .objectWithRenamedDuplicatedColumns names = some rowtype) ∧
      KeepsColumns ν names rowtype := by
  by_cases hdup : resultContainsDuplicatedColumns names = true
  · obtain ⟨out, ⟨enough, hout⟩, hrenamed⟩ :=
      @renameFrom_spec names [] names (fun _ => none) hne (fun _ h => h) (by simp)
    refine ⟨out, ⟨enough, fun fuel hfuel => ?_⟩, hrenamed.keepsColumns⟩
    rw [prepareRowtype, if_pos rfl, addOverriddenNamesForDuplicatedColumns, if_pos hdup]
    exact hout fuel hfuel
  · have hnodup : names.Nodup := by
      have hlength : names.length = names.dedup.length := by
        simpa [resultContainsDuplicatedColumns] using hdup
      rw [← List.dedup_eq_self]
      exact (List.dedup_sublist names).eq_of_length hlength.symm
    refine ⟨_, ⟨0, fun fuel _ => ?_⟩, (renamed_of_nodup hnodup).keepsColumns⟩
    rw [prepareRowtype, if_pos rfl, addOverriddenNamesForDuplicatedColumns, if_neg hdup]

/-- A generated name avoids the original name that comes later. -/
theorem renames_later_original :
    prepareRowtype 3 .objectWithRenamedDuplicatedColumns ["A", "A", "A_2"] =
        some [⟨"A", none⟩, ⟨"A", some "A_3"⟩, ⟨"A_2", none⟩] ∧
      ∃ rowtype, (∃ enough, ∀ fuel, enough ≤ fuel →
          prepareRowtype fuel .objectWithRenamedDuplicatedColumns ["A", "A", "A_2"] =
            some rowtype) ∧
        KeepsColumns Nat ["A", "A", "A_2"] rowtype :=
  ⟨by decide +kernel, renames Nat (by decide)⟩

end Result

end SnowflakeConnector
