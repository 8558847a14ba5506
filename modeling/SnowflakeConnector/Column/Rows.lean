import SnowflakeConnector.Column
import SnowflakeConnector.Loops

/-!
# SnowflakeConnector.Column.Rows

The rows of a structured column, read one after the other through the one context of
the column.

* `rows_converted_alone_iff` -- every row is converted as it would be on a column of its
  own, unless two values of an OBJECT column are converted.
-/

namespace SnowflakeConnector

namespace Column

open Loops

/-- The columns with structured metadata. -/
inductive StructuredType
  | object
  | array
  | map
  deriving DecidableEq, Repr

/-- Why reading a row throws; a text that `JSON.parse` rejects has no cause of its own. -/
inductive RowError
  | cannotBeParsed (cause : Option ConvertError)
  | nullOrEmpty
  deriving DecidableEq, Repr

section

variable {ν : Type*} [DecidableEq ν] (env : Runtime ν) (params : StatementParameters)

/-- `convertJsonFn` of a column, with the metadata that its context has afterwards. -/
def convertJson (type : StructuredType) (json : Json ν) (context : FieldsMetadata FieldMetadata) :
    Except ConvertError (Value ν) × FieldsMetadata FieldMetadata :=
  match type with
  | .object => convertJsonObject FieldMetadata.name (mapStructuredTypeValue env params) json context
  | .array =>
      (convertJsonArray FieldMetadata.name (mapStructuredTypeValue env params) json context, context)
  | .map => (convertJsonMap (mapStructuredTypeValue env params) json context, context)

def convertRawStructuredType (type : StructuredType) (rawColumnValue : String)
    (context : FieldsMetadata FieldMetadata) :
    Except RowError (Value ν) × FieldsMetadata FieldMetadata :=
  if rawColumnValue = "" then (.error .nullOrEmpty, context)
  else
    match env.parse rawColumnValue with
    | none => (.error (.cannotBeParsed none), context)
    | some json =>
        let converted := convertJson env params type json context
        (converted.1.mapError fun cause => .cannotBeParsed (some cause), converted.2)

/-- `getRowValue` of a row that has not been read before; a null is not converted. -/
def getRowValue (type : StructuredType) (row : Option String)
    (context : FieldsMetadata FieldMetadata) :
    Except RowError (Value ν) × FieldsMetadata FieldMetadata :=
  match row with
  | none => (.ok (.json .null), context)
  | some rawColumnValue => convertRawStructuredType env params type rawColumnValue context

/-- The rows one after the other. -/
def getRowValues (type : StructuredType) : List (Option String) → FieldsMetadata FieldMetadata →
    List (Except RowError (Value ν)) × FieldsMetadata FieldMetadata
  | [], context => ([], context)
  | row :: rows, context =>
      let first := getRowValue env params type row context
      let rest := getRowValues type rows first.2
      (first.1 :: rest.1, rest.2)

/-- The value of the row is converted: it is there, not empty, and parses. -/
def Converts (row : Option String) : Bool :=
  row.any fun rawColumnValue => rawColumnValue ≠ "" && (env.parse rawColumnValue).isSome

/-! ## a context is made once -/

omit [DecidableEq ν] in
theorem mapLeafValue_ne_reduce (type : SqlType) (scale : Nat) (json : Json ν) :
    mapLeafValue env params type scale json ≠ .error .reduceNotFunction := by
  cases type with
  | boolean =>
      unfold mapLeafValue convertRawBoolean
      cases json with
      | bool b => cases b <;> simp [Except.map]
      | string s =>
          simp only
          split
          · simp [Except.map]
          · split <;> simp [Except.map]
      | _ => simp [Except.map]
  | binary =>
      unfold mapLeafValue convertRawBinary
      cases leafFormat params .binary with
      | none => simp [Except.map]
      | some format =>
          simp only
          split
          · cases bufferFrom env json <;> simp [Except.map]
          · simp [Except.map]
  | timestampLtz =>
      unfold mapLeafValue convertTimestampString
      cases leafFormat params .timestampLtz <;> simp [Except.map]
  | timestampNtz =>
      unfold mapLeafValue convertTimestampString
      cases leafFormat params .timestampNtz <;> simp [Except.map]
  | timestampTz =>
      unfold mapLeafValue convertTimestampString
      cases leafFormat params .timestampTz <;> simp [Except.map]
  | date =>
      unfold mapLeafValue convertDateString
      cases leafFormat params .date <;> simp [Except.map]
  | time =>
      unfold mapLeafValue convertTimeString
      cases leafFormat params .time <;> simp [Except.map]
  | _ => simp [mapLeafValue]

end

section

variable {ν : Type*} [DecidableEq ν] (env : Runtime ν) (params : StatementParameters)

omit [DecidableEq ν] in
theorem fieldNamed_mem {φ : Type*} {name : φ → String} {fields : List φ} {key : String} {field : φ}
    (h : fieldNamed name fields key = some field) : field ∈ fields :=
  List.mem_reverse.mp (List.mem_of_find?_eq_some h)

omit [DecidableEq ν] in
theorem mapField_ne_reduce {φ : Type*} {map : φ → Json ν → Except ConvertError (Value ν)}
    {fields : List φ} (h : ∀ field ∈ fields, ∀ json, map field json ≠ .error .reduceNotFunction)
    {field : Option φ} (hfield : ∀ x ∈ field, x ∈ fields) (json : Json ν) :
    mapField map field json ≠ .error .reduceNotFunction := by
  cases field with
  | none => simp [mapField]
  | some field => exact h field (hfield field rfl) json

/-- A context whose metadata is an array is not the one that fails. -/
theorem convertJson_ne_reduce {fields : List FieldMetadata}
    (h : ∀ field ∈ fields, ∀ json : Json ν,
      mapStructuredTypeValue env params field json ≠ .error .reduceNotFunction)
    (type : StructuredType) (json : Json ν) :
    (convertJson env params type json (.array fields)).1 ≠ .error .reduceNotFunction := by
  cases type with
  | object =>
      unfold convertJson convertJsonObject
      simp only
      cases json.ownMembers with
      | none => simp
      | some members =>
          refine map_ne_error _ (foldlM_ne_error (fun result member _ => ?_) [])
          refine bind_ne_error (mapField_ne_reduce h (fun x hx => fieldNamed_mem hx) _) fun value => ?_
          simp [pure, Except.pure]
  | array =>
      unfold convertJson convertJsonArray
      cases json with
      | array items =>
          refine map_ne_error _ (mapM_ne_error fun item _ => ?_)
          exact mapField_ne_reduce h (fun x hx => List.mem_of_getElem? hx) item
      | _ => simp
  | map =>
      unfold convertJson convertJsonMap
      match fields with
      | [keyMetadata, valueMetadata] =>
          simp only
          cases json.ownMembers with
          | none => simp
          | some members =>
              refine map_ne_error _ (foldlM_ne_error (fun result member _ => ?_) [])
              refine bind_ne_error (h keyMetadata (by simp) _) fun convertedKey => ?_
              refine bind_ne_error (h valueMetadata (by simp) _) fun convertedValue => ?_
              simp [pure, Except.pure]
      | [] => simp
      | [_] => simp
      | _ :: _ :: _ :: _ => simp

theorem mapStructuredTypeValue_ne_reduce (field : FieldMetadata) (json : Json ν) :
    mapStructuredTypeValue env params field json ≠ .error .reduceNotFunction := by
  revert json
  refine FieldMetadata.induction
    (P := fun field => ∀ json, mapStructuredTypeValue env params field json ≠ .error .reduceNotFunction)
    (fun name type scale structured fields ih json => ?_) field
  rw [mapStructuredTypeValue_eq]
  have hmissing : ∀ type, (convertJson env params type json .missing).1 ≠ .error .reduceNotFunction := by
    intro type
    cases type <;> simp [convertJson, convertJsonObject, convertJsonArray, convertJsonMap]
  have hnode : ∀ type, (convertJson env params type json (nodeMetadata structured fields)).1 ≠
      .error .reduceNotFunction := by
    intro type
    cases structured with
    | false => exact hmissing type
    | true => exact convertJson_ne_reduce env params ih type json
  cases type with
  | object => exact hnode .object
  | array => exact hnode .array
  | map => exact hnode .map
  | _ => exact mapLeafValue_ne_reduce env params _ scale json

/-! ## the rows -/

variable (type : StructuredType) (fields : List FieldMetadata)

/-- On a fresh column the message about `reduce` never appears. -/
theorem getRowValue_ne_reduce (row : Option String) :
    (getRowValue env params type row (.array fields)).1 ≠
      .error (.cannotBeParsed (some .reduceNotFunction)) := by
  cases row with
  | none => simp [getRowValue]
  | some rawColumnValue =>
      unfold getRowValue convertRawStructuredType
      simp only
      split
      · simp
      · cases env.parse rawColumnValue with
        | none => simp
        | some json =>
            have hfields : ∀ field ∈ fields, ∀ json : Json ν,
                mapStructuredTypeValue env params field json ≠ .error .reduceNotFunction :=
              fun field _ => mapStructuredTypeValue_ne_reduce env params field
            have hne := convertJson_ne_reduce env params hfields type json
            simp only
            cases hresult : (convertJson env params type json (.array fields)).1 with
            | ok value => simp [Except.mapError]
            | error cause =>
                rw [hresult] at hne
                simpa [Except.mapError] using hne

/-- A row that is not converted does not touch the context. -/
theorem getRowValue_of_not_converts {row : Option String} (h : Converts env row = false)
    (context context' : FieldsMetadata FieldMetadata) :
    getRowValue env params type row context =
      ((getRowValue env params type row context').1, context) := by
  cases row with
  | none => rfl
  | some rawColumnValue =>
      unfold getRowValue convertRawStructuredType
      simp only [Converts, Option.any_some, Bool.and_eq_false_iff, decide_eq_false_iff_not,
        ne_eq, not_not] at h
      by_cases hempty : rawColumnValue = ""
      · simp only [if_pos hempty]
      · have hparse : env.parse rawColumnValue = none := by
          obtain h | h := h
          · exact absurd h hempty
          · simpa using h
        simp only [if_neg hempty, hparse]

/-- A row that is converted does not touch the context of an array or a map; that of an
object is replaced, and with it the next conversion fails. -/
theorem getRowValue_of_converts {row : Option String} (h : Converts env row = true) :
    (getRowValue env params type row (.array fields)).2 =
      (if type = .object then .object fields else .array fields) ∧
    (type = .object → getRowValue env params type row (.object fields) =
      (.error (.cannotBeParsed (some .reduceNotFunction)), .object fields)) := by
  cases row with
  | none => simp [Converts] at h
  | some rawColumnValue =>
      simp only [Converts, Option.any_some, Bool.and_eq_true, decide_eq_true_eq] at h
      obtain ⟨hempty, hparse⟩ := h
      obtain ⟨json, hjson⟩ := Option.isSome_iff_exists.mp hparse
      unfold getRowValue convertRawStructuredType
      simp only [if_neg hempty, hjson]
      cases type with
      | object =>
          refine ⟨?_, fun _ => rfl⟩
          unfold convertJson convertJsonObject
          simp only
          cases json.ownMembers <;> rfl
      | array => exact ⟨rfl, fun h => absurd h (by simp)⟩
      | map => exact ⟨rfl, fun h => absurd h (by simp)⟩

/-- On a column whose metadata stays an array every row is converted alone. -/
theorem getRowValues_of_stays {rows : List (Option String)}
    (h : ∀ row ∈ rows, (getRowValue env params type row (.array fields)).2 = .array fields) :
    getRowValues env params type rows (.array fields) =
      (rows.map fun row => (getRowValue env params type row (.array fields)).1, .array fields) := by
  induction rows with
  | nil => rfl
  | cons row rows ih =>
      rw [getRowValues]
      rw [h row (by simp), ih fun row hrow => h row (List.mem_cons_of_mem _ hrow)]
      rfl

/-- The rows of an OBJECT column after one of its values has been converted. -/
theorem getRowValues_object (rows : List (Option String)) :
    (getRowValues env params .object rows (.object fields)).2 = .object fields ∧
    ((getRowValues env params .object rows (.object fields)).1 =
        rows.map (fun row => (getRowValue env params .object row (.array fields)).1) ↔
      rows.filter (Converts env) = []) := by
  induction rows with
  | nil => exact ⟨rfl, by simp [getRowValues]⟩
  | cons row rows ih =>
      rw [getRowValues]
      cases hconverts : Converts env row with
      | false =>
          rw [getRowValue_of_not_converts env params .object hconverts (.object fields) (.array fields),
            List.filter_cons_of_neg (by simp [hconverts])]
          refine ⟨ih.1, ?_⟩
          rw [← ih.2]
          simp
      | true =>
          have hfails := (getRowValue_of_converts env params .object fields hconverts).2 rfl
          rw [hfails, List.filter_cons_of_pos hconverts]
          refine ⟨ih.1, ?_⟩
          constructor
          · intro heq
            have hhead := (List.cons.inj heq).1
            exact absurd hhead.symm (getRowValue_ne_reduce env params .object fields row)
          · intro hnil
            exact absurd hnil (by simp)

/-- The rows of an OBJECT column. -/
theorem getRowValues_array (rows : List (Option String)) :
    ((getRowValues env params .object rows (.array fields)).1 =
        rows.map (fun row => (getRowValue env params .object row (.array fields)).1) ↔
      (rows.filter (Converts env)).length ≤ 1) ∧
    ((getRowValues env params .object rows (.array fields)).2 = .array fields ↔
      rows.filter (Converts env) = []) := by
  induction rows with
  | nil => exact ⟨by simp [getRowValues], by simp [getRowValues]⟩
  | cons row rows ih =>
      rw [getRowValues]
      cases hconverts : Converts env row with
      | false =>
          rw [getRowValue_of_not_converts env params .object hconverts (.array fields) (.array fields),
            List.filter_cons_of_neg (by simp [hconverts]), ← ih.1, ← ih.2]
          simp
      | true =>
          obtain ⟨hcontext, -⟩ := getRowValue_of_converts env params .object fields hconverts
          rw [if_pos rfl] at hcontext
          obtain ⟨hfinal, hrest⟩ := getRowValues_object env params fields rows
          simp only [hcontext, List.filter_cons_of_pos hconverts, hfinal, List.length_cons,
            List.map_cons, List.cons.injEq, true_and, hrest]
          refine ⟨?_, ?_⟩
          · rw [Nat.succ_le_succ_iff, Nat.le_zero, List.length_eq_zero_iff]
          · simp

/-- **Rows**: the rows of a structured column are converted as each would be on a fresh
column exactly when the column is no OBJECT or at most one of them is converted at all,
and its metadata is unchanged exactly when the column is no OBJECT or none is. -/
theorem rows_converted_alone_iff (rows : List (Option String)) :
    ((getRowValues env params type rows (.array fields)).1 =
        rows.map (fun row => (getRowValue env params type row (.array fields)).1) ↔
      type ≠ .object ∨ (rows.filter (Converts env)).length ≤ 1) ∧
    ((getRowValues env params type rows (.array fields)).2 = .array fields ↔
      type ≠ .object ∨ rows.filter (Converts env) = []) := by
  by_cases hobject : type = .object
  · subst hobject
    simpa using getRowValues_array env params fields rows
  · have hstays : ∀ row ∈ rows, (getRowValue env params type row (.array fields)).2 = .array fields := by
      intro row _
      cases hconverts : Converts env row with
      | false =>
          rw [getRowValue_of_not_converts env params type hconverts (.array fields) (.array fields)]
      | true =>
          rw [(getRowValue_of_converts env params type fields hconverts).1, if_neg hobject]
    rw [getRowValues_of_stays env params type fields hstays]
    simp [hobject]

end

/-! ## two rows of one object -/

/-- An engine that knows one text. -/
def sampleRuntime : Runtime Int where
  parse s := if s = "\x7b\"a\":1\x7d" then some (.object [("a", .number 1)]) else none
  zero := 0
  one := 1
  numberOfString s := s.toInt?.getD 0
  numberOfObject _ := 0
  bufferOfObject _ := none
  moment _ _ _ := none

def sampleParameters : StatementParameters := ⟨none, none, none, none, none, none, none, none⟩

/-- The second of two equal rows of an OBJECT column fails. -/
theorem second_object_row_fails :
    (getRowValues sampleRuntime sampleParameters .object
        [some "\x7b\"a\":1\x7d", some "\x7b\"a\":1\x7d"]
        (.array [⟨"a", .fixed, 0, false, []⟩])).1 =
      [.ok (.object [("a", .json (.number 1))]),
        .error (.cannotBeParsed (some .reduceNotFunction))] ∧
    (getRowValue sampleRuntime sampleParameters .object (some "\x7b\"a\":1\x7d")
        (.array [⟨"a", .fixed, 0, false, []⟩])).1 = .ok (.object [("a", .json (.number 1))]) :=
  ⟨rfl, rfl⟩

end Column

end SnowflakeConnector
