import Mathlib

/-!
# SnowflakeConnector.Column

`lib/connection/result/column.js`: the conversion of structured values, the cells of
OBJECT, ARRAY and MAP columns that come with the metadata of their fields.

The conversion recurses over the metadata.  A context holds the metadata of one node:
that of the column lives as long as the column, those of the nodes below are made for
every value.  The numbers of the engine are a type of their own, and what the engine
and Moment do with texts is a parameter.
-/

namespace SnowflakeConnector

/-- A parsed JSON value; the members of an object are its own, in the order of
`Object.keys`. -/
inductive Json (ν : Type*)
  | null
  | bool (b : Bool)
  | number (n : ν)
  | string (s : String)
  | array (items : List (Json ν))
  | object (members : List (String × Json ν))

/-- `Object.keys` with the values under them; nothing else than `null` throws. -/
def Json.ownMembers {ν : Type*} : Json ν → Option (List (String × Json ν))
  | .null => none
  | .bool _ => some []
  | .number _ => some []
  | .string s => some (s.toList.zipIdx.map fun x => (toString x.2, .string x.1.toString))
  | .array items => some (items.zipIdx.map fun x => (toString x.2, x.1))
  | .object members => some members

namespace Column

/-- `SqlTypes.values`. -/
inductive SqlType
  | text
  | binary
  | boolean
  | fixed
  | real
  | date
  | time
  | timestampLtz
  | timestampNtz
  | timestampTz
  | variant
  | object
  | array
  | map
  deriving DecidableEq, Repr

/-- The metadata of a field; without `structured` there are no `fields`. -/
inductive FieldMetadata
  | mk (name : String) (type : SqlType) (scale : Nat) (structured : Bool)
      (fields : List FieldMetadata)

def FieldMetadata.name : FieldMetadata → String
  | ⟨name, _, _, _, _⟩ => name

/-- The session parameters that the conversion reads. -/
structure StatementParameters where
  timestampOutputFormat : Option String
  timestampLtzOutputFormat : Option String
  timestampNtzOutputFormat : Option String
  timestampTzOutputFormat : Option String
  dateOutputFormat : Option String
  timeOutputFormat : Option String
  binaryOutputFormat : Option String
  timezone : Option String
  deriving DecidableEq, Repr

/-- What Moment reads from a text: the seconds since the epoch, those since midnight,
and the fraction of the last one. -/
structure Moment where
  unix : Int
  midnightSeconds : Int
  nanoSeconds : Nat
  deriving DecidableEq, Repr

/-- The engine: `JSON.parse`, `Number`, `Buffer.from` on an array or an object, and
Moment, which finds nothing in a text that is not in the format. -/
structure Runtime (ν : Type*) where
  parse : String → Option (Json ν)
  zero : ν
  one : ν
  numberOfString : String → ν
  numberOfObject : Json ν → ν
  bufferOfObject : Json ν → Option (List Nat)
  moment : (utc : Bool) → (format : String) → Json ν → Option Moment

inductive Timezone
  | none
  | name (name : String)
  | zone (name : String)
  | minutes (offset : ℚ)
  deriving DecidableEq, Repr

/-- `SfTimestamp`. -/
structure SfTimestamp (ν : Type*) where
  epochSeconds : ℚ
  nanoSeconds : ℚ
  scale : Nat
  timezone : Timezone
  format : String
  valueAsString : Option (Json ν)

/-- What a structured value is converted to. -/
inductive Value (ν : Type*)
  | json (json : Json ν)
  | bytes (data : List Nat)
  | sfDate (timestamp : SfTimestamp ν)
  | sfTime (timestamp : SfTimestamp ν)
  | object (members : List (String × Value ν))
  | array (items : List (Value ν))
  | map (entries : List (Value ν × Value ν))

/-- What the conversion throws; `reduceNotFunction` is the `TypeError` of
`context.fieldsMetadata.reduce`. -/
inductive ConvertError
  | typeError
  | reduceNotFunction
  | referenceError
  | internalAssertError
  | notBoolean
  | notSupported
  deriving DecidableEq, Repr

/-! ## date and time formats -/

/-- The map of symbols for datetime representation in Snowflake and in Moment.  The
order of tags is important. -/
def formatTagsMap : List (List Char × List Char) :=
  [ ("YYYY", "YYYY"), ("YY", "YY"), ("MM", "MM"), ("MON", "MMM"), ("DD", "DD"), ("DY", "ddd"),
    ("HH24", "HH"), ("HH12", "hh"), ("HH", "HH"), ("AM", "A"), ("PM", "A"), ("MI", "mm"),
    ("SS", "ss"), ("TZH:TZM", "Z"), ("TZHTZM", "ZZ"), ("TZH", ""), ("TZM", ""), ("FF", "") ].map
    fun tag => (tag.1.toList, tag.2.toList)

/-- The replacement of a tag that needs special code. -/
def specialTag (tag : List Char) (scale : Nat) : List Char :=
  if tag = "TZH".toList then ['Z']
  else if tag = "FF".toList ∧ 0 < scale then List.replicate (min scale 8) 'S'
  else []

/-- The loop over the format; every turn consumes at least one character. -/
def momentFormat : Nat → List Char → Nat → List Char
  | 0, _, _ => []
  | _, [], _ => []
  | fuel + 1, c :: rest, scale =>
      let upper := (c :: rest).map Char.toUpper
      match formatTagsMap.find? fun tag => tag.1.isPrefixOf upper with
      | none => c :: momentFormat fuel rest scale
      | some (tag, out) =>
          let after := (c :: rest).drop tag.length
          if out = [] then
            -- if 'FF' is followed by a digit, skip the digit as well
            let skip := tag = "FF".toList ∧ (after.head?.any Char.isDigit) = true
            specialTag tag scale ++
              momentFormat fuel (if skip then after.drop 1 else after) scale
          else out ++ momentFormat fuel after scale

def convertSnowflakeFormatToMomentFormat (formatSql : String) (scale : Nat) : String :=
  String.ofList (momentFormat formatSql.toList.length formatSql.toList scale)

/-! ## leaves -/

section

variable {ν : Type*} (env : Runtime ν) (params : StatementParameters)

/-- `Number(value)`. -/
def number : Json ν → ν
  | .null => env.zero
  | .bool b => if b then env.one else env.zero
  | .number n => n
  | .string s => env.numberOfString s
  | json => env.numberOfObject json

def convertRawBoolean : Json ν → Except ConvertError Bool
  | .bool true => .ok true
  | .string s =>
      if s = "1" ∨ s.toUpper = "TRUE" then .ok true
      else if s = "0" ∨ s.toUpper = "FALSE" then .ok false
      else .error .notBoolean
  -- `rawColumnValue.toUpperCase` is called before `rawColumnValue === false` is tested
  | _ => .error .typeError

/-- The value of a hexadecimal digit. -/
def hexDigit (c : Char) : Option Nat :=
  if c.isDigit then some (c.toNat - 48)
  else if 'a' ≤ c.toLower ∧ c.toLower ≤ 'f' then some (c.toLower.toNat - 87)
  else none

/-- `Buffer.from(text, 'HEX')` decodes pairs of digits as far as there are any. -/
def bufferFromHex : List Char → List Nat
  | a :: b :: rest =>
      match hexDigit a, hexDigit b with
      | some x, some y => (16 * x + y) :: bufferFromHex rest
      | _, _ => []
  | _ => []

def bufferFrom : Json ν → Option (List Nat)
  | .string s => some (bufferFromHex s.toList)
  | .array items => env.bufferOfObject (.array items)
  | .object members => env.bufferOfObject (.object members)
  | _ => none

/-- `convertRawBinary(..).toJSON().data`. -/
def convertRawBinary (format : Option String) (json : Json ν) : Except ConvertError (List Nat) :=
  match format with
  | none => .error .typeError
  | some format =>
      if format.toUpper = "HEX" ∨ format.toUpper = "BASE64" then
        match bufferFrom env json with
        | some data => .ok data
        | none => .error .typeError
      else .error .internalAssertError

/-- The constructor of `SfTimestamp`: seconds that are not a finite number are `0`, and so
are such nanoseconds. -/
def newSfTimestamp (epochSeconds nanoSeconds : Option ℚ) (scale : Nat) (timezone : Timezone)
    (format : Option String) : SfTimestamp ν :=
  ⟨epochSeconds.getD 0, nanoSeconds.getD 0, scale, timezone, format.getD "", none⟩

/-- `convertTimestampTzString` and, in UTC, `convertTimestampNtzString`. -/
def convertTimestampString (utc : Bool) (stringValue : Json ν) (formatSql : Option String)
    (timezone : Timezone) (scale : Nat) : Except ConvertError (SfTimestamp ν) :=
  match formatSql with
  | none => .error .typeError
  | some format =>
      let formatMoment := convertSnowflakeFormatToMomentFormat format scale
      let epochSeconds := (env.moment utc formatMoment stringValue).map fun m => (m.unix : ℚ)
      .ok (newSfTimestamp epochSeconds (some 0) scale timezone (some format))

/-- The variable `context` of `convertDateString` is declared nowhere. -/
def convertDateString (_stringValue : Json ν) (formatSql : Option String) :
    Except ConvertError (SfTimestamp ν) :=
  match formatSql with
  | none => .error .typeError
  | some _ => .error .referenceError

def convertTimeString (stringValue : Json ν) (formatSql : Option String) (timezone : Timezone)
    (scale : Nat) : Except ConvertError (SfTimestamp ν) :=
  match formatSql with
  | none => .error .typeError
  | some format =>
      let formatMoment := convertSnowflakeFormatToMomentFormat format scale
      let epochSeconds := (env.moment false formatMoment stringValue).map fun m =>
        (m.midnightSeconds : ℚ)
      let time : SfTimestamp ν := newSfTimestamp epochSeconds (some 0) scale timezone (some format)
      .ok { time with valueAsString := some stringValue }

/-- The format that a leaf gives to Moment, or to the buffer. -/
def leafFormat : SqlType → Option String
  | .timestampLtz => params.timestampLtzOutputFormat.or params.timestampOutputFormat
  | .timestampTz => params.timestampTzOutputFormat.or params.timestampOutputFormat
  | .timestampNtz => params.timestampNtzOutputFormat
  | .date => params.dateOutputFormat
  | .time => params.timeOutputFormat
  | .binary => params.binaryOutputFormat
  | _ => none

/-- `TIMEZONE`. -/
def timezone : Timezone :=
  match params.timezone with
  | some name => .name name
  | none => .none

/-- The cases of `mapStructuredTypeValue` that are no structured types. -/
def mapLeafValue (type : SqlType) (scale : Nat) (columnValue : Json ν) :
    Except ConvertError (Value ν) :=
  match type with
  | .text => .ok (.json columnValue)
  | .real => .ok (.json (.number (number env columnValue)))
  | .fixed => .ok (.json (.number (number env columnValue)))
  | .boolean => (convertRawBoolean columnValue).map fun b => .json (.bool b)
  | .timestampLtz =>
      (convertTimestampString env false columnValue (leafFormat params type) (timezone params)
        scale).map .sfDate
  | .timestampNtz =>
      (convertTimestampString env true columnValue (leafFormat params type) (.zone "UTC")
        scale).map .sfDate
  | .timestampTz =>
      (convertTimestampString env false columnValue (leafFormat params type) (timezone params)
        scale).map .sfDate
  | .date => (convertDateString columnValue (leafFormat params type)).map .sfDate
  | .time =>
      (convertTimeString env columnValue (leafFormat params type) (.zone "UTC") scale).map .sfTime
  | .binary => (convertRawBinary env (leafFormat params type) columnValue).map .bytes
  | _ => .error .notSupported

end

/-! ## structured values -/

/-- `context.fieldsMetadata`: missing, an array of fields, or the object that `reduce`
makes of it. -/
inductive FieldsMetadata (φ : Type*)
  | missing
  | array (fields : List φ)
  | object (fields : List φ)
  deriving DecidableEq, Repr

section

variable {ν φ : Type*} [DecidableEq ν] (name : φ → String)
  (mapStructuredTypeValue : φ → Json ν → Except ConvertError (Value ν))

/-- The field under a name; a later field overrides an earlier one.  A name that every
object inherits counts as missing: the conversion throws on it as well. -/
def fieldNamed (fields : List φ) (key : String) : Option φ :=
  fields.reverse.find? fun field => name field = key

/-- `result[key] = value`: an assignment to `__proto__` makes no member. -/
def setMember (result : List (String × Value ν)) (key : String) (value : Value ν) :
    List (String × Value ν) :=
  if key = "__proto__" then result else result ++ [(key, value)]

/-- Two keys of a `Map` are the same: primitive values that are equal. -/
def sameKey : Value ν → Value ν → Bool
  | .json .null, .json .null => true
  | .json (.bool a), .json (.bool b) => a = b
  | .json (.number a), .json (.number b) => a = b
  | .json (.string a), .json (.string b) => a = b
  | _, _ => false

/-- `Map.prototype.set`. -/
def setEntry (entries : List (Value ν × Value ν)) (key value : Value ν) : List (Value ν × Value ν) :=
  if entries.any (sameKey key ·.1) then
    entries.map fun entry => if sameKey key entry.1 then (entry.1, value) else entry
  else entries ++ [(key, value)]

/-- The value of one field; `metadataField.type` throws if there is no metadata. -/
def mapField (field : Option φ) (json : Json ν) : Except ConvertError (Value ν) :=
  match field with
  | some field => mapStructuredTypeValue field json
  | none => .error .typeError

/-- The loop of `convertJsonObject`. -/
def convertMembers (fields : List φ) (members : List (String × Json ν)) :
    Except ConvertError (List (String × Value ν)) :=
  members.foldlM (fun result member => do
    let value ← mapField mapStructuredTypeValue (fieldNamed name fields member.1) member.2
    pure (setMember result member.1 value)) []

/-- Converts a value of the structured type object; the array of fields is replaced in
the context. -/
def convertJsonObject (json : Json ν) (fieldsMetadata : FieldsMetadata φ) :
    Except ConvertError (Value ν) × FieldsMetadata φ :=
  match fieldsMetadata with
  | .missing => (.ok (.json json), .missing)
  | .object fields => (.error .reduceNotFunction, .object fields)
  | .array fields =>
      match json.ownMembers with
      | none => (.error .typeError, .object fields)
      | some members =>
          ((convertMembers name mapStructuredTypeValue fields members).map .object, .object fields)

/-- Converts a value of the structured type array. -/
def convertJsonArray (json : Json ν) (fieldsMetadata : FieldsMetadata φ) :
    Except ConvertError (Value ν) :=
  let items (field : Option φ) : Except ConvertError (Value ν) :=
    match json with
    | .array items => (items.mapM (mapField mapStructuredTypeValue field)).map .array
    | _ => .error .typeError
  match fieldsMetadata with
  | .missing => .ok (.json json)
  | .array fields => items fields[0]?
  | .object fields => items (fieldNamed name fields "0")

/-- The loop of `convertJsonMap`. -/
def convertEntries (keyMetadata valueMetadata : φ) (members : List (String × Json ν)) :
    Except ConvertError (List (Value ν × Value ν)) :=
  members.foldlM (fun result member => do
    let convertedKey ← mapStructuredTypeValue keyMetadata (.string member.1)
    let convertedValue ← mapStructuredTypeValue valueMetadata member.2
    pure (setEntry result convertedKey convertedValue)) []

/-- Converts a value of the structured type map. -/
def convertJsonMap (json : Json ν) (fieldsMetadata : FieldsMetadata φ) :
    Except ConvertError (Value ν) :=
  match fieldsMetadata with
  | .array [keyMetadata, valueMetadata] =>
      match json.ownMembers with
      | none => .error .typeError
      | some members =>
          (convertEntries mapStructuredTypeValue keyMetadata valueMetadata members).map .map
  | _ => .ok (.json json)

end

section

variable {ν : Type*} [DecidableEq ν] (env : Runtime ν) (params : StatementParameters)

mutual

/-- Converts a value by the metadata of its field.  A node below gets a context of its
own, whose metadata is an array. -/
def mapStructuredTypeValue : FieldMetadata → Json ν → Except ConvertError (Value ν)
  | ⟨_, type, scale, structured, fields⟩, columnValue =>
      let fieldsMetadata := if structured then .array (converters fields) else .missing
      match type with
      | .object => (convertJsonObject Prod.fst Prod.snd columnValue fieldsMetadata).1
      | .array => convertJsonArray Prod.fst Prod.snd columnValue fieldsMetadata
      | .map => convertJsonMap Prod.snd columnValue fieldsMetadata
      | type => mapLeafValue env params type scale columnValue

/-- The fields, each with its name and what converts its values. -/
def converters : List FieldMetadata → List (String × (Json ν → Except ConvertError (Value ν)))
  | [] => []
  | field :: fields => (field.name, mapStructuredTypeValue field) :: converters fields

end

theorem converters_eq_map (fields : List FieldMetadata) :
    converters env params fields =
      fields.map fun field => (field.name, mapStructuredTypeValue env params field) := by
  induction fields with
  | nil => rw [converters, List.map_nil]
  | cons field fields ih => rw [converters, ih, List.map_cons]

theorem mapField_converters (fields : List FieldMetadata) (key : String) :
    mapField Prod.snd (fieldNamed Prod.fst (converters env params fields) key) =
      mapField (mapStructuredTypeValue env params) (fieldNamed FieldMetadata.name fields key) := by
  have hfind : fieldNamed Prod.fst (converters env params fields) key =
      (fieldNamed FieldMetadata.name fields key).map
        fun field => (field.name, mapStructuredTypeValue env params field) := by
    rw [fieldNamed, fieldNamed, converters_eq_map, ← List.map_reverse, List.find?_map]
    rfl
  rw [hfind]
  cases fieldNamed FieldMetadata.name fields key <;> rfl

/-- The metadata of a node below. -/
def nodeMetadata (structured : Bool) (fields : List FieldMetadata) : FieldsMetadata FieldMetadata :=
  if structured then .array fields else .missing

/-- The recursion over the metadata. -/
theorem mapStructuredTypeValue_eq (name : String) (type : SqlType) (scale : Nat) (structured : Bool)
    (fields : List FieldMetadata) (columnValue : Json ν) :
    mapStructuredTypeValue env params ⟨name, type, scale, structured, fields⟩ columnValue =
      match type with
      | .object => (convertJsonObject FieldMetadata.name (mapStructuredTypeValue env params)
          columnValue (nodeMetadata structured fields)).1
      | .array => convertJsonArray FieldMetadata.name (mapStructuredTypeValue env params)
          columnValue (nodeMetadata structured fields)
      | .map => convertJsonMap (mapStructuredTypeValue env params) columnValue
          (nodeMetadata structured fields)
      | type => mapLeafValue env params type scale columnValue := by
  cases type with
  | object =>
      rw [mapStructuredTypeValue]
      cases structured with
      | false => rfl
      | true =>
          simp only [nodeMetadata, if_true, convertJsonObject, convertMembers, mapField_converters]
          cases columnValue.ownMembers <;> rfl
  | array =>
      rw [mapStructuredTypeValue]
      cases structured with
      | false => rfl
      | true =>
          simp only [nodeMetadata, if_true, convertJsonArray, converters_eq_map, List.getElem?_map]
          cases columnValue with
          | array items => cases fields[0]? <;> rfl
          | _ => rfl
  | map =>
      rw [mapStructuredTypeValue]
      cases structured with
      | false => rfl
      | true =>
          simp only [nodeMetadata, if_true, converters_eq_map]
          match fields with
          | [] => rfl
          | [_] => rfl
          | [keyMetadata, valueMetadata] => rfl
          | _ :: _ :: _ :: _ => rfl
  | _ => simp [mapStructuredTypeValue]

end

/-! ## induction over the metadata -/

/-- What holds of a node when it holds of its fields holds of every node. -/
theorem FieldMetadata.induction {P : FieldMetadata → Prop}
    (h : ∀ name type scale structured fields,
      (∀ field ∈ fields, P field) → P ⟨name, type, scale, structured, fields⟩) :
    ∀ field, P field
  | ⟨name, type, scale, structured, fields⟩ =>
      h name type scale structured fields fun field _ => FieldMetadata.induction h field
termination_by field => sizeOf field
decreasing_by
  have hlt := List.sizeOf_lt_of_mem ‹field ∈ fields›
  simp only [FieldMetadata.mk.sizeOf_spec]
  omega

end Column

end SnowflakeConnector
