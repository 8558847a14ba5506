import SnowflakeConnector.Column.Rows

/-!
# SnowflakeConnector.Column.Extract

`lib/connection/result/column.js`, the part for flat columns: for every type of column the
function that converts a raw value, those that make a value and a string of what it was
converted to, and `extractFromRow`, which keeps the converted value in the row.

What the engine, Moment, BigNumber, bigInt and the parsers of variants do is a parameter.
-/

namespace SnowflakeConnector

namespace Column

/-- What the columns use beside `Runtime`: numbers with an exact value and their rounding,
`BigNumber` and `bigInt` on texts, base 64, `moment.format`, the parsers of variants and
`JSON.stringify`.  Nothing is returned where the original throws. -/
structure Engine (ν ω : Type*) extends Runtime ν where
  rational : ν → Option ℚ
  round : ℚ → Option ℚ
  bigNumber : Option String → Option ℚ
  bigInt : String → Option Int
  base64 : List Nat → String
  offset : (epochSeconds nanoSeconds : ℚ) → Timezone → List Char
  formatMoment : (epochSeconds nanoSeconds : ℚ) → Timezone → List Char → String
  jsonColumnVariantParser : String → Option ω
  xmlColumnVariantParser : String → Option ω
  isNull : ω → Bool
  stringify : ω → Option (Option String)
  stringifyValue : Value ν → Option (Option String)
  isRepresentNullAsStringNull : Bool

/-- What the options of a column and of its statement say. -/
structure ColumnMetadata where
  name : String
  type : SqlType
  scale : Nat
  fields : Option (List FieldMetadata)
  resultVersion : Option String
  params : StatementParameters
  treatIntegerAsBigInt : Bool

/-- The values that a cell can hold and that reading it can return. -/
inductive JsValue (ν ω : Type*)
  | null
  | undefined
  | string (s : String)
  | number (n : ν)
  | bigInt (i : Int)
  | boolean (b : Bool)
  | numberObject (raw : String) (processed : ν)
  | bigIntObject (raw : String) (processed : Int)
  | date (timestamp : SfTimestamp ν)
  | time (timestamp : SfTimestamp ν)
  | buffer (raw : String) (data : List Nat) (format : String)
  | variant (value : ω)
  | structured (value : Value ν)

/-! ## timestamps as texts -/

section

variable {ν ω : Type*} (env : Engine ν ω)

/-- The digits of the fraction of a second, padded with zeros. -/
def fractionDigits (nanoSeconds : ℚ) (scale : Nat) : List Char :=
  let scaled := ⌊nanoSeconds / (10 : ℚ) ^ (9 - (scale : Int))⌋
  let padded := List.replicate 8 '0' ++ (toString scaled).toList
  padded.drop (padded.length - scale)

/-- The loop over the format; `zone` is what Moment makes of `ZZ`. -/
def timestampFormat (zone : List Char) (nanoSeconds : ℚ) : Nat → List Char → Nat → List Char
  | 0, _, _ => []
  | _, [], _ => []
  | fuel + 1, c :: rest, scale =>
      let upper := (c :: rest).map Char.toUpper
      match formatTagsMap.find? fun tag => tag.1.isPrefixOf upper with
      | none => '[' :: c :: ']' :: timestampFormat zone nanoSeconds fuel rest scale
      | some (tag, out) =>
          let after := (c :: rest).drop tag.length
          if tag = "TZH".toList then
            zone.take 3 ++ timestampFormat zone nanoSeconds fuel after scale
          else if tag = "TZM".toList then
            zone.drop 3 ++ timestampFormat zone nanoSeconds fuel after scale
          else if tag = "FF".toList then
            -- if 'FF' is followed by a digit, use the digit as the scale
            match after.head?.filter Char.isDigit with
            | some digit =>
                let scale := digit.toNat - 48
                (if 0 < scale then fractionDigits nanoSeconds scale else []) ++
                  timestampFormat zone nanoSeconds fuel (after.drop 1) scale
            | none =>
                (if 0 < scale then fractionDigits nanoSeconds scale else []) ++
                  timestampFormat zone nanoSeconds fuel after scale
          else out ++ timestampFormat zone nanoSeconds fuel after scale

/-- The text of a timestamp that has none yet; `this.timezone.name` throws without a
timezone. -/
def SfTimestamp.render (t : SfTimestamp ν) : Option String :=
  if t.timezone = .none then none
  else
    let zone := env.offset t.epochSeconds t.nanoSeconds t.timezone
    let format := t.format.toList
    some (env.formatMoment t.epochSeconds t.nanoSeconds t.timezone
      (timestampFormat zone t.nanoSeconds format.length format t.scale))

/-- The text that the timestamp has kept, unless it is empty. -/
def SfTimestamp.cached (t : SfTimestamp ν) : Option String :=
  match t.valueAsString with
  | some (.string s) => if s = "" then none else some s
  | _ => none

/-- `SfTimestamp.prototype.toString`, with the timestamp afterwards. -/
def SfTimestamp.toText (t : SfTimestamp ν) : Option (String × SfTimestamp ν) :=
  match t.cached with
  | some s => some (s, t)
  | none => (t.render env).map fun s => (s, { t with valueAsString := some (.string s) })

/-! ## raw values -/

def convertRawDate (rawColumnValue : String) (format : Option String) : SfTimestamp ν :=
  let epochSeconds := (env.rational (env.numberOfString rawColumnValue)).bind fun days =>
    env.round (days * 86400)
  newSfTimestamp epochSeconds (some 0) 0 (.name "UTC") format

def convertRawTimestampHelper (epochFracSecsBig : Option ℚ) (scale : Nat) (timezone : Timezone)
    (format : Option String) : SfTimestamp ν :=
  let scaleFactor := (10 : ℚ) ^ scale
  let valSecBig := epochFracSecsBig.map fun x => ((⌊x / scaleFactor⌋ : Int) : ℚ)
  let fractionsBig := epochFracSecsBig.map fun x => x - (⌊x / scaleFactor⌋ : Int) * scaleFactor
  let valSecNanoBig := fractionsBig.map fun x => x * (10 : ℚ) ^ (9 - (scale : Int))
  newSfTimestamp (valSecBig.bind env.round) (valSecNanoBig.bind env.round) scale timezone format

/-- `convertRawTime`, `convertRawTimestampNtz` and, in the timezone of the session,
`convertRawTimestampLtz`. -/
def convertRawTimestamp (rawColumnValue : String) (columnScale : Nat) (timezone : Timezone)
    (format : Option String) : SfTimestamp ν :=
  let valFracSecsBig := (env.bigNumber (some rawColumnValue)).map (· * (10 : ℚ) ^ columnScale)
  convertRawTimestampHelper env valFracSecsBig columnScale timezone format

/-- The timezone is baked into the value, or it comes after a blank. -/
def convertRawTimestampTz (rawColumnValue : String) (columnScale : Nat)
    (resultVersion format : Option String) : Option (SfTimestamp ν) :=
  let scaleFactor := (10 : ℚ) ^ columnScale
  let parts : Option ℚ × Option ℚ :=
    if resultVersion = none ∨ resultVersion = some "0" then
      let valFracSecsWithTzBig := (env.bigNumber (some rawColumnValue)).map (· * scaleFactor)
      (valFracSecsWithTzBig.map fun x => ((⌊x / 16384⌋ : Int) : ℚ),
        valFracSecsWithTzBig.map fun x =>
          if 0 ≤ x then x - 16384 * ⌊x / 16384⌋ else x - 16384 * ⌈x / 16384⌉ + 16384)
    else
      let timestampAndTZIndex := rawColumnValue.splitOn " "
      ((env.bigNumber timestampAndTZIndex[0]?).map (· * scaleFactor),
        env.bigNumber timestampAndTZIndex[1]?)
  match parts.2.bind env.round with
  | none => none
  | some timezone =>
      if 0 ≤ timezone ∧ timezone ≤ 2880 then
        some (convertRawTimestampHelper env parts.1 columnScale (.minutes (timezone - 1440)) format)
      else none

/-- What is no JSON is tried as XML; an empty text gives nothing. -/
def convertRawVariant (rawColumnValue : String) : Option (JsValue ν ω) :=
  if rawColumnValue = "" then some .undefined
  else
    match env.jsonColumnVariantParser rawColumnValue with
    | some value => some (.variant value)
    | none => (env.xmlColumnVariantParser rawColumnValue).map .variant

/-! ## columns -/

variable (column : ColumnMetadata)

/-- The columns of a type VARIANT, and of the types OBJECT, ARRAY and MAP without fields. -/
def isVariant : Bool :=
  column.type = .variant ||
    ((column.type = .object || column.type = .array || column.type = .map) && column.fields.isNone)

/-- If there is no type-specific format, use the default one. -/
def formatOrDefault (format default : Option String) : Option String :=
  match format with
  | some format => if format = "" then default else some format
  | none => default

/-- The format of a column. -/
def columnFormat : Option String :=
  match column.type with
  | .time => column.params.timeOutputFormat
  | .date => column.params.dateOutputFormat
  | .timestampLtz =>
      formatOrDefault column.params.timestampLtzOutputFormat column.params.timestampOutputFormat
  | .timestampNtz =>
      formatOrDefault column.params.timestampNtzOutputFormat column.params.timestampOutputFormat
  | .timestampTz =>
      formatOrDefault column.params.timestampTzOutputFormat column.params.timestampOutputFormat
  | .binary => column.params.binaryOutputFormat
  | _ => none

/-- `context.fieldsMetadata` of a new column. -/
def initialMetadata : FieldsMetadata FieldMetadata :=
  match column.fields with
  | some fields => .array fields
  | none => .missing

/-- An integer is represented as a big int if the session asks for it. -/
def convertNumber (rawColumnValue : String) : Option (JsValue ν ω) :=
  if column.treatIntegerAsBigInt ∧ ¬ (0 < column.scale ∨ column.type = .real) then
    (env.bigInt rawColumnValue).map (.bigIntObject rawColumnValue)
  else some (.numberObject rawColumnValue (env.numberOfString rawColumnValue))

section

variable [DecidableEq ν]

/-- `convertRawStructuredType(..)` of a column. -/
def convertStructured (type : StructuredType) (rawColumnValue : String)
    (context : FieldsMetadata FieldMetadata) : Option (JsValue ν ω) × FieldsMetadata FieldMetadata :=
  let converted := convertRawStructuredType env.toRuntime column.params type rawColumnValue context
  (converted.1.toOption.map .structured, converted.2)

/-- `context.convert`, with the metadata that the context has afterwards. -/
def convert (rawColumnValue : String) (context : FieldsMetadata FieldMetadata) :
    Option (JsValue ν ω) × FieldsMetadata FieldMetadata :=
  let format := columnFormat column
  match column.type with
  | .fixed => (convertNumber env column rawColumnValue, context)
  | .real => (convertNumber env column rawColumnValue, context)
  | .time =>
      (some (.time (convertRawTimestamp env rawColumnValue column.scale (.name "UTC") format)), context)
  | .boolean =>
      ((convertRawBoolean (.string rawColumnValue : Json ν)).toOption.map .boolean, context)
  | .date => (some (.date (convertRawDate env rawColumnValue format)), context)
  | .timestampLtz =>
      (some (.date (convertRawTimestamp env rawColumnValue column.scale (timezone column.params)
        format)), context)
  | .timestampNtz =>
      (some (.date (convertRawTimestamp env rawColumnValue column.scale (.name "UTC") format)), context)
  | .timestampTz =>
      ((convertRawTimestampTz env rawColumnValue column.scale column.resultVersion format).map .date,
        context)
  | .binary =>
      ((convertRawBinary env.toRuntime format (.string rawColumnValue)).toOption.map fun data =>
        .buffer rawColumnValue data ((format.getD "").toUpper), context)
  | .variant => (convertRawVariant env rawColumnValue, context)
  | .object =>
      if isVariant column then (convertRawVariant env rawColumnValue, context)
      else convertStructured env column .object rawColumnValue context
  | .array =>
      if isVariant column then (convertRawVariant env rawColumnValue, context)
      else convertStructured env column .array rawColumnValue context
  | .map =>
      if isVariant column then (convertRawVariant env rawColumnValue, context)
      else convertStructured env column .map rawColumnValue context
  | .text => (some (.string rawColumnValue), context)

end

/-! ## values and strings -/

/-- `DataTypes.getNullValue()`. -/
def getNullValue : JsValue ν ω :=
  if env.isRepresentNullAsStringNull then .string "NULL" else .null

def toValueFromNumber : JsValue ν ω → JsValue ν ω
  | .numberObject _ processed => .number processed
  | .bigIntObject _ processed => .bigInt processed
  | .null => .null
  | _ => .undefined

def toStringFromNumber : JsValue ν ω → Option (JsValue ν ω)
  | .null => some (getNullValue env)
  | .numberObject raw _ => some (.string raw)
  | .bigIntObject raw _ => some (.string raw)
  | _ => some .undefined

def toStringFromBoolean : JsValue ν ω → Option (JsValue ν ω)
  | .null => some (getNullValue env)
  | .boolean b => some (.string (if b then "TRUE" else "FALSE"))
  | _ => none

/-- `toStringFromDate`, `toStringFromTime` and `toStringFromTimestamp`: `toJSON` of the
date or the time, which keeps its text. -/
def toStringFromTimestamp : JsValue ν ω → Option (JsValue ν ω × JsValue ν ω)
  | .null => some (getNullValue env, .null)
  | .date t => (t.toText env).map fun text => (.string text.1, .date text.2)
  | .time t => (t.toText env).map fun text => (.string text.1, .time text.2)
  | _ => none

/-- A text that `JSON.stringify` returns, or `undefined`. -/
def ofStringify : Option String → JsValue ν ω
  | some s => .string s
  | none => .undefined

def toStringFromRawValue : JsValue ν ω → Option (JsValue ν ω)
  | .null => some (getNullValue env)
  | .undefined => some .undefined
  | .variant value =>
      if env.isNull value then some (getNullValue env) else (env.stringify value).map ofStringify
  | .structured (.json .null) => some (getNullValue env)
  | .structured value => (env.stringifyValue value).map ofStringify
  | _ => none

def toStringFromString : JsValue ν ω → Option (JsValue ν ω)
  | .null => some (getNullValue env)
  | value => some value

def toStringFromBinary : JsValue ν ω → Option (JsValue ν ω)
  | .null => some (getNullValue env)
  | .buffer raw data format =>
      some (.string (if format = "HEX" then raw else env.base64 data))
  | _ => none

/-- `context.toValue`, with the value that the row holds afterwards. -/
def toValue (value : JsValue ν ω) : Option (JsValue ν ω × JsValue ν ω) :=
  match column.type with
  | .fixed => some (toValueFromNumber value, value)
  | .real => some (toValueFromNumber value, value)
  | .time => toStringFromTimestamp env value
  | _ => some (value, value)

/-- `context.toString`, with the value that the row holds afterwards. -/
def toStringOf (value : JsValue ν ω) : Option (JsValue ν ω × JsValue ν ω) :=
  match column.type with
  | .fixed => (toStringFromNumber env value).map (·, value)
  | .real => (toStringFromNumber env value).map (·, value)
  | .time => toStringFromTimestamp env value
  | .boolean => (toStringFromBoolean env value).map (·, value)
  | .date => toStringFromTimestamp env value
  | .timestampLtz => toStringFromTimestamp env value
  | .timestampNtz => toStringFromTimestamp env value
  | .timestampTz => toStringFromTimestamp env value
  | .binary => (toStringFromBinary env value).map (·, value)
  | .variant => (toStringFromRawValue env value).map (·, value)
  | .object => (toStringFromRawValue env value).map (·, value)
  | .array => (toStringFromRawValue env value).map (·, value)
  | .map => (toStringFromRawValue env value).map (·, value)
  | .text => (toStringFromString env value).map (·, value)

end

/-! ## rows -/

/-- The value of a column in `row.values`, and whether `_arrayProcessedColumns` says that
it has been processed. -/
inductive Slot (ν ω : Type*)
  | raw (value : Option String)
  | processed (value : JsValue ν ω)

/-- A raw value, as it comes from the server. -/
def ofRaw {ν ω : Type*} : Option String → JsValue ν ω
  | some s => .string s
  | none => .null

section

variable {ν ω : Type*} [DecidableEq ν] (env : Engine ν ω)

/-- The extraction function on a processed value. -/
def extractProcessed (column : ColumnMetadata) (value : JsValue ν ω) (asString : Bool) :
    Option (JsValue ν ω) × Slot ν ω :=
  match if asString then toStringOf env column value else toValue env column value with
  | some (ret, value) => (some ret, .processed value)
  | none => (none, .processed value)

/-- Extracts the value of a column from a row; nothing is returned where it throws. -/
def extractFromRow (column : ColumnMetadata) (slot : Slot ν ω)
    (context : FieldsMetadata FieldMetadata) (asString : Bool) :
    Option (JsValue ν ω) × Slot ν ω × FieldsMetadata FieldMetadata :=
  match slot with
  | .processed value =>
      let extracted := extractProcessed env column value asString
      (extracted.1, extracted.2, context)
  | .raw value =>
      -- a string of a variant that has not been processed is the raw value
      if asString && isVariant column then (some (ofRaw value), .raw value, context)
      else
        match value with
        | none =>
            let extracted := extractProcessed env column .null asString
            (extracted.1, extracted.2, context)
        | some rawColumnValue =>
            match convert env column rawColumnValue context with
            | (none, context) => (none, .raw value, context)
            | (some value, context) =>
                let extracted := extractProcessed env column value asString
                (extracted.1, extracted.2, context)

/-- A column is identified by its name or by its index. -/
inductive ColumnIdentifier
  | name (name : String)
  | index (index : Nat)
  deriving DecidableEq, Repr

/-- The first column with the name. -/
def resolveColumnIdentifierToColumn (columns : List ColumnMetadata) : ColumnIdentifier → Option Nat
  | .name name => columns.findIdx? fun column => column.name = name
  | .index index => if index < columns.length then some index else none

/-- A row of the result, and the contexts of its columns. -/
structure Row (ν ω : Type*) where
  slots : Nat → Slot ν ω
  contexts : Nat → FieldsMetadata FieldMetadata

/-- `getColumnValue` and `getColumnValueAsString`. -/
structure Access where
  identifier : ColumnIdentifier
  asString : Bool
  deriving DecidableEq, Repr

def getColumnValue (columns : List ColumnMetadata) (row : Row ν ω) (access : Access) :
    Option (JsValue ν ω) × Row ν ω :=
  match resolveColumnIdentifierToColumn columns access.identifier with
  | none => (some .undefined, row)
  | some index =>
      match columns[index]? with
      | none => (some .undefined, row)
      | some column =>
          let (ret, slot, context) := extractFromRow env column (row.slots index)
            (row.contexts index) access.asString
          (ret, ⟨Function.update row.slots index slot, Function.update row.contexts index context⟩)

/-- A row that has not been read, of columns that have read no other row. -/
def freshRow (columns : List ColumnMetadata) (rowset : Nat → Option String) : Row ν ω where
  slots index := .raw (rowset index)
  contexts index := (columns[index]?.map initialMetadata).getD .missing

/-- The row after some accesses. -/
def accessed (columns : List ColumnMetadata) (row : Row ν ω) (history : List Access) : Row ν ω :=
  history.foldl (fun row access => (getColumnValue env columns row access).2) row

end

end Column

end SnowflakeConnector
