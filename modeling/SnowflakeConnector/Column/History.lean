import SnowflakeConnector.Column.Extract

/-!
# SnowflakeConnector.Column.History

What earlier reads of a row do to a cell: they leave the raw value there or what it is
converted to, a date or a time perhaps with its text.

* `Reached` -- the invariant of one cell, `Reached.step` -- every read keeps it.
* `getColumnValue_eq_fresh_iff` -- a read returns what it returns on a fresh row, unless it
  is the string of a variant that has been read before and does not print as it came.
-/

namespace SnowflakeConnector

namespace Column

/-! ## dates and their texts -/

section

variable {ν ω : Type*} (env : Engine ν ω)

def SfTimestamp.forget (t : SfTimestamp ν) : SfTimestamp ν := { t with valueAsString := none }

/-- The value without the text that a date or a time keeps for itself. -/
def JsValue.observe : JsValue ν ω → JsValue ν ω
  | .date t => .date t.forget
  | .time t => .time t.forget
  | value => value

/-- A text that is kept is the one that would be made. -/
def SfTimestamp.Kept (t : SfTimestamp ν) : Prop := ∀ s ∈ t.cached, t.render env = some s

def JsValue.Kept : JsValue ν ω → Prop
  | .date t => t.Kept env
  | .time t => t.Kept env
  | _ => True

/-- Two values that differ in kept texts alone. -/
def Same (a b : JsValue ν ω) : Prop := a.observe = b.observe ∧ a.Kept env ∧ b.Kept env

theorem Same.symm {a b : JsValue ν ω} (h : Same env a b) : Same env b a :=
  ⟨h.1.symm, h.2.2, h.2.1⟩

theorem Same.trans {a b c : JsValue ν ω} (h : Same env a b) (h' : Same env b c) : Same env a c :=
  ⟨h.1.trans h'.1, h.2.1, h'.2.2⟩

theorem render_forget (t : SfTimestamp ν) : t.forget.render env = t.render env := rfl

theorem render_congr {a b : SfTimestamp ν} (h : a.forget = b.forget) : a.render env = b.render env := by
  rw [← render_forget env a, h, render_forget]

/-- The text is the same whether it has been kept or not, and it is kept afterwards. -/
theorem toText_spec {t : SfTimestamp ν} (h : t.Kept env) :
    (t.toText env).map Prod.fst = t.render env ∧
      ∀ text ∈ t.toText env, text.2.forget = t.forget ∧ text.2.Kept env := by
  unfold SfTimestamp.toText
  cases hcached : t.cached with
  | some s =>
      refine ⟨(h s hcached).symm, fun text htext => ?_⟩
      obtain rfl := Option.some.inj htext
      exact ⟨rfl, h⟩
  | none =>
      cases hrender : t.render env with
      | none => simp
      | some s =>
          refine ⟨rfl, fun text htext => ?_⟩
          obtain rfl := Option.some.inj htext
          refine ⟨rfl, fun s' hs' => ?_⟩
          -- what is kept is what has just been made
          simp only [SfTimestamp.cached] at hs'
          split at hs'
          · simp at hs'
          · rw [← Option.some.inj hs']
            exact hrender

/-- Two values that look the same are the same, or the same date or time. -/
theorem eq_or_timestamp {a b : JsValue ν ω} (h : a.observe = b.observe) :
    a = b ∨ (∃ t t', a = .date t ∧ b = .date t' ∧ t.forget = t'.forget) ∨
      ∃ t t', a = .time t ∧ b = .time t' ∧ t.forget = t'.forget := by
  cases a with
  | date t =>
      cases b with
      | date t' => exact Or.inr (Or.inl ⟨t, t', rfl, rfl, JsValue.date.inj h⟩)
      | _ => cases h
  | time t =>
      cases b with
      | time t' => exact Or.inr (Or.inr ⟨t, t', rfl, rfl, JsValue.time.inj h⟩)
      | _ => cases h
  | _ => cases b <;> first | exact Or.inl h | cases h

/-! ## values and strings of the same value -/

/-- A function that keeps no text returns the same on values that look the same. -/
theorem map_observe_congr {f : JsValue ν ω → Option (JsValue ν ω)} {a b : JsValue ν ω}
    (h : a.observe = b.observe)
    (hdate : ∀ t t', t.forget = t'.forget →
      (f (.date t)).map JsValue.observe = (f (.date t')).map JsValue.observe)
    (htime : ∀ t t', t.forget = t'.forget →
      (f (.time t)).map JsValue.observe = (f (.time t')).map JsValue.observe) :
    (f a).map JsValue.observe = (f b).map JsValue.observe := by
  obtain rfl | ⟨t, t', rfl, rfl, ht⟩ | ⟨t, t', rfl, rfl, ht⟩ := eq_or_timestamp h
  · rfl
  · exact hdate t t' ht
  · exact htime t t' ht

/-- What an extraction function returns, without the value that it leaves. -/
def looks (extracted : Option (JsValue ν ω × JsValue ν ω)) : Option (JsValue ν ω) :=
  extracted.map fun ret => ret.1.observe

theorem toStringFromTimestamp_spec {a b : JsValue ν ω} (h : Same env a b) :
    looks (toStringFromTimestamp env a) = looks (toStringFromTimestamp env b) ∧
      ∀ ret ∈ toStringFromTimestamp env a, Same env a ret.2 := by
  have htext : ∀ {t t' : SfTimestamp ν}, t.forget = t'.forget → t.Kept env → t'.Kept env →
      (t.toText env).map Prod.fst = (t'.toText env).map Prod.fst := by
    intro t t' ht hkept hkept'
    rw [(toText_spec env hkept).1, (toText_spec env hkept').1, render_congr env ht]
  have hlooks : ∀ (make : SfTimestamp ν → JsValue ν ω) (text : Option (String × SfTimestamp ν)),
      looks (text.map fun text => (.string text.1, make text.2)) =
        (text.map Prod.fst).map JsValue.string := by
    intro make text
    cases text <;> rfl
  obtain ⟨hobserve, ha, hb⟩ := h
  constructor
  · obtain rfl | ⟨t, t', rfl, rfl, ht⟩ | ⟨t, t', rfl, rfl, ht⟩ := eq_or_timestamp hobserve
    · rfl
    · simp only [toStringFromTimestamp, hlooks, htext ht ha hb]
    · simp only [toStringFromTimestamp, hlooks, htext ht ha hb]
  · intro ret hret
    cases a with
    | null =>
        obtain rfl := Option.some.inj hret
        exact ⟨rfl, trivial, trivial⟩
    | date t =>
        obtain ⟨text, htext, rfl⟩ := Option.map_eq_some_iff.mp hret
        obtain ⟨hforget, hkept⟩ := (toText_spec env ha).2 text htext
        exact ⟨congrArg JsValue.date hforget.symm, ha, hkept⟩
    | time t =>
        obtain ⟨text, htext, rfl⟩ := Option.map_eq_some_iff.mp hret
        obtain ⟨hforget, hkept⟩ := (toText_spec env ha).2 text htext
        exact ⟨congrArg JsValue.time hforget.symm, ha, hkept⟩
    | _ => cases hret

/-- An extraction function that leaves the value as it is. -/
theorem pure_spec {f : JsValue ν ω → Option (JsValue ν ω)} {a b : JsValue ν ω} (h : Same env a b)
    (hf : (f a).map JsValue.observe = (f b).map JsValue.observe) :
    looks ((f a).map (·, a)) = looks ((f b).map (·, b)) ∧
      ∀ ret ∈ (f a).map (·, a), Same env a ret.2 := by
  constructor
  · simpa [looks, Option.map_map, Function.comp_def] using hf
  · intro ret hret
    obtain ⟨_, -, rfl⟩ := Option.map_eq_some_iff.mp hret
    exact ⟨rfl, h.2.1, h.2.1⟩

theorem toStringOf_spec (column : ColumnMetadata) {a b : JsValue ν ω} (h : Same env a b) :
    looks (toStringOf env column a) = looks (toStringOf env column b) ∧
      ∀ ret ∈ toStringOf env column a, Same env a ret.2 := by
  have hraw : ∀ {f : JsValue ν ω → Option (JsValue ν ω)},
      (∀ t t' : SfTimestamp ν, f (.date t) = f (.date t')) →
      (∀ t t' : SfTimestamp ν, f (.time t) = f (.time t')) →
      looks ((f a).map (·, a)) = looks ((f b).map (·, b)) ∧
        ∀ ret ∈ (f a).map (·, a), Same env a ret.2 := by
    intro f hdate htime
    refine pure_spec env h (map_observe_congr h.1 ?_ ?_)
    · exact fun t t' _ => by rw [hdate t t']
    · exact fun t t' _ => by rw [htime t t']
  unfold toStringOf
  cases column.type with
  | fixed => exact hraw (fun _ _ => rfl) (fun _ _ => rfl)
  | real => exact hraw (fun _ _ => rfl) (fun _ _ => rfl)
  | boolean => exact hraw (fun _ _ => rfl) (fun _ _ => rfl)
  | binary => exact hraw (fun _ _ => rfl) (fun _ _ => rfl)
  | variant => exact hraw (fun _ _ => rfl) (fun _ _ => rfl)
  | object => exact hraw (fun _ _ => rfl) (fun _ _ => rfl)
  | array => exact hraw (fun _ _ => rfl) (fun _ _ => rfl)
  | map => exact hraw (fun _ _ => rfl) (fun _ _ => rfl)
  | text =>
      refine pure_spec env h (map_observe_congr h.1 ?_ ?_)
      · exact fun t t' ht => congrArg (fun t => some (JsValue.date t)) ht
      · exact fun t t' ht => congrArg (fun t => some (JsValue.time t)) ht
  | time => exact toStringFromTimestamp_spec env h
  | date => exact toStringFromTimestamp_spec env h
  | timestampLtz => exact toStringFromTimestamp_spec env h
  | timestampNtz => exact toStringFromTimestamp_spec env h
  | timestampTz => exact toStringFromTimestamp_spec env h

theorem toValue_spec (column : ColumnMetadata) {a b : JsValue ν ω} (h : Same env a b) :
    looks (toValue env column a) = looks (toValue env column b) ∧
      ∀ ret ∈ toValue env column a, Same env a ret.2 := by
  have hnumber : looks (some (toValueFromNumber a, a)) = looks (some (toValueFromNumber b, b)) ∧
      ∀ ret ∈ some (toValueFromNumber a, a), Same env a ret.2 := by
    have hlooks := map_observe_congr (f := fun value => some (toValueFromNumber value)) h.1
      (fun _ _ _ => rfl) (fun _ _ _ => rfl)
    exact pure_spec env (f := fun value => some (toValueFromNumber value)) h hlooks
  have hnoop : looks (some (a, a)) = looks (some (b, b)) ∧ ∀ ret ∈ some (a, a), Same env a ret.2 :=
    pure_spec env (f := some) h (congrArg some h.1)
  unfold toValue
  cases column.type with
  | fixed => exact hnumber
  | real => exact hnumber
  | time => exact toStringFromTimestamp_spec env h
  | _ => exact hnoop

/-- Reading a processed value again returns the same, and leaves the same. -/
theorem extractProcessed_spec [DecidableEq ν] (column : ColumnMetadata) {a b : JsValue ν ω}
    (h : Same env a b) (asString : Bool) :
    (extractProcessed env column a asString).1.map JsValue.observe =
        (extractProcessed env column b asString).1.map JsValue.observe ∧
      ∃ value, (extractProcessed env column a asString).2 = .processed value ∧ Same env a value := by
  have hspec : looks (if asString then toStringOf env column a else toValue env column a) =
        looks (if asString then toStringOf env column b else toValue env column b) ∧
      ∀ ret ∈ (if asString then toStringOf env column a else toValue env column a),
        Same env a ret.2 := by
    cases asString with
    | true => exact toStringOf_spec env column h
    | false => exact toValue_spec env column h
  have hlooks : ∀ value, (extractProcessed env column value asString).1.map JsValue.observe =
      looks (if asString then toStringOf env column value else toValue env column value) := by
    intro value
    unfold extractProcessed
    cases (if asString then toStringOf env column value else toValue env column value) <;> rfl
  refine ⟨by rw [hlooks, hlooks]; exact hspec.1, ?_⟩
  unfold extractProcessed
  cases hret : (if asString then toStringOf env column a else toValue env column a) with
  | none => exact ⟨a, rfl, rfl, h.2.1, h.2.1⟩
  | some ret => exact ⟨ret.2, rfl, hspec.2 ret hret⟩

end

/-! ## contexts -/

section

variable {ν ω : Type*} [DecidableEq ν] (env : Engine ν ω) (column : ColumnMetadata)

/-- The context of an OBJECT column that has converted a value: nothing is converted any
more. -/
def Spent (context : FieldsMetadata FieldMetadata) : Prop :=
  column.type = .object ∧ ∃ fields, column.fields = some fields ∧ context = .object fields

theorem convert_spent {context : FieldsMetadata FieldMetadata} (h : Spent column context)
    (rawColumnValue : String) : convert env column rawColumnValue context = (none, context) := by
  obtain ⟨htype, fields, hfields, rfl⟩ := h
  have hvariant : isVariant column = false := by simp [isVariant, htype, hfields]
  unfold convert
  simp only [htype, hvariant, Bool.false_eq_true, if_false, convertStructured,
    convertRawStructuredType]
  split
  · rfl
  · cases env.parse rawColumnValue <;> rfl

theorem convert_initial (rawColumnValue : String) :
    (convert env column rawColumnValue (initialMetadata column)).2 = initialMetadata column ∨
      Spent column (convert env column rawColumnValue (initialMetadata column)).2 := by
  unfold convert
  cases htype : column.type with
  | object =>
      by_cases hvariant : isVariant column = true
      · simp only [hvariant, if_true, true_or]
      · cases hfields : column.fields with
        | none => simp [isVariant, htype, hfields] at hvariant
        | some fields =>
            simp only [hvariant, Bool.false_eq_true, if_false, convertStructured, initialMetadata,
              hfields, convertRawStructuredType]
            split
            · exact Or.inl rfl
            · cases env.parse rawColumnValue with
              | none => exact Or.inl rfl
              | some json =>
                  refine Or.inr ⟨htype, fields, hfields, ?_⟩
                  simp only [convertJson, convertJsonObject]
                  cases json.ownMembers <;> rfl
  | array =>
      simp only
      split
      · exact Or.inl rfl
      · simp only [convertStructured, convertRawStructuredType]
        split
        · exact Or.inl rfl
        · cases env.parse rawColumnValue <;> exact Or.inl rfl
  | map =>
      simp only
      split
      · exact Or.inl rfl
      · simp only [convertStructured, convertRawStructuredType]
        split
        · exact Or.inl rfl
        · cases env.parse rawColumnValue <;> exact Or.inl rfl
  | _ => exact Or.inl rfl

omit [DecidableEq ν] in
theorem kept_new (epochSeconds nanoSeconds : Option ℚ) (scale : Nat) (timezone : Timezone)
    (format : Option String) :
    (newSfTimestamp epochSeconds nanoSeconds scale timezone format : SfTimestamp ν).Kept env :=
  fun s hs => by simp [newSfTimestamp, SfTimestamp.cached] at hs

/-- A converted value has kept no text. -/
theorem convert_kept {rawColumnValue : String} {context : FieldsMetadata FieldMetadata}
    {value : JsValue ν ω} (h : (convert env column rawColumnValue context).1 = some value) :
    value.Kept env := by
  have hvariant : ∀ {value : JsValue ν ω}, convertRawVariant env rawColumnValue = some value →
      value.Kept env := by
    intro value hvalue
    unfold convertRawVariant at hvalue
    split at hvalue
    · obtain rfl := Option.some.inj hvalue
      trivial
    · split at hvalue
      · obtain rfl := Option.some.inj hvalue
        trivial
      · obtain ⟨_, -, rfl⟩ := Option.map_eq_some_iff.mp hvalue
        trivial
  have hstructured : ∀ {type : StructuredType} {value : JsValue ν ω},
      (convertStructured env column type rawColumnValue context).1 = some value → value.Kept env := by
    intro type value hvalue
    obtain ⟨_, -, rfl⟩ := Option.map_eq_some_iff.mp hvalue
    trivial
  have hnumber : ∀ {value : JsValue ν ω}, convertNumber env column rawColumnValue = some value →
      value.Kept env := by
    intro value hvalue
    unfold convertNumber at hvalue
    split at hvalue
    · obtain ⟨_, -, rfl⟩ := Option.map_eq_some_iff.mp hvalue
      trivial
    · obtain rfl := Option.some.inj hvalue
      trivial
  unfold convert at h
  cases htype : column.type with
  | fixed => simp only [htype] at h; exact hnumber h
  | real => simp only [htype] at h; exact hnumber h
  | time =>
      simp only [htype] at h
      obtain rfl := Option.some.inj h
      exact kept_new env _ _ _ _ _
  | date =>
      simp only [htype] at h
      obtain rfl := Option.some.inj h
      exact kept_new env _ _ _ _ _
  | timestampLtz =>
      simp only [htype] at h
      obtain rfl := Option.some.inj h
      exact kept_new env _ _ _ _ _
  | timestampNtz =>
      simp only [htype] at h
      obtain rfl := Option.some.inj h
      exact kept_new env _ _ _ _ _
  | timestampTz =>
      simp only [htype] at h
      obtain ⟨t, ht, rfl⟩ := Option.map_eq_some_iff.mp h
      unfold convertRawTimestampTz at ht
      simp only at ht
      split at ht
      · cases ht
      · split at ht
        · obtain rfl := Option.some.inj ht
          exact kept_new env _ _ _ _ _
        · cases ht
  | boolean =>
      simp only [htype] at h
      obtain ⟨_, -, rfl⟩ := Option.map_eq_some_iff.mp h
      trivial
  | binary =>
      simp only [htype] at h
      obtain ⟨_, -, rfl⟩ := Option.map_eq_some_iff.mp h
      trivial
  | variant => simp only [htype] at h; exact hvariant h
  | object =>
      simp only [htype] at h
      split at h
      · exact hvariant h
      · exact hstructured h
  | array =>
      simp only [htype] at h
      split at h
      · exact hvariant h
      · exact hstructured h
  | map =>
      simp only [htype] at h
      split at h
      · exact hvariant h
      · exact hstructured h
  | text =>
      simp only [htype] at h
      obtain rfl := Option.some.inj h
      trivial

/-! ## one cell -/

/-- What a raw value is converted to on a new column; a null is not converted. -/
def convertedValue (raw : Option String) : Option (JsValue ν ω) :=
  match raw with
  | none => some .null
  | some rawColumnValue => (convert env column rawColumnValue (initialMetadata column)).1

omit [DecidableEq ν] in
theorem Same.refl_of_kept {value : JsValue ν ω} (h : value.Kept env) : Same env value value :=
  ⟨rfl, h, h⟩

theorem convertedValue_kept {raw : Option String} {value : JsValue ν ω}
    (h : convertedValue env column raw = some value) : value.Kept env := by
  cases raw with
  | none =>
      obtain rfl := Option.some.inj h
      trivial
  | some rawColumnValue => exact convert_kept env column h

/-- What a cell can hold: its raw value, on a new context or on one that cannot convert it,
or what that is converted to. -/
def Reached (raw : Option String) (slot : Slot ν ω) (context : FieldsMetadata FieldMetadata) : Prop :=
  match slot with
  | .raw value => value = raw ∧ (context = initialMetadata column ∨
      (Spent column context ∧ (convertedValue env column raw) = none))
  | .processed value => ∃ converted, convertedValue env column raw = some converted ∧
      Same env converted value

/-- A read that leaves the cell alone: a string of a variant. -/
def leavesRaw (asString : Bool) : Bool := asString && isVariant column

/-- A fresh read of a cell, unless it leaves the cell alone: the raw value is converted,
and what it is converted to is extracted. -/
theorem extractFromRow_raw {raw : Option String} {context : FieldsMetadata FieldMetadata}
    (hcontext : context = initialMetadata column ∨
      (Spent column context ∧ convertedValue env column raw = none))
    {asString : Bool} (hleaves : leavesRaw column asString = false) :
    (extractFromRow env column (.raw raw) context asString).1 =
        (convertedValue env column raw).bind (fun value =>
          (extractProcessed env column value asString).1) ∧
      match convertedValue env column raw with
      | none => ∃ context', (extractFromRow env column (.raw raw) context asString).2 = (.raw raw, context') ∧
          (context' = initialMetadata column ∨ Spent column context')
      | some value => (extractFromRow env column (.raw raw) context asString).2.1 =
          (extractProcessed env column value asString).2 := by
  unfold extractFromRow
  rw [leavesRaw] at hleaves
  simp only [hleaves, Bool.false_eq_true, if_false]
  cases raw with
  | none => exact ⟨rfl, rfl⟩
  | some rawColumnValue =>
      obtain rfl | ⟨hspent, hnone⟩ := hcontext
      · have hinitial := convert_initial env column rawColumnValue
        simp only [convertedValue]
        cases hconvert : convert env column rawColumnValue (initialMetadata column) with
        | mk value context' =>
            rw [hconvert] at hinitial
            cases value with
            | none => exact ⟨rfl, context', rfl, hinitial⟩
            | some value => exact ⟨rfl, rfl⟩
      · simp only [hnone, convert_spent env column hspent]
        exact ⟨rfl, context, rfl, Or.inr hspent⟩

def Slot.isProcessed : Slot ν ω → Bool
  | .raw _ => false
  | .processed _ => true

/-- What a read makes of a cell: it is processed afterwards, or it was raw and stays so, since the
read leaves it alone or cannot convert it. -/
theorem Reached.read {raw : Option String} {slot : Slot ν ω} {context : FieldsMetadata FieldMetadata}
    (h : Reached env column raw slot context) (asString : Bool) :
    (∃ converted value, (slot.isProcessed = true ∨ leavesRaw column asString = false) ∧
      convertedValue env column raw = some converted ∧ Same env converted value ∧
      (extractFromRow env column slot context asString).2.1 = .processed value) ∨
    ∃ context', slot = .raw raw ∧
      (leavesRaw column asString = true ∨ convertedValue env column raw = none) ∧
      (context' = initialMetadata column ∨
        Spent column context' ∧ convertedValue env column raw = none) ∧
      (extractFromRow env column slot context asString).2 = (.raw raw, context') := by
  cases slot with
  | processed value =>
      obtain ⟨converted, hconverted, hsame⟩ := h
      obtain ⟨-, value', hvalue', hsame'⟩ :=
        extractProcessed_spec env column (hsame.symm env) asString
      exact .inl ⟨converted, value', .inl rfl, hconverted, hsame.trans env hsame', hvalue'⟩
  | raw value =>
      obtain ⟨rfl, hcontext⟩ := h
      cases hleaves : leavesRaw column asString with
      | true =>
          refine .inr ⟨context, rfl, .inl rfl, hcontext, ?_⟩
          rw [leavesRaw] at hleaves
          simp only [extractFromRow, hleaves, if_true]
      | false =>
          obtain ⟨-, hslot⟩ := extractFromRow_raw env column hcontext hleaves
          cases hconverted : convertedValue env column value with
          | none =>
              rw [hconverted] at hslot
              obtain ⟨context', hslot, hcontext'⟩ := hslot
              exact .inr ⟨context', rfl, .inr rfl, hcontext'.imp_right (⟨·, rfl⟩), hslot⟩
          | some converted =>
              rw [hconverted] at hslot
              have hsame := Same.refl_of_kept env (convertedValue_kept env column hconverted)
              obtain ⟨-, value', hvalue', hsame'⟩ := extractProcessed_spec env column hsame asString
              exact .inl ⟨converted, value', .inr rfl, rfl, hsame', hslot.trans hvalue'⟩

/-- **Step**: a read keeps what a cell can hold. -/
theorem Reached.step {raw : Option String} {slot : Slot ν ω} {context : FieldsMetadata FieldMetadata}
    (h : Reached env column raw slot context) (asString : Bool) :
    Reached env column raw (extractFromRow env column slot context asString).2.1
      (extractFromRow env column slot context asString).2.2 := by
  obtain ⟨converted, value, -, hconverted, hsame, hslot⟩ | ⟨context', -, -, hcontext', hslot⟩ :=
    h.read env column asString
  · rw [hslot]
    exact ⟨converted, hconverted, hsame⟩
  · rw [hslot]
    exact ⟨rfl, hcontext'⟩

/-- A read processes the cell unless it leaves it alone or cannot convert it. -/
theorem isProcessed_step {raw : Option String} {slot : Slot ν ω}
    {context : FieldsMetadata FieldMetadata} (h : Reached env column raw slot context)
    (asString : Bool) :
    (extractFromRow env column slot context asString).2.1.isProcessed =
      (slot.isProcessed || (!leavesRaw column asString && (convertedValue env column raw).isSome)) := by
  obtain ⟨converted, value, hread, hconverted, -, hslot⟩ | ⟨context', rfl, hread, -, hslot⟩ :=
    h.read env column asString
  · rw [hslot, hconverted]
    obtain hprocessed | hleaves := hread
    · rw [hprocessed]
      rfl
    · simp [hleaves, Slot.isProcessed]
  · rw [hslot]
    obtain hleaves | hnone := hread
    · simp [hleaves, Slot.isProcessed]
    · simp [hnone, Slot.isProcessed]

/-- Whatever the cell holds, a read that is no string of a variant returns what it returns
on a fresh cell; so does every read of a cell that has not been processed. -/
theorem extractFromRow_eq_fresh {raw : Option String} {slot : Slot ν ω}
    {context : FieldsMetadata FieldMetadata} (h : Reached env column raw slot context)
    (asString : Bool) (hread : leavesRaw column asString = false ∨ slot.isProcessed = false) :
    (extractFromRow env column slot context asString).1.map JsValue.observe =
      (extractFromRow env column (.raw raw) (initialMetadata column) asString).1.map
        JsValue.observe := by
  cases hleaves : leavesRaw column asString with
  | true =>
      have hslot : slot.isProcessed = false := by
        simpa [hleaves] using hread
      cases slot with
      | processed value => simp [Slot.isProcessed] at hslot
      | raw value =>
          obtain ⟨rfl, -⟩ := h
          rw [leavesRaw] at hleaves
          simp only [extractFromRow, hleaves, if_true]
  | false =>
      rw [(extractFromRow_raw env column (Or.inl rfl) hleaves).1]
      cases slot with
      | raw value =>
          obtain ⟨rfl, hcontext⟩ := h
          rw [(extractFromRow_raw env column hcontext hleaves).1]
      | processed value =>
          obtain ⟨converted, hconverted, hsame⟩ := h
          rw [hconverted, Option.bind_some]
          exact (extractProcessed_spec env column (hsame.symm env) asString).1

/-! ## strings of variants -/

/-- What a variant is parsed to. -/
def variantValue (rawColumnValue : String) : Option ω :=
  (env.jsonColumnVariantParser rawColumnValue).or (env.xmlColumnVariantParser rawColumnValue)

/-- A raw variant prints as it came: a null is not represented as a string, a text is not
empty, and what it is parsed to, if anything, is printed as the very same text. -/
def Canonical : Option String → Prop
  | none => env.isRepresentNullAsStringNull = false
  | some rawColumnValue => rawColumnValue ≠ "" ∧ ∀ value ∈ variantValue env rawColumnValue,
      if env.isNull value = true then
        env.isRepresentNullAsStringNull = true ∧ rawColumnValue = "NULL"
      else env.stringify value = some (some rawColumnValue)

omit [DecidableEq ν] in
theorem type_of_variant (hvariant : isVariant column = true) :
    column.type = .variant ∨ column.type = .object ∨ column.type = .array ∨ column.type = .map := by
  unfold isVariant at hvariant
  simp only [Bool.or_eq_true, Bool.and_eq_true, decide_eq_true_eq] at hvariant
  obtain htype | ⟨htypes, -⟩ := hvariant
  · exact Or.inl htype
  · exact Or.inr (by simpa [or_assoc] using htypes)

omit [DecidableEq ν] in
theorem toStringOf_variant (hvariant : isVariant column = true) (value : JsValue ν ω) :
    toStringOf env column value = (toStringFromRawValue env value).map (·, value) := by
  unfold toStringOf
  obtain htype | htype | htype | htype := type_of_variant column hvariant
  · rw [htype]
  · rw [htype]
  · rw [htype]
  · rw [htype]

theorem convert_variant (hvariant : isVariant column = true) (rawColumnValue : String)
    (context : FieldsMetadata FieldMetadata) :
    convert env column rawColumnValue context = (convertRawVariant env rawColumnValue, context) := by
  unfold convert
  obtain htype | htype | htype | htype := type_of_variant column hvariant
  · simp only [htype]
  · simp only [htype, hvariant, if_true]
  · simp only [htype, hvariant, if_true]
  · simp only [htype, hvariant, if_true]

/-- The string of a variant that has been processed is the raw value when it prints as it
came. -/
theorem processed_string_iff (hvariant : isVariant column = true) {raw : Option String}
    {converted : JsValue ν ω} (hconverted : convertedValue env column raw = some converted) :
    (extractProcessed env column converted true).1.map JsValue.observe =
        some (ofRaw raw : JsValue ν ω).observe ↔ Canonical env raw := by
  have hextract : (extractProcessed env column converted true).1 =
      toStringFromRawValue env converted := by
    unfold extractProcessed
    simp only [if_true, toStringOf_variant env column hvariant]
    cases toStringFromRawValue env converted <;> rfl
  rw [hextract]
  cases raw with
  | none =>
      obtain rfl := Option.some.inj hconverted
      simp only [toStringFromRawValue, getNullValue, ofRaw, Canonical]
      cases env.isRepresentNullAsStringNull <;> simp [JsValue.observe]
  | some rawColumnValue =>
      simp only [convertedValue, convert_variant env column hvariant, convertRawVariant] at hconverted
      simp only [ofRaw, Canonical, variantValue]
      by_cases hempty : rawColumnValue = ""
      · rw [if_pos hempty] at hconverted
        obtain rfl := Option.some.inj hconverted
        simp [hempty, toStringFromRawValue, JsValue.observe]
      · rw [if_neg hempty] at hconverted
        obtain ⟨value, hvalue, rfl⟩ : ∃ value, (env.jsonColumnVariantParser rawColumnValue).or
            (env.xmlColumnVariantParser rawColumnValue) = some value ∧ .variant value = converted := by
          cases hjson : env.jsonColumnVariantParser rawColumnValue with
          | some value =>
              rw [hjson] at hconverted
              exact ⟨value, rfl, Option.some.inj hconverted⟩
          | none =>
              rw [hjson] at hconverted
              exact Option.map_eq_some_iff.mp hconverted
        simp only [hvalue, Option.mem_some_iff, forall_eq', toStringFromRawValue, getNullValue]
        by_cases hnull : env.isNull value = true
        · rw [if_pos hnull, if_pos hnull]
          cases env.isRepresentNullAsStringNull with
          | true => simp [hempty, JsValue.observe, eq_comm]
          | false => simp [JsValue.observe]
        · rw [if_neg hnull, if_neg hnull]
          cases env.stringify value with
          | none => simp
          | some text => cases text <;> simp [hempty, ofStringify, JsValue.observe]

/-! ## runs -/

variable (columns : List ColumnMetadata)

/-- The reads of one column. -/
def reads (index : Nat) (history : List Access) : List Bool :=
  history.filterMap fun access =>
    if resolveColumnIdentifierToColumn columns access.identifier = some index then
      some access.asString
    else none

/-- A cell after some reads. -/
def slotAfter (slot : Slot ν ω × FieldsMetadata FieldMetadata) (asStrings : List Bool) :
    Slot ν ω × FieldsMetadata FieldMetadata :=
  asStrings.foldl (fun slot asString => (extractFromRow env column slot.1 slot.2 asString).2) slot

/-- **Runs**: reads keep what a cell can hold, and process it when one of them does not
leave it alone and it can be converted. -/
theorem slotAfter_reached {raw : Option String} (asStrings : List Bool)
    {slot : Slot ν ω × FieldsMetadata FieldMetadata} (h : Reached env column raw slot.1 slot.2) :
    Reached env column raw (slotAfter env column slot asStrings).1
        (slotAfter env column slot asStrings).2 ∧
      (slotAfter env column slot asStrings).1.isProcessed =
        (slot.1.isProcessed || ((asStrings.any fun asString => !leavesRaw column asString) &&
          (convertedValue env column raw).isSome)) := by
  induction asStrings generalizing slot with
  | nil => exact ⟨h, by simp [slotAfter]⟩
  | cons asString asStrings ih =>
      obtain ⟨hreached, hprocessed⟩ := ih (h.step env column asString)
      refine ⟨hreached, ?_⟩
      have hstep := isProcessed_step env column h asString
      rw [slotAfter, List.foldl_cons, ← slotAfter, hprocessed, hstep, List.any_cons]
      cases (slot.1.isProcessed) <;> cases leavesRaw column asString <;>
        cases (convertedValue env column raw).isSome <;> simp

/-- An access reads one cell. -/
theorem getColumnValue_eq {row : Row ν ω} {access : Access} {index : Nat} {column : ColumnMetadata}
    (hresolve : resolveColumnIdentifierToColumn columns access.identifier = some index)
    (hcolumn : columns[index]? = some column) :
    getColumnValue env columns row access =
      ((extractFromRow env column (row.slots index) (row.contexts index) access.asString).1,
        ⟨Function.update row.slots index
            (extractFromRow env column (row.slots index) (row.contexts index) access.asString).2.1,
          Function.update row.contexts index
            (extractFromRow env column (row.slots index) (row.contexts index) access.asString).2.2⟩) := by
  unfold getColumnValue
  simp only [hresolve, hcolumn]

omit [DecidableEq ν] in
theorem resolve_lt {identifier : ColumnIdentifier} {index : Nat}
    (h : resolveColumnIdentifierToColumn columns identifier = some index) :
    index < columns.length := by
  cases identifier with
  | name name =>
      simp only [resolveColumnIdentifierToColumn] at h
      exact (List.findIdx?_eq_some_iff_getElem.mp h).1
  | index i =>
      simp only [resolveColumnIdentifierToColumn] at h
      by_cases hlt : i < columns.length
      · rw [if_pos hlt] at h
        rw [← Option.some.inj h]
        exact hlt
      · rw [if_neg hlt] at h
        cases h

theorem reads_cons (index : Nat) (access : Access) (history : List Access) :
    reads columns index (access :: history) =
      if resolveColumnIdentifierToColumn columns access.identifier = some index then
        access.asString :: reads columns index history
      else reads columns index history := by
  rw [reads, List.filterMap_cons]
  split
  · rename_i hnone
    rw [if_neg (by intro h; simp [h] at hnone)]
    rfl
  · rename_i asString hsome
    split at hsome
    · rename_i hresolve
      rw [if_pos hresolve, Option.some.inj hsome]
      rfl
    · cases hsome

theorem any_reads_iff (index : Nat) (history : List Access) :
    (∃ asString ∈ reads columns index history, asString = false) ↔
      ∃ earlier ∈ history, resolveColumnIdentifierToColumn columns earlier.identifier = some index ∧
        earlier.asString = false := by
  simp only [reads, List.mem_filterMap]
  constructor
  · rintro ⟨asString, ⟨earlier, hearlier, hread⟩, rfl⟩
    split at hread
    · rename_i hresolve
      exact ⟨earlier, hearlier, hresolve, Option.some.inj hread⟩
    · cases hread
  · rintro ⟨earlier, hearlier, hresolve, hasString⟩
    exact ⟨false, ⟨earlier, hearlier, by rw [if_pos hresolve, hasString]⟩, rfl⟩

/-- After any accesses a cell is what the reads of its own column make of it. -/
theorem accessed_slot {index : Nat} {column : ColumnMetadata} (hcolumn : columns[index]? = some column)
    (history : List Access) (row : Row ν ω) :
    ((accessed env columns row history).slots index, (accessed env columns row history).contexts index) =
      slotAfter env column (row.slots index, row.contexts index) (reads columns index history) := by
  induction history generalizing row with
  | nil => rfl
  | cons access history ih =>
      rw [accessed, List.foldl_cons, ← accessed, ih, reads_cons]
      cases hresolve : resolveColumnIdentifierToColumn columns access.identifier with
      | none =>
          simp only [reduceCtorEq, if_false]
          unfold getColumnValue
          simp only [hresolve]
      | some other =>
          have hother := resolve_lt columns hresolve
          rw [getColumnValue_eq env columns hresolve (List.getElem?_eq_getElem hother)]
          by_cases hindex : other = index
          · subst hindex
            obtain rfl := Option.some.inj ((List.getElem?_eq_getElem hother).symm.trans hcolumn)
            simp only [if_true, Function.update_self]
            rfl
          · simp only [Option.some.injEq, hindex, if_false, Function.update_of_ne (Ne.symm hindex)]

omit [DecidableEq ν] in
theorem any_leavesRaw (hvariant : isVariant column = true) (asStrings : List Bool) :
    (asStrings.any fun asString => !leavesRaw column asString) = true ↔
      ∃ asString ∈ asStrings, asString = false := by
  simp [leavesRaw, hvariant]

/-- What cannot be converted does not print otherwise than it came. -/
theorem canonical_of_not_converted (hvariant : isVariant column = true) {raw : Option String}
    (h : convertedValue env column raw = none) : Canonical env raw := by
  cases raw with
  | none => cases h
  | some rawColumnValue =>
      simp only [convertedValue, convert_variant env column hvariant, convertRawVariant] at h
      by_cases hempty : rawColumnValue = ""
      · rw [if_pos hempty] at h
        cases h
      · rw [if_neg hempty] at h
        refine ⟨hempty, fun value hvalue => ?_⟩
        simp only [variantValue] at hvalue
        cases hjson : env.jsonColumnVariantParser rawColumnValue with
        | some value => simp [hjson] at h
        | none =>
            simp only [hjson, Option.map_eq_none_iff] at h
            simp [hjson, h] at hvalue

/-- A read of one cell after others. -/
theorem stale_iff {raw : Option String} {slot : Slot ν ω} {context : FieldsMetadata FieldMetadata}
    {asStrings : List Bool} {asString : Bool} (hreached : Reached env column raw slot context)
    (hprocessed : slot.isProcessed = ((asStrings.any fun asString => !leavesRaw column asString) &&
      (convertedValue env column raw).isSome)) :
    (extractFromRow env column slot context asString).1.map JsValue.observe =
        (extractFromRow env column (.raw raw) (initialMetadata column) asString).1.map
          JsValue.observe ↔
      (isVariant column = true → asString = true → (∃ asString ∈ asStrings, asString = false) →
        Canonical env raw) := by
  by_cases hleaves : leavesRaw column asString = true
  · obtain ⟨rfl, hvariant⟩ := Bool.and_eq_true_iff.mp hleaves
    cases slot with
    | raw value =>
        -- no earlier read has converted the value
        have hfresh := extractFromRow_eq_fresh env column hreached true (Or.inr rfl)
        refine iff_of_true hfresh fun _ _ hearlier => canonical_of_not_converted env column hvariant ?_
        rw [(any_leavesRaw column hvariant asStrings).mpr hearlier, Bool.true_and] at hprocessed
        exact Option.not_isSome_iff_eq_none.mp (by rw [← hprocessed]; simp [Slot.isProcessed])
    | processed value =>
        obtain ⟨converted, hconverted, hsame⟩ := hreached
        have hearlier := (any_leavesRaw column hvariant asStrings).mp
          (Bool.and_eq_true_iff.mp hprocessed.symm).1
        have hraw : (extractFromRow env column (.raw raw) (initialMetadata column) true).1 =
            some (ofRaw raw : JsValue ν ω) := by
          simp only [extractFromRow, hvariant, Bool.and_true, if_true]
        have hvalue : (extractFromRow env column (.processed value) context true).1.map
            JsValue.observe = (extractProcessed env column converted true).1.map JsValue.observe :=
          (extractProcessed_spec env column (hsame.symm env) true).1
        rw [hraw, Option.map_some, hvalue, processed_string_iff env column hvariant hconverted]
        exact ⟨fun h _ _ _ => h, fun h => h hvariant rfl hearlier⟩
  · have hfresh := extractFromRow_eq_fresh env column hreached asString
      (Or.inl (by simpa using hleaves))
    refine iff_of_true hfresh fun hvariant hstring => ?_
    exact absurd (by rw [leavesRaw, hstring, hvariant]; rfl) hleaves

/-- **History**: an access returns what it returns on a fresh row, whatever has been read
before, exactly when it is not the string of a variant that has been read as a value and
does not print as it came. -/
theorem getColumnValue_eq_fresh_iff (rowset : Nat → Option String) (history : List Access)
    (access : Access) :
    (getColumnValue env columns (accessed env columns (freshRow columns rowset) history)
        access).1.map JsValue.observe =
      (getColumnValue env columns (freshRow columns rowset) access).1.map JsValue.observe ↔
    ∀ index column, resolveColumnIdentifierToColumn columns access.identifier = some index →
      columns[index]? = some column → isVariant column = true → access.asString = true →
      (∃ earlier ∈ history, resolveColumnIdentifierToColumn columns earlier.identifier = some index ∧
        earlier.asString = false) → Canonical env (rowset index) := by
  cases hresolve : resolveColumnIdentifierToColumn columns access.identifier with
  | none =>
      unfold getColumnValue
      simp [hresolve]
  | some index =>
      obtain ⟨column, hcolumn⟩ : ∃ column, columns[index]? = some column :=
        ⟨_, List.getElem?_eq_getElem (resolve_lt columns hresolve)⟩
      rw [getColumnValue_eq env columns hresolve hcolumn, getColumnValue_eq env columns hresolve hcolumn]
      have hfresh : (freshRow columns rowset : Row ν ω).slots index = .raw (rowset index) ∧
          (freshRow columns rowset : Row ν ω).contexts index = initialMetadata column := by
        simp [freshRow, hcolumn]
      have hslot := accessed_slot env columns hcolumn history (freshRow columns rowset)
      rw [hfresh.1, hfresh.2] at hslot
      have hinitial : Reached env column (rowset index)
          (.raw (rowset index) : Slot ν ω) (initialMetadata column) := ⟨rfl, Or.inl rfl⟩
      obtain ⟨hreached, hprocessed⟩ := @slotAfter_reached ν ω _ env column (rowset index)
        (reads columns index history) (.raw (rowset index), initialMetadata column) hinitial
      rw [← hslot] at hreached hprocessed
      simp only [Slot.isProcessed, Bool.false_or] at hreached hprocessed
      simp only [hfresh.1, hfresh.2]
      have hcondition : (∀ index' column', some index = some index' → columns[index']? = some column' →
          isVariant column' = true → access.asString = true →
          (∃ earlier ∈ history, resolveColumnIdentifierToColumn columns earlier.identifier =
            some index' ∧ earlier.asString = false) → Canonical env (rowset index')) ↔
          (isVariant column = true → access.asString = true →
            (∃ asString ∈ reads columns index history, asString = false) →
            Canonical env (rowset index)) := by
        rw [any_reads_iff]
        constructor
        · exact fun h => h index column rfl hcolumn
        · intro h index' column' hindex hcolumn'
          obtain rfl := Option.some.inj hindex
          obtain rfl := Option.some.inj (hcolumn.symm.trans hcolumn')
          exact h
      rw [hcondition]
      exact stale_iff env column hreached hprocessed

end

/-! ## a variant with a blank -/

/-- An engine that knows one text, which it prints without the blank. -/
def variantEngine : Engine Int (Json Int) where
  toRuntime := sampleRuntime
  rational n := some n
  round x := some x
  bigNumber _ := none
  bigInt s := s.toInt?
  base64 _ := ""
  offset _ _ _ := "+0000".toList
  formatMoment _ _ _ format := String.ofList format
  jsonColumnVariantParser s :=
    if s = "\x7b\"a\": 1\x7d" then some (.object [("a", .number 1)]) else none
  xmlColumnVariantParser _ := none
  isNull
    | .null => true
    | _ => false
  stringify
    | .object _ => some (some "\x7b\"a\":1\x7d")
    | _ => some (some "null")
  stringifyValue _ := none
  isRepresentNullAsStringNull := true

def variantColumn : ColumnMetadata where
  name := "V"
  type := .variant
  scale := 0
  fields := none
  resultVersion := some "1"
  params := sampleParameters
  treatIntegerAsBigInt := false

/-- The string of a variant changes when its value has been read. -/
theorem variant_string_changes :
    (getColumnValue variantEngine [variantColumn]
      (accessed variantEngine [variantColumn]
        (freshRow [variantColumn] fun _ => some "\x7b\"a\": 1\x7d") [⟨.index 0, false⟩])
      ⟨.name "V", true⟩).1 = some (.string "\x7b\"a\":1\x7d") ∧
    (getColumnValue variantEngine [variantColumn]
      (freshRow [variantColumn] fun _ => some "\x7b\"a\": 1\x7d") ⟨.name "V", true⟩).1 =
      some (.string "\x7b\"a\": 1\x7d") :=
  ⟨rfl, rfl⟩

end Column

end SnowflakeConnector
