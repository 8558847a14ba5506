import SnowflakeConnector.Column.Rows
import SnowflakeConnector.Loops

/-!
# SnowflakeConnector.Column.Faithful

What a structured value should be converted to, said over the same metadata and without
the formats: nulls stay null, texts, numbers and booleans are kept, times and timestamps
are the moments that their texts denote, to the digits that their scale allows, and
objects, arrays and maps keep their keys, their length and their order.

* `converted_iff_sound` -- a value of any node is converted to what it should be exactly
  when it is `Sound`.
* `row_converted_iff_sound` -- and so is a row of a structured column.
-/

namespace SnowflakeConnector

namespace Column

open Loops

/-! ## recursion over the metadata -/

namespace FieldMetadata

def type : FieldMetadata → SqlType
  | ⟨_, type, _, _, _⟩ => type

section

variable {γ : Type*} (node : SqlType → Nat → Bool → List (String × γ) → γ)

mutual

/-- What is said of a node by what is said of its fields. -/
def fold : FieldMetadata → γ
  | ⟨_, type, scale, structured, fields⟩ => node type scale structured (foldFields fields)

def foldFields : List FieldMetadata → List (String × γ)
  | [] => []
  | field :: fields => (field.name, fold field) :: foldFields fields

end

theorem foldFields_eq_map (fields : List FieldMetadata) :
    foldFields node fields = fields.map fun field => (field.name, fold node field) := by
  induction fields with
  | nil => rw [foldFields, List.map_nil]
  | cons field fields ih => rw [foldFields, ih, List.map_cons]

theorem fold_mk (name : String) (type : SqlType) (scale : Nat) (structured : Bool)
    (fields : List FieldMetadata) :
    fold node ⟨name, type, scale, structured, fields⟩ =
      node type scale structured (fields.map fun field => (field.name, fold node field)) := by
  rw [fold, foldFields_eq_map]

end

end FieldMetadata

theorem fieldNamed_map {γ : Type*} (f : FieldMetadata → γ) (fields : List FieldMetadata) (key : String) :
    fieldNamed Prod.fst (fields.map fun field => (field.name, f field)) key =
      (fieldNamed FieldMetadata.name fields key).map fun field => (field.name, f field) := by
  rw [fieldNamed, fieldNamed, ← List.map_reverse, List.find?_map]
  rfl

/-! ## what values mean -/

section

variable {ν : Type*} (env : Runtime ν) (params : StatementParameters)
  (denotes : SqlType → String → Option Moment)

/-- The nanoseconds that a scale leaves. -/
def fraction (scale nanoSeconds : Nat) : Nat := nanoSeconds - nanoSeconds % 10 ^ (9 - scale)

/-- The boolean that a value stands for; as a key of a map it is a text. -/
def booleanOf : Json ν → Option Bool
  | .bool b => some b
  | .string s => if s = "true" then some true else if s = "false" then some false else none
  | _ => none

/-- The moment that a text of a date, a time or a timestamp denotes. -/
def momentOf (type : SqlType) : Json ν → Option Moment
  | .string s => denotes type s
  | _ => none

/-- A value, not null, is one of the leaf's type; a key of a map is a text. -/
def WellTypedLeaf (type : SqlType) (json : Json ν) : Prop :=
  match type with
  | .text => ∃ s, json = .string s
  | .fixed | .real => (∃ n, json = .number n) ∨ ∃ s, json = .string s
  | .boolean => (booleanOf json).isSome = true
  | .binary => ∃ s, json = .string s
  | .date | .time | .timestampLtz | .timestampNtz | .timestampTz =>
      (momentOf denotes type json).isSome = true
  | _ => False

/-- A value, not null, of a leaf is converted to what it means. -/
def FaithfulLeaf (type : SqlType) (scale : Nat) (json : Json ν) (value : Value ν) : Prop :=
  match type with
  | .text => value = .json json
  | .fixed | .real => value = .json (.number (number env json))
  | .boolean => ∃ b, booleanOf json = some b ∧ value = .json (.bool b)
  | .binary => ∃ data, value = .bytes data
  | .date => ∃ t m, momentOf denotes type json = some m ∧ value = .sfDate t ∧
      t.epochSeconds = m.unix
  | .time => ∃ t m, momentOf denotes type json = some m ∧ value = .sfTime t ∧
      t.epochSeconds = m.midnightSeconds ∧ t.nanoSeconds = fraction scale m.nanoSeconds
  | .timestampLtz | .timestampNtz | .timestampTz =>
      ∃ t m, momentOf denotes type json = some m ∧ value = .sfDate t ∧
        t.epochSeconds = m.unix ∧ t.nanoSeconds = fraction scale m.nanoSeconds
  | _ => False

/-- The leaf does not run into one of the cases that the conversion gets wrong. -/
def SoundLeaf (type : SqlType) (scale : Nat) (json : Json ν) : Prop :=
  match type with
  | .text => True
  | .fixed | .real => json ≠ .null
  | .boolean => json ≠ .null ∧ json ≠ .bool false
  | .binary => json ≠ .null ∧ ∃ format, leafFormat params type = some format ∧
      (format.toUpper = "HEX" ∨ format.toUpper = "BASE64")
  | .time | .timestampLtz | .timestampNtz | .timestampTz =>
      json ≠ .null ∧ (leafFormat params type).isSome = true ∧
        ∀ m, momentOf denotes type json = some m → fraction scale m.nanoSeconds = 0
  | _ => False

/-- Two keys of a map become the same key. -/
def SameKeyText (type : SqlType) (a b : String) : Prop :=
  match type with
  | .fixed | .real => env.numberOfString a = env.numberOfString b
  | .boolean | .text | .object | .array | .map => a = b
  | _ => False

/-- A value of the type: null, a leaf, or an object, array or map of values; an array has
one field, a map those of its keys and its values. -/
def wellTypedNode (type : SqlType) (_scale : Nat) (structured : Bool)
    (fields : List (String × (Json ν → Prop))) (json : Json ν) : Prop :=
  match type with
  | .object => structured = true → json = .null ∨ ∃ members, json = .object members ∧
      ∀ member ∈ members, ∃ field ∈ fieldNamed Prod.fst fields member.1, field.2 member.2
  | .array => structured = true → ∃ field, fields = [field] ∧
      (json = .null ∨ ∃ items, json = .array items ∧ ∀ item ∈ items, field.2 item)
  | .map => structured = true → ∃ keyField valueField, fields = [keyField, valueField] ∧
      (json = .null ∨ ∃ members, json = .object members ∧
        ∀ member ∈ members, keyField.2 (.string member.1) ∧ valueField.2 member.2)
  | type => json = .null ∨ WellTypedLeaf denotes type json

def WellTyped : FieldMetadata → Json ν → Prop := FieldMetadata.fold (wellTypedNode denotes)

/-- An object, an array or a map is converted to what it means: null stays null, without
fields it stays as it is, and else every part of it is converted, in its place. -/
def FaithfulParts (structured : Bool) (json : Json ν) (value : Value ν) (parts : Prop) : Prop :=
  (json = .null ∧ value = .json .null) ∨
    (json ≠ .null ∧ if structured then parts else value = .json json)

/-- A value is converted to what it means. -/
def faithfulNode (type : SqlType) (scale : Nat) (structured : Bool)
    (fields : List (String × (Json ν → Value ν → Prop))) (json : Json ν) (value : Value ν) : Prop :=
  match type with
  | .object => FaithfulParts structured json value <|
      ∃ members results, json = .object members ∧ value = .object results ∧
        List.Forall₂ (fun member result => result.1 = member.1 ∧
          ∃ field ∈ fieldNamed Prod.fst fields member.1, field.2 member.2 result.2) members results
  | .array => FaithfulParts structured json value <|
      ∃ items results field, json = .array items ∧ value = .array results ∧ fields = [field] ∧
        List.Forall₂ field.2 items results
  | .map => FaithfulParts structured json value <|
      ∃ members entries keyField valueField, json = .object members ∧ value = .map entries ∧
        fields = [keyField, valueField] ∧
        List.Forall₂ (fun member entry => keyField.2 (.string member.1) entry.1 ∧
          valueField.2 member.2 entry.2) members entries
  | type => (json = .null ∧ value = .json .null) ∨
      (json ≠ .null ∧ FaithfulLeaf env denotes type scale json value)

def Faithful : FieldMetadata → Json ν → Value ν → Prop :=
  FieldMetadata.fold (faithfulNode env denotes)

/-- No null but a text, no `false`, no date, no fraction of a second, no key that is
lost. -/
def soundNode (type : SqlType) (scale : Nat) (structured : Bool)
    (fields : List (String × SqlType × (Json ν → Prop))) (json : Json ν) : Prop :=
  match type with
  | .object => structured = true → ∃ members, json = .object members ∧
      ∀ member ∈ members, member.1 ≠ "__proto__" ∧
        ∀ field ∈ fieldNamed Prod.fst fields member.1, field.2.2 member.2
  | .array => structured = true → ∃ items, json = .array items ∧
      ∀ field ∈ fields, ∀ item ∈ items, field.2.2 item
  | .map => structured = true → ∃ members, json = .object members ∧
      ∀ keyField valueField, fields = [keyField, valueField] →
        (∀ member ∈ members, keyField.2.2 (.string member.1) ∧ valueField.2.2 member.2) ∧
        members.Pairwise fun a b => ¬ SameKeyText env keyField.2.1 b.1 a.1
  | type => SoundLeaf params denotes type scale json

def Sound (field : FieldMetadata) : Json ν → Prop :=
  (FieldMetadata.fold (fun type scale structured fields =>
    (type, soundNode env params denotes type scale structured fields)) field).2

/-- Moment finds in a text, by the format of the session, what the text denotes. -/
def MomentReads : Prop :=
  ∀ type format scale s m, leafFormat params type = some format → denotes type s = some m →
    env.moment (type = .timestampNtz) (convertSnowflakeFormatToMomentFormat format scale)
      (.string s) = some m

end

/-! ## objects keep their keys -/

section

variable {ν : Type*} [DecidableEq ν]

omit [DecidableEq ν] in
theorem foldl_setMember (members : List (String × Value ν)) (result : List (String × Value ν)) :
    members.foldl (fun result member => setMember result member.1 member.2) result =
      result ++ members.filter fun member => member.1 ≠ "__proto__" := by
  induction members generalizing result with
  | nil => rw [List.foldl_nil, List.filter_nil, List.append_nil]
  | cons member members ih =>
      rw [List.foldl_cons, ih, setMember]
      by_cases hproto : member.1 = "__proto__"
      · rw [if_pos hproto, List.filter_cons_of_neg (by simp [hproto])]
      · rw [if_neg hproto, List.filter_cons_of_pos (by simp [hproto]), List.append_assoc]
        rfl

/-! ## maps keep their entries -/

theorem length_setEntry (entries : List (Value ν × Value ν)) (key value : Value ν) :
    (setEntry entries key value).length =
      if entries.any (sameKey key ·.1) then entries.length else entries.length + 1 := by
  rw [setEntry]
  split
  · rw [List.length_map]
  · rw [List.length_append, List.length_singleton]

theorem length_foldl_setEntry_le (added entries : List (Value ν × Value ν)) :
    (added.foldl (fun entries entry => setEntry entries entry.1 entry.2) entries).length ≤
      entries.length + added.length := by
  induction added generalizing entries with
  | nil => simp
  | cons entry added ih =>
      rw [List.foldl_cons, List.length_cons]
      have hset := length_setEntry entries entry.1 entry.2
      have hle := ih (setEntry entries entry.1 entry.2)
      split at hset <;> omega

/-- Entries that have no key in common are all kept. -/
theorem foldl_setEntry {added entries : List (Value ν × Value ν)}
    (hadded : added.Pairwise fun a b => sameKey b.1 a.1 = false)
    (hentries : ∀ a ∈ added, ∀ b ∈ entries, sameKey a.1 b.1 = false) :
    added.foldl (fun entries entry => setEntry entries entry.1 entry.2) entries =
      entries ++ added := by
  induction added generalizing entries with
  | nil => simp
  | cons entry added ih =>
      obtain ⟨hentry, hadded⟩ := List.pairwise_cons.mp hadded
      have hnew : entries.any (sameKey entry.1 ·.1) = false := by
        simpa using fun a b hb => hentries entry (by simp) (a, b) hb
      rw [List.foldl_cons, setEntry, if_neg (by simp [hnew]), ih hadded]
      · simp
      · intro a ha b hb
        obtain hb | hb := List.mem_append.mp hb
        · exact hentries a (List.mem_cons_of_mem _ ha) b hb
        · obtain rfl := List.mem_singleton.mp hb
          exact hentry a ha

/-- If they are all kept, then they have no key in common. -/
theorem pairwise_of_length_foldl_setEntry {added entries : List (Value ν × Value ν)}
    (h : (added.foldl (fun entries entry => setEntry entries entry.1 entry.2) entries).length =
      entries.length + added.length) :
    (added.Pairwise fun a b => sameKey b.1 a.1 = false) ∧
      ∀ a ∈ added, ∀ b ∈ entries, sameKey a.1 b.1 = false := by
  induction added generalizing entries with
  | nil => simp
  | cons entry added ih =>
      rw [List.foldl_cons, List.length_cons] at h
      have hle := length_foldl_setEntry_le added (setEntry entries entry.1 entry.2)
      have hset := length_setEntry entries entry.1 entry.2
      have hnew : entries.any (sameKey entry.1 ·.1) = false := by
        by_contra hany
        rw [if_pos (by simpa using hany)] at hset
        omega
      rw [setEntry, if_neg (by simp [hnew])] at h
      obtain ⟨hadded, hentries⟩ := ih (by rw [h, List.length_append, List.length_singleton]; omega)
      refine ⟨List.pairwise_cons.mpr ⟨fun a ha => ?_, hadded⟩, fun a ha b hb => ?_⟩
      · exact hentries a ha entry (by simp)
      · obtain rfl | ha := List.mem_cons.mp ha
        · simp only [List.any_eq_false, Bool.not_eq_true] at hnew
          exact hnew b hb
        · exact hentries a ha b (List.mem_append_left _ hb)

/-- One turn of the loop over an object. -/
def convertMember {φ : Type*} (name : φ → String) (convert : φ → Json ν → Except ConvertError (Value ν))
    (fields : List φ) (member : String × Json ν) : Except ConvertError (String × Value ν) :=
  (mapField convert (fieldNamed name fields member.1) member.2).map (member.1, ·)

omit [DecidableEq ν] in
theorem convertMember_eq_ok_iff {φ : Type*} {name : φ → String}
    {convert : φ → Json ν → Except ConvertError (Value ν)} {fields : List φ}
    {member : String × Json ν} {result : String × Value ν} :
    convertMember name convert fields member = .ok result ↔ result.1 = member.1 ∧
      mapField convert (fieldNamed name fields member.1) member.2 = .ok result.2 := by
  obtain ⟨key, value⟩ := result
  rw [convertMember, map_eq_ok_iff]
  constructor
  · rintro ⟨_, hvalue, heq⟩
    obtain ⟨rfl, rfl⟩ := Prod.mk.inj heq
    exact ⟨rfl, hvalue⟩
  · rintro ⟨rfl, hvalue⟩
    exact ⟨value, hvalue, rfl⟩

omit [DecidableEq ν] in
theorem convertMembers_eq_ok_iff {φ : Type*} {name : φ → String}
    {convert : φ → Json ν → Except ConvertError (Value ν)} {fields : List φ}
    {members : List (String × Json ν)} {out : List (String × Value ν)} :
    convertMembers name convert fields members = .ok out ↔
      ∃ results, List.Forall₂ (fun member result => result.1 = member.1 ∧
          mapField convert (fieldNamed name fields member.1) member.2 = .ok result.2)
        members results ∧ out = results.filter fun result => result.1 ≠ "__proto__" := by
  have hbody : convertMembers name convert fields members =
      members.foldlM (fun result member => convertMember name convert fields member >>=
        fun pair => pure (setMember result pair.1 pair.2)) [] := by
    rw [convertMembers]
    congr 1
    funext result member
    rw [convertMember]
    cases mapField convert (fieldNamed name fields member.1) member.2 <;> rfl
  rw [hbody, foldlM_eq_ok_iff (convertMember name convert fields)
    (fun result pair => setMember result pair.1 pair.2)]
  simp only [foldl_setMember, List.nil_append, convertMember_eq_ok_iff]

/-- One turn of the loop over a map. -/
def convertEntry {φ : Type*} (convert : φ → Json ν → Except ConvertError (Value ν))
    (keyMetadata valueMetadata : φ) (member : String × Json ν) :
    Except ConvertError (Value ν × Value ν) := do
  let convertedKey ← convert keyMetadata (.string member.1)
  let convertedValue ← convert valueMetadata member.2
  pure (convertedKey, convertedValue)

omit [DecidableEq ν] in
theorem convertEntry_eq_ok_iff {φ : Type*} {convert : φ → Json ν → Except ConvertError (Value ν)}
    {keyMetadata valueMetadata : φ} {member : String × Json ν} {entry : Value ν × Value ν} :
    convertEntry convert keyMetadata valueMetadata member = .ok entry ↔
      convert keyMetadata (.string member.1) = .ok entry.1 ∧
        convert valueMetadata member.2 = .ok entry.2 := by
  rw [convertEntry]
  cases convert keyMetadata (.string member.1) with
  | error cause => simp [bind, Except.bind]
  | ok convertedKey =>
      cases convert valueMetadata member.2 with
      | error cause => simp [bind, Except.bind]
      | ok convertedValue => simp [bind, Except.bind, pure, Except.pure, Prod.ext_iff]

theorem convertEntries_eq_ok_iff {φ : Type*} {convert : φ → Json ν → Except ConvertError (Value ν)}
    {keyMetadata valueMetadata : φ} {members : List (String × Json ν)}
    {out : List (Value ν × Value ν)} :
    convertEntries convert keyMetadata valueMetadata members = .ok out ↔
      ∃ entries : List (Value ν × Value ν), List.Forall₂ (fun member entry =>
          convert keyMetadata (.string member.1) = .ok entry.1 ∧
          convert valueMetadata member.2 = .ok entry.2) members entries ∧
        out = entries.foldl (fun entries entry => setEntry entries entry.1 entry.2) [] := by
  have hbody : convertEntries convert keyMetadata valueMetadata members =
      members.foldlM (fun result member => convertEntry convert keyMetadata valueMetadata member >>=
        fun entry => pure (setEntry result entry.1 entry.2)) [] := by
    rw [convertEntries]
    congr 1
    funext result member
    rw [convertEntry]
    cases convert keyMetadata (.string member.1) with
    | error cause => rfl
    | ok convertedKey => cases convert valueMetadata member.2 <;> rfl
  rw [hbody, foldlM_eq_ok_iff (convertEntry convert keyMetadata valueMetadata)
    (fun result entry => setEntry result entry.1 entry.2)]
  simp only [convertEntry_eq_ok_iff]

end

/-! ## leaves -/

section

variable {ν : Type*} [DecidableEq ν] {env : Runtime ν} {params : StatementParameters}
  {denotes : SqlType → String → Option Moment}

/-- A value of a leaf is converted, and to what it means. -/
def LeafConverted (env : Runtime ν) (params : StatementParameters)
    (denotes : SqlType → String → Option Moment) (type : SqlType) (scale : Nat) (json : Json ν) : Prop :=
  ∃ value, mapLeafValue env params type scale json = .ok value ∧
    ((json = .null ∧ value = .json .null) ∨
      (json ≠ .null ∧ FaithfulLeaf env denotes type scale json value))

omit [DecidableEq ν] in
theorem momentOf_eq_some {type : SqlType} {json : Json ν} {m : Moment}
    (h : momentOf denotes type json = some m) : ∃ s, json = .string s ∧ denotes type s = some m := by
  cases json with
  | string s => exact ⟨s, rfl, h⟩
  | _ => simp [momentOf] at h

theorem toUpper_true : "true".toUpper = "TRUE" := by
  rw [String.toUpper, ← String.toList_inj, String.toList_map]
  rfl

theorem toUpper_false : "false".toUpper = "FALSE" := by
  rw [String.toUpper, ← String.toList_inj, String.toList_map]
  rfl

omit [DecidableEq ν] in
theorem leaf_boolean (scale : Nat) {json : Json ν}
    (hjson : json = .null ∨ WellTypedLeaf denotes .boolean json) :
    LeafConverted env params denotes .boolean scale json ↔
      SoundLeaf params denotes .boolean scale json := by
  obtain rfl | htyped := hjson
  · simp [LeafConverted, mapLeafValue, convertRawBoolean, SoundLeaf, Except.map]
  · simp only [LeafConverted, mapLeafValue, SoundLeaf, FaithfulLeaf]
    cases json with
    | bool b => cases b <;> simp [convertRawBoolean, Except.map, booleanOf]
    | string s =>
        have hcase : s = "true" ∨ s = "false" := by
          simp only [WellTypedLeaf, booleanOf] at htyped
          by_contra hno
          obtain ⟨htrue, hfalse⟩ := not_or.mp hno
          simp [htrue, hfalse] at htyped
        obtain rfl | rfl := hcase
        · simp [convertRawBoolean, Except.map, booleanOf, toUpper_true]
        · simp [convertRawBoolean, Except.map, booleanOf, toUpper_false]
    | _ => simp [WellTypedLeaf, booleanOf] at htyped

omit [DecidableEq ν] in
theorem leaf_binary (scale : Nat) {json : Json ν}
    (hjson : json = .null ∨ WellTypedLeaf denotes .binary json) :
    LeafConverted env params denotes .binary scale json ↔
      SoundLeaf params denotes .binary scale json := by
  simp only [LeafConverted, mapLeafValue, SoundLeaf, FaithfulLeaf, map_eq_ok_iff]
  constructor
  · rintro ⟨_, ⟨data, hdata, rfl⟩, h⟩
    obtain ⟨-, habs⟩ | ⟨hnull, -⟩ := h
    · exact absurd habs (by simp)
    · unfold convertRawBinary at hdata
      cases hformat : leafFormat params .binary with
      | none => simp [hformat] at hdata
      | some format =>
          simp only [hformat] at hdata
          by_cases hknown : format.toUpper = "HEX" ∨ format.toUpper = "BASE64"
          · exact ⟨hnull, format, rfl, hknown⟩
          · simp [hknown] at hdata
  · rintro ⟨hnull, format, hformat, hknown⟩
    obtain ⟨s, rfl⟩ := hjson.resolve_left hnull
    refine ⟨_, ⟨bufferFromHex s.toList, ?_, rfl⟩, Or.inr ⟨hnull, _, rfl⟩⟩
    simp only [convertRawBinary, hformat, if_pos hknown, bufferFrom]

omit [DecidableEq ν] in
/-- Moment is asked for the seconds alone, so that the fraction is gone. -/
theorem leaf_of_moment (make : SfTimestamp ν → Value ν) {type : SqlType} {scale : Nat} {json : Json ν}
    {seconds : Moment → Int} {converted : Except ConvertError (SfTimestamp ν)}
    (hinjective : Function.Injective make) (hmake : ∀ t, make t ≠ .json .null)
    (hleaf : mapLeafValue env params type scale json = converted.map make)
    (hfaithful : ∀ value, FaithfulLeaf env denotes type scale json value ↔
      ∃ t m, momentOf denotes type json = some m ∧ value = make t ∧
        t.epochSeconds = seconds m ∧ t.nanoSeconds = fraction scale m.nanoSeconds)
    (hconverted : ∀ t, converted = .ok t → (leafFormat params type).isSome = true ∧ t.nanoSeconds = 0)
    (hread : ∀ m, momentOf denotes type json = some m → (leafFormat params type).isSome = true →
      ∃ t, converted = .ok t ∧ t.epochSeconds = seconds m)
    (hjson : json = .null ∨ (momentOf denotes type json).isSome = true) :
    LeafConverted env params denotes type scale json ↔
      json ≠ .null ∧ (leafFormat params type).isSome = true ∧
        ∀ m, momentOf denotes type json = some m → fraction scale m.nanoSeconds = 0 := by
  simp only [LeafConverted, hleaf, map_eq_ok_iff, hfaithful]
  constructor
  · rintro ⟨_, ⟨t, ht, rfl⟩, h⟩
    obtain ⟨-, habs⟩ | ⟨hnull, t', m, hm, heq, -, hnano⟩ := h
    · exact absurd habs (hmake t)
    · obtain rfl := hinjective heq
      obtain ⟨hformat, hzero⟩ := hconverted t ht
      refine ⟨hnull, hformat, fun m' hm' => ?_⟩
      obtain rfl := Option.some.inj (hm.symm.trans hm')
      rw [hzero] at hnano
      exact_mod_cast hnano.symm
  · rintro ⟨hnull, hformat, hfraction⟩
    obtain ⟨m, hm⟩ := Option.isSome_iff_exists.mp (hjson.resolve_left hnull)
    obtain ⟨t, ht, hseconds⟩ := hread m hm hformat
    have hzero := (hconverted t ht).2
    exact ⟨make t, ⟨t, ht, rfl⟩, Or.inr ⟨hnull, t, m, hm, rfl, hseconds,
      by rw [hzero, hfraction m hm, Nat.cast_zero]⟩⟩

omit [DecidableEq ν] in
theorem convertTimestampString_ok {utc : Bool} {json : Json ν} {format : Option String}
    {timezone : Timezone} {scale : Nat} {t : SfTimestamp ν}
    (h : convertTimestampString env utc json format timezone scale = .ok t) :
    format.isSome = true ∧ t.nanoSeconds = 0 := by
  cases format with
  | none => simp [convertTimestampString] at h
  | some format =>
      obtain rfl := Except.ok.inj h
      exact ⟨rfl, rfl⟩

omit [DecidableEq ν] in
theorem convertTimestampString_read (hmoment : MomentReads env params denotes) {type : SqlType}
    {json : Json ν} {m : Moment} (hm : momentOf denotes type json = some m)
    (hformat : (leafFormat params type).isSome = true) (timezone : Timezone) (scale : Nat) :
    ∃ t, convertTimestampString env (type = .timestampNtz) json (leafFormat params type) timezone
      scale = .ok t ∧ t.epochSeconds = m.unix := by
  obtain ⟨s, rfl, hs⟩ := momentOf_eq_some hm
  obtain ⟨format, hformat⟩ := Option.isSome_iff_exists.mp hformat
  have hread := hmoment type format scale s m hformat hs
  rw [hformat]
  exact ⟨_, rfl, by simp only [newSfTimestamp, hread, Option.map_some, Option.getD_some]⟩

omit [DecidableEq ν] in
theorem convertTimeString_ok {json : Json ν} {format : Option String}
    {timezone : Timezone} {scale : Nat} {t : SfTimestamp ν}
    (h : convertTimeString env json format timezone scale = .ok t) :
    format.isSome = true ∧ t.nanoSeconds = 0 := by
  cases format with
  | none => simp [convertTimeString] at h
  | some format =>
      obtain rfl := Except.ok.inj h
      exact ⟨rfl, rfl⟩

omit [DecidableEq ν] in
theorem convertTimeString_read (hmoment : MomentReads env params denotes)
    {json : Json ν} {m : Moment} (hm : momentOf denotes .time json = some m)
    (hformat : (leafFormat params .time).isSome = true) (timezone : Timezone) (scale : Nat) :
    ∃ t, convertTimeString env json (leafFormat params .time) timezone scale = .ok t ∧
      t.epochSeconds = m.midnightSeconds := by
  obtain ⟨s, rfl, hs⟩ := momentOf_eq_some hm
  obtain ⟨format, hformat⟩ := Option.isSome_iff_exists.mp hformat
  have hread : env.moment false (convertSnowflakeFormatToMomentFormat format scale) (.string s) =
      some m := hmoment .time format scale s m hformat hs
  rw [hformat]
  exact ⟨_, rfl, by simp only [newSfTimestamp, hread, Option.map_some, Option.getD_some]⟩

omit [DecidableEq ν] in
/-- **Leaves**: a null or a value of a leaf's type is converted to what it means when the
leaf is sound. -/
theorem leaf_converted_iff (hmoment : MomentReads env params denotes) (type : SqlType) (scale : Nat)
    {json : Json ν} (hjson : json = .null ∨ WellTypedLeaf denotes type json) :
    LeafConverted env params denotes type scale json ↔ SoundLeaf params denotes type scale json := by
  cases type with
  | text =>
      have hvalue : ∀ value : Value ν, (json = .null ∧ value = .json .null) ∨ (json ≠ .null ∧ value = .json json) ↔
          value = .json json := by
        intro value
        by_cases hnull : json = .null <;> simp [hnull]
      simp [LeafConverted, mapLeafValue, SoundLeaf, FaithfulLeaf, hvalue]
  | fixed => simp [LeafConverted, mapLeafValue, SoundLeaf, FaithfulLeaf]
  | real => simp [LeafConverted, mapLeafValue, SoundLeaf, FaithfulLeaf]
  | boolean => exact leaf_boolean scale hjson
  | binary => exact leaf_binary scale hjson
  | date =>
      simp only [LeafConverted, mapLeafValue, SoundLeaf]
      cases leafFormat params .date <;> simp [convertDateString, Except.map]
  | time =>
      exact leaf_of_moment .sfTime (fun _ _ h => Value.sfTime.inj h) (by simp) rfl
        (fun _ => Iff.rfl) (fun _ ht => convertTimeString_ok ht)
        (fun _ hm hformat => convertTimeString_read hmoment hm hformat _ _) hjson
  | timestampLtz =>
      exact leaf_of_moment .sfDate (fun _ _ h => Value.sfDate.inj h) (by simp) rfl
        (fun _ => Iff.rfl) (fun _ ht => convertTimestampString_ok ht)
        (fun _ hm hformat => convertTimestampString_read hmoment hm hformat _ _) hjson
  | timestampNtz =>
      exact leaf_of_moment .sfDate (fun _ _ h => Value.sfDate.inj h) (by simp) rfl
        (fun _ => Iff.rfl) (fun _ ht => convertTimestampString_ok ht)
        (fun _ hm hformat => convertTimestampString_read hmoment hm hformat _ _) hjson
  | timestampTz =>
      exact leaf_of_moment .sfDate (fun _ _ h => Value.sfDate.inj h) (by simp) rfl
        (fun _ => Iff.rfl) (fun _ ht => convertTimestampString_ok ht)
        (fun _ hm hformat => convertTimestampString_read hmoment hm hformat _ _) hjson
  | _ => simp [LeafConverted, mapLeafValue, SoundLeaf]

end

/-! ## the parts of a node -/

section

variable {ν : Type*} {env : Runtime ν} {params : StatementParameters}
  {denotes : SqlType → String → Option Moment} {name : String} {scale : Nat}
  {fields : List FieldMetadata} {json : Json ν} {value : Value ν}

theorem sound_fold_type (field : FieldMetadata) :
    (FieldMetadata.fold (fun type scale structured fields =>
      (type, soundNode env params denotes type scale structured fields)) field).1 = field.type := by
  obtain ⟨name, type, scale, structured, fields⟩ := field
  rw [FieldMetadata.fold_mk]
  rfl

theorem wellTyped_object : WellTyped denotes ⟨name, .object, scale, true, fields⟩ json ↔
    json = .null ∨ ∃ members, json = .object members ∧
      ∀ member ∈ members, ∃ field ∈ fieldNamed FieldMetadata.name fields member.1,
        WellTyped denotes field member.2 := by
  simp [WellTyped, FieldMetadata.fold_mk, wellTypedNode, fieldNamed_map]

theorem sound_object {members : List (String × Json ν)} :
    Sound env params denotes ⟨name, .object, scale, true, fields⟩ (.object members) ↔
      ∀ member ∈ members, member.1 ≠ "__proto__" ∧
        ∀ field ∈ fieldNamed FieldMetadata.name fields member.1,
          Sound env params denotes field member.2 := by
  simp [Sound, FieldMetadata.fold_mk, soundNode, fieldNamed_map]

theorem faithful_object {members : List (String × Json ν)} :
    Faithful env denotes ⟨name, .object, scale, true, fields⟩ (.object members) value ↔
      ∃ results, value = .object results ∧
        List.Forall₂ (fun member result => result.1 = member.1 ∧
          ∃ field ∈ fieldNamed FieldMetadata.name fields member.1,
            Faithful env denotes field member.2 result.2) members results := by
  simp [Faithful, FieldMetadata.fold_mk, faithfulNode, FaithfulParts, fieldNamed_map]

theorem wellTyped_array (h : WellTyped denotes ⟨name, .array, scale, true, fields⟩ json) :
    ∃ field, fields = [field] ∧ (json = .null ∨ ∃ items, json = .array items ∧
      ∀ item ∈ items, WellTyped denotes field item) := by
  match fields, h with
  | [], h => simp [WellTyped, FieldMetadata.fold_mk, wellTypedNode] at h
  | [field], h => simpa [WellTyped, FieldMetadata.fold_mk, wellTypedNode] using h
  | _ :: _ :: _, h => simp [WellTyped, FieldMetadata.fold_mk, wellTypedNode] at h

theorem sound_array {field : FieldMetadata} {items : List (Json ν)} :
    Sound env params denotes ⟨name, .array, scale, true, [field]⟩ (.array items) ↔
      ∀ item ∈ items, Sound env params denotes field item := by
  simp [Sound, FieldMetadata.fold_mk, soundNode]

theorem faithful_array {field : FieldMetadata} {items : List (Json ν)} :
    Faithful env denotes ⟨name, .array, scale, true, [field]⟩ (.array items) value ↔
      ∃ results, value = .array results ∧
        List.Forall₂ (Faithful env denotes field) items results := by
  simp [Faithful, FieldMetadata.fold_mk, faithfulNode, FaithfulParts]

theorem wellTyped_map (h : WellTyped denotes ⟨name, .map, scale, true, fields⟩ json) :
    ∃ keyField valueField, fields = [keyField, valueField] ∧
      (json = .null ∨ ∃ members, json = .object members ∧ ∀ member ∈ members,
        WellTyped denotes keyField (.string member.1 : Json ν) ∧
        WellTyped denotes valueField member.2) := by
  match fields, h with
  | [], h => simp [WellTyped, FieldMetadata.fold_mk, wellTypedNode] at h
  | [_], h => simp [WellTyped, FieldMetadata.fold_mk, wellTypedNode] at h
  | [keyField, valueField], h => simpa [WellTyped, FieldMetadata.fold_mk, wellTypedNode] using h
  | _ :: _ :: _ :: _, h => simp [WellTyped, FieldMetadata.fold_mk, wellTypedNode] at h

theorem sound_map {keyField valueField : FieldMetadata} {members : List (String × Json ν)} :
    Sound env params denotes ⟨name, .map, scale, true, [keyField, valueField]⟩ (.object members) ↔
      (∀ member ∈ members, Sound env params denotes keyField (.string member.1) ∧
        Sound env params denotes valueField member.2) ∧
      members.Pairwise fun a b => ¬ SameKeyText env keyField.type b.1 a.1 := by
  simp [Sound, FieldMetadata.fold_mk, soundNode, sound_fold_type]

theorem faithful_map {keyField valueField : FieldMetadata} {members : List (String × Json ν)} :
    Faithful env denotes ⟨name, .map, scale, true, [keyField, valueField]⟩ (.object members) value ↔
      ∃ entries, value = .map entries ∧
        List.Forall₂ (fun member entry => Faithful env denotes keyField (.string member.1) entry.1 ∧
          Faithful env denotes valueField member.2 entry.2) members entries := by
  simp [Faithful, FieldMetadata.fold_mk, faithfulNode, FaithfulParts]

end

/-! ## nodes -/

section

variable {ν : Type*} [DecidableEq ν] (env : Runtime ν) (params : StatementParameters)
  (denotes : SqlType → String → Option Moment)

/-- A value is converted, and to what it means. -/
def Converted (field : FieldMetadata) (json : Json ν) : Prop :=
  ∃ value, mapStructuredTypeValue env params field json = .ok value ∧
    Faithful env denotes field json value

variable {name : String} {scale : Nat} {fields : List FieldMetadata} {json : Json ν}

/-- A value without metadata of its fields stays as it is. -/
theorem converted_unstructured {type : SqlType} (htype : type = .object ∨ type = .array ∨ type = .map) :
    Converted env params denotes ⟨name, type, scale, false, fields⟩ json ∧
      Sound env params denotes ⟨name, type, scale, false, fields⟩ json := by
  have hvalue : (json = .null ∧ Value.json json = .json .null) ∨ json ≠ .null := by
    by_cases hnull : json = .null <;> simp [hnull]
  constructor
  · refine ⟨.json json, ?_, ?_⟩
    · obtain rfl | rfl | rfl := htype
      · rw [mapStructuredTypeValue_eq]; rfl
      · rw [mapStructuredTypeValue_eq]; rfl
      · rw [mapStructuredTypeValue_eq]; rfl
    · obtain rfl | rfl | rfl := htype <;>
        simpa [Faithful, FieldMetadata.fold_mk, faithfulNode, FaithfulParts] using hvalue
  · obtain rfl | rfl | rfl := htype <;> simp [Sound, FieldMetadata.fold_mk, soundNode]

/-- A null under metadata of its fields throws. -/
theorem not_converted_null {type : SqlType} (htype : type = .object ∨ type = .array ∨ type = .map)
    (htyped : WellTyped denotes ⟨name, type, scale, true, fields⟩ (.null : Json ν)) :
    ¬ Converted env params denotes ⟨name, type, scale, true, fields⟩ .null ∧
      ¬ Sound env params denotes ⟨name, type, scale, true, fields⟩ (.null : Json ν) := by
  constructor
  · rintro ⟨value, hvalue, -⟩
    rw [mapStructuredTypeValue_eq] at hvalue
    obtain rfl | rfl | rfl := htype
    · simp [nodeMetadata, convertJsonObject, Json.ownMembers] at hvalue
    · simp [nodeMetadata, convertJsonArray] at hvalue
    · obtain ⟨keyField, valueField, rfl, -⟩ := wellTyped_map htyped
      simp [nodeMetadata, convertJsonMap, Json.ownMembers] at hvalue
  · obtain rfl | rfl | rfl := htype
    · simp [Sound, FieldMetadata.fold_mk, soundNode]
    · simp [Sound, FieldMetadata.fold_mk, soundNode]
    · simp [Sound, FieldMetadata.fold_mk, soundNode]

/-- An object keeps its members when no key is `__proto__`, and each of them is converted
by its own field. -/
theorem converted_object {members : List (String × Json ν)}
    (hfields : ∀ member ∈ members, ∃ field ∈ fieldNamed FieldMetadata.name fields member.1,
      Converted env params denotes field member.2 ↔ Sound env params denotes field member.2) :
    Converted env params denotes ⟨name, .object, scale, true, fields⟩ (.object members) ↔
      Sound env params denotes ⟨name, .object, scale, true, fields⟩ (.object members) := by
  have hconvert : ∀ value,
      mapStructuredTypeValue env params ⟨name, .object, scale, true, fields⟩ (.object members) =
        .ok value ↔ ∃ out, convertMembers FieldMetadata.name (mapStructuredTypeValue env params) fields
          members = .ok out ∧ Value.object out = value := by
    intro value
    rw [mapStructuredTypeValue_eq]
    exact map_eq_ok_iff
  simp only [Converted, hconvert, sound_object, faithful_object]
  constructor
  · rintro ⟨_, ⟨out, hout, rfl⟩, results', heq, hfaithful⟩
    obtain rfl := Value.object.inj heq
    obtain ⟨results, hresults, rfl⟩ := convertMembers_eq_ok_iff.mp hout
    -- nothing is lost, so that the keys are not `__proto__`
    have hlength := hfaithful.length_eq.symm.trans hresults.length_eq
    have hkept := List.length_filter_eq_length_iff.mp hlength
    rw [List.filter_eq_self.mpr hkept] at hfaithful
    intro member hmember
    obtain ⟨field, hfield, hiff⟩ := hfields member hmember
    obtain ⟨result, hresult, ⟨hkey, hvalue⟩, -, field', hfield', hmeans⟩ :=
      exists_of_forall₂_left (forall₂_and.mpr ⟨hresults, hfaithful⟩) member hmember
    have hproto : member.1 ≠ "__proto__" := by
      rw [← hkey]
      simpa using hkept result hresult
    refine ⟨hproto, fun field'' hfield'' => ?_⟩
    obtain rfl := Option.mem_unique hfield hfield'
    obtain rfl := Option.mem_unique hfield hfield''
    rw [Option.mem_def.mp hfield] at hvalue
    exact hiff.mp ⟨result.2, hvalue, hmeans⟩
  · intro hsound
    obtain ⟨results, hresults⟩ : ∃ results : List (String × Value ν), List.Forall₂
        (fun member result => (result.1 = member.1 ∧ mapField (mapStructuredTypeValue env params)
            (fieldNamed FieldMetadata.name fields member.1) member.2 = .ok result.2) ∧
          (result.1 = member.1 ∧ ∃ field ∈ fieldNamed FieldMetadata.name fields member.1,
            Faithful env denotes field member.2 result.2) ∧ result.1 ≠ "__proto__")
        members results := by
      refine forall₂_of_forall_exists fun member hmember => ?_
      obtain ⟨field, hfield, hiff⟩ := hfields member hmember
      obtain ⟨hproto, hmember⟩ := hsound member hmember
      obtain ⟨value, hvalue, hmeans⟩ := hiff.mpr (hmember field hfield)
      refine ⟨(member.1, value), ⟨rfl, ?_⟩, ⟨rfl, field, hfield, hmeans⟩, hproto⟩
      rw [Option.mem_def.mp hfield]
      exact hvalue
    obtain ⟨hconverted, hrest⟩ := forall₂_and.mp hresults
    obtain ⟨hfaithful, hkept⟩ := forall₂_and.mp hrest
    have hfilter : results.filter (fun result => result.1 ≠ "__proto__") = results := by
      refine List.filter_eq_self.mpr fun result hresult => ?_
      obtain ⟨_, -, hproto⟩ := exists_of_forall₂_right hkept result hresult
      simpa using hproto
    exact ⟨_, ⟨results, convertMembers_eq_ok_iff.mpr ⟨results, hconverted, hfilter.symm⟩, rfl⟩,
      results, rfl, hfaithful⟩

/-- An array keeps its items. -/
theorem converted_array {field : FieldMetadata} {items : List (Json ν)}
    (hitems : ∀ item ∈ items,
      Converted env params denotes field item ↔ Sound env params denotes field item) :
    Converted env params denotes ⟨name, .array, scale, true, [field]⟩ (.array items) ↔
      Sound env params denotes ⟨name, .array, scale, true, [field]⟩ (.array items) := by
  have hconvert : ∀ value,
      mapStructuredTypeValue env params ⟨name, .array, scale, true, [field]⟩ (.array items) =
        .ok value ↔ ∃ out, List.Forall₂ (fun item result =>
          mapStructuredTypeValue env params field item = .ok result) items out ∧
          Value.array out = value := by
    intro value
    rw [mapStructuredTypeValue_eq]
    simp only [nodeMetadata, if_true, convertJsonArray, map_eq_ok_iff]
    exact exists_congr fun out => and_congr_left fun _ => mapM_eq_ok_iff
  simp only [Converted, hconvert, sound_array, faithful_array]
  constructor
  · rintro ⟨_, ⟨out, hout, rfl⟩, results, heq, hfaithful⟩ item hitem
    obtain rfl := Value.array.inj heq
    obtain ⟨result, -, hvalue, hmeans⟩ :=
      exists_of_forall₂_left (forall₂_and.mpr ⟨hout, hfaithful⟩) item hitem
    exact (hitems item hitem).mp ⟨result, hvalue, hmeans⟩
  · intro hsound
    obtain ⟨results, hresults⟩ := forall₂_of_forall_exists fun item hitem =>
      (hitems item hitem).mpr (hsound item hitem)
    obtain ⟨hconverted, hfaithful⟩ := forall₂_and.mp hresults
    exact ⟨_, ⟨results, hconverted, rfl⟩, results, rfl, hfaithful⟩

/-- A text is no value of a structured node, unless its fields are missing. -/
theorem key_unstructured {type : SqlType} (htype : type = .object ∨ type = .array ∨ type = .map)
    {structured : Bool} {a : String} {key : Value ν}
    (ha : WellTyped denotes ⟨name, type, scale, structured, fields⟩ (.string a : Json ν))
    (hkey : mapStructuredTypeValue env params ⟨name, type, scale, structured, fields⟩ (.string a) =
      .ok key) : key = .json (.string a) := by
  cases structured with
  | false =>
      rw [mapStructuredTypeValue_eq] at hkey
      obtain rfl | rfl | rfl := htype
      · exact (Except.ok.inj hkey).symm
      · exact (Except.ok.inj hkey).symm
      · exact (Except.ok.inj hkey).symm
  | true =>
      obtain rfl | rfl | rfl := htype
      · simp [wellTyped_object] at ha
      · obtain ⟨_, -, ha⟩ := wellTyped_array ha
        simp at ha
      · obtain ⟨_, _, -, ha⟩ := wellTyped_map ha
        simp at ha

omit [DecidableEq ν] in
theorem key_boolean {a : String} {key : Value ν}
    (ha : WellTypedLeaf denotes .boolean (.string a : Json ν))
    (hkey : mapLeafValue env params .boolean scale (.string a) = .ok key) :
    (a = "true" ∧ key = .json (.bool true)) ∨ (a = "false" ∧ key = .json (.bool false)) := by
  obtain ⟨value, hvalue, h⟩ := (leaf_boolean scale (Or.inr ha)).mpr (by simp [SoundLeaf])
  obtain rfl := Except.ok.inj (hvalue.symm.trans hkey)
  simp only [reduceCtorEq, false_and, ne_eq, not_false_eq_true, true_and, false_or, FaithfulLeaf] at h
  obtain ⟨b, hb, rfl⟩ := h
  rw [booleanOf] at hb
  by_cases htrue : a = "true"
  · rw [if_pos htrue] at hb
    exact Or.inl ⟨htrue, by rw [← Option.some.inj hb]⟩
  · rw [if_neg htrue] at hb
    by_cases hfalse : a = "false"
    · rw [if_pos hfalse] at hb
      exact Or.inr ⟨hfalse, by rw [← Option.some.inj hb]⟩
    · simp [if_neg hfalse] at hb

/-- What two keys of a map are converted to is the same when their texts are. -/
theorem sameKey_converted {field : FieldMetadata} {a b : String} {keyA keyB : Value ν}
    (ha : WellTyped denotes field (.string a : Json ν))
    (hb : WellTyped denotes field (.string b : Json ν))
    (hkeyA : mapStructuredTypeValue env params field (.string a) = .ok keyA)
    (hkeyB : mapStructuredTypeValue env params field (.string b) = .ok keyB) :
    sameKey keyA keyB = true ↔ SameKeyText env field.type a b := by
  obtain ⟨name, type, scale, structured, fields⟩ := field
  have hstructured : (type = .object ∨ type = .array ∨ type = .map) →
      (sameKey keyA keyB = true ↔ a = b) := by
    intro htype
    obtain rfl := key_unstructured env params denotes htype ha hkeyA
    obtain rfl := key_unstructured env params denotes htype hb hkeyB
    exact decide_eq_true_iff
  rw [mapStructuredTypeValue_eq] at hkeyA hkeyB
  have hreference : ∀ make : SfTimestamp ν → Value ν, (∀ t key, sameKey (make t) key = false) →
      ∀ converted, Except.map make converted = Except.ok (ε := ConvertError) keyA →
      ¬ sameKey keyA keyB = true := by
    intro make hmake converted hconverted
    obtain ⟨t, -, rfl⟩ := map_eq_ok_iff.mp hconverted
    simp [hmake]
  cases type with
  | text =>
      obtain rfl := Except.ok.inj hkeyA
      obtain rfl := Except.ok.inj hkeyB
      exact decide_eq_true_iff
  | fixed =>
      obtain rfl := Except.ok.inj hkeyA
      obtain rfl := Except.ok.inj hkeyB
      exact decide_eq_true_iff
  | real =>
      obtain rfl := Except.ok.inj hkeyA
      obtain rfl := Except.ok.inj hkeyB
      exact decide_eq_true_iff
  | boolean =>
      have ha' : WellTypedLeaf denotes .boolean (.string a : Json ν) := by
        simpa [WellTyped, FieldMetadata.fold_mk, wellTypedNode] using ha
      have hb' : WellTypedLeaf denotes .boolean (.string b : Json ν) := by
        simpa [WellTyped, FieldMetadata.fold_mk, wellTypedNode] using hb
      obtain ⟨rfl, rfl⟩ | ⟨rfl, rfl⟩ := key_boolean env params denotes ha' hkeyA <;>
        obtain ⟨rfl, rfl⟩ | ⟨rfl, rfl⟩ := key_boolean env params denotes hb' hkeyB <;>
        simp [sameKey, SameKeyText, FieldMetadata.type]
  | binary =>
      obtain ⟨data, -, rfl⟩ := map_eq_ok_iff.mp hkeyA
      simp [sameKey, SameKeyText, FieldMetadata.type]
  | date => exact iff_of_false (hreference .sfDate (fun _ _ => rfl) _ hkeyA) id
  | time => exact iff_of_false (hreference .sfTime (fun _ _ => rfl) _ hkeyA) id
  | timestampLtz => exact iff_of_false (hreference .sfDate (fun _ _ => rfl) _ hkeyA) id
  | timestampNtz => exact iff_of_false (hreference .sfDate (fun _ _ => rfl) _ hkeyA) id
  | timestampTz => exact iff_of_false (hreference .sfDate (fun _ _ => rfl) _ hkeyA) id
  | variant => exact absurd hkeyA (by simp [mapLeafValue])
  | object => exact hstructured (by simp)
  | array => exact hstructured (by simp)
  | map => exact hstructured (by simp)

/-- A map keeps its entries when no two of its keys become the same one. -/
theorem converted_map {keyField valueField : FieldMetadata} {members : List (String × Json ν)}
    (htyped : ∀ member ∈ members, WellTyped denotes keyField (.string member.1 : Json ν))
    (hkeys : ∀ member ∈ members, Converted env params denotes keyField (.string member.1) ↔
      Sound env params denotes keyField (.string member.1))
    (hvalues : ∀ member ∈ members, Converted env params denotes valueField member.2 ↔
      Sound env params denotes valueField member.2) :
    Converted env params denotes ⟨name, .map, scale, true, [keyField, valueField]⟩ (.object members) ↔
      Sound env params denotes ⟨name, .map, scale, true, [keyField, valueField]⟩ (.object members) := by
  have hconvert : ∀ value,
      mapStructuredTypeValue env params ⟨name, .map, scale, true, [keyField, valueField]⟩
        (.object members) = .ok value ↔
      ∃ out, convertEntries (mapStructuredTypeValue env params) keyField valueField members = .ok out ∧
        Value.map out = value := by
    intro value
    rw [mapStructuredTypeValue_eq]
    exact map_eq_ok_iff
  -- the keys of the entries are the same where the texts are
  have hsame : ∀ {entries : List (Value ν × Value ν)}, List.Forall₂ (fun member entry =>
      mapStructuredTypeValue env params keyField (.string member.1) = .ok entry.1) members entries →
      ((entries.Pairwise fun a b => sameKey b.1 a.1 = false) ↔
        members.Pairwise fun a b => ¬ SameKeyText env keyField.type b.1 a.1) := by
    intro entries hentries
    have htypedEntries := (List.forall₂_and_left members entries).mpr ⟨htyped, hentries⟩
    refine (pairwise_iff_of_forall₂ htypedEntries fun a keyA b keyB hA hB => ?_).symm
    rw [← sameKey_converted env params denotes hB.1 hA.1 hB.2 hA.2, Bool.not_eq_true]
  simp only [Converted, hconvert, sound_map, faithful_map]
  constructor
  · rintro ⟨_, ⟨out, hout, rfl⟩, entries', heq, hfaithful⟩
    obtain rfl := Value.map.inj heq
    obtain ⟨entries, hentries, rfl⟩ := convertEntries_eq_ok_iff.mp hout
    -- nothing is lost, so that no two keys are the same
    have hlength : (entries.foldl (fun entries entry => setEntry entries entry.1 entry.2) []).length =
        ([] : List (Value ν × Value ν)).length + entries.length := by
      rw [← hfaithful.length_eq, hentries.length_eq, List.length_nil, Nat.zero_add]
    obtain ⟨hpairwise, -⟩ := pairwise_of_length_foldl_setEntry hlength
    rw [foldl_setEntry hpairwise (by simp), List.nil_append] at hfaithful
    refine ⟨fun member hmember => ?_, (hsame (hentries.imp fun _ _ h => h.1)).mp hpairwise⟩
    obtain ⟨entry, -, ⟨hkey, hvalue⟩, hkeyMeans, hvalueMeans⟩ :=
      exists_of_forall₂_left (forall₂_and.mpr ⟨hentries, hfaithful⟩) member hmember
    exact ⟨(hkeys member hmember).mp ⟨entry.1, hkey, hkeyMeans⟩,
      (hvalues member hmember).mp ⟨entry.2, hvalue, hvalueMeans⟩⟩
  · rintro ⟨hsound, hpairwise⟩
    obtain ⟨entries, hentries⟩ : ∃ entries : List (Value ν × Value ν), List.Forall₂
        (fun member entry => (mapStructuredTypeValue env params keyField (.string member.1) =
            .ok entry.1 ∧ mapStructuredTypeValue env params valueField member.2 = .ok entry.2) ∧
          Faithful env denotes keyField (.string member.1) entry.1 ∧
            Faithful env denotes valueField member.2 entry.2) members entries := by
      refine forall₂_of_forall_exists fun member hmember => ?_
      obtain ⟨key, hkey, hkeyMeans⟩ := (hkeys member hmember).mpr (hsound member hmember).1
      obtain ⟨value, hvalue, hvalueMeans⟩ := (hvalues member hmember).mpr (hsound member hmember).2
      exact ⟨(key, value), ⟨hkey, hvalue⟩, hkeyMeans, hvalueMeans⟩
    obtain ⟨hconverted, hfaithful⟩ := forall₂_and.mp hentries
    have hpairwise' := (hsame (hconverted.imp fun _ _ h => h.1)).mpr hpairwise
    exact ⟨_, ⟨entries, convertEntries_eq_ok_iff.mpr ⟨entries, hconverted,
      by rw [foldl_setEntry hpairwise' (by simp), List.nil_append]⟩, rfl⟩, entries, rfl, hfaithful⟩

/-! ## every depth -/

/-- **Structured values**: a well-typed value is converted to what it means exactly when it
is sound. -/
theorem converted_iff_sound (hmoment : MomentReads env params denotes) (field : FieldMetadata) :
    ∀ json : Json ν, WellTyped denotes field json →
      (Converted env params denotes field json ↔ Sound env params denotes field json) := by
  refine FieldMetadata.induction (P := fun field => ∀ json : Json ν, WellTyped denotes field json →
      (Converted env params denotes field json ↔ Sound env params denotes field json))
    (fun name type scale structured fields ih json htyped => ?_) field
  have hunstructured : (type = .object ∨ type = .array ∨ type = .map) → structured = false →
      (Converted env params denotes ⟨name, type, scale, structured, fields⟩ json ↔
        Sound env params denotes ⟨name, type, scale, structured, fields⟩ json) := by
    rintro htype rfl
    obtain ⟨hconverted, hsound⟩ := converted_unstructured env params denotes htype
    exact iff_of_true hconverted hsound
  have hnull : (type = .object ∨ type = .array ∨ type = .map) → structured = true → json = .null →
      (Converted env params denotes ⟨name, type, scale, structured, fields⟩ json ↔
        Sound env params denotes ⟨name, type, scale, structured, fields⟩ json) := by
    rintro htype rfl rfl
    obtain ⟨hconverted, hsound⟩ := not_converted_null env params denotes htype htyped
    exact iff_of_false hconverted hsound
  cases type with
  | object =>
      cases structured with
      | false => exact hunstructured (by simp) rfl
      | true =>
          obtain rfl | ⟨members, rfl, hmembers⟩ := wellTyped_object.mp htyped
          · exact hnull (by simp) rfl rfl
          · refine converted_object env params denotes fun member hmember => ?_
            obtain ⟨field, hfield, hmember⟩ := hmembers member hmember
            exact ⟨field, hfield, ih field (fieldNamed_mem hfield) _ hmember⟩
  | array =>
      cases structured with
      | false => exact hunstructured (by simp) rfl
      | true =>
          obtain ⟨field, rfl, rfl | ⟨items, rfl, hitems⟩⟩ := wellTyped_array htyped
          · exact hnull (by simp) rfl rfl
          · exact converted_array env params denotes fun item hitem =>
              ih field (by simp) item (hitems item hitem)
  | map =>
      cases structured with
      | false => exact hunstructured (by simp) rfl
      | true =>
          obtain ⟨keyField, valueField, rfl, rfl | ⟨members, rfl, hmembers⟩⟩ := wellTyped_map htyped
          · exact hnull (by simp) rfl rfl
          · exact converted_map env params denotes (fun member hmember => (hmembers member hmember).1)
              (fun member hmember => ih keyField (by simp) _ (hmembers member hmember).1)
              (fun member hmember => ih valueField (by simp) _ (hmembers member hmember).2)
  | _ =>
      simp only [Converted, mapStructuredTypeValue_eq]
      simp only [Faithful, Sound, WellTyped, FieldMetadata.fold_mk, faithfulNode, soundNode,
        wellTypedNode] at htyped ⊢
      exact leaf_converted_iff hmoment _ scale htyped

/-! ## a row -/

/-- The metadata of the column itself. -/
def StructuredType.root (type : StructuredType) (fields : List FieldMetadata) : FieldMetadata :=
  match type with
  | .object => ⟨"", .object, 0, true, fields⟩
  | .array => ⟨"", .array, 0, true, fields⟩
  | .map => ⟨"", .map, 0, true, fields⟩

variable (type : StructuredType) (fields : List FieldMetadata)

/-- A row is null or the text of a value of the column's type. -/
def WellTypedRow (row : Option String) : Prop :=
  ∀ rawColumnValue ∈ row, rawColumnValue ≠ "" ∧
    ∃ json, env.parse rawColumnValue = some json ∧ WellTyped denotes (type.root fields) json

def FaithfulRow (row : Option String) (value : Value ν) : Prop :=
  match row with
  | none => value = .json .null
  | some rawColumnValue =>
      ∀ json ∈ env.parse rawColumnValue, Faithful env denotes (type.root fields) json value

def SoundRow (row : Option String) : Prop :=
  ∀ rawColumnValue ∈ row, ∀ json ∈ env.parse rawColumnValue,
    Sound env params denotes (type.root fields) json

theorem convertJson_array (json : Json ν) :
    (convertJson env params type json (.array fields)).1 =
      mapStructuredTypeValue env params (type.root fields) json := by
  cases type with
  | object => rw [StructuredType.root, mapStructuredTypeValue_eq]; rfl
  | array => rw [StructuredType.root, mapStructuredTypeValue_eq]; rfl
  | map => rw [StructuredType.root, mapStructuredTypeValue_eq]; rfl

/-- **Faithful**: on a fresh column a row is converted to what it means exactly when its
value holds, at no depth, a null other than a text, a `false`, a date, a fraction of a
second or a key that is lost. -/
theorem row_converted_iff_sound (hmoment : MomentReads env params denotes) {row : Option String}
    (hrow : WellTypedRow env denotes type fields row) :
    (∃ value, (getRowValue env params type row (.array fields)).1 = .ok value ∧
        FaithfulRow env denotes type fields row value) ↔
      SoundRow env params denotes type fields row := by
  cases row with
  | none => simp [getRowValue, FaithfulRow, SoundRow]
  | some rawColumnValue =>
      obtain ⟨hempty, json, hjson, htyped⟩ := hrow rawColumnValue rfl
      have hiff := converted_iff_sound env params denotes hmoment (type.root fields) json htyped
      have hvalue : ∀ value,
          (getRowValue env params type (some rawColumnValue) (.array fields)).1 = .ok value ↔
            mapStructuredTypeValue env params (type.root fields) json = .ok value := by
        intro value
        unfold getRowValue convertRawStructuredType
        simp only [if_neg hempty, hjson, convertJson_array]
        cases mapStructuredTypeValue env params (type.root fields) json with
        | ok value' => simp [Except.mapError]
        | error cause => simp [Except.mapError]
      simpa [hvalue, FaithfulRow, SoundRow, hjson, Converted] using hiff

end

/-! ## two rows -/

/-- An engine that knows a document, a list, and one moment. -/
def documentRuntime : Runtime Int where
  parse s :=
    if s = "\x7b\"at\":\"2024-03-18 11:22:33\",\"ids\":\x7b\"1\":true,\"2\":true\x7d\x7d" then
      some (.object [("at", .string "2024-03-18 11:22:33"),
        ("ids", .object [("1", .bool true), ("2", .bool true)])])
    else if s = "[false]" then some (.array [.bool false])
    else none
  zero := 0
  one := 1
  numberOfString s := if s = "1" then 1 else if s = "2" then 2 else 0
  numberOfObject _ := 0
  bufferOfObject _ := none
  moment _ _ json :=
    match json with
    | .string s => if s = "2024-03-18 11:22:33" then some ⟨1710760953, 40953, 0⟩ else none
    | _ => none

def documentParameters : StatementParameters :=
  ⟨none, none, some "YYYY-MM-DD HH24:MI:SS", none, none, none, none, some "UTC"⟩

def documentDenotes (_type : SqlType) (s : String) : Option Moment :=
  if s = "2024-03-18 11:22:33" then some ⟨1710760953, 40953, 0⟩ else none

theorem documentRuntime_reads : MomentReads documentRuntime documentParameters documentDenotes :=
  fun _ _ _ _ _ _ hm => hm

/-- A timestamp without a fraction and a map of flags that are all true. -/
def documentFields : List FieldMetadata :=
  [⟨"at", .timestampNtz, 0, false, []⟩,
    ⟨"ids", .map, 0, true, [⟨"", .fixed, 0, false, []⟩, ⟨"", .boolean, 0, false, []⟩]⟩]

/-- The flags of the document. -/
def documentMembers : List (String × Json Int) := [("1", .bool true), ("2", .bool true)]

theorem documentMembers_wellTyped : WellTyped documentDenotes
    ⟨"ids", .map, 0, true, [⟨"", .fixed, 0, false, []⟩, ⟨"", .boolean, 0, false, []⟩]⟩
    (.object documentMembers) := by
  simp only [WellTyped, FieldMetadata.fold_mk, List.map_cons, List.map_nil, wellTypedNode]
  refine fun _ => ⟨_, _, rfl, Or.inr ⟨_, rfl, ?_⟩⟩
  rw [documentMembers, List.forall_mem_cons, List.forall_mem_singleton]
  exact ⟨⟨Or.inr (Or.inr ⟨_, rfl⟩), Or.inr rfl⟩, ⟨Or.inr (Or.inr ⟨_, rfl⟩), Or.inr rfl⟩⟩

theorem documentMembers_sound : Sound documentRuntime documentParameters documentDenotes
    ⟨"ids", .map, 0, true, [⟨"", .fixed, 0, false, []⟩, ⟨"", .boolean, 0, false, []⟩]⟩
    (.object documentMembers) := by
  rw [sound_map]
  simp [Sound, FieldMetadata.fold_mk, soundNode, SoundLeaf, documentMembers, SameKeyText,
    FieldMetadata.type, documentRuntime]

theorem row_converted_document :
    ∃ value, (getRowValue documentRuntime documentParameters .object
        (some "\x7b\"at\":\"2024-03-18 11:22:33\",\"ids\":\x7b\"1\":true,\"2\":true\x7d\x7d")
        (.array documentFields)).1 = .ok value ∧
      FaithfulRow documentRuntime documentDenotes .object documentFields
        (some "\x7b\"at\":\"2024-03-18 11:22:33\",\"ids\":\x7b\"1\":true,\"2\":true\x7d\x7d")
        value := by
  refine (row_converted_iff_sound documentRuntime documentParameters documentDenotes .object
    documentFields documentRuntime_reads ?_).mpr ?_
  · intro rawColumnValue hraw
    obtain rfl := Option.some.inj hraw
    refine ⟨by decide, _, rfl, wellTyped_object.mpr (Or.inr ⟨_, rfl, ?_⟩)⟩
    rw [List.forall_mem_cons, List.forall_mem_singleton]
    refine ⟨⟨_, rfl, ?_⟩, ⟨_, rfl, documentMembers_wellTyped⟩⟩
    simp [WellTyped, FieldMetadata.fold_mk, wellTypedNode, WellTypedLeaf, momentOf, documentDenotes]
  · intro rawColumnValue hraw json hjson
    obtain rfl := Option.some.inj hraw
    obtain rfl := Option.some.inj hjson
    refine sound_object.mpr ?_
    rw [List.forall_mem_cons, List.forall_mem_singleton]
    refine ⟨⟨by decide, fun field hfield => ?_⟩, ⟨by decide, fun field hfield => ?_⟩⟩
    · obtain rfl := Option.some.inj hfield
      simp [Sound, FieldMetadata.fold_mk, soundNode, SoundLeaf, leafFormat, documentParameters,
        momentOf, documentDenotes, fraction]
    · obtain rfl := Option.some.inj hfield
      exact documentMembers_sound

/-- A list with a `false` in it cannot be converted. -/
theorem row_false_not_converted :
    WellTypedRow documentRuntime documentDenotes .array [⟨"", .boolean, 0, false, []⟩]
      (some "[false]") ∧
    (getRowValue documentRuntime documentParameters .array (some "[false]")
      (.array [⟨"", .boolean, 0, false, []⟩])).1 = .error (.cannotBeParsed (some .typeError)) := by
  refine ⟨fun rawColumnValue hraw => ?_, rfl⟩
  obtain rfl := Option.some.inj hraw
  refine ⟨by decide, _, rfl, ?_⟩
  simp [WellTyped, StructuredType.root, FieldMetadata.fold_mk, wellTypedNode, WellTypedLeaf, booleanOf]

end Column

end SnowflakeConnector
