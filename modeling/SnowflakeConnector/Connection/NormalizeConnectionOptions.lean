import SnowflakeConnector.PlainObject

/-!
# SnowflakeConnector.Connection.NormalizeConnectionOptions

`lib/connection/normalize_connection_options.ts`: options may be spelled as in the configuration
files of other drivers, with underscores and with other names.

* `normalized` -- whichever spelling of an option comes first is the one that counts, and there is
  nothing left to normalize.
-/

namespace SnowflakeConnector

namespace Connection

open PlainObject

/-! ## the code -/

/-- `key.replace(/_([a-z])/g, (_, char) => char.toUpperCase())`. -/
def snakeToCamel : List Char → List Char
  | '_' :: c :: cs =>
      if c.isLower then c.toUpper :: snakeToCamel cs else '_' :: snakeToCamel (c :: cs)
  | c :: cs => c :: snakeToCamel cs
  | [] => []

/-- The members of `Object.prototype` as keys. -/
def memberKey (key : String) : String :=
  if key = "constructor" then "function Object() \x7b [native code] \x7d"
  else if key = "__proto__" then "[object Object]"
  else "function " ++ key ++ "() \x7b [native code] \x7d"

/-- `KEY_ALIASES[key]`, which is a member of the prototype for some keys. -/
def keyAlias (key : String) : Option String :=
  if key = "user" then some "username"
  else if key = "private_key_file" then some "privateKeyPath"
  else if key ∈ prototypeMembers then some (memberKey key)
  else none

/-- `SNAKE_TO_CAMEL_OVERRIDES[key]`. -/
def snakeToCamelOverride (key : String) : Option String :=
  if key = "client_request_mfa_token" then some "clientRequestMFAToken"
  else if key = "disable_saml_url_check" then some "disableSamlURLCheck"
  else if key = "crl_allow_certificates_without_crl_url" then
    some "crlAllowCertificatesWithoutCrlURL"
  else none

section

variable {α : Type*} (toLowerCase : String → String)

/-- The name that an option is normalized to. -/
def target (key : String) : String :=
  match (keyAlias key).or (snakeToCamelOverride key) with
  | some name => name
  | none =>
      if key = toLowerCase key ∧ '_' ∈ key.toList then String.ofList (snakeToCamel key.toList)
      else key

/-- Assign a property that is undefined so far. -/
def assignFirst (o : PlainObject α) (key : String) (value : α) : PlainObject α :=
  match o.get key with
  | .undefined => o.set key value
  | _ => o

/-- The properties of an object one after the other; `none` is undefined. -/
def normalizeEntries (normalized : PlainObject α) : List (String × Option α) → PlainObject α
  | [] => normalized
  | (_, none) :: entries => normalizeEntries normalized entries
  | (key, some value) :: entries =>
      normalizeEntries (assignFirst normalized (target toLowerCase key) value) entries

def normalizeConnectionOptions (options : PlainObject (Option α)) : PlainObject α :=
  normalizeEntries toLowerCase .empty options.own

end

/-! ## names -/

/-- What is written in camel case is as it was, or has got a capital. -/
theorem snakeToCamel_cases (cs : List Char) :
    snakeToCamel cs = cs ∨ ∃ c ∈ snakeToCamel cs, c.isUpper = true := by
  fun_induction snakeToCamel cs with
  | case1 c cs hlower ih =>
      refine .inr ⟨c.toUpper, .head _, ?_⟩
      rw [Char.isUpper_toUpper_eq_isAlpha, Char.isAlpha, hlower, Bool.or_true]
  | case2 c cs hlower ih =>
      rcases ih with heq | ⟨d, hd, hupper⟩
      · exact .inl (congrArg _ heq)
      · exact .inr ⟨d, List.mem_cons_of_mem _ hd, hupper⟩
  | case3 c cs _ ih =>
      rcases ih with heq | ⟨d, hd, hupper⟩
      · exact .inl (congrArg _ heq)
      · exact .inr ⟨d, List.mem_cons_of_mem _ hd, hupper⟩
  | case4 => exact .inl rfl

def HasCapital (key : String) : Prop := ∃ c ∈ key.toList, c.isUpper = true

theorem memberKey_spec {key : String} (h : key ∈ prototypeMembers) :
    HasCapital (memberKey key) ∧ memberKey key ∉ prototypeMembers := by
  simp only [prototypeMembers, List.mem_cons, List.not_mem_nil, or_false] at h
  rcases h with rfl | rfl | rfl | rfl | rfl | rfl | rfl | rfl | rfl | rfl | rfl | rfl <;>
    simp [HasCapital, memberKey, prototypeMembers, Char.isUpper]

/-- The names that stand for other ones, members apart. -/
theorem mem_of_alias {key name : String}
    (h : (keyAlias key).or (snakeToCamelOverride key) = some name) :
    key ∈ prototypeMembers ∧ name = memberKey key ∨
      key = "user" ∧ name = "username" ∨ key = "private_key_file" ∧ name = "privateKeyPath" ∨
      key = "client_request_mfa_token" ∧ name = "clientRequestMFAToken" ∨
      key = "disable_saml_url_check" ∧ name = "disableSamlURLCheck" ∨
      key = "crl_allow_certificates_without_crl_url" ∧
        name = "crlAllowCertificatesWithoutCrlURL" := by
  rw [keyAlias] at h
  split_ifs at h with huser hfile hmember
  · simp_all
  · simp_all
  · exact .inl ⟨hmember, (Option.some.inj h).symm⟩
  · rw [Option.none_or, snakeToCamelOverride] at h
    split_ifs at h <;> simp_all

/-- The names that stand for other ones are all small, members apart. -/
theorem not_hasCapital_of_alias {key name : String} (hkey : key ∉ prototypeMembers)
    (h : (keyAlias key).or (snakeToCamelOverride key) = some name) : ¬ HasCapital key := by
  rcases mem_of_alias h with ⟨hmember, -⟩ | ⟨rfl, -⟩ | ⟨rfl, -⟩ | ⟨rfl, -⟩ | ⟨rfl, -⟩ | ⟨rfl, -⟩
  · exact absurd hmember hkey
  all_goals simp [HasCapital, Char.isUpper]

section

variable {toLowerCase : String → String} {α : Type*} {o : PlainObject α} {key k : String}

/-- No capital is small. -/
def IsLowerCasing (toLowerCase : String → String) : Prop :=
  ∀ key, HasCapital key → toLowerCase key ≠ key

/-- A name with a capital is normal. -/
theorem target_of_hasCapital (hlower : IsLowerCasing toLowerCase) (hcapital : HasCapital key)
    (hkey : key ∉ prototypeMembers) : target toLowerCase key = key := by
  rw [target]
  split
  · rename_i halias
    exact absurd hcapital (not_hasCapital_of_alias hkey halias)
  · exact if_neg fun hsmall => hlower key hcapital hsmall.1.symm

/-- What a name is normalized to is normal, unless objects have such a member. -/
theorem target_target (hlower : IsLowerCasing toLowerCase)
    (hmember : target toLowerCase key ∉ prototypeMembers) :
    target toLowerCase (target toLowerCase key) = target toLowerCase key := by
  have hnames : ∀ name ∈ ["privateKeyPath", "clientRequestMFAToken", "disableSamlURLCheck",
      "crlAllowCertificatesWithoutCrlURL"], target toLowerCase name = name := by
    intro name hname
    simp only [List.mem_cons, List.not_mem_nil, or_false] at hname
    apply target_of_hasCapital hlower
    · rcases hname with rfl | rfl | rfl | rfl <;> simp [HasCapital, Char.isUpper]
    · rcases hname with rfl | rfl | rfl | rfl <;> simp [prototypeMembers]
  cases halias : (keyAlias key).or (snakeToCamelOverride key) with
  | some name =>
      have htarget : target toLowerCase key = name := by rw [target, halias]
      rw [htarget]
      rcases mem_of_alias halias with
        ⟨hkey, rfl⟩ | ⟨-, rfl⟩ | ⟨-, rfl⟩ | ⟨-, rfl⟩ | ⟨-, rfl⟩ | ⟨-, rfl⟩
      · obtain ⟨hcapital, hname⟩ := memberKey_spec hkey
        exact target_of_hasCapital hlower hcapital hname
      · simp [target, keyAlias, snakeToCamelOverride, prototypeMembers]
      all_goals exact hnames _ (by simp)
  | none =>
      by_cases hsnake : key = toLowerCase key ∧ '_' ∈ key.toList
      · have htarget : target toLowerCase key = String.ofList (snakeToCamel key.toList) := by
          rw [target, halias]
          exact if_pos hsnake
        rcases snakeToCamel_cases key.toList with hsame | hcapital
        · have hself : target toLowerCase key = key := by
            rw [htarget, hsame, String.ofList_toList]
          rw [hself, hself]
        · refine target_of_hasCapital hlower ?_ hmember
          rw [htarget, HasCapital, String.toList_ofList]
          exact hcapital
      · have hself : target toLowerCase key = key := by
          rw [target, halias]
          exact if_neg hsnake
        rw [hself, hself]

/-! ## properties -/

theorem getOwn?_assignFirst (o : PlainObject α) (key k : String) (value : α) :
    (assignFirst o key value).getOwn? k =
      (o.getOwn? k).or (if k = key ∧ key ∉ prototypeMembers then some value else none) := by
  rw [assignFirst]
  cases hown : o.getOwn? key with
  | some a =>
      rw [get_of_own hown]
      by_cases hk : k = key
      · rw [hk, hown, Option.some_or]
      · simp [hk]
  | none =>
      by_cases hkey : key ∈ prototypeMembers
      · rw [get_of_inherited hown hkey]
        simp [hkey]
      · rw [get_of_undefined hown hkey]
        by_cases hk : k = key
        · rw [hk, getOwn?_set_self (ne_proto_of_notMem hkey), hown]
          simp [hkey]
        · rw [getOwn?_set_of_ne hk]
          simp [hk]

/-- The options with their normal names. -/
def renamed (toLowerCase : String → String) (entries : List (String × Option α)) :
    List (String × α) :=
  entries.filterMap fun e => e.2.map fun value => (target toLowerCase e.1, value)

theorem getOwn?_normalizeEntries (o : PlainObject α) (entries : List (String × Option α))
    (k : String) : (normalizeEntries toLowerCase o entries).getOwn? k =
      (o.getOwn? k).or
        (if k ∈ prototypeMembers then none else (renamed toLowerCase entries).lookup k) := by
  fun_induction normalizeEntries toLowerCase o entries with
  | case1 o => simp [renamed]
  | case2 o key entries ih => rw [ih]; rfl
  | case3 o key value entries ih =>
      rw [ih, getOwn?_assignFirst, Option.or_assoc]
      congr 1
      have hcons : renamed toLowerCase ((key, some value) :: entries) =
          (target toLowerCase key, value) :: renamed toLowerCase entries := rfl
      rw [hcons, List.lookup_cons]
      by_cases hk : k = target toLowerCase key
      · subst hk
        by_cases hmember : target toLowerCase key ∈ prototypeMembers <;> simp [hmember]
      · simp [hk, beq_false_of_ne hk]

/-- An object of options with normal names. -/
structure Normal (toLowerCase : String → String) (o : PlainObject α) : Prop where
  nodup : (o.own.map Prod.fst).Nodup
  names : ∀ k ∈ o.own.map Prod.fst, k ∉ prototypeMembers ∧ target toLowerCase k = k

theorem get_eq_undefined : o.get key = .undefined ↔
    key ∉ o.own.map Prod.fst ∧ key ∉ prototypeMembers := by
  have hnone : o.getOwn? key = none ↔ key ∉ o.own.map Prod.fst := by
    rw [getOwn?, List.lookup_eq_none_iff]
    simp only [bne_iff_ne, ne_eq, List.mem_map, not_exists, not_and]
    exact forall₂_congr fun p _ => not_congr eq_comm
  rw [← hnone]
  cases hown : o.getOwn? key with
  | some a => simp [get_of_own hown]
  | none =>
      by_cases hkey : key ∈ prototypeMembers
      · simp [get_of_inherited hown hkey, hkey]
      · simp [get_of_undefined hown hkey, hkey]

theorem own_set (value : α) (h : o.get key = .undefined) :
    (o.set key value).own = o.own ++ [(key, value)] := by
  obtain ⟨hown, hmember⟩ := get_eq_undefined.mp h
  rw [PlainObject.set.eq_def, if_neg (ne_proto_of_notMem hmember), put_of_notMem hown]

theorem Normal.assignFirst (hlower : IsLowerCasing toLowerCase) (h : Normal toLowerCase o)
    (key : String) (value : α) :
    Normal toLowerCase (assignFirst o (target toLowerCase key) value) := by
  rw [Connection.assignFirst]
  split
  · rename_i hget
    obtain ⟨hown, hmember⟩ := get_eq_undefined.mp hget
    have hkeys : (o.set (target toLowerCase key) value).own.map Prod.fst =
        o.own.map Prod.fst ++ [target toLowerCase key] := by
      rw [own_set value hget, List.map_append, List.map_singleton]
    refine ⟨?_, ?_⟩
    · rw [hkeys, ← List.concat_eq_append]
      exact (List.nodup_concat _ _).mpr ⟨hown, h.nodup⟩
    · rw [hkeys]
      intro k hk
      rcases List.mem_append.mp hk with hk | hk
      · exact h.names k hk
      · rw [List.mem_singleton.mp hk]
        exact ⟨hmember, target_target hlower hmember⟩
  · exact h

theorem Normal.normalizeEntries (hlower : IsLowerCasing toLowerCase) (h : Normal toLowerCase o)
    (entries : List (String × Option α)) :
    Normal toLowerCase (normalizeEntries toLowerCase o entries) := by
  fun_induction Connection.normalizeEntries toLowerCase o entries with
  | case1 o => exact h
  | case2 o key entries ih => exact ih h
  | case3 o key value entries ih => exact ih (h.assignFirst hlower key value)

/-- Options with normal names are assigned as they are. -/
theorem normalizeEntries_normal {entries : List (String × α)}
    (hnodup : (o.own.map Prod.fst ++ entries.map Prod.fst).Nodup)
    (h : ∀ k ∈ entries.map Prod.fst, k ∉ prototypeMembers ∧ target toLowerCase k = k) :
    normalizeEntries toLowerCase o (entries.map fun e => (e.1, some e.2)) = o.assign entries := by
  induction entries generalizing o with
  | nil => rfl
  | cons e entries ih =>
      obtain ⟨key, value⟩ := e
      obtain ⟨hmember, htarget⟩ := h key (by simp)
      have hown : key ∉ o.own.map Prod.fst := fun hmem =>
        (List.nodup_append.mp hnodup).2.2 key hmem key (by simp) rfl
      have hget : o.get key = .undefined := get_eq_undefined.mpr ⟨hown, hmember⟩
      have hfirst : assignFirst o key value = o.set key value := by rw [assignFirst, hget]
      rw [List.map_cons, normalizeEntries, htarget, hfirst, assign]
      refine ih ?_ fun k hk => h k (List.mem_cons_of_mem _ hk)
      rw [own_set value hget, List.map_append, List.append_assoc]
      exact hnodup

/-- **Options**: an option has the value that its first spelling gives it, unless every object has a
member of its name, and options that are normalized are not changed when it is done again. -/
theorem normalized (hlower : IsLowerCasing toLowerCase) (options : PlainObject (Option α)) :
    (∀ k, (normalizeConnectionOptions toLowerCase options).getOwn? k =
      if k ∈ prototypeMembers then none else (renamed toLowerCase options.own).lookup k) ∧
      normalizeConnectionOptions toLowerCase
        ⟨(normalizeConnectionOptions toLowerCase options).own.map fun e => (e.1, some e.2)⟩ =
        normalizeConnectionOptions toLowerCase options := by
  have hempty : Normal toLowerCase (empty : PlainObject α) := ⟨List.nodup_nil, by simp [empty]⟩
  have hnormal : Normal toLowerCase (normalizeConnectionOptions toLowerCase options) :=
    hempty.normalizeEntries hlower options.own
  constructor
  · intro k
    rw [normalizeConnectionOptions, getOwn?_normalizeEntries, getOwn?_empty, Option.none_or]
  · generalize normalizeConnectionOptions toLowerCase options = result at hnormal ⊢
    have hnodup : ((empty : PlainObject α).own.map Prod.fst ++ result.own.map Prod.fst).Nodup :=
      hnormal.nodup
    have hproto : "__proto__" ∉ result.own.map Prod.fst := fun hmem =>
      (hnormal.names _ hmem).1 (by simp [prototypeMembers])
    have hsame : (normalizeConnectionOptions toLowerCase
        ⟨result.own.map fun e => (e.1, some e.2)⟩).own = result.own := by
      rw [normalizeConnectionOptions, normalizeEntries_normal hnodup hnormal.names,
        own_assign_of_nodup hproto hnodup]
      rfl
    exact congrArg PlainObject.mk hsame

end

theorem isLowerCasing_toLower : IsLowerCasing String.toLower := by
  rintro key ⟨c, hc, hupper⟩ hsame
  have hmap : key.toList.map Char.toLower = key.toList.map id := by
    rw [List.map_id, ← String.toList_map]
    exact congrArg String.toList hsame
  have hc : c.toLower = c := List.map_inj_left.mp hmap c hc
  have hlower : c.toLower.isUpper = false := Char.isUpper_toLower_eq_false c
  rw [hc, hupper] at hlower
  cases hlower

/-- Three spellings of one option, and one that every object has already. -/
theorem normalized_spellings :
    let options : PlainObject (Option String) := ⟨[("private_key_file", some "a.p8"),
      ("privateKeyPath", some "b.p8"), ("private_key_path", some "c.p8"), ("to_string", some "d")]⟩
    (∀ k, (normalizeConnectionOptions String.toLower options).getOwn? k =
      if k ∈ prototypeMembers then none else (renamed String.toLower options.own).lookup k) ∧
      normalizeConnectionOptions String.toLower
        ⟨(normalizeConnectionOptions String.toLower options).own.map fun e => (e.1, some e.2)⟩ =
        normalizeConnectionOptions String.toLower options :=
  normalized isLowerCasing_toLower _

end Connection

end SnowflakeConnector
