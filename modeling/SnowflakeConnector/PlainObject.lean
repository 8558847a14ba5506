import Mathlib

/-!
# SnowflakeConnector.PlainObject

Plain objects of JavaScript: their own properties in the order of their creation, over the
members of `Object.prototype`.

A property that is read is an own one, a member of the prototype, or undefined.  The
assignment to `__proto__` calls a setter, and makes no property.
-/

namespace SnowflakeConnector

universe u

/-- An object made by a literal, or by assignments to `{}`. -/
structure PlainObject (α : Type u) where
  own : List (String × α)
  deriving Repr

namespace PlainObject

variable {α : Type u} {o : PlainObject α} {key k : String} {a : α}

/-- The members of `Object.prototype`. -/
def prototypeMembers : List String :=
  ["constructor", "__defineGetter__", "__defineSetter__", "hasOwnProperty", "__lookupGetter__",
    "__lookupSetter__", "isPrototypeOf", "propertyIsEnumerable", "toString", "valueOf", "__proto__",
    "toLocaleString"]

/-- What reading a property gives. -/
inductive Read (α : Type u)
  | own (a : α)
  | inherited
  | undefined
  deriving Repr

def empty : PlainObject α := ⟨[]⟩

/-- The value of an own property; `hasOwnProperty` says whether there is one. -/
def getOwn? (o : PlainObject α) (key : String) : Option α := o.own.lookup key

/-- `o[key]`. -/
def get (o : PlainObject α) (key : String) : Read α :=
  match o.getOwn? key with
  | some a => .own a
  | none => if key ∈ prototypeMembers then .inherited else .undefined

/-- Change a property, or add it at the end. -/
def put (a : α) (key : String) : List (String × α) → List (String × α)
  | [] => [(key, a)]
  | p :: ps => if key = p.1 then (key, a) :: ps else p :: put a key ps

/-- `o[key] = a`. -/
def set (o : PlainObject α) (key : String) (a : α) : PlainObject α :=
  if key = "__proto__" then o else ⟨put a key o.own⟩

/-! ## reading what was assigned -/

theorem lookup_put_self (a : α) (key : String) (ps : List (String × α)) :
    (put a key ps).lookup key = some a := by
  induction ps with
  | nil => simp [put]
  | cons p ps ih =>
      unfold put
      split_ifs with h
      · simp
      · rw [List.lookup, beq_false_of_ne h]
        exact ih

theorem lookup_put_of_ne (a : α) (h : k ≠ key) (ps : List (String × α)) :
    (put a key ps).lookup k = ps.lookup k := by
  have hne : (k == key) = false := beq_false_of_ne h
  induction ps with
  | nil => simp [put, List.lookup, hne]
  | cons p ps ih =>
      unfold put
      split_ifs with hp
      · subst hp
        simp [List.lookup, hne]
      · simp only [List.lookup]
        split
        · rfl
        · exact ih

@[simp] theorem getOwn?_empty (key : String) : (empty : PlainObject α).getOwn? key = none := rfl

theorem getOwn?_set_self (h : key ≠ "__proto__") : (o.set key a).getOwn? key = some a := by
  rw [set, if_neg h]
  exact lookup_put_self a key o.own

theorem getOwn?_set_of_ne (h : k ≠ key) : (o.set key a).getOwn? k = o.getOwn? k := by
  unfold set
  split_ifs
  · rfl
  · exact lookup_put_of_ne a h o.own

/-- The setter of `__proto__` makes no property. -/
@[simp] theorem set_proto (o : PlainObject α) (a : α) : o.set "__proto__" a = o := by simp [set]

theorem get_of_own (h : o.getOwn? key = some a) : o.get key = .own a := by simp [get, h]

theorem get_of_inherited (h : o.getOwn? key = none) (hkey : key ∈ prototypeMembers) :
    o.get key = .inherited := by
  simp [get, h, hkey]

theorem get_of_undefined (h : o.getOwn? key = none) (hkey : key ∉ prototypeMembers) :
    o.get key = .undefined := by
  simp [get, h, hkey]

theorem ne_proto_of_notMem (h : key ∉ prototypeMembers) : key ≠ "__proto__" := by
  rintro rfl
  exact h (by decide)

/-! ## objects made by assignments -/

/-- Assign the properties one after the other. -/
def assign (o : PlainObject α) : List (String × α) → PlainObject α
  | [] => o
  | (key, a) :: ps => (o.set key a).assign ps

theorem put_of_notMem {ps : List (String × α)} (h : key ∉ ps.map Prod.fst) :
    put a key ps = ps ++ [(key, a)] := by
  induction ps with
  | nil => rfl
  | cons p ps ih =>
      simp only [List.map_cons, List.mem_cons, not_or] at h
      rw [put, if_neg h.1, ih h.2, List.cons_append]

/-- Distinct keys that are no setter keep all values. -/
theorem own_assign_of_nodup {ps : List (String × α)} (hproto : "__proto__" ∉ ps.map Prod.fst)
    (h : (o.own.map Prod.fst ++ ps.map Prod.fst).Nodup) : (o.assign ps).own = o.own ++ ps := by
  induction ps generalizing o with
  | nil => simp [assign]
  | cons p ps ih =>
      obtain ⟨key, a⟩ := p
      simp only [List.map_cons, List.mem_cons, not_or] at hproto h
      have hset : (o.set key a).own = o.own ++ [(key, a)] := by
        rw [set, if_neg (Ne.symm hproto.1), put_of_notMem]
        exact fun hmem => (List.nodup_append.mp h).2.2 key hmem key List.mem_cons_self rfl
      rw [assign, ih hproto.2, hset, List.append_assoc]
      · rfl
      · rw [hset]
        simpa using h

theorem getOwn?_of_mem (h : (o.own.map Prod.fst).Nodup) (hmem : (key, a) ∈ o.own) :
    o.getOwn? key = some a := by
  obtain ⟨own⟩ := o
  simp only [getOwn?] at *
  induction own with
  | nil => simp at hmem
  | cons p ps ih =>
      simp only [List.map_cons, List.nodup_cons] at h
      obtain rfl | hmem := List.mem_cons.mp hmem
      · simp
      · have hne : key ≠ p.1 := by
          rintro rfl
          exact h.1 (List.mem_map.mpr ⟨_, hmem, rfl⟩)
        rw [List.lookup, beq_false_of_ne hne]
        exact ih h.2 hmem

end PlainObject

end SnowflakeConnector
