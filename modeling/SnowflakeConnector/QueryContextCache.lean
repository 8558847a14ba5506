import SnowflakeConnector.Lts

/-!
# SnowflakeConnector.QueryContextCache

`lib/queryContextCache.js`: the query contexts of a session, a most recently used
and priority based cache.

The cache has three indexes of the same objects: by id, by priority, and a set kept in
the order of the priorities.  The objects have an identity and are changed in place,
so the indexes hold positions in a list of all objects, and three objects may well
agree in every field.  What the server sends is numbered and typed as the server
types it; a node of its response may be `null` and its context of the wrong type.
-/

namespace SnowflakeConnector

/-- `QueryContextElement`. -/
structure QueryContextElement (α τ π : Type*) where
  id : α
  timestamp : τ
  priority : π
  context : Option String
  deriving DecidableEq, Repr

/-- The cache; `objects` are the elements that were ever made. -/
structure QueryContextCache (α τ π : Type*) where
  capacity : Nat
  objects : List (QueryContextElement α τ π)
  idMap : α → Option Nat
  treeSet : List Nat
  priorityMap : π → Option Nat

namespace QueryContextCache

variable {α τ π : Type*}

def create (capacity : Nat) : QueryContextCache α τ π where
  capacity
  objects := []
  idMap _ := none
  treeSet := []
  priorityMap _ := none

/-- `getElements`. -/
def elements (s : QueryContextCache α τ π) : List (QueryContextElement α τ π) :=
  s.treeSet.filterMap fun r => s.objects[r]?

/-- Clear the cache. -/
def clearCache (s : QueryContextCache α τ π) : QueryContextCache α τ π :=
  { s with idMap := fun _ => none, treeSet := [], priorityMap := fun _ => none }

/-- The priority of an object. -/
def priorityOf (s : QueryContextCache α τ π) (r : Nat) : WithBot π :=
  match s.objects[r]? with
  | some qce => qce.priority
  | none => ⊥

variable [LinearOrder π]

def sortTreeSet (s : QueryContextCache α τ π) : QueryContextCache α τ π :=
  { s with treeSet := s.treeSet.insertionSort fun a b => s.priorityOf a ≤ s.priorityOf b }

variable [DecidableEq α]

def addQCE (s : QueryContextCache α τ π) (r : Nat) : QueryContextCache α τ π :=
  match s.objects[r]? with
  | none => s
  | some qce =>
      sortTreeSet { s with
        idMap := Function.update s.idMap qce.id (some r)
        priorityMap := Function.update s.priorityMap qce.priority (some r)
        treeSet := if r ∈ s.treeSet then s.treeSet else s.treeSet ++ [r] }

/-- Remove an element from the cache. -/
def removeQCE (s : QueryContextCache α τ π) (r : Nat) : QueryContextCache α τ π :=
  match s.objects[r]? with
  | none => s
  | some qce =>
      { s with
        idMap := Function.update s.idMap qce.id none
        priorityMap := Function.update s.priorityMap qce.priority none
        treeSet := s.treeSet.erase r }

/-- Replace the cache element with a new response element. -/
def replaceQCE (s : QueryContextCache α τ π) (oldQCE newQCE : Nat) : QueryContextCache α τ π :=
  (s.removeQCE oldQCE).addQCE newQCE

/-- After the merge, loop through priority list and make sure cache is at most
capacity; every turn removes one element. -/
def checkCacheCapacity (s : QueryContextCache α τ π) : QueryContextCache α τ π :=
  loop s.treeSet.length s
where
  loop : Nat → QueryContextCache α τ π → QueryContextCache α τ π
    | 0, s => s
    | n + 1, s =>
        if s.treeSet.length > s.capacity then
          match s.treeSet.getLast? with
          | some r => loop n (s.removeQCE r)
          | none => s
        else s

variable [LinearOrder τ]

/-- Merge a new element comes from the server with the existing cache.  Merge is
based on read time stamp for the same id and based on priority for two different
ids. -/
def merge (s : QueryContextCache α τ π) (newQCE : QueryContextElement α τ π) :
    QueryContextCache α τ π :=
  let new := s.objects.length
  let s := { s with objects := s.objects ++ [newQCE] }
  match s.idMap newQCE.id with
  | some old =>
      match s.objects[old]? with
      | none => s
      | some qce =>
          if newQCE.timestamp > qce.timestamp then
            if qce.priority = newQCE.priority then
              { s with
                objects := s.objects.set old
                  { qce with timestamp := newQCE.timestamp, context := newQCE.context } }
            else s.replaceQCE old new
          else if newQCE.timestamp = qce.timestamp ∧ qce.priority ≠ newQCE.priority then
            s.replaceQCE old new
          else s
  | none =>
      match s.priorityMap newQCE.priority with
      | some old => s.replaceQCE old new
      | none => s.addQCE new

/-! ## responses -/

/-- The `context` of a node. -/
inductive Context
  | string (s : String)
  | empty
  | other
  deriving DecidableEq, Repr

/-- An entry of a response. -/
structure Node (α τ π : Type*) where
  id : α
  timestamp : τ
  priority : π
  context : Context

/-- The query context of a response: absent or without entries (`null`, `{}`, or
`entries` being `null`), or its entries, `none` if they are not an array; a `null`
among them is `none`. -/
inductive Data (α τ π : Type*)
  | empty
  | entries (entries : Option (List (Option (Node α τ π))))

def deserializeQueryContextElement (node : Node α τ π) : Option (QueryContextElement α τ π) :=
  match node.context with
  | .string context => some ⟨node.id, node.timestamp, node.priority, some context⟩
  | .empty => some ⟨node.id, node.timestamp, node.priority, none⟩
  | .other => none

/-- The loop over the entries; a `null` throws, which clears the cache, as does a
context that is not a string. -/
def mergeEntries : List (Option (Node α τ π)) → QueryContextCache α τ π → QueryContextCache α τ π
  | [], s => s.checkCacheCapacity
  | none :: _, s => s.clearCache.checkCacheCapacity
  | some node :: entries, s =>
      match deserializeQueryContextElement node with
      | some entry => mergeEntries entries (s.merge entry)
      | none => s.clearCache

def deserializeQueryContext (s : QueryContextCache α τ π) (data : Data α τ π) :
    QueryContextCache α τ π :=
  match data with
  | .empty => s.clearCache
  | .entries none => s.checkCacheCapacity
  | .entries (some entries) => mergeEntries entries s

/-! ## the representation -/

/-- The three indexes hold the same elements, each under its own id and priority, and
the set iterates in ascending order of the priorities. -/
structure Rep (s : QueryContextCache α τ π) : Prop where
  idMap : ∀ i r, s.idMap i = some r ↔ r ∈ s.treeSet ∧ ∃ e, s.objects[r]? = some e ∧ e.id = i
  priorityMap : ∀ p r, s.priorityMap p = some r ↔
    r ∈ s.treeSet ∧ ∃ e, s.objects[r]? = some e ∧ e.priority = p
  objects : ∀ r ∈ s.treeSet, ∃ e, s.objects[r]? = some e
  ascending : s.treeSet.Pairwise fun a b => s.priorityOf a < s.priorityOf b

section

variable {s : QueryContextCache α τ π} {r : Nat} {e : QueryContextElement α τ π}

omit [LinearOrder π] [DecidableEq α] [LinearOrder τ] in
theorem mem_elements : e ∈ s.elements ↔ ∃ r ∈ s.treeSet, s.objects[r]? = some e := by
  rw [elements, List.mem_filterMap]

omit [LinearOrder π] [DecidableEq α] [LinearOrder τ] in
theorem priorityOf_eq (h : s.objects[r]? = some e) : s.priorityOf r = e.priority := by
  rw [priorityOf, h]

omit [DecidableEq α] [LinearOrder τ] in
theorem rep_create (capacity : Nat) : (create capacity : QueryContextCache α τ π).Rep :=
  ⟨by simp [create], by simp [create], by simp [create], List.Pairwise.nil⟩

omit [DecidableEq α] [LinearOrder τ] in
theorem rep_clearCache (s : QueryContextCache α τ π) : s.clearCache.Rep :=
  ⟨by simp [clearCache], by simp [clearCache], by simp [clearCache], List.Pairwise.nil⟩

namespace Rep

omit [DecidableEq α] [LinearOrder τ]

theorem nodup (h : s.Rep) : s.treeSet.Nodup :=
  h.ascending.imp fun hlt heq => absurd (heq ▸ hlt) (lt_irrefl _)

/-- No two elements share an id, -/
theorem eq_of_id (h : s.Rep) {x y : QueryContextElement α τ π} (hx : x ∈ s.elements)
    (hy : y ∈ s.elements) (hid : x.id = y.id) : x = y := by
  obtain ⟨a, ha, hax⟩ := mem_elements.mp hx
  obtain ⟨b, hb, hby⟩ := mem_elements.mp hy
  have ha' := (h.idMap x.id a).mpr ⟨ha, x, hax, rfl⟩
  have hb' := (h.idMap x.id b).mpr ⟨hb, y, hby, hid.symm⟩
  have hab : a = b := Option.some.inj (ha'.symm.trans hb')
  rw [hab, hby] at hax
  exact (Option.some.inj hax).symm

/-- and their priorities ascend. -/
theorem elements_ascending (h : s.Rep) :
    s.elements.Pairwise fun x y => x.priority < y.priority := by
  rw [elements]
  refine List.Pairwise.filterMap _ (fun a b hab x hx y hy => ?_) h.ascending
  rw [priorityOf_eq hx, priorityOf_eq hy] at hab
  exact WithBot.coe_lt_coe.mp hab

theorem elements_nodup (h : s.Rep) : s.elements.Nodup :=
  h.elements_ascending.imp fun hlt heq => absurd (heq ▸ hlt) (lt_irrefl _)

theorem idMap_eq_none (h : s.Rep) {i : α} :
    s.idMap i = none ↔ ∀ x ∈ s.elements, x.id ≠ i := by
  constructor
  · intro hnone x hx hid
    obtain ⟨r, hr, hrx⟩ := mem_elements.mp hx
    have hsome := (h.idMap i r).mpr ⟨hr, x, hrx, hid⟩
    rw [hnone] at hsome
    exact absurd hsome (by simp)
  · intro hall
    by_contra hne
    obtain ⟨r, hr⟩ := Option.ne_none_iff_exists'.mp hne
    obtain ⟨hmem, x, hx, hid⟩ := (h.idMap i r).mp hr
    exact hall x (mem_elements.mpr ⟨r, hmem, hx⟩) hid

theorem priorityMap_eq_none (h : s.Rep) {p : π} :
    s.priorityMap p = none ↔ ∀ x ∈ s.elements, x.priority ≠ p := by
  constructor
  · intro hnone x hx hpriority
    obtain ⟨r, hr, hrx⟩ := mem_elements.mp hx
    have hsome := (h.priorityMap p r).mpr ⟨hr, x, hrx, hpriority⟩
    rw [hnone] at hsome
    exact absurd hsome (by simp)
  · intro hall
    by_contra hne
    obtain ⟨r, hr⟩ := Option.ne_none_iff_exists'.mp hne
    obtain ⟨hmem, x, hx, hpriority⟩ := (h.priorityMap p r).mp hr
    exact hall x (mem_elements.mpr ⟨r, hmem, hx⟩) hpriority

end Rep

end

/-! ## what the operations do -/

/-- `s'` has the elements of `s` that satisfy `P`, and `e` if there is one. -/
structure Becomes (s s' : QueryContextCache α τ π) (e : Option (QueryContextElement α τ π))
    (P : QueryContextElement α τ π → Prop) : Prop where
  rep : s'.Rep
  capacity : s'.capacity = s.capacity
  mem : ∀ x, x ∈ s'.elements ↔ e = some x ∨ x ∈ s.elements ∧ P x

section

variable {s s' : QueryContextCache α τ π} {r : Nat} {e : QueryContextElement α τ π}

omit [LinearOrder τ]

omit [DecidableEq α] in
/-- Another object comes into being. -/
theorem Rep.push (h : s.Rep) (e : QueryContextElement α τ π) :
    ({ s with objects := s.objects ++ [e] } : QueryContextCache α τ π).Rep ∧
    ({ s with objects := s.objects ++ [e] } : QueryContextCache α τ π).elements = s.elements ∧
    s.objects.length ∉ s.treeSet := by
  have hlt : ∀ r ∈ s.treeSet, r < s.objects.length := by
    intro r hr
    obtain ⟨x, hx⟩ := h.objects r hr
    exact (List.getElem?_eq_some_iff.mp hx).1
  have hsame : ∀ r ∈ s.treeSet, (s.objects ++ [e])[r]? = s.objects[r]? :=
    fun r hr => List.getElem?_append_left (hlt r hr)
  have hpriority : ∀ r ∈ s.treeSet,
      ({ s with objects := s.objects ++ [e] } : QueryContextCache α τ π).priorityOf r = s.priorityOf r := by
    intro r hr
    rw [priorityOf, priorityOf, hsame r hr]
  refine ⟨⟨fun i r => ?_, fun p r => ?_, fun r hr => ?_, ?_⟩, List.filterMap_congr hsame,
    fun hr => absurd (hlt _ hr) (lt_irrefl _)⟩
  · rw [h.idMap i r]
    exact and_congr_right fun hr => by rw [hsame r hr]
  · rw [h.priorityMap p r]
    exact and_congr_right fun hr => by rw [hsame r hr]
  · show ∃ x, (s.objects ++ [e])[r]? = some x
    rw [hsame r hr]
    exact h.objects r hr
  · refine h.ascending.imp_of_mem fun {a b} ha hb hab => ?_
    rw [hpriority a ha, hpriority b hb]
    exact hab

/-- An element is removed. -/
theorem Rep.removeQCE (h : s.Rep) (hr : r ∈ s.treeSet) (he : s.objects[r]? = some e) :
    s.Becomes (s.removeQCE r) none (· ≠ e) ∧ (s.removeQCE r).objects = s.objects ∧
      (s.removeQCE r).treeSet = s.treeSet.erase r := by
  have heq : s.removeQCE r = { s with
      idMap := Function.update s.idMap e.id none
      priorityMap := Function.update s.priorityMap e.priority none
      treeSet := s.treeSet.erase r } := by
    unfold QueryContextCache.removeQCE
    rw [he]
  have hmem : ∀ a, a ∈ s.treeSet.erase r ↔ a ≠ r ∧ a ∈ s.treeSet := fun a => h.nodup.mem_erase_iff
  have hid : s.idMap e.id = some r := (h.idMap _ r).mpr ⟨hr, e, he, rfl⟩
  have hpriority : s.priorityMap e.priority = some r := (h.priorityMap _ r).mpr ⟨hr, e, he, rfl⟩
  rw [heq]
  refine ⟨⟨⟨fun i a => ?_, fun p a => ?_, fun a ha => ?_, ?_⟩, rfl, fun x => ?_⟩, rfl, rfl⟩
  · show Function.update s.idMap e.id none i = some a ↔ a ∈ s.treeSet.erase r ∧ _
    rw [hmem, Function.update_apply]
    split
    · next hi =>
        subst hi
        constructor
        · intro hnone
          exact absurd hnone (by simp)
        · rintro ⟨⟨hne, ha⟩, x, hx, hxid⟩
          have ha' := (h.idMap e.id a).mpr ⟨ha, x, hx, hxid⟩
          exact absurd (Option.some.inj (ha'.symm.trans hid)) hne
    · next hi =>
        rw [h.idMap i a, and_assoc]
        constructor
        · rintro ⟨ha, x, hx, hxid⟩
          refine ⟨fun har => hi ?_, ha, x, hx, hxid⟩
          rw [har, he] at hx
          cases hx
          exact hxid.symm
        · exact And.right
  · show Function.update s.priorityMap e.priority none p = some a ↔ a ∈ s.treeSet.erase r ∧ _
    rw [hmem, Function.update_apply]
    split
    · next hp =>
        subst hp
        constructor
        · intro hnone
          exact absurd hnone (by simp)
        · rintro ⟨⟨hne, ha⟩, x, hx, hxp⟩
          have ha' := (h.priorityMap e.priority a).mpr ⟨ha, x, hx, hxp⟩
          exact absurd (Option.some.inj (ha'.symm.trans hpriority)) hne
    · next hp =>
        rw [h.priorityMap p a, and_assoc]
        constructor
        · rintro ⟨ha, x, hx, hxp⟩
          refine ⟨fun har => hp ?_, ha, x, hx, hxp⟩
          rw [har, he] at hx
          cases hx
          exact hxp.symm
        · exact And.right
  · exact h.objects a ((hmem a).mp ha).2
  · exact h.ascending.sublist List.erase_sublist
  · rw [mem_elements, mem_elements]
    constructor
    · rintro ⟨a, ha, hax⟩
      obtain ⟨hne, hmem'⟩ := (hmem a).mp ha
      refine .inr ⟨⟨a, hmem', hax⟩, fun hxe => hne ?_⟩
      have ha' := (h.idMap e.id a).mpr ⟨hmem', x, hax, by rw [hxe]⟩
      exact Option.some.inj (ha'.symm.trans hid)
    · rintro (hnone | ⟨⟨a, ha, hax⟩, hxe⟩)
      · exact absurd hnone (by simp)
      · refine ⟨a, (hmem a).mpr ⟨fun har => hxe ?_, ha⟩, hax⟩
        subst har
        rw [he] at hax
        exact (Option.some.inj hax).symm

/-- An element is added whose id and priority nobody has. -/
theorem Rep.addQCE (h : s.Rep) (hr : r ∉ s.treeSet) (he : s.objects[r]? = some e)
    (hid : ∀ x ∈ s.elements, x.id ≠ e.id) (hpriority : ∀ x ∈ s.elements, x.priority ≠ e.priority) :
    s.Becomes (s.addQCE r) (some e) fun _ => True := by
  have heq : s.addQCE r = { s with
      idMap := Function.update s.idMap e.id (some r)
      priorityMap := Function.update s.priorityMap e.priority (some r)
      treeSet := (s.treeSet ++ [r]).insertionSort fun a b => s.priorityOf a ≤ s.priorityOf b } := by
    unfold QueryContextCache.addQCE sortTreeSet
    rw [he]
    simp only [if_neg hr]
    rfl
  have hperm := List.perm_insertionSort (fun a b => s.priorityOf a ≤ s.priorityOf b) (s.treeSet ++ [r])
  have hmem : ∀ a, a ∈ (s.treeSet ++ [r]).insertionSort (fun a b =>
      s.priorityOf a ≤ s.priorityOf b) ↔ a = r ∨ a ∈ s.treeSet := by
    intro a
    rw [hperm.mem_iff, List.mem_append, List.mem_singleton, or_comm]
  have hinside : ∀ a ∈ s.treeSet, ∃ x ∈ s.elements, s.objects[a]? = some x := by
    intro a ha
    obtain ⟨x, hx⟩ := h.objects a ha
    exact ⟨x, mem_elements.mpr ⟨a, ha, hx⟩, hx⟩
  have hsorted : ((s.treeSet ++ [r]).insertionSort fun a b =>
      s.priorityOf a ≤ s.priorityOf b).Pairwise fun a b => s.priorityOf a < s.priorityOf b := by
    have : Std.Total fun a b => s.priorityOf a ≤ s.priorityOf b := ⟨fun a b => le_total _ _⟩
    have : IsTrans Nat fun a b => s.priorityOf a ≤ s.priorityOf b := ⟨fun a b c => le_trans⟩
    have hle := List.pairwise_insertionSort (fun a b => s.priorityOf a ≤ s.priorityOf b)
      (s.treeSet ++ [r])
    have hnodup : (s.treeSet ++ [r]).Nodup := by
      rw [List.nodup_append_comm, List.singleton_append]
      exact List.nodup_cons.mpr ⟨hr, h.nodup⟩
    have hpair := hle.and (hperm.nodup_iff.mpr hnodup)
    refine hpair.imp_of_mem fun {a b} ha hb hab => ?_
    refine lt_of_le_of_ne hab.1 fun hsame => ?_
    have hdistinct : ∀ a b, a ∈ s.treeSet → b ∈ s.treeSet → s.priorityOf a = s.priorityOf b → a = b := by
      intro a b ha hb hsame
      obtain ⟨x, -, hx⟩ := hinside a ha
      obtain ⟨y, -, hy⟩ := hinside b hb
      rw [priorityOf_eq hx, priorityOf_eq hy] at hsame
      have ha' := (h.priorityMap x.priority a).mpr ⟨ha, x, hx, rfl⟩
      have hb' := (h.priorityMap x.priority b).mpr ⟨hb, y, hy, (WithBot.coe_inj.mp hsame).symm⟩
      exact Option.some.inj (ha'.symm.trans hb')
    have hnew : ∀ a ∈ s.treeSet, s.priorityOf a ≠ s.priorityOf r := by
      intro a ha hsame
      obtain ⟨x, hx, hax⟩ := hinside a ha
      rw [priorityOf_eq hax, priorityOf_eq he] at hsame
      exact hpriority x hx (WithBot.coe_inj.mp hsame)
    rcases (hmem a).mp ha with har | ha' <;> rcases (hmem b).mp hb with hbr | hb'
    · exact hab.2 (har.trans hbr.symm)
    · rw [har] at hsame
      exact hnew b hb' hsame.symm
    · rw [hbr] at hsame
      exact hnew a ha' hsame
    · exact hab.2 (hdistinct a b ha' hb' hsame)
  rw [heq]
  refine ⟨⟨fun i a => ?_, fun p a => ?_, fun a ha => ?_, hsorted⟩, rfl, fun x => ?_⟩
  · show Function.update s.idMap e.id (some r) i = some a ↔ a ∈ List.insertionSort _ _ ∧ _
    rw [hmem, Function.update_apply]
    split
    · next hi =>
        subst hi
        constructor
        · intro hsome
          cases hsome
          exact ⟨.inl rfl, e, he, rfl⟩
        · rintro ⟨har | ha, x, hx, hxid⟩
          · rw [har]
          · exact absurd hxid (hid x (mem_elements.mpr ⟨a, ha, hx⟩))
    · next hi =>
        rw [h.idMap i a]
        constructor
        · rintro ⟨ha, hx⟩
          exact ⟨.inr ha, hx⟩
        · rintro ⟨rfl | ha, x, hx, hxid⟩
          · rw [he] at hx
            cases hx
            exact absurd hxid.symm hi
          · exact ⟨ha, x, hx, hxid⟩
  · show Function.update s.priorityMap e.priority (some r) p = some a ↔ a ∈ List.insertionSort _ _ ∧ _
    rw [hmem, Function.update_apply]
    split
    · next hp =>
        subst hp
        constructor
        · intro hsome
          cases hsome
          exact ⟨.inl rfl, e, he, rfl⟩
        · rintro ⟨har | ha, x, hx, hxp⟩
          · rw [har]
          · exact absurd hxp (hpriority x (mem_elements.mpr ⟨a, ha, hx⟩))
    · next hp =>
        rw [h.priorityMap p a]
        constructor
        · rintro ⟨ha, hx⟩
          exact ⟨.inr ha, hx⟩
        · rintro ⟨rfl | ha, x, hx, hxp⟩
          · rw [he] at hx
            cases hx
            exact absurd hxp.symm hp
          · exact ⟨ha, x, hx, hxp⟩
  · rcases (hmem a).mp ha with rfl | ha'
    · exact ⟨e, he⟩
    · exact h.objects a ha'
  · rw [mem_elements, mem_elements]
    constructor
    · rintro ⟨a, ha, hax⟩
      rcases (hmem a).mp ha with rfl | ha'
      · exact .inl (he.symm.trans hax)
      · exact .inr ⟨⟨a, ha', hax⟩, trivial⟩
    · rintro (hx | ⟨⟨a, ha, hax⟩, -⟩)
      · exact ⟨r, (hmem r).mpr (.inl rfl), he.trans hx⟩
      · exact ⟨a, (hmem a).mpr (.inr ha), hax⟩

end

section

variable {s : QueryContextCache α τ π} {old new : Nat} {e qce : QueryContextElement α τ π}

omit [LinearOrder τ]

omit [DecidableEq α] in
/-- Two elements share no priority either. -/
theorem Rep.eq_of_priority (h : s.Rep) {x y : QueryContextElement α τ π} (hx : x ∈ s.elements)
    (hy : y ∈ s.elements) (hp : x.priority = y.priority) : x = y := by
  obtain ⟨a, ha, hax⟩ := mem_elements.mp hx
  obtain ⟨b, hb, hby⟩ := mem_elements.mp hy
  have ha' := (h.priorityMap x.priority a).mpr ⟨ha, x, hax, rfl⟩
  have hb' := (h.priorityMap x.priority b).mpr ⟨hb, y, hby, hp.symm⟩
  have hab : a = b := Option.some.inj (ha'.symm.trans hb')
  rw [hab, hby] at hax
  exact (Option.some.inj hax).symm

/-- An element is replaced by one that agrees with no other. -/
theorem Rep.replaceQCE (h : s.Rep) (hold : old ∈ s.treeSet) (hqce : s.objects[old]? = some qce)
    (hnew : new ∉ s.treeSet) (he : s.objects[new]? = some e)
    (hid : ∀ x ∈ s.elements, x ≠ qce → x.id ≠ e.id)
    (hpriority : ∀ x ∈ s.elements, x ≠ qce → x.priority ≠ e.priority) :
    s.Becomes (s.replaceQCE old new) (some e) (· ≠ qce) := by
  obtain ⟨hremoved, hobjects, htree⟩ := h.removeQCE hold hqce
  have hmem : ∀ x, x ∈ (s.removeQCE old).elements ↔ x ∈ s.elements ∧ x ≠ qce := by
    intro x
    rw [hremoved.mem x]
    simp
  have hadded : (s.removeQCE old).Becomes (s.replaceQCE old new) (some e) fun _ => True := by
    refine hremoved.rep.addQCE ?_ ?_ (fun x hx => ?_) (fun x hx => ?_)
    · rw [htree]
      exact fun hmem => hnew (List.mem_of_mem_erase hmem)
    · rw [hobjects]
      exact he
    · exact hid x ((hmem x).mp hx).1 ((hmem x).mp hx).2
    · exact hpriority x ((hmem x).mp hx).1 ((hmem x).mp hx).2
  refine ⟨hadded.rep, hadded.capacity.trans hremoved.capacity, fun x => ?_⟩
  rw [hadded.mem x, hmem x, and_true]

omit [DecidableEq α] in
/-- An element is overwritten at the same place. -/
theorem Rep.overwrite (h : s.Rep) (hold : old ∈ s.treeSet) (hqce : s.objects[old]? = some qce)
    (hid : e.id = qce.id) (hpriority : e.priority = qce.priority) :
    s.Becomes { s with objects := s.objects.set old e } (some e) (· ≠ qce) := by
  have hlt : old < s.objects.length := (List.getElem?_eq_some_iff.mp hqce).1
  have hget : ∀ a, (s.objects.set old e)[a]? = if a = old then some e else s.objects[a]? := by
    intro a
    rw [List.getElem?_set]
    by_cases ha : a = old
    · rw [if_pos ha.symm, if_pos hlt, if_pos ha]
    · rw [if_neg (Ne.symm ha), if_neg ha]
  have hids : ∀ (a : Nat) (i : α), (∃ x, (s.objects.set old e)[a]? = some x ∧ x.id = i) ↔
      ∃ x, s.objects[a]? = some x ∧ x.id = i := by
    intro a i
    rw [hget a]
    by_cases ha : a = old
    · rw [if_pos ha, ha, hqce]
      simp [hid]
    · rw [if_neg ha]
  have hpriorities : ∀ (a : Nat) (p : π), (∃ x, (s.objects.set old e)[a]? = some x ∧ x.priority = p) ↔
      ∃ x, s.objects[a]? = some x ∧ x.priority = p := by
    intro a p
    rw [hget a]
    by_cases ha : a = old
    · rw [if_pos ha, ha, hqce]
      simp [hpriority]
    · rw [if_neg ha]
  have hsame : ∀ a, ({ s with objects := s.objects.set old e } : QueryContextCache α τ π).priorityOf a =
      s.priorityOf a := by
    intro a
    by_cases ha : a = old
    · rw [ha, priorityOf_eq (e := e) (by rw [hget old, if_pos rfl]), priorityOf_eq hqce, hpriority]
    · rw [priorityOf, priorityOf, hget a, if_neg ha]
  refine ⟨⟨fun i a => ?_, fun p a => ?_, fun a ha => ?_, ?_⟩, rfl, fun x => ?_⟩
  · rw [h.idMap i a]
    exact and_congr_right fun _ => (hids a i).symm
  · rw [h.priorityMap p a]
    exact and_congr_right fun _ => (hpriorities a p).symm
  · show ∃ x, (s.objects.set old e)[a]? = some x
    rw [hget a]
    split
    · exact ⟨e, rfl⟩
    · exact h.objects a ha
  · refine h.ascending.imp fun {a b} hab => ?_
    rw [hsame a, hsame b]
    exact hab
  · rw [mem_elements, mem_elements]
    show (∃ a ∈ s.treeSet, (s.objects.set old e)[a]? = some x) ↔ _
    constructor
    · rintro ⟨a, ha, hax⟩
      rw [hget a] at hax
      split at hax
      · exact .inl hax
      · next hne =>
          refine .inr ⟨⟨a, ha, hax⟩, fun hx => hne ?_⟩
          have ha' := (h.idMap qce.id a).mpr ⟨ha, x, hax, by rw [hx]⟩
          have hold' := (h.idMap qce.id old).mpr ⟨hold, qce, hqce, rfl⟩
          exact Option.some.inj (ha'.symm.trans hold')
    · rintro (hx | ⟨⟨a, ha, hax⟩, hne⟩)
      · exact ⟨old, hold, by rw [hget old, if_pos rfl, hx]⟩
      · refine ⟨a, ha, ?_⟩
        rw [hget a, if_neg]
        · exact hax
        · intro hold'
          rw [hold', hqce] at hax
          exact hne (Option.some.inj hax).symm

end

/-! ## merging -/

/-- The entry does not move a cached id to a priority that another id has. -/
def Unobstructed (s : QueryContextCache α τ π) (newQCE : QueryContextElement α τ π) : Prop :=
  match (s.idMap newQCE.id).bind fun old => s.objects[old]? with
  | none => True
  | some qce => qce.timestamp ≤ newQCE.timestamp → qce.priority ≠ newQCE.priority →
      s.priorityMap newQCE.priority = none

instance (s : QueryContextCache α τ π) (newQCE : QueryContextElement α τ π) :
    Decidable (s.Unobstructed newQCE) := by
  unfold Unobstructed
  split <;> infer_instance

/-- An entry is merged: it takes the place of the elements with its id or its
priority, or it is older than the element with its id and is ignored. -/
theorem Rep.merge {s : QueryContextCache α τ π} {e : QueryContextElement α τ π} (h : s.Rep)
    (hfree : s.Unobstructed e) :
    s.Becomes (s.merge e) (some e) (fun x => x.id ≠ e.id ∧ x.priority ≠ e.priority) ∨
    s.Becomes (s.merge e) none (fun _ => True) ∧ ∃ x ∈ s.elements, x.id = e.id ∧ e.timestamp ≤ x.timestamp := by
  obtain ⟨hrep, helements, hnew⟩ := h.push e
  let s₁ : QueryContextCache α τ π := { s with objects := s.objects ++ [e] }
  have hobject : s₁.objects[s.objects.length]? = some e := by
    show (s.objects ++ [e])[s.objects.length]? = some e
    rw [List.getElem?_append_right (le_refl _), Nat.sub_self]
    rfl
  -- what becomes of the cache with the new object becomes of the cache
  have hback : ∀ {s' P Q} {x : Option (QueryContextElement α τ π)}, s₁.Becomes s' x P →
      (∀ y ∈ s.elements, P y ↔ Q y) → s.Becomes s' x Q := by
    intro s' P Q x hbecomes hiff
    refine ⟨hbecomes.rep, hbecomes.capacity, fun y => ?_⟩
    rw [hbecomes.mem y, helements]
    exact or_congr_right (and_congr_right fun hy => hiff y hy)
  have hunchanged : s.Becomes s₁ none fun _ => True := by
    refine ⟨hrep, rfl, fun y => ?_⟩
    rw [helements]
    simp
  unfold QueryContextCache.merge
  simp only
  cases hold : s.idMap e.id with
  | some old =>
      obtain ⟨hmem, qce, hqce, hid⟩ := (hrep.idMap e.id old).mp hold
      have hcached : qce ∈ s.elements := by
        rw [← helements]
        exact mem_elements.mpr ⟨old, hmem, hqce⟩
      have hqce' : s.objects[old]? = some qce := by
        obtain ⟨-, x, hx, -⟩ := (h.idMap e.id old).mp hold
        have hlt := (List.getElem?_eq_some_iff.mp hx).1
        rw [← hqce]
        exact (List.getElem?_append_left hlt).symm
      have hids : ∀ x ∈ s.elements, x ≠ qce → x.id ≠ e.id := by
        intro x hx hne hxe
        exact hne (h.eq_of_id hx hcached (hxe.trans hid.symm))
      have hqce'' : (s.objects ++ [e])[old]? = some qce := hqce
      simp only [hqce'']
      have hreplace : qce.timestamp ≤ e.timestamp → qce.priority ≠ e.priority →
          s.Becomes (s₁.replaceQCE old s.objects.length) (some e)
            fun x => x.id ≠ e.id ∧ x.priority ≠ e.priority := by
        intro hle hchanged
        have hnone : s.priorityMap e.priority = none := by
          unfold Unobstructed at hfree
          rw [hold] at hfree
          simp only [Option.bind_some, hqce'] at hfree
          exact hfree hle hchanged
        have hpriorities := h.priorityMap_eq_none.mp hnone
        refine hback (hrep.replaceQCE hmem hqce hnew hobject (fun x hx => ?_) fun x hx _ => ?_)
          fun x hx => ?_
        · rw [helements] at hx
          exact hids x hx
        · rw [helements] at hx
          exact hpriorities x hx
        · exact ⟨fun hne => ⟨hids x hx hne, hpriorities x hx⟩, fun hne hxe => hne.1 (hxe ▸ hid)⟩
      split
      · next hnewer =>
          split
          · next hsame =>
              left
              have he : ({ qce with timestamp := e.timestamp, context := e.context } :
                  QueryContextElement α τ π) = e := by
                cases e
                simp_all
              rw [he]
              refine hback (hrep.overwrite hmem hqce hid.symm hsame.symm) fun x hx => ?_
              constructor
              · intro hne
                exact ⟨hids x hx hne, fun hp => hne (h.eq_of_priority hx hcached (hp.trans hsame.symm))⟩
              · intro hne hxe
                exact hne.1 (hxe ▸ hid)
          · next hchanged => exact .inl (hreplace (le_of_lt hnewer) hchanged)
      · next hnewer =>
          split
          · next hsame => exact .inl (hreplace (le_of_eq hsame.1.symm) hsame.2)
          · exact .inr ⟨hunchanged, qce, hcached, hid, not_lt.mp hnewer⟩
  | none =>
      have hids := h.idMap_eq_none.mp hold
      left
      cases hpriority : s.priorityMap e.priority with
      | some old =>
          obtain ⟨hmem, qce, hqce, hp⟩ := (hrep.priorityMap e.priority old).mp hpriority
          have hcached : qce ∈ s.elements := by
            rw [← helements]
            exact mem_elements.mpr ⟨old, hmem, hqce⟩
          have hpriorities : ∀ x ∈ s.elements, x ≠ qce → x.priority ≠ e.priority := by
            intro x hx hne hxe
            exact hne (h.eq_of_priority hx hcached (hxe.trans hp.symm))
          refine hback (hrep.replaceQCE hmem hqce hnew hobject (fun x hx _ => ?_) fun x hx => ?_)
            fun x hx => ?_
          · rw [helements] at hx
            exact hids x hx
          · rw [helements] at hx
            exact hpriorities x hx
          · exact ⟨fun hne => ⟨hids x hx, hpriorities x hx hne⟩, fun hne hxe => hne.2 (hxe ▸ hp)⟩
      | none =>
          have hpriorities := h.priorityMap_eq_none.mp hpriority
          refine hback (hrep.addQCE hnew hobject (fun x hx => ?_) fun x hx => ?_) fun x hx => ?_
          · rw [helements] at hx
            exact hids x hx
          · rw [helements] at hx
            exact hpriorities x hx
          · exact ⟨fun _ => ⟨hids x hx, hpriorities x hx⟩, fun _ => trivial⟩

/-! ## the capacity -/

section

variable {s : QueryContextCache α τ π}

omit [LinearOrder τ]

omit [DecidableEq α] [LinearOrder π] in
/-- The elements of the first few. -/
theorem elements_take (h : ∀ r ∈ s.treeSet, ∃ e, s.objects[r]? = some e) (n : Nat) :
    ({ s with treeSet := s.treeSet.take n } : QueryContextCache α τ π).elements =
      s.elements.take n := by
  show (s.treeSet.take n).filterMap _ = (s.treeSet.filterMap _).take n
  generalize s.treeSet = l at h
  induction l generalizing n with
  | nil => simp
  | cons r l ih =>
      obtain ⟨e, he⟩ := h r (by simp)
      cases n with
      | zero => rfl
      | succ n =>
          rw [List.take_succ_cons, List.filterMap_cons_some he, List.filterMap_cons_some he,
            List.take_succ_cons, ih n fun r hr => h r (List.mem_cons_of_mem _ hr)]

/-- The loop removes from the end what exceeds the capacity. -/
theorem Rep.loop (h : s.Rep) (n : Nat) (hn : s.treeSet.length ≤ n) :
    (checkCacheCapacity.loop n s).Rep ∧
    (checkCacheCapacity.loop n s).capacity = s.capacity ∧
    (checkCacheCapacity.loop n s).objects = s.objects ∧
    (checkCacheCapacity.loop n s).treeSet = s.treeSet.take s.capacity := by
  induction n generalizing s with
  | zero =>
      have hnil := List.eq_nil_of_length_eq_zero (Nat.le_zero.mp hn)
      exact ⟨h, rfl, rfl, by rw [checkCacheCapacity.loop, hnil, List.take_nil]⟩
  | succ n ih =>
      rw [checkCacheCapacity.loop]
      by_cases hover : s.treeSet.length > s.capacity
      · have hne : s.treeSet ≠ [] := by
          intro hnil
          rw [hnil] at hover
          exact absurd hover (by simp)
        have hlast := List.getLast?_eq_some_getLast hne
        obtain ⟨e, he⟩ := h.objects _ (List.getLast_mem hne)
        obtain ⟨hremoved, hobjects, htree⟩ := h.removeQCE (List.getLast_mem hne) he
        have hdrop : s.treeSet.erase (s.treeSet.getLast hne) = s.treeSet.dropLast := by
          have hsplit := List.dropLast_append_getLast hne
          have hnot : s.treeSet.getLast hne ∉ s.treeSet.dropLast := by
            intro hmem
            have hnodup := h.nodup
            rw [← hsplit, List.nodup_append] at hnodup
            exact hnodup.2.2 _ hmem _ (by simp) rfl
          calc s.treeSet.erase (s.treeSet.getLast hne)
              = (s.treeSet.dropLast ++ [s.treeSet.getLast hne]).erase (s.treeSet.getLast hne) := by
                rw [hsplit]
            _ = s.treeSet.dropLast := by
                rw [List.erase_append_right _ hnot]
                simp
        rw [if_pos hover, hlast]
        have hlen : (s.removeQCE (s.treeSet.getLast hne)).treeSet.length ≤ n := by
          rw [htree, hdrop, List.length_dropLast]
          omega
        obtain ⟨hrep, hcapacity, hobjects', htree'⟩ := ih hremoved.rep hlen
        refine ⟨hrep, hcapacity.trans hremoved.capacity, hobjects'.trans hobjects, ?_⟩
        rw [htree', htree, hdrop, hremoved.capacity, List.dropLast_eq_take, List.take_take,
          Nat.min_eq_left (by omega)]
      · rw [if_neg hover]
        exact ⟨h, rfl, rfl, (List.take_of_length_le (not_lt.mp hover)).symm⟩

/-- What exceeds the capacity is removed, the highest priority numbers first. -/
theorem Rep.checkCacheCapacity (h : s.Rep) :
    s.checkCacheCapacity.Rep ∧ s.checkCacheCapacity.capacity = s.capacity ∧
    s.checkCacheCapacity.elements = s.elements.take s.capacity ∧
    s.checkCacheCapacity.treeSet.length ≤ s.capacity := by
  obtain ⟨hrep, hcapacity, hobjects, htree⟩ := h.loop s.treeSet.length (le_refl _)
  refine ⟨hrep, hcapacity, ?_, ?_⟩
  · rw [← elements_take h.objects, elements, elements, QueryContextCache.checkCacheCapacity, hobjects, htree]
  · rw [QueryContextCache.checkCacheCapacity, htree, List.length_take]
    exact Nat.min_le_left _ _

end

/-! ## runs -/

/-- No entry of the response is in the way of another, or of the cache. -/
def UnobstructedAll : List (Option (Node α τ π)) → QueryContextCache α τ π → Prop
  | [], _ => True
  | none :: _, _ => True
  | some node :: entries, s =>
      match deserializeQueryContextElement node with
      | some entry => s.Unobstructed entry ∧ UnobstructedAll entries (s.merge entry)
      | none => True

instance decidableUnobstructedAll :
    ∀ (entries : List (Option (Node α τ π))) (s : QueryContextCache α τ π),
      Decidable (UnobstructedAll entries s)
  | [], _ => isTrue trivial
  | none :: _, _ => isTrue trivial
  | some node :: entries, s =>
      match h : deserializeQueryContextElement node with
      | some entry =>
          have := decidableUnobstructedAll entries (s.merge entry)
          decidable_of_iff (s.Unobstructed entry ∧ UnobstructedAll entries (s.merge entry))
            (by simp [UnobstructedAll, h])
      | none => isTrue (by simp [UnobstructedAll, h])

/-- What is done to a cache. -/
inductive Event (α τ π : Type*)
  | merge (newQCE : QueryContextElement α τ π)
  | checkCacheCapacity
  | clearCache
  | deserializeQueryContext (data : Data α τ π)

def step (s : QueryContextCache α τ π) : Event α τ π → Option (QueryContextCache α τ π)
  | .merge newQCE => some (s.merge newQCE)
  | .checkCacheCapacity => some s.checkCacheCapacity
  | .clearCache => some s.clearCache
  | .deserializeQueryContext data => some (s.deserializeQueryContext data)

/-- No entry moves a cached id to a priority that another id has at that moment. -/
def EventUnobstructed (s : QueryContextCache α τ π) : Event α τ π → Prop
  | .merge newQCE => s.Unobstructed newQCE
  | .deserializeQueryContext (.entries (some entries)) => UnobstructedAll entries s
  | _ => True

instance (s : QueryContextCache α τ π) : ∀ e, Decidable (s.EventUnobstructed e)
  | .merge newQCE => inferInstanceAs (Decidable (s.Unobstructed newQCE))
  | .checkCacheCapacity => isTrue trivial
  | .clearCache => isTrue trivial
  | .deserializeQueryContext .empty => isTrue trivial
  | .deserializeQueryContext (.entries none) => isTrue trivial
  | .deserializeQueryContext (.entries (some entries)) =>
      inferInstanceAs (Decidable (UnobstructedAll entries s))

section

variable {s t : QueryContextCache α τ π}

theorem Rep.merge_rep {e : QueryContextElement α τ π} (h : s.Rep) (hfree : s.Unobstructed e) :
    (s.merge e).Rep ∧ (s.merge e).capacity = s.capacity := by
  obtain hbecomes | ⟨hbecomes, -⟩ := h.merge hfree
  · exact ⟨hbecomes.rep, hbecomes.capacity⟩
  · exact ⟨hbecomes.rep, hbecomes.capacity⟩

/-- A response is merged. -/
theorem Rep.mergeEntries (entries : List (Option (Node α τ π))) (h : s.Rep)
    (hfree : UnobstructedAll entries s) :
    (mergeEntries entries s).Rep ∧ (mergeEntries entries s).capacity = s.capacity ∧
    (mergeEntries entries s).treeSet.length ≤ s.capacity := by
  induction entries generalizing s with
  | nil =>
      obtain ⟨hrep, hcapacity, -, hlen⟩ := h.checkCacheCapacity
      exact ⟨hrep, hcapacity, hlen⟩
  | cons node entries ih =>
      cases node with
      | none =>
          obtain ⟨hrep, hcapacity, -, hlen⟩ := (rep_clearCache s).checkCacheCapacity
          exact ⟨hrep, hcapacity, hlen⟩
      | some node =>
          unfold QueryContextCache.mergeEntries
          unfold UnobstructedAll at hfree
          cases hentry : deserializeQueryContextElement node with
          | none => exact ⟨rep_clearCache s, rfl, Nat.zero_le _⟩
          | some entry =>
              simp only [hentry] at hfree
              obtain ⟨hrep, hcapacity⟩ := h.merge_rep hfree.1
              rw [← hcapacity]
              exact ih hrep hfree.2

theorem Rep.deserializeQueryContext (data : Data α τ π) (h : s.Rep)
    (hfree : s.EventUnobstructed (.deserializeQueryContext data)) :
    (s.deserializeQueryContext data).Rep ∧ (s.deserializeQueryContext data).capacity = s.capacity ∧
    (s.deserializeQueryContext data).treeSet.length ≤ s.capacity := by
  match data with
  | .empty => exact ⟨rep_clearCache s, rfl, Nat.zero_le _⟩
  | .entries none =>
      obtain ⟨hrep, hcapacity, -, hlen⟩ := h.checkCacheCapacity
      exact ⟨hrep, hcapacity, hlen⟩
  | .entries (some entries) => exact h.mergeEntries entries hfree

theorem Rep.step {e : Event α τ π} (h : s.Rep) (hfree : s.EventUnobstructed e)
    (hstep : s.step e = some t) : t.Rep ∧ t.capacity = s.capacity := by
  cases e with
  | merge newQCE =>
      cases hstep
      exact h.merge_rep hfree
  | checkCacheCapacity =>
      cases hstep
      obtain ⟨hrep, hcapacity, -, -⟩ := h.checkCacheCapacity
      exact ⟨hrep, hcapacity⟩
  | clearCache =>
      cases hstep
      exact ⟨rep_clearCache s, rfl⟩
  | deserializeQueryContext data =>
      cases hstep
      obtain ⟨hrep, hcapacity, -⟩ := h.deserializeQueryContext data hfree
      exact ⟨hrep, hcapacity⟩

end

/-- Every run without an obstructed entry ends in a cache whose three indexes hold the
same elements, with distinct ids and in ascending order of their priorities, and a
response leaves at most as many as the capacity. -/
theorem rep_of_unobstructed (capacity : Nat) (es : List (Event α τ π))
    (s : QueryContextCache α τ π) (hfree : Lts.Along step EventUnobstructed (create capacity) es)
    (h : Lts.exec step (create capacity) es = some s) :
    s.Rep ∧ (s.elements.Pairwise fun x y => x.id ≠ y.id) ∧
    (s.elements.Pairwise fun x y => x.priority < y.priority) ∧
    ∀ data, es.getLast? = some (.deserializeQueryContext data) → s.treeSet.length ≤ capacity := by
  have hkeep : ∀ {t : QueryContextCache α τ π} {fs}, Lts.Along step EventUnobstructed (create capacity) fs →
      Lts.exec step (create capacity) fs = some t → t.Rep ∧ t.capacity = capacity := by
    intro t fs hfree h
    have hkeeps : ∀ (s : QueryContextCache α τ π) e t, (s.Rep ∧ s.capacity = capacity) →
        EventUnobstructed s e → step s e = some t → t.Rep ∧ t.capacity = capacity := by
      intro s e t hinv hP hstep
      obtain ⟨hrep, hcapacity⟩ := hinv.1.step hP hstep
      exact ⟨hrep, hcapacity.trans hinv.2⟩
    exact Lts.exec_invariant_of_along hkeeps ⟨rep_create capacity, rfl⟩ hfree h
  have hrep := (hkeep hfree h).1
  refine ⟨hrep, ?_, hrep.elements_ascending, fun data hlast => ?_⟩
  · refine hrep.elements_nodup.imp_of_mem fun {x y} hx hy hne hid => ?_
    exact hne (hrep.eq_of_id hx hy hid)
  · obtain ⟨fs, rfl⟩ := List.getLast?_eq_some_iff.mp hlast
    obtain ⟨hfront, hlast'⟩ := Lts.along_append.mp hfree
    rw [Lts.exec_append] at h
    obtain ⟨u, hu, hstep⟩ := Option.bind_eq_some_iff.mp h
    obtain ⟨hurep, hucapacity⟩ := hkeep hfront hu
    cases hstep
    rw [← hucapacity]
    exact (hurep.deserializeQueryContext data (hlast' u hu).1).2.2

/-- Two responses; the second one takes over the priority of an element it replaces, and
brings more elements than the cache may hold. -/
def exchangingResponses : List (Event Nat Nat Nat) :=
  [ .deserializeQueryContext (.entries (some
      [some ⟨0, 10, 0, .string "main"⟩, some ⟨1, 10, 1, .string "one"⟩])),
    .deserializeQueryContext (.entries (some
      [some ⟨0, 11, 2, .empty⟩, some ⟨2, 11, 1, .string "two"⟩, some ⟨3, 11, 0, .string "three"⟩])) ]

theorem rep_of_unobstructed_exchanging :
    Lts.Along step EventUnobstructed (create 2) exchangingResponses ∧
    ∃ s, Lts.exec step (create 2) exchangingResponses = some s ∧ s.elements.map (·.id) = [3, 2] ∧
      s.Rep ∧ s.treeSet.length ≤ 2 := by
  have hfree : Lts.Along step EventUnobstructed (create 2) exchangingResponses := by decide
  obtain ⟨s, hs, hids⟩ : ∃ s, Lts.exec step (create 2) exchangingResponses = some s ∧
      s.elements.map (·.id) = [3, 2] := Lts.exists_exec (by decide)
  obtain ⟨hrep, -, -, hlen⟩ := rep_of_unobstructed 2 exchangingResponses s hfree hs
  exact ⟨hfree, s, hs, hids, hrep, hlen _ rfl⟩

/-- The second response moves id 0 to the priority of id 1, which stays. -/
def collidingResponses : List (Event Nat Nat Nat) :=
  [ .deserializeQueryContext (.entries (some
      [some ⟨0, 10, 0, .string "main"⟩, some ⟨1, 10, 1, .string "one"⟩])),
    .deserializeQueryContext (.entries (some [some ⟨0, 11, 1, .string "main"⟩])) ]

/-- Two elements have one priority, and the priority leads to one of them only. -/
theorem exists_two_of_one_priority :
    ¬ ∀ es s, Lts.exec step (create 5 : QueryContextCache Nat Nat Nat) es = some s →
      (s.elements.Pairwise fun x y => x.priority ≠ y.priority) ∧
      ∀ x ∈ s.elements, ∃ r, s.priorityMap x.priority = some r ∧ s.objects[r]? = some x := by
  intro hall
  obtain ⟨s, hs, hpriorities⟩ : ∃ s, Lts.exec step (create 5) collidingResponses = some s ∧
      ¬ s.elements.Pairwise fun x y => x.priority ≠ y.priority := Lts.exists_exec (by decide)
  exact hpriorities (hall collidingResponses s hs).1

end QueryContextCache

end SnowflakeConnector
