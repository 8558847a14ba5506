import SnowflakeConnector.QueryContextCache

/-!
# SnowflakeConnector.QueryContextCache.Specification

What `deserializeQueryContext` is for: the entries of a response take the place of the
cached elements with their ids and with their priorities, and the elements with the
lowest priority numbers stay.  `specified` says so without an order of the entries.

* `deserializeQueryContext_eq_specified` -- the cache does what is specified while no
  entry is in the way of another, hence in whatever order they are listed.
-/

namespace SnowflakeConnector

namespace QueryContextCache

variable {α τ π : Type*}

/-- The entry of a response that an element is read from. -/
def Node.ofElement (e : QueryContextElement α τ π) : Node α τ π where
  id := e.id
  timestamp := e.timestamp
  priority := e.priority
  context :=
    match e.context with
    | some context => .string context
    | none => .empty

/-- A response that lists the given elements. -/
def Data.ofElements (response : List (QueryContextElement α τ π)) : Data α τ π :=
  .entries (some (response.map fun e => some (Node.ofElement e)))

theorem deserializeQueryContextElement_ofElement (e : QueryContextElement α τ π) :
    deserializeQueryContextElement (Node.ofElement e) = some e := by
  obtain ⟨id, timestamp, priority, context⟩ := e
  cases context with
  | none => rfl
  | some context => rfl

variable [LinearOrder π] [DecidableEq α]

/-- The cached elements whose id and priority the response does not use. -/
def kept (response cached : List (QueryContextElement α τ π)) : List (QueryContextElement α τ π) :=
  cached.filter fun x => response.all fun e => decide (x.id ≠ e.id ∧ x.priority ≠ e.priority)

/-- The elements with the lowest priority numbers among those of the response and those
that are kept. -/
def specified (capacity : Nat) (response cached : List (QueryContextElement α τ π)) :
    List (QueryContextElement α τ π) :=
  ((response ++ kept response cached).insertionSort fun x y => x.priority ≤ y.priority).take capacity

variable [LinearOrder τ]

/-- Distinct ids, distinct priorities, and news of the ids that are cached. -/
structure Admissible (s : QueryContextCache α τ π) (response : List (QueryContextElement α τ π)) :
    Prop where
  ids : response.Pairwise fun x y => x.id ≠ y.id
  priorities : response.Pairwise fun x y => x.priority ≠ y.priority
  newer : ∀ e ∈ response, ∀ x ∈ s.elements, x.id = e.id → x.timestamp < e.timestamp

instance (s : QueryContextCache α τ π) (response : List (QueryContextElement α τ π)) :
    Decidable (s.Admissible response) :=
  decidable_of_iff ((response.Pairwise fun x y => x.id ≠ y.id) ∧
      (response.Pairwise fun x y => x.priority ≠ y.priority) ∧
      ∀ e ∈ response, ∀ x ∈ s.elements, x.id = e.id → x.timestamp < e.timestamp)
    ⟨fun h => ⟨h.1, h.2.1, h.2.2⟩, fun h => ⟨h.ids, h.priorities, h.newer⟩⟩

section

omit [DecidableEq α] [LinearOrder τ]

variable {response cached : List (QueryContextElement α τ π)} {x : QueryContextElement α τ π}

theorem mem_kept [DecidableEq α] : x ∈ kept response cached ↔
    x ∈ cached ∧ ∀ e ∈ response, x.id ≠ e.id ∧ x.priority ≠ e.priority := by
  simp [kept]

/-- Two lists of the same elements in ascending order of the priorities are one. -/
theorem eq_insertionSort {l₁ l₂ : List (QueryContextElement α τ π)}
    (hascending : l₁.Pairwise fun x y => x.priority < y.priority)
    (hdistinct : l₂.Pairwise fun x y => x.priority ≠ y.priority) (hmem : ∀ x, x ∈ l₁ ↔ x ∈ l₂) :
    l₁ = l₂.insertionSort fun x y => x.priority ≤ y.priority := by
  have : Std.Total fun x y : QueryContextElement α τ π => x.priority ≤ y.priority :=
    ⟨fun x y => le_total _ _⟩
  have : IsTrans (QueryContextElement α τ π) fun x y => x.priority ≤ y.priority :=
    ⟨fun x y z => le_trans⟩
  have hperm := List.perm_insertionSort
    (fun x y : QueryContextElement α τ π => x.priority ≤ y.priority) l₂
  have hsorted := List.pairwise_insertionSort
    (fun x y : QueryContextElement α τ π => x.priority ≤ y.priority) l₂
  have hdistinct' := hperm.symm.pairwise hdistinct fun hne => Ne.symm hne
  have hstrict := (hsorted.and hdistinct').imp fun hle => lt_of_le_of_ne hle.1 hle.2
  have hnodup : ∀ {l : List (QueryContextElement α τ π)},
      (l.Pairwise fun x y => x.priority < y.priority) → l.Nodup :=
    fun hl => hl.imp fun hlt heq => absurd (heq ▸ hlt) (lt_irrefl _)
  refine List.Perm.eq_of_pairwise (fun x y _ _ hxy hyx => absurd hxy (lt_asymm hyx)) hascending hstrict ?_
  rw [List.perm_ext_iff_of_nodup (hnodup hascending) (hnodup hstrict)]
  intro x
  rw [hmem x, hperm.mem_iff]

end

section

variable {s : QueryContextCache α τ π} {response : List (QueryContextElement α τ π)}

/-- The entries are merged one after the other, then the capacity is checked. -/
theorem mergeEntries_ofElements (response : List (QueryContextElement α τ π))
    (s : QueryContextCache α τ π) :
    mergeEntries (response.map fun e => some (Node.ofElement e)) s =
      (response.foldl merge s).checkCacheCapacity := by
  induction response generalizing s with
  | nil => rfl
  | cons e response ih =>
      rw [List.map_cons, mergeEntries, deserializeQueryContextElement_ofElement, List.foldl_cons]
      exact ih (s.merge e)

/-- A newer entry takes the place of the elements with its id or its priority. -/
theorem Rep.merge_newer {e : QueryContextElement α τ π} (h : s.Rep) (hfree : s.Unobstructed e)
    (hnewer : ∀ x ∈ s.elements, x.id = e.id → x.timestamp < e.timestamp) :
    s.Becomes (s.merge e) (some e) fun x => x.id ≠ e.id ∧ x.priority ≠ e.priority := by
  obtain hbecomes | ⟨-, x, hx, hid, hle⟩ := h.merge hfree
  · exact hbecomes
  · exact absurd (hnewer x hx hid) (not_lt.mpr hle)

/-- The merged entries are there, with what of the cache they do not replace. -/
theorem Rep.mergeAll (h : s.Rep) (hresponse : s.Admissible response)
    (hfree : UnobstructedAll (response.map fun e => some (Node.ofElement e)) s) :
    (response.foldl QueryContextCache.merge s).Rep ∧
    (response.foldl QueryContextCache.merge s).capacity = s.capacity ∧
    ∀ x, x ∈ (response.foldl QueryContextCache.merge s).elements ↔
      x ∈ response ++ kept response s.elements := by
  induction response generalizing s with
  | nil => exact ⟨h, rfl, fun x => by simp [kept]⟩
  | cons e response ih =>
      rw [List.map_cons, UnobstructedAll, deserializeQueryContextElement_ofElement] at hfree
      obtain ⟨hids, hids'⟩ := List.pairwise_cons.mp hresponse.ids
      obtain ⟨hpriorities, hpriorities'⟩ := List.pairwise_cons.mp hresponse.priorities
      have hbecomes := h.merge_newer hfree.1 (hresponse.newer e (by simp))
      have hrest : (s.merge e).Admissible response := by
        refine ⟨hids', hpriorities', fun y hy x hx hid => ?_⟩
        obtain hxe | ⟨hxs, -⟩ := (hbecomes.mem x).mp hx
        · cases hxe
          exact absurd hid (hids y hy)
        · exact hresponse.newer y (List.mem_cons_of_mem _ hy) x hxs hid
      obtain ⟨hrep, hcapacity, hmem⟩ := ih hbecomes.rep hrest hfree.2
      refine ⟨hrep, hcapacity.trans hbecomes.capacity, fun x => ?_⟩
      rw [List.foldl_cons, hmem x, List.mem_append, List.mem_append, mem_kept, mem_kept,
        hbecomes.mem x, List.mem_cons]
      constructor
      · rintro (hx | ⟨hx | ⟨hx, hxe⟩, hall⟩)
        · exact .inl (.inr hx)
        · exact .inl (.inl (Option.some.inj hx).symm)
        · refine .inr ⟨hx, fun y hy => ?_⟩
          obtain rfl | hy' := List.mem_cons.mp hy
          · exact hxe
          · exact hall y hy'
      · rintro ((rfl | hx) | ⟨hx, hall⟩)
        · exact .inr ⟨.inl rfl, fun y hy => ⟨hids y hy, hpriorities y hy⟩⟩
        · exact .inl hx
        · exact .inr ⟨.inr ⟨hx, hall e (by simp)⟩, fun y hy => hall y (List.mem_cons_of_mem _ hy)⟩

omit [LinearOrder τ] in
theorem distinct_priorities (h : s.Rep) (hdistinct : response.Pairwise fun x y => x.priority ≠ y.priority) :
    (response ++ kept response s.elements).Pairwise fun x y => x.priority ≠ y.priority := by
  refine List.pairwise_append.mpr ⟨hdistinct, ?_, fun x hx y hy => ?_⟩
  · exact (h.elements_ascending.imp fun hlt => ne_of_lt hlt).filter _
  · exact ((mem_kept.mp hy).2 x hx).2.symm

/-- What a response leaves behind is what is specified. -/
theorem Rep.deserialize_ofElements (h : s.Rep) (hresponse : s.Admissible response)
    (hfree : s.EventUnobstructed (.deserializeQueryContext (.ofElements response))) :
    (s.deserializeQueryContext (.ofElements response)).elements =
      specified s.capacity response s.elements := by
  obtain ⟨hrep, hcapacity, hmem⟩ := h.mergeAll hresponse hfree
  obtain ⟨-, -, helements, -⟩ := hrep.checkCacheCapacity
  have hdistinct := distinct_priorities h hresponse.priorities
  calc (s.deserializeQueryContext (.ofElements response)).elements
      = (QueryContextCache.mergeEntries (response.map fun e => some (Node.ofElement e)) s).elements := rfl
    _ = (response.foldl QueryContextCache.merge s).checkCacheCapacity.elements := by
        rw [mergeEntries_ofElements]
    _ = (response.foldl QueryContextCache.merge s).elements.take s.capacity := by
        rw [helements, hcapacity]
    _ = specified s.capacity response s.elements := by
        rw [eq_insertionSort hrep.elements_ascending hdistinct hmem, specified]

omit [LinearOrder π] [DecidableEq α] in
theorem Admissible.perm {response' : List (QueryContextElement α τ π)}
    (hresponse : s.Admissible response) (hperm : response'.Perm response) : s.Admissible response' :=
  ⟨hperm.symm.pairwise hresponse.ids fun hne => Ne.symm hne,
    hperm.symm.pairwise hresponse.priorities fun hne => Ne.symm hne,
    fun e he => hresponse.newer e (hperm.mem_iff.mp he)⟩

/-- The order of the entries does not matter to what is specified. -/
theorem specified_perm {capacity : Nat} {response' : List (QueryContextElement α τ π)} (h : s.Rep)
    (hresponse : s.Admissible response) (hperm : response'.Perm response) :
    specified capacity response' s.elements = specified capacity response s.elements := by
  have hkept : kept response' s.elements = kept response s.elements := by
    refine List.filter_congr fun x _ => ?_
    exact hperm.all_eq
  have hdistinct := distinct_priorities h hresponse.priorities
  have hperm' := hperm.append_right (kept response s.elements)
  have : Std.Total fun x y : QueryContextElement α τ π => x.priority ≤ y.priority :=
    ⟨fun x y => le_total _ _⟩
  have : IsTrans (QueryContextElement α τ π) fun x y => x.priority ≤ y.priority :=
    ⟨fun x y z => le_trans⟩
  unfold specified
  rw [hkept]
  congr 1
  refine (eq_insertionSort ?_ hdistinct fun x => ?_)
  · have hsorted := List.pairwise_insertionSort
      (fun x y : QueryContextElement α τ π => x.priority ≤ y.priority)
      (response' ++ kept response s.elements)
    have hinsert := List.perm_insertionSort
      (fun x y : QueryContextElement α τ π => x.priority ≤ y.priority)
      (response' ++ kept response s.elements)
    have hdistinct' := hdistinct.perm (hinsert.trans hperm').symm fun hne => Ne.symm hne
    exact (hsorted.and hdistinct').imp fun hle => lt_of_le_of_ne hle.1 hle.2
  · rw [List.mem_insertionSort, hperm'.mem_iff]

/-- After every run without an obstructed entry, an admissible response without one
leaves what is specified, in whatever order it lists its entries. -/
theorem deserializeQueryContext_eq_specified (capacity : Nat) (es : List (Event α τ π))
    (s : QueryContextCache α τ π) (hfree : Lts.Along step EventUnobstructed (create capacity) es)
    (h : Lts.exec step (create capacity) es = some s)
    (response response' : List (QueryContextElement α τ π)) (hresponse : s.Admissible response)
    (hperm : response'.Perm response)
    (hfree' : s.EventUnobstructed (.deserializeQueryContext (.ofElements response'))) :
    (s.deserializeQueryContext (.ofElements response')).elements =
      specified capacity response s.elements := by
  have hinv : s.Rep ∧ s.capacity = capacity := by
    have hkeeps : ∀ (s : QueryContextCache α τ π) e t, (s.Rep ∧ s.capacity = capacity) →
        EventUnobstructed s e → step s e = some t → t.Rep ∧ t.capacity = capacity := by
      intro s e t hinv hP hstep
      obtain ⟨hrep, hcapacity⟩ := hinv.1.step hP hstep
      exact ⟨hrep, hcapacity.trans hinv.2⟩
    exact Lts.exec_invariant_of_along hkeeps ⟨rep_create capacity, rfl⟩ hfree h
  rw [hinv.1.deserialize_ofElements (hresponse.perm hperm) hfree', hinv.2]
  exact specified_perm hinv.1 hresponse hperm

/-- The main element and another, with a gap between their priorities. -/
def gapElements : List (QueryContextElement Nat Nat Nat) :=
  [⟨0, 10, 0, some "main"⟩, ⟨1, 10, 2, some "one"⟩]

/-- Id 0 takes a free priority, a new id takes the place of id 1. -/
def takeOver : List (QueryContextElement Nat Nat Nat) :=
  [⟨0, 11, 1, none⟩, ⟨2, 11, 2, some "two"⟩, ⟨3, 11, 5, some "three"⟩]

theorem deserializeQueryContext_eq_specified_takeOver :
    ∃ s, Lts.exec step (create 2) [.deserializeQueryContext (.ofElements gapElements)] = some s ∧
      s.Admissible takeOver ∧ s.EventUnobstructed (.deserializeQueryContext (.ofElements takeOver.reverse)) ∧
      (s.deserializeQueryContext (.ofElements takeOver.reverse)).elements =
        specified 2 takeOver s.elements := by
  have hfree : Lts.Along step EventUnobstructed (create 2)
      [.deserializeQueryContext (.ofElements gapElements)] := by decide
  obtain ⟨s, hs, hresponse, hfree'⟩ : ∃ s,
      Lts.exec step (create 2) [.deserializeQueryContext (.ofElements gapElements)] = some s ∧
        s.Admissible takeOver ∧
        s.EventUnobstructed (.deserializeQueryContext (.ofElements takeOver.reverse)) :=
    Lts.exists_exec (by decide)
  exact ⟨s, hs, hresponse, hfree', deserializeQueryContext_eq_specified 2 _ s hfree hs takeOver
    takeOver.reverse hresponse (List.reverse_perm _) hfree'⟩

/-- Id 0 moves to the priority of id 1, whose element the cache does not drop. -/
theorem deserializeQueryContext_ne_specified :
    ∃ s, Lts.exec step (create 5) [.deserializeQueryContext (.ofElements gapElements)] = some s ∧
      s.Admissible [⟨0, 11, 2, some "main"⟩] ∧
      specified 5 [⟨0, 11, 2, some "main"⟩] s.elements = [⟨0, 11, 2, some "main"⟩] ∧
      (s.deserializeQueryContext (.ofElements [⟨0, 11, 2, some "main"⟩])).elements =
        [⟨1, 10, 2, some "one"⟩, ⟨0, 11, 2, some "main"⟩] :=
  Lts.exists_exec (by decide)

end

end QueryContextCache

end SnowflakeConnector
