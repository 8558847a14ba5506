import SnowflakeConnector.Errors
import SnowflakeConnector.Slice

/-!
# SnowflakeConnector.Chunk

`lib/connection/result/chunk.js`: a chunk of a result, its lazily parsed rows,
and its load.

A chunk is an event emitter with one event, `loadcomplete`; `listeners` is the
list of its subscribers in subscription order.  A load ends in one of two ways,
and a chunk counts the ends still to come: `scheduled` completions handed to
`process.nextTick` and `requested` answers of `largeResultSet.getObject`.  The
event loop may deliver them in any order.
-/

namespace SnowflakeConnector

open Slice

variable {ι ρ : Type*}

/-- A row of a result: its index in the result and its raw column values. -/
structure Row (ρ : Type*) where
  rowIndex : Int
  values : ρ
  deriving DecidableEq, Repr

/-- Converts a rowset to an array of records, numbered from `startIndex`. -/
def convertRowsetToRows : Int → List ρ → List (Row ρ)
  | _, [] => []
  | startIndex, values :: rowset => ⟨startIndex, values⟩ :: convertRowsetToRows (startIndex + 1) rowset

@[simp] theorem length_convertRowsetToRows (s : Int) (rowset : List ρ) :
    (convertRowsetToRows s rowset).length = rowset.length := by
  induction rowset generalizing s with
  | nil => rfl
  | cons v vs ih => simp [convertRowsetToRows, ih]

theorem numberedFrom_convertRowsetToRows (s : Int) (rowset : List ρ) :
    NumberedFrom Row.rowIndex s (convertRowsetToRows s rowset) := by
  induction rowset generalizing s with
  | nil => trivial
  | cons v vs ih => exact ⟨rfl, ih (s + 1)⟩

theorem convertRowsetToRows_append (s : Int) (xs ys : List ρ) :
    convertRowsetToRows s (xs ++ ys) =
      convertRowsetToRows s xs ++ convertRowsetToRows (s + xs.length) ys := by
  induction xs generalizing s with
  | nil => simp [convertRowsetToRows]
  | cons x xs ih =>
      have hlen : s + 1 + (xs.length : Int) = s + ((xs.length + 1 : Nat) : Int) := by omega
      simp [convertRowsetToRows, ih, hlen]

/-- `Util.string.isNotNullOrEmpty`. -/
def isNotNullOrEmpty : Option String → Bool
  | some s => s != ""
  | none => false

/-- A chunk of a result.  `_rowsetAsString` is the downloaded text, `_rowset` the
parsed (or inline) rowset and `_rows` the converted rows; at most one of them is
current. -/
structure Chunk (ι ρ : Type*) where
  startIndex : Int
  endIndex : Int
  url : Option String
  rowsetAsString : Option String
  rowset : Option (List ρ)
  rows : Option (List (Row ρ))
  isLoading : Bool
  listeners : List ι
  scheduled : Nat
  requested : Nat

namespace Chunk

/-- Determines if this chunk overlaps with a given window. -/
def overlapsWithWindow (c : Chunk ι ρ) (start stop : Int) : Bool :=
  (stop ≤ c.endIndex && stop ≥ c.startIndex) ||
  (start ≥ c.startIndex && start ≤ c.endIndex) ||
  (start ≤ c.startIndex && stop ≥ c.endIndex)

/-- The first half of `getRows`: add square brackets on either side of the text
and parse it.  `parse` is `JSON.parse('[' + text + ']')`, `none` when it throws. -/
def parseRowset (parse : String → Option (List ρ)) (c : Chunk ι ρ) : Except Err (Chunk ι ρ) :=
  match c.rowsetAsString with
  | some text =>
      if text ≠ "" then
        match parse text with
        | some rowset => .ok { c with rowset := some rowset, rowsetAsString := none }
        | none => .error Errors.syntaxError
      else .ok c
  | none => .ok c

/-- The second half of `getRows`: convert a valid rowset to rows and forget it. -/
def convertRowset (c : Chunk ι ρ) : Chunk ι ρ :=
  match c.rowset with
  | some rowset =>
      { c with rows := some (convertRowsetToRows c.startIndex rowset), rowset := none }
  | none => c

/-- Returns the rows in this chunk, `none` being `undefined`, together with the
chunk as the call leaves it. -/
def getRows (parse : String → Option (List ρ)) (c : Chunk ι ρ) :
    Except Err (Chunk ι ρ × Option (List (Row ρ))) :=
  match c.rows with
  | some rows => .ok (c, some rows)
  | none =>
      match c.parseRowset parse with
      | .error e => .error e
      | .ok c' => .ok (c'.convertRowset, c'.convertRowset.rows)

/-- Clears out the rows in this chunk if it has a valid url or if the force flag
is true. -/
def clearRows (c : Chunk ι ρ) (force : Bool) : Chunk ι ρ :=
  if isNotNullOrEmpty c.url || force then
    { c with rowsetAsString := none, rowset := none, rows := none }
  else c

/-- Updates this chunk's url. -/
def setUrl (c : Chunk ι ρ) (url : Option String) : Chunk ι ρ := { c with url := url }

/-- Returns true if this chunk's contents are loaded, false otherwise. -/
def isLoaded (c : Chunk ι ρ) : Bool :=
  isNotNullOrEmpty c.rowsetAsString || c.rowset.isSome || c.rows.isSome

/-- Loads the contents of this chunk: a loaded chunk completes in the next tick,
any other issues a request. -/
def load (c : Chunk ι ρ) : Chunk ι ρ :=
  if c.isLoaded then { c with isLoading := true, scheduled := c.scheduled + 1 }
  else { c with isLoading := true, requested := c.requested + 1 }

/-- The part of `completeLoad` before the event is emitted. -/
def doneLoading (c : Chunk ι ρ) : Chunk ι ρ := { c with isLoading := false }

/-- A completion handed to `process.nextTick` is due. -/
def untick (c : Chunk ι ρ) : Chunk ι ρ := { c with scheduled := c.scheduled - 1 }

/-- What `getObject` answers: an error, or a body. -/
abbrev Answer := Except Err (Option String)

/-- A request for the contents is answered; the body of a success is stored. -/
def store (answer : Answer) (c : Chunk ι ρ) : Chunk ι ρ :=
  match answer with
  | .ok body => { c with requested := c.requested - 1, rowsetAsString := body }
  | .error _ => { c with requested := c.requested - 1 }

/-- The error of an answer. -/
def Answer.err (answer : Answer) : Option Err :=
  match answer with
  | .ok _ => none
  | .error e => some e

/-- `chunk.on('loadcomplete', listener)`. -/
def on (c : Chunk ι ρ) (listener : ι) : Chunk ι ρ :=
  { c with listeners := c.listeners ++ [listener] }

/-- `chunk.removeListener('loadcomplete', listener)`: the instance added last goes. -/
def removeListener [DecidableEq ι] (c : Chunk ι ρ) (listener : ι) : Chunk ι ρ :=
  { c with listeners := (c.listeners.reverse.erase listener).reverse }

/-! ## faithful chunks -/

/-- What a chunk has cached stands for `content`, the rowset it describes. -/
structure Faithful (parse : String → Option (List ρ)) (content : List ρ) (c : Chunk ι ρ) : Prop where
  text : ∀ t ∈ c.rowsetAsString, parse t = some content
  rowset : ∀ r ∈ c.rowset, r = content
  rows : ∀ r ∈ c.rows, r = convertRowsetToRows c.startIndex content

/-- Two chunks that differ in what they have cached only. -/
structure SameLoad (c d : Chunk ι ρ) : Prop where
  startIndex : d.startIndex = c.startIndex
  endIndex : d.endIndex = c.endIndex
  url : d.url = c.url
  isLoading : d.isLoading = c.isLoading
  listeners : d.listeners = c.listeners
  scheduled : d.scheduled = c.scheduled
  requested : d.requested = c.requested

theorem SameLoad.refl (c : Chunk ι ρ) : c.SameLoad c := ⟨rfl, rfl, rfl, rfl, rfl, rfl, rfl⟩

/-- What reading the rows of a chunk leaves behind. -/
theorem getRows_spec {parse : String → Option (List ρ)} {c c' : Chunk ι ρ} {rows : List (Row ρ)}
    (h : c.getRows parse = .ok (c', some rows)) : c.SameLoad c' ∧ c'.rows = some rows := by
  have hconvert : ∀ d : Chunk ι ρ, d.SameLoad d.convertRowset := by
    intro d
    unfold convertRowset
    split <;> exact ⟨rfl, rfl, rfl, rfl, rfl, rfl, rfl⟩
  unfold getRows at h
  split at h
  · next hrows =>
      cases h
      exact ⟨SameLoad.refl c, hrows⟩
  · split at h
    · cases h
    · next d hd =>
        simp only [Except.ok.injEq, Prod.mk.injEq] at h
        obtain ⟨rfl, hrows⟩ := h
        have hparse : c.SameLoad d := by
          unfold parseRowset at hd
          split at hd
          · split at hd
            · split at hd
              · cases hd
                exact ⟨rfl, rfl, rfl, rfl, rfl, rfl, rfl⟩
              · cases hd
            · cases hd
              exact SameLoad.refl c
          · cases hd
            exact SameLoad.refl c
        obtain ⟨h1, h2, h3, h4, h5, h6, h7⟩ := hparse
        obtain ⟨g1, g2, g3, g4, g5, g6, g7⟩ := hconvert d
        exact ⟨⟨g1.trans h1, g2.trans h2, g3.trans h3, g4.trans h4, g5.trans h5, g6.trans h6,
          g7.trans h7⟩, hrows⟩

/-- The rows do not depend on the listeners. -/
theorem getRows_removeListener [DecidableEq ι] {parse : String → Option (List ρ)} {c c' : Chunk ι ρ}
    {rows : List (Row ρ)} (h : c.getRows parse = .ok (c', some rows)) (listener : ι) :
    (c.removeListener listener).getRows parse = .ok (c'.removeListener listener, some rows) := by
  have hconvert : ∀ d : Chunk ι ρ,
      (d.removeListener listener).convertRowset = d.convertRowset.removeListener listener := by
    intro d
    unfold convertRowset removeListener
    cases hd : d.rowset <;> simp [hd]
  have hparse : (c.removeListener listener).parseRowset parse =
      (c.parseRowset parse).map (·.removeListener listener) := by
    unfold parseRowset
    cases ht : c.rowsetAsString with
    | none => simp [removeListener, ht, Except.map]
    | some text =>
        by_cases hempty : text = ""
        · simp [removeListener, ht, hempty, Except.map]
        · cases hp : parse text <;> simp [removeListener, ht, hempty, hp, Except.map]
  unfold getRows at h ⊢
  cases hr : c.rows with
  | some rows' =>
      simp only [hr, Except.ok.injEq, Prod.mk.injEq] at h
      obtain ⟨rfl, hrows⟩ := h
      simp [removeListener, hr, hrows]
  | none =>
      have hr' : (c.removeListener listener).rows = none := hr
      simp only [hr, hr', hparse] at h ⊢
      cases hd : c.parseRowset parse with
      | error e => simp [hd] at h
      | ok d =>
          simp only [hd, Except.ok.injEq, Prod.mk.injEq] at h
          obtain ⟨rfl, hrows⟩ := h
          simp only [Except.map, hconvert, Except.ok.injEq, Prod.mk.injEq, true_and]
          exact hrows

/-! ## what a chunk has -/

/-- The rowset that a chunk has cached, `none` if it has none or its text does not
parse. -/
def content (parse : String → Option (List ρ)) (c : Chunk ι ρ) : Option (List ρ) :=
  match c.rows with
  | some rows => some (rows.map Row.values)
  | none =>
      match c.rowsetAsString with
      | some text => if text ≠ "" then parse text else c.rowset
      | none => c.rowset

/-- The rows of a chunk were converted from a rowset. -/
def Converted (c : Chunk ι ρ) : Prop :=
  ∀ rows ∈ c.rows, rows = convertRowsetToRows c.startIndex (rows.map Row.values)

theorem map_values_convertRowsetToRows (s : Int) (rowset : List ρ) :
    (convertRowsetToRows s rowset).map Row.values = rowset := by
  induction rowset generalizing s with
  | nil => rfl
  | cons v vs ih => simp [convertRowsetToRows, ih]

/-- Parsing leaves the rows alone, and the rowset that the chunk has. -/
theorem parseRowset_spec {parse : String → Option (List ρ)} {c d : Chunk ι ρ} (hrows : c.rows = none)
    (h : c.parseRowset parse = .ok d) :
    d.rows = none ∧ d.rowset = c.content parse ∧ d.startIndex = c.startIndex := by
  unfold parseRowset at h
  unfold content
  cases ht : c.rowsetAsString with
  | none =>
      simp only [ht, Except.ok.injEq] at h
      subst h
      simp [hrows]
  | some text =>
      by_cases hempty : text = ""
      · simp only [ht, hempty, ne_eq, not_true_eq_false, if_false, Except.ok.injEq] at h
        subst h
        simp [hrows, hempty]
      · cases hp : parse text with
        | none => simp [ht, hempty, hp] at h
        | some rowset =>
            simp only [ht, ne_eq, hempty, not_false_eq_true, if_true, hp, Except.ok.injEq] at h
            subst h
            simp [hrows, hempty, hp]

theorem Converted.getRows {parse : String → Option (List ρ)} {c d : Chunk ι ρ} {rows : List (Row ρ)}
    (h : c.Converted) (hrows : c.getRows parse = .ok (d, some rows)) : d.Converted := by
  unfold Chunk.getRows at hrows
  cases hr : c.rows with
  | some rows' =>
      simp only [hr, Except.ok.injEq, Prod.mk.injEq] at hrows
      obtain ⟨rfl, -⟩ := hrows
      exact h
  | none =>
      cases hp : c.parseRowset parse with
      | error e => simp [hr, hp] at hrows
      | ok d' =>
          simp only [hr, hp, Except.ok.injEq, Prod.mk.injEq] at hrows
          obtain ⟨rfl, -⟩ := hrows
          obtain ⟨hnone, -, -⟩ := parseRowset_spec hr hp
          unfold convertRowset
          cases hs : d'.rowset with
          | none => simp [Converted, hnone]
          | some rowset => simp [Converted, map_values_convertRowsetToRows]

/-- A chunk with contents has rows. -/
theorem getRows_of_content {parse : String → Option (List ρ)} {c : Chunk ι ρ} {rowset : List ρ}
    (h : c.Converted) (hcontent : c.content parse = some rowset) :
    ∃ d, c.getRows parse = .ok (d, some (convertRowsetToRows c.startIndex rowset)) := by
  unfold Chunk.getRows
  cases hr : c.rows with
  | some rows =>
      simp only [content, hr, Option.some.injEq] at hcontent
      have hconverted := h rows hr
      rw [hcontent] at hconverted
      exact ⟨c, by rw [← hconverted]⟩
  | none =>
      cases hp : c.parseRowset parse with
      | error e =>
          unfold content at hcontent
          unfold parseRowset at hp
          cases ht : c.rowsetAsString with
          | none => simp [ht] at hp
          | some text => by_cases hempty : text = "" <;> simp_all
      | ok d =>
          obtain ⟨-, hd, hstart⟩ := parseRowset_spec hr hp
          rw [hcontent] at hd
          exact ⟨d.convertRowset, by simp [convertRowset, hd, hstart]⟩

section

variable {parse : String → Option (List ρ)} {content : List ρ} {c : Chunk ι ρ}

/-- A chunk with nothing cached stands for anything. -/
theorem faithful_of_empty (ht : c.rowsetAsString = none) (hs : c.rowset = none) (hr : c.rows = none) :
    c.Faithful parse content :=
  ⟨by simp [ht], by simp [hs], by simp [hr]⟩

/-- Parsing and converting leave a loaded chunk with its rows. -/
theorem getRows_of_isLoaded (h : c.Faithful parse content) (hl : c.isLoaded = true) :
    ∃ c', c.getRows parse = .ok (c', some (convertRowsetToRows c.startIndex content)) ∧
      c.SameLoad c' ∧ c'.Faithful parse content ∧
      c'.rows = some (convertRowsetToRows c.startIndex content) := by
  unfold getRows
  cases hr : c.rows with
  | some rows =>
      have hrows := h.rows rows hr
      subst hrows
      exact ⟨c, rfl, ⟨rfl, rfl, rfl, rfl, rfl, rfl, rfl⟩, h, hr⟩
  | none =>
      have hconvert : ∀ {c' : Chunk ι ρ} {rowset : List ρ}, c'.rowset = some rowset →
          c'.startIndex = c.startIndex → rowset = content →
          c'.convertRowset.rows = some (convertRowsetToRows c.startIndex content) := by
        rintro c' rowset hs hstart rfl
        simp [convertRowset, hs, hstart]
      have hrest : ∀ {c' : Chunk ι ρ}, c.SameLoad c' → (∀ t ∈ c'.rowsetAsString, parse t = some content) →
          c'.rowset = some content → ∃ c'', Except.ok (ε := Err) (c'.convertRowset, c'.convertRowset.rows) =
            .ok (c'', some (convertRowsetToRows c.startIndex content)) ∧ c.SameLoad c'' ∧
            c''.Faithful parse content ∧
            c''.rows = some (convertRowsetToRows c.startIndex content) := by
        intro c' hsame htext hs
        have hrows := hconvert hs hsame.startIndex rfl
        refine ⟨c'.convertRowset, by rw [hrows], ?_, ⟨?_, ?_, ?_⟩, hrows⟩
        · obtain ⟨h1, h2, h3, h4, h5, h6, h7⟩ := hsame
          simp only [convertRowset, hs]
          exact ⟨h1, h2, h3, h4, h5, h6, h7⟩
        · simpa only [convertRowset, hs] using htext
        · simp [convertRowset, hs]
        · intro r hr'
          rw [hrows] at hr'
          cases hr'
          simp only [convertRowset, hs, hsame.startIndex]
      have hsame : c.SameLoad c := ⟨rfl, rfl, rfl, rfl, rfl, rfl, rfl⟩
      have hrowset : isNotNullOrEmpty c.rowsetAsString = false → c.rowset = some content := by
        intro ht
        have hs : c.rowset.isSome = true := by simpa [isLoaded, ht, hr] using hl
        obtain ⟨rowset, hs⟩ := Option.isSome_iff_exists.mp hs
        rw [hs, h.rowset rowset hs]
      cases ht : c.rowsetAsString with
      | none =>
          simp only [parseRowset, ht]
          exact hrest hsame h.text (hrowset (by simp [ht, isNotNullOrEmpty]))
      | some text =>
          by_cases hempty : text = ""
          · simp only [parseRowset, ht, hempty, ne_eq, not_true_eq_false, if_false]
            exact hrest hsame h.text (hrowset (by simp [ht, isNotNullOrEmpty, hempty]))
          · simp only [parseRowset, ht, ne_eq, hempty, not_false_eq_true, if_true, h.text text ht]
            exact hrest ⟨rfl, rfl, rfl, rfl, rfl, rfl, rfl⟩ (by simp) rfl

end

end Chunk

end SnowflakeConnector
