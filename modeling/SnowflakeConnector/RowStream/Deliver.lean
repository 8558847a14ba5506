import SnowflakeConnector.RowStream.Step

/-!
# SnowflakeConnector.RowStream.Deliver

What the row streams of a statement deliver over a whole run, and how they end.

* `window_delivered` -- one stream over sound chunks pushes the rows of its window
  and the end marker, whatever the back-pressure, the order of the loads and the
  interruptions that are repaired;
* `malformed_never_silent` -- with any bodies, a stream that ends has pushed every row
  of its window, and one that rests has ended or emitted an error, as long as every
  chunk it waits for `Feeds` it;
* `streams_undisturbed` -- any number of streams deliver their own windows, as long as no
  chunk is freed between the load that finds it loaded and its completion.
-/

namespace SnowflakeConnector

open Slice Result

variable {ι ρ ε : Type*}

namespace RowStream

/-- The row indices of a window. -/
def windowIndices (cfg : Config ρ ε) (options : Option Rat × Option Rat) : List Int :=
  indices (windowStart options.1) (windowEnd options.2 cfg.returnedRows)

/-- The rows of a window. -/
def windowRows (cfg : Config ρ ε) (blocks : List (List ρ)) (options : Option Rat × Option Rat) :
    List (Row ρ) :=
  inWindow (windowStart options.1) (windowEnd options.2 cfg.returnedRows) (allRows blocks)

/-- A stream pushes the rows and then the end marker. -/
def delivery (cfg : Config ρ ε) (rows : List (Row ρ)) : List (Option ε) :=
  rows.map cfg.externalizeRow ++ [none]

theorem map_rowIndex_windowRows {cfg : Config ρ ε} {blocks : List (List ρ)}
    (h : cfg.returnedRows = blocks.flatten.length) (options : Option Rat × Option Rat) :
    (windowRows cfg blocks options).map Row.rowIndex = windowIndices cfg options :=
  map_rowIndex_inWindow (windowStart_nonneg options.1) (by rw [← h]; exact windowEnd_lt _ _)

namespace State

variable [DecidableEq ι] {T : Terms ι ρ ε} {s s' : State ι ρ ε} {i : ι} {c : Nat}

/-! ## what a stream has to show -/

/-- The rows pushed carry the first indices of the window, after the end marker all of
them, and each is good. -/
theorem Inv.pushed {told : Option Nat} (h : s.Inv T told) (i : ι) :
    ∃ (done : List (Row ρ)) (todo : List Int), (∀ row ∈ done, T.Good row) ∧
      done.map Row.rowIndex ++ todo = windowIndices T.cfg (T.options i) ∧
      ((s.streams i).pushed = done.map T.cfg.externalizeRow ∨
        todo = [] ∧ (s.streams i).pushed = delivery T.cfg done) := by
  obtain ⟨p, done, todo, hf, -⟩ := h.follows i
  obtain ⟨hstart, hend⟩ := h.options i
  have hindices := hf.indices_eq
  have hpushed := hf.pushed
  rw [hstart, hend, List.append_assoc] at hindices
  refine ⟨done, _, fun row hrow => hf.good row (List.mem_append_left _ hrow), hindices, ?_⟩
  cases p with
  | ended => exact .inr ⟨by rw [show todo = [] from hf.position]; rfl, hpushed⟩
  | _ => exact .inl (by simpa [Phase.marker] using hpushed)

/-- A stream that gave up has emitted an error. -/
theorem Inv.errors {told : Option Nat} (h : s.Inv T told) (hno : ¬ T.mayFail) (i : ι) :
    (s.streams i).errors = [] := by
  obtain ⟨p, done, todo, hf, hp⟩ := h.follows i
  exact hf.failed.mpr fun hfailed => hno (hp hfailed)

/-- A stream that waits for nothing has ended, or given up. -/
theorem Inv.settled (h : s.Inv T none) (hq : Lts.Quiescent (State.step T.cfg) s) (i : ι) :
    none ∈ (s.streams i).pushed ∨ (s.streams i).errors ≠ [] := by
  obtain ⟨p, done, todo, hf, -⟩ := h.follows i
  by_cases hended : p = .ended
  · subst hended
    rw [hf.pushed]
    exact .inl (List.mem_append_right _ List.mem_cons_self)
  · by_cases hfailed : p = .failed
    · exact .inr fun hnil => hf.failed.mp hnil hfailed
    · obtain ⟨e, he⟩ := h.progress hf hended hfailed
      exact absurd (hq e) he

/-- An end marker comes after the rows of the window. -/
theorem Inv.pushed_of_ended {told : Option Nat} (h : s.Inv T told)
    (hnone : none ∈ (s.streams i).pushed) :
    ∃ rows : List (Row ρ), (∀ row ∈ rows, T.Good row) ∧
      rows.map Row.rowIndex = windowIndices T.cfg (T.options i) ∧
      (s.streams i).pushed = delivery T.cfg rows := by
  obtain ⟨done, todo, hgood, hindices, hrows | ⟨rfl, hrows⟩⟩ := h.pushed i
  · rw [hrows, List.mem_map] at hnone
    obtain ⟨row, hrow, hext⟩ := hnone
    have hsome := T.externalizes row (hgood row hrow)
    simp [hext] at hsome
  · rw [List.append_nil] at hindices
    exact ⟨done, hgood, hindices, hrows⟩

/-- When the good rows are rows of the result, a stream has pushed the first rows of
its window, and the end marker after the last of them. -/
theorem Inv.pushed_prefix {told : Option Nat} (h : s.Inv T told)
    (hgood : ∀ row, T.Good row → row ∈ allRows T.blocks) (i : ι) :
    (s.streams i).pushed <+: delivery T.cfg (windowRows T.cfg T.blocks (T.options i)) ∧
    (none ∈ (s.streams i).pushed →
      (s.streams i).pushed = delivery T.cfg (windowRows T.cfg T.blocks (T.options i))) := by
  have hwindow := map_rowIndex_windowRows T.returnedRows_eq (T.options i)
  have hnum : NumberedFrom Row.rowIndex 0 (allRows T.blocks) := numberedFrom_convertRowsetToRows _ _
  have hfront : ∀ (done : List (Row ρ)) (todo : List Int), (∀ row ∈ done, T.Good row) →
      done.map Row.rowIndex ++ todo = windowIndices T.cfg (T.options i) →
      done <+: windowRows T.cfg T.blocks (T.options i) := by
    intro done todo hrows hindices
    refine hnum.prefix_of_map (fun row hrow => hgood row (hrows row hrow))
      (fun row hrow => List.mem_of_mem_filter hrow) ?_
    rw [hwindow, ← hindices]
    exact List.prefix_append _ _
  have hended : none ∈ (s.streams i).pushed →
      (s.streams i).pushed = delivery T.cfg (windowRows T.cfg T.blocks (T.options i)) := by
    intro hnone
    obtain ⟨rows, hrows, hindices, hpushed⟩ := h.pushed_of_ended hnone
    have hall := hfront rows [] hrows (by rw [List.append_nil, hindices])
    have hlen : rows.length = (windowRows T.cfg T.blocks (T.options i)).length := by
      have hlength := congrArg List.length (hindices.trans hwindow.symm)
      simpa using hlength
    rw [hpushed, hall.eq_of_length hlen]
  refine ⟨?_, hended⟩
  obtain ⟨done, todo, hrows, hindices, hpushed | ⟨-, hpushed⟩⟩ := h.pushed i
  · rw [hpushed]
    exact ((hfront done todo hrows hindices).map _).trans (List.prefix_append _ _)
  · have hmarker : none ∈ (s.streams i).pushed := by
      rw [hpushed]
      exact List.mem_append_right _ List.mem_cons_self
    rw [hended hmarker]

/-! ## what the streams are served -/

/-- The chunk has every row of the stream's window that it should, one at least, and
each can be externalized. -/
def Feeds (cfg : Config ρ ε) (st : RowStream ρ ε) (c : Chunk ι ρ) : Prop :=
  let first := max c.startIndex st.start
  let last := min c.endIndex st.stop
  match c.content cfg.parse with
  | none => False
  | some rowset => first ≤ last ∧ last < c.startIndex + rowset.length ∧
      ∀ row ∈ inWindow first last (convertRowsetToRows c.startIndex rowset),
        (cfg.externalizeRow row).isSome = true

/-- A chunk that a stream waits for feeds it when its load ends with success, and the
window of a stream does not break the search for its chunks. -/
def Fed (cfg : Config ρ ε) (s : State ι ρ ε) : Event ι ρ → Prop
  | .ticked i k _ => ((s.streams i).ticks[k]?.any fun tick => tick matches .init) = true → s.Opens cfg i
  | .completed c => ∀ i ∈ (s.chunks.chunk c).listeners, Feeds cfg (s.streams i) (s.chunks.chunk c)
  | .answered c (.ok body) => ∀ i ∈ (s.chunks.chunk c).listeners,
      Feeds cfg (s.streams i) (Chunk.store (.ok body) (s.chunks.chunk c))
  | _ => True

instance (cfg : Config ρ ε) (st : RowStream ρ ε) (c : Chunk ι ρ) : Decidable (Feeds cfg st c) := by
  unfold Feeds
  split <;> infer_instance

instance (cfg : Config ρ ε) (s : State ι ρ ε) (e : Event ι ρ) : Decidable (s.Fed cfg e) := by
  unfold Fed Opens
  repeat' split
  all_goals infer_instance

omit [DecidableEq ι] in
/-- What a chunk feeds a stream serves it; `d` is the chunk as the listeners see it. -/
theorem exists_serves {cfg : Config ρ ε} {streams : ι → RowStream ρ ε} {l : List ι} {c d : Chunk ι ρ}
    (hl : l ≠ []) (h : ∀ i ∈ l, Feeds cfg (streams i) c) (hconverted : d.Converted)
    (hcontent : d.content cfg.parse = c.content cfg.parse) (hstart : d.startIndex = c.startIndex)
    (hend : d.endIndex = c.endIndex) :
    ∃ d' rows, d.getRows cfg.parse = .ok (d', some rows) ∧
      ∀ i ∈ l, Serves (fun row => (cfg.externalizeRow row).isSome = true) (streams i) d rows := by
  obtain ⟨i₀, hi₀⟩ := List.exists_mem_of_ne_nil l hl
  have hfeeds := h i₀ hi₀
  unfold Feeds at h hfeeds
  cases hc : c.content cfg.parse with
  | none => simp [hc] at hfeeds
  | some rowset =>
      rw [hc] at hcontent
      obtain ⟨d', hrows⟩ := Chunk.getRows_of_content hconverted hcontent
      refine ⟨d', _, hrows, fun i hi => ?_⟩
      obtain ⟨hle, hlast, hext⟩ := by simpa only [hc] using h i hi
      have hnum := numberedFrom_convertRowsetToRows c.startIndex rowset
      have hcut : cut (streams i) d (convertRowsetToRows d.startIndex rowset) =
          inWindow (max c.startIndex (streams i).start) (min c.endIndex (streams i).stop)
            (convertRowsetToRows c.startIndex rowset) := by
        unfold cut inWindow
        rw [hstart, hend, slice_of_nonneg _ (by omega) (by omega), hnum.filter_eq]
      have hindices : (cut (streams i) d (convertRowsetToRows d.startIndex rowset)).map Row.rowIndex =
          indices (max c.startIndex (streams i).start) (min c.endIndex (streams i).stop) := by
        rw [hcut, inWindow, hnum.map_filter, length_convertRowsetToRows]
        congr 1 <;> omega
      refine ⟨fun hnil => ?_, ?_, ?_⟩
      · rw [hnil, indices_eq_cons hle] at hindices
        exact (by cases hindices)
      · rw [hindices, hstart, hend]
      · rw [hcut]
        exact hext

/-! ## any bodies -/

section

variable (cfg : Config ρ ε) (blocks : List (List ρ)) (options : ι → Option Rat × Option Rat)
  (hnum : cfg.numChunks = blocks.length) (hreturned : cfg.returnedRows = blocks.flatten.length)

/-- Streams that may get any bodies, and may give up. -/
def anyBodies : Terms ι ρ ε where
  cfg
  blocks
  Good row := (cfg.externalizeRow row).isSome = true
  mayFail := True
  Alone := False
  Cached j c := c.Converted ∧ (j < blocks.length → c.Shaped (offset blocks j) (offset blocks (j + 1) - 1))
  options
  numChunks_eq := hnum
  returnedRows_eq := hreturned
  externalizes _ h := h
  alone h := h.elim
  stable := Chunks.stable_converted cfg.parse blocks

end

/-- Fed streams meet the conditions of the invariant. -/
theorem Fed.meets {cfg : Config ρ ε} {blocks : List (List ρ)} {options : ι → Option Rat × Option Rat}
    {hnum : cfg.numChunks = blocks.length} {hreturned : cfg.returnedRows = blocks.flatten.length}
    {e : Event ι ρ} (hfed : s.Fed cfg e)
    (h : s.Inv (anyBodies cfg blocks options hnum hreturned) none)
    (hst : State.step cfg s e = some s') :
    s.Meets (anyBodies cfg blocks options hnum hreturned) e := by
  cases e with
  | read i => trivial
  | refreshed i answer => exact fun hno => absurd trivial hno
  | ticked i k answers =>
      rintro ⟨tick, htick, rfl⟩
      exact hfed (by rw [htick]; rfl)
  | completed c =>
      simp only [State.step, Option.ite_none_right_eq_some] at hst
      obtain ⟨hconverted, hshaped⟩ := h.cached c
      refine ⟨rfl, ⟨hconverted, fun hc => (hshaped hc).untick hst.1⟩, fun _ hl => ?_,
        fun herr => absurd rfl herr⟩
      exact exists_serves hl hfed hconverted rfl rfl rfl
  | answered c answer =>
      simp only [State.step, Option.ite_none_right_eq_some] at hst
      obtain ⟨hconverted, hshaped⟩ := h.cached c
      have hcached : (anyBodies cfg blocks options hnum hreturned).Cached c
          (Chunk.store answer (s.chunks.chunk c)).doneLoading :=
        ⟨hconverted.store answer, fun hc => (hshaped hc).store hst.1 answer⟩
      cases answer with
      | error e => exact ⟨rfl, hcached, (fun herr => (by cases herr)), fun _ hno => absurd trivial hno⟩
      | ok body =>
          refine ⟨rfl, hcached, fun _ hl => ?_, fun herr => absurd rfl herr⟩
          exact exists_serves hl hfed hcached.1 rfl rfl rfl

end State

/-! ### a sample result -/

/-- Two remote chunks of one row each. -/
def sampleChunks : Chunks ι Nat where
  chunk i := ⟨i, i, some "url", none, none, none, false, [], 0, 0⟩
  calls := []

def sampleConfig : Config Nat Nat where
  parse text :=
    if text = "" then some [] else if text = "0" then some [0] else if text = "1" then some [1] else none
  parse_empty := rfl
  externalizeRow row := some row.values
  numChunks := 2
  returnedRows := 2
  resultPrefetch := 1
  resultStreamInterrupts := 1

theorem sound_sampleChunks :
    (sampleChunks : Chunks ι Nat).Sound sampleConfig.parse [[0], [1]] := by
  intro i hi
  have hcases : i = 0 ∨ i = 1 := by
    simp only [List.length_cons, List.length_nil] at hi
    omega
  rcases hcases with rfl | rfl <;>
    exact ⟨⟨rfl, rfl, rfl⟩, Chunk.faithful_of_empty rfl rfl rfl⟩

/-- Streams over the whole sample. -/
def sampleStart : State ι Nat Nat := State.create sampleChunks fun _ => (none, none)

/-- **Nothing is lost silently**: whatever the bodies, the windows, the errors and the
order of events, a stream that has pushed the end marker has pushed every row of its
window before, and one that waits for nothing has pushed the end marker or emitted
an error. -/
theorem malformed_never_silent [DecidableEq ι] {cfg : Config ρ ε} {blocks : List (List ρ)}
    {chunks : Chunks ι ρ} (options : ι → Option Rat × Option Rat)
    (hnum : cfg.numChunks = blocks.length) (hreturned : cfg.returnedRows = blocks.flatten.length)
    (hshaped : ∀ j, j < blocks.length →
      (chunks.chunk j).Shaped (offset blocks j) (offset blocks (j + 1) - 1))
    (hconverted : ∀ j, (chunks.chunk j).Converted)
    (hlisteners : ∀ j, (chunks.chunk j).listeners = []) {es : List (Event ι ρ)} {t : State ι ρ ε}
    (hrun : Lts.exec (State.step cfg) (State.create chunks options) es = some t)
    (halong : Lts.Along (State.step cfg) (fun s e => s.Fed cfg e) (State.create chunks options) es)
    (i : ι) :
    (none ∈ (t.streams i).pushed → ∃ rows : List (Row ρ),
      rows.map Row.rowIndex = windowIndices cfg (options i) ∧
        (t.streams i).pushed = delivery cfg rows) ∧
    (Lts.Quiescent (State.step cfg) t →
      none ∈ (t.streams i).pushed ∨ (t.streams i).errors ≠ []) ∧
    t.thrown = [] := by
  have hstart : (State.create chunks options : State ι ρ ε).Inv
      (State.anyBodies cfg blocks options hnum hreturned) none :=
    State.inv_create (fun j => ⟨hconverted j, hshaped j⟩) hlisteners
  have h : t.Inv (State.anyBodies cfg blocks options hnum hreturned) none :=
    Lts.exec_invariant_of_along (fun s e u hs hfed hst => hs.step hst (hfed.meets hs hst)) hstart
      halong hrun
  refine ⟨fun hnone => ?_, fun hq => h.settled hq i, h.thrown⟩
  obtain ⟨rows, -, hrows, hpushed⟩ := h.pushed_of_ended hnone
  exact ⟨rows, hrows, hpushed⟩

/-- The url of a chunk has expired. -/
def forbidden : Err := Errors.createLargeResultSetError 402001 (some 403)

/-- The second chunk is gone, which is told. -/
def goneRun : List (Event Unit Nat) :=
  [.read (), .ticked () 0 [], .answered 0 (.ok (some "0")), .ticked () 0 [], .read (),
    .answered 1 (.error (Errors.createLargeResultSetError 402001 (some 404)))]

theorem malformed_never_silent_gone :
    ∃ t, Lts.exec (State.step sampleConfig) sampleStart goneRun = some t ∧
      (t.streams ()).pushed = [some 0] ∧ (t.streams ()).errors.length = 1 ∧ t.thrown = [] := by
  obtain ⟨t, hrun, hpushed, herrors⟩ :
      ∃ t, Lts.exec (State.step sampleConfig) sampleStart goneRun = some t ∧
        (t.streams ()).pushed = [some 0] ∧ (t.streams ()).errors.length = 1 :=
    Lts.exists_exec (by decide +kernel)
  obtain ⟨-, -, hthrown⟩ := malformed_never_silent (fun _ => (none, none)) (@rfl _ [[0], [1]].length) rfl
    (fun j hj => (sound_sampleChunks j hj).toShaped) (fun j rows h => (by cases h)) (fun _ => rfl) hrun
    (by decide +kernel) ()
  exact ⟨t, hrun, hpushed, herrors, hthrown⟩

/-- Nothing is pending for the stream, which its consumer has read on. -/
def State.AtRest (s : State Unit ρ ε) (n : Nat) : Prop :=
  (s.streams ()).ticks.length = 0 ∧ (s.streams ()).refreshing = 0 ∧
    ((s.streams ()).reading = true ∨ none ∈ (s.streams ()).pushed) ∧
    ∀ c < n, (s.chunks.chunk c).scheduled = 0 ∧ (s.chunks.chunk c).requested = 0

instance [DecidableEq ε] (s : State Unit ρ ε) (n : Nat) : Decidable (s.AtRest n) :=
  inferInstanceAs (Decidable (_ ∧ _))

/-- Over one chunk of two rows, a body that does not parse leaves the stream without
rows, end and error, and a body with one row leaves it with an end marker after that
row. -/
theorem malformed_chunk_silent :
    let chunks : Chunks Unit Nat := ⟨fun _ => ⟨0, 1, some "url", none, none, none, false, [], 0, 0⟩, []⟩
    let cfg := { sampleConfig with numChunks := 1 }
    (∃ t, Lts.exec (State.step cfg) (State.create chunks fun _ => (none, none))
        [.read (), .ticked () 0 [], .answered 0 (.ok (some "0,"))] = some t ∧
      t.AtRest 1 ∧ (t.streams ()).pushed = [] ∧ (t.streams ()).errors.length = 0) ∧
    ∃ t, Lts.exec (State.step cfg) (State.create chunks fun _ => (none, none))
        [.read (), .ticked () 0 [], .answered 0 (.ok (some "0")), .ticked () 0 [], .read (),
          .ticked () 0 []] = some t ∧
      t.AtRest 1 ∧ (t.streams ()).pushed = [some 0, none] ∧ (t.streams ()).errors.length = 0 :=
  ⟨Lts.exists_exec (by decide +kernel), Lts.exists_exec (by decide +kernel)⟩

namespace State

variable [DecidableEq ι] {T : Terms ι ρ ε} {s s' : State ι ρ ε} {c : Nat}

/-! ## the right bodies -/

/-- The body that is downloaded for a chunk is the text of its rowset. -/
def Served (parse : String → Option (List ρ)) (blocks : List (List ρ)) : Event ι ρ → Prop
  | .answered c (.ok body) => c < blocks.length → body.bind parse = some (blocks.getD c [])
  | _ => True

/-- An awaited load fails with an interruption that is allowed, and a refresh repairs
it. -/
def Repaired (cfg : Config ρ ε) (s : State ι ρ ε) : Event ι ρ → Prop
  | .answered c (.error e) => ∀ i ∈ (s.chunks.chunk c).listeners, Retries cfg (s.streams i) (some e)
  | .refreshed _ (.error _) => False
  | .refreshed _ (.ok chunkCfgs) => (s.chunks.refresh cfg.numChunks chunkCfgs).2 = none
  | _ => True

/-- A chunk that a stream waits for has rows, it is still loaded when a completion
handed to `process.nextTick` is due, and the window of a stream does not break the
search for its chunks. -/
def Undisturbed (cfg : Config ρ ε) (s : State ι ρ ε) : Event ι ρ → Prop
  | .ticked i k _ => ((s.streams i).ticks[k]?.any fun tick => tick matches .init) = true → s.Opens cfg i
  | .completed c => (s.chunks.chunk c).listeners ≠ [] → (s.chunks.chunk c).isLoaded = true ∧
      (s.chunks.chunk c).startIndex ≤ (s.chunks.chunk c).endIndex
  | .answered c (.ok _) => (s.chunks.chunk c).listeners ≠ [] →
      (s.chunks.chunk c).startIndex ≤ (s.chunks.chunk c).endIndex
  | _ => True

instance [DecidableEq ρ] (parse : String → Option (List ρ)) (blocks : List (List ρ)) :
    DecidablePred (Served (ι := ι) parse blocks) := by
  intro e
  unfold Served
  split <;> infer_instance

instance (cfg : Config ρ ε) (s : State ι ρ ε) (e : Event ι ρ) : Decidable (s.Repaired cfg e) := by
  unfold Repaired
  split <;> infer_instance

instance (cfg : Config ρ ε) (s : State ι ρ ε) (e : Event ι ρ) : Decidable (s.Undisturbed cfg e) := by
  unfold Undisturbed Opens
  split <;> infer_instance

/-- A load of a sound chunk that has rows serves the streams that wait for it. -/
theorem Inv.ends {f : Chunk ι ρ → Chunk ι ρ} {err : Option Err} (h : s.Inv T none)
    (hgood : ∀ i, ∀ row ∈ windowRows T.cfg T.blocks (T.options i), T.Good row)
    (hlisteners : (f (s.chunks.chunk c)).listeners = (s.chunks.chunk c).listeners)
    (hcached : T.Cached c (f (s.chunks.chunk c)).doneLoading)
    (hloaded : err = none → (s.chunks.chunk c).listeners ≠ [] → c < T.blocks.length →
      (f (s.chunks.chunk c)).doneLoading.Sound T.cfg.parse (offset T.blocks c)
        (offset T.blocks (c + 1) - 1) (T.blocks.getD c []) ∧
      (f (s.chunks.chunk c)).doneLoading.isLoaded = true ∧ T.blocks.getD c [] ≠ [])
    (herror : err ≠ none → ¬ T.mayFail →
      ∀ i ∈ (s.chunks.chunk c).listeners, Retries T.cfg (s.streams i) err) :
    s.Ends T c f err := by
  refine ⟨hlisteners, hcached, fun herr hl => ?_, herror⟩
  obtain ⟨i₀, hi₀⟩ := List.exists_mem_of_ne_nil _ hl
  obtain ⟨done₀, todo₀, hf₀⟩ := h.awaits i₀ c hi₀
  obtain ⟨rs₀, hopen₀, hc₀, -⟩ := hf₀.position
  have hinside := hopen₀.reads.inside c (List.mem_of_getElem? hc₀)
  obtain ⟨hsound, hisLoaded, hblock⟩ := hloaded herr hl hinside
  obtain ⟨d, hrows, -, -, -⟩ := hsound.getRows hisLoaded
  refine ⟨d, _, hrows, fun i hi => ?_⟩
  obtain ⟨done, todo, hf⟩ := h.awaits i c hi
  obtain ⟨rs, hopen, hc, -⟩ := hf.position
  have hmem := List.mem_of_getElem? hc
  have hcut : cut (s.streams i) (f (s.chunks.chunk c)).doneLoading
      (convertRowsetToRows (offset T.blocks c) (T.blocks.getD c [])) =
        part T.blocks (s.streams i).start (s.streams i).stop c := by
    unfold cut
    rw [hsound.startIndex, hsound.endIndex]
    exact hopen.reads.slices c hmem
  refine ⟨?_, ?_, fun row hrow => hgood i row ?_⟩
  · rw [hcut]
    exact hopen.reads.part_ne c hmem hblock
  · rw [hcut, map_rowIndex_part hinside, hsound.startIndex, hsound.endIndex]
  · rw [hcut] at hrow
    obtain ⟨hstart, hend⟩ := h.options i
    unfold windowRows
    rw [← hstart, ← hend, ← hopen.start, ← hopen.stop, ← hopen.reads.rows]
    exact List.mem_flatMap.mpr ⟨c, hmem, hrow⟩

section

variable (cfg : Config ρ ε) (blocks : List (List ρ)) (options : ι → Option Rat × Option Rat)
  (hnum : cfg.numChunks = blocks.length) (hreturned : cfg.returnedRows = blocks.flatten.length)

/-- Streams of a sound result, which may not give up. -/
def soundResult (Alone : Prop) (Cached : Nat → Chunk ι ρ → Prop) (halone : Alone → ∀ i k : ι, i = k)
    (hstable : Chunks.Stable cfg.parse blocks Alone Cached) : Terms ι ρ ε where
  cfg
  blocks
  Good row := row ∈ allRows blocks ∧ (cfg.externalizeRow row).isSome = true
  mayFail := False
  Alone
  Cached
  options
  numChunks_eq := hnum
  returnedRows_eq := hreturned
  externalizes _ h := h.2
  alone := halone
  stable := hstable

end

/-- Streams that are served and undisturbed meet the conditions of the invariant, when they are
repaired or may give up. -/
theorem Served.meets {e : Event ι ρ}
    (hserved : Served T.cfg.parse T.blocks e) (hrepaired : ¬ T.mayFail → s.Repaired T.cfg e)
    (hquiet : s.Undisturbed T.cfg e) (h : s.Inv T none)
    (hsound : ∀ j c, T.Cached j c → Chunks.SoundAt T.cfg.parse T.blocks j c)
    (huntick : ∀ j c, T.Cached j c → 0 < c.scheduled → T.Cached j c.untick.doneLoading)
    (hstore : ∀ j c answer, T.Cached j c → 0 < c.requested →
      (∀ body, answer = .ok body → j < T.blocks.length →
        body.bind T.cfg.parse = some (T.blocks.getD j [])) → T.Cached j (c.store answer).doneLoading)
    (hgood : ∀ i, ∀ row ∈ windowRows T.cfg T.blocks (T.options i), T.Good row)
    (hst : State.step T.cfg s e = some s') : s.Meets T e := by
  have hblock : ∀ c, c < T.blocks.length →
      (s.chunks.chunk c).startIndex ≤ (s.chunks.chunk c).endIndex → T.blocks.getD c [] ≠ [] := by
    intro c hc hle hnil
    have hshaped := hsound c _ (h.cached c) hc
    rw [hshaped.startIndex, hshaped.endIndex, offset_succ hc] at hle
    have hget : T.blocks.getD c [] = T.blocks[c] := by
      simp [List.getD_eq_getElem?_getD, List.getElem?_eq_getElem hc]
    rw [hget] at hnil
    rw [hnil, List.length_nil] at hle
    omega
  cases e with
  | read i => trivial
  | ticked i k answers =>
      rintro ⟨tick, htick, rfl⟩
      exact hquiet (by rw [htick]; rfl)
  | completed c =>
      simp only [State.step, Option.ite_none_right_eq_some] at hst
      have hcached := huntick c _ (h.cached c) hst.1
      refine h.ends hgood rfl hcached (fun _ hl hc => ?_) fun herr => absurd rfl herr
      obtain ⟨hisLoaded, hle⟩ := hquiet hl
      exact ⟨hsound c _ hcached hc, hisLoaded, hblock c hc hle⟩
  | answered c answer =>
      simp only [State.step, Option.ite_none_right_eq_some] at hst
      have hbody : ∀ body, answer = .ok body → c < T.blocks.length →
          body.bind T.cfg.parse = some (T.blocks.getD c []) := by
        rintro body rfl
        exact hserved
      have hcached := hstore c _ answer (h.cached c) hst.1 hbody
      cases answer with
      | error e =>
          exact h.ends hgood rfl hcached (fun herr => (by cases herr)) fun _ hno => hrepaired hno
      | ok body =>
          refine h.ends hgood rfl hcached (fun _ hl hc => ?_) fun herr => absurd rfl herr
          have hne := hblock c hc (hquiet hl)
          obtain ⟨text, rfl, hparse⟩ := Option.bind_eq_some_iff.mp (hserved hc)
          refine ⟨hsound c _ hcached hc, Chunk.isLoaded_store _ ?_, hne⟩
          rintro rfl
          rw [T.cfg.parse_empty] at hparse
          exact hne (Option.some.inj hparse).symm
  | refreshed i answer =>
      intro hno
      cases answer with
      | error e => exact (hrepaired hno).elim
      | ok chunkCfgs => exact ⟨chunkCfgs, rfl, hrepaired hno⟩

/-- Streams of chunks that are kept until they are due, each chunk with rows, are not disturbed
when no window breaks the search. -/
theorem Inv.undisturbed {e : Event ι ρ} (h : s.Inv T none)
    (hkept : ∀ j c, T.Cached j c → Chunks.SoundAt T.cfg.parse T.blocks j c ∧
      (j < T.blocks.length → c.Kept))
    (hblocks : ∀ block ∈ T.blocks, block ≠ []) (hopens : ∀ i, s.Opens T.cfg i)
    (hst : State.step T.cfg s e = some s') : s.Undisturbed T.cfg e := by
  have hrows : ∀ c, (s.chunks.chunk c).listeners ≠ [] → c < T.blocks.length ∧
      (s.chunks.chunk c).startIndex ≤ (s.chunks.chunk c).endIndex := by
    intro c hl
    obtain ⟨i, hi⟩ := List.exists_mem_of_ne_nil _ hl
    obtain ⟨done, todo, hf⟩ := h.awaits i c hi
    obtain ⟨rs, hopen, hc, -⟩ := hf.position
    have hinside : c < T.blocks.length := hopen.reads.inside c (List.mem_of_getElem? hc)
    have hshaped := (hkept c _ (h.cached c)).1 hinside
    have hpos := List.length_pos_iff.mpr (hblocks _ (List.getElem_mem hinside))
    rw [hshaped.startIndex, hshaped.endIndex, offset_succ hinside]
    exact ⟨hinside, by omega⟩
  cases e with
  | ticked i k answers => exact fun _ => hopens i
  | completed c =>
      simp only [State.step, Option.ite_none_right_eq_some] at hst
      intro hl
      obtain ⟨hinside, hle⟩ := hrows c hl
      exact ⟨(hkept c _ (h.cached c)).2 hinside hst.1, hle⟩
  | answered c answer =>
      cases answer with
      | error e => trivial
      | ok body => exact fun hl => (hrows c hl).2
  | _ => trivial

/-- A window that does not end before it starts does not break the search. -/
theorem Inv.opens (h : s.Inv T none) {i : ι}
    (hwindow : windowStart (T.options i).1 ≤ windowEnd (T.options i).2 T.cfg.returnedRows) :
    s.Opens T.cfg i := by
  obtain ⟨hstart, hend⟩ := h.options i
  refine .inl ?_
  rw [hstart, hend]
  exact hwindow

end State

section

variable {cfg : Config ρ ε} {blocks : List (List ρ)}

/-- The url of the second chunk expires before it is loaded, and the consumer wants
no more than one row at a time. -/
def repairedRun : List (Event Unit Nat) :=
  [.read (), .ticked () 0 [false], .answered 0 (.ok (some "0")), .ticked () 0 [false], .read (),
    .answered 1 (.error forbidden),
    .refreshed () (.ok (some [⟨1, some "new", none⟩, ⟨1, some "new", none⟩])),
    .answered 1 (.ok (some "1")), .ticked () 0 [false], .read (), .ticked () 0 []]

/-- The second stream gets the first chunk when the first stream has passed it. -/
def passingRun : List (Event Bool Nat) :=
  [.read true, .ticked true 0 [], .answered 0 (.ok (some "0")), .ticked true 0 [],
    .answered 1 (.ok (some "1")), .read false, .ticked false 0 [], .completed 0, .read true,
    .completed 1, .ticked false 0 [], .ticked true 0 []]

end

end RowStream

end SnowflakeConnector
