import SnowflakeConnector.Statement

/-!
# SnowflakeConnector.Statement.Complete

The complete callback of a statement is called exactly once, with an error or with what
was obtained, and every poll asks where the last answer said.

The invariant says for each thing that a statement can wait for what its context has by
then; while the rows are read it is the invariant of the stream, which may give up, over
chunks that are kept until they are due.

* `aggregated` -- the terms on which the aggregating stream is followed;
* `Inv.step` -- what every step keeps;
* `sound_of_along` -- runs in which no error is kept from the callback.
-/

namespace SnowflakeConnector

open Slice Result RowStream

variable {ρ ε : Type*}

namespace Statement

/-! ## the aggregating stream -/

/-- The stream of a result, which may give up. -/
def aggregated (fetched : Fetched ρ ε) : Terms Unit ρ ε where
  cfg := fetched.cfg
  blocks := fetched.blocks
  Good row := row ∈ allRows fetched.blocks ∧ (fetched.cfg.externalizeRow row).isSome = true
  mayFail := True
  Alone := True
  Cached j c := Chunks.SoundAt fetched.cfg.parse fetched.blocks j c ∧
    (j < fetched.blocks.length → c.Kept)
  options _ := (none, none)
  numChunks_eq := fetched.numChunks
  returnedRows_eq := fetched.returnedRows
  externalizes _ h := h.2
  alone _ _ _ := rfl
  stable := Chunks.stable_kept fetched.cfg.parse fetched.blocks

/-- All the rows of a result. -/
def Fetched.rows (fetched : Fetched ρ ε) : List ε :=
  (allRows fetched.blocks).filterMap fetched.cfg.externalizeRow

variable {fetched : Fetched ρ ε} {s t : RowStream.State Unit ρ ε}

/-- The window of a stream without options is the whole result. -/
theorem windowRows_all (fetched : Fetched ρ ε) :
    windowRows fetched.cfg fetched.blocks (none, none) = allRows fetched.blocks := by
  unfold windowRows inWindow
  rw [List.filter_eq_self]
  intro row hrow
  have hnum : NumberedFrom Row.rowIndex 0 (allRows fetched.blocks) :=
    numberedFrom_convertRowsetToRows _ _
  have hmem := hnum.mem hrow
  simp only [allRows, length_convertRowsetToRows] at hmem
  simp only [windowStart, windowEnd, fetched.returnedRows, decide_eq_true_eq]
  omega

/-- It does not break the search: without rows there are no chunks. -/
theorem opens_all (h : s.Inv (aggregated fetched) none) : s.Opens fetched.cfg () := by
  by_cases hblocks : fetched.blocks = []
  · refine .inr ?_
    have hnum : fetched.cfg.numChunks = 0 := by simp [fetched.numChunks, hblocks]
    rw [hnum]
    rfl
  · refine h.opens ?_
    obtain ⟨block, hblock⟩ := List.exists_mem_of_ne_nil _ hblocks
    have hrows : 0 < fetched.blocks.flatten.length := by
      refine List.length_pos_iff.mpr fun hnil => ?_
      exact fetched.rows_ne block hblock (List.flatten_eq_nil_iff.mp hnil block hblock)
    simp only [aggregated, windowStart, windowEnd, fetched.returnedRows]
    omega

/-- The stream keeps its invariant as long as the bodies are those of the chunks. -/
theorem streamed_inv {e : RowStream.Event Unit ρ} (h : s.Inv (aggregated fetched) none)
    (hserved : RowStream.State.Served fetched.cfg.parse fetched.blocks e)
    (hst : s.step fetched.cfg e = some t) : t.Inv (aggregated fetched) none := by
  refine h.step hst (hserved.meets (fun hno => absurd trivial hno)
    (h.undisturbed (fun j c hc => hc) fetched.rows_ne (fun _ => opens_all h) hst) h
    (fun j c hc => hc.1) (fun j c hc hpos => ⟨fun hj => (hc.1 hj).untick hpos,
      fun hj => (hc.2 hj).untick hpos⟩) (fun j c answer hc hpos hbody => ?_)
    (fun _ row hrow => ?_) hst)
  · refine ⟨fun hj => (hc.1 hj).store hpos fun body hok => ?_,
      fun hj => (hc.1 hj).balanced.kept_store hpos answer⟩
    exact Option.bind_eq_some_iff.mp (hbody body hok hj)
  · have hall : row ∈ allRows fetched.blocks := List.mem_of_mem_filter hrow
    exact ⟨hall, fetched.externalizes row hall⟩

theorem opened_inv (fetched : Fetched ρ ε) :
    (State.opened fetched).Inv (aggregated fetched) none := by
  have hcreated : (RowStream.State.create fetched.chunks fun _ => (none, none) :
      RowStream.State Unit ρ ε).Inv (aggregated fetched) none :=
    RowStream.State.inv_create (fun j => ⟨fetched.sound j, fun hj => fetched.kept j hj⟩)
      fetched.listeners
  exact streamed_inv (e := .read ()) hcreated trivial (by rfl)

theorem initialized_inv (fetched : Fetched ρ ε) :
    (State.initialized fetched).Inv (aggregated fetched) none :=
  streamed_inv (e := .ticked () 0 []) (opened_inv fetched) trivial (by rfl)

/-- At the end marker all rows have been pushed. -/
theorem pushed_rows (h : s.Inv (aggregated fetched) none)
    (hended : (s.streams ()).pushed.any Option.isNone = true) :
    (s.streams ()).pushed.reduceOption = fetched.rows := by
  obtain ⟨x, hx, hnone⟩ := List.any_eq_true.mp hended
  obtain rfl := Option.isNone_iff_eq_none.mp hnone
  have hpushed := (h.pushed_prefix (fun row hrow => hrow.1) ()).2 hx
  rw [hpushed]
  have hwindow := windowRows_all fetched
  simp only [delivery, aggregated] at hwindow ⊢
  rw [hwindow, Fetched.rows, List.reduceOption_append]
  simp [List.reduceOption, List.filterMap_map]

/-- As long as the stream has neither ended nor failed something is to come, of its own or the
answer to a refresh. -/
theorem stream_progress (h : s.Inv (aggregated fetched) none) (herrors : (s.streams ()).errors = [])
    (hended : (s.streams ()).pushed.any Option.isNone = false) :
    (∃ e, ownEvent e = true ∧ (s.step fetched.cfg e).isSome = true) ∨
      0 < (s.streams ()).refreshing := by
  obtain ⟨p, done, todo, hf, -⟩ := h.follows ()
  have hnot : p ≠ .ended := by
    rintro rfl
    have hpushed := hf.pushed
    rw [hpushed] at hended
    simp [Phase.marker] at hended
  obtain ⟨e, he⟩ := h.progress hf hnot (hf.failed.mp herrors)
  cases e with
  | refreshed i answer =>
      refine .inr ?_
      by_contra hno
      exact he (by simp [RowStream.State.step, hno])
  | _ => exact .inl ⟨_, rfl, Option.isSome_iff_ne_none.mpr he⟩

/-! ## what a statement keeps -/

section

variable {o : Options} {s t : State ρ ε}

/-- A poll goes where the last answer in progress said. -/
def Request.Follows (request : Request) : Prop := ∀ url ∈ request.latest, request.url = url

/-- What the context has when a statement waits for this. -/
def Awaited.Fits (o : Options) (result : Option (Obtained ρ ε)) (resultError : Option Err) :
    Awaited ρ ε → Prop
  | .upload => result = none ∧ resultError = none
  | .answer request => result = none ∧ resultError = none ∧ request.Follows
  | .transfer => result = none ∧ resultError = none
  | .aggregate => o.aggregates = true ∧
      ((∃ fetched, result = some (.rows fetched)) ∨ result = none ∧ resultError ≠ none)
  | .init => o.aggregates = true ∧ result = none ∧ resultError ≠ none
  | .refresh request =>
      o.aggregates = true ∧ result = none ∧ resultError ≠ none ∧ request.Follows
  | .rows streams request => o.aggregates = true ∧
      ∃ fetched, result = some (.rows fetched) ∧ streams.Inv (aggregated fetched) none ∧
        (streams.streams ()).errors = [] ∧
        (0 < (streams.streams ()).refreshing → request ≠ none) ∧ ∀ r ∈ request, r.Follows

/-- The callback was called with what was obtained, unless it was called with an error. -/
def State.Obtains (o : Options) (s : State ρ ε) (c : Completion ε) : Prop :=
  c.err = none → s.result ≠ none ∧ (o.aggregates = true →
    ∃ fetched, s.result = some (.rows fetched) ∧ c.rows = some fetched.rows)

/-- While a statement waits its callback has not been called, and the context is as it should be;
afterwards the callback has not been told of a success that there was not. -/
structure State.Inv (o : Options) (s : State ρ ε) : Prop where
  uncalled : s.awaited ≠ none → s.completed = []
  fits : ∀ awaited ∈ s.awaited, awaited.Fits o s.result s.resultError
  obtains : ∀ c ∈ s.completed, s.Obtains o c

/-- A statement that reports its completion once, with what was obtained, and polls where it was
told to. -/
structure State.Sound (o : Options) (s : State ρ ε) : Prop where
  once : s.completed.length = if s.awaited.isNone then 1 else 0
  obtains : ∀ c ∈ s.completed, s.Obtains o c
  answers : ∀ request, s.awaited = some (.answer request) ∨ s.awaited = some (.refresh request) ∨
    (∃ streams, s.awaited = some (.rows streams (some request))) → request.Follows

/-- The callback is called, or the statement goes on. -/
def State.Completes (s : State ρ ε) : Prop :=
  s.completed.length = if s.awaited.isNone then 1 else 0

/-- The event is one that the server and the chunks can bring about, and no failure is kept from
the callback: of an upload whose fallback throws, and of an execution that nobody waits for. -/
def Harmless (o : Options) (s : State ρ ε) (e : Event ρ ε) : Prop :=
  match s.awaited, e with
  | some .upload, .uploaded ok => ok = false → bindsMapThrows o.binds = false
  | some (.answer _), .answered (.error _ _) => o.ignoresErrors = false
  | some (.answer _), .answered (.inProgress detached _ _) =>
      o.ignoresErrors = true → detached = true ∨ o.kind = .file
  | some .transfer, .transferred (.error _) => o.ignoresErrors = false
  | some (.rows _ _), .streamed e =>
      match s.result with
      | some (.rows fetched) => RowStream.State.Served fetched.cfg.parse fetched.blocks e
      | _ => True
  | _, _ => True

instance [DecidableEq ρ] (o : Options) (s : State ρ ε) (e : Event ρ ε) :
    Decidable (Harmless o s e) := by
  unfold Harmless
  repeat' split
  all_goals infer_instance

theorem State.Inv.sound (hs : s.Inv o) (hcompletes : s.Completes) : s.Sound o := by
  refine ⟨hcompletes, hs.obtains, fun request hrequest => ?_⟩
  obtain hawaited | hawaited | ⟨streams, hawaited⟩ := hrequest
  · exact (hs.fits _ hawaited).2.2
  · exact (hs.fits _ hawaited).2.2.2
  · obtain ⟨-, fetched, -, -, -, -, hfollows⟩ := hs.fits _ hawaited
    exact hfollows request rfl

/-- What a step has to establish. -/
def State.Good (o : Options) (s : State ρ ε) : Prop := s.Inv o ∧ s.Completes

theorem State.Good.await {awaited : Awaited ρ ε} (hcompleted : s.completed = [])
    (hfits : awaited.Fits o s.result s.resultError) : (s.await awaited).Good o := by
  refine ⟨⟨fun _ => hcompleted, fun other hother => ?_, by simp [hcompleted]⟩, ?_⟩
  · obtain rfl := Option.some.inj hother
    exact hfits
  · simp [State.Completes, hcompleted]

theorem State.Good.complete {err : Option Err} {rows : Option (List ε)} (hcompleted : s.completed = [])
    (hobtains : s.Obtains o ⟨err, rows⟩) : (s.complete err rows).Good o := by
  refine ⟨⟨by simp, by simp, fun c hc => ?_⟩, by simp [State.Completes, hcompleted]⟩
  obtain rfl : c = ⟨err, rows⟩ := by simpa [hcompleted] using hc
  exact hobtains

/-- The completion of a statement that has a result, or an error that is told. -/
theorem State.Good.invokeStatementComplete (hcompleted : s.completed = [])
    (h : (∃ fetched, s.result = some (.rows fetched)) ∨
      s.result = none ∧ s.resultError ≠ none ∧ o.ignoresErrors = false ∨
      s.result ≠ none ∧ o.aggregates = false) : (s.invokeStatementComplete o).Good o := by
  unfold State.invokeStatementComplete
  split_ifs with hstream hasync
  · refine .complete hcompleted fun herr => ?_
    have hno : o.aggregates = false := by simp [Options.aggregates, hstream]
    obtain ⟨fetched, hresult⟩ | ⟨-, herror, -⟩ | ⟨hresult, -⟩ := h
    · simp [hresult, hno]
    · exact absurd herr herror
    · simp [hresult, hno]
  · refine .complete hcompleted fun herr => ?_
    have hno : o.aggregates = false := by simp [Options.aggregates, hasync]
    obtain ⟨fetched, hresult⟩ | ⟨-, -, hignores⟩ | ⟨hresult, -⟩ := h
    · simp [hresult, hno]
    · simp [Options.ignoresErrors, hstream, hasync] at hignores
    · simp [hresult, hno]
  · have haggregates : o.aggregates = true := by simp [Options.aggregates, hstream, hasync]
    refine .await hcompleted ⟨haggregates, ?_⟩
    obtain hresult | ⟨hresult, herror, -⟩ | ⟨-, hno⟩ := h
    · exact .inl hresult
    · exact .inr ⟨hresult, herror⟩
    · simp [haggregates] at hno

theorem aggregates_of_async (h : o.isAsync = true) : o.aggregates = false := by
  simp [Options.aggregates, h]

/-! ## what each answer leads to -/

theorem answered_good {request : Request} (hs : s.Inv o)
    (hawaited : s.awaited = some (.answer request)) (answer : Answer ρ ε)
    (he : Harmless o s (.answered answer)) : (s.onAnswer o answer).Good o := by
  have hcompleted := hs.uncalled (by simp [hawaited])
  obtain ⟨hresult, herror, -⟩ := hs.fits _ hawaited
  simp only [Harmless, hawaited] at he
  cases answer with
  | error err queryId =>
      exact .invokeStatementComplete hcompleted (.inr (.inl ⟨hresult, by simp [State.failed], he⟩))
  | inProgress detached queryId getResultUrl =>
      simp only [State.onAnswer]
      split_ifs with hasync hfile hdetached
      · exact .await hcompleted ⟨hresult, herror⟩
      · exact .invokeStatementComplete hcompleted
          (.inr (.inr ⟨by simp [State.succeeded], aggregates_of_async hasync⟩))
      · refine .invokeStatementComplete hcompleted (.inr (.inl ⟨hresult, by simp, ?_⟩))
        by_contra hignores
        simp only [Bool.not_eq_false] at hignores
        simp_all
      · refine .await hcompleted ⟨hresult, herror, fun url hurl => ?_⟩
        exact Option.some.inj hurl
  | success queryId fetched chunkCfgs =>
      simp only [State.onAnswer]
      split_ifs with hfile
      · exact .await hcompleted ⟨hresult, herror⟩
      · exact .invokeStatementComplete hcompleted (.inl ⟨fetched, rfl⟩)

theorem transferred_good (hs : s.Inv o) (hawaited : s.awaited = some .transfer)
    (result : Except Err (Fetched ρ ε)) (he : Harmless o s (.transferred result)) :
    (s.onTransferred o result).Good o := by
  have hcompleted := hs.uncalled (by simp [hawaited])
  obtain ⟨hresult, herror⟩ := hs.fits _ hawaited
  cases result with
  | ok fetched => exact .invokeStatementComplete hcompleted (.inl ⟨fetched, rfl⟩)
  | error err =>
      simp only [Harmless, hawaited] at he
      exact .invokeStatementComplete hcompleted (.inr (.inl ⟨hresult, by simp, he⟩))

theorem follows_refreshRequest (o : Options) (s : State ρ ε) : (s.refreshRequest o).Follows := by
  unfold State.refreshRequest Request.Follows State.sendRequestPreExec
  split <;> simp

/-- The stream is created and read, or what it needs is fetched first. -/
theorem aggregate_good (hs : s.Inv o) (hawaited : s.awaited = some .aggregate) :
    (s.aggregate o).Good o := by
  have hcompleted := hs.uncalled (by simp [hawaited])
  obtain ⟨haggregates, ⟨fetched, hresult⟩ | ⟨hresult, herror⟩⟩ := hs.fits _ hawaited
  · simp only [State.aggregate, hresult]
    refine .await hcompleted ⟨haggregates, fetched, hresult, opened_inv fetched, rfl, ?_, by simp⟩
    simp [State.opened, RowStream.State.read, RowStream.State.create, RowStream.create,
      RowStream.State.update]
  · simp only [State.aggregate, hresult]
    split_ifs with hfatal
    · exact .await hcompleted ⟨haggregates, hresult, herror⟩
    · exact .await hcompleted ⟨haggregates, hresult, herror, follows_refreshRequest o s⟩

theorem closeUnread_good (hcompleted : s.completed = []) (herror : s.resultError ≠ none) :
    s.closeUnread.Good o := by
  obtain ⟨err, herr⟩ := Option.ne_none_iff_exists'.mp herror
  simp only [State.closeUnread, herr]
  exact .complete hcompleted (by simp [State.Obtains])

/-- What the stream did is seen: its first error, or that it goes on. -/
theorem observe_good {streams : RowStream.State Unit ρ ε} (request : Option Request)
    (hcompleted : s.completed = []) (haggregates : o.aggregates = true)
    (hresult : s.result = some (.rows fetched)) (h : streams.Inv (aggregated fetched) none)
    (hfollows : ∀ r ∈ request, r.Follows) : (s.observe o streams request).Good o := by
  unfold State.observe
  split
  · exact .complete hcompleted (by simp [State.Obtains])
  · next herrors =>
      refine .await hcompleted ⟨haggregates, fetched, hresult, h, herrors, fun hpos => ?_, ?_⟩
      · split_ifs with hsend
        · simp
        · exact fun hnone => hsend ⟨hpos, hnone⟩
      · intro r hr
        split_ifs at hr with hsend
        · obtain rfl := Option.some.inj hr
          exact follows_refreshRequest o s
        · exact hfollows r hr

theorem refreshed_good {request : Request} (hs : s.Inv o)
    (hawaited : s.awaited = some (.refresh request)) (answer : Answer ρ ε) :
    (s.onRefresh o answer).Good o := by
  have hcompleted := hs.uncalled (by simp [hawaited])
  obtain ⟨haggregates, hresult, herror, -⟩ := hs.fits _ hawaited
  cases answer with
  | error err queryId =>
      exact closeUnread_good (s := s.failed err queryId) hcompleted (by simp [State.failed])
  | inProgress detached queryId getResultUrl =>
      refine .await hcompleted ⟨haggregates, hresult, herror, fun url hurl => ?_⟩
      exact Option.some.inj hurl
  | success queryId fetched chunkCfgs =>
      exact observe_good (s := { s with queryId := some queryId }.succeeded (.rows fetched)) none
        hcompleted haggregates rfl (initialized_inv fetched) (by simp)

/-- Whatever the server answers to a refresh, the stream goes on or gives up. -/
theorem continued_good {streams : RowStream.State Unit ρ ε} {request : Option Request}
    (hs : s.Inv o) (hawaited : s.awaited = some (.rows streams request))
    (hresult : s.result = some (.rows fetched)) (answer : Answer ρ ε)
    (h : s.onContinue o fetched streams answer = some t) : t.Good o := by
  have hcompleted := hs.uncalled (by simp [hawaited])
  obtain ⟨haggregates, fetched', hresult', hstream, herrors, hrefreshing, -⟩ := hs.fits _ hawaited
  obtain rfl : fetched = fetched' := by simpa [hresult] using hresult'
  cases answer with
  | error err queryId =>
      simp only [State.onContinue, Option.map_eq_some_iff] at h
      obtain ⟨streams', hst, rfl⟩ := h
      exact observe_good (s := s.failed err queryId) none hcompleted haggregates hresult
        (streamed_inv (e := .refreshed () (.error err)) hstream trivial hst) (by simp)
  | inProgress detached queryId getResultUrl =>
      simp only [State.onContinue, Option.some.injEq] at h
      subst h
      refine .await hcompleted ⟨haggregates, fetched, hresult, hstream, herrors, by simp, ?_⟩
      rintro r hr url hurl
      obtain rfl := Option.some.inj hr
      exact Option.some.inj hurl
  | success queryId fetched' chunkCfgs =>
      simp only [State.onContinue, Option.map_eq_some_iff] at h
      obtain ⟨streams', hst, rfl⟩ := h
      exact observe_good (s := { s with queryId := some queryId, resultError := streams'.resultError })
        none hcompleted haggregates hresult
        (streamed_inv (e := .refreshed () (.ok chunkCfgs)) hstream trivial hst) (by simp)

/-- The stream while it is read. -/
theorem rows_good {streams : RowStream.State Unit ρ ε} {request : Option Request} {e : Event ρ ε}
    (hs : s.Inv o) (hawaited : s.awaited = some (.rows streams request))
    (he : Harmless o s e) (h : step o s e = some t) : t.Good o := by
  have hcompleted := hs.uncalled (by simp [hawaited])
  obtain ⟨haggregates, fetched, hresult, hstream, herrors, -, hfollows⟩ := hs.fits _ hawaited
  cases e with
  | streamed e =>
      simp only [step, hawaited, hresult] at h
      split_ifs at h with hown
      obtain ⟨streams', hst, rfl⟩ := Option.map_eq_some_iff.mp h
      simp only [Harmless, hawaited, hresult] at he
      exact observe_good request hcompleted haggregates hresult (streamed_inv hstream he hst) hfollows
  | answered answer =>
      simp only [step, hawaited, hresult] at h
      split_ifs at h with hrequest
      exact continued_good hs hawaited hresult answer h
  | ended =>
      simp only [step, hawaited, hresult] at h
      split_ifs at h with hended
      obtain rfl := Option.some.inj h
      refine .complete hcompleted fun _ => ⟨by simp [hresult], fun _ => ⟨fetched, hresult, ?_⟩⟩
      rw [pushed_rows hstream hended]
  | _ => simp [step, hawaited, hresult] at h

/-- Every harmless step keeps what a statement keeps, and completes it or goes on. -/
theorem State.Inv.step {e : Event ρ ε} (hs : s.Inv o) (he : Harmless o s e)
    (h : step o s e = some t) : t.Good o := by
  cases hawaited : s.awaited with
  | none => simp [Statement.step, hawaited] at h
  | some awaited =>
      have hcompleted := hs.uncalled (by simp [hawaited])
      cases awaited with
      | upload =>
          cases e with
          | uploaded ok =>
              simp only [Statement.step, hawaited] at h
              obtain ⟨hresult, herror⟩ := hs.fits _ hawaited
              simp only [Harmless, hawaited] at he
              split_ifs at h with hthrows
              · simp [he hthrows.1] at hthrows
              · obtain rfl := Option.some.inj h
                exact .await hcompleted
                  ⟨hresult, herror, by simp [Request.Follows, State.sendRequestPreExec]⟩
          | _ => simp [Statement.step, hawaited] at h
      | answer request =>
          cases e with
          | answered answer =>
              simp only [Statement.step, hawaited, Option.some.injEq] at h
              subst h
              exact answered_good hs hawaited answer he
          | _ => simp [Statement.step, hawaited] at h
      | transfer =>
          cases e with
          | transferred result =>
              simp only [Statement.step, hawaited, Option.some.injEq] at h
              subst h
              exact transferred_good hs hawaited result he
          | _ => simp [Statement.step, hawaited] at h
      | aggregate =>
          cases e with
          | ticked =>
              simp only [Statement.step, hawaited, Option.some.injEq] at h
              subst h
              exact aggregate_good hs hawaited
          | _ => simp [Statement.step, hawaited] at h
      | init =>
          cases e with
          | ticked =>
              simp only [Statement.step, hawaited, Option.some.injEq] at h
              subst h
              exact closeUnread_good hcompleted (hs.fits _ hawaited).2.2
          | _ => simp [Statement.step, hawaited] at h
      | refresh request =>
          cases e with
          | answered answer =>
              simp only [Statement.step, hawaited, Option.some.injEq] at h
              subst h
              exact refreshed_good hs hawaited answer
          | _ => simp [Statement.step, hawaited] at h
      | rows streams request => exact rows_good hs hawaited he h

/-! ## runs -/

theorem create_good (h : create o = some s) : s.Good o := by
  unfold create at h
  split at h
  · obtain rfl := Option.some.inj h
    exact .await (s := ⟨none, _, none, none, []⟩) rfl ⟨rfl, rfl, by simp [Request.Follows]⟩
  · split_ifs at h
    · obtain rfl := Option.some.inj h
      exact .await (s := ⟨none, none, none, none, []⟩) rfl ⟨rfl, rfl⟩
    · obtain rfl := Option.some.inj h
      exact .await (s := ⟨none, none, none, none, []⟩) rfl
        ⟨rfl, rfl, by simp [Request.Follows, State.sendRequestPreExec]⟩

/-- Nothing can happen any more only when a statement waits for nothing. -/
theorem State.Inv.settled (hs : s.Inv o) (hq : Lts.Quiescent (Statement.step o) s) :
    s.awaited = none := by
  cases hawaited : s.awaited with
  | none => rfl
  | some awaited =>
      exfalso
      cases awaited with
      | upload => simpa [Statement.step, hawaited] using hq (.uploaded true)
      | answer request =>
          simpa [Statement.step, hawaited] using hq (.answered (.inProgress true "" ""))
      | transfer => simpa [Statement.step, hawaited] using hq (.transferred (.error Errors.typeError))
      | aggregate => simpa [Statement.step, hawaited] using hq .ticked
      | init => simpa [Statement.step, hawaited] using hq .ticked
      | refresh request =>
          simpa [Statement.step, hawaited] using hq (.answered (.inProgress true "" ""))
      | rows streams request =>
          obtain ⟨-, fetched, hresult, hstream, herrors, hrefreshing, -⟩ := hs.fits _ hawaited
          cases hended : (streams.streams ()).pushed.any Option.isNone with
          | true =>
              have hend := hq .ended
              simp only [Statement.step, hawaited, hresult, hended, if_true] at hend
              contradiction
          | false =>
              obtain ⟨e, hown, he⟩ | hpos := stream_progress hstream herrors hended
              · have hgo := hq (.streamed e)
                simp only [Statement.step, hawaited, hresult, hown, if_true, Option.map_eq_none_iff]
                  at hgo
                simp [hgo] at he
              · have hpoll := hq (.answered (.inProgress true "" ""))
                obtain ⟨r, hr⟩ := Option.ne_none_iff_exists'.mp (hrefreshing hpos)
                simp [Statement.step, hawaited, hresult, hr, State.onContinue] at hpoll

end

/-! ## two statements -/

/-- A statement whose rows are aggregated unless it is detached. -/
def sampleOptions (asyncExec : Bool) : Options where
  fetchResult := none
  requestId := "request"
  isFileCommand := false
  binds := []
  threshold := 100000
  streamResult := false
  asyncExec

/-- Two rows, each in a chunk of its own. -/
def sampleFetched : Fetched Nat Nat where
  cfg := sampleConfig
  blocks := [[0], [1]]
  chunks := sampleChunks
  numChunks := rfl
  returnedRows := rfl
  rows_ne := by decide
  sound := sound_sampleChunks
  kept _ _ h := absurd h (lt_irrefl 0)
  listeners _ := rfl
  externalizes _ _ := rfl

/-- The query takes a while, and the url of its second chunk expires before it is loaded. -/
def sampleRun : List (Event Nat Nat) :=
  [.answered (.inProgress false "query" "/queries/query/result"),
    .answered (.success "query" sampleFetched none), .ticked, .streamed (.ticked () 0 []),
    .streamed (.answered 0 (.ok (some "0"))), .streamed (.ticked () 0 []), .streamed (.read ()),
    .streamed (.answered 1 (.error forbidden)),
    .answered (.inProgress false "query" "/queries/query/result"),
    .answered (.success "query" sampleFetched (some [⟨1, some "new", none⟩, ⟨1, some "new", none⟩])),
    .streamed (.answered 1 (.ok (some "1"))), .streamed (.ticked () 0 []), .streamed (.read ()),
    .streamed (.ticked () 0 []), .ended]

end Statement

end SnowflakeConnector
