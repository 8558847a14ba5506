import SnowflakeConnector.RowStream.Invariant

/-!
# SnowflakeConnector.RowStream.Step

Every event of the row streams of a statement keeps the invariant, under the
conditions of `Meets`; and as long as a stream has neither ended nor failed, there is
an event that it, or its consumer, waits for.
-/

namespace SnowflakeConnector

open Slice Result

variable {ι ρ ε : Type*}

namespace RowStream

namespace State

variable [DecidableEq ι] {T : Terms ι ρ ε} {s s' : State ι ρ ε} {i : ι} {p : Phase ρ}
  {done : List (Row ρ)} {todo : List Int}

/-! ## reading -/

/-- A stream with nothing buffered reads the next chunk; `f` is what led to it. -/
theorem Inv.readOn {f : RowStream ρ ε → RowStream ρ ε} (h : s.Inv T none)
    (hlistens : ∀ c, ¬ s.Listens i c)
    (hwindow : (f (s.streams i)).startOption = (s.streams i).startOption ∧
      (f (s.streams i)).endOption = (s.streams i).endOption)
    (hzero : (f (s.streams i)).refreshing = 0)
    (hf : RowStream.Follows T.blocks T.cfg T.Good
      { f (s.streams i) with refreshing := 1, subscribed := true } (s.Listens i) .refreshing done todo)
    (hpassed : T.Alone → (s.update i f).Passed i) : ((s.update i f).readNextRow i).Inv T none := by
  obtain ⟨rs, hopen⟩ := hf.position
  have hbuffer : (f (s.streams i)).rowBuffer = none := hf.buffer
  have hstream : (f (s.streams i)).resultStream = some rs := hopen.resultStream
  have hread : (s.update i f).readNextRow i =
      (((s.update i fun st => { f st with refreshing := 1, subscribed := true }).update i
        fun st => { st with refreshing := 0 }).doLoad i) := by
    have hsame : (s.update i f).update i (fun st => { st with subscribed := true }) =
        (s.update i fun st => { f st with refreshing := 1, subscribed := true }).update i
          fun st => { st with refreshing := 0 } := by
      rw [update_update, update_update]
      refine update_congr ?_
      simp only
      rw [← hzero]
    unfold readNextRow
    rw [← hsame]
    simp [hbuffer, hstream]
  have hinv : (s.update i fun st => { f st with refreshing := 1, subscribed := true }).Inv T none := by
    refine h.update hlistens hwindow ⟨.refreshing, done, todo, hf, fun hp => (by cases hp)⟩ fun halone => ?_
    exact (hpassed halone).of_eq (by rw [update_self, update_self]) (by rw [update_self, update_self])
      fun j => rfl
  have hfollows : Follows T (s.update i fun st => { f st with refreshing := 1, subscribed := true }) i
      .refreshing done todo := by
    unfold Follows
    rw [update_self]
    exact hf
  rw [hread]
  exact hinv.doLoad hfollows

/-- `_read` is called. -/
theorem Inv.read (h : s.Inv T none) (hreading : (s.streams i).reading = false)
    (hopen : (s.streams i).pushed.all Option.isSome = true) : (s.read i).Inv T none := by
  obtain ⟨p, done, todo, hf, -⟩ := h.follows i
  have hinitialized := hf.initialized
  have hphase := hf.reading
  rw [hreading] at hphase
  unfold State.read
  cases p with
  | fresh =>
      have hnot := h.not_listens hf fun c hc => (by cases hc)
      have hfalse : (s.streams i).initialized = false := hinitialized
      simp only [update_self, hfalse, Bool.false_eq_true, if_false, update_update]
      refine h.update hnot ⟨rfl, rfl⟩ ⟨.initializing, done, todo, hf.initialize, fun hp => (by cases hp)⟩
        fun halone => ?_
      exact (h.passed halone i).of_eq (by rw [update_self]) (by rw [update_self]) fun j => rfl
  | ready rest =>
      have hnot := h.not_listens hf fun c hc => (by cases hc)
      have htrue : (s.streams i).initialized = true := hinitialized
      simp only [update_self, htrue, if_true]
      cases rest with
      | nil =>
          have hbuffer : (s.streams i).rowBuffer = none := by
            have hbefore := hf.buffer
            cases hb : (s.streams i).rowBuffer with
            | none => rfl
            | some rowBuffer => simp [Phase.Buffer, hb] at hbefore
          obtain ⟨rs, hcursor⟩ := hf.position
          refine @Inv.readOn _ _ _ _ T s i done todo _ h hnot ⟨rfl, rfl⟩ hf.refreshing ?_ fun halone => ?_
          · exact { hf with
              reading := rfl
              subscribed := rfl
              refreshing := rfl
              buffer := hbuffer
              failed := by simpa using hf.failed
              position := ⟨rs, { hcursor with }⟩ }
          · exact (h.passed halone i).of_eq (by rw [update_self]) (by rw [update_self]) fun j => rfl
      | cons row rest =>
          have hbuffer : (s.streams i).rowBuffer.isSome = true := by
            have hbefore := hf.buffer
            cases hb : (s.streams i).rowBuffer with
            | none => simp [Phase.Buffer, hb] at hbefore
            | some rowBuffer => rfl
          obtain ⟨hstart, hend, hresultStream, hprevious⟩ :=
            processRowBuffer_keeps ({ s.streams i with reading := true } : RowStream ρ ε)
          unfold readNextRow
          simp only [update_self, hbuffer, if_true, update_update]
          refine h.update hnot ⟨hstart, hend⟩
            ⟨.pushing row rest, done, todo, hf.processRowBuffer, fun hp => (by cases hp)⟩ fun halone => ?_
          exact (h.passed halone i).of_eq (by rw [update_self]; exact hprevious)
            (by rw [update_self]; exact hresultStream) fun j => rfl
  | ended =>
      have hpushed := hf.pushed
      simp [hpushed, Phase.marker] at hopen
  | _ => exact (by cases hphase)

/-! ## scheduled callbacks -/

/-- The first thing a stream does is to find its chunks, which may throw on a window
that ends before it starts. -/
def Opens (cfg : Config ρ ε) (s : State ι ρ ε) (i : ι) : Prop :=
  let start := windowStart (s.streams i).startOption
  let stop := windowEnd (s.streams i).endOption cfg.returnedRows
  start ≤ stop ∨ (findOverlappingChunks s.chunks.chunk start stop cfg.numChunks).isOk = true

/-- The result stream of a fresh stream is opened on the chunks of its window, or the
stream closes because its window is empty. -/
theorem Inv.init (h : s.Inv T none) (hf : s.Follows T i .initializing done todo)
    (hopens : s.Opens T.cfg i) :
    ((s.update i fun st => { st with ticks := [] }).init T.cfg i).Inv T none := by
  have hnot := h.not_listens hf fun c hc => (by cases hc)
  obtain ⟨hnone, hprevious, hpushed⟩ := hf.position
  have hshaped : ∀ j, j < T.blocks.length →
      (s.chunks.chunk j).Shaped (offset T.blocks j) (offset T.blocks (j + 1) - 1) :=
    fun j hj => T.stable.shaped j _ (h.cached j) hj
  have hstop : windowEnd (s.streams i).endOption T.cfg.returnedRows < (T.blocks.flatten.length : Nat) := by
    rw [← T.returnedRows_eq]
    exact windowEnd_lt _ _
  have hnil : done = [] := by
    have hbefore := hf.pushed
    rw [hpushed] at hbefore
    simpa [Phase.marker] using hbefore
  have hindices := hf.indices_eq
  rw [hnil] at hindices
  simp only [Phase.buffered, List.map_nil, List.nil_append] at hindices
  have hchunks : ∀ g : RowStream ρ ε → RowStream ρ ε, (s.update i g).chunks = s.chunks := fun _ => rfl
  unfold Opens at hopens
  by_cases hwindow : windowStart (s.streams i).startOption ≤
      windowEnd (s.streams i).endOption T.cfg.returnedRows
  · obtain ⟨is, hfind, hreads, hne⟩ :=
      (Chunks.fits_of_shaped hshaped).exists_reads (windowStart_nonneg _) hwindow hstop
    have htodo : todo = (is.drop 0).flatMap fun c => (part T.blocks
        (windowStart (s.streams i).startOption)
        (windowEnd (s.streams i).endOption T.cfg.returnedRows) c).map Row.rowIndex := by
      rw [List.drop_zero, ← List.map_flatMap, hreads.rows,
        map_rowIndex_inWindow (windowStart_nonneg _) hstop]
      exact hindices
    let f : RowStream ρ ε → RowStream ρ ε := fun st => { st with
      ticks := []
      initialized := true
      start := windowStart st.startOption
      stop := windowEnd st.endOption T.cfg.returnedRows
      resultStream := some ⟨is, T.cfg.resultPrefetch, 0⟩ }
    have hinit : (s.update i fun st => { st with ticks := [] }).init T.cfg i =
        (s.update i f).readNextRow i := by
      have hle : ¬ windowStart (s.streams i).startOption >
          windowEnd (s.streams i).endOption T.cfg.returnedRows := not_lt.mpr hwindow
      rw [← T.numChunks_eq] at hfind
      unfold State.init
      simp only [update_self, update_update, hchunks, hfind, hne, hle, or_self, if_false]
      rfl
    rw [hinit]
    refine @Inv.readOn _ _ _ _ T s i done todo _ h hnot ⟨rfl, rfl⟩ hf.refreshing ?_ fun halone => ?_
    · exact { hf with
        initialized := rfl
        reading := hf.reading
        subscribed := rfl
        ticks := rfl
        refreshing := rfl
        buffer := hf.buffer
        failed := by simpa using hf.failed
        position := ⟨_, rfl, rfl, rfl, hreads, htodo⟩ }
    · intro j hj
      rw [update_self] at hj
      rw [hprevious] at hj
      exact (by cases hj)
  · have hlt : windowStart (s.streams i).startOption >
        windowEnd (s.streams i).endOption T.cfg.returnedRows := not_le.mp hwindow
    have hok := hopens.resolve_left hwindow
    obtain ⟨is, hfind⟩ : ∃ is, findOverlappingChunks s.chunks.chunk
        (windowStart (s.streams i).startOption)
        (windowEnd (s.streams i).endOption T.cfg.returnedRows) T.cfg.numChunks = .ok is := by
      cases hfind : findOverlappingChunks s.chunks.chunk (windowStart (s.streams i).startOption)
          (windowEnd (s.streams i).endOption T.cfg.returnedRows) T.cfg.numChunks with
      | ok is => exact ⟨is, rfl⟩
      | error e =>
          rw [hfind] at hok
          exact (by cases hok)
    have htodo : todo = [] := by
      rw [hindices, indices_eq_nil hlt]
    have hinit : (s.update i fun st => { st with ticks := [] }).init T.cfg i =
        s.update i fun st => { st with
          ticks := [.close]
          initialized := true
          start := windowStart (s.streams i).startOption
          stop := windowEnd (s.streams i).endOption T.cfg.returnedRows } := by
      unfold State.init
      simp only [update_self, update_update, hchunks, hfind, hlt, or_true, if_true]
      rfl
    rw [hinit]
    refine h.update hnot ⟨rfl, rfl⟩ ⟨.closingEmpty, done, todo, ?_, fun hp => (by cases hp)⟩ fun _ => ?_
    · exact { hf with
        initialized := rfl
        ticks := rfl
        failed := by simpa using hf.failed
        position := ⟨hprevious, htodo⟩ }
    · intro j hj
      rw [update_self] at hj
      rw [hprevious] at hj
      exact (by cases hj)

/-- A stream that listens to nothing is closed; `f` is what led to it. -/
theorem Inv.close {f : RowStream ρ ε → RowStream ρ ε} {err : Option Err} (h : s.Inv T none)
    (hlistens : ∀ c, ¬ s.Listens i c)
    (hkeeps : (f (s.streams i)).startOption = (s.streams i).startOption ∧
      (f (s.streams i)).endOption = (s.streams i).endOption ∧
      (f (s.streams i)).previousChunk = (s.streams i).previousChunk)
    (hi : ∃ p done todo, RowStream.Follows T.blocks T.cfg T.Good (closed (f (s.streams i)) err)
      (s.Listens i) p done todo ∧ (∀ c, p ≠ .awaiting c) ∧ (p = .failed → T.mayFail)) :
    ((s.update i f).close i err).Inv T none := by
  obtain ⟨hstart, hend, hprevious⟩ := hkeeps
  obtain ⟨p, done, todo, hf, hnot, hp⟩ := hi
  obtain ⟨chunks, heq, hsame, hcleared⟩ := close_eq (s.update i f) i err
  rw [update_update] at heq
  let s₁ : State ι ρ ε := { s.update i (fun st => closed (f st) err) with chunks := chunks }
  have hstream : s₁.streams i = closed (f (s.streams i)) err :=
    update_self fun st => closed (f st) err
  have hothers : ∀ k, k ≠ i → s₁.streams k = s.streams k :=
    fun k hk => update_of_ne hk fun st => closed (f st) err
  obtain ⟨hstart', hend'⟩ := closed_options (f (s.streams i)) err
  rw [heq]
  refine h.of_stream hothers (fun j => ?_) (fun j => ?_) (fun j => (hsame j).isLoading) ?_
    ⟨p, done, todo, ?_, hp⟩ (fun _ => ?_) h.thrown
  · show T.Cached j (chunks.chunk j)
    rcases hcleared j with h' | ⟨hj, h'⟩
    · rw [h']
      exact h.cached j
    · rw [update_self] at hj
      rw [h']
      exact Terms.cached_clearRows (h.cached j) fun halone =>
        (h.passed halone i j (hprevious.symm.trans hj)).1
  · rw [List.erase_of_not_mem (hlistens j)]
    exact (hsame j).listeners
  · rw [hstream]
    exact ⟨hstart'.trans hstart, hend'.trans hend⟩
  · rw [hstream]
    exact hf.of_listens fun c hc => absurd hc (hnot c)
  · intro j hj
    rw [hstream] at hj
    cases err <;> exact (by cases hj)

/-- A callback of the event loop runs. -/
theorem Inv.tick {k : Nat} {tick : Tick ρ} (h : s.Inv T none) (answers : List Bool)
    (htick : (s.streams i).ticks[k]? = some tick) (hopens : tick = .init → s.Opens T.cfg i) :
    ((s.update i fun st => { st with ticks := st.ticks.eraseIdx k }).runTick T.cfg i answers tick).Inv
      T none := by
  obtain ⟨p, done, todo, hf, -⟩ := h.follows i
  have hticks := hf.ticks
  have hone : ∀ tick', p.ticks = [tick'] → k = 0 ∧ tick = tick' ∧
      s.update i (fun st => { st with ticks := st.ticks.eraseIdx k }) =
        s.update i fun st => { st with ticks := [] } := by
    intro tick' hp
    rw [hticks, hp] at htick
    obtain ⟨rfl, rfl⟩ : k = 0 ∧ tick = tick' := by
      cases k <;> simp_all
    refine ⟨rfl, rfl, update_congr ?_⟩
    simp only [hticks, hp, List.eraseIdx_cons_zero]
  cases p with
  | initializing =>
      obtain ⟨-, rfl, hsame⟩ := hone _ rfl
      rw [hsame]
      exact h.init hf (hopens rfl)
  | pushing row rest =>
      obtain ⟨-, rfl, hsame⟩ := hone _ rfl
      have hnot := h.not_listens hf fun c hc => (by cases hc)
      obtain ⟨hnone, n, hpush⟩ := hf.push T.externalizes answers
      obtain ⟨hstart, hend, hresultStream, hprevious⟩ :=
        pushRow_keeps T.cfg ({ s.streams i with ticks := [] } : RowStream ρ ε) (some row) answers
      rw [hsame, runTick]
      simp only [update_self, hnone, Option.toList_none, List.append_nil, update_update]
      show (s.update i fun _ => (({ s.streams i with ticks := [] } : RowStream ρ ε).pushRow T.cfg
        (some row) answers).1).Inv T none
      refine h.update hnot ⟨hstart, hend⟩ ⟨.ready ((row :: rest).drop n), _, todo, hpush,
        fun hp => (by cases hp)⟩ fun halone => ?_
      exact (h.passed halone i).of_eq (by rw [update_self]; exact hprevious)
        (by rw [update_self]; exact hresultStream) fun j => rfl
  | closing =>
      obtain ⟨-, rfl, hsame⟩ := hone _ rfl
      have hnot := h.not_listens hf fun c hc => (by cases hc)
      have hsub : (s.streams i).subscribed = true := hf.subscribed
      rw [hsame, runTick]
      simp only [update_self, hsub, if_true]
      unfold onResultStreamClose
      simp only [isResultStreamErrorRetryable, Errors.isLargeResultSetError, Errors.isErrorOfType,
        Option.any_none, Option.bind_none, Bool.false_and, Bool.or_false, Bool.false_eq_true,
        false_and, if_false]
      exact h.close hnot ⟨rfl, rfl, rfl⟩ ⟨.ended, done, todo, hf.finish, (fun c hc => (by cases hc)),
        fun hp => (by cases hp)⟩
  | closingEmpty =>
      obtain ⟨-, rfl, hsame⟩ := hone _ rfl
      have hnot := h.not_listens hf fun c hc => (by cases hc)
      rw [hsame, runTick]
      exact h.close hnot ⟨rfl, rfl, rfl⟩ ⟨.ended, done, todo, hf.finishEmpty, (fun c hc => (by cases hc)),
        fun hp => (by cases hp)⟩
  | _ => simp [hticks, Phase.ticks] at htick

/-! ## the answers of the server -/

/-- What is known of the end of a load, `f` being what it makes of the chunk. -/
structure Ends (T : Terms ι ρ ε) (s : State ι ρ ε) (c : Nat) (f : Chunk ι ρ → Chunk ι ρ)
    (err : Option Err) : Prop where
  listeners : (f (s.chunks.chunk c)).listeners = (s.chunks.chunk c).listeners
  cached : T.Cached c (f (s.chunks.chunk c)).doneLoading
  ok : err = none → (s.chunks.chunk c).listeners ≠ [] → ∃ d rows,
    (f (s.chunks.chunk c)).doneLoading.getRows T.cfg.parse = .ok (d, some rows) ∧
      ∀ i ∈ (s.chunks.chunk c).listeners,
        Serves T.Good (s.streams i) (f (s.chunks.chunk c)).doneLoading rows
  error : err ≠ none → ¬ T.mayFail →
    ∀ i ∈ (s.chunks.chunk c).listeners, Retries T.cfg (s.streams i) err

/-- A load ends. -/
theorem Inv.completeLoad {c : Nat} {f : Chunk ι ρ → Chunk ι ρ} {err : Option Err} (h : s.Inv T none)
    (hends : s.Ends T c f err) :
    ({ s with chunks := s.chunks.update c f }.completeLoad T.cfg c err).Inv T none := by
  have hinv := h.loadDone hends.listeners hends.cached
  unfold State.completeLoad
  simp only [Chunks.update_update, Chunks.update_chunk_self]
  rw [show ((f (s.chunks.chunk c)).doneLoading).listeners = (s.chunks.chunk c).listeners from
    hends.listeners]
  have hl : ((s.chunks.update c fun c => (f c).doneLoading).chunk c).listeners =
      (s.chunks.chunk c).listeners := by
    rw [Chunks.update_chunk_self]
    exact hends.listeners
  cases err with
  | some e => exact hinv.emit_error hl fun hno => hends.error (by simp) hno
  | none =>
      cases hnil : (s.chunks.chunk c).listeners with
      | nil =>
          refine { hinv with loading := fun j _ hne => ?_, told_done := fun j hj => (by cases hj) }
          refine hinv.loading j (fun hj => ?_) hne
          cases hj
          exact hne (hl.trans hnil)
      | cons k l =>
          obtain ⟨d, rows, hrows, hserves⟩ := hends.ok rfl (by simp [hnil])
          rw [← hnil]
          have hrows' : ((s.chunks.update c fun c => (f c).doneLoading).chunk c).getRows T.cfg.parse =
              .ok (d, some rows) := by
            rw [Chunks.update_chunk_self]
            exact hrows
          refine hinv.emit_ok hl hrows' fun i hi => ?_
          rw [Chunks.update_chunk_self]
          exact hserves i hi

/-- The answer to `context.refresh`. -/
theorem Inv.refreshed {answer : Except Err (Option (List (ChunkCfg ρ)))} (h : s.Inv T none)
    (hpos : 0 < (s.streams i).refreshing)
    (hrepairs : ¬ T.mayFail → ∃ chunkCfgs, answer = .ok chunkCfgs ∧
      (s.chunks.refresh T.cfg.numChunks chunkCfgs).2 = none) :
    ((s.update i fun st => { st with refreshing := st.refreshing - 1 }).onRefreshed T.cfg i
      answer).Inv T none := by
  obtain ⟨p, done, todo, hf, -⟩ := h.follows i
  cases p with
  | refreshing =>
      have hnot := h.not_listens hf fun c hc => (by cases hc)
      have hone : (s.streams i).refreshing = 1 := hf.refreshing
      have hsame : s.update i (fun st => { st with refreshing := st.refreshing - 1 }) =
          s.update i fun st => { st with refreshing := 0 } := update_congr (by rw [hone])
      have hclose : ∀ e (t : State ι ρ ε), t.Inv T none → t.streams i = s.streams i →
          (∀ c, t.Listens i c ↔ s.Listens i c) → T.mayFail →
          ((t.update i fun st => { st with refreshing := 0 }).close i (some e)).Inv T none := by
        intro e t ht hstream hlistens hfail
        refine ht.close (fun c hc => hnot c ((hlistens c).mp hc)) ⟨rfl, rfl, rfl⟩
          ⟨.failed, done, todo, ?_, (fun c hc => (by cases hc)), fun _ => hfail⟩
        rw [hstream]
        exact (hf.abandon e).of_listens fun c hc => (by cases hc)
      rw [hsame]
      unfold onRefreshed
      cases answer with
      | error e =>
          have hfail : T.mayFail := by
            by_contra hno
            obtain ⟨chunkCfgs, hok, -⟩ := hrepairs hno
            exact (by cases hok)
          exact hclose e { s with resultError := some e } { h with } rfl (fun c => Iff.rfl) hfail
      | ok chunkCfgs =>
          let s₁ : State ι ρ ε := { s with
            chunks := (s.chunks.refresh T.cfg.numChunks chunkCfgs).1
            resultError := (s.chunks.refresh T.cfg.numChunks chunkCfgs).2 }
          have hurl : ∀ j, ∃ url, s₁.chunks.chunk j = (s.chunks.chunk j).setUrl url :=
            s.chunks.refresh_chunk T.cfg.numChunks chunkCfgs
          have hlisteners : ∀ j, (s₁.chunks.chunk j).listeners = (s.chunks.chunk j).listeners := by
            intro j
            obtain ⟨url, hset⟩ := hurl j
            rw [hset]
            rfl
          have hloading : ∀ j, (s₁.chunks.chunk j).isLoading = (s.chunks.chunk j).isLoading := by
            intro j
            obtain ⟨url, hset⟩ := hurl j
            rw [hset]
            rfl
          have hlistens : ∀ k j, s₁.Listens k j ↔ s.Listens k j := by
            intro k j
            unfold Listens
            rw [hlisteners]
          have hinv : s₁.Inv T none := by
            refine ⟨Chunks.refresh_of (P := T.Cached) h.cached (fun j c url hc =>
              T.stable.setUrl j c url hc) _ _, fun j => ?_, h.options, fun k => ?_, fun k j hl => ?_,
              fun j hj hne => ?_, (fun j hj => (by cases hj)), fun halone k => ?_, h.thrown⟩
            · rw [hlisteners]
              exact h.nodup j
            · obtain ⟨p, done', todo', hf', hp⟩ := h.follows k
              refine ⟨p, done', todo', hf'.of_listens fun c hc => ?_, hp⟩
              subst hc
              obtain ⟨rs, -, -, hl⟩ := hf'.position
              exact (hlistens k c).mpr hl
            · obtain ⟨done', todo', hf'⟩ := h.awaits k j ((hlistens k j).mp hl)
              refine ⟨done', todo', hf'.of_listens fun c hc => ?_⟩
              cases hc
              exact hl
            · rw [hlisteners] at hne
              rw [hloading]
              exact h.loading j hj hne
            · exact (h.passed halone k).of_eq rfl rfl hloading
          show (if (s.chunks.refresh T.cfg.numChunks chunkCfgs).2.isSome then
              (s₁.update i fun st => { st with refreshing := 0 }).close i
                (s.chunks.refresh T.cfg.numChunks chunkCfgs).2
            else (s₁.update i fun st => { st with refreshing := 0 }).doLoad i).Inv T none
          cases hthrown : (s.chunks.refresh T.cfg.numChunks chunkCfgs).2 with
          | some e =>
              have hfail : T.mayFail := by
                by_contra hno
                obtain ⟨chunkCfgs', hok, hnone⟩ := hrepairs hno
                cases hok
                rw [hthrown] at hnone
                exact (by cases hnone)
              exact hclose e s₁ hinv rfl (hlistens i) hfail
          | none =>
              exact hinv.doLoad (hf.of_listens fun c hc => (by cases hc))
  | _ =>
      have hzero := hf.refreshing
      simp only [Phase.refreshes] at hzero
      omega

/-! ## steps -/

/-- What is known of the event that a step takes. -/
def Meets (T : Terms ι ρ ε) (s : State ι ρ ε) : Event ι ρ → Prop
  | .ticked i k _ => (∃ tick, (s.streams i).ticks[k]? = some tick ∧ tick = .init) → s.Opens T.cfg i
  | .completed c => s.Ends T c Chunk.untick none
  | .answered c answer => s.Ends T c (Chunk.store answer) answer.err
  | .refreshed _ answer => ¬ T.mayFail → ∃ chunkCfgs, answer = .ok chunkCfgs ∧
      (s.chunks.refresh T.cfg.numChunks chunkCfgs).2 = none
  | _ => True

/-- Every step keeps the invariant. -/
theorem Inv.step {e : Event ι ρ} (h : s.Inv T none) (hst : State.step T.cfg s e = some s')
    (hmeets : s.Meets T e) : s'.Inv T none := by
  cases e with
  | read i =>
      simp only [State.step, Option.ite_none_right_eq_some, Option.some.injEq] at hst
      obtain ⟨⟨hreading, hopen⟩, rfl⟩ := hst
      exact h.read hreading hopen
  | ticked i k answers =>
      simp only [State.step, Option.map_eq_some_iff] at hst
      obtain ⟨tick, htick, rfl⟩ := hst
      exact h.tick answers htick fun hinit => hmeets ⟨tick, htick, hinit⟩
  | completed c =>
      simp only [State.step, Option.ite_none_right_eq_some, Option.some.injEq] at hst
      obtain ⟨-, rfl⟩ := hst
      exact h.completeLoad hmeets
  | answered c answer =>
      simp only [State.step, Option.ite_none_right_eq_some, Option.some.injEq] at hst
      obtain ⟨-, rfl⟩ := hst
      exact h.completeLoad hmeets
  | refreshed i answer =>
      simp only [State.step, Option.ite_none_right_eq_some, Option.some.injEq] at hst
      obtain ⟨hpos, rfl⟩ := hst
      exact h.refreshed hpos hmeets

/-- As long as a stream has neither ended nor failed there is something to wait for. -/
theorem Inv.progress (h : s.Inv T none) (hf : s.Follows T i p done todo) (hended : p ≠ .ended)
    (hfailed : p ≠ .failed) : ∃ e, State.step T.cfg s e ≠ none := by
  have htick : ∀ tick, (s.streams i).ticks = [tick] →
      State.step T.cfg s (.ticked i 0 []) ≠ none := by
    intro tick hticks
    simp [State.step, hticks]
  have hpushed := hf.pushed
  have hread : (s.streams i).reading = false → p.marker (ε := ε) = [] →
      State.step T.cfg s (.read i) ≠ none := by
    intro hreading hmarker
    have hall : (s.streams i).pushed.all Option.isSome = true := by
      rw [hpushed, hmarker, List.append_nil, List.all_map, List.all_eq_true]
      intro row hrow
      exact T.externalizes row (hf.good row (List.mem_append_left _ hrow))
    simp [State.step, hreading, hall]
  cases p with
  | fresh => exact ⟨_, hread hf.reading rfl⟩
  | ready rest => exact ⟨_, hread hf.reading rfl⟩
  | initializing => exact ⟨_, htick _ hf.ticks⟩
  | closing => exact ⟨_, htick _ hf.ticks⟩
  | closingEmpty => exact ⟨_, htick _ hf.ticks⟩
  | pushing row rest => exact ⟨_, htick _ hf.ticks⟩
  | awaiting c =>
      obtain ⟨rs, hopen, hc, hl⟩ := hf.position
      have hinside := hopen.reads.inside c (List.mem_of_getElem? hc)
      have hloading := h.loading c (fun hc => (by cases hc)) (List.ne_nil_of_mem hl)
      have hbalanced := (T.stable.shaped c _ (h.cached c) hinside).balanced
      rw [Chunk.Balanced, hloading, if_pos rfl] at hbalanced
      by_cases hpos : 0 < (s.chunks.chunk c).scheduled
      · exact ⟨.completed c, by simp [State.step, hpos]⟩
      · have hpos' : 0 < (s.chunks.chunk c).requested := by omega
        exact ⟨.answered c (.ok none), by simp [State.step, hpos']⟩
  | refreshing =>
      have hone : (s.streams i).refreshing = 1 := hf.refreshing
      exact ⟨.refreshed i (.ok none), by simp [State.step, hone]⟩
  | ended => exact absurd rfl hended
  | failed => exact absurd rfl hfailed

/-- Streams that were just created. -/
theorem inv_create {chunks : Chunks ι ρ} (hcached : ∀ j, T.Cached j (chunks.chunk j))
    (hlisteners : ∀ j, (chunks.chunk j).listeners = []) :
    (create chunks T.options : State ι ρ ε).Inv T none := by
  refine ⟨hcached, fun j => ?_, fun i => ⟨rfl, rfl⟩, fun i => ?_, fun i c hl => ?_, fun j _ hne => ?_,
    (fun j hj => (by cases hj)), (fun _ i j hj => (by cases hj)), rfl⟩
  · show (chunks.chunk j).listeners.Nodup
    rw [hlisteners]
    exact List.nodup_nil
  · exact ⟨.fresh, [], _, ⟨rfl, rfl, rfl, rfl, rfl, rfl, rfl, by simp [create, RowStream.create], rfl,
      by simp [Phase.buffered], rfl, rfl, rfl⟩, fun hp => (by cases hp)⟩
  · have hnone : i ∈ (chunks.chunk c).listeners := hl
    rw [hlisteners] at hnone
    exact (by cases hnone)
  · exact absurd (hlisteners j) hne

end State

end RowStream

end SnowflakeConnector
