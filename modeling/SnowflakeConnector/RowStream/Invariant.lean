import SnowflakeConnector.RowStream.Follow

/-!
# SnowflakeConnector.RowStream.Invariant

The row streams of a statement together: each follows its own window, and what they
share is the chunks.

`Terms` says what is known of the result and of the chunks, `Inv` is the invariant,
and `Meets` are the conditions under which a step keeps it: the chunk that a stream
awaits has the rows of the window when its load ends with success, and, unless
streams may fail, an awaited load that fails can be repaired.
-/

namespace SnowflakeConnector

open Slice Result

variable {ι ρ ε : Type*}

namespace RowStream

/-- The terms on which the streams of a statement are followed: `Good` holds of every
row taken out of a chunk, `mayFail` says that streams may give up, `Alone` that there
is only one of them, `Cached` is what is known of the chunks, and `options` are the
options of each stream. -/
structure Terms (ι ρ ε : Type*) [DecidableEq ι] where
  cfg : Config ρ ε
  blocks : List (List ρ)
  Good : Row ρ → Prop
  mayFail : Prop
  Alone : Prop
  Cached : Nat → Chunk ι ρ → Prop
  options : ι → Option Rat × Option Rat
  numChunks_eq : cfg.numChunks = blocks.length
  returnedRows_eq : cfg.returnedRows = blocks.flatten.length
  externalizes : ∀ row, Good row → (cfg.externalizeRow row).isSome
  alone : Alone → ∀ i k : ι, i = k
  stable : Chunks.Stable cfg.parse blocks Alone Cached

/-- A chunk can be freed; a stream on its own frees one that is not loading. -/
theorem Terms.cached_clearRows [DecidableEq ι] {T : Terms ι ρ ε} {j : Nat} {c : Chunk ι ρ}
    (hc : T.Cached j c) (hl : T.Alone → c.isLoading = false) : T.Cached j (c.clearRows false) := by
  refine T.stable.clearRows j c hc fun halone hj => ?_
  have hbalanced := (T.stable.shaped j c hc hj).balanced
  rw [Chunk.Balanced, hl halone] at hbalanced
  simp only [Bool.false_eq_true, if_false] at hbalanced
  omega

namespace State

variable [DecidableEq ι]

/-- The previous chunk of a stream is not loading, and not to be loaded again. -/
def Passed (s : State ι ρ ε) (i : ι) : Prop :=
  ∀ j, (s.streams i).previousChunk = some j → (s.chunks.chunk j).isLoading = false ∧
    ∀ rs, (s.streams i).resultStream = some rs → j ∉ rs.chunks.drop rs.currChunk

/-- Stream `i` is in the phase `p`. -/
abbrev Follows (T : Terms ι ρ ε) (s : State ι ρ ε) (i : ι) (p : Phase ρ) (done : List (Row ρ))
    (todo : List Int) : Prop :=
  RowStream.Follows T.blocks T.cfg T.Good (s.streams i) (s.Listens i) p done todo

/-- Every stream is in some phase, and a listener of a chunk awaits it; the chunk is
loading, unless it is the one whose listeners are being told. -/
structure Inv (T : Terms ι ρ ε) (told : Option Nat) (s : State ι ρ ε) : Prop where
  cached : ∀ j, T.Cached j (s.chunks.chunk j)
  nodup : ∀ j, (s.chunks.chunk j).listeners.Nodup
  options : ∀ i, (s.streams i).startOption = (T.options i).1 ∧ (s.streams i).endOption = (T.options i).2
  follows : ∀ i, ∃ p done todo, s.Follows T i p done todo ∧ (p = .failed → T.mayFail)
  awaits : ∀ i c, s.Listens i c → ∃ done todo, s.Follows T i (.awaiting c) done todo
  loading : ∀ j, told ≠ some j → (s.chunks.chunk j).listeners ≠ [] →
    (s.chunks.chunk j).isLoading = true
  told_done : ∀ j, told = some j → (s.chunks.chunk j).isLoading = false
  passed : T.Alone → ∀ i, s.Passed i
  thrown : s.thrown = []

section

variable {T : Terms ι ρ ε} {told : Option Nat} {s s' : State ι ρ ε} {i : ι} {p : Phase ρ}
  {done : List (Row ρ)} {todo : List Int}

/-! ## listening -/

/-- Only a stream that awaits a chunk listens. -/
theorem Inv.not_listens (h : s.Inv T told) (hf : s.Follows T i p done todo)
    (hp : ∀ c, p ≠ .awaiting c) (c : Nat) : ¬ s.Listens i c := by
  intro hl
  obtain ⟨done', todo', h'⟩ := h.awaits i c hl
  have hsub := h'.subscribed.symm.trans hf.subscribed
  have hticks := h'.ticks.symm.trans hf.ticks
  have hrefreshing := h'.refreshing.symm.trans hf.refreshing
  cases p with
  | awaiting c => exact hp c rfl
  | _ => simp [Phase.subscribed, Phase.ticks, Phase.refreshes] at hsub hticks hrefreshing

/-- A stream awaits the one chunk it listens to. -/
theorem Inv.listens_iff {c j : Nat} (h : s.Inv T told) (hc : s.Listens i c) :
    s.Listens i j ↔ j = c := by
  constructor
  · intro hj
    obtain ⟨done, todo, h1⟩ := h.awaits i c hc
    obtain ⟨done', todo', h2⟩ := h.awaits i j hj
    obtain ⟨rs, hopen, hget, -⟩ := h1.position
    obtain ⟨rs', hopen', hget', -⟩ := h2.position
    obtain rfl : rs = rs' := Option.some.inj (hopen.resultStream.symm.trans hopen'.resultStream)
    exact Option.some.inj (hget'.symm.trans hget)
  · rintro rfl
    exact hc

/-- Removing the listener that is told first. -/
theorem removeListener_cons {c : Chunk ι ρ} {l : List ι} (hl : c.listeners = i :: l)
    (hnodup : c.listeners.Nodup) : (c.removeListener i).listeners = l := by
  rw [hl] at hnodup
  have hnot : i ∉ l.reverse := by
    rw [List.mem_reverse]
    exact (List.nodup_cons.mp hnodup).1
  show (c.listeners.reverse.erase i).reverse = l
  rw [hl, List.reverse_cons, List.erase_append_right _ hnot, List.erase_cons_head, List.append_nil,
    List.reverse_reverse]

/-! ## one stream moves on -/

/-- One stream has moved on, and listens to nothing. -/
theorem Inv.of_stream (h : s.Inv T told) (hothers : ∀ k, k ≠ i → s'.streams k = s.streams k)
    (hcached : ∀ j, T.Cached j (s'.chunks.chunk j))
    (hlisteners : ∀ j, (s'.chunks.chunk j).listeners = (s.chunks.chunk j).listeners.erase i)
    (hloading : ∀ j, (s'.chunks.chunk j).isLoading = (s.chunks.chunk j).isLoading)
    (hwindow : (s'.streams i).startOption = (s.streams i).startOption ∧
      (s'.streams i).endOption = (s.streams i).endOption)
    (hi : ∃ p done todo, RowStream.Follows T.blocks T.cfg T.Good (s'.streams i) (fun _ => False) p done
      todo ∧ (p = .failed → T.mayFail))
    (hpassed : T.Alone → s'.Passed i) (hthrown : s'.thrown = []) : s'.Inv T told := by
  have hlistens : ∀ k c, s'.Listens k c ↔ s.Listens k c ∧ k ≠ i := by
    intro k c
    unfold Listens
    rw [hlisteners, (h.nodup c).mem_erase_iff, and_comm]
  refine ⟨hcached, fun j => ?_, fun k => ?_, fun k => ?_, fun k c hl => ?_, fun j htold hne => ?_,
    fun j htold => ?_, fun halone k => ?_, hthrown⟩
  · rw [hlisteners]
    exact (h.nodup j).erase i
  · by_cases hk : k = i
    · subst hk
      rw [hwindow.1, hwindow.2]
      exact h.options k
    · rw [hothers k hk]
      exact h.options k
  · by_cases hk : k = i
    · subst hk
      obtain ⟨p, done, todo, hf, hp⟩ := hi
      have hnot : ∀ c, p ≠ .awaiting c := by
        rintro c rfl
        obtain ⟨rs, -, -, hfalse⟩ := hf.position
        exact hfalse
      exact ⟨p, done, todo, hf.of_listens fun c hc => absurd hc (hnot c), hp⟩
    · obtain ⟨p, done, todo, hf, hp⟩ := h.follows k
      unfold Follows
      rw [hothers k hk]
      refine ⟨p, done, todo, hf.of_listens fun c hc => ?_, hp⟩
      subst hc
      obtain ⟨rs, -, -, hl⟩ := hf.position
      exact (hlistens k c).mpr ⟨hl, hk⟩
  · obtain ⟨hl, hk⟩ := (hlistens k c).mp hl
    obtain ⟨done, todo, hf⟩ := h.awaits k c hl
    unfold Follows
    rw [hothers k hk]
    refine ⟨done, todo, hf.of_listens fun c' hc => ?_⟩
    cases hc
    exact (hlistens k c).mpr ⟨hl, hk⟩
  · rw [hloading]
    refine h.loading j htold fun hnil => hne ?_
    rw [hlisteners, hnil]
    rfl
  · rw [hloading]
    exact h.told_done j htold
  · obtain rfl := T.alone halone k i
    exact hpassed halone

/-- The same, when the chunks stay as they are and the stream listens to none. -/
theorem Inv.update {f : RowStream ρ ε → RowStream ρ ε} (h : s.Inv T told)
    (hlistens : ∀ c, ¬ s.Listens i c)
    (hwindow : (f (s.streams i)).startOption = (s.streams i).startOption ∧
      (f (s.streams i)).endOption = (s.streams i).endOption)
    (hi : ∃ p done todo, RowStream.Follows T.blocks T.cfg T.Good (f (s.streams i)) (s.Listens i) p done
      todo ∧ (p = .failed → T.mayFail))
    (hpassed : T.Alone → (s.update i f).Passed i) : (s.update i f).Inv T told := by
  refine h.of_stream (fun k hk => update_of_ne hk f) h.cached
    (fun j => (List.erase_of_not_mem (hlistens j)).symm) (fun j => rfl) ?_ ?_ hpassed h.thrown
  · rw [update_self]
    exact hwindow
  · obtain ⟨p, done, todo, hf, hp⟩ := hi
    rw [update_self]
    refine ⟨p, done, todo, hf.of_listens fun c hc => ?_, hp⟩
    subst hc
    obtain ⟨rs, -, -, hl⟩ := hf.position
    exact hlistens c hl

omit [DecidableEq ι] in
/-- Nothing that `Passed` speaks of has changed. -/
theorem Passed.of_eq (h : s.Passed i) (hprevious : (s'.streams i).previousChunk = (s.streams i).previousChunk)
    (hstream : (s'.streams i).resultStream = (s.streams i).resultStream)
    (hloading : ∀ j, (s'.chunks.chunk j).isLoading = (s.chunks.chunk j).isLoading) : s'.Passed i := by
  unfold Passed
  rw [hprevious, hstream]
  intro j hj
  rw [hloading]
  exact h j hj

/-! ## the listeners of a chunk are told -/

/-- An interruption that the stream may repair. -/
def Retries (cfg : Config ρ ε) (st : RowStream ρ ε) (err : Option Err) : Prop :=
  isResultStreamErrorRetryable err = true ∧ st.numResultStreamInterrupts < cfg.resultStreamInterrupts

instance (cfg : Config ρ ε) (st : RowStream ρ ε) (err : Option Err) :
    Decidable (Retries cfg st err) := inferInstanceAs (Decidable (_ ∧ _))

/-- The rows of a chunk serve a stream: those in its window are there, there is one at
least, and each is good. -/
def Serves (Good : Row ρ → Prop) (st : RowStream ρ ε) (c : Chunk ι ρ) (rows : List (Row ρ)) : Prop :=
  cut st c rows ≠ [] ∧
    (cut st c rows).map Row.rowIndex = indices (max c.startIndex st.start) (min c.endIndex st.stop) ∧
    ∀ row ∈ cut st c rows, Good row

/-- The state `s'` after the first listener of the chunk `c` was told. -/
structure Told (T : Terms ι ρ ε) (s : State ι ρ ε) (i : ι) (c : Nat) (l : List ι)
    (s' : State ι ρ ε) : Prop where
  inv : s'.Inv T (some c)
  listeners : (s'.chunks.chunk c).listeners = l
  others : ∀ k, k ≠ i → s'.streams k = s.streams k
  startIndex : (s'.chunks.chunk c).startIndex = (s.chunks.chunk c).startIndex
  endIndex : (s'.chunks.chunk c).endIndex = (s.chunks.chunk c).endIndex

section

variable {c : Nat} {l : List ι}

/-- What the first listener awaits. -/
theorem Inv.first (h : s.Inv T (some c)) (hl : (s.chunks.chunk c).listeners = i :: l) :
    (∃ done todo, s.Follows T i (.awaiting c) done todo) ∧
      ((s.chunks.chunk c).removeListener i).listeners = l ∧
      (s.chunks.chunk c).listeners.erase i = l ∧
      ∀ j, j ≠ c → (s.chunks.chunk j).listeners.erase i = (s.chunks.chunk j).listeners := by
  have hlistens : s.Listens i c := by
    unfold Listens
    rw [hl]
    exact List.mem_cons_self
  refine ⟨h.awaits i c hlistens, removeListener_cons hl (h.nodup c), ?_, fun j hj => ?_⟩
  · rw [hl, List.erase_cons_head]
  · exact List.erase_of_not_mem fun hmem => hj ((h.listens_iff hlistens).mp hmem)

/-- The first listener is told that the chunk is loaded. -/
theorem Inv.tell_ok {rows : List (Row ρ)} {d : Chunk ι ρ} (h : s.Inv T (some c))
    (hl : (s.chunks.chunk c).listeners = i :: l)
    (hrows : (s.chunks.chunk c).getRows T.cfg.parse = .ok (d, some rows))
    (hserves : Serves T.Good (s.streams i) (s.chunks.chunk c) rows) :
    ∃ s', s.onLoadComplete T.cfg i c none = (s', none) ∧ Told T s i c l s' ∧
      ∃ d, (s'.chunks.chunk c).getRows T.cfg.parse = .ok (d, some rows) := by
  obtain ⟨⟨done, todo, hf⟩, hremoved, herase, hother⟩ := h.first hl
  obtain ⟨hne, hindices, hgood⟩ := hserves
  obtain ⟨hsame, hcached⟩ := Chunk.getRows_spec hrows
  obtain ⟨chunks, heq, hself, hcleared⟩ := onLoadComplete_ok hf.subscribed hrows
  have hself' : (d.removeListener i).listeners = l := by
    rw [← hremoved]
    show (d.listeners.reverse.erase i).reverse = _
    rw [hsame.listeners]
    rfl
  have hload : ∀ j, j ≠ c → (s.chunks.chunk j).SameLoad (chunks.chunk j) := by
    intro j hj
    rcases hcleared j hj with h' | ⟨-, h'⟩
    · rw [h']
      exact .refl _
    · rw [h']
      exact Chunk.sameLoad_clearRows _ false
  have hloading : ∀ j, (chunks.chunk j).isLoading = (s.chunks.chunk j).isLoading := by
    intro j
    by_cases hjc : j = c
    · subst hjc
      rw [hself]
      exact hsame.isLoading
    · exact (hload j hjc).isLoading
  have hrows' : c < T.blocks.length → (cut (s.streams i) (s.chunks.chunk c) rows).map Row.rowIndex =
      (part T.blocks (s.streams i).start (s.streams i).stop c).map Row.rowIndex := by
    intro hc
    have hshaped := T.stable.shaped c _ (h.cached c) hc
    rw [hindices, map_rowIndex_part hc, hshaped.startIndex, hshaped.endIndex]
  obtain ⟨row, rest, todo', hfollows⟩ := hf.receive hne hrows' hgood
  let f : RowStream ρ ε → RowStream ρ ε := fun st => received st c (cut st (s.chunks.chunk c) rows)
  let s₁ : State ι ρ ε := { s.update i f with chunks := chunks }
  have hstreams : ∀ k, k ≠ i → s₁.streams k = s.streams k := fun k hk => update_of_ne hk f
  have hstream : s₁.streams i = f (s.streams i) := update_self f
  have hinv : s₁.Inv T (some c) := by
    refine h.of_stream hstreams (fun j => ?_) (fun j => ?_) hloading ?_
      ⟨.pushing row rest, done, todo', ?_, fun hp => (by cases hp)⟩ (fun _ => ?_) h.thrown
    · show T.Cached j (chunks.chunk j)
      by_cases hjc : j = c
      · subst hjc
        rw [hself]
        exact T.stable.removeListener j _ i (T.stable.getRows j _ _ _ (h.cached j) hrows)
      · rcases hcleared j hjc with h' | ⟨hprevious, h'⟩
        · rw [h']
          exact h.cached j
        · rw [h']
          exact Terms.cached_clearRows (h.cached j) fun halone => (h.passed halone i j hprevious).1
    · show (chunks.chunk j).listeners = _
      by_cases hjc : j = c
      · subst hjc
        rw [hself, hself', herase]
      · rw [hother j hjc]
        exact (hload j hjc).listeners
    · obtain ⟨hstart, hend, -, -⟩ := received_keeps (s.streams i) c
        (cut (s.streams i) (s.chunks.chunk c) rows)
      rw [hstream]
      exact ⟨hstart, hend⟩
    · rw [hstream]
      exact hfollows.of_listens fun c' hc' => (by cases hc')
    · intro j hj
      obtain ⟨rs, hopen, hget, -⟩ := hf.position
      obtain ⟨-, -, hresultStream, hprevious⟩ := received_keeps (s.streams i) c
        (cut (s.streams i) (s.chunks.chunk c) rows)
      rw [hstream] at hj ⊢
      rw [hprevious] at hj
      cases hj
      refine ⟨(hloading c).trans (h.told_done c rfl), fun rs' hrs' => ?_⟩
      rw [hresultStream, hopen.resultStream] at hrs'
      cases hrs'
      exact hopen.reads.not_mem_drop hget
  refine ⟨s₁, heq, ⟨hinv, ?_, hstreams, ?_, ?_⟩, d.removeListener i, ?_⟩
  · show (chunks.chunk c).listeners = l
    rw [hself, hself']
  · show (chunks.chunk c).startIndex = _
    rw [hself]
    exact hsame.startIndex
  · show (chunks.chunk c).endIndex = _
    rw [hself]
    exact hsame.endIndex
  · show (chunks.chunk c).getRows T.cfg.parse = _
    rw [hself]
    have hcached' : (d.removeListener i).rows = some rows := hcached
    simp [Chunk.getRows, hcached']

/-- The first listener is told that the load has failed. -/
theorem Inv.tell_error {e : Err} (h : s.Inv T (some c))
    (hl : (s.chunks.chunk c).listeners = i :: l)
    (hretries : ¬ T.mayFail → Retries T.cfg (s.streams i) (some e)) :
    ∃ s', s.onLoadComplete T.cfg i c (some e) = (s', none) ∧ Told T s i c l s' := by
  obtain ⟨⟨done, todo, hf⟩, hremoved, herase, hother⟩ := h.first hl
  let s₀ : State ι ρ ε := { s with chunks := s.chunks.update c (·.removeListener i) }
  have hcached : ∀ j, T.Cached j ((s.chunks.update c (·.removeListener i)).chunk j) :=
    Chunks.update_of (P := T.Cached) h.cached (T.stable.removeListener c _ i (h.cached c))
  have hchunk : ∀ j, (s₀.chunks.chunk j).listeners = (s.chunks.chunk j).listeners.erase i ∧
      (s₀.chunks.chunk j).isLoading = (s.chunks.chunk j).isLoading ∧
      (s₀.chunks.chunk j).startIndex = (s.chunks.chunk j).startIndex ∧
      (s₀.chunks.chunk j).endIndex = (s.chunks.chunk j).endIndex := by
    intro j
    show ((s.chunks.update c (·.removeListener i)).chunk j).listeners = _ ∧ _
    by_cases hjc : j = c
    · subst hjc
      rw [Chunks.update_chunk_self, hremoved, herase]
      exact ⟨rfl, rfl, rfl, rfl⟩
    · rw [Chunks.update_chunk, if_neg hjc, hother j hjc]
      exact ⟨rfl, rfl, rfl, rfl⟩
  rw [onLoadComplete_error hf.subscribed]
  unfold onResultStreamClose
  simp only
  split
  · let f : RowStream ρ ε → RowStream ρ ε := fun st => { st with
      numResultStreamInterrupts := st.numResultStreamInterrupts + 1, refreshing := st.refreshing + 1 }
    have hstreams : ∀ k, k ≠ i → (s₀.update i f).streams k = s.streams k := fun k hk => update_of_ne hk f
    have hstream : (s₀.update i f).streams i = f (s.streams i) := update_self f
    have hinv : (s₀.update i f).Inv T (some c) := by
      refine h.of_stream hstreams hcached (fun j => (hchunk j).1) (fun j => (hchunk j).2.1) ?_
        ⟨.refreshing, done, todo, ?_, fun hp => (by cases hp)⟩ (fun halone => ?_) h.thrown
      · rw [hstream]
        exact ⟨rfl, rfl⟩
      · rw [hstream]
        exact hf.interrupt.of_listens fun c' hc' => (by cases hc')
      · exact (h.passed halone i).of_eq (by rw [hstream]) (by rw [hstream])
          fun j => (hchunk j).2.1
    exact ⟨_, rfl, hinv, (hchunk c).1.trans herase, hstreams, (hchunk c).2.2.1, (hchunk c).2.2.2⟩
  · next hretry =>
      have hfail : T.mayFail := by
        by_contra hno
        exact hretry (hretries hno)
      obtain ⟨chunks, heq, hsame, hcleared⟩ := close_eq s₀ i (some e)
      let s₁ : State ι ρ ε := { s₀.update i (closed · (some e)) with chunks := chunks }
      have hstreams : ∀ k, k ≠ i → s₁.streams k = s.streams k :=
        fun k hk => update_of_ne hk (closed · (some e))
      have hstream : s₁.streams i = closed (s.streams i) (some e) := update_self (closed · (some e))
      have hinv : s₁.Inv T (some c) := by
        refine h.of_stream hstreams (fun j => ?_) (fun j => (hsame j).listeners.trans (hchunk j).1)
          (fun j => (hsame j).isLoading.trans (hchunk j).2.1) ?_
          ⟨.failed, done, todo, ?_, fun _ => hfail⟩ (fun _ => ?_) h.thrown
        · show T.Cached j (chunks.chunk j)
          rcases hcleared j with h' | ⟨hprevious, h'⟩
          · rw [h']
            exact hcached j
          · rw [h']
            exact Terms.cached_clearRows (hcached j) fun halone =>
              (hchunk j).2.1.trans (h.passed halone i j hprevious).1
        · rw [hstream]
          exact closed_options _ _
        · rw [hstream]
          exact (hf.fail e).of_listens fun c' hc' => (by cases hc')
        · intro j hj
          rw [hstream] at hj
          exact (by cases hj)
      exact ⟨_, by rw [heq], hinv, (hsame c).listeners.trans ((hchunk c).1.trans herase), hstreams,
        (hsame c).startIndex.trans (hchunk c).2.2.1, (hsame c).endIndex.trans (hchunk c).2.2.2⟩

/-- Nobody is left to be told. -/
theorem Inv.told_all (h : s.Inv T (some c)) (hl : (s.chunks.chunk c).listeners = []) :
    s.Inv T none := by
  refine { h with loading := fun j _ hne => ?_, told_done := fun j hj => (by cases hj) }
  refine h.loading j (fun hj => ?_) hne
  cases hj
  exact hne hl

/-- Every listener is told that the chunk is loaded, and none throws. -/
theorem Inv.emit_ok {rows : List (Row ρ)} {d : Chunk ι ρ} (h : s.Inv T (some c))
    (hl : (s.chunks.chunk c).listeners = l)
    (hrows : (s.chunks.chunk c).getRows T.cfg.parse = .ok (d, some rows))
    (hserves : ∀ i ∈ l, Serves T.Good (s.streams i) (s.chunks.chunk c) rows) :
    (s.emit T.cfg c none l).Inv T none := by
  induction l generalizing s d with
  | nil => exact h.told_all hl
  | cons i l ih =>
      obtain ⟨s', heq, htold, d', hrows'⟩ := h.tell_ok hl hrows (hserves i List.mem_cons_self)
      have hnodup := h.nodup c
      rw [hl] at hnodup
      rw [emit, heq]
      refine ih htold.inv htold.listeners hrows' fun k hk => ?_
      have hki : k ≠ i := by
        rintro rfl
        exact (List.nodup_cons.mp hnodup).1 hk
      have hserves' := hserves k (List.mem_cons_of_mem _ hk)
      unfold Serves cut at hserves' ⊢
      rw [htold.others k hki, htold.startIndex, htold.endIndex]
      exact hserves'

/-- Every listener is told that the load has failed, and none throws. -/
theorem Inv.emit_error {e : Err} (h : s.Inv T (some c)) (hl : (s.chunks.chunk c).listeners = l)
    (hretries : ¬ T.mayFail → ∀ i ∈ l, Retries T.cfg (s.streams i) (some e)) :
    (s.emit T.cfg c (some e) l).Inv T none := by
  induction l generalizing s with
  | nil => exact h.told_all hl
  | cons i l ih =>
      obtain ⟨s', heq, htold⟩ := h.tell_error hl fun hno => hretries hno i List.mem_cons_self
      have hnodup := h.nodup c
      rw [hl] at hnodup
      rw [emit, heq]
      refine ih htold.inv htold.listeners fun hno k hk => ?_
      have hki : k ≠ i := by
        rintro rfl
        exact (List.nodup_cons.mp hnodup).1 hk
      rw [htold.others k hki]
      exact hretries hno k (List.mem_cons_of_mem _ hk)

/-- A load ends: `f` is what that makes of the chunk. -/
theorem Inv.loadDone {f : Chunk ι ρ → Chunk ι ρ} (h : s.Inv T none)
    (hlisteners : (f (s.chunks.chunk c)).listeners = (s.chunks.chunk c).listeners)
    (hcached : T.Cached c (f (s.chunks.chunk c)).doneLoading) :
    ({ s with chunks := s.chunks.update c fun c => (f c).doneLoading } : State ι ρ ε).Inv T
      (some c) := by
  have hkept : ∀ j, ((s.chunks.update c fun c => (f c).doneLoading).chunk j).listeners =
      (s.chunks.chunk j).listeners := by
    intro j
    rw [Chunks.update_chunk]
    split
    · next hjc =>
        subst hjc
        exact hlisteners
    · rfl
  have hlistens : ∀ k j, State.Listens ({ s with
      chunks := s.chunks.update c fun c => (f c).doneLoading } : State ι ρ ε) k j ↔ s.Listens k j := by
    intro k j
    unfold Listens
    rw [hkept]
  have hcached' : ∀ j, T.Cached j ((s.chunks.update c fun c => (f c).doneLoading).chunk j) :=
    Chunks.update_of (P := T.Cached) h.cached hcached
  refine ⟨hcached', fun j => ?_, h.options, fun k => ?_,
    fun k j hl => ?_, fun j hj hne => ?_, fun j hj => ?_, fun halone k j hj => ?_, h.thrown⟩
  · rw [hkept]
    exact h.nodup j
  · obtain ⟨p, done, todo, hf, hp⟩ := h.follows k
    refine ⟨p, done, todo, hf.of_listens fun c' hc' => ?_, hp⟩
    subst hc'
    obtain ⟨rs, -, -, hl⟩ := hf.position
    exact (hlistens k c').mpr hl
  · obtain ⟨done, todo, hf⟩ := h.awaits k j ((hlistens k j).mp hl)
    refine ⟨done, todo, hf.of_listens fun c' hc' => ?_⟩
    cases hc'
    exact hl
  · have hjc : j ≠ c := by
      rintro rfl
      exact hj rfl
    rw [hkept] at hne
    show ((s.chunks.update c fun c => (f c).doneLoading).chunk j).isLoading = true
    rw [Chunks.update_chunk, if_neg hjc]
    exact h.loading j (fun hj => (by cases hj)) hne
  · cases hj
    show ((s.chunks.update c fun c => (f c).doneLoading).chunk c).isLoading = false
    rw [Chunks.update_chunk_self]
    rfl
  · obtain ⟨hloading, hnot⟩ := h.passed halone k j hj
    refine ⟨?_, hnot⟩
    show ((s.chunks.update c fun c => (f c).doneLoading).chunk j).isLoading = false
    rw [Chunks.update_chunk]
    split
    · rfl
    · exact hloading

end

/-! ## reading on -/

/-- A stream that has been repairing an interruption, or is about to read the next
chunk, goes on to the chunk at the cursor, or closes. -/
theorem Inv.doLoad (h : s.Inv T none) (hf : s.Follows T i .refreshing done todo) :
    ((s.update i fun st => { st with refreshing := 0 }).doLoad i).Inv T none := by
  obtain ⟨rs, hopen⟩ := hf.position
  have hnot := h.not_listens hf fun c hc => (by cases hc)
  have hticks : (s.streams i).ticks = [] := hf.ticks
  have hstream : ((s.update i fun st => { st with refreshing := 0 }).streams i).resultStream = some rs := by
    rw [update_self]
    exact hopen.resultStream
  unfold State.doLoad
  simp only [hstream]
  cases hc : rs.chunks[rs.currChunk]? with
  | none =>
      have hnil : todo = [] := by
        rw [hopen.todo_eq, List.drop_eq_nil_of_le (List.getElem?_eq_none_iff.mp hc)]
        rfl
      have hnone : rs.doLoad i (s.update i fun st => { st with refreshing := 0 }).chunks = none := by
        simp [ResultStream.doLoad, hc]
      simp only [hnone, update_update]
      refine h.update hnot ⟨rfl, rfl⟩ ⟨.closing, done, todo, ?_, fun hp => (by cases hp)⟩ fun halone => ?_
      · exact { hf with
          ticks := by simp only [hticks]; rfl
          refreshing := rfl
          failed := by simpa using hf.failed
          position := ⟨⟨rs, { hopen with }⟩, hnil⟩ }
      · exact (h.passed halone i).of_eq (by rw [update_self]) (by rw [update_self]) fun j => rfl
  | some c =>
      obtain ⟨cs, hload⟩ := ResultStream.exists_doLoad i s.chunks hc
      have hload' : rs.doLoad i (s.update i fun st => { st with refreshing := 0 }).chunks = some cs :=
        hload
      simp only [hload']
      let s₁ : State ι ρ ε := { s.update i fun st => { st with refreshing := 0 } with chunks := cs }
      have hothers : ∀ k, k ≠ i → s₁.streams k = s.streams k :=
        fun k hk => update_of_ne hk fun st => { st with refreshing := 0 }
      have hself : s₁.streams i = { s.streams i with refreshing := 0 } :=
        update_self fun st => { st with refreshing := 0 }
      have hlisteners := ResultStream.doLoad_listeners hc hload
      have hlistens : ∀ k j, s₁.Listens k j ↔ s.Listens k j ∨ (j = c ∧ k = i) := by
        intro k j
        show k ∈ (cs.chunk j).listeners ↔ _
        rw [hlisteners]
        by_cases hj : j = c
        · simp [hj, Listens]
        · simp [hj, Listens]
      have hawaits : s₁.Follows T i (.awaiting c) done todo := by
        unfold Follows
        rw [hself]
        exact { hf with
          refreshing := rfl
          failed := by simpa using hf.failed
          position := ⟨rs, { hopen with }, hc, (hlistens i c).mpr (.inr ⟨rfl, rfl⟩)⟩ }
      refine ⟨?_, fun j => ?_, fun k => ?_, fun k => ?_, fun k j hl => ?_, fun j _ hne => ?_,
        (fun j hj => (by cases hj)), fun halone k j hj => ?_, h.thrown⟩
      · exact ResultStream.doLoad_of (P := T.Cached) h.cached (fun j c hcached =>
          T.stable.on j c i hcached) (fun j c hcached => T.stable.loadUnlessLoading j c hcached) hload
      · show (cs.chunk j).listeners.Nodup
        rw [hlisteners]
        split
        · next hj =>
            subst hj
            exact (List.nodup_append_comm).mp (List.nodup_cons.mpr ⟨hnot j, h.nodup j⟩)
        · exact h.nodup j
      · by_cases hk : k = i
        · subst hk
          rw [hself]
          exact h.options k
        · rw [hothers k hk]
          exact h.options k
      · by_cases hk : k = i
        · subst hk
          exact ⟨.awaiting c, done, todo, hawaits, fun hp => (by cases hp)⟩
        · obtain ⟨p, done', todo', hf', hp⟩ := h.follows k
          unfold Follows
          rw [hothers k hk]
          refine ⟨p, done', todo', hf'.of_listens fun c' hc' => ?_, hp⟩
          subst hc'
          obtain ⟨rs', -, -, hl⟩ := hf'.position
          exact (hlistens k c').mpr (.inl hl)
      · rcases (hlistens k j).mp hl with hl' | ⟨rfl, rfl⟩
        · have hk : k ≠ i := by
            rintro rfl
            exact hnot j hl'
          obtain ⟨done', todo', hf'⟩ := h.awaits k j hl'
          unfold Follows
          rw [hothers k hk]
          refine ⟨done', todo', hf'.of_listens fun c' hc' => ?_⟩
          cases hc'
          exact hl
        · exact ⟨done, todo, hawaits⟩
      · show (cs.chunk j).isLoading = true
        by_cases hj : j = c
        · subst hj
          exact ResultStream.doLoad_isLoading hc hload
        · have hne' : (cs.chunk j).listeners ≠ [] := hne
          rw [hlisteners, if_neg hj] at hne'
          exact ResultStream.doLoad_of (P := fun k c => k = j → c.isLoading = true)
            (fun k hk => hk ▸ h.loading j (fun hj => (by cases hj)) hne') (fun _ _ h' => h')
            (fun _ c _ _ => Chunk.loadUnlessLoading_isLoading c) hload j rfl
      · obtain rfl := T.alone halone k i
        obtain ⟨hloading, hpast⟩ := h.passed halone k j (by rw [hself] at hj; exact hj)
        have hnotmem := hpast rs hopen.resultStream
        refine ⟨?_, fun rs' hrs' => ?_⟩
        · show (cs.chunk j).isLoading = false
          rw [ResultStream.doLoad_chunk_of_not_mem hload hnotmem]
          exact hloading
        · rw [hself] at hrs'
          exact hpast rs' hrs'

end

end State

end RowStream

end SnowflakeConnector
