import SnowflakeConnector.Lts
import SnowflakeConnector.ResultStream

/-!
# SnowflakeConnector.ResultStream.Order

One result stream and its consumer: whatever the prefetch size and the order in
which the loads end, the chunks are emitted in ascending order, each once.

The consumer may call `read` once at the start and once for each 'data' event, and
the continue callback once for each 'close' event with an error, whenever it
likes.  At any time exactly one of these is true: it may read, it may continue,
the stream listens to the chunk at the cursor, a close is scheduled, the stream
is closed.
-/

namespace SnowflakeConnector

namespace ResultStream

variable {ρ : Type*}

/-- The events of a result stream. -/
inductive Emission
  | data (chunk : Nat)
  | close (err : Option Err)
  deriving DecidableEq, Repr

/-- The chunk that a data event carries. -/
def Emission.chunk? : Emission → Option Nat
  | .data chunk => some chunk
  | .close _ => none

/-- A result stream with its chunks, the closes scheduled with `asyncClose`, the
calls of `read` and of the continue callback that the consumer may still make,
and the events emitted so far. -/
structure Consumed (ρ : Type*) where
  stream : ResultStream
  chunks : Chunks Unit ρ
  closing : Nat
  reads : Nat
  continues : Nat
  emitted : List Emission

inductive Event
  | read
  | continued
  | completed (chunk : Nat)
  | answered (chunk : Nat) (answer : Chunk.Answer)
  | closed

namespace Consumed

/-- A stream over the chunks `0, …, n - 1` of which nothing has been read. -/
def start (n prefetchSize : Nat) (chunk : Nat → Chunk Unit ρ) : Consumed ρ :=
  { stream := ⟨List.range n, prefetchSize, 0⟩, chunks := ⟨chunk, []⟩, closing := 0, reads := 1,
    continues := 0, emitted := [] }

/-- `doLoad`, which `read` and the continue callback call. -/
def load (w : Consumed ρ) : Consumed ρ :=
  match w.stream.doLoad () w.chunks with
  | none => { w with closing := w.closing + 1 }
  | some chunks => { w with chunks := chunks }

/-- `onLoadComplete` on a chunk. -/
def onLoadComplete (i : Nat) (err : Option Err) (w : Consumed ρ) : Consumed ρ :=
  let w := { w with chunks := w.chunks.update i (·.removeListener ()) }
  match err with
  | none =>
      { w with
        stream := { w.stream with currChunk := w.stream.currChunk + 1 }
        emitted := w.emitted ++ [.data i]
        reads := w.reads + 1 }
  | some e =>
      { w with emitted := w.emitted ++ [.close (some e)], continues := w.continues + 1 }

/-- `completeLoad`: the chunk is done loading, and its listeners at that time are
told. -/
def completeLoad (w : Consumed ρ) (i : Nat) (err : Option Err) : Consumed ρ :=
  let listeners := (w.chunks.chunk i).listeners
  listeners.foldl (fun w _ => w.onLoadComplete i err)
    { w with chunks := w.chunks.update i Chunk.doneLoading }

def step (w : Consumed ρ) : Event → Option (Consumed ρ)
  | .read => if 0 < w.reads then some { w with reads := w.reads - 1 }.load else none
  | .continued => if 0 < w.continues then some { w with continues := w.continues - 1 }.load else none
  | .completed i =>
      if 0 < (w.chunks.chunk i).scheduled then
        some ({ w with chunks := w.chunks.update i Chunk.untick }.completeLoad i none)
      else none
  | .answered i answer =>
      if 0 < (w.chunks.chunk i).requested then
        some ({ w with chunks := w.chunks.update i (Chunk.store answer) }.completeLoad i answer.err)
      else none
  | .closed =>
      if 0 < w.closing then
        some { w with closing := w.closing - 1, emitted := w.emitted ++ [.close none] }
      else none

/-- The stream has subscribed to the chunk at its cursor. -/
def Awaits (w : Consumed ρ) (i : Nat) : Prop :=
  i = w.stream.currChunk ∧ (w.chunks.chunk i).listeners ≠ []

instance (w : Consumed ρ) (i : Nat) : Decidable (Awaits w i) :=
  inferInstanceAs (Decidable (_ ∧ _))

/-- The state of a stream over `n` chunks of which `k` continuations are left: one
between the events, none while the stream is in the hands of `doLoad`. -/
structure InOrder (n prefetchSize k : Nat) (w : Consumed ρ) : Prop where
  list : w.stream.chunks = List.range n
  prefetch : w.stream.prefetchSize = prefetchSize
  cursor : w.stream.currChunk ≤ n
  data : w.emitted.filterMap Emission.chunk? = List.range w.stream.currChunk
  balanced : ∀ i, (w.chunks.chunk i).Balanced
  elsewhere : ∀ i, i ≠ w.stream.currChunk → (w.chunks.chunk i).listeners = []
  awaited : (w.chunks.chunk w.stream.currChunk).listeners ≠ [] →
    w.stream.currChunk < n ∧ (w.chunks.chunk w.stream.currChunk).isLoading = true
  phase : w.reads + w.continues + w.closing + (w.chunks.chunk w.stream.currChunk).listeners.length +
    w.emitted.count (.close none) = k
  finished : 0 < w.closing + w.emitted.count (.close none) → w.stream.currChunk = n
  last : 0 < w.emitted.count (.close none) → w.emitted.getLast? = some (.close none)
  stopped : 0 < w.continues → w.stream.currChunk < n ∧
    ∃ e, w.emitted.getLast? = some (.close (some e))
  calls : ∀ call ∈ w.chunks.calls, call.wasLoading = false ∧ call.cursor ≤ call.chunk ∧
    call.chunk ≤ call.cursor + prefetchSize

variable {n prefetchSize : Nat} {w w' : Consumed ρ}

theorem inOrder_start (n prefetchSize : Nat) {chunk : Nat → Chunk Unit ρ}
    (hbalanced : ∀ i, (chunk i).Balanced) (hlisteners : ∀ i, (chunk i).listeners = []) :
    InOrder n prefetchSize 1 (start n prefetchSize chunk) where
  list := rfl
  prefetch := rfl
  cursor := Nat.zero_le n
  data := rfl
  balanced := hbalanced
  elsewhere i _ := hlisteners i
  awaited h := absurd (hlisteners 0) h
  phase := by simp [start, hlisteners]
  finished h := by simp [start] at h
  last h := by simp [start] at h
  stopped h := by simp [start] at h
  calls _ h := by cases h

/-- The chunk at the cursor of a stream over `n` chunks. -/
theorem InOrder.getElem? {k : Nat} (h : InOrder n prefetchSize k w) :
    w.stream.chunks[w.stream.currChunk]? =
      if w.stream.currChunk < n then some w.stream.currChunk else none := by
  rw [h.list]
  split
  · rename_i hlt
    rw [List.getElem?_range hlt]
  · rename_i hlt
    exact List.getElem?_eq_none (by simpa using hlt)

/-- The window of a stream over `n` chunks. -/
theorem InOrder.mem_window {k : Nat} (h : InOrder n prefetchSize k w) {i : Nat}
    (hi : i ∈ w.stream.window) :
    w.stream.currChunk ≤ i ∧ i ≤ w.stream.currChunk + prefetchSize := by
  rw [window, h.list, h.prefetch] at hi
  obtain ⟨j, hj, rfl⟩ := List.getElem_of_mem hi
  simp only [List.length_take, List.length_drop, List.length_range] at hj
  simp only [List.getElem_take, List.getElem_drop, List.getElem_range]
  omega

/-- `doLoad` uses up the continuation it was called with: it waits for the chunk at
the cursor, or, past the last chunk, for the close it schedules. -/
theorem InOrder.load (h : InOrder n prefetchSize 0 w) : InOrder n prefetchSize 1 w.load := by
  have hphase := h.phase
  have hget := h.getElem?
  unfold Consumed.load
  by_cases hlt : w.stream.currChunk < n
  · rw [if_pos hlt] at hget
    obtain ⟨chunks, hload⟩ : ∃ chunks, w.stream.doLoad () w.chunks = some chunks := by
      simp [doLoad, hget]
    have hchunk := doLoad_chunk hget hload
    have hmem : w.stream.currChunk ∈ w.stream.window := ResultStream.mem_window hget
    have hnil : (w.chunks.chunk w.stream.currChunk).listeners = [] :=
      List.eq_nil_of_length_eq_zero (by omega)
    have hself : (chunks.chunk w.stream.currChunk).listeners = [()] ∧
        (chunks.chunk w.stream.currChunk).isLoading = true := by
      rw [hchunk]
      simp [hmem, Chunk.on, hnil]
    have hother : ∀ i, i ≠ w.stream.currChunk →
        (chunks.chunk i).listeners = (w.chunks.chunk i).listeners := by
      intro i hi
      rw [hchunk]
      by_cases hw : i ∈ w.stream.window <;> simp [hi, hw]
    simp only [hload]
    constructor
    · exact h.list
    · exact h.prefetch
    · exact h.cursor
    · exact h.data
    · intro i
      rw [hchunk]
      have hon : (if i = w.stream.currChunk then (w.chunks.chunk i).on () else w.chunks.chunk i).Balanced := by
        split
        · exact h.balanced i
        · exact h.balanced i
      by_cases hw : i ∈ w.stream.window
      · simpa [hw] using hon.loadUnlessLoading
      · simpa [hw] using hon
    · intro i hi
      rw [hother i hi]
      exact h.elsewhere i hi
    · exact fun _ => ⟨hlt, hself.2⟩
    · simp only [hself.1, List.length_singleton]
      omega
    · intro hpos
      simp only at hpos
      omega
    · intro hpos
      simp only at hpos
      omega
    · intro hpos
      simp only at hpos
      omega
    · intro call hcall
      simp only [doLoad, hget, Option.some.injEq] at hload
      subst hload
      obtain ⟨new, hnew, hall⟩ := Chunks.foldl_loadUnlessLoading_calls w.stream.currChunk
        w.stream.window (w.chunks.update w.stream.currChunk (·.on ()))
      simp only [hnew, Chunks.update_calls, List.mem_append] at hcall
      rcases hcall with hcall | hcall
      · exact h.calls call hcall
      · obtain ⟨hin, hloading, hcursor⟩ := hall call hcall
        rw [hcursor]
        exact ⟨hloading, h.mem_window hin⟩
  · rw [if_neg hlt] at hget
    have hnone : w.stream.doLoad () w.chunks = none := by simp [doLoad, hget]
    have hcursor := h.cursor
    simp only [hnone]
    constructor
    · exact h.list
    · exact h.prefetch
    · exact h.cursor
    · exact h.data
    · exact h.balanced
    · exact h.elsewhere
    · exact h.awaited
    · simp only
      omega
    · intro _
      show w.stream.currChunk = n
      omega
    · intro hpos
      simp only at hpos
      omega
    · intro hpos
      simp only at hpos
      omega
    · exact h.calls

/-- What ends a load, before anybody is told. -/
def settle (f : Chunk Unit ρ → Chunk Unit ρ) (w : Consumed ρ) (i : Nat) : Consumed ρ :=
  { w with chunks := (w.chunks.update i f).update i Chunk.doneLoading }

theorem settle_chunk (f : Chunk Unit ρ → Chunk Unit ρ) (w : Consumed ρ) (i j : Nat) :
    (settle f w i).chunks.chunk j =
      if j = i then (f (w.chunks.chunk j)).doneLoading else w.chunks.chunk j := by
  simp only [settle, Chunks.update_chunk]
  by_cases h : j = i <;> simp [h]

/-- Whoever waits for the chunk at the cursor is told, and nobody else is. -/
theorem InOrder.listeners (h : InOrder n prefetchSize 1 w) (i : Nat) :
    (w.chunks.chunk i).listeners = if Awaits w i then [()] else [] := by
  have hphase := h.phase
  by_cases hi : i = w.stream.currChunk
  · subst hi
    cases hl : (w.chunks.chunk w.stream.currChunk).listeners with
    | nil => simp [Awaits, hl]
    | cons u us =>
        rw [hl, List.length_cons] at hphase
        have hus : us = [] := List.eq_nil_of_length_eq_zero (by omega)
        simp [Awaits, hl, hus]
  · simp [Awaits, hi, h.elsewhere i hi]

theorem completeLoad_eq (h : InOrder n prefetchSize 1 w) {i : Nat}
    {f : Chunk Unit ρ → Chunk Unit ρ} (hf : Chunk.Ends f (w.chunks.chunk i)) (err : Option Err) :
    { w with chunks := w.chunks.update i f }.completeLoad i err =
      if Awaits w i then (settle f w i).onLoadComplete i err else settle f w i := by
  simp only [completeLoad, Chunks.update_chunk_self, hf.1, h.listeners i]
  split <;> rfl

/-- A chunk that nobody waits for ends its load in silence. -/
theorem InOrder.settle (h : InOrder n prefetchSize 1 w) {i : Nat}
    {f : Chunk Unit ρ → Chunk Unit ρ} (hf : Chunk.Ends f (w.chunks.chunk i)) (hi : ¬ Awaits w i) :
    InOrder n prefetchSize 1 (settle f w i) := by
  have hlisteners : ∀ j, ((Consumed.settle f w i).chunks.chunk j).listeners =
      (w.chunks.chunk j).listeners := by
    intro j
    rw [settle_chunk]
    split
    · rename_i hji
      subst hji
      exact hf.1
    · rfl
  constructor
  · exact h.list
  · exact h.prefetch
  · exact h.cursor
  · exact h.data
  · intro j
    rw [settle_chunk]
    split
    · rename_i hji
      subst hji
      exact hf.2
    · exact h.balanced j
  · intro j hj
    rw [hlisteners]
    exact h.elsewhere j hj
  · intro hne
    have hcur : (w.chunks.chunk w.stream.currChunk).listeners ≠ [] := by
      rw [← hlisteners]
      exact hne
    obtain ⟨hlt, hloading⟩ := h.awaited hcur
    refine ⟨hlt, ?_⟩
    have hne : w.stream.currChunk ≠ i := fun heq => hi ⟨heq.symm, heq ▸ hcur⟩
    show ((Consumed.settle f w i).chunks.chunk w.stream.currChunk).isLoading = true
    rw [settle_chunk, if_neg hne]
    exact hloading
  · show _ + _ + _ + ((Consumed.settle f w i).chunks.chunk w.stream.currChunk).listeners.length + _ = 1
    rw [hlisteners]
    exact h.phase
  · exact h.finished
  · exact h.last
  · exact h.stopped
  · exact h.calls

/-- Emitting anything else does not count as closing. -/
theorem count_close_snoc (emitted : List Emission) {e : Emission} (he : e ≠ .close none) :
    (emitted ++ [e]).count (.close none) = emitted.count (.close none) := by
  have hzero : [e].count (.close none) = 0 :=
    List.count_eq_zero_of_not_mem fun hmem => he (List.mem_singleton.mp hmem).symm
  rw [List.count_append, hzero, Nat.add_zero]

/-- The chunk that the stream waits for ends its load: its data or its failure is
emitted, and the consumer may go on. -/
theorem InOrder.onLoadComplete (h : InOrder n prefetchSize 1 w) {i : Nat}
    {f : Chunk Unit ρ → Chunk Unit ρ} (hf : Chunk.Ends f (w.chunks.chunk i)) (hi : Awaits w i)
    (err : Option Err) : InOrder n prefetchSize 1 ((Consumed.settle f w i).onLoadComplete i err) := by
  obtain ⟨rfl, hne⟩ := hi
  obtain ⟨hlt, -⟩ := h.awaited hne
  have hphase := h.phase
  have hpos : 0 < (w.chunks.chunk w.stream.currChunk).listeners.length := List.length_pos_iff.mpr hne
  have hone : (w.chunks.chunk w.stream.currChunk).listeners = [()] := by
    have := h.listeners w.stream.currChunk
    rwa [if_pos ⟨rfl, hne⟩] at this
  have hchunk : ∀ j, (((Consumed.settle f w w.stream.currChunk).chunks.update w.stream.currChunk
      (·.removeListener ())).chunk j) = if j = w.stream.currChunk
        then ((f (w.chunks.chunk j)).doneLoading).removeListener () else w.chunks.chunk j := by
    intro j
    rw [Chunks.update_chunk, settle_chunk]
    split <;> rfl
  have hbalanced : ∀ j, (((Consumed.settle f w w.stream.currChunk).chunks.update
      w.stream.currChunk (·.removeListener ())).chunk j).Balanced := by
    intro j
    rw [hchunk]
    split
    · rename_i hj
      subst hj
      exact hf.2
    · exact h.balanced j
  have hnil : ∀ j, (((Consumed.settle f w w.stream.currChunk).chunks.update w.stream.currChunk
      (·.removeListener ())).chunk j).listeners = [] := by
    intro j
    rw [hchunk]
    split
    · rename_i hj
      subst hj
      have hlisteners : ((f (w.chunks.chunk w.stream.currChunk)).doneLoading).listeners = [()] :=
        hf.1.trans hone
      simp [Chunk.removeListener, hlisteners]
    · rename_i hj
      exact h.elsewhere j hj
  cases err with
  | none =>
      constructor
      · exact h.list
      · exact h.prefetch
      · exact hlt
      · show (w.emitted ++ [_]).filterMap Emission.chunk? = List.range (w.stream.currChunk + 1)
        rw [List.filterMap_append, h.data, List.range_succ]
        rfl
      · exact hbalanced
      · exact fun j _ => hnil j
      · exact fun hne' => absurd (hnil _) hne'
      · have hlen := hnil (w.stream.currChunk + 1)
        simp only [Consumed.onLoadComplete, Consumed.settle] at hlen ⊢
        rw [hlen, count_close_snoc _ (by simp)]
        simp only [List.length_nil]
        omega
      · intro hp
        simp only [Consumed.onLoadComplete, Consumed.settle] at hp
        rw [count_close_snoc _ (by simp)] at hp
        omega
      · intro hp
        simp only [Consumed.onLoadComplete, Consumed.settle] at hp
        rw [count_close_snoc _ (by simp)] at hp
        omega
      · intro hp
        simp only [Consumed.onLoadComplete, Consumed.settle] at hp
        omega
      · exact h.calls
  | some e =>
      constructor
      · exact h.list
      · exact h.prefetch
      · exact h.cursor
      · show (w.emitted ++ [_]).filterMap Emission.chunk? = List.range w.stream.currChunk
        rw [List.filterMap_append, h.data]
        simp [Emission.chunk?]
      · exact hbalanced
      · exact fun j _ => hnil j
      · exact fun hne' => absurd (hnil _) hne'
      · have hlen := hnil w.stream.currChunk
        simp only [Consumed.onLoadComplete, Consumed.settle] at hlen ⊢
        rw [hlen, count_close_snoc _ (by simp)]
        simp only [List.length_nil]
        omega
      · intro hp
        simp only [Consumed.onLoadComplete, Consumed.settle] at hp
        rw [count_close_snoc _ (by simp)] at hp
        omega
      · intro hp
        simp only [Consumed.onLoadComplete, Consumed.settle] at hp
        rw [count_close_snoc _ (by simp)] at hp
        omega
      · exact fun _ => ⟨hlt, e, by simp [Consumed.onLoadComplete, Consumed.settle]⟩
      · exact h.calls

/-- What one step keeps. -/
theorem InOrder.step {e : Event} (h : InOrder n prefetchSize 1 w) (hst : step w e = some w') :
    InOrder n prefetchSize 1 w' := by
  have hphase := h.phase
  have hend : ∀ {i : Nat} {f : Chunk Unit ρ → Chunk Unit ρ} (_ : Chunk.Ends f (w.chunks.chunk i))
      (err : Option Err), InOrder n prefetchSize 1
        ({ w with chunks := w.chunks.update i f }.completeLoad i err) := by
    intro i f hf err
    rw [completeLoad_eq h hf]
    split
    · rename_i hi
      exact h.onLoadComplete hf hi err
    · rename_i hi
      exact h.settle hf hi
  cases e with
  | read =>
      simp only [Consumed.step, Option.ite_none_right_eq_some, Option.some.injEq] at hst
      obtain ⟨hpos, rfl⟩ := hst
      refine InOrder.load ⟨h.list, h.prefetch, h.cursor, h.data, h.balanced, h.elsewhere, h.awaited,
        ?_, h.finished, h.last, h.stopped, h.calls⟩
      simp only
      omega
  | continued =>
      simp only [Consumed.step, Option.ite_none_right_eq_some, Option.some.injEq] at hst
      obtain ⟨hpos, rfl⟩ := hst
      refine InOrder.load ⟨h.list, h.prefetch, h.cursor, h.data, h.balanced, h.elsewhere, h.awaited,
        ?_, h.finished, h.last, ?_, h.calls⟩
      · simp only
        omega
      · intro hp
        simp only at hp
        omega
  | completed i =>
      simp only [Consumed.step, Option.ite_none_right_eq_some, Option.some.injEq] at hst
      obtain ⟨hpos, rfl⟩ := hst
      exact hend (Chunk.ends_untick (h.balanced i) hpos) none
  | answered i answer =>
      simp only [Consumed.step, Option.ite_none_right_eq_some, Option.some.injEq] at hst
      obtain ⟨hpos, rfl⟩ := hst
      exact hend (Chunk.ends_store (h.balanced i) hpos answer) _
  | closed =>
      simp only [Consumed.step, Option.ite_none_right_eq_some, Option.some.injEq] at hst
      obtain ⟨hpos, rfl⟩ := hst
      have hfin := h.finished (by omega)
      refine ⟨h.list, h.prefetch, h.cursor, ?_, h.balanced, h.elsewhere, h.awaited, ?_,
        fun _ => hfin, fun _ => by simp, ?_, h.calls⟩
      · show (w.emitted ++ [_]).filterMap Emission.chunk? = List.range w.stream.currChunk
        rw [List.filterMap_append, h.data]
        simp [Emission.chunk?]
      · simp only [List.count_append, List.count_singleton_self]
        omega
      · intro hp
        simp only at hp
        omega

/-- A failure that the stream waits for is emitted and can be continued from; one
that it does not wait for goes unreported.  To continue is to wait for the same
chunk again, which is loading. -/
def Reports (w : Consumed ρ) (e : Event) : Prop :=
  ∀ w' ∈ step w e,
    (∀ i err, e = .answered i (.error err) → Awaits w i →
      w'.emitted = w.emitted ++ [.close (some err)] ∧ w'.stream = w.stream ∧ 0 < w'.continues) ∧
    (∀ i err, e = .answered i (.error err) → ¬ Awaits w i →
      w'.emitted = w.emitted ∧ w'.stream = w.stream) ∧
    (e = .continued → w'.emitted = w.emitted ∧ w'.stream = w.stream ∧
      Awaits w' w.stream.currChunk ∧ (w'.chunks.chunk w.stream.currChunk).isLoading = true)

theorem InOrder.reports (h : InOrder n prefetchSize 1 w) (e : Event) : Reports w e := by
  intro w' hst
  refine ⟨?_, ?_, ?_⟩
  · rintro i err rfl hi
    simp only [Consumed.step, Option.mem_def, Option.ite_none_right_eq_some, Option.some.injEq] at hst
    obtain ⟨hpos, rfl⟩ := hst
    rw [completeLoad_eq h (Chunk.ends_store (h.balanced i) hpos _), if_pos hi]
    exact ⟨rfl, rfl, Nat.succ_pos _⟩
  · rintro i err rfl hi
    simp only [Consumed.step, Option.mem_def, Option.ite_none_right_eq_some, Option.some.injEq] at hst
    obtain ⟨hpos, rfl⟩ := hst
    rw [completeLoad_eq h (Chunk.ends_store (h.balanced i) hpos _), if_neg hi]
    exact ⟨rfl, rfl⟩
  · rintro rfl
    have hinv := h.step hst
    simp only [Consumed.step, Option.mem_def, Option.ite_none_right_eq_some, Option.some.injEq] at hst
    obtain ⟨hpos, rfl⟩ := hst
    obtain ⟨hlt, -⟩ := h.stopped hpos
    have hget := h.getElem?
    rw [if_pos hlt] at hget
    obtain ⟨chunks, hload⟩ : ∃ chunks, w.stream.doLoad () w.chunks = some chunks := by
      simp [doLoad, hget]
    have heq : { w with continues := w.continues - 1 }.load =
        { w with continues := w.continues - 1, chunks := chunks } := by
      simp [Consumed.load, hload]
    have hlisteners : (chunks.chunk w.stream.currChunk).listeners ≠ [] := by
      rw [doLoad_chunk hget hload]
      simp [ResultStream.mem_window hget, Chunk.on]
    rw [heq] at hinv ⊢
    exact ⟨rfl, rfl, ⟨rfl, hlisteners⟩, (hinv.awaited hlisteners).2⟩

/-- No load is still to end, no close is scheduled, and the consumer has read. -/
def AtRest (w : Consumed ρ) : Prop :=
  (∀ i, (w.chunks.chunk i).scheduled = 0 ∧ (w.chunks.chunk i).requested = 0) ∧ w.closing = 0 ∧
    w.reads = 0

/-- A stream at rest has been closed after its last chunk, or has reported a failure
and was not continued. -/
theorem InOrder.atRest (h : InOrder n prefetchSize 1 w) (hrest : AtRest w) :
    (w.stream.currChunk = n ∧ w.emitted.count (.close none) = 1) ∨
      (∃ e, w.emitted.getLast? = some (.close (some e)) ∧ 0 < w.continues) := by
  obtain ⟨hloads, hclosing, hreads⟩ := hrest
  have hphase := h.phase
  have hnil : (w.chunks.chunk w.stream.currChunk).listeners = [] := by
    by_contra hne
    obtain ⟨-, hloading⟩ := h.awaited hne
    have hb := h.balanced w.stream.currChunk
    rw [Chunk.Balanced, hloading, (hloads _).1, (hloads _).2] at hb
    simp at hb
  rw [hnil, List.length_nil] at hphase
  by_cases hc : 0 < w.continues
  · obtain ⟨-, e, he⟩ := h.stopped hc
    exact .inr ⟨e, he, hc⟩
  · exact .inl ⟨h.finished (by omega), by omega⟩

/-- **Order**: whatever the chunks, the prefetch size and the order in which loads
end, the data events are the chunks in ascending order, each once; a close
without error comes once, last, after all of them; a failure of the chunk that
the stream waits for closes with that error, and continuing waits for that chunk
again, while a failure nobody waits for goes unreported; no chunk is asked to
load while it is loading or from outside the prefetch window. -/
theorem emits_in_order (n prefetchSize : Nat) {chunk : Nat → Chunk Unit ρ} {es : List Event}
    (hbalanced : ∀ i, (chunk i).Balanced) (hlisteners : ∀ i, (chunk i).listeners = [])
    (hrun : Lts.exec step (start n prefetchSize chunk) es = some w) :
    w.emitted.filterMap Emission.chunk? = List.range w.stream.currChunk ∧
      w.stream.currChunk ≤ n ∧
      w.emitted.count (.close none) ≤ 1 ∧
      (.close none ∈ w.emitted → w.stream.currChunk = n ∧ w.emitted.getLast? = some (.close none)) ∧
      Lts.Along step Reports (start n prefetchSize chunk) es ∧
      (∀ call ∈ w.chunks.calls, call.wasLoading = false ∧
        call.chunk ≤ call.cursor + prefetchSize) ∧
      (AtRest w → (w.stream.currChunk = n ∧ w.emitted.count (.close none) = 1) ∨
        ∃ e, w.emitted.getLast? = some (.close (some e)) ∧ 0 < w.continues) := by
  have hstart : InOrder n prefetchSize 1 (start n prefetchSize chunk) :=
    inOrder_start n prefetchSize hbalanced hlisteners
  have hinv : InOrder n prefetchSize 1 w :=
    Lts.exec_invariant (fun w e w' h hst => h.step hst) hstart hrun
  have hphase := hinv.phase
  refine ⟨hinv.data, hinv.cursor, by omega, fun hmem => ?_, ?_, fun call hcall => ?_, hinv.atRest⟩
  · have hpos : 0 < w.emitted.count (.close none) := List.count_pos_iff.mpr hmem
    exact ⟨hinv.finished (by omega), hinv.last hpos⟩
  · exact Lts.along_of_invariant (P := fun _ _ => True) (fun w e w' h _ _ => h.reports e)
      (fun w e w' h _ hst => h.step hst) hstart (Lts.along_true _ _) hrun
  · exact ⟨(hinv.calls call hcall).1, (hinv.calls call hcall).2.2⟩

/-- One remote row a chunk. -/
def sampleChunk (i : Nat) : Chunk Unit Nat where
  startIndex := i
  endIndex := i
  url := some "url"
  rowsetAsString := none
  rowset := none
  rows := none
  isLoading := false
  listeners := []
  scheduled := 0
  requested := 0

def sampleErr : Err := Errors.createNetworkError 402001 (.str "ECONNRESET")

/-- Two chunks; the second one fails while the stream waits for it, and is continued
from. -/
theorem emits_in_order_continued :
    ∃ w, Lts.exec step (start 2 1 sampleChunk)
        [.read, .answered 0 (.ok (some "0")), .read, .answered 1 (.error sampleErr), .continued,
          .answered 1 (.ok (some "1")), .read, .closed] = some w ∧
      w.emitted = [.data 0, .close (some sampleErr), .data 1, .close none] ∧
      w.emitted.filterMap Emission.chunk? = List.range w.stream.currChunk := by
  obtain ⟨w, hrun, hemitted⟩ :
      ∃ w, Lts.exec step (start 2 1 sampleChunk)
          [.read, .answered 0 (.ok (some "0")), .read, .answered 1 (.error sampleErr), .continued,
            .answered 1 (.ok (some "1")), .read, .closed] = some w ∧
        w.emitted = [.data 0, .close (some sampleErr), .data 1, .close none] :=
    Lts.exists_exec (by decide +kernel)
  have hbalanced : ∀ i, (sampleChunk i).Balanced := fun _ => rfl
  have hlisteners : ∀ i, (sampleChunk i).listeners = [] := fun _ => rfl
  exact ⟨w, hrun, hemitted, (emits_in_order 2 1 hbalanced hlisteners hrun).1⟩

/-- The prefetched second chunk is at the cursor once the first one is emitted; when
it fails before the consumer reads on, no close is emitted. -/
theorem prefetch_failure_unreported :
    (∃ w, Lts.exec step (start 2 1 sampleChunk) [.read, .answered 0 (.ok (some "0"))] = some w ∧
      w.stream.currChunk = 1 ∧ w.emitted = [.data 0]) ∧
    ∃ w, Lts.exec step (start 2 1 sampleChunk)
        [.read, .answered 0 (.ok (some "0")), .answered 1 (.error sampleErr)] = some w ∧
      w.stream.currChunk = 1 ∧ w.emitted = [.data 0] :=
  ⟨Lts.exists_exec (by decide +kernel), Lts.exists_exec (by decide +kernel)⟩

end Consumed

end ResultStream

end SnowflakeConnector
