import SnowflakeConnector.ResultStream.Sound
import SnowflakeConnector.RowStream

/-!
# SnowflakeConnector.RowStream.Follow

What each row stream has pushed and what it is about to push, in every interleaving
of the streams of a statement.

The position of a stream is spread over its row buffer, the row captured by a
scheduled push and the cursor of its result stream.  `Follows` puts them together:
the indices of the rows pushed, of the rows buffered and of the rows of the chunks
from the cursor on are, one after the other, the indices of the window.  What a
stream does leaves the others alone, so the invariant is one statement for each
stream, and the chunks tie them together through their listeners only.
-/

namespace SnowflakeConnector

open Slice Result

variable {ι ρ ε : Type*}

namespace RowStream

/-- What a stream is doing. -/
inductive Phase (ρ : Type*)
  | fresh
  | initializing
  | awaiting (chunk : Nat)
  | refreshing
  | closing
  | closingEmpty
  | pushing (row : Row ρ) (rest : List (Row ρ))
  | ready (rest : List (Row ρ))
  | ended
  | failed

namespace Phase

def initialized : Phase ρ → Bool
  | .fresh | .initializing => false
  | _ => true

def reading : Phase ρ → Bool
  | .fresh | .ready _ | .ended => false
  | _ => true

def subscribed : Phase ρ → Bool
  | .awaiting _ | .refreshing | .closing => true
  | _ => false

def ticks : Phase ρ → List (Tick ρ)
  | .initializing => [.init]
  | .closing => [.resultStreamClose]
  | .closingEmpty => [.close]
  | .pushing row _ => [.pushRow (some row)]
  | _ => []

def refreshes : Phase ρ → Nat
  | .refreshing => 1
  | _ => 0

/-- The rows taken out of the chunks and not yet pushed. -/
def buffered : Phase ρ → List (Row ρ)
  | .pushing row rest => row :: rest
  | .ready rest => rest
  | _ => []

def marker : Phase ρ → List (Option ε)
  | .ended => [none]
  | _ => []

/-- How the row buffer and the row index hold the rows that are buffered. -/
def Buffer (st : RowStream ρ ε) : Phase ρ → Prop
  | .pushing row rest =>
      match st.rowBuffer with
      | none => rest = []
      | some rowBuffer => rest ≠ [] ∧ 0 < st.rowIndex ∧
          rowBuffer.drop (st.rowIndex - 1) = some row :: rest.map some
  | .ready rest =>
      match st.rowBuffer with
      | none => rest = []
      | some rowBuffer => rest ≠ [] ∧ rowBuffer.drop st.rowIndex = rest.map some
  | _ => st.rowBuffer = none

end Phase

/-- The result stream is open on the chunks of the window, and the rows `todo` are
those of the chunks from its cursor on. -/
structure Open (blocks : List (List ρ)) (cfg : Config ρ ε) (st : RowStream ρ ε) (rs : ResultStream)
    (todo : List Int) : Prop where
  resultStream : st.resultStream = some rs
  start : st.start = windowStart st.startOption
  stop : st.stop = windowEnd st.endOption cfg.returnedRows
  reads : Reads blocks st.start st.stop rs.chunks
  todo_eq : todo = (rs.chunks.drop rs.currChunk).flatMap fun c =>
    (part blocks st.start st.stop c).map Row.rowIndex

/-- Where the rows to come are; `listens` says to which chunks the stream listens. -/
def Position (blocks : List (List ρ)) (cfg : Config ρ ε) (st : RowStream ρ ε) (listens : Nat → Prop)
    (todo : List Int) : Phase ρ → Prop
  | .fresh | .initializing =>
      st.resultStream = none ∧ st.previousChunk = none ∧ st.pushed = []
  | .awaiting c => ∃ rs, Open blocks cfg st rs todo ∧ rs.chunks[rs.currChunk]? = some c ∧ listens c
  | .closing => (∃ rs, Open blocks cfg st rs todo) ∧ todo = []
  | .closingEmpty => st.previousChunk = none ∧ todo = []
  | .refreshing | .pushing _ _ | .ready _ => ∃ rs, Open blocks cfg st rs todo
  | .ended => todo = []
  | .failed => True

/-- The stream is in the phase `p`: it has pushed the rows `done`, and the indices
`todo` are still to come after the rows that are buffered.  `Good` holds of every
row taken out of a chunk. -/
structure Follows (blocks : List (List ρ)) (cfg : Config ρ ε) (Good : Row ρ → Prop)
    (st : RowStream ρ ε) (listens : Nat → Prop) (p : Phase ρ) (done : List (Row ρ))
    (todo : List Int) : Prop where
  initialized : st.initialized = p.initialized
  reading : st.reading = p.reading
  subscribed : st.subscribed = p.subscribed
  ticks : st.ticks = p.ticks
  refreshing : st.refreshing = p.refreshes
  buffer : p.Buffer st
  pushed : st.pushed = done.map cfg.externalizeRow ++ p.marker
  failed : st.errors = [] ↔ p ≠ .failed
  indices_eq : done.map Row.rowIndex ++ p.buffered.map Row.rowIndex ++ todo =
    indices (windowStart st.startOption) (windowEnd st.endOption cfg.returnedRows)
  good : ∀ row ∈ done ++ p.buffered, Good row
  position : Position blocks cfg st listens todo p

/-! ## the row buffer -/

/-- The next row is taken out of the row buffer. -/
theorem processRowBuffer_eq (st : RowStream ρ ε) {rowBuffer : List (Option (Row ρ))} {row : Row ρ}
    {rest : List (Row ρ)} (hbuffer : st.rowBuffer = some rowBuffer)
    (hdrop : rowBuffer.drop st.rowIndex = some row :: rest.map some) :
    ∃ rowBuffer' rowIndex', st.processRowBuffer = { st with
        ticks := st.ticks ++ [.pushRow (some row)], rowBuffer := rowBuffer', rowIndex := rowIndex' } ∧
      (Phase.pushing row rest).Buffer { st with rowBuffer := rowBuffer', rowIndex := rowIndex' } := by
  have hlen : rowBuffer.length - st.rowIndex = rest.length + 1 := by
    have h := congrArg List.length hdrop
    simpa using h
  have hget : (rowBuffer[st.rowIndex]?).join = some row := by
    have h := congrArg (fun xs => xs[0]?) hdrop
    simp only [List.getElem?_drop, Nat.add_zero, List.getElem?_cons_zero] at h
    rw [h]
    rfl
  unfold processRowBuffer
  simp only [hbuffer, hget]
  split
  · next hlast =>
      have hrest : rest = [] := List.length_eq_zero_iff.mp (by omega)
      exact ⟨none, 0, rfl, hrest⟩
  · next hlast =>
      have hrest : rest ≠ [] := by
        rintro rfl
        simp only [List.length_nil] at hlen
        omega
      exact ⟨some rowBuffer, st.rowIndex + 1, rfl, hrest, Nat.succ_pos _, hdrop⟩

/-- The loop pushes rows that can be externalized, one at least if there is one. -/
theorem pushLoop_eq {externalizeRow : Row ρ → Option ε} {rows : List (Row ρ)}
    (hext : ∀ row ∈ rows, (externalizeRow row).isSome) (answers : List Bool) :
    ∃ n, n ≤ rows.length ∧ (rows ≠ [] → 0 < n) ∧
      pushLoop externalizeRow (rows.map some) answers = ((rows.take n).map externalizeRow, n, false) := by
  induction rows generalizing answers with
  | nil => exact ⟨0, le_refl 0, fun h => absurd rfl h, rfl⟩
  | cons row rows ih =>
      obtain ⟨x, hx⟩ := Option.isSome_iff_exists.mp (hext row List.mem_cons_self)
      obtain ⟨n, hle, -, hloop⟩ :=
        ih (fun row hrow => hext row (List.mem_cons_of_mem _ hrow)) answers.tail
      simp only [List.map_cons, pushLoop, Option.bind_some, hx]
      by_cases ha : answers.headD true = true
      · refine ⟨n + 1, Nat.succ_le_succ hle, fun _ => Nat.succ_pos n, ?_⟩
        rw [if_pos ha, hloop, List.take_succ_cons, List.map_cons, hx]
      · refine ⟨1, Nat.succ_le_succ (Nat.zero_le _), fun _ => Nat.one_pos, ?_⟩
        rw [if_neg ha, List.take_succ_cons, List.map_cons, hx]
        rfl

/-- The scheduled push takes the captured row, and as many of the buffered rows after
it as the stream accepts. -/
theorem pushRow_eq {cfg : Config ρ ε} {st : RowStream ρ ε} {row : Row ρ} {rest : List (Row ρ)}
    (hbuffer : (Phase.pushing row rest).Buffer st)
    (hext : ∀ r ∈ row :: rest, (cfg.externalizeRow r).isSome) (answers : List Bool) :
    ∃ n rowBuffer' rowIndex', 0 < n ∧
      st.pushRow cfg (some row) answers = ({ st with
        rowBuffer := rowBuffer', rowIndex := rowIndex', reading := false
        pushed := st.pushed ++ ((row :: rest).take n).map cfg.externalizeRow }, none) ∧
      (Phase.ready ((row :: rest).drop n)).Buffer
        { st with rowBuffer := rowBuffer', rowIndex := rowIndex' } := by
  cases hst : st.rowBuffer with
  | none =>
      simp only [Phase.Buffer, hst] at hbuffer
      obtain ⟨x, hx⟩ := Option.isSome_iff_exists.mp (hext row List.mem_cons_self)
      subst hbuffer
      refine ⟨1, none, st.rowIndex, Nat.one_pos, ?_, rfl⟩
      simp [pushRow, hst, hx, push]
  | some rowBuffer =>
      simp only [Phase.Buffer, hst] at hbuffer
      obtain ⟨hrest, hpos, hdrop⟩ := hbuffer
      obtain ⟨n, hle, hn, hloop⟩ := pushLoop_eq hext answers
      have hn : 0 < n := hn (by simp)
      have hdrop' : rowBuffer.drop (st.rowIndex - 1) = (row :: rest).map some := hdrop
      have hlen : rowBuffer.length - (st.rowIndex - 1) = (row :: rest).length := by
        have h := congrArg List.length hdrop'
        simpa using h
      have hlong : st.rowIndex - 1 ≤ rowBuffer.length := by
        have hcons : 0 < (row :: rest).length := Nat.succ_pos _
        omega
      have hnonempty : (((row :: rest).take n).map cfg.externalizeRow).isEmpty = false := by
        obtain ⟨m, rfl⟩ := Nat.exists_eq_add_of_lt hn
        simp
      have hafter : (rowBuffer.take (st.rowIndex - 1) ++ List.replicate n none ++
          rowBuffer.drop (st.rowIndex - 1 + n)).drop (st.rowIndex - 1 + n) =
            ((row :: rest).drop n).map some := by
        have hfront : (rowBuffer.take (st.rowIndex - 1) ++ List.replicate n (none : Option (Row ρ))).length =
            st.rowIndex - 1 + n := by
          rw [List.length_append, List.length_take, List.length_replicate, Nat.min_eq_left hlong]
        rw [← hfront, List.drop_left, hfront, ← List.drop_drop, hdrop', List.map_drop]
      unfold pushRow
      simp only [hst, if_neg (Nat.pos_iff_ne_zero.mp hpos), hdrop', hloop, hnonempty, Bool.and_false,
        Bool.false_eq_true, if_false]
      split
      · next hlast =>
          have hnil : (row :: rest).drop n = [] := List.drop_eq_nil_of_le (by omega)
          exact ⟨n, none, 0, hn, rfl, hnil⟩
      · next hlast =>
          have hne : (row :: rest).drop n ≠ [] := by
            rw [ne_eq, List.drop_eq_nil_iff]
            omega
          exact ⟨n, _, _, hn, rfl, hne, hafter⟩

/-! ## transitions of one stream -/

section

variable {blocks : List (List ρ)} {cfg : Config ρ ε} {Good : Row ρ → Prop} {st : RowStream ρ ε}
  {listens : Nat → Prop} {done : List (Row ρ)} {todo : List Int}

/-- `closed st err` is the stream as `close` leaves it. -/
def closed (st : RowStream ρ ε) (err : Option Err) : RowStream ρ ε :=
  let st := { st with
    subscribed := false
    rowBuffer := none
    rowIndex := 0
    resultStream := none
    numResultStreamInterrupts := 0
    previousChunk := none }
  match err with
  | some e => { st with errors := st.errors ++ [e] }
  | none => st.push none

/-- The window's rows of a chunk. -/
def cut (st : RowStream ρ ε) (c : Chunk ι ρ) (rows : List (Row ρ)) : List (Row ρ) :=
  slice rows (max c.startIndex st.start - c.startIndex) (min c.endIndex st.stop + 1 - c.startIndex)

/-- The stream as `onLoadComplete` leaves it when the chunk is loaded, with the rows cut
out of the chunk. -/
def received (st : RowStream ρ ε) (c : Nat) (rows : List (Row ρ)) : RowStream ρ ε :=
  processRowBuffer { st with
    resultStream := st.resultStream.map fun rs => { rs with currChunk := rs.currChunk + 1 }
    subscribed := false, previousChunk := some c, rowBuffer := some (rows.map some), rowIndex := 0 }

/-- A stream that listens to nothing does not care who else does. -/
theorem Follows.of_listens {listens' : Nat → Prop} {p : Phase ρ}
    (h : Follows blocks cfg Good st listens p done todo) (hl : ∀ c, p = .awaiting c → listens' c) :
    Follows blocks cfg Good st listens' p done todo := by
  have hposition : Position blocks cfg st listens' todo p := by
    have hbefore := h.position
    cases p with
    | awaiting c =>
        obtain ⟨rs, hopen, hc, -⟩ := hbefore
        exact ⟨rs, hopen, hc, hl c rfl⟩
    | _ => exact hbefore
  exact { h with position := hposition }

/-- The first call of `_read`. -/
theorem Follows.initialize (h : Follows blocks cfg Good st listens .fresh done todo) :
    Follows blocks cfg Good { st with reading := true, ticks := st.ticks ++ [.init] } listens
      .initializing done todo :=
  { h with
    reading := rfl
    ticks := by rw [h.ticks]; rfl
    failed := by simpa using h.failed }

/-- A call of `_read` with rows in the row buffer. -/
theorem Follows.processRowBuffer {row : Row ρ} {rest : List (Row ρ)}
    (h : Follows blocks cfg Good st listens (.ready (row :: rest)) done todo) :
    Follows blocks cfg Good ({ st with reading := true } : RowStream ρ ε).processRowBuffer listens
      (.pushing row rest) done todo := by
  obtain ⟨rowBuffer, hst, hdrop⟩ : ∃ rowBuffer, st.rowBuffer = some rowBuffer ∧
      rowBuffer.drop st.rowIndex = some row :: rest.map some := by
    have hbuffer := h.buffer
    cases hst : st.rowBuffer with
    | none => simp [Phase.Buffer, hst] at hbuffer
    | some rowBuffer =>
        simp only [Phase.Buffer, hst] at hbuffer
        exact ⟨rowBuffer, rfl, hbuffer.2⟩
  obtain ⟨rowBuffer', rowIndex', heq, hbuffer⟩ :=
    processRowBuffer_eq { st with reading := true } hst hdrop
  obtain ⟨rs, hopen⟩ := h.position
  rw [heq]
  exact { h with
    reading := rfl
    ticks := by simp only [h.ticks]; rfl
    buffer := hbuffer
    failed := by simpa using h.failed
    position := ⟨rs, { hopen with }⟩ }

/-- The scheduled push runs. -/
theorem Follows.push {row : Row ρ} {rest : List (Row ρ)}
    (hgood : ∀ row, Good row → (cfg.externalizeRow row).isSome)
    (h : Follows blocks cfg Good st listens (.pushing row rest) done todo) (answers : List Bool) :
    (({ st with ticks := [] } : RowStream ρ ε).pushRow cfg (some row) answers).2 = none ∧
    ∃ n, Follows blocks cfg Good
      (({ st with ticks := [] } : RowStream ρ ε).pushRow cfg (some row) answers).1 listens
      (.ready ((row :: rest).drop n)) (done ++ (row :: rest).take n) todo := by
  have hext : ∀ r ∈ row :: rest, (cfg.externalizeRow r).isSome :=
    fun r hr => hgood r (h.good r (List.mem_append_right _ hr))
  have hbuffer : (Phase.pushing row rest).Buffer ({ st with ticks := [] } : RowStream ρ ε) := h.buffer
  obtain ⟨n, rowBuffer', rowIndex', hn, heq, hbuffer'⟩ := pushRow_eq hbuffer hext answers
  obtain ⟨rs, hopen⟩ := h.position
  have hsplit : (row :: rest).take n ++ (row :: rest).drop n = row :: rest := List.take_append_drop n _
  have hindices : (done ++ (row :: rest).take n).map Row.rowIndex ++
      ((row :: rest).drop n).map Row.rowIndex ++ todo =
        indices (windowStart st.startOption) (windowEnd st.endOption cfg.returnedRows) := by
    rw [List.map_append, List.append_assoc (done.map _), ← List.map_append, hsplit]
    exact h.indices_eq
  have hpushed : st.pushed ++ ((row :: rest).take n).map cfg.externalizeRow =
      (done ++ (row :: rest).take n).map cfg.externalizeRow ++ [] := by
    have hbefore := h.pushed
    simp only [Phase.marker, List.append_nil] at hbefore
    rw [List.append_nil, List.map_append, hbefore]
  have hall : ∀ r ∈ done ++ (row :: rest).take n ++ (row :: rest).drop n, Good r := by
    rw [List.append_assoc, hsplit]
    exact h.good
  rw [heq]
  exact ⟨rfl, n, { h with
    reading := rfl
    ticks := rfl
    buffer := hbuffer'
    pushed := hpushed
    failed := by simpa using h.failed
    indices_eq := hindices
    good := hall
    position := ⟨rs, { hopen with }⟩ }⟩

/-- The awaited chunk is there: the rows cut out of it are those at the cursor. -/
theorem Follows.receive {c : Nat} {rows : List (Row ρ)}
    (h : Follows blocks cfg Good st listens (.awaiting c) done todo) (hne : rows ≠ [])
    (hrows : c < blocks.length →
      rows.map Row.rowIndex = (part blocks st.start st.stop c).map Row.rowIndex)
    (hgood : ∀ row ∈ rows, Good row) :
    ∃ row rest todo', Follows blocks cfg Good (received st c rows) listens (.pushing row rest) done
      todo' := by
  obtain ⟨rs, hopen, hc, -⟩ := h.position
  obtain ⟨row, rest, rfl⟩ := List.exists_cons_of_ne_nil hne
  obtain ⟨hlt, hget⟩ := List.getElem?_eq_some_iff.mp hc
  have hinside := hopen.reads.inside c (List.mem_of_getElem? hc)
  have hindices := hrows hinside
  obtain ⟨rowBuffer', rowIndex', heq, hbuffer⟩ := processRowBuffer_eq ({ st with
    resultStream := st.resultStream.map fun rs => { rs with currChunk := rs.currChunk + 1 }
    subscribed := false, previousChunk := some c, rowBuffer := some ((row :: rest).map some)
    rowIndex := 0 } : RowStream ρ ε) rfl rfl
  have htodo : todo = (row :: rest).map Row.rowIndex ++
      (rs.chunks.drop (rs.currChunk + 1)).flatMap fun c =>
        (part blocks st.start st.stop c).map Row.rowIndex := by
    rw [hopen.todo_eq, List.drop_eq_getElem_cons hlt, hget, List.flatMap_cons, hindices]
  have hall : ∀ r ∈ done ++ (row :: rest), Good r := by
    intro r hr
    rcases List.mem_append.mp hr with hr | hr
    · exact h.good r (List.mem_append_left _ hr)
    · exact hgood r hr
  have heqs := h.indices_eq
  rw [htodo] at heqs
  rw [received, heq]
  refine ⟨row, rest, _, { h with
    subscribed := rfl
    ticks := by simp only [h.ticks]; rfl
    buffer := hbuffer
    failed := by simpa using h.failed
    indices_eq := by simpa [Phase.buffered] using heqs
    good := hall
    position := ⟨{ rs with currChunk := rs.currChunk + 1 }, { hopen with
      resultStream := by simp [hopen.resultStream]
      todo_eq := rfl }⟩ }⟩

/-- The row buffer is on its own. -/
theorem processRowBuffer_keeps (st : RowStream ρ ε) :
    st.processRowBuffer.startOption = st.startOption ∧ st.processRowBuffer.endOption = st.endOption ∧
      st.processRowBuffer.resultStream = st.resultStream ∧
      st.processRowBuffer.previousChunk = st.previousChunk := by
  unfold RowStream.processRowBuffer
  split
  · exact ⟨rfl, rfl, rfl, rfl⟩
  · simp only
    split <;> exact ⟨rfl, rfl, rfl, rfl⟩

theorem pushRow_keeps (cfg : Config ρ ε) (st : RowStream ρ ε) (row : Option (Row ρ))
    (answers : List Bool) : (st.pushRow cfg row answers).1.startOption = st.startOption ∧
      (st.pushRow cfg row answers).1.endOption = st.endOption ∧
      (st.pushRow cfg row answers).1.resultStream = st.resultStream ∧
      (st.pushRow cfg row answers).1.previousChunk = st.previousChunk := by
  unfold pushRow
  simp only
  split
  · split <;> exact ⟨rfl, rfl, rfl, rfl⟩
  · split
    · split <;> exact ⟨rfl, rfl, rfl, rfl⟩
    · split
      · exact ⟨rfl, rfl, rfl, rfl⟩
      · split <;> exact ⟨rfl, rfl, rfl, rfl⟩

theorem received_keeps (st : RowStream ρ ε) (c : Nat) (rows : List (Row ρ)) :
    (received st c rows).startOption = st.startOption ∧
      (received st c rows).endOption = st.endOption ∧
      (received st c rows).resultStream =
        st.resultStream.map (fun rs => { rs with currChunk := rs.currChunk + 1 }) ∧
      (received st c rows).previousChunk = some c :=
  processRowBuffer_keeps _

theorem closed_options (st : RowStream ρ ε) (err : Option Err) :
    (closed st err).startOption = st.startOption ∧ (closed st err).endOption = st.endOption := by
  cases err <;> exact ⟨rfl, rfl⟩

/-- An interruption that the stream tries to repair. -/
theorem Follows.interrupt {c : Nat}
    (h : Follows blocks cfg Good st listens (.awaiting c) done todo) :
    Follows blocks cfg Good { st with
      numResultStreamInterrupts := st.numResultStreamInterrupts + 1
      refreshing := st.refreshing + 1 } listens .refreshing done todo := by
  obtain ⟨rs, hopen, -, -⟩ := h.position
  exact { h with
    refreshing := congrArg Nat.succ h.refreshing
    failed := by simpa using h.failed
    position := ⟨rs, { hopen with }⟩ }

/-- A stream that gives up. -/
theorem Follows.fail {c : Nat} (h : Follows blocks cfg Good st listens (.awaiting c) done todo)
    (e : Err) : Follows blocks cfg Good (closed st (some e)) listens .failed done todo :=
  { h with
    subscribed := rfl
    buffer := rfl
    failed := by simp [closed]
    position := trivial }

/-- A stream that gives up because its interruption cannot be repaired. -/
theorem Follows.abandon (h : Follows blocks cfg Good st listens .refreshing done todo) (e : Err) :
    Follows blocks cfg Good (closed { st with refreshing := 0 } (some e)) listens .failed done todo :=
  { h with
    subscribed := rfl
    refreshing := rfl
    buffer := rfl
    failed := by simp [closed]
    position := trivial }

/-- The marker of the end follows the rows. -/
theorem Follows.pushed_closed {p : Phase ρ} (h : Follows blocks cfg Good st listens p done todo)
    (hmarker : p.marker (ε := ε) = []) :
    (closed st none).pushed = done.map cfg.externalizeRow ++ (Phase.ended : Phase ρ).marker := by
  have hbefore := h.pushed
  rw [hmarker, List.append_nil] at hbefore
  simp [closed, RowStream.push, hbefore, Phase.marker]

/-- A stream that has come to its end. -/
theorem Follows.finish (h : Follows blocks cfg Good st listens .closing done todo) :
    Follows blocks cfg Good ({ closed st none with ticks := [] } : RowStream ρ ε) listens .ended done
      todo :=
  { h with
    reading := rfl
    subscribed := rfl
    ticks := rfl
    buffer := rfl
    pushed := h.pushed_closed rfl
    failed := by simpa [closed, RowStream.push] using h.failed
    position := h.position.2 }

/-- A stream without rows to read ends at once. -/
theorem Follows.finishEmpty (h : Follows blocks cfg Good st listens .closingEmpty done todo) :
    Follows blocks cfg Good ({ closed st none with ticks := [] } : RowStream ρ ε) listens .ended done
      todo :=
  { h with
    reading := rfl
    subscribed := rfl
    ticks := rfl
    buffer := rfl
    pushed := h.pushed_closed rfl
    failed := by simpa [closed, RowStream.push] using h.failed
    position := h.position.2 }

end

namespace State

variable [DecidableEq ι]

/-- The chunks that a stream listens to. -/
def Listens (s : State ι ρ ε) (i : ι) (c : Nat) : Prop := i ∈ (s.chunks.chunk c).listeners

/-! ## what the functions do -/

section

variable {cfg : Config ρ ε} {s : State ι ρ ε} {i : ι}

@[simp] theorem update_self (f : RowStream ρ ε → RowStream ρ ε) :
    (s.update i f).streams i = f (s.streams i) := by simp [update]

theorem update_of_ne {k : ι} (hk : k ≠ i) (f : RowStream ρ ε → RowStream ρ ε) :
    (s.update i f).streams k = s.streams k := by simp [update, hk]

theorem update_update (f g : RowStream ρ ε → RowStream ρ ε) :
    (s.update i f).update i g = s.update i fun st => g (f st) := by simp [update]

theorem update_congr {f g : RowStream ρ ε → RowStream ρ ε} (h : f (s.streams i) = g (s.streams i)) :
    s.update i f = s.update i g := by
  rw [update, update, h]

omit [DecidableEq ι] in
/-- Freeing the previous chunk changes what is cached only, and not of `chunk`. -/
theorem clearPrevious_eq (s : State ι ρ ε) (i : ι) (chunk : Option Nat) :
    ∃ chunks, s.clearPrevious i chunk = { s with chunks := chunks } ∧
      (∀ j, (s.chunks.chunk j).SameLoad (chunks.chunk j)) ∧
      (∀ j, (chunks.chunk j = s.chunks.chunk j) ∨
        (s.streams i).previousChunk = some j ∧ chunk ≠ some j ∧
          chunks.chunk j = (s.chunks.chunk j).clearRows false) := by
  unfold clearPrevious
  split
  · exact ⟨s.chunks, rfl, fun j => .refl _, fun j => .inl rfl⟩
  · next previous hprevious =>
      split
      · exact ⟨s.chunks, rfl, fun j => .refl _, fun j => .inl rfl⟩
      · next hne =>
          refine ⟨_, rfl, fun j => ?_, fun j => ?_⟩
          · rw [Chunks.update_chunk]
            split
            · exact Chunk.sameLoad_clearRows _ false
            · exact .refl _
          · rw [Chunks.update_chunk]
            split
            · next hj =>
                subst hj
                exact .inr ⟨hprevious, hne, rfl⟩
            · exact .inl rfl

theorem close_eq (s : State ι ρ ε) (i : ι) (err : Option Err) :
    ∃ chunks, s.close i err = { s.update i (closed · err) with chunks := chunks } ∧
      (∀ j, (s.chunks.chunk j).SameLoad (chunks.chunk j)) ∧
      (∀ j, (chunks.chunk j = s.chunks.chunk j) ∨ (s.streams i).previousChunk = some j ∧
          chunks.chunk j = (s.chunks.chunk j).clearRows false) := by
  obtain ⟨chunks, hclear, hsame, hcleared⟩ := s.clearPrevious_eq i none
  refine ⟨chunks, ?_, hsame, fun j => (hcleared j).imp_right fun h => ⟨h.1, h.2.2⟩⟩
  rw [close, hclear]
  cases err <;> simp [update, closed]

theorem onResultStreamData_eq {c : Nat} {d : Chunk ι ρ} {rows : List (Row ρ)}
    (hrows : (s.chunks.chunk c).getRows cfg.parse = .ok (d, some rows)) :
    ∃ chunks, s.onResultStreamData cfg i c =
        ({ s.update i (fun st => processRowBuffer { st with
            subscribed := false, previousChunk := some c
            rowBuffer := some ((cut st (s.chunks.chunk c) rows).map some), rowIndex := 0 }) with
          chunks := chunks }, none) ∧
      chunks.chunk c = d ∧
      (∀ j, j ≠ c → (chunks.chunk j = s.chunks.chunk j) ∨ (s.streams i).previousChunk = some j ∧
          chunks.chunk j = (s.chunks.chunk j).clearRows false) := by
  obtain ⟨chunks, hclear, -, hcleared⟩ :=
    (s.update i fun st => { st with subscribed := false }).clearPrevious_eq i (some c)
  have hself : chunks.chunk c = s.chunks.chunk c := by
    rcases hcleared c with h | ⟨-, h, -⟩
    · exact h
    · exact absurd rfl h
  refine ⟨chunks.update c fun _ => d, ?_, by simp, fun j hj => ?_⟩
  · have hself' : ∀ f : RowStream ρ ε → RowStream ρ ε,
        (({ s.update i (fun st => { st with subscribed := false }) with
          chunks := chunks } : State ι ρ ε).update i f).chunks.chunk c = s.chunks.chunk c :=
      fun f => hself
    unfold onResultStreamData
    simp only [hclear, hself', hrows]
    simp [update, cut]
  · rw [Chunks.update_chunk, if_neg hj]
    rcases hcleared j with h | ⟨hprevious, -, h⟩
    · exact .inl h
    · exact .inr ⟨by simpa using hprevious, h⟩

/-- A loaded chunk reaches a stream that is subscribed. -/
theorem onLoadComplete_ok {c : Nat} {d : Chunk ι ρ} {rows : List (Row ρ)}
    (hsub : (s.streams i).subscribed = true)
    (hrows : (s.chunks.chunk c).getRows cfg.parse = .ok (d, some rows)) :
    ∃ chunks, s.onLoadComplete cfg i c none =
        ({ s.update i (fun st => received st c (cut st (s.chunks.chunk c) rows)) with
          chunks := chunks }, none) ∧
      chunks.chunk c = d.removeListener i ∧
      (∀ j, j ≠ c → (chunks.chunk j = s.chunks.chunk j) ∨ (s.streams i).previousChunk = some j ∧
          chunks.chunk j = (s.chunks.chunk j).clearRows false) := by
  have hrows' : ((s.chunks.update c (·.removeListener i)).chunk c).getRows cfg.parse =
      .ok (d.removeListener i, some rows) := by
    rw [Chunks.update_chunk_self]
    exact Chunk.getRows_removeListener hrows i
  obtain ⟨chunks, heq, hself, hcleared⟩ := onResultStreamData_eq (i := i)
    (s := ({ s with chunks := s.chunks.update c (·.removeListener i) } : State ι ρ ε).update i
      fun st => { st with
        resultStream := st.resultStream.map fun rs => { rs with currChunk := rs.currChunk + 1 } }) hrows'
  refine ⟨chunks, ?_, hself, fun j hj => ?_⟩
  · unfold onLoadComplete
    simp only [update_self, hsub, if_true]
    rw [heq]
    simp [update, received, cut, Chunk.removeListener]
  · have hkept := hcleared j hj
    simp only [update_self] at hkept
    rwa [show ((({ s with chunks := s.chunks.update c (·.removeListener i) } : State ι ρ ε).update i
      fun st => { st with
        resultStream := st.resultStream.map fun rs => { rs with currChunk := rs.currChunk + 1 } }
      ).chunks.chunk j) = s.chunks.chunk j by simp [update, Chunks.update_chunk, hj]] at hkept

/-- A failed chunk reaches a stream that is subscribed. -/
theorem onLoadComplete_error {c : Nat} {e : Err} (hsub : (s.streams i).subscribed = true) :
    s.onLoadComplete cfg i c (some e) =
      (({ s with chunks := s.chunks.update c (·.removeListener i) } : State ι ρ ε).onResultStreamClose
        cfg i (some e), none) := by
  unfold onLoadComplete
  simp only [hsub, if_true]

end

end State

end RowStream

end SnowflakeConnector
