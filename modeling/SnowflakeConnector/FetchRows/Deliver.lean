import SnowflakeConnector.FetchRows
import SnowflakeConnector.ResultStream.Sound

/-!
# SnowflakeConnector.FetchRows.Deliver

What a fetch-rows operation has done and is about to do.

As long as nothing is done twice, exactly one thing of the operation is pending at
any time, its `Phase`: a callback in the event loop, the subscription to one
chunk, the turn under way, or the request for the result.  `Delivering` ties the
phase to the rows handed out so far and those still to come; every step that meets
the conditions below keeps it.

* `Smooth` -- no row is the last of its chunk when the batch is broken off, or when
  `each` stops short of the last row of the window; the text of an awaited chunk is
  not empty;
* `Repaired` -- no request for the result fails, and the operation ends with a
  download error exactly if the statement has a result error.
-/

namespace SnowflakeConnector

open Slice Result

variable {ρ : Type*}

namespace FetchRows

/-- The one thing that is pending. -/
inductive Phase (ρ : Type*)
  | reading
  | awaiting (chunk : Nat)
  | told (chunk : Nat) (err : Option Err)
  | looping (rest : List (Row ρ)) (inBatch startTime : Int) (chunk : Nat)
  | paused (rest : List (Row ρ))
  | closing
  | completing (err : Option Err)
  | refetching
  | ended (err : Option Err)

namespace Phase

def control : Phase ρ → Control ρ
  | .told chunk err => .notifying chunk err 1
  | .looping rest inBatch startTime chunk => .looping rest inBatch startTime chunk 0
  | _ => .idle

def ticks : Phase ρ → List (Tick ρ)
  | .reading => [.read]
  | .paused rest => [.processRows rest]
  | .closing => [.streamClose]
  | .completing err => [.complete err]
  | _ => []

def refetches : Phase ρ → Nat
  | .refetching => 1
  | _ => 0

/-- The chunk whose event the stream is subscribed to. -/
def subscribed : Phase ρ → Option Nat
  | .awaiting chunk => some chunk
  | .told chunk _ => some chunk
  | _ => none

/-- A download error is on its way. -/
def Interrupted : Phase ρ → Prop
  | .told _ err => err ≠ none
  | .completing err => err ≠ none
  | .refetching => True
  | .ended err => err ≠ none
  | _ => False

end Phase

namespace State

/-- The rows of the chunks from the cursor on. -/
def ahead (blocks : List (List ρ)) (s : State ρ) : List (Row ρ) :=
  (s.stream.chunks.drop s.stream.currChunk).flatMap (part blocks s.start s.stop)

def Unstopped (s : State ρ) : Prop := ∀ d ∈ s.delivered, d.2 = false

/-- The chunks from the cursor on have rows to deliver. -/
structure Waiting (blocks : List (List ρ)) (s : State ρ) (todo : List (Row ρ)) : Prop where
  todo_eq : todo = s.ahead blocks
  todo_ne : todo ≠ []
  unstopped : s.Unstopped

/-- Every row has been delivered, or `each` has returned false. -/
def Finished (s : State ρ) (todo : List (Row ρ)) : Prop :=
  todo = [] ∨ ∃ d ∈ s.delivered, d.2 = true

/-- Where the rows to come are. -/
def Position (blocks : List (List ρ)) (s : State ρ) (todo : List (Row ρ)) : Phase ρ → Prop
  | .reading => s.Waiting blocks todo
  | .awaiting c => s.Waiting blocks todo ∧ s.stream.chunks[s.stream.currChunk]? = some c ∧
      (s.chunks.chunk c).isLoading = true
  | .told c none => s.Waiting blocks todo ∧ s.stream.chunks[s.stream.currChunk]? = some c ∧
      (s.chunks.chunk c).isLoaded = true
  | .told _ (some _) => s.Waiting blocks todo
  | .looping rest _ _ _ => todo = rest ++ s.ahead blocks ∧ s.Unstopped ∧ s.start ≤ s.stop
  | .paused rest => todo = rest ++ s.ahead blocks ∧ s.Unstopped ∧ s.start ≤ s.stop
  | .closing => s.Finished todo
  | .completing none => s.Finished todo
  | .completing (some _) => s.Waiting blocks todo
  | .refetching => s.Waiting blocks todo
  | .ended none => s.Finished todo
  | .ended (some _) => s.Waiting blocks todo

/-- The 'complete' events and the calls of `end` so far. -/
def History (s : State ρ) : Phase ρ → Prop
  | .ended err => (∃ before, s.completed = before ++ [err] ∧ ∀ e ∈ before, e ≠ none) ∧
      s.ended = [Errors.externalize s.resultError] ∧ err.isSome = s.resultError.isSome
  | _ => (∀ e ∈ s.completed, e ≠ none) ∧ s.ended = []

end State

/-- The operation for the rows from `start` to `stop` of `blocks` is in the phase `p`,
with the rows `todo` to come.  `interrupts` says whether downloads may fail. -/
structure Delivering (parse : String → Option (List ρ)) (blocks : List (List ρ)) (interrupts : Prop)
    (start stop : Int) (p : Phase ρ) (todo : List (Row ρ)) (s : State ρ) : Prop where
  start_eq : s.start = start
  stop_eq : s.stop = stop
  start_nonneg : 0 ≤ start
  stop_lt : stop < (blocks.flatten.length : Nat)
  reads : Reads blocks start stop s.stream.chunks
  sound : s.chunks.Sound parse blocks
  kept : s.chunks.Kept blocks.length
  control : s.control = p.control
  ticks : s.ticks = p.ticks
  refetching : s.refetching = p.refetches
  listeners : ∀ j, (s.chunks.chunk j).listeners = if p.subscribed = some j then [()] else []
  processed : s.numRowsProcessed = s.delivered.length
  rows : s.delivered.map Prod.fst ++ todo = inWindow start stop (allRows blocks)
  flags : ∀ d ∈ s.delivered.dropLast, d.2 = false
  position : s.Position blocks todo p
  history : s.History p
  thrown : s.thrown = []
  interrupted : p.Interrupted → interrupts
  completed : ∀ err ∈ s.completed, err ≠ none → interrupts
  resultError : s.resultError ≠ none → interrupts

/-- The operation is in some phase, with some rows to come. -/
def Delivers (parse : String → Option (List ρ)) (blocks : List (List ρ)) (interrupts : Prop)
    (start stop : Int) (s : State ρ) : Prop :=
  ∃ p todo, Delivering parse blocks interrupts start stop p todo s

/-! ## conditions on a step -/

/-- A body stands for its chunk's block. -/
def Served (parse : String → Option (List ρ)) (blocks : List (List ρ)) : Event ρ → Prop
  | .answered i (.ok body) => i < blocks.length → body.bind parse = some (blocks.getD i [])
  | _ => True

def WithoutError : Event ρ → Prop
  | .answered _ (.error _) => False
  | _ => True

instance [DecidableEq ρ] (parse : String → Option (List ρ)) (blocks : List (List ρ)) :
    DecidablePred (Served parse blocks)
  | .answered _ (.ok _) => inferInstanceAs (Decidable (_ → _))
  | .answered _ (.error _) | .ticked _ _ | .completed _ | .refetched _ | .notified _ | .row _ _
  | .exhausted => inferInstanceAs (Decidable True)

instance : DecidablePred (@WithoutError ρ)
  | .answered _ (.error _) => inferInstanceAs (Decidable False)
  | .answered _ (.ok _) | .ticked _ _ | .completed _ | .refetched _ | .notified _ | .row _ _
  | .exhausted => inferInstanceAs (Decidable True)

namespace State

def Smooth (cfg : Config ρ) (s : State ρ) : Event ρ → Prop
  | .answered i (.ok body) => (s.chunks.chunk i).listeners ≠ [] → body ≠ some ""
  | .row returnedFalse now =>
      match s.control with
      | .looping [_] inBatch startTime _ _ =>
          if returnedFalse then ((s.numRowsProcessed + 1 : Nat) : Int) = s.maxNumRowsToProcess
          else ¬ (inBatch + 1 ≥ cfg.resultProcessingBatchSize ∧
            now - startTime > cfg.resultProcessingBatchDuration)
      | _ => True
  | _ => True

def Repaired (cfg : Config ρ) (s : State ρ) : Event ρ → Prop
  | .refetched (.error _) => False
  | .ticked k _ =>
      match s.ticks[k]? with
      | some (.complete err) => Retryable cfg s err ∨ err.isSome = s.resultError.isSome
      | _ => True
  | _ => True

instance (cfg : Config ρ) (s : State ρ) : (e : Event ρ) → Decidable (s.Smooth cfg e)
  | .answered _ (.ok _) => inferInstanceAs (Decidable (_ → _))
  | .row returnedFalse now =>
      match h : s.control with
      | .looping [_] inBatch startTime _ _ =>
          decidable_of_iff (if returnedFalse then ((s.numRowsProcessed + 1 : Nat) : Int) =
              s.maxNumRowsToProcess
            else ¬ (inBatch + 1 ≥ cfg.resultProcessingBatchSize ∧
              now - startTime > cfg.resultProcessingBatchDuration)) (by simp only [Smooth, h])
      | .looping [] _ _ _ _ | .looping (_ :: _ :: _) _ _ _ _ | .notifying _ _ _ | .idle =>
          isTrue (by simp [Smooth, h])
  | .answered _ (.error _) | .ticked _ _ | .completed _ | .refetched _ | .notified _
  | .exhausted => inferInstanceAs (Decidable True)

instance (cfg : Config ρ) (s : State ρ) : (e : Event ρ) → Decidable (s.Repaired cfg e)
  | .refetched (.error _) => inferInstanceAs (Decidable False)
  | .ticked k now =>
      match h : s.ticks[k]? with
      | some (.complete err) =>
          decidable_of_iff (Retryable cfg s err ∨ err.isSome = s.resultError.isSome)
            (by simp only [Repaired, h])
      | some .read | some (.processRows _) | some .streamClose | none => isTrue (by simp [Repaired, h])
  | .refetched (.ok _) | .answered _ _ | .completed _ | .notified _ | .row _ _
  | .exhausted => inferInstanceAs (Decidable True)

end State

/-! ## steps -/

section

variable {parse : String → Option (List ρ)} {blocks : List (List ρ)} {interrupts : Prop}
  {start stop : Int} {p : Phase ρ} {todo : List (Row ρ)} {s s' : State ρ} {cfg : Config ρ}

/-- With rows ahead there is a chunk at the cursor. -/
theorem State.Waiting.exists_chunk (h : s.Waiting blocks todo) :
    ∃ c, s.stream.chunks[s.stream.currChunk]? = some c := by
  have hne : s.stream.chunks.drop s.stream.currChunk ≠ [] := by
    intro hnil
    have htodo := h.todo_eq
    rw [State.ahead, hnil] at htodo
    exact h.todo_ne htodo
  rw [ne_eq, List.drop_eq_nil_iff, not_le] at hne
  exact ⟨_, List.getElem?_eq_getElem hne⟩

/-- A window with rows to come is not empty. -/
theorem Delivering.start_le (h : Delivering parse blocks interrupts start stop p todo s)
    (hne : todo ≠ []) : s.start ≤ s.stop := by
  rw [h.start_eq, h.stop_eq]
  by_contra hlt
  have hrows := h.rows
  rw [inWindow_of_lt (by omega)] at hrows
  exact hne (List.append_eq_nil_iff.mp hrows).2

/-- What the counter says of the rows to come. -/
theorem Delivering.numRowsProcessed_eq_iff
    (h : Delivering parse blocks interrupts start stop p todo s) (hle : s.start ≤ s.stop) :
    (s.numRowsProcessed : Int) = s.maxNumRowsToProcess ↔ todo = [] := by
  rw [h.start_eq, h.stop_eq] at hle
  have hlen := congrArg List.length h.rows
  have hwindow := length_inWindow h.start_nonneg hle h.stop_lt
  rw [List.length_append, List.length_map] at hlen
  rw [State.maxNumRowsToProcess, h.processed, h.start_eq, h.stop_eq, ← List.length_eq_zero_iff]
  omega

/-- The read that is pending takes place. -/
theorem Delivering.read (h : Delivering parse blocks interrupts start stop .reading todo s) :
    ∃ c, Delivering parse blocks interrupts start stop (.awaiting c) todo
      { s with ticks := [] }.read := by
  have hwait : s.Waiting blocks todo := h.position
  obtain ⟨c, hc⟩ := hwait.exists_chunk
  obtain ⟨cs, hload⟩ := ResultStream.exists_doLoad () s.chunks hc
  have hread : { s with ticks := [] }.read = { s with ticks := [], chunks := cs } := by
    simp [State.read, hload]
  have hlisteners' : ∀ j, (cs.chunk j).listeners = if some c = some j then [()] else [] := by
    intro j
    rw [ResultStream.doLoad_listeners hc hload, h.listeners]
    simp only [Phase.subscribed, Option.some.injEq, reduceCtorEq, if_false, List.nil_append]
    exact if_congr eq_comm rfl rfl
  rw [hread]
  exact ⟨c, { h with
    sound := ResultStream.sound_doLoad h.sound hload
    kept := ResultStream.kept_doLoad h.kept hload
    ticks := rfl
    listeners := hlisteners'
    position := ⟨⟨hwait.todo_eq, hwait.todo_ne, hwait.unstopped⟩, hc,
      ResultStream.doLoad_isLoading hc hload⟩ }⟩

/-- With no row left in the chunk, the counter decides. -/
theorem State.afterLoop_nil (s : State ρ) (stopped : Bool) (chunk : Nat) :
    s.afterLoop [] stopped chunk 0 =
      if (s.numRowsProcessed : Int) = s.maxNumRowsToProcess then { s with control := .idle }.asyncClose
      else { s with control := .idle }.read := by
  unfold State.afterLoop
  simp only [List.isEmpty_nil, Bool.true_or, if_true, true_and, ne_eq, ite_not]
  rfl

/-- The loop over the rows of a chunk is over. -/
theorem Delivering.exhausted {inBatch startTime : Int} {c : Nat}
    (h : Delivering parse blocks interrupts start stop (.looping [] inBatch startTime c) todo s) :
    ∃ p, Delivering parse blocks interrupts start stop p todo (s.afterLoop [] false c 0) := by
  obtain ⟨htodo, hunstopped, hle⟩ := h.position
  have hnum := h.numRowsProcessed_eq_iff hle
  have hticks : s.ticks = [] := h.ticks
  rw [State.afterLoop_nil]
  split
  · next hmax =>
      exact ⟨.closing, { h with
        control := rfl
        ticks := by rw [State.asyncClose, hticks]; rfl
        listeners := h.listeners
        position := .inl (hnum.mp hmax) }⟩
  · next hmax =>
      have hreading : Delivering parse blocks interrupts start stop .reading todo
          { s with control := .idle, ticks := [.read] } :=
        { h with
          control := rfl
          ticks := rfl
          position := ⟨htodo, fun hnil => hmax (hnum.mpr hnil), hunstopped⟩ }
      obtain ⟨c', hawait⟩ := hreading.read
      have hsame : ({ s with control := .idle, ticks := [] } : State ρ) = { s with control := .idle } := by
        rw [← hticks]
      rw [← hsame]
      exact ⟨.awaiting c', hawait⟩

/-- `each` is called on the next row. -/
theorem Delivering.row {r : Row ρ} {rest : List (Row ρ)} {inBatch startTime now : Int} {c : Nat}
    {returnedFalse : Bool}
    (h : Delivering parse blocks interrupts start stop (.looping (r :: rest) inBatch startTime c) todo s)
    (hsmooth : s.Smooth cfg (.row returnedFalse now)) (hst : s.row cfg returnedFalse now = some s') :
    ∃ p todo', Delivering parse blocks interrupts start stop p todo' s' := by
  obtain ⟨htodo, hunstopped, hle⟩ := h.position
  have hcontrol : s.control = .looping (r :: rest) inBatch startTime c 0 := h.control
  have hticks : s.ticks = [] := h.ticks
  have hrows : (s.delivered ++ [(r, returnedFalse)]).map Prod.fst ++ (rest ++ s.ahead blocks) =
      inWindow start stop (allRows blocks) := by
    have hbefore := h.rows
    rw [htodo] at hbefore
    simpa using hbefore
  have hflags : ∀ d ∈ (s.delivered ++ [(r, returnedFalse)]).dropLast, d.2 = false := by
    rw [List.dropLast_concat]
    exact hunstopped
  have hprocessed : s.numRowsProcessed + 1 = (s.delivered ++ [(r, returnedFalse)]).length := by
    rw [List.length_append, h.processed]
    rfl
  rw [State.Smooth, hcontrol] at hsmooth
  rw [State.row, hcontrol] at hst
  cases returnedFalse with
  | true =>
      simp only [if_true, Option.some.injEq] at hst
      subst hst
      have hclose : ∀ t : State ρ, (rest = [] → (t.numRowsProcessed : Int) = t.maxNumRowsToProcess) →
          t.afterLoop rest true c 0 = { t with control := .idle }.asyncClose := by
        intro t hmax
        cases rest with
        | nil => rw [State.afterLoop_nil, if_pos (hmax rfl)]
        | cons r' rest => rfl
      rw [hclose _ (by rintro rfl; simpa [State.maxNumRowsToProcess] using hsmooth)]
      exact ⟨.closing, rest ++ s.ahead blocks, { h with
        control := rfl
        ticks := by rw [State.asyncClose, hticks]; rfl
        listeners := h.listeners
        processed := hprocessed
        rows := hrows
        flags := hflags
        position := .inr ⟨(r, true), by simp [State.asyncClose], rfl⟩ }⟩
  | false =>
      have hunstopped' : ∀ d ∈ s.delivered ++ [(r, false)], d.2 = false := by
        intro d hd
        rcases List.mem_append.mp hd with hd | hd
        · exact hunstopped d hd
        · rw [List.mem_singleton.mp hd]
      simp only [Bool.false_eq_true, if_false] at hst
      split at hst
      · next hbreak =>
          -- the batch is broken off: `rest` is left for the next tick, and is not empty
          cases rest with
          | nil => exact absurd hbreak (by simpa using hsmooth)
          | cons r' rest =>
              simp only [State.afterLoop, List.isEmpty_cons, Bool.or_self, Bool.false_eq_true,
                if_false, Option.some.injEq] at hst
              subst hst
              exact ⟨.paused (r' :: rest), r' :: rest ++ s.ahead blocks, { h with
                control := rfl
                ticks := by rw [hticks]; rfl
                listeners := h.listeners
                processed := hprocessed
                rows := hrows
                flags := hflags
                position := ⟨rfl, hunstopped', hle⟩ }⟩
      · cases hst
        exact ⟨.looping rest (inBatch + 1) startTime c, rest ++ s.ahead blocks, { h with
          control := rfl
          processed := hprocessed
          rows := hrows
          flags := hflags
          position := ⟨rfl, hunstopped', hle⟩ }⟩

/-- The stream is told that its chunk is loaded, or has failed. -/
theorem Delivering.notify {c : Nat} {err : Option Err} {now : Int} (hparse : cfg.parse = parse)
    (h : Delivering parse blocks interrupts start stop (.told c err) todo s)
    (hst : s.notify cfg now = some s') :
    ∃ p, Delivering parse blocks interrupts start stop p todo s' := by
  have hcontrol : s.control = .notifying c err 1 := h.control
  have hticks : s.ticks = [] := h.ticks
  have hlisteners : ∀ j, ((s.chunks.update c (·.removeListener ())).chunk j).listeners = [] := by
    intro j
    rw [Chunks.update_chunk]
    have hj := h.listeners j
    simp only [Phase.subscribed, Option.some.injEq] at hj
    split
    · next hjc =>
        rw [Chunk.removeListener, hj, if_pos hjc.symm]
        rfl
    · next hjc => rw [hj, if_neg (Ne.symm hjc)]
  have hsound : (s.chunks.update c (·.removeListener ())).Sound parse blocks :=
    h.sound.update fun hc => (h.sound c hc).removeListener ()
  have hkept : (s.chunks.update c (·.removeListener ())).Kept blocks.length :=
    h.kept.update fun hc => h.kept c hc
  rw [State.notify, hcontrol] at hst
  cases err with
  | some e =>
      simp only [Option.some.injEq] at hst
      subst hst
      have hwait : s.Waiting blocks todo := h.position
      exact ⟨.completing (some e), { h with
        sound := hsound
        kept := hkept
        control := rfl
        ticks := by rw [hticks]; rfl
        listeners := hlisteners
        position := ⟨hwait.todo_eq, hwait.todo_ne, hwait.unstopped⟩ }⟩
  | none =>
      simp only [Option.some.injEq] at hst
      subst hst
      obtain rfl := h.start_eq
      obtain rfl := h.stop_eq
      obtain ⟨hwait, hcurr, hloaded⟩ := h.position
      have hle := h.start_le hwait.todo_ne
      have hmem : c ∈ s.stream.chunks := List.mem_of_getElem? hcurr
      have hc := h.reads.inside c hmem
      have hself : (s.chunks.update c (·.removeListener ())).chunk c =
          (s.chunks.chunk c).removeListener () := by simp
      obtain ⟨c', hrows, hsame, hsound', hloaded'⟩ := ((h.sound c hc).removeListener ()).getRows hloaded
      have hslice := h.reads.slices c hmem
      have hstart := ((h.sound c hc).removeListener ()).startIndex
      have hend := ((h.sound c hc).removeListener ()).endIndex
      -- the rows of the chunk at the cursor leave the rows ahead
      have hahead : s.ahead blocks = part blocks s.start s.stop c ++
          (s.stream.chunks.drop (s.stream.currChunk + 1)).flatMap (part blocks s.start s.stop) := by
        obtain ⟨hlt, hget⟩ := List.getElem?_eq_some_iff.mp hcurr
        rw [State.ahead, List.drop_eq_getElem_cons hlt, hget, List.flatMap_cons]
      rw [State.processChunk]
      simp only [hself, hparse, hrows, hstart, hend]
      rw [show convertRowsetToRows (offset blocks c) (blocks.getD c []) = blockRows blocks c from rfl,
        hslice]
      have hlisteners' : ∀ j, (((s.chunks.update c (·.removeListener ())).update c
          fun _ => c').chunk j).listeners = [] := by
        intro j
        rw [Chunks.update_chunk]
        split
        · next hjc =>
            rw [hsame.listeners, ← hself, hlisteners]
        · exact hlisteners j
      have hsound'' : ((s.chunks.update c (·.removeListener ())).update c
          fun _ => c').Sound parse blocks := hsound.update fun _ => hsound'
      have hkept' : ((s.chunks.update c (·.removeListener ())).update c
          fun _ => c').Kept blocks.length := hkept.update fun _ _ => hloaded'
      exact ⟨.looping (part blocks s.start s.stop c) 0 now c, { h with
        sound := hsound''
        kept := hkept'
        control := rfl
        listeners := hlisteners'
        interrupted := False.elim
        position := ⟨by rw [hwait.todo_eq, hahead]; rfl, hwait.unstopped, hle⟩ }⟩

/-- A load ends: the stream is told if it is subscribed to the chunk. -/
theorem Delivering.completeLoad (h : Delivering parse blocks interrupts start stop p todo s)
    (i : Nat) (f : Chunk Unit ρ → Chunk Unit ρ) (err : Option Err) (hidle : s.Idle)
    (hlisteners : (f (s.chunks.chunk i)).listeners = (s.chunks.chunk i).listeners)
    (hsound : Chunks.SoundAt parse blocks i (f (s.chunks.chunk i)).doneLoading)
    (hkept : i < blocks.length → (f (s.chunks.chunk i)).doneLoading.Kept)
    (hloaded : (s.chunks.chunk i).listeners ≠ [] → i < blocks.length → err = none →
      (f (s.chunks.chunk i)).doneLoading.isLoaded = true)
    (herr : err ≠ none → interrupts) :
    ∃ p, Delivering parse blocks interrupts start stop p todo
      ({ s with chunks := s.chunks.update i f }.completeLoad i err) := by
  have hdone : { s with chunks := s.chunks.update i f }.completeLoad i err =
      { s with
        chunks := s.chunks.update i fun c => (f c).doneLoading
        control := State.notifying i err (s.chunks.chunk i).listeners.length } := by
    rw [State.completeLoad, Chunks.update_update, Chunks.update_chunk_self, hlisteners]
  have hsound' : (s.chunks.update i fun c => (f c).doneLoading).Sound parse blocks :=
    h.sound.update hsound
  have hkept' : (s.chunks.update i fun c => (f c).doneLoading).Kept blocks.length :=
    h.kept.update hkept
  have hsame : ∀ j, ((s.chunks.update i fun c => (f c).doneLoading).chunk j).listeners =
      (s.chunks.chunk j).listeners := by
    intro j
    rw [Chunks.update_chunk]
    split
    · next hji =>
        subst hji
        exact hlisteners
    · rfl
  rw [hdone]
  by_cases hi : p.subscribed = some i
  · have hone : (s.chunks.chunk i).listeners = [()] := by rw [h.listeners, if_pos hi]
    have hcontrol : State.notifying i err (s.chunks.chunk i).listeners.length =
        Control.notifying (ρ := ρ) i err 1 := by
      rw [hone]
      rfl
    rw [hcontrol]
    cases p with
    | awaiting c =>
        obtain rfl : c = i := by simpa [Phase.subscribed] using hi
        obtain ⟨hwait, hcurr, -⟩ := h.position
        have hc := h.reads.inside c (List.mem_of_getElem? hcurr)
        have hposition : State.Position blocks { s with
            chunks := s.chunks.update c fun c => (f c).doneLoading
            control := .notifying c err 1 } todo (.told c err) := by
          cases err with
          | none =>
              have hself := hloaded (by simp [hone]) hc rfl
              exact ⟨⟨hwait.todo_eq, hwait.todo_ne, hwait.unstopped⟩, hcurr, by simpa using hself⟩
          | some e => exact ⟨hwait.todo_eq, hwait.todo_ne, hwait.unstopped⟩
        exact ⟨.told c err, { h with
          sound := hsound'
          kept := hkept'
          control := rfl
          listeners := fun j => (hsame j).trans (h.listeners j)
          position := hposition
          interrupted := herr }⟩
    | told c e =>
        have hcontrol := h.control
        simp [State.Idle, hcontrol, Phase.control] at hidle
    | _ => simp [Phase.subscribed] at hi
  · have hnone : (s.chunks.chunk i).listeners = [] := by rw [h.listeners, if_neg hi]
    have hcontrol : State.notifying (ρ := ρ) i err (s.chunks.chunk i).listeners.length = s.control := by
      rw [hnone]
      unfold State.Idle at hidle
      split at hidle
      · next hidle' => rw [hidle']; rfl
      · exact hidle.elim
    rw [hcontrol]
    have hposition : State.Position blocks { s with
        chunks := s.chunks.update i fun c => (f c).doneLoading } todo p := by
      have hbefore := h.position
      cases p with
      | awaiting c =>
          obtain ⟨hwait, hcurr, hloading⟩ := hbefore
          have hci : c ≠ i := by
            rintro rfl
            exact hi rfl
          exact ⟨⟨hwait.todo_eq, hwait.todo_ne, hwait.unstopped⟩, hcurr, by
            simpa [Chunks.update_chunk, hci] using hloading⟩
      | told c e =>
          have hcontrol := h.control
          simp [State.Idle, hcontrol, Phase.control] at hidle
      | completing e => cases e with
        | none => exact hbefore
        | some e => exact ⟨hbefore.todo_eq, hbefore.todo_ne, hbefore.unstopped⟩
      | ended e => cases e with
        | none => exact hbefore
        | some e => exact ⟨hbefore.todo_eq, hbefore.todo_ne, hbefore.unstopped⟩
      | reading => exact ⟨hbefore.todo_eq, hbefore.todo_ne, hbefore.unstopped⟩
      | refetching => exact ⟨hbefore.todo_eq, hbefore.todo_ne, hbefore.unstopped⟩
      | looping => exact hbefore
      | paused => exact hbefore
      | closing => exact hbefore
    have hhistory : State.History { s with
        chunks := s.chunks.update i fun c => (f c).doneLoading } p := by
      have hbefore := h.history
      cases p <;> exact hbefore
    exact ⟨p, { h with
      sound := hsound'
      kept := hkept'
      listeners := fun j => (hsame j).trans (h.listeners j)
      position := hposition
      history := hhistory }⟩

/-- A callback of the event loop runs. -/
theorem Delivering.tick {k : Nat} {tick : Tick ρ} {now : Int}
    (h : Delivering parse blocks interrupts start stop p todo s)
    (hrepaired : s.Repaired cfg (.ticked k now)) (htick : s.ticks[k]? = some tick) :
    ∃ p, Delivering parse blocks interrupts start stop p todo
      ({ s with ticks := s.ticks.eraseIdx k }.runTick cfg now tick) := by
  have hticks := h.ticks
  cases p with
  | reading =>
      rw [hticks] at htick ⊢
      obtain ⟨rfl, rfl⟩ : k = 0 ∧ tick = .read := by
        cases k <;> simp_all [Phase.ticks]
      obtain ⟨c, hawait⟩ := h.read
      exact ⟨.awaiting c, hawait⟩
  | paused rest =>
      rw [hticks] at htick ⊢
      obtain ⟨rfl, rfl⟩ : k = 0 ∧ tick = .processRows rest := by
        cases k <;> simp_all [Phase.ticks]
      exact ⟨.looping rest 0 now 0, { h with control := rfl, ticks := rfl }⟩
  | closing =>
      rw [hticks] at htick ⊢
      obtain ⟨rfl, rfl⟩ : k = 0 ∧ tick = .streamClose := by
        cases k <;> simp_all [Phase.ticks]
      exact ⟨.completing none, { h with ticks := rfl, interrupted := fun hne => absurd rfl hne }⟩
  | completing err =>
      rw [State.Repaired, htick] at hrepaired
      rw [hticks] at htick ⊢
      obtain ⟨rfl, rfl⟩ : k = 0 ∧ tick = .complete err := by
        cases k <;> simp_all [Phase.ticks]
      have hcompleted : ∀ e ∈ s.completed ++ [err], e ≠ none → interrupts := by
        intro e he hne
        rcases List.mem_append.mp he with he | he
        · exact h.completed e he hne
        · rw [List.mem_singleton.mp he] at hne
          exact h.interrupted hne
      obtain ⟨hbefore, hended⟩ := h.history
      rw [State.runTick, State.onComplete]
      split
      · next hretry =>
          have hne : err ≠ none := by
            rintro rfl
            exact absurd hretry.2.1 (by simp)
          obtain ⟨e, rfl⟩ := Option.ne_none_iff_exists'.mp hne
          have hwait : s.Waiting blocks todo := h.position
          have hall : ∀ e' ∈ s.completed ++ [some e], e' ≠ none := by
            intro e' he
            rcases List.mem_append.mp he with he | he
            · exact hbefore e' he
            · rw [List.mem_singleton.mp he]
              simp
          exact ⟨.refetching, { h with
            ticks := rfl
            refetching := congrArg Nat.succ h.refetching
            position := ⟨hwait.todo_eq, hwait.todo_ne, hwait.unstopped⟩
            history := ⟨hall, hended⟩
            interrupted := fun _ => h.interrupted hne
            completed := hcompleted }⟩
      · next hretry =>
          have htrue : err.isSome = s.resultError.isSome := hrepaired.resolve_left hretry
          have hposition : State.Position blocks s todo (.ended err) := by
            have hbefore := h.position
            cases err <;> exact hbefore
          have hposition' : State.Position blocks { s with
              ticks := [], completed := s.completed ++ [err]
              ended := s.ended ++ [Errors.externalize s.resultError] } todo (.ended err) := by
            cases err with
            | none => exact hposition
            | some e => exact ⟨hposition.todo_eq, hposition.todo_ne, hposition.unstopped⟩
          exact ⟨.ended err, { h with
            ticks := rfl
            position := hposition'
            history := ⟨⟨s.completed, rfl, hbefore⟩, by rw [hended]; rfl, htrue⟩
            completed := hcompleted }⟩
  | _ => simp [hticks, Phase.ticks] at htick

/-- The request for the result is answered. -/
theorem Delivering.refetched (h : Delivering parse blocks interrupts start stop p todo s)
    (cfg : Config ρ) (chunkCfgs : Option (List (ChunkCfg ρ))) (hpos : 0 < s.refetching) :
    ∃ p, Delivering parse blocks interrupts start stop p todo
      ({ s with refetching := s.refetching - 1 }.onRefetched cfg (.ok chunkCfgs)) := by
  cases p with
  | refetching =>
      have hticks : s.ticks = [] := h.ticks
      have hrefetching : s.refetching = 1 := h.refetching
      have hwait : s.Waiting blocks todo := h.position
      have hlisteners : ∀ j, ((s.chunks.refresh cfg.numChunks chunkCfgs).1.chunk j).listeners = [] := by
        intro j
        obtain ⟨url, hurl⟩ := s.chunks.refresh_chunk cfg.numChunks chunkCfgs j
        rw [hurl]
        exact h.listeners j
      have hreading : Delivering parse blocks interrupts start stop .reading todo { s with
          refetching := 0
          chunks := (s.chunks.refresh cfg.numChunks chunkCfgs).1
          resultError := (s.chunks.refresh cfg.numChunks chunkCfgs).2
          ticks := [.read] } :=
        { h with
          sound := h.sound.refresh cfg.numChunks chunkCfgs
          kept := h.kept.refresh cfg.numChunks chunkCfgs
          ticks := rfl
          refetching := rfl
          listeners := hlisteners
          position := ⟨hwait.todo_eq, hwait.todo_ne, hwait.unstopped⟩
          interrupted := False.elim
          resultError := fun _ => h.interrupted trivial }
      obtain ⟨c, hawait⟩ := hreading.read
      refine ⟨.awaiting c, ?_⟩
      rw [State.onRefetched, hrefetching]
      simpa only [hticks] using hawait
  | _ =>
      have hzero := h.refetching
      simp only [Phase.refetches] at hzero
      omega

/-- What the step is allowed to do. -/
structure Meets (cfg : Config ρ) (blocks : List (List ρ)) (interrupts : Prop) (s : State ρ)
    (e : Event ρ) : Prop where
  served : Served cfg.parse blocks e
  error : ¬ interrupts → WithoutError e
  smooth : s.Smooth cfg e
  repaired : s.Repaired cfg e

/-- Every step that meets the conditions keeps the invariant. -/
theorem Delivering.step {e : Event ρ}
    (h : Delivering cfg.parse blocks interrupts start stop p todo s)
    (hmeets : Meets cfg blocks interrupts s e) (hst : State.step cfg s e = some s') :
    Delivers cfg.parse blocks interrupts start stop s' := by
  obtain ⟨hserved, herror, hsmooth, hrepaired⟩ := hmeets
  cases e with
  | ticked k now =>
      simp only [State.step, Option.ite_none_right_eq_some, Option.map_eq_some_iff] at hst
      obtain ⟨-, tick, htick, rfl⟩ := hst
      obtain ⟨p', h'⟩ := h.tick hrepaired htick
      exact ⟨p', todo, h'⟩
  | completed i =>
      simp only [State.step, Option.ite_none_right_eq_some, Option.some.injEq] at hst
      obtain ⟨⟨hidle, hpos⟩, rfl⟩ := hst
      obtain ⟨p', h'⟩ := h.completeLoad i Chunk.untick none hidle rfl
        (fun hi => (h.sound i hi).untick hpos) (fun hi => (h.kept i hi).untick hpos)
        (fun _ hi _ => h.kept i hi hpos) (fun hne => absurd rfl hne)
      exact ⟨p', todo, h'⟩
  | answered i answer =>
      simp only [State.step, Option.ite_none_right_eq_some, Option.some.injEq] at hst
      obtain ⟨⟨hidle, hpos⟩, rfl⟩ := hst
      have hbody : i < blocks.length → ∀ body, answer = .ok body →
          ∃ text, body = some text ∧ cfg.parse text = some (blocks.getD i []) := by
        rintro hi body rfl
        exact Option.bind_eq_some_iff.mp (hserved hi)
      have hlisteners : (Chunk.store answer (s.chunks.chunk i)).listeners =
          (s.chunks.chunk i).listeners := by
        cases answer <;> rfl
      have hloaded : (s.chunks.chunk i).listeners ≠ [] → i < blocks.length → answer.err = none →
          (Chunk.store answer (s.chunks.chunk i)).doneLoading.isLoaded = true := by
        intro hne hi herr
        cases answer with
        | error e => exact absurd herr (by simp [Chunk.Answer.err])
        | ok body =>
            obtain ⟨text, rfl, -⟩ := hbody hi body rfl
            exact Chunk.isLoaded_store _ fun hempty => hsmooth hne (by rw [hempty])
      have hinterrupts : answer.err ≠ none → interrupts := by
        intro hne
        by_contra hcalm
        have hnoerr := herror hcalm
        cases answer with
        | error e => exact hnoerr
        | ok body => exact hne rfl
      obtain ⟨p', h'⟩ := h.completeLoad i (Chunk.store answer) answer.err hidle hlisteners
        (fun hi => (h.sound i hi).store hpos (hbody hi))
        (fun hi => (h.sound i hi).balanced.kept_store hpos answer) hloaded hinterrupts
      exact ⟨p', todo, h'⟩
  | refetched answer =>
      simp only [State.step, Option.ite_none_right_eq_some, Option.some.injEq] at hst
      obtain ⟨⟨-, hpos⟩, rfl⟩ := hst
      cases answer with
      | error e => exact hrepaired.elim
      | ok chunkCfgs =>
          obtain ⟨p', h'⟩ := h.refetched cfg chunkCfgs hpos
          exact ⟨p', todo, h'⟩
  | notified now =>
      cases p with
      | told c err =>
          obtain ⟨p', h'⟩ := h.notify rfl hst
          exact ⟨p', todo, h'⟩
      | _ => simp [State.step, State.notify, h.control, Phase.control] at hst
  | row returnedFalse now =>
      cases p with
      | looping rest inBatch startTime c =>
          cases rest with
          | nil => simp [State.step, State.row, h.control, Phase.control] at hst
          | cons r rest => exact h.row hsmooth hst
      | _ => simp [State.step, State.row, h.control, Phase.control] at hst
  | exhausted =>
      cases p with
      | looping rest inBatch startTime c =>
          cases rest with
          | nil =>
              simp only [State.step, h.control, Phase.control, Option.some.injEq] at hst
              subst hst
              obtain ⟨p', h'⟩ := h.exhausted
              exact ⟨p', todo, h'⟩
          | cons r rest => simp [State.step, h.control, Phase.control] at hst
      | _ => simp [State.step, h.control, Phase.control] at hst

/-- As long as the operation has not ended there is something to wait for. -/
theorem Delivering.progress (h : Delivering parse blocks interrupts start stop p todo s)
    (hp : ∀ err, p ≠ .ended err) : ∃ e, State.step cfg s e ≠ none := by
  have hcontrol := h.control
  have hticks := h.ticks
  have htick : ∀ tick, s.control = .idle → s.ticks = [tick] →
      State.step cfg s (.ticked 0 0) ≠ none := by
    intro tick hidle hone
    simp [State.step, State.Idle, hidle, hone]
  cases p with
  | reading => exact ⟨_, htick _ hcontrol hticks⟩
  | paused rest => exact ⟨_, htick _ hcontrol hticks⟩
  | closing => exact ⟨_, htick _ hcontrol hticks⟩
  | completing err => exact ⟨_, htick _ hcontrol hticks⟩
  | awaiting c =>
      obtain ⟨-, hcurr, hloading⟩ := h.position
      have hidle : s.Idle := by simp [State.Idle, hcontrol, Phase.control]
      have hc := h.reads.inside c (List.mem_of_getElem? hcurr)
      have hbalanced := (h.sound c hc).balanced
      rw [Chunk.Balanced, hloading, if_pos rfl] at hbalanced
      by_cases hpos : 0 < (s.chunks.chunk c).scheduled
      · exact ⟨.completed c, by simp [State.step, hidle, hpos]⟩
      · have hpos' : 0 < (s.chunks.chunk c).requested := by omega
        exact ⟨.answered c (.ok none), by simp [State.step, hidle, hpos']⟩
  | told c err =>
      refine ⟨.notified 0, ?_⟩
      simp only [State.step, State.notify, hcontrol, Phase.control]
      cases err <;> simp
  | looping rest inBatch startTime c =>
      cases rest with
      | nil => exact ⟨.exhausted, by simp [State.step, hcontrol, Phase.control]⟩
      | cons r rest =>
          refine ⟨.row true 0, ?_⟩
          simp [State.step, State.row, hcontrol, Phase.control]
  | refetching =>
      have hone : s.refetching = 1 := h.refetching
      exact ⟨.refetched (.ok none), by simp [State.step, State.Idle, hcontrol, Phase.control, hone]⟩
  | ended err => exact absurd rfl (hp err)

/-! ## the beginning -/

/-- The operation for a window that is not empty is about to read. -/
theorem State.begin_of_le {chunks : Chunks Unit ρ} {startIndex endIndex : Option Rat} {is : List Nat}
    (hle : windowStart startIndex ≤ windowEnd endIndex cfg.returnedRows)
    (hfind : findOverlappingChunks chunks.chunk (windowStart startIndex)
      (windowEnd endIndex cfg.returnedRows) cfg.numChunks = .ok is) :
    State.begin cfg chunks startIndex endIndex = .ok
      { chunks, stream := ⟨is, cfg.resultPrefetch, 0⟩, start := windowStart startIndex,
        stop := windowEnd endIndex cfg.returnedRows, numRowsProcessed := 0, control := .idle,
        ticks := [.read], resultError := none, numInterrupts := 0, refetching := 0,
        delivered := [], completed := [], ended := [], thrown := [] } := by
  rw [State.begin, if_neg (not_lt.mpr hle), hfind]
  rfl

/-- The operation for an empty window is about to complete. -/
theorem State.begin_of_lt {chunks : Chunks Unit ρ} {startIndex endIndex : Option Rat}
    (hlt : windowEnd endIndex cfg.returnedRows < windowStart startIndex) :
    State.begin cfg chunks startIndex endIndex = .ok
      { chunks, stream := ⟨[], cfg.resultPrefetch, 0⟩, start := windowStart startIndex,
        stop := windowEnd endIndex cfg.returnedRows, numRowsProcessed := 0, control := .idle,
        ticks := [.complete none], resultError := none, numInterrupts := 0, refetching := 0,
        delivered := [], completed := [], ended := [], thrown := [] } := by
  rw [State.begin, if_pos hlt]

/-- The operation begins, on any window and from any state of the chunks that the
operation does not listen to. -/
theorem exists_begin {chunks : Chunks Unit ρ} (interrupts : Prop) (startIndex endIndex : Option Rat)
    (hnum : cfg.numChunks = blocks.length) (hreturned : cfg.returnedRows = blocks.flatten.length)
    (hsound : chunks.Sound cfg.parse blocks) (hkept : chunks.Kept blocks.length)
    (hlisteners : ∀ i, (chunks.chunk i).listeners = []) :
    ∃ s, State.begin cfg chunks startIndex endIndex = .ok s ∧
      Delivers cfg.parse blocks interrupts (windowStart startIndex)
        (windowEnd endIndex cfg.returnedRows) s := by
  have hnonneg := windowStart_nonneg startIndex
  have hlt := windowEnd_lt endIndex cfg.returnedRows
  by_cases hle : windowStart startIndex ≤ windowEnd endIndex cfg.returnedRows
  · obtain ⟨is, hfind, hreads, -⟩ := hsound.fits.exists_reads hnonneg hle (by omega)
    rw [← hnum] at hfind
    have hne : inWindow (windowStart startIndex) (windowEnd endIndex cfg.returnedRows)
        (allRows blocks) ≠ [] := by
      intro hnil
      have hlen := @length_inWindow _ blocks _ _ hnonneg hle (by omega)
      rw [hnil, List.length_nil] at hlen
      omega
    exact ⟨_, State.begin_of_le hle hfind, .reading, _, {
      start_eq := rfl
      stop_eq := rfl
      start_nonneg := hnonneg
      stop_lt := by omega
      reads := hreads
      sound := hsound
      kept := hkept
      control := rfl
      ticks := rfl
      refetching := rfl
      listeners := hlisteners
      processed := rfl
      rows := rfl
      flags := by simp
      position := ⟨hreads.rows.symm, hne, by simp [State.Unstopped]⟩
      history := ⟨by simp, rfl⟩
      thrown := rfl
      interrupted := False.elim
      completed := by simp
      resultError := fun hne => absurd rfl hne }⟩
  · have hnil := inWindow_of_lt (not_le.mp hle) (allRows blocks)
    exact ⟨_, State.begin_of_lt (not_le.mp hle), .completing none, [], {
      start_eq := rfl
      stop_eq := rfl
      start_nonneg := hnonneg
      stop_lt := by omega
      reads := reads_of_lt (not_le.mp hle)
      sound := hsound
      kept := hkept
      control := rfl
      ticks := rfl
      refetching := rfl
      listeners := hlisteners
      processed := rfl
      rows := hnil.symm
      flags := by simp
      position := .inl rfl
      history := ⟨by simp, rfl⟩
      thrown := rfl
      interrupted := fun hne => absurd rfl hne
      completed := by simp
      resultError := fun hne => absurd rfl hne }⟩

end

end FetchRows

end SnowflakeConnector
