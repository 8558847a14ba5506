import SnowflakeConnector.Lts
import SnowflakeConnector.Result.Overlap
import SnowflakeConnector.ResultStream

/-!
# SnowflakeConnector.FetchRows

`Result.prototype.fetchRows` and `fetchRowsFromResult` of `lib/connection/statement.js`:
the rows of a window are handed one by one to the caller's `each`, in batches that
a clock may break off, while a result stream loads the chunks.

One event is one turn of the event loop, except that a turn that hands out rows
stops before each call of `each`: the call and the clock reading after it are an
event of their own, `row`, and so is the end of the loop over the rows of a chunk.
While such a turn is under way nothing else happens.
-/

namespace SnowflakeConnector

open Slice

variable {ρ : Type*}

namespace FetchRows

/-- What the operation reads of the result and of the connection config; `parse` is
`JSON.parse` with the brackets added. -/
structure Config (ρ : Type*) where
  parse : String → Option (List ρ)
  numChunks : Nat
  returnedRows : Nat
  resultPrefetch : Nat
  resultProcessingBatchSize : Int
  resultProcessingBatchDuration : Int
  resultStreamInterrupts : Nat

/-- A callback handed to `process.nextTick`. -/
inductive Tick (ρ : Type*)
  | read
  | processRows (rest : List (Row ρ))
  | streamClose
  | complete (err : Option Err)

/-- The turn under way: none, the subscribers of a chunk still to be told how its
load ended, or the loop of `processRows` with the rows left, the number of rows
since the start of the batch and the time of that start. -/
inductive Control (ρ : Type*)
  | idle
  | notifying (chunk : Nat) (err : Option Err) (left : Nat)
  | looping (rest : List (Row ρ)) (inBatch : Int) (startTime : Int) (chunk : Nat) (left : Nat)

/-- The operation and its statement: the chunks and the stream that reads them, the
window, the counters, the result error of the statement's context, the requests
for the result under way; then what has happened so far: the calls of `each` with
whether it returned false, the 'complete' events, the calls of `end`, and what was
thrown and caught by nobody but a logger. -/
structure State (ρ : Type*) where
  chunks : Chunks Unit ρ
  stream : ResultStream
  start : Int
  stop : Int
  numRowsProcessed : Nat
  control : Control ρ
  ticks : List (Tick ρ)
  resultError : Option Err
  numInterrupts : Nat
  refetching : Nat
  delivered : List (Row ρ × Bool)
  completed : List (Option Err)
  ended : List (Option Err)
  thrown : List Err

inductive Event (ρ : Type*)
  | ticked (k : Nat) (now : Int)
  | completed (chunk : Nat)
  | answered (chunk : Nat) (answer : Chunk.Answer)
  | refetched (answer : Except Err (Option (List (ChunkCfg ρ))))
  | notified (now : Int)
  | row (returnedFalse : Bool) (now : Int)
  | exhausted

namespace State

/-- `context.maxNumRowsToProcess`. -/
def maxNumRowsToProcess (s : State ρ) : Int := s.stop - s.start + 1

/-- `fetchRows`: without rows in the window the operation completes in the next tick;
otherwise the stream is read in the next tick. -/
def begin (cfg : Config ρ) (chunks : Chunks Unit ρ) (startIndex endIndex : Option Rat) :
    Except Err (State ρ) :=
  let start := Result.windowStart startIndex
  let stop := Result.windowEnd endIndex cfg.returnedRows
  let s : State ρ :=
    { chunks, stream := ⟨[], cfg.resultPrefetch, 0⟩, start, stop, numRowsProcessed := 0,
      control := .idle, ticks := [], resultError := none, numInterrupts := 0, refetching := 0,
      delivered := [], completed := [], ended := [], thrown := [] }
  if start > stop then .ok { s with ticks := [.complete none] }
  else
    (Result.findOverlappingChunks chunks.chunk start stop cfg.numChunks).map fun overlapping =>
      { s with stream := ⟨overlapping, cfg.resultPrefetch, 0⟩, ticks := [.read] }

/-- `resultStream.asyncClose()`. -/
def asyncClose (s : State ρ) : State ρ := { s with ticks := s.ticks ++ [.streamClose] }

/-- `resultStream.read()`, and the continue callback. -/
def read (s : State ρ) : State ρ :=
  match s.stream.doLoad () s.chunks with
  | none => s.asyncClose
  | some chunks => { s with chunks := chunks }

/-- The turn goes on with the subscribers left. -/
def notifying (chunk : Nat) (err : Option Err) (left : Nat) : Control ρ :=
  if left = 0 then .idle else .notifying chunk err left

/-- The end of `processRows`, after its loop. -/
def afterLoop (s : State ρ) (rest : List (Row ρ)) (stoppedProcessingRows : Bool)
    (chunk left : Nat) : State ρ :=
  let s := { s with control := notifying chunk none left }
  if rest.isEmpty || stoppedProcessingRows then
    if rest.isEmpty ∧ (s.numRowsProcessed : Int) ≠ s.maxNumRowsToProcess then s.read
    else s.asyncClose
  else s

/-- One turn of the loop: `each` has been called on the next row, and, if the batch
is full, the clock has been read. -/
def row (cfg : Config ρ) (s : State ρ) (returnedFalse : Bool) (now : Int) : Option (State ρ) :=
  match s.control with
  | .looping (r :: rest) inBatch startTime chunk left =>
      let s := { s with
        delivered := s.delivered ++ [(r, returnedFalse)]
        numRowsProcessed := s.numRowsProcessed + 1 }
      if returnedFalse then some (s.afterLoop rest true chunk left)
      else if inBatch + 1 ≥ cfg.resultProcessingBatchSize ∧
          now - startTime > cfg.resultProcessingBatchDuration then
        some ({ s with ticks := s.ticks ++ [Tick.processRows rest] }.afterLoop rest false chunk left)
      else some { s with control := .looping rest (inBatch + 1) startTime chunk left }
  | _ => none

/-- `processChunk`: cut the window's rows out of the chunk's and process them. -/
def processChunk (cfg : Config ρ) (s : State ρ) (i : Nat) (now : Int) (left : Nat) : State ρ :=
  let chunk := s.chunks.chunk i
  match chunk.getRows cfg.parse with
  | .error e => { s with thrown := s.thrown ++ [e], control := .idle }
  | .ok (chunk', rows?) =>
      let s := { s with chunks := s.chunks.update i fun _ => chunk' }
      match rows? with
      | none => { s with thrown := s.thrown ++ [Errors.typeError], control := .idle }
      | some rows =>
          let rows := slice rows (max chunk.startIndex s.start - chunk.startIndex)
            (min chunk.endIndex s.stop + 1 - chunk.startIndex)
          { s with control := .looping rows 0 now i left }

/-- A subscriber of a chunk is told: the stream unsubscribes, and emits 'data' or
'close'. -/
def notify (cfg : Config ρ) (s : State ρ) (now : Int) : Option (State ρ) :=
  match s.control with
  | .notifying i err (left + 1) =>
      let s := { s with chunks := s.chunks.update i (·.removeListener ()) }
      match err with
      | none =>
          let s := { s with stream := { s.stream with currChunk := s.stream.currChunk + 1 } }
          some (s.processChunk cfg i now left)
      | some e =>
          some { s with ticks := s.ticks ++ [.complete (some e)], control := notifying i err left }
  | _ => none

/-- The interruption can be repaired by a new result, and there are not too many. -/
def Retryable (cfg : Config ρ) (s : State ρ) (err : Option Err) : Prop :=
  Errors.isLargeResultSetError err = true ∧ err.bind (·.statusCode) = some 403 ∧
    s.numInterrupts < cfg.resultStreamInterrupts

instance (cfg : Config ρ) (s : State ρ) (err : Option Err) : Decidable (Retryable cfg s err) :=
  inferInstanceAs (Decidable (_ ∧ _ ∧ _))

/-- The subscriber of the operation's 'complete' event: ask for the result again, or
end with the result error of the context. -/
def onComplete (cfg : Config ρ) (s : State ρ) (err : Option Err) : State ρ :=
  let s := { s with completed := s.completed ++ [err] }
  if Retryable cfg s err then
    { s with numInterrupts := s.numInterrupts + 1, refetching := s.refetching + 1 }
  else { s with ended := s.ended ++ [Errors.externalize s.resultError] }

def runTick (cfg : Config ρ) (s : State ρ) (now : Int) : Tick ρ → State ρ
  | .read => s.read
  | .processRows rest => { s with control := .looping rest 0 now 0 0 }
  | .streamClose => { s with ticks := s.ticks ++ [.complete none] }
  | .complete err => s.onComplete cfg err

/-- `completeLoad`: the chunk is done loading, and its subscribers at that time are
going to be told. -/
def completeLoad (s : State ρ) (i : Nat) (err : Option Err) : State ρ :=
  let left := (s.chunks.chunk i).listeners.length
  { s with chunks := s.chunks.update i Chunk.doneLoading, control := notifying i err left }

/-- The statement has the answer to its request for the result: `onStatementRequestComp`
keeps its error, or refreshes the result and keeps what that throws; without an
error in the answer the operation goes on. -/
def onRefetched (cfg : Config ρ) (s : State ρ) (answer : Except Err (Option (List (ChunkCfg ρ)))) :
    State ρ :=
  match answer with
  | .error e => { s with resultError := some e }
  | .ok chunkCfgs =>
      let refreshed := s.chunks.refresh cfg.numChunks chunkCfgs
      { s with chunks := refreshed.1, resultError := refreshed.2 }.read

/-- Only the event loop is running. -/
def Idle (s : State ρ) : Prop :=
  match s.control with
  | .idle => True
  | _ => False

instance (s : State ρ) : Decidable s.Idle := by
  unfold Idle
  cases s.control <;> infer_instance

def step (cfg : Config ρ) (s : State ρ) : Event ρ → Option (State ρ)
  | .ticked k now =>
      if s.Idle then
        s.ticks[k]?.map fun tick => { s with ticks := s.ticks.eraseIdx k }.runTick cfg now tick
      else none
  | .completed i =>
      if s.Idle ∧ 0 < (s.chunks.chunk i).scheduled then
        some ({ s with chunks := s.chunks.update i Chunk.untick }.completeLoad i none)
      else none
  | .answered i answer =>
      if s.Idle ∧ 0 < (s.chunks.chunk i).requested then
        some ({ s with chunks := s.chunks.update i (Chunk.store answer) }.completeLoad i answer.err)
      else none
  | .refetched answer =>
      if s.Idle ∧ 0 < s.refetching then
        some ({ s with refetching := s.refetching - 1 }.onRefetched cfg answer)
      else none
  | .notified now => s.notify cfg now
  | .row returnedFalse now => s.row cfg returnedFalse now
  | .exhausted =>
      match s.control with
      | .looping [] _ _ chunk left => some (s.afterLoop [] false chunk left)
      | _ => none

end State

end FetchRows

end SnowflakeConnector
