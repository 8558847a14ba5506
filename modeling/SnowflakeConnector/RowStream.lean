import SnowflakeConnector.Lts
import SnowflakeConnector.Result.Overlap
import SnowflakeConnector.ResultStream

/-!
# SnowflakeConnector.RowStream

`lib/connection/result/row_stream.js`: the readable streams of rows that are open on
a statement with a result, with `context.refresh` of `lib/connection/statement.js`.

The streams share the chunks of the result and the statement's context, so the
state holds all of them, each under its name in `ι`, and an event names the stream
it belongs to.  One event is one turn of the event loop.  A stream is read under
Node's contract: `_read` is called again only after the previous call led to a
push, never from inside a push, and not after the end marker.
-/

namespace SnowflakeConnector

open Slice

variable {ι ρ ε : Type*}

/-- A callback handed to `process.nextTick`; `pushRow` is the one of
`processRowBuffer` with the row it captured, `undefined` being `none`, and
`resultStreamClose` the one of the result stream's `asyncClose`. -/
inductive RowStream.Tick (ρ : Type*)
  | init
  | pushRow (row : Option (Row ρ))
  | resultStreamClose
  | close

/-- A row stream.  `subscribed` says whether it listens to its result stream, and
`reading` whether the last call of `_read` is still to lead to a push; a row in the
row buffer is `null` once it was pushed, and the end marker is a pushed `null`. -/
structure RowStream (ρ ε : Type*) where
  startOption : Option Rat
  endOption : Option Rat
  start : Int
  stop : Int
  resultStream : Option ResultStream
  subscribed : Bool
  numResultStreamInterrupts : Nat
  rowBuffer : Option (List (Option (Row ρ)))
  rowIndex : Nat
  initialized : Bool
  previousChunk : Option Nat
  ticks : List (RowStream.Tick ρ)
  refreshing : Nat
  reading : Bool
  pushed : List (Option ε)
  errors : List Err

namespace RowStream

/-- What the streams read of the result, the statement and the connection config:
`parse` is `JSON.parse` with the brackets added, and `externalizeRow` is `none` when
a conversion throws. -/
structure Config (ρ ε : Type*) where
  parse : String → Option (List ρ)
  parse_empty : parse "" = some []
  externalizeRow : Row ρ → Option ε
  numChunks : Nat
  returnedRows : Nat
  resultPrefetch : Nat
  resultStreamInterrupts : Nat

/-- A stream that was just created. -/
def create (startOption endOption : Option Rat) : RowStream ρ ε where
  startOption
  endOption
  start := 0
  stop := 0
  resultStream := none
  subscribed := false
  numResultStreamInterrupts := 0
  rowBuffer := none
  rowIndex := 0
  initialized := false
  previousChunk := none
  ticks := []
  refreshing := 0
  reading := false
  pushed := []
  errors := []

section

variable (s : RowStream ρ ε)

def push (x : Option ε) : RowStream ρ ε := { s with pushed := s.pushed ++ [x], reading := false }

/-- Takes the next row out of the row buffer and schedules its push. -/
def processRowBuffer : RowStream ρ ε :=
  match s.rowBuffer with
  | none => s
  | some rowBuffer =>
      let row := (rowBuffer[s.rowIndex]?).join
      let s := { s with ticks := s.ticks ++ [Tick.pushRow row] }
      if s.rowIndex + 1 = rowBuffer.length then { s with rowBuffer := none, rowIndex := 0 }
      else { s with rowIndex := s.rowIndex + 1 }

end

/-- The loop that pushes rows until `push` returns false: what is pushed, the number
of rows taken, and whether the last of them threw.  `answers` is what the calls of
`push` return, `true` when it is exhausted. -/
def pushLoop (externalizeRow : Row ρ → Option ε) :
    List (Option (Row ρ)) → List Bool → List (Option ε) × Nat × Bool
  | [], _ => ([], 0, false)
  | row :: rows, answers =>
      match row.bind externalizeRow with
      | none => ([], 1, true)
      | some x =>
          if answers.headD true then
            let rest := pushLoop externalizeRow rows answers.tail
            (some x :: rest.1, rest.2.1 + 1, rest.2.2)
          else ([some x], 1, false)

/-- The callback of `processRowBuffer`, with what it throws. -/
def pushRow (cfg : Config ρ ε) (s : RowStream ρ ε) (row : Option (Row ρ)) (answers : List Bool) :
    RowStream ρ ε × Option Err :=
  let single := match row.bind cfg.externalizeRow with
    | none => (s, some Errors.typeError)
    | some x => (s.push (some x), none)
  match s.rowBuffer with
  | none => single
  | some rowBuffer =>
      if s.rowIndex = 0 then single
      else
        let rowIndex := s.rowIndex - 1
        let looped := pushLoop cfg.externalizeRow (rowBuffer.drop rowIndex) answers
        let nulled := rowBuffer.take rowIndex ++ List.replicate looped.2.1 none ++
          rowBuffer.drop (rowIndex + looped.2.1)
        let s := { s with
          rowBuffer := some nulled
          rowIndex := rowIndex + looped.2.1
          pushed := s.pushed ++ looped.1
          reading := s.reading && looped.1.isEmpty }
        if looped.2.2 then (s, some Errors.typeError)
        else if s.rowIndex = rowBuffer.length then ({ s with rowBuffer := none, rowIndex := 0 }, none)
        else (s, none)

/-- Determines if a result stream error is retryable. -/
def isResultStreamErrorRetryable (error : Option Err) : Bool :=
  (Errors.isLargeResultSetError error && error.bind (·.statusCode) == some 403) ||
    (error.any fun e => e.code == .str "ECONNRESET" || e.code == .str "ETIMEDOUT")

/-- The streams of a statement, the chunks of its result and the result error of its
context; `thrown` is what was thrown and caught by nobody but a logger. -/
structure State (ι ρ ε : Type*) where
  chunks : Chunks ι ρ
  streams : ι → RowStream ρ ε
  resultError : Option Err
  thrown : List Err

inductive Event (ι ρ : Type*)
  | read (i : ι)
  | ticked (i : ι) (k : Nat) (answers : List Bool)
  | completed (chunk : Nat)
  | answered (chunk : Nat) (answer : Chunk.Answer)
  | refreshed (i : ι) (answer : Except Err (Option (List (ChunkCfg ρ))))

namespace State

/-- Streams opened on a result, with the options of each. -/
def create (chunks : Chunks ι ρ) (options : ι → Option Rat × Option Rat) : State ι ρ ε where
  chunks
  streams i := .create (options i).1 (options i).2
  resultError := none
  thrown := []

variable [DecidableEq ι]

section

variable (cfg : Config ρ ε) (s : State ι ρ ε) (i : ι)

/-- Change one stream. -/
def update (f : RowStream ρ ε → RowStream ρ ε) : State ι ρ ε :=
  { s with streams := Function.update s.streams i (f (s.streams i)) }

/-- `previousChunk.clearRows()`, if there is a previous chunk and it is not `chunk`. -/
def clearPrevious (chunk : Option Nat) : State ι ρ ε :=
  match (s.streams i).previousChunk with
  | none => s
  | some previous =>
      if chunk = some previous then s
      else { s with chunks := s.chunks.update previous (·.clearRows false) }

/-- Closes the row stream. -/
def close (err : Option Err) : State ι ρ ε :=
  (s.clearPrevious i none).update i fun st =>
    let st := { st with
      subscribed := false
      rowBuffer := none
      rowIndex := 0
      resultStream := none
      numResultStreamInterrupts := 0
      previousChunk := none }
    match err with
    | some e => { st with errors := st.errors ++ (Errors.externalize (some e)).toList }
    | none => st.push none

/-- The result stream's `doLoad`: it closes when there is no chunk left. -/
def doLoad : State ι ρ ε :=
  match (s.streams i).resultStream with
  | none => s
  | some resultStream =>
      match resultStream.doLoad i s.chunks with
      | none => s.update i fun st => { st with ticks := st.ticks ++ [.resultStreamClose] }
      | some chunks => { s with chunks := chunks }

/-- Called when we're ready to read the next row in the result; `none` stands for a
result stream that is `null`. -/
def readNextRow : State ι ρ ε :=
  if (s.streams i).rowBuffer.isSome then s.update i processRowBuffer
  else if (s.streams i).resultStream.isNone then { s with thrown := s.thrown ++ [Errors.typeError] }
  else (s.update i fun st => { st with subscribed := true }).doLoad i

/-- Initializes this stream. -/
def init : State ι ρ ε :=
  let start := Result.windowStart (s.streams i).startOption
  let stop := Result.windowEnd (s.streams i).endOption cfg.returnedRows
  let s := s.update i fun st => { st with initialized := true, start := start, stop := stop }
  match Result.findOverlappingChunks s.chunks.chunk start stop cfg.numChunks with
  | .error e => { s with thrown := s.thrown ++ [e] }
  | .ok overlapping =>
      if overlapping = [] ∨ start > stop then
        s.update i fun st => { st with ticks := st.ticks ++ [.close] }
      else
        (s.update i fun st => { st with
          resultStream := some ⟨overlapping, cfg.resultPrefetch, 0⟩ }).readNextRow i

/-- Called when the result stream reads a new chunk, with what it throws. -/
def onResultStreamData (chunk : Nat) : State ι ρ ε × Option Err :=
  let s := s.update i fun st => { st with subscribed := false }
  let s := (s.clearPrevious i (some chunk)).update i fun st => { st with previousChunk := some chunk }
  let c := s.chunks.chunk chunk
  let st := s.streams i
  match c.getRows cfg.parse with
  | .error e => (s, some e)
  | .ok (c', rows?) =>
      let s := { s with chunks := s.chunks.update chunk fun _ => c' }
      match rows? with
      | none => (s, some Errors.typeError)
      | some rows =>
          let rows := slice rows (max c.startIndex st.start - c.startIndex)
            (min c.endIndex st.stop + 1 - c.startIndex)
          (s.update i fun st =>
            processRowBuffer { st with rowBuffer := some (rows.map some), rowIndex := 0 }, none)

/-- Called when there are no more chunks to read in the result stream or an error is
encountered while trying to read the next chunk. -/
def onResultStreamClose (err : Option Err) : State ι ρ ε :=
  let st := s.streams i
  if isResultStreamErrorRetryable err = true ∧
      st.numResultStreamInterrupts < cfg.resultStreamInterrupts then
    s.update i fun st => { st with
      numResultStreamInterrupts := st.numResultStreamInterrupts + 1
      refreshing := st.refreshing + 1 }
  else s.close i err

/-- The result stream is told how the load of a chunk ended. -/
def onLoadComplete (chunk : Nat) (err : Option Err) : State ι ρ ε × Option Err :=
  let s := { s with chunks := s.chunks.update chunk (·.removeListener i) }
  match err with
  | none =>
      let s := s.update i fun st => { st with
        resultStream := st.resultStream.map fun rs => { rs with currChunk := rs.currChunk + 1 } }
      if (s.streams i).subscribed then s.onResultStreamData cfg i chunk else (s, none)
  | some e =>
      if (s.streams i).subscribed then (s.onResultStreamClose cfg i (some e), none) else (s, none)

end

/-- Emit `loadcomplete` to the listeners, until one of them throws. -/
def emit (cfg : Config ρ ε) (chunk : Nat) (err : Option Err) : List ι → State ι ρ ε → State ι ρ ε
  | [], s => s
  | i :: is, s =>
      match s.onLoadComplete cfg i chunk err with
      | (s, none) => emit cfg chunk err is s
      | (s, some e) => { s with thrown := s.thrown ++ [e] }

/-- `completeLoad`. -/
def completeLoad (cfg : Config ρ ε) (s : State ι ρ ε) (chunk : Nat) (err : Option Err) : State ι ρ ε :=
  let s := { s with chunks := s.chunks.update chunk Chunk.doneLoading }
  s.emit cfg chunk err (s.chunks.chunk chunk).listeners

def runTick (cfg : Config ρ ε) (s : State ι ρ ε) (i : ι) (answers : List Bool) :
    Tick ρ → State ι ρ ε
  | .init => s.init cfg i
  | .pushRow row =>
      let result := (s.streams i).pushRow cfg row answers
      { s.update i fun _ => result.1 with thrown := s.thrown ++ result.2.toList }
  | .resultStreamClose => if (s.streams i).subscribed then s.onResultStreamClose cfg i none else s
  | .close => s.close i none

/-- The statement has the answer to the request of `context.refresh`: it keeps the
error, or refreshes the result and keeps what that throws; then the stream is
closed with the result error, or continued. -/
def onRefreshed (cfg : Config ρ ε) (s : State ι ρ ε) (i : ι)
    (answer : Except Err (Option (List (ChunkCfg ρ)))) : State ι ρ ε :=
  let s := match answer with
    | .error e => { s with resultError := some e }
    | .ok chunkCfgs =>
        let refreshed := s.chunks.refresh cfg.numChunks chunkCfgs
        { s with chunks := refreshed.1, resultError := refreshed.2 }
  if s.resultError.isSome then s.close i s.resultError else s.doLoad i

/-- `_read`: the next row is read at once, or after the initialization. -/
def read (s : State ι ρ ε) (i : ι) : State ι ρ ε :=
  let s := s.update i fun st => { st with reading := true }
  if (s.streams i).initialized then s.readNextRow i
  else s.update i fun st => { st with ticks := st.ticks ++ [.init] }

def step (cfg : Config ρ ε) (s : State ι ρ ε) : Event ι ρ → Option (State ι ρ ε)
  | .read i =>
      if (s.streams i).reading = false ∧ (s.streams i).pushed.all Option.isSome then some (s.read i)
      else none
  | .ticked i k answers =>
      (s.streams i).ticks[k]?.map fun tick =>
        (s.update i fun st => { st with ticks := st.ticks.eraseIdx k }).runTick cfg i answers tick
  | .completed c =>
      if 0 < (s.chunks.chunk c).scheduled then
        some ({ s with chunks := s.chunks.update c Chunk.untick }.completeLoad cfg c none)
      else none
  | .answered c answer =>
      if 0 < (s.chunks.chunk c).requested then
        some ({ s with chunks := s.chunks.update c (Chunk.store answer) }.completeLoad cfg c answer.err)
      else none
  | .refreshed i answer =>
      if 0 < (s.streams i).refreshing then
        some ((s.update i fun st => { st with refreshing := st.refreshing - 1 }).onRefreshed cfg i answer)
      else none

end State

end RowStream

end SnowflakeConnector
