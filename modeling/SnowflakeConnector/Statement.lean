import SnowflakeConnector.RowStream.Deliver

/-!
# SnowflakeConnector.Statement

One statement of `lib/connection/statement.js`, from `execute` or `fetchResult` to the
call of its complete callback: the upload of stage binds, the requests with their polls,
the transfer of a file command, and the stream that aggregates the rows.

A statement that nobody else uses comes back to one thing at a time, so the state holds
what it waits for, with the streams of `SnowflakeConnector.RowStream` once the rows are
read.

* `Fetched` -- a result with its chunks, as the server describes it;
* `step` -- one turn of the event loop.
-/

namespace SnowflakeConnector

open Slice Result

variable {ρ ε : Type*}

namespace Statement

/-! ## options -/

/-- An element of `binds`: `null`, an array with its length, or anything else. -/
inductive Bind
  | null
  | scalar
  | array (length : Nat)
  deriving DecidableEq, Repr

/-- Count number of bindings. -/
def countBinding (binds : List Bind) : Nat :=
  (binds.map fun
    | .array length => length
    | _ => 0).sum

/-- `buildBindsMap` throws: with rows in the first place it looks into every element. -/
def bindsMapThrows (binds : List Bind) : Bool :=
  match binds.head? with
  | some (.array length) => 0 < length && binds.contains .null
  | _ => false

/-- The kinds of statement objects. -/
inductive Kind
  | row
  | stage
  | file
  | postExec
  deriving DecidableEq, Repr

/-- The options of a statement with what it reads of the connection config; `fetchResult` is the
query id of a result that is fetched, and `isFileCommand` says that the text is PUT or GET. -/
structure Options where
  fetchResult : Option String
  requestId : String
  isFileCommand : Bool
  binds : List Bind
  threshold : Nat
  streamResult : Bool
  asyncExec : Bool

/-- `createStatementPreExec`, and `createStatementPostExec` for a result that is fetched. -/
def Options.kind (o : Options) : Kind :=
  if o.fetchResult.isSome then .postExec
  else if o.isFileCommand then .file
  else if countBinding o.binds > o.threshold then .stage
  else .row

/-- `context.asyncExec`, which a result that is fetched does not have. -/
def Options.isAsync (o : Options) : Bool := o.asyncExec && o.fetchResult.isNone

/-- The rows are put together for the complete callback. -/
def Options.aggregates (o : Options) : Bool := !o.streamResult && !o.isAsync

/-- The complete callback is not told of the result error. -/
def Options.ignoresErrors (o : Options) : Bool := !o.streamResult && o.isAsync

/-! ## answers -/

/-- A result: the configuration of its streams, its rows chunk by chunk, and its chunks, none of
them empty or loading and each to be filled with its rows, all of which can be externalized. -/
structure Fetched (ρ ε : Type*) where
  cfg : RowStream.Config ρ ε
  blocks : List (List ρ)
  chunks : Chunks Unit ρ
  numChunks : cfg.numChunks = blocks.length
  returnedRows : cfg.returnedRows = blocks.flatten.length
  rows_ne : ∀ block ∈ blocks, block ≠ []
  sound : chunks.Sound cfg.parse blocks
  kept : chunks.Kept blocks.length
  listeners : ∀ j, (chunks.chunk j).listeners = []
  externalizes : ∀ row ∈ allRows blocks, (cfg.externalizeRow row).isSome = true

/-- What `sf.request` tells the callback of `buildResultRequestCallback`: an error with the query
id of its data, that the query is in progress (`detached` for the second of the two codes), or a
response with a result; `chunkCfgs` are its chunk configs, as a refresh reads them. -/
inductive Answer (ρ ε : Type*)
  | error (err : Err) (queryId : Option String)
  | inProgress (detached : Bool) (queryId getResultUrl : String)
  | success (queryId : String) (fetched : Fetched ρ ε) (chunkCfgs : Option (List (ChunkCfg ρ)))

/-! ## the state -/

/-- A request that is out; `latest` is the `getResultUrl` of the last answer in progress. -/
structure Request where
  url : String
  latest : Option String
  deriving DecidableEq, Repr

/-- `context.result`. -/
inductive Obtained (ρ ε : Type*)
  | queryId (queryId : String)
  | rows (fetched : Fetched ρ ε)

/-- What a statement waits for: the upload of its binds, the answer to its request, the file
transfer, the callback that creates the aggregating stream, `init` in the next tick, the answer to
`context.refresh(init)`, or the stream, with the request of a refresh that continues it. -/
inductive Awaited (ρ ε : Type*)
  | upload
  | answer (request : Request)
  | transfer
  | aggregate
  | init
  | refresh (request : Request)
  | rows (streams : RowStream.State Unit ρ ε) (request : Option Request)

/-- A call of the complete callback, with the rows if it gets any. -/
structure Completion (ε : Type*) where
  err : Option Err
  rows : Option (List ε)
  deriving DecidableEq, Repr

/-- A statement: what it waits for, and what it keeps in its context; `completed` are the calls of
its complete callback. -/
structure State (ρ ε : Type*) where
  awaited : Option (Awaited ρ ε)
  queryId : Option String
  result : Option (Obtained ρ ε)
  resultError : Option Err
  completed : List (Completion ε)

namespace State

variable (o : Options) (s : State ρ ε)

@[simps] def await (awaited : Awaited ρ ε) : State ρ ε := { s with awaited := some awaited }

/-- Call the complete callback. -/
@[simps] def complete (err : Option Err) (rows : Option (List ε)) : State ρ ε :=
  { s with awaited := none, completed := s.completed ++ [⟨err, rows⟩] }

/-! ### requests -/

def queryRequestUrl : String := "/queries/v1/query-request?requestId=" ++ o.requestId

def queryResultUrl (queryId : String) : String :=
  "/queries/" ++ queryId ++ "/result?disableOfflineChunks=false"

/-- `sendRequestPreExec`. -/
def sendRequestPreExec : Request := ⟨queryRequestUrl o, none⟩

/-- Pick the function that gets the result again. -/
def refreshRequest : Request :=
  match s.queryId.filter (· ≠ "") with
  | some queryId => ⟨queryResultUrl queryId, none⟩
  | none => sendRequestPreExec o

/-! ### completion -/

/-- `invokeStatementComplete`. -/
def invokeStatementComplete : State ρ ε :=
  if o.streamResult then s.complete s.resultError none
  else if o.isAsync then s.complete none none
  else s.await .aggregate

/-- The branch of `onStatementRequestComp` for an error. -/
def failed (err : Err) (queryId : Option String) : State ρ ε :=
  { s with
    resultError := some err
    queryId := if Errors.isOperationFailedError (some err) ∧ (s.queryId.filter (· ≠ "")).isNone
      then queryId else s.queryId }

/-- Its branch for a result. -/
def succeeded (result : Obtained ρ ε) : State ρ ε :=
  { s with resultError := none, result := some result }

/-- The answer to the first request, and to the polls that follow it. -/
def onAnswer : Answer ρ ε → State ρ ε
  | .error err queryId => (s.failed err queryId).invokeStatementComplete o
  | .inProgress detached queryId getResultUrl =>
      let s := { s with queryId := some queryId }
      if o.isAsync then
        if o.kind = .file then s.await .transfer
        else if detached then (s.succeeded (.queryId queryId)).invokeStatementComplete o
        -- a result is built of a response without row types
        else { s with resultError := some Errors.typeError }.invokeStatementComplete o
      else s.await (.answer ⟨getResultUrl, some getResultUrl⟩)
  | .success queryId fetched _ =>
      let s := { s with queryId := some queryId }
      if o.kind = .file then s.await .transfer
      else (s.succeeded (.rows fetched)).invokeStatementComplete o

/-- `executeFileTransferRequest` has made a result, or thrown. -/
def onTransferred : Except Err (Fetched ρ ε) → State ρ ε
  | .ok fetched => (s.succeeded (.rows fetched)).invokeStatementComplete o
  | .error err => { s with resultError := some err }.invokeStatementComplete o

/-! ### the aggregating stream -/

/-- Determines if a statement error is fatal. -/
def isStatementErrorFatal : Bool :=
  match s.resultError with
  | none => false
  | some err =>
      (Errors.isOperationFailedError (some err) && err.sqlState.any (· ≠ "")) || o.kind = .file

/-- The stream that was just created is read. -/
def opened (fetched : Fetched ρ ε) : RowStream.State Unit ρ ε :=
  (RowStream.State.create fetched.chunks fun _ => (none, none)).read ()

/-- `init` at once, on a stream that is being read. -/
def initialized (fetched : Fetched ρ ε) : RowStream.State Unit ρ ε :=
  ((opened fetched).update () fun stream => { stream with ticks := [] }).init fetched.cfg ()

/-- `streamRows` and the first `_read`. -/
def aggregate : State ρ ε :=
  match s.result with
  | some (.rows fetched) => s.await (.rows (opened fetched) none)
  | some (.queryId _) => { s with awaited := none }
  | none =>
      if s.isStatementErrorFatal o then s.await .init
      else s.await (.refresh (s.refreshRequest o))

/-- `init` without a result closes the stream. -/
def closeUnread : State ρ ε :=
  match s.resultError with
  | some err => s.complete (Errors.externalize (some err)) none
  | none => s.complete none (some [])

/-- What the stream did: it emitted an error, or it may have asked for a refresh. -/
def observe (streams : RowStream.State Unit ρ ε) (request : Option Request) : State ρ ε :=
  match (streams.streams ()).errors with
  | err :: _ => s.complete (Errors.externalize (some err)) none
  | [] =>
      s.await (.rows streams
        (if 0 < (streams.streams ()).refreshing ∧ request = none then some (s.refreshRequest o)
        else request))

/-- The answer to `context.refresh(init)`; the complete callback is not invoked a second time. -/
def onRefresh : Answer ρ ε → State ρ ε
  | .error err queryId => (s.failed err queryId).closeUnread
  | .inProgress _ queryId getResultUrl =>
      { s with queryId := some queryId }.await (.refresh ⟨getResultUrl, some getResultUrl⟩)
  | .success queryId fetched _ =>
      ({ s with queryId := some queryId }.succeeded (.rows fetched)).observe o (initialized fetched) none

/-- The answer to the refresh that continues the stream. -/
def onContinue (fetched : Fetched ρ ε) (streams : RowStream.State Unit ρ ε) :
    Answer ρ ε → Option (State ρ ε)
  | .error err queryId =>
      (streams.step fetched.cfg (.refreshed () (.error err))).map fun streams =>
        (s.failed err queryId).observe o streams none
  | .inProgress _ queryId getResultUrl =>
      some ({ s with queryId := some queryId }.await
        (.rows streams (some ⟨getResultUrl, some getResultUrl⟩)))
  | .success queryId _ chunkCfgs =>
      (streams.step fetched.cfg (.refreshed () (.ok chunkCfgs))).map fun streams =>
        { s with queryId := some queryId, resultError := streams.resultError }.observe o streams none

end State

open State

/-! ## the event loop -/

/-- What comes back: the upload, with or without success, an answer of the server, the file
transfer, a `nextTick` callback of the statement, something the stream waits for, or `end`. -/
inductive Event (ρ ε : Type*)
  | uploaded (ok : Bool)
  | answered (answer : Answer ρ ε)
  | transferred (result : Except Err (Fetched ρ ε))
  | ticked
  | streamed (e : RowStream.Event Unit ρ)
  | ended

/-- The stream goes on by itself; its refreshes are answered by the server. -/
def ownEvent : RowStream.Event Unit ρ → Bool
  | .refreshed _ _ => false
  | _ => true

def step (o : Options) (s : State ρ ε) (e : Event ρ ε) : Option (State ρ ε) :=
  match s.awaited, e with
  | some .upload, .uploaded ok =>
      -- the inline fallback throws where nobody catches it
      if ok = false ∧ bindsMapThrows o.binds then some { s with awaited := none }
      else some (s.await (.answer (sendRequestPreExec o)))
  | some (.answer _), .answered answer => some (s.onAnswer o answer)
  | some .transfer, .transferred result => some (s.onTransferred o result)
  | some .aggregate, .ticked => some (s.aggregate o)
  | some .init, .ticked => some s.closeUnread
  | some (.refresh _), .answered answer => some (s.onRefresh o answer)
  | some (.rows streams request), e =>
      match s.result with
      | some (.rows fetched) =>
          match e with
          | .streamed e =>
              if ownEvent e then
                (streams.step fetched.cfg e).map fun streams => s.observe o streams request
              else none
          | .answered answer =>
              if request.isSome then s.onContinue o fetched streams answer else none
          | .ended =>
              if (streams.streams ()).pushed.any Option.isNone then
                some (s.complete none (some (streams.streams ()).pushed.reduceOption))
              else none
          | _ => none
      | _ => none
  | _, _ => none

/-- `execute` or `fetchResult`; without a stage the binds map is built at once, and what that
throws goes to the caller. -/
def create (o : Options) : Option (State ρ ε) :=
  match o.fetchResult with
  | some queryId =>
      some ⟨some (.answer ⟨queryResultUrl queryId, none⟩), some queryId, none, none, []⟩
  | none =>
      if o.kind = .stage then some ⟨some .upload, none, none, none, []⟩
      else if bindsMapThrows o.binds then none
      else some ⟨some (.answer (sendRequestPreExec o)), none, none, none, []⟩

end Statement

end SnowflakeConnector
