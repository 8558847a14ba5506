import SnowflakeConnector.Statement.Complete

/-!
# SnowflakeConnector.Statement.Batch

The results of a multi-statement batch of `lib/connection/statement.js`, walked by
`NextResult`.

The statement that was executed has no result of its own.  Its success creates a
statement for the first result, and every call of `NextResult` moves the context of the
statement called on to the next id, and creates a statement from a copy of it; the
statements share the complete callback.

* `onBatch` -- the answer that lists the results;
* `step` -- one turn of the event loop, or a call of the client;
* `walks_iff_along` -- the runs in which the results are walked one by one.
-/

namespace SnowflakeConnector

open Slice Result

variable {ρ ε : Type*}

namespace Statement

namespace Batch

/-! ## options -/

/-- The options of the statement that was executed, and the `resultIds` of its answer; a statement
that is executed by its request id need not have a text. -/
structure Options where
  requestId : String
  sqlText : Option (List Char)
  streamResult : Bool
  resultIds : List Char
  nonempty : resultIds ≠ []

namespace Options

variable (o : Options)

/-- `context.multiResultIds`. -/
def multiResultIds : List String := (o.resultIds.splitOn ',').map String.ofList

/-- `context.multiSqlTexts`. -/
def multiSqlTexts : List String :=
  match o.sqlText with
  | some sqlText => (sqlText.splitOn ';').map String.ofList
  | none => []

/-- The options of the statement that was executed, which is not a file command. -/
def preExec : Statement.Options :=
  ⟨none, o.requestId, false, [], 0, o.streamResult, false⟩

/-- Those of a statement that gets a result. -/
def postExec (queryId : String) : Statement.Options :=
  ⟨some queryId, "", false, [], 0, o.streamResult, false⟩

end Options

/-! ## the state -/

/-- A statement that `createStatementPostExec` has made: the id whose result it requested, and what
its context has of the batch besides its `queryId`. -/
structure Member (ρ ε : Type*) where
  requested : String
  sqlText : Option String
  multiCurId : Nat
  statement : Statement.State ρ ε

/-- A call of the complete callback: the id that the statement passed to it has requested, `none` of
the statement that was executed, which has neither `hasNext` nor `NextResult`. -/
structure Report (ε : Type*) where
  requested : Option String
  completion : Completion ε
  deriving DecidableEq, Repr

/-- The statement that was executed, the one created last, the ids whose results were requested, and
the calls of the complete callback. -/
structure State (ρ ε : Type*) where
  parent : Statement.State ρ ε
  member : Option (Member ρ ε)
  requests : List String
  completed : List (Report ε)

variable (o : Options)

/-- The statement with the context is created, unless there is no query id. -/
def createStatementPostExec (queryId sqlText : Option String) (multiCurId : Nat) :
    Option (Member ρ ε) :=
  queryId.bind fun queryId => (Statement.create (o.postExec queryId)).map fun statement =>
    ⟨queryId, sqlText, multiCurId, statement⟩

/-- The calls of the complete callback by which `t` goes further than `s`. -/
def reports (requested : Option String) (s t : Statement.State ρ ε) : List (Report ε) :=
  (t.completed.drop s.completed.length).map (⟨requested, ·⟩)

/-- `hasNext`. -/
def hasNextResult (m : Member ρ ε) : Bool := m.multiCurId + 1 < o.multiResultIds.length

/-- The answer with the ids of the results comes to the statement that was executed. -/
def onBatch : State ρ ε :=
  match o.sqlText with
  | some _ =>
      let queryId := o.multiResultIds[0]?
      let parent := Statement.State.invokeStatementComplete o.preExec
        ⟨none, queryId, none, none, []⟩
      { parent
        member := createStatementPostExec o queryId o.multiSqlTexts[0]? 0
        requests := queryId.toList
        completed := parent.completed.map (⟨none, ·⟩) }
  | none =>
      -- there is nothing to split
      let parent := Statement.State.invokeStatementComplete o.preExec
        ⟨none, none, none, some Errors.typeError, []⟩
      { parent
        member := none
        requests := []
        completed := parent.completed.map (⟨none, ·⟩) }

/-- `NextResult`: whether there is one is not asked, and without a query id the creation throws. -/
def nextResult (s : State ρ ε) (m : Member ρ ε) : State ρ ε :=
  let multiCurId := m.multiCurId + 1
  let queryId := o.multiResultIds[multiCurId]?
  let sqlText := o.multiSqlTexts[multiCurId]?
  match createStatementPostExec o queryId sqlText multiCurId with
  | some next => { s with member := some next, requests := s.requests ++ queryId.toList }
  | none =>
      { s with member := some { m with sqlText, multiCurId, statement.queryId := queryId } }

/-! ## the event loop -/

/-- A turn of the event loop for one statement of the batch, or a call of `NextResult` on the
statement that was completed last. -/
inductive Event (ρ ε : Type*)
  | parent (e : Statement.Event ρ ε)
  | member (e : Statement.Event ρ ε)
  | nextResult

/-- The first `_read` of the aggregating stream has nothing to read, and as the statement belongs to
a batch it does not get the result again. -/
def readsNothing (o : Statement.Options) (s : Statement.State ρ ε) (e : Statement.Event ρ ε) :
    Bool :=
  match s.awaited, e with
  | some .aggregate, .ticked => s.result.isNone && !s.isStatementErrorFatal o
  | _, _ => false

/-- What a statement of the batch does. -/
def stepStatement (o : Statement.Options) (s : Statement.State ρ ε) (e : Statement.Event ρ ε) :
    Option (Statement.State ρ ε) :=
  if readsNothing o s e then some { s with awaited := none } else Statement.step o s e

def step (s : State ρ ε) : Event ρ ε → Option (State ρ ε)
  | .parent e =>
      (stepStatement o.preExec s.parent e).map fun t =>
        { s with parent := t, completed := s.completed ++ reports none s.parent t }
  | .member e =>
      s.member.bind fun m => (stepStatement (o.postExec m.requested) m.statement e).map fun t =>
        { s with
          member := some { m with statement := t }
          completed := s.completed ++ reports (some m.requested) m.statement t }
  | .nextResult =>
      (s.member.filter (·.statement.completed ≠ [])).map (nextResult o s)

/-! ## the walk -/

/-- A statement waits for its result. -/
def State.waits (s : State ρ ε) : Bool := s.member.any (·.statement.awaited.isSome)

/-- The results were visited in order from the first one, and the callback was called once for each,
the last one apart while its statement waits, with the statement that reads it. -/
structure State.Sound (s : State ρ ε) : Prop where
  starts : s.requests ≠ []
  visited : s.requests <+: o.multiResultIds
  once : s.requests.length = s.completed.length + (if s.waits then 1 else 0)
  inOrder : s.completed.map Report.requested = (s.requests.take s.completed.length).map some
  settles : (∀ e, step o s (.member e) = none) → s.waits = false

/-- Where the client is in the batch: the current id and the text of the statement that it has. -/
def Member.position (m : Member ρ ε) : Nat × Option String × Option String :=
  (m.multiCurId, m.statement.queryId, m.sqlText)

/-- A call of `NextResult` without a next result moves nothing and requests nothing. -/
def Unmoved (s : State ρ ε) (e : Event ρ ε) (t : State ρ ε) : Prop :=
  match e, s.member with
  | .nextResult, some m =>
      hasNextResult o m = false →
        t.member.map Member.position = some m.position ∧ t.requests = s.requests
  | _, _ => True

/-- The event is one that the chunks of a result can bring about. -/
def Served (s : State ρ ε) (e : Event ρ ε) : Prop :=
  match e, s.member with
  | .member (.streamed e), some m =>
      match m.statement.awaited, m.statement.result with
      | some (.rows _ _), some (.rows fetched) =>
          RowStream.State.Served fetched.cfg.parse fetched.blocks e
      | _, _ => True
  | _, _ => True

/-- `NextResult` is called while there is a next result, and an error of a result is fatal. -/
def Harmless (s : State ρ ε) : Event ρ ε → Prop
  | .parent _ => True
  | .member e => ∀ m ∈ s.member, readsNothing (o.postExec m.requested) m.statement e = false
  | .nextResult => ∀ m ∈ s.member, hasNextResult o m = true

instance (s : State ρ ε) (e : Event ρ ε) (t : State ρ ε) : Decidable (Unmoved o s e t) := by
  unfold Unmoved
  split <;> infer_instance

instance [DecidableEq ρ] (s : State ρ ε) (e : Event ρ ε) : Decidable (Served s e) := by
  unfold Served
  repeat' split
  all_goals infer_instance

instance (s : State ρ ε) (e : Event ρ ε) : Decidable (Harmless o s e) := by
  cases e <;> unfold Harmless <;> infer_instance

/-! ## what the walk keeps -/

section

variable {o} {s t : State ρ ε} {m : Member ρ ε}

/-- The walk has come to the statement `m`, and so far the callback was called for the statements
before it, and for it when its statement is complete. -/
structure State.At (o : Options) (s : State ρ ε) (m : Member ρ ε) : Prop where
  member : s.member = some m
  good : m.statement.Good (o.postExec m.requested)
  requested : o.multiResultIds[m.multiCurId]? = some m.requested
  requests : s.requests = o.multiResultIds.take (m.multiCurId + 1)
  completed : s.completed.map Report.requested =
    (o.multiResultIds.take (m.multiCurId + m.statement.completed.length)).map some
  parent : s.parent.completed = [] ∧ s.parent.result = none ∧ s.parent.resultError = none ∧
    ∀ awaited, s.parent.awaited = some awaited → awaited = .aggregate

theorem State.At.multiCurId_lt (hs : s.At o m) : m.multiCurId < o.multiResultIds.length :=
  (List.getElem?_eq_some_iff.mp hs.requested).1

theorem State.At.length_completed_le (hs : s.At o m) : m.statement.completed.length ≤ 1 := by
  rw [hs.good.2]
  split <;> simp

theorem State.At.length_completed (hs : s.At o m) :
    s.completed.length = m.multiCurId + m.statement.completed.length := by
  have hlength := congrArg List.length hs.completed
  have hlt := hs.multiCurId_lt
  have hle := hs.length_completed_le
  simp only [List.length_map, List.length_take] at hlength
  omega

theorem State.At.length_requests (hs : s.At o m) : s.requests.length = m.multiCurId + 1 := by
  have hlt := hs.multiCurId_lt
  simp only [hs.requests, List.length_take]
  omega

/-- The step of a statement that does not read nothing is its own. -/
theorem stepStatement_eq {o : Statement.Options} {s : Statement.State ρ ε} {e : Statement.Event ρ ε}
    (h : readsNothing o s e = false) : stepStatement o s e = Statement.step o s e := by
  simp [stepStatement, h]

theorem State.At.settles (hs : s.At o m) (hq : ∀ e, step o s (.member e) = none) :
    s.waits = false := by
  have hawaited : m.statement.awaited = none := by
    refine hs.good.1.settled fun e => ?_
    have hstep := hq e
    simp only [step, hs.member, Option.bind_some, Option.map_eq_none_iff, stepStatement] at hstep
    split at hstep
    · contradiction
    · exact hstep
  simp [State.waits, hs.member, hawaited]

/-- At every statement the walk is as it should be. -/
theorem State.At.sound (hs : s.At o m) : s.Sound o := by
  have hlength := hs.length_completed
  have hrequests := hs.length_requests
  refine ⟨?_, ?_, ?_, ?_, hs.settles⟩
  · rw [← List.length_pos_iff_ne_nil]
    omega
  · rw [hs.requests]
    exact List.take_prefix _ _
  · have hcompletes := hs.good.2
    rw [hrequests, hlength, hcompletes]
    cases hawaited : m.statement.awaited <;> simp [State.waits, hs.member, hawaited]
  · have hle := hs.length_completed_le
    rw [hs.completed, hs.requests, List.take_take, hlength, min_eq_left (by omega)]

/-! ### the statement of a result -/

/-- What the chunks bring about is harmless to a statement that gets a result. -/
theorem harmless_of_served {e : Statement.Event ρ ε} (hmember : s.member = some m)
    (hserved : Served s (.member e)) :
    Statement.Harmless (o.postExec m.requested) m.statement e := by
  have hignores : (o.postExec m.requested).ignoresErrors = false := by
    simp [Options.postExec, Statement.Options.ignoresErrors, Statement.Options.isAsync]
  unfold Statement.Harmless
  split
  · simp [Options.postExec, bindsMapThrows]
  · exact hignores
  · simp [hignores]
  · exact hignores
  · next hawaited =>
    split
    · next fetched hresult =>
      simpa [Served, hmember, hawaited, hresult] using hserved
    · trivial
  · trivial

theorem State.At.member_step {e : Statement.Event ρ ε} (hs : s.At o m)
    (hserved : Served s (.member e))
    (hreads : readsNothing (o.postExec m.requested) m.statement e = false)
    (h : step o s (.member e) = some t) : ∃ m', t.At o m' := by
  simp only [step, hs.member, Option.bind_some, stepStatement_eq hreads,
    Option.map_eq_some_iff] at h
  obtain ⟨statement, hst, rfl⟩ := h
  have hawaited : m.statement.awaited ≠ none := by
    intro hnone
    simp [Statement.step, hnone] at hst
  have hcompleted := hs.good.1.uncalled hawaited
  have hgood := hs.good.1.step (harmless_of_served hs.member hserved) hst
  have hle : statement.completed.length ≤ 1 := by
    rw [hgood.2]
    split <;> simp
  refine ⟨{ m with statement := statement }, rfl, hgood, hs.requested, hs.requests, ?_, hs.parent⟩
  have hreports := hs.completed
  simp only [hcompleted, List.length_nil, Nat.add_zero] at hreports
  simp only [reports, hcompleted, List.length_nil, List.drop_zero, List.map_append, List.map_map,
    hreports]
  obtain hzero | hone : statement.completed.length = 0 ∨ statement.completed.length = 1 := by omega
  · simp [List.length_eq_zero_iff.mp hzero]
  · obtain ⟨c, hc⟩ := List.length_eq_one_iff.mp hone
    simp [hc, List.take_add_one, hs.requested]

/-- A statement whose aggregating stream reads nothing is not heard of again. -/
theorem State.At.not_sound {e : Statement.Event ρ ε} (hs : s.At o m)
    (hreads : readsNothing (o.postExec m.requested) m.statement e = true)
    (h : step o s (.member e) = some t) : ¬ t.Sound o := by
  intro hsound
  have hcompleted : m.statement.completed = [] := by
    refine hs.good.1.uncalled fun hnone => ?_
    simp [readsNothing, hnone] at hreads
  simp only [step, hs.member, Option.bind_some, stepStatement, hreads, if_true, Option.map_some,
    Option.some.injEq] at h
  have honce := hsound.once
  have hlength := hs.length_completed
  have hrequests := hs.length_requests
  subst h
  simp only [reports, hcompleted, List.length_nil, Nat.add_zero, List.drop_nil, List.map_nil,
    List.append_nil, State.waits, Option.any_some, Option.isSome_none] at honce hlength
  simp at honce
  omega

/-! ### the statement that was executed -/

/-- The stream of the statement that was executed reads nothing. -/
theorem State.At.parent_step {e : Statement.Event ρ ε} (hs : s.At o m)
    (h : step o s (.parent e) = some t) : t.At o m := by
  obtain ⟨hcompleted, hresult, herror, hawaits⟩ := hs.parent
  simp only [step, Option.map_eq_some_iff] at h
  obtain ⟨parent, hst, rfl⟩ := h
  cases hawaited : s.parent.awaited with
  | none => simp [stepStatement, readsNothing, Statement.step, hawaited] at hst
  | some awaited =>
      obtain rfl := hawaits awaited hawaited
      cases e with
      | ticked =>
          have hreads : readsNothing o.preExec s.parent .ticked = true := by
            simp [readsNothing, hawaited, hresult, Statement.State.isStatementErrorFatal, herror]
          simp only [stepStatement, hreads, if_true, Option.some.injEq] at hst
          subst hst
          exact ⟨hs.member, hs.good, hs.requested, hs.requests,
            by simpa [reports, hcompleted] using hs.completed, hcompleted, hresult, herror, by simp⟩
      | _ => simp [stepStatement, readsNothing, Statement.step, hawaited] at hst

/-! ### `NextResult` -/

/-- The statement of an id is created, and requests its result. -/
theorem createStatementPostExec_some (queryId : String) (sqlText : Option String)
    (multiCurId : Nat) :
    createStatementPostExec (ρ := ρ) (ε := ε) o (some queryId) sqlText multiCurId =
      some ⟨queryId, sqlText, multiCurId,
        ⟨some (.answer ⟨Statement.State.queryResultUrl queryId, none⟩), some queryId, none, none,
          []⟩⟩ :=
  rfl

theorem good_created (queryId : String) :
    (⟨some (.answer ⟨Statement.State.queryResultUrl queryId, none⟩), some queryId, none, none, []⟩ :
      Statement.State ρ ε).Good (o.postExec queryId) :=
  create_good rfl

/-- Only a statement that is complete is called on. -/
theorem State.At.nextResult_eq (hs : s.At o m) (h : step o s .nextResult = some t) :
    m.statement.completed.length = 1 ∧ t = nextResult o s m := by
  simp only [step, hs.member, Option.map_eq_some_iff, Option.filter_eq_some_iff] at h
  obtain ⟨_, ⟨hm, hcompleted⟩, rfl⟩ := h
  obtain rfl := Option.some.inj hm
  have hle := hs.length_completed_le
  have hpos : 0 < m.statement.completed.length := by
    simpa [List.length_pos_iff_ne_nil] using hcompleted
  exact ⟨by omega, rfl⟩

theorem State.At.nextResult_step (hs : s.At o m) (hnext : hasNextResult o m = true)
    (h : step o s .nextResult = some t) : ∃ m', t.At o m' := by
  obtain ⟨hlength, rfl⟩ := hs.nextResult_eq h
  simp only [hasNextResult, decide_eq_true_eq] at hnext
  obtain ⟨queryId, hqueryId⟩ : ∃ queryId, o.multiResultIds[m.multiCurId + 1]? = some queryId :=
    ⟨_, List.getElem?_eq_getElem hnext⟩
  simp only [nextResult, hqueryId, createStatementPostExec_some]
  refine ⟨_, rfl, good_created queryId, hqueryId, ?_, ?_, hs.parent⟩
  · simp [hs.requests, List.take_add_one (i := m.multiCurId + 1), hqueryId]
  · simpa [hlength] using hs.completed

/-- Past the last result the call moves the statement all the same. -/
theorem State.At.not_unmoved (hs : s.At o m) (hnext : hasNextResult o m = false)
    (h : step o s .nextResult = some t) : ¬ Unmoved o s .nextResult t := by
  obtain ⟨-, rfl⟩ := hs.nextResult_eq h
  intro hunmoved
  simp only [Unmoved, hs.member] at hunmoved
  have hposition := (hunmoved hnext).1
  have hnone : o.multiResultIds[m.multiCurId + 1]? = none := by
    simpa [hasNextResult] using hnext
  simp [nextResult, hnone, createStatementPostExec, Member.position] at hposition

/-! ## runs -/

theorem multiResultIds_ne_nil (o : Options) : o.multiResultIds ≠ [] := by
  simp [Options.multiResultIds, List.splitOn_ne_nil]

/-- The executed statement waits for its stream, and the first result is requested. -/
theorem at_onBatch (hstream : o.streamResult = false) (htext : o.sqlText.isSome = true) :
    ∃ m, (onBatch o : State ρ ε).At o m := by
  obtain ⟨sqlText, hsqlText⟩ := Option.isSome_iff_exists.mp htext
  obtain ⟨queryId, hqueryId⟩ : ∃ queryId, o.multiResultIds[0]? = some queryId :=
    ⟨_, List.getElem?_eq_getElem (List.length_pos_iff_ne_nil.mpr (multiResultIds_ne_nil o))⟩
  have hparent : ∀ s : Statement.State ρ ε,
      s.invokeStatementComplete o.preExec = s.await .aggregate := fun s => by
    simp [Statement.State.invokeStatementComplete, Options.preExec, Statement.Options.isAsync,
      hstream]
  simp only [onBatch, hsqlText, hqueryId, hparent, createStatementPostExec_some]
  refine ⟨_, rfl, good_created queryId, hqueryId, ?_, by simp, rfl, rfl, rfl, ?_⟩
  · simp [List.take_add_one, hqueryId]
  · simp

/-- The walk starts well when the results are aggregated and the text can be split. -/
theorem sound_onBatch_iff :
    (onBatch o : State ρ ε).Sound o ↔ o.streamResult = false ∧ o.sqlText.isSome = true := by
  refine ⟨fun hsound => ?_, fun ⟨hstream, htext⟩ => ?_⟩
  · cases htext : o.sqlText with
    | none =>
        have hstarts := hsound.starts
        simp [onBatch, htext] at hstarts
    | some sqlText =>
        refine ⟨?_, rfl⟩
        by_contra hstream
        have horder := hsound.inOrder
        simp only [Bool.not_eq_false] at hstream
        cases hids : o.multiResultIds[0]? with
        | none =>
            simp [onBatch, htext, hids, Statement.State.invokeStatementComplete, Options.preExec,
              hstream] at horder
        | some queryId =>
            simp [onBatch, htext, hids, Statement.State.invokeStatementComplete, Options.preExec,
              hstream] at horder
  · obtain ⟨m, hm⟩ := at_onBatch hstream htext
    exact hm.sound

end

/-! ## two batches -/

/-- Two statements with a result each. -/
def sampleBatch (streamResult : Bool) : Options where
  requestId := "request"
  sqlText := some ['x', ';', 'y']
  streamResult
  resultIds := ['a', ',', 'b']
  nonempty := List.cons_ne_nil _ _

/-- The rows of the first result are loaded, and the second has failed. -/
def sampleWalk : List (Event Nat Nat) :=
  [.member (.answered (.success "a" sampleFetched none)), .parent .ticked, .member .ticked,
    .member (.streamed (.ticked () 0 [])), .member (.streamed (.answered 0 (.ok (some "0")))),
    .member (.streamed (.ticked () 0 [])), .member (.streamed (.read ())),
    .member (.streamed (.answered 1 (.ok (some "1")))), .member (.streamed (.ticked () 0 [])),
    .member (.streamed (.read ())), .member (.streamed (.ticked () 0 [])), .member .ended,
    .nextResult, .member (.answered (.inProgress false "b" "/queries/b/result")),
    .member (.answered
      (.error (Errors.createOperationFailedError (.str "001003") (some "42000")) none)),
    .member .ticked, .member .ticked]

end Batch

end Statement

end SnowflakeConnector
