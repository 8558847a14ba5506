import Mathlib
import SnowflakeConnector.While

/-!
# SnowflakeConnector.Connection

The part of `lib/connection/connection.js` that waits for a query by its id: the monitoring
requests of `getResultsFromQueryId`, the statuses that the server reports, and the pauses between
them.

* `turn` -- one poll, and the pause after it.
* `reaches_iff` -- what the loop has done after a number of polls.
* `fetches_finished` -- how it ends.
-/

namespace SnowflakeConnector

/-! ## query statuses -/

namespace QueryStatus

/-- The keys of `code`, each of which has its own name as its value. -/
inductive Code
  | running
  | aborting
  | success
  | failedWithError
  | aborted
  | queued
  | failedWithIncident
  | disconnected
  | resumingWarehouse
  | queuedReparingWarehouse
  | restarted
  | blocked
  | noData
  | noQueryData
  deriving DecidableEq, Repr

def Code.text : Code → String
  | running => "RUNNING"
  | aborting => "ABORTING"
  | success => "SUCCESS"
  | failedWithError => "FAILED_WITH_ERROR"
  | aborted => "ABORTED"
  | queued => "QUEUED"
  | failedWithIncident => "FAILED_WITH_INCIDENT"
  | disconnected => "DISCONNECTED"
  | resumingWarehouse => "RESUMING_WAREHOUSE"
  | queuedReparingWarehouse => "QUEUED_REPARING_WAREHOUSE"
  | restarted => "RESTARTED"
  | blocked => "BLOCKED"
  | noData => "NO_DATA"
  | noQueryData => "NO_QUERY_DATA"

def codes : List Code :=
  [.running, .aborting, .success, .failedWithError, .aborted, .queued, .failedWithIncident,
    .disconnected, .resumingWarehouse, .queuedReparingWarehouse, .restarted, .blocked, .noData,
    .noQueryData]

/-- `code[status]`, where `none` is a status that the table does not have.  What an object has
by itself (`constructor`, `toString`) is no text and is equal to no entry either. -/
def code (status : Option String) : Option Code :=
  status.bind fun name => codes.find? fun c => c.text = name

def runningStatuses : List Code :=
  [.running, .resumingWarehouse, .queued, .queuedReparingWarehouse, .noData]

def errorStatuses : List Code :=
  [.aborting, .failedWithError, .aborted, .failedWithIncident, .disconnected, .blocked]

theorem code_eq_some {status : Option String} {c : Code} :
    code status = some c ↔ status = some c.text := by
  constructor
  · intro h
    obtain ⟨name, rfl, hname⟩ := Option.bind_eq_some_iff.mp h
    have htext := List.find?_some hname
    rw [decide_eq_true_eq] at htext
    rw [htext]
  · rintro rfl
    cases c <;> rfl

end QueryStatus

namespace Connection

open QueryStatus (code runningStatuses errorStatuses)

def isStillRunning (status : Option String) : Bool :=
  match code status with
  | some c => c ∈ runningStatuses
  | none => false

def isAnError (status : Option String) : Bool :=
  match code status with
  | some c => c ∈ errorStatuses
  | none => false

theorem not_isStillRunning_of_isAnError {status : Option String} (h : isAnError status = true) :
    isStillRunning status = false := by
  unfold isAnError at h
  unfold isStillRunning
  cases hcode : code status with
  | none => rfl
  | some c =>
      simp only [hcode] at h
      revert h
      cases c <;> decide

/-! ## the server's answers -/

structure Query where
  status : Option String
  errorMessage : Option String
  deriving DecidableEq, Repr

structure QueryData where
  queries : Option (List Query)
  sqlState : Option String
  deriving DecidableEq, Repr

/-- The answer of the server about a query; a member is `none` where the answer lacks it. -/
structure QueryResponse where
  data : Option QueryData
  message : Option String
  code : Option String
  deriving DecidableEq, Repr

/-- What is thrown: the error of a request, the error of the query (a code `none` is `-1`), or an
error of the client. -/
inductive Thrown (ε : Type*)
  | request (error : ε)
  | operationFailed (code : Option String) (data : Option QueryResponse) (message : String)
      (sqlState : Option String)
  | clientError (errorCode : Nat) (messageArgs : List String)
  deriving DecidableEq, Repr

def extractQueryStatus (queryResponse : Option QueryResponse) : Option String :=
  match queryResponse.bind (·.data) |>.bind (·.queries) with
  | some (query :: _) => query.status
  | _ => some "NO_QUERY_DATA"

variable {ε : Type*}

/-- The error of a query, as the server describes it. -/
def queryError (response : Option QueryResponse) : Thrown ε :=
  let message := (response.bind (·.message)).getD ""
  let code := (response.bind (·.code)).filter (· ≠ "")
  match response.bind (·.data) with
  | none => .operationFailed code response message none
  | some data =>
      let errorMessage := match data.queries with
        | some (query :: _) => query.errorMessage.getD "undefined"
        | _ => ""
      .operationFailed code response (message ++ errorMessage) data.sqlState

def getQueryStatusThrowIfError (response : Except ε (Option QueryResponse)) :
    Except (Thrown ε) (Option String) :=
  match response with
  | .error e => .error (.request e)
  | .ok response =>
      if isAnError (extractQueryStatus response) then .error (queryError response)
      else .ok (extractQueryStatus response)

/-! ## the loop -/

def asyncNoDataMaxRetry : Nat := 24
def asyncRetryPattern : List Nat := [1, 1, 2, 3, 4, 8, 10]
def asyncRetryInMilliseconds : Nat := 500

/-- The variables of the loop, with the polls that it has made and its pauses. -/
structure Polling where
  polls : Nat
  noDataCounter : Nat
  retryPatternPos : Nat
  pauses : List Nat
  deriving DecidableEq, Repr

def start : Polling := ⟨0, 0, 0, []⟩

/-- What the loop leaves with: the last status, or what was thrown in it. -/
abbrev LoopEnd (ε : Type*) := Polling × Except (Thrown ε) (Option String)

/-- The pause after a poll: the status may have been `NO_DATA` once too often. -/
def pause (queryId : String) (status : Option String) (s : Polling) :
    While.Turn Polling (LoopEnd ε) :=
  let s := { s with
    pauses := s.pauses ++ [asyncRetryInMilliseconds * asyncRetryPattern.getD s.retryPatternPos 0]
    noDataCounter := if code status = some .noData then s.noDataCounter + 1 else s.noDataCounter }
  if code status = some .noData ∧ asyncNoDataMaxRetry < s.noDataCounter then
    .done (s, .error (.clientError 460002 [queryId]))
  else if s.retryPatternPos < asyncRetryPattern.length - 1 then
    .next { s with retryPatternPos := s.retryPatternPos + 1 }
  else .next s

/-- Poll `n` gets `responses n`. -/
def turn (queryId : String) (responses : Nat → Except ε (Option QueryResponse)) (s : Polling) :
    While.Turn Polling (LoopEnd ε) :=
  let response := responses s.polls
  let s := { s with polls := s.polls + 1 }
  match getQueryStatusThrowIfError response with
  | .error e => .done (s, .error e)
  | .ok status =>
      if isStillRunning status = false ∨ status = some "NO_QUERY_DATA" then .done (s, .ok status)
      else pause queryId status s

/-- After the loop: the result is fetched, or an error thrown. -/
def conclude (queryId : String) (result : Except (Thrown ε) (Option String)) :
    Except (Thrown ε) Unit :=
  match result with
  | .error e => .error e
  | .ok status =>
      if code status = some .noQueryData then
        .error (.clientError 460002 [queryId, status.getD "undefined"])
      else if code status ≠ some .success then
        .error (.clientError 460003 [queryId, status.getD "undefined"])
      else .ok ()

/-- `getResultsFromQueryId` ends in this state: it fetches the result, or throws. -/
def Ends (queryId : String) (responses : Nat → Except ε (Option QueryResponse)) (s : Polling)
    (outcome : Except (Thrown ε) Unit) : Prop :=
  ∃ result, While.EndsWith (turn queryId responses) start (s, result) ∧
    conclude queryId result = outcome

/-! ## polls -/

variable {queryId : String} {responses : Nat → Except ε (Option QueryResponse)}

/-- The status that a poll finds, unless its request fails. -/
def report (response : Except ε (Option QueryResponse)) : Option (Option String) :=
  match response with
  | .ok response => some (extractQueryStatus response)
  | .error _ => none

/-- How many of the first `n` polls find `NO_DATA`. -/
def noDataPolls (responses : Nat → Except ε (Option QueryResponse)) (n : Nat) : Nat :=
  (List.range n).countP fun m => report (responses m) = some (some "NO_DATA")

/-- The first `n` polls find the query running, and not too often without data. -/
def GoesOn (responses : Nat → Except ε (Option QueryResponse)) (n : Nat) : Prop :=
  (∀ m < n, ∃ status, report (responses m) = some status ∧ isStillRunning status = true) ∧
    noDataPolls responses n ≤ asyncNoDataMaxRetry

/-- The pause after poll `i`. -/
def pauseAfter (i : Nat) : Nat :=
  asyncRetryInMilliseconds * asyncRetryPattern.getD (min i (asyncRetryPattern.length - 1)) 0

/-- The loop after `n` polls that let it go on. -/
def after (responses : Nat → Except ε (Option QueryResponse)) (n : Nat) : Polling :=
  ⟨n, noDataPolls responses n, min n (asyncRetryPattern.length - 1), (List.range n).map pauseAfter⟩

theorem noDataPolls_succ (n : Nat) : noDataPolls responses (n + 1) =
    noDataPolls responses n + if report (responses n) = some (some "NO_DATA") then 1 else 0 := by
  simp only [noDataPolls, List.range_succ, List.countP_append, List.countP_singleton,
    decide_eq_true_eq]

theorem pauses_succ (n : Nat) : (List.range n).map pauseAfter ++ [asyncRetryInMilliseconds *
    asyncRetryPattern.getD (min n (asyncRetryPattern.length - 1)) 0] =
      (List.range (n + 1)).map pauseAfter := by
  rw [List.range_succ, List.map_append]
  rfl

theorem GoesOn.of_succ {n : Nat} (h : GoesOn responses (n + 1)) : GoesOn responses n := by
  refine ⟨fun m hm => h.1 m (by omega), ?_⟩
  have hsucc := @noDataPolls_succ ε responses n
  have hle := h.2
  omega

theorem code_eq_noData {status : Option String} :
    code status = some .noData ↔ status = some "NO_DATA" :=
  QueryStatus.code_eq_some

theorem isStillRunning_noData : isStillRunning (some "NO_DATA") = true := by
  decide

/-! ## one turn -/

/-- The poll throws: its request has failed, or the query has. -/
theorem turn_throw {s : Polling} {e : Thrown ε}
    (h : getQueryStatusThrowIfError (responses s.polls) = .error e) :
    turn queryId responses s = .done ({ s with polls := s.polls + 1 }, .error e) := by
  simp only [turn, h]

theorem getQueryStatusThrowIfError_eq_ok {response : Except ε (Option QueryResponse)}
    {status : Option String} : getQueryStatusThrowIfError response = .ok status ↔
      report response = some status ∧ isAnError status = false := by
  cases response with
  | error e => simp [getQueryStatusThrowIfError, report]
  | ok response =>
      simp only [getQueryStatusThrowIfError, report, Option.some.injEq]
      split_ifs with herror
      · constructor
        · intro h
          contradiction
        · rintro ⟨rfl, hnone⟩
          rw [herror] at hnone
          contradiction
      · constructor
        · intro h
          obtain rfl := Except.ok.inj h
          exact ⟨rfl, by simpa using herror⟩
        · rintro ⟨rfl, _⟩
          rfl

theorem turn_leave {s : Polling} {status : Option String}
    (hreport : report (responses s.polls) = some status) (herror : isAnError status = false)
    (hrunning : isStillRunning status = false) :
    turn queryId responses s = .done ({ s with polls := s.polls + 1 }, .ok status) := by
  have hstatus := getQueryStatusThrowIfError_eq_ok.mpr ⟨hreport, herror⟩
  simp only [turn, hstatus, hrunning, true_or, if_true]

theorem turn_pause {s : Polling} {status : Option String}
    (hreport : report (responses s.polls) = some status)
    (hrunning : isStillRunning status = true) :
    turn queryId responses s = pause queryId status { s with polls := s.polls + 1 } := by
  have herror : isAnError status = false := by
    by_contra herror
    have herror : isAnError status = true := by simpa using herror
    rw [not_isStillRunning_of_isAnError herror] at hrunning
    contradiction
  have hdata : ¬ (isStillRunning status = false ∨ status = some "NO_QUERY_DATA") := by
    rintro (hnot | rfl)
    · rw [hrunning] at hnot
      contradiction
    · revert hrunning
      decide
  have hstatus := getQueryStatusThrowIfError_eq_ok.mpr ⟨hreport, herror⟩
  simp only [turn, hstatus, hdata, if_false]

/-- The loop goes on from a running query. -/
theorem turn_after {n : Nat} (h : GoesOn responses (n + 1)) :
    turn queryId responses (after responses n) = .next (after responses (n + 1)) := by
  obtain ⟨status, hreport, hrunning⟩ := h.1 n (by omega)
  rw [turn_pause (s := after responses n) hreport hrunning]
  have hle := h.2
  have hsucc := @noDataPolls_succ ε responses n
  rw [hreport] at hsucc
  have hcount : (if code status = some .noData then noDataPolls responses n + 1
      else noDataPolls responses n) = noDataPolls responses (n + 1) := by
    rw [hsucc]
    by_cases hdata : status = some "NO_DATA"
    · rw [if_pos (code_eq_noData.mpr hdata), if_pos (congrArg some hdata)]
    · rw [if_neg (fun hc => hdata (code_eq_noData.mp hc)),
        if_neg (fun hc => hdata (Option.some.inj hc)), Nat.add_zero]
  simp only [pause, after, hcount, pauses_succ]
  rw [if_neg (fun hgiveUp => absurd hgiveUp.2 (by omega))]
  split_ifs with hpos
  · rw [Nat.min_eq_left (by omega), Nat.min_eq_left (by omega)]
  · rw [Nat.min_eq_right (by omega), Nat.min_eq_right (by omega)]

/-- The last poll without data, and the pause after it. -/
theorem turn_giveUp {n : Nat} (hreport : report (responses n) = some (some "NO_DATA"))
    (hfull : noDataPolls responses n = asyncNoDataMaxRetry) :
    turn queryId responses (after responses n) =
      .done ({ after responses (n + 1) with
          retryPatternPos := min n (asyncRetryPattern.length - 1) },
        .error (.clientError 460002 [queryId])) := by
  rw [turn_pause (s := after responses n) hreport isStillRunning_noData]
  have hcode : code (some "NO_DATA") = some .noData := code_eq_noData.mpr rfl
  have hsucc : noDataPolls responses (n + 1) = noDataPolls responses n + 1 := by
    rw [noDataPolls_succ, if_pos hreport]
  simp only [pause, after, hcode, if_true, true_and, pauses_succ, hsucc, hfull]
  rw [if_pos (by omega)]

/-! ## runs of the loop -/

theorem reaches_after {n : Nat} (h : GoesOn responses n) :
    While.Reaches (turn queryId responses) start (after responses n) := by
  induction n with
  | zero => exact .refl _ _
  | succ n ih => exact (ih h.of_succ).tail (turn_after h)

/-- What a turn can come to after `n` polls. -/
theorem turn_cases {n : Nat} (h : GoesOn responses n) :
    (GoesOn responses (n + 1) ∧
        turn queryId responses (after responses n) = .next (after responses (n + 1))) ∨
      (report (responses n) = some (some "NO_DATA") ∧
        noDataPolls responses n = asyncNoDataMaxRetry) ∨
      (∃ status, report (responses n) = some status ∧ isStillRunning status = false ∧
        isAnError status = false) ∨
      ∃ e, getQueryStatusThrowIfError (responses n) = .error e := by
  cases hpoll : getQueryStatusThrowIfError (responses n) with
  | error e => exact .inr (.inr (.inr ⟨e, rfl⟩))
  | ok status =>
      obtain ⟨hreport, herror⟩ := getQueryStatusThrowIfError_eq_ok.mp hpoll
      cases hrunning : isStillRunning status with
      | false => exact .inr (.inr (.inl ⟨status, hreport, hrunning, herror⟩))
      | true =>
          by_cases hfull : report (responses n) = some (some "NO_DATA") ∧
              noDataPolls responses n = asyncNoDataMaxRetry
          · exact .inr (.inl hfull)
          · have hgoes : GoesOn responses (n + 1) := by
              refine ⟨fun m hm => ?_, ?_⟩
              · obtain hm | rfl := Nat.lt_succ_iff_lt_or_eq.mp hm
                · exact h.1 m hm
                · exact ⟨status, hreport, hrunning⟩
              · have hle := h.2
                rw [noDataPolls_succ]
                split_ifs with hdata
                · have hne : noDataPolls responses n ≠ asyncNoDataMaxRetry :=
                    fun hc => hfull ⟨hdata, hc⟩
                  omega
                · omega
            exact .inl ⟨hgoes, turn_after hgoes⟩

/-- The states that the loop goes through. -/
theorem reaches_iff {s : Polling} : While.Reaches (turn queryId responses) start s ↔
    ∃ n, GoesOn responses n ∧ s = after responses n := by
  constructor
  · intro h
    induction h with
    | refl => exact ⟨0, ⟨by simp, by simp [noDataPolls]⟩, rfl⟩
    | tail _ hstep ih =>
        obtain ⟨n, hn, rfl⟩ := ih
        obtain ⟨hgoes, hnext⟩ | ⟨hreport, hfull⟩ | ⟨status, hreport, hrunning, herror⟩ | ⟨e, he⟩ :=
          @turn_cases ε queryId responses n hn
        · rw [hnext] at hstep
          exact ⟨n + 1, hgoes, (While.Turn.next.inj hstep).symm⟩
        · rw [turn_giveUp hreport hfull] at hstep
          contradiction
        · rw [turn_leave (s := after responses n) hreport herror hrunning] at hstep
          contradiction
        · rw [turn_throw (s := after responses n) he] at hstep
          contradiction
  · rintro ⟨n, hn, rfl⟩
    exact reaches_after hn

/-- How the loop ends. -/
theorem endsWith_cases {s : Polling} {result : Except (Thrown ε) (Option String)}
    (h : While.EndsWith (turn queryId responses) start (s, result)) : ∃ n, GoesOn responses n ∧
      ((report (responses n) = some (some "NO_DATA") ∧
          noDataPolls responses n = asyncNoDataMaxRetry ∧
          s = { after responses (n + 1) with
            retryPatternPos := min n (asyncRetryPattern.length - 1) } ∧
          result = .error (.clientError 460002 [queryId])) ∨
        (∃ status, report (responses n) = some status ∧ isStillRunning status = false ∧
          isAnError status = false ∧ s = { after responses n with polls := n + 1 } ∧
          result = .ok status) ∨
        ∃ e, getQueryStatusThrowIfError (responses n) = .error e ∧
          s = { after responses n with polls := n + 1 } ∧ result = .error e) := by
  obtain ⟨s', hreaches, hdone⟩ := h.exists_last
  obtain ⟨n, hn, rfl⟩ := reaches_iff.mp hreaches
  refine ⟨n, hn, ?_⟩
  obtain ⟨hgoes, hnext⟩ | ⟨hreport, hfull⟩ | ⟨status, hreport, hrunning, herror⟩ | ⟨e, he⟩ :=
    @turn_cases ε queryId responses n hn
  · rw [hnext] at hdone
    contradiction
  · rw [turn_giveUp hreport hfull] at hdone
    obtain ⟨rfl, rfl⟩ := Prod.mk.inj (While.Turn.done.inj hdone)
    exact .inl ⟨hreport, hfull, rfl, rfl⟩
  · rw [turn_leave (s := after responses n) hreport herror hrunning] at hdone
    obtain ⟨rfl, rfl⟩ := Prod.mk.inj (While.Turn.done.inj hdone)
    exact .inr (.inl ⟨status, hreport, hrunning, herror, rfl, rfl⟩)
  · rw [turn_throw (s := after responses n) he] at hdone
    obtain ⟨rfl, rfl⟩ := Prod.mk.inj (While.Turn.done.inj hdone)
    exact .inr (.inr ⟨e, he, rfl, rfl⟩)

/-! ## pauses -/

theorem pauseAfter_mem (i : Nat) :
    ∃ entry ∈ asyncRetryPattern, pauseAfter i = asyncRetryInMilliseconds * entry := by
  have hlt : min i (asyncRetryPattern.length - 1) < asyncRetryPattern.length :=
    Nat.lt_of_le_of_lt (Nat.min_le_right _ _) (by decide)
  refine ⟨asyncRetryPattern[min i (asyncRetryPattern.length - 1)], List.getElem_mem hlt, ?_⟩
  rw [pauseAfter, List.getD_eq_getElem _ _ hlt]

theorem pauseAfter_mono {i j : Nat} (h : i ≤ j) : pauseAfter i ≤ pauseAfter j := by
  have hsorted : ∀ a ∈ List.range 7, ∀ b ∈ List.range 7, a ≤ b →
      asyncRetryPattern.getD a 0 ≤ asyncRetryPattern.getD b 0 := by
    decide
  have hlast : asyncRetryPattern.length - 1 = 6 := rfl
  rw [pauseAfter, pauseAfter, hlast]
  refine Nat.mul_le_mul_left _ (hsorted _ ?_ _ ?_ ?_)
  · exact List.mem_range.mpr (by omega)
  · exact List.mem_range.mpr (by omega)
  · omega

theorem pauseAfter_last {i : Nat} (h : asyncRetryPattern.length - 1 ≤ i) :
    pauseAfter i = asyncRetryInMilliseconds * asyncRetryPattern.getLastD 0 := by
  rw [pauseAfter, Nat.min_eq_right h]
  rfl

/-- The pauses of a retry pattern: its entries in their order, and then its last one. -/
structure FollowsPattern (pauses : List Nat) : Prop where
  entries : ∀ pause ∈ pauses, ∃ entry ∈ asyncRetryPattern, pause = asyncRetryInMilliseconds * entry
  increasing : pauses.Pairwise (· ≤ ·)
  repeats : ∀ i pause, asyncRetryPattern.length - 1 ≤ i → pauses[i]? = some pause →
    pause = asyncRetryInMilliseconds * asyncRetryPattern.getLastD 0

theorem followsPattern (n : Nat) : FollowsPattern ((List.range n).map pauseAfter) where
  entries := by
    rintro pause hpause
    obtain ⟨i, -, rfl⟩ := List.mem_map.mp hpause
    exact pauseAfter_mem i
  increasing := by
    rw [List.pairwise_map]
    exact List.pairwise_lt_range.imp fun h => pauseAfter_mono h.le
  repeats := by
    intro i pause hi hpause
    rw [List.getElem?_map, Option.map_eq_some_iff] at hpause
    obtain ⟨j, hj, rfl⟩ := hpause
    obtain ⟨hlt, rfl⟩ := List.getElem?_eq_some_iff.mp hj
    rw [List.getElem_range]
    exact pauseAfter_last hi

/-! ## finished queries -/

/-- A state that the loop goes through, or ends in. -/
def Seen (queryId : String) (responses : Nat → Except ε (Option QueryResponse)) (s : Polling) :
    Prop :=
  While.Reaches (turn queryId responses) start s ∨ ∃ outcome, Ends queryId responses s outcome

/-- What is fetched, thrown and waited for, whatever the server reports. -/
structure FetchesFinished (queryId : String) (responses : Nat → Except ε (Option QueryResponse)) :
    Prop where
  /-- It ends in one way. -/
  ends_once : ∀ s outcome s' outcome', Ends queryId responses s outcome →
    Ends queryId responses s' outcome' → s = s' ∧ outcome = outcome'
  /-- The result is fetched when the first poll that ends the loop finds success. -/
  fetched_iff : (∃ s, Ends queryId responses s (.ok ())) ↔
    ∃ n, GoesOn responses n ∧ report (responses n) = some (some "SUCCESS")
  error_throws : ∀ n response, GoesOn responses n → responses n = .ok response →
    isAnError (extractQueryStatus response) = true →
      ∃ s, Ends queryId responses s (.error (queryError response))
  request_throws : ∀ n e, GoesOn responses n → responses n = .error e →
    ∃ s, Ends queryId responses s (.error (.request e))
  other_throws : ∀ n status, GoesOn responses n → report (responses n) = some status →
    isStillRunning status = false → isAnError status = false → status ≠ some "SUCCESS" →
      ∃ s errorCode, Ends queryId responses s
        (.error (.clientError errorCode [queryId, status.getD "undefined"]))
  noData_le : ∀ s, Seen queryId responses s →
    noDataPolls responses s.polls ≤ asyncNoDataMaxRetry + 1
  gives_up : ∀ n, GoesOn responses n → noDataPolls responses n = asyncNoDataMaxRetry →
    report (responses n) = some (some "NO_DATA") →
      ∃ s, Ends queryId responses s (.error (.clientError 460002 [queryId]))
  pauses : ∀ s, Seen queryId responses s → FollowsPattern s.pauses

theorem Ends.of_after {n : Nat} {s : Polling} {result : Except (Thrown ε) (Option String)}
    (hn : GoesOn responses n)
    (h : turn queryId responses (after responses n) = .done (s, result)) :
    Ends queryId responses s (conclude queryId result) :=
  ⟨result, (reaches_after hn).endsWith h, rfl⟩

theorem Ends.unique {s s' : Polling} {outcome outcome' : Except (Thrown ε) Unit}
    (h : Ends queryId responses s outcome) (h' : Ends queryId responses s' outcome') :
    s = s' ∧ outcome = outcome' := by
  obtain ⟨result, hresult, rfl⟩ := h
  obtain ⟨result', hresult', rfl⟩ := h'
  obtain ⟨rfl, rfl⟩ := Prod.mk.inj (hresult.unique hresult')
  exact ⟨rfl, rfl⟩

/-- A query that is finished without success has no result to fetch. -/
theorem conclude_of_ne {status : Option String} (h : status ≠ some "SUCCESS") :
    ∃ errorCode, conclude queryId (.ok status : Except (Thrown ε) (Option String)) =
      .error (.clientError errorCode [queryId, status.getD "undefined"]) := by
  have hcode : code status ≠ some .success := fun hc => h (QueryStatus.code_eq_some.mp hc)
  by_cases hdata : code status = some .noQueryData
  · exact ⟨460002, by simp only [conclude, hdata, if_true]⟩
  · exact ⟨460003, by rw [conclude, if_neg hdata, if_pos hcode]⟩

theorem conclude_eq_ok {result : Except (Thrown ε) (Option String)} :
    conclude queryId result = .ok () ↔ result = .ok (some "SUCCESS") := by
  constructor
  · intro h
    cases result with
    | error e => contradiction
    | ok status =>
        by_contra hne
        obtain ⟨errorCode, herror⟩ := @conclude_of_ne ε queryId status fun hc => hne (by rw [hc])
        rw [herror] at h
        contradiction
  · rintro rfl
    rfl

theorem fetched_iff : (∃ s, Ends queryId responses s (.ok ())) ↔
    ∃ n, GoesOn responses n ∧ report (responses n) = some (some "SUCCESS") := by
  constructor
  · rintro ⟨s, result, hends, hresult⟩
    obtain rfl := conclude_eq_ok.mp hresult
    obtain ⟨n, hn, ⟨_, _, _, hend⟩ | ⟨status, hreport, _, _, _, hend⟩ | ⟨e, _, _, hend⟩⟩ :=
      endsWith_cases hends
    · contradiction
    · obtain rfl := Except.ok.inj hend
      exact ⟨n, hn, hreport⟩
    · contradiction
  · rintro ⟨n, hn, hreport⟩
    exact ⟨_, Ends.of_after hn
      (turn_leave (s := after responses n) hreport (by decide) (by decide))⟩

/-- What has been polled and paused when a state is seen. -/
theorem Seen.exists_polls {s : Polling} (h : Seen queryId responses s) :
    noDataPolls responses s.polls ≤ asyncNoDataMaxRetry + 1 ∧
      ∃ n, s.pauses = (List.range n).map pauseAfter := by
  have hsucc : ∀ {n : Nat}, GoesOn responses n →
      noDataPolls responses (n + 1) ≤ asyncNoDataMaxRetry + 1 := by
    intro n hn
    have hle := hn.2
    rw [noDataPolls_succ]
    split_ifs <;> omega
  obtain hreaches | ⟨outcome, result, hends, _⟩ := h
  · obtain ⟨n, hn, rfl⟩ := reaches_iff.mp hreaches
    exact ⟨Nat.le_succ_of_le hn.2, n, rfl⟩
  · obtain ⟨n, hn, ⟨_, _, rfl, _⟩ | ⟨_, _, _, _, rfl, _⟩ | ⟨_, _, rfl, _⟩⟩ := endsWith_cases hends
    · exact ⟨hsucc hn, n + 1, rfl⟩
    · exact ⟨hsucc hn, n, rfl⟩
    · exact ⟨hsucc hn, n, rfl⟩

/-- Only finished queries are fetched, in every sequence of polls. -/
theorem fetches_finished (queryId : String) (responses : Nat → Except ε (Option QueryResponse)) :
    FetchesFinished queryId responses where
  ends_once _ _ _ _ h h' := h.unique h'
  fetched_iff := fetched_iff
  error_throws n response hn hresponse herror := by
    have hthrow : getQueryStatusThrowIfError (responses n) = .error (queryError response) := by
      simp only [hresponse, getQueryStatusThrowIfError, herror, if_true]
    exact ⟨_, Ends.of_after hn (turn_throw (s := after responses n) hthrow)⟩
  request_throws n e hn hresponse := by
    have hthrow : getQueryStatusThrowIfError (responses n) = .error (.request e) := by
      simp only [hresponse, getQueryStatusThrowIfError]
    exact ⟨_, Ends.of_after hn (turn_throw (s := after responses n) hthrow)⟩
  other_throws n status hn hreport hrunning herror hne := by
    obtain ⟨errorCode, hthrow⟩ := @conclude_of_ne ε queryId status hne
    have hends := @Ends.of_after ε queryId responses n _ _ hn
      (turn_leave (s := after responses n) hreport herror hrunning)
    rw [hthrow] at hends
    exact ⟨_, errorCode, hends⟩
  noData_le _ hs := hs.exists_polls.1
  gives_up _ hn hfull hreport := ⟨_, Ends.of_after hn (turn_giveUp hreport hfull)⟩
  pauses _ hs := by
    obtain ⟨n, hpauses⟩ := hs.exists_polls.2
    rw [hpauses]
    exact followsPattern n

end Connection

end SnowflakeConnector
