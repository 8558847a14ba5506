import SnowflakeConnector.FetchRows.Deliver

/-!
# SnowflakeConnector.FetchRows.Complete

What a whole fetch-rows operation delivers, and how it ends.

* `rows_delivered_once` -- without download errors every row of the window is
  delivered once and in order and the operation completes once, as long as every
  step is `Smooth`;
* `end_truthful` -- with download errors `end` is called once, and without an error
  exactly if every row was delivered or `each` returned false, as long as every step
  is `Smooth` and `Repaired`.

A step that is not smooth has its continuation scheduled twice, or goes on after
`each` has returned false, or throws where nobody catches; one that is not
repaired ends with the wrong error, or not at all.
-/

namespace SnowflakeConnector

open Slice Result

variable {ρ : Type*}

namespace FetchRows

/-- Every row of the window has been delivered, or `each` has returned false. -/
def State.Done (s : State ρ) (rows : List (Row ρ)) : Prop :=
  s.delivered.map Prod.fst = rows ∨ ∃ d ∈ s.delivered, d.2 = true

section

variable {blocks : List (List ρ)} {interrupts : Prop} {start stop : Int} {p : Phase ρ}
  {todo : List (Row ρ)} {s t : State ρ} {cfg : Config ρ}

theorem Delivering.done_of_finished
    (h : Delivering cfg.parse blocks interrupts start stop p todo s) (hfin : s.Finished todo) :
    s.Done (inWindow start stop (allRows blocks)) := by
  rcases hfin with hnil | hstop
  · have hrows := h.rows
    rw [hnil, List.append_nil] at hrows
    exact .inl hrows
  · exact .inr hstop

theorem Delivering.not_done_of_waiting
    (h : Delivering cfg.parse blocks interrupts start stop p todo s) (hwait : s.Waiting blocks todo) :
    ¬ s.Done (inWindow start stop (allRows blocks)) := by
  rintro (hrows | ⟨d, hd, hstop⟩)
  · rw [← h.rows, List.self_eq_append_right] at hrows
    exact hwait.todo_ne hrows
  · rw [hwait.unstopped d hd] at hstop
    exact absurd hstop (by simp)

/-- An operation that waits for nothing has ended. -/
theorem Delivering.ended_of_quiescent
    (h : Delivering cfg.parse blocks interrupts start stop p todo s)
    (hq : Lts.Quiescent (State.step cfg) s) : ∃ err, p = .ended err := by
  by_contra hp
  obtain ⟨e, he⟩ := h.progress fun err hpe => hp ⟨err, hpe⟩
  exact he (hq e)

/-- The 'complete' events of an operation without download errors. -/
theorem Delivering.completed_eq (h : Delivering cfg.parse blocks False start stop p todo s) :
    s.completed = [] ∧ (∀ err, p ≠ .ended err) ∨ s.completed = [none] ∧ p = .ended none := by
  have hnone : ∀ es : List (Option Err), (∀ e ∈ es, e ∈ s.completed) → (∀ e ∈ es, e ≠ none) →
      es = [] := by
    intro es hmem hne
    rw [List.eq_nil_iff_forall_not_mem]
    intro e he
    exact h.completed e (hmem e he) (hne e he)
  by_cases hp : ∃ err, p = .ended err
  · obtain ⟨err, rfl⟩ := hp
    obtain ⟨⟨before, hcompleted, hbefore⟩, -, -⟩ := h.history
    have hnil := hnone before (fun e he => by rw [hcompleted]; exact List.mem_append_left _ he) hbefore
    have herr : err = none := by
      by_contra hne
      exact h.interrupted hne
    subst herr
    rw [hnil] at hcompleted
    exact .inr ⟨hcompleted, rfl⟩
  · have hhistory : ∀ e ∈ s.completed, e ≠ none := by
      have hbefore := h.history
      cases p with
      | ended err => exact absurd ⟨err, rfl⟩ hp
      | _ => exact hbefore.1
    exact .inl ⟨hnone s.completed (fun e he => he) hhistory, fun err hpe => hp ⟨err, hpe⟩⟩

/-- Without download errors there is nothing to repair. -/
theorem Delivering.repaired (h : Delivering cfg.parse blocks False start stop p todo s) {e : Event ρ}
    (hst : State.step cfg s e = some t) : s.Repaired cfg e := by
  have hok : s.resultError = none := by
    by_contra hne
    exact h.resultError hne
  cases e with
  | refetched answer =>
      simp only [State.step, Option.ite_none_right_eq_some] at hst
      obtain ⟨⟨-, hpos⟩, -⟩ := hst
      cases p with
      | refetching => exact (h.interrupted trivial).elim
      | _ =>
          have hzero := h.refetching
          simp only [Phase.refetches] at hzero
          omega
  | ticked k now =>
      rw [State.Repaired]
      split
      · next err htick =>
          have hcomplete : p = .completing err := by
            rw [h.ticks] at htick
            cases p <;> cases k <;> simp_all [Phase.ticks]
          subst hcomplete
          have herr : err = none := by
            by_contra hne
            exact h.interrupted hne
          rw [herr, hok]
          exact .inr rfl
      · trivial
  | _ => trivial

end

/-- **Delivery**: whatever the chunks, the window, the batches, the clock, the
prefetch size and the order in which loads end, the rows of the window are handed
to `each` in ascending order, each once, up to the first one for which it returns
false; the operation completes once, after the last of them, and does not rest
before. -/
theorem rows_delivered_once {cfg : Config ρ} {blocks : List (List ρ)} {chunks : Chunks Unit ρ}
    (startIndex endIndex : Option Rat) (hnum : cfg.numChunks = blocks.length)
    (hreturned : cfg.returnedRows = blocks.flatten.length) (hsound : chunks.Sound cfg.parse blocks)
    (hkept : chunks.Kept blocks.length) (hlisteners : ∀ i, (chunks.chunk i).listeners = []) :
    ∃ s, State.begin cfg chunks startIndex endIndex = .ok s ∧ ∀ es t,
      Lts.exec (State.step cfg) s es = some t →
      Lts.Along (State.step cfg)
        (fun s e => (Served cfg.parse blocks e ∧ WithoutError e) ∧ s.Smooth cfg e) s es →
      let rows := inWindow (windowStart startIndex) (windowEnd endIndex cfg.returnedRows)
        (allRows blocks)
      t.delivered.map Prod.fst <+: rows ∧
        (∀ d ∈ t.delivered.dropLast, d.2 = false) ∧
        (t.completed = [] ∨ t.completed = [none] ∧ t.Done rows ∧
          ∀ returnedFalse now, State.step cfg t (.row returnedFalse now) = none) ∧
        (Lts.Quiescent (State.step cfg) t → t.completed = [none]) ∧
        t.thrown = [] := by
  obtain ⟨s, hbegin, hstart⟩ :=
    exists_begin False startIndex endIndex hnum hreturned hsound hkept hlisteners
  refine ⟨s, hbegin, fun es t hrun halong => ?_⟩
  obtain ⟨p, todo, h⟩ : Delivers cfg.parse blocks False (windowStart startIndex)
      (windowEnd endIndex cfg.returnedRows) t := by
    refine Lts.exec_invariant_of_along ?_ hstart halong hrun
    rintro s e u ⟨p, todo, h⟩ ⟨⟨hserved, herror⟩, hsmooth⟩ hst
    exact h.step ⟨hserved, fun _ => herror, hsmooth, h.repaired hst⟩ hst
  have hcompleted := h.completed_eq
  refine ⟨⟨todo, h.rows⟩, h.flags, ?_, fun hq => ?_, h.thrown⟩
  · rcases hcompleted with ⟨hnil, -⟩ | ⟨hone, rfl⟩
    · exact .inl hnil
    · exact .inr ⟨hone, h.done_of_finished h.position, fun returnedFalse now => by
        simp [State.step, State.row, h.control, Phase.control]⟩
  · obtain ⟨err, rfl⟩ := h.ended_of_quiescent hq
    rcases hcompleted with ⟨-, hne⟩ | ⟨hone, -⟩
    · exact absurd rfl (hne err)
    · exact hone

/-- Two remote chunks of one row. -/
def sampleChunks : Chunks Unit Nat where
  chunk i := ⟨i, i, some "url", none, none, none, false, [], 0, 0⟩
  calls := []

/-- Batches of one row that may take no time. -/
def sampleConfig : Config Nat where
  parse text := if text = "0" then some [0] else if text = "1" then some [1] else none
  numChunks := 2
  returnedRows := 2
  resultPrefetch := 1
  resultProcessingBatchSize := 1
  resultProcessingBatchDuration := 0
  resultStreamInterrupts := 1

theorem kept_sampleChunks : sampleChunks.Kept 2 := fun _ _ h => absurd h (lt_irrefl 0)

theorem sound_sampleChunks : sampleChunks.Sound sampleConfig.parse [[0], [1]] := by
  intro i hi
  have hcases : i = 0 ∨ i = 1 := by
    simp only [List.length_cons, List.length_nil] at hi
    omega
  rcases hcases with rfl | rfl <;>
    exact ⟨⟨rfl, rfl, rfl⟩, Chunk.faithful_of_empty rfl rfl rfl⟩

/-- The operation for all rows of the sample, about to read. -/
def sampleStart : State Nat where
  chunks := sampleChunks
  stream := ⟨[0, 1], 1, 0⟩
  start := 0
  stop := 1
  numRowsProcessed := 0
  control := .idle
  ticks := [.read]
  resultError := none
  numInterrupts := 0
  refetching := 0
  delivered := []
  completed := []
  ended := []
  thrown := []

theorem begin_sample : State.begin sampleConfig sampleChunks none none = .ok sampleStart :=
  State.begin_of_le (by decide) (by decide +kernel)

/-- The clock stands still, and the second chunk is loaded before the first one. -/
def smoothRun : List (Event Nat) :=
  [.ticked 0 0, .answered 1 (.ok (some "1")), .answered 0 (.ok (some "0")), .notified 0, .row false 0,
    .exhausted, .completed 1, .notified 0, .row false 0, .exhausted, .ticked 0 0, .ticked 0 0]

theorem rows_delivered_once_smooth :
    ∃ t, Lts.exec (State.step sampleConfig) sampleStart smoothRun = some t ∧ t.completed = [none] ∧
      t.delivered.map Prod.fst = [⟨0, 0⟩, ⟨1, 1⟩] ∧ t.thrown = [] := by
  obtain ⟨s, hbegin, hruns⟩ :=
    rows_delivered_once none none rfl rfl sound_sampleChunks kept_sampleChunks (fun _ => rfl)
  obtain rfl : sampleStart = s := Except.ok.inj (begin_sample.symm.trans hbegin)
  obtain ⟨t, hrun, hcompleted, hrows⟩ :
      ∃ t, Lts.exec (State.step sampleConfig) sampleStart smoothRun = some t ∧
        t.completed = [none] ∧ t.delivered.map Prod.fst = [⟨0, 0⟩, ⟨1, 1⟩] :=
    Lts.exists_exec (by decide +kernel)
  have halong := hruns smoothRun t hrun (by decide +kernel)
  exact ⟨t, hrun, hcompleted, hrows, halong.2.2.2.2⟩

/-- The clock moves on during the only row of the first chunk: the rest of the batch,
which is empty, and the read of the next chunk are both scheduled, the stream is
subscribed to that chunk twice, its row is delivered twice, and the operation
completes twice. -/
theorem row_delivered_twice :
    ∃ t, Lts.exec (State.step sampleConfig) sampleStart
        [.ticked 0 0, .answered 0 (.ok (some "0")), .notified 0, .row false 1, .ticked 0 1,
          .exhausted, .answered 1 (.ok (some "1")), .notified 1, .row false 1, .exhausted,
          .notified 1, .row false 1, .exhausted, .ticked 0 1, .ticked 0 1, .ticked 0 1,
          .ticked 0 1] = some t ∧
      t.delivered.map Prod.fst = [⟨0, 0⟩, ⟨1, 1⟩, ⟨1, 1⟩] ∧ t.completed = [none, none] :=
  Lts.exists_exec (by decide +kernel)

/-- **Truth**: whatever the chunks, the window, the batches, the clock and the outcomes
of the downloads, `end` is called once at most, the operation does not rest before
it is called, and it is called without an error exactly if every row of the window
was delivered or `each` returned false. -/
theorem end_truthful {cfg : Config ρ} {blocks : List (List ρ)} {chunks : Chunks Unit ρ}
    (startIndex endIndex : Option Rat) (hnum : cfg.numChunks = blocks.length)
    (hreturned : cfg.returnedRows = blocks.flatten.length) (hsound : chunks.Sound cfg.parse blocks)
    (hkept : chunks.Kept blocks.length) (hlisteners : ∀ i, (chunks.chunk i).listeners = []) :
    ∃ s, State.begin cfg chunks startIndex endIndex = .ok s ∧ ∀ es t,
      Lts.exec (State.step cfg) s es = some t →
      Lts.Along (State.step cfg)
        (fun s e => Served cfg.parse blocks e ∧ s.Smooth cfg e ∧ s.Repaired cfg e) s es →
      let rows := inWindow (windowStart startIndex) (windowEnd endIndex cfg.returnedRows)
        (allRows blocks)
      t.ended.length ≤ 1 ∧ (∀ err ∈ t.ended, err = none ↔ t.Done rows) ∧
        (Lts.Quiescent (State.step cfg) t → t.ended.length = 1) := by
  obtain ⟨s, hbegin, hstart⟩ :=
    exists_begin True startIndex endIndex hnum hreturned hsound hkept hlisteners
  refine ⟨s, hbegin, fun es t hrun halong => ?_⟩
  obtain ⟨p, todo, h⟩ : Delivers cfg.parse blocks True (windowStart startIndex)
      (windowEnd endIndex cfg.returnedRows) t := by
    refine Lts.exec_invariant_of_along ?_ hstart halong hrun
    rintro s e u ⟨p, todo, h⟩ ⟨hserved, hsmooth, hrepaired⟩ hst
    exact h.step ⟨hserved, fun hfalse => absurd trivial hfalse, hsmooth, hrepaired⟩ hst
  have hended : (∃ err, p = .ended err) ∨ t.ended = [] := by
    have hhistory := h.history
    cases p with
    | ended err => exact .inl ⟨err, rfl⟩
    | _ => exact .inr hhistory.2
  rcases hended with ⟨err, rfl⟩ | hnil
  · obtain ⟨-, hone, hsome⟩ := h.history
    have htruth : err = none ↔ t.Done (inWindow (windowStart startIndex)
        (windowEnd endIndex cfg.returnedRows) (allRows blocks)) := by
      cases err with
      | none => exact ⟨fun _ => h.done_of_finished h.position, fun _ => rfl⟩
      | some e => exact ⟨fun hfalse => absurd hfalse (by simp),
          fun hdone => absurd hdone (h.not_done_of_waiting h.position)⟩
    refine ⟨by simp [hone], fun err' herr => ?_, fun _ => by simp [hone]⟩
    rw [hone, List.mem_singleton] at herr
    rw [herr, ← htruth, Errors.externalize_eq]
    cases err <;> cases hresult : t.resultError <;> simp_all
  · refine ⟨by simp [hnil], by simp [hnil], fun hq => ?_⟩
    obtain ⟨err, rfl⟩ := h.ended_of_quiescent hq
    obtain ⟨-, hone, -⟩ := h.history
    simp [hone] at hnil

/-- The url of the second chunk has expired, and the statement has been asked for new
ones. -/
def forbidden : Err := Errors.createLargeResultSetError 402001 (some 403)

def repairedRun : List (Event Nat) :=
  [.ticked 0 0, .answered 0 (.ok (some "0")), .notified 0, .row false 0, .exhausted,
    .answered 1 (.error forbidden), .notified 0, .ticked 0 0,
    .refetched (.ok (some [⟨1, some "new", none⟩, ⟨1, some "new", none⟩])),
    .answered 1 (.ok (some "1")), .notified 0, .row false 0, .exhausted, .ticked 0 0, .ticked 0 0]

theorem end_truthful_repaired :
    ∃ t, Lts.exec (State.step sampleConfig) sampleStart repairedRun = some t ∧ t.ended = [none] ∧
      t.Done [⟨0, 0⟩, ⟨1, 1⟩] := by
  obtain ⟨s, hbegin, hruns⟩ :=
    end_truthful none none rfl rfl sound_sampleChunks kept_sampleChunks (fun _ => rfl)
  obtain rfl : sampleStart = s := Except.ok.inj (begin_sample.symm.trans hbegin)
  obtain ⟨t, hrun, hended⟩ :
      ∃ t, Lts.exec (State.step sampleConfig) sampleStart repairedRun = some t ∧ t.ended = [none] :=
    Lts.exists_exec (by decide +kernel)
  obtain ⟨-, htruth, -⟩ := hruns repairedRun t hrun (by decide +kernel)
  exact ⟨t, hrun, hended, (htruth none (by simp [hended])).mp rfl⟩

/-- The download of the second chunk fails for good: the stream is closed with the
error, and `end` is called without one although a row is missing. -/
theorem error_lost_at_end :
    ∃ t, Lts.exec (State.step sampleConfig) sampleStart
        [.ticked 0 0, .answered 0 (.ok (some "0")), .notified 0, .row false 0, .exhausted,
          .answered 1 (.error (Errors.createLargeResultSetError 402001 (some 500))), .notified 0,
          .ticked 0 0] = some t ∧
      t.completed = [some (Errors.createLargeResultSetError 402001 (some 500))] ∧
      t.ended = [none] ∧ t.delivered = [(⟨0, 0⟩, false)] :=
  Lts.exists_exec (by decide +kernel)

end FetchRows

end SnowflakeConnector
