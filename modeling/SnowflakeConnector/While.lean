import Mathlib.Logic.Relation

/-!
# SnowflakeConnector.While

Loops that may not end: a turn of the loop either goes on in a next state or leaves with a
result, and the loop is run with as many turns as it is given.

* `endsWith_iff_of_next`, `endsWith_iff_of_done` -- one turn of a loop, without its fuel.
* `EndsWith.unique` -- a loop ends in one way.
* `Reaches.simulates` -- a loop that follows another one, turn by turn.
* `not_endsWith` -- a set of states that no turn leaves is a set from which no loop ends.
-/

namespace SnowflakeConnector

namespace While

universe u v

/-- What one turn comes to. -/
inductive Turn (σ : Type u) (β : Type v)
  | next (s : σ)
  | done (b : β)

variable {σ : Type u} {β : Type v} {step : σ → Turn σ β} {s s' : σ} {b b' : β}

/-- The loop, for at most `fuel` turns; `none` when it is still going on. -/
def loop (step : σ → Turn σ β) : Nat → σ → Option β
  | 0, _ => none
  | fuel + 1, s =>
      match step s with
      | .next s' => loop step fuel s'
      | .done b => some b

/-- The loop ends with a result. -/
def EndsWith (step : σ → Turn σ β) (s : σ) (b : β) : Prop :=
  ∃ fuel, loop step fuel s = some b

theorem loop_of_next (h : step s = .next s') (fuel : Nat) :
    loop step (fuel + 1) s = loop step fuel s' := by
  rw [loop, h]

theorem loop_of_done (h : step s = .done b) (fuel : Nat) : loop step (fuel + 1) s = some b := by
  rw [loop, h]

/-- More turns do not change the result. -/
theorem loop_mono {n m : Nat} (hle : n ≤ m) (h : loop step n s = some b) :
    loop step m s = some b := by
  induction n generalizing m s with
  | zero => rw [loop] at h; contradiction
  | succ n ih =>
      obtain ⟨m, rfl⟩ : ∃ k, m = k + 1 := ⟨m - 1, by omega⟩
      cases hstep : step s with
      | next s' =>
          rw [loop_of_next hstep] at h ⊢
          exact ih (by omega) h
      | done b' =>
          rw [loop_of_done hstep] at h ⊢
          exact h

theorem EndsWith.unique (h : EndsWith step s b) (h' : EndsWith step s b') : b = b' := by
  obtain ⟨n, hn⟩ := h
  obtain ⟨m, hm⟩ := h'
  have hn' := loop_mono (Nat.le_max_left n m) hn
  rw [loop_mono (Nat.le_max_right n m) hm] at hn'
  exact (Option.some.inj hn').symm

theorem endsWith_iff_of_next (h : step s = .next s') :
    EndsWith step s b ↔ EndsWith step s' b := by
  constructor
  · intro ⟨fuel, hfuel⟩
    cases fuel with
    | zero => rw [loop] at hfuel; contradiction
    | succ fuel => exact ⟨fuel, by rw [← loop_of_next h, hfuel]⟩
  · intro ⟨fuel, hfuel⟩
    exact ⟨fuel + 1, by rw [loop_of_next h, hfuel]⟩

theorem endsWith_iff_of_done (h : step s = .done b') : EndsWith step s b ↔ b' = b := by
  constructor
  · intro ⟨fuel, hfuel⟩
    cases fuel with
    | zero => rw [loop] at hfuel; contradiction
    | succ fuel =>
        rw [loop_of_done h] at hfuel
        exact Option.some.inj hfuel
  · intro hb
    exact ⟨1, by rw [loop_of_done h, hb]⟩

/-- States that the loop goes on from to states of the same kind. -/
theorem not_endsWith {P : σ → Prop} (hP : ∀ s, P s → ∃ s', step s = .next s' ∧ P s') (h : P s) :
    ¬ EndsWith step s b := by
  intro ⟨fuel, hfuel⟩
  induction fuel generalizing s with
  | zero => rw [loop] at hfuel; contradiction
  | succ fuel ih =>
      obtain ⟨s', hstep, hs'⟩ := hP s h
      rw [loop_of_next hstep] at hfuel
      exact ih hs' hfuel

/-! ## reaching a state -/

/-- The loop gets from a state to another one. -/
def Reaches (step : σ → Turn σ β) : σ → σ → Prop :=
  Relation.ReflTransGen fun s s' => step s = .next s'

theorem Reaches.refl (step : σ → Turn σ β) (s : σ) : Reaches step s s :=
  Relation.ReflTransGen.refl

theorem Reaches.tail {s'' : σ} (h : Reaches step s s') (hstep : step s' = .next s'') :
    Reaches step s s'' :=
  Relation.ReflTransGen.tail h hstep

/-- A loop that ends gets to a last turn. -/
theorem EndsWith.exists_last (h : EndsWith step s b) :
    ∃ s', Reaches step s s' ∧ step s' = .done b := by
  obtain ⟨fuel, hfuel⟩ := h
  induction fuel generalizing s with
  | zero => rw [loop] at hfuel; contradiction
  | succ fuel ih =>
      cases hstep : step s with
      | done b' =>
          rw [loop_of_done hstep] at hfuel
          exact ⟨s, .refl step s, by rw [hstep, Option.some.inj hfuel]⟩
      | next s' =>
          rw [loop_of_next hstep] at hfuel
          obtain ⟨s'', hreaches, hdone⟩ := ih hfuel
          exact ⟨s'', Relation.ReflTransGen.head hstep hreaches, hdone⟩

theorem Reaches.endsWith (h : Reaches step s s') (hdone : step s' = .done b) :
    EndsWith step s b := by
  induction h using Relation.ReflTransGen.head_induction_on with
  | refl => exact (endsWith_iff_of_done hdone).mpr rfl
  | head hstep _ ih => exact (endsWith_iff_of_next hstep).mpr ih

/-- A relation that the turns of two loops keep relates the states that they reach. -/
theorem Reaches.simulates {τ : Type*} {γ : Type*} {step' : τ → Turn τ γ} {R : σ → τ → Prop}
    (hR : ∀ s t s', R s t → step s = .next s' → ∃ t', step' t = .next t' ∧ R s' t') {t : τ}
    (h : Reaches step s s') (hs : R s t) : ∃ t', Reaches step' t t' ∧ R s' t' := by
  induction h with
  | refl => exact ⟨t, .refl step' t, hs⟩
  | tail _ hstep ih =>
      obtain ⟨t', hreaches, ht'⟩ := ih
      obtain ⟨t'', hstep', ht''⟩ := hR _ _ _ ht' hstep
      exact ⟨t'', hreaches.tail hstep', ht''⟩

end While

end SnowflakeConnector
