import Mathlib

/-!
# SnowflakeConnector.Lts

Executable labelled transition systems: a state type, an event type and a
partial step function, `none` meaning that the event is not enabled.  A run is
the list of events taken; every order in which an environment can deliver them
is some list, so a statement about all lists is one about all interleavings.

The rules proved here are the only inductions over runs of the development:

* `exec_invariant` / `exec_invariant_of_along` -- what one step keeps, a run keeps;
* `always_of_along` -- what is kept holds in every state of a run;
* `length_filter_le` -- how long a run is whose steps bring its end nearer;
* `exec_iff_along` -- what holds of a run exactly when a condition does along it;
* `along_iff_along` -- what every step of a run does exactly when a condition holds along it;
* `always_iff_along` -- what holds in every state of a run exactly when a condition does along it;
* `exec_translate` / `exec_filter` -- what follows every step, or every step that it
  sees, follows a run.
-/

namespace Lts

variable {σ ε : Type*} {step : σ → ε → Option σ}

/-- Take the events of a run one after the other. -/
def exec (step : σ → ε → Option σ) : σ → List ε → Option σ
  | s, [] => some s
  | s, e :: es => (step s e).bind fun t => exec step t es

/-- Every step of the run meets `P`, a condition on the state before the step
and the event taken. -/
def Along (step : σ → ε → Option σ) (P : σ → ε → Prop) : σ → List ε → Prop
  | _, [] => True
  | s, e :: es => P s e ∧ ∀ t ∈ step s e, Along step P t es

instance decidableAlong (step : σ → ε → Option σ) (P : σ → ε → Prop)
    [∀ s e, Decidable (P s e)] : ∀ s es, Decidable (Along step P s es)
  | _, [] => inferInstanceAs (Decidable True)
  | s, e :: es =>
      have : ∀ t, Decidable (Along step P t es) := fun t => decidableAlong step P t es
      inferInstanceAs (Decidable (_ ∧ ∀ t ∈ step s e, _))

/-- No event is enabled any more. -/
def Quiescent (step : σ → ε → Option σ) (s : σ) : Prop := ∀ e, step s e = none

@[simp] theorem exec_nil (s : σ) : exec step s [] = some s := rfl

@[simp] theorem exec_cons (s : σ) (e : ε) (es : List ε) :
    exec step s (e :: es) = (step s e).bind fun t => exec step t es := rfl

theorem exec_cons_eq_some {s t : σ} {e : ε} {es : List ε} :
    exec step s (e :: es) = some t ↔ ∃ u, step s e = some u ∧ exec step u es = some t := by
  simp [Option.bind_eq_some_iff]

theorem exec_append (s : σ) (es fs : List ε) :
    exec step s (es ++ fs) = (exec step s es).bind fun t => exec step t fs := by
  induction es generalizing s with
  | nil => rfl
  | cons e es ih =>
      cases h : step s e with
      | none => simp [h]
      | some t => simp [h, ih]

/-- A run that can be taken, with what its last state satisfies. -/
theorem exists_exec {s : σ} {es : List ε} {P : σ → Prop} [DecidablePred P]
    (h : (exec step s es).any (fun t => decide (P t)) = true) :
    ∃ t, exec step s es = some t ∧ P t := by
  obtain ⟨t, ht, hP⟩ := (Option.any_eq_true _ _).mp h
  exact ⟨t, ht, of_decide_eq_true hP⟩

/-! ## conditions along a run -/

theorem along_append {P : σ → ε → Prop} {s : σ} {es fs : List ε} :
    Along step P s (es ++ fs) ↔ Along step P s es ∧ ∀ t ∈ exec step s es, Along step P t fs := by
  induction es generalizing s with
  | nil => simp [Along]
  | cons e es ih =>
      cases h : step s e with
      | none => simp [Along, h]
      | some t => simp [Along, h, ih, and_assoc]

theorem along_true (s : σ) (es : List ε) : Along step (fun _ _ => True) s es := by
  induction es generalizing s with
  | nil => trivial
  | cons e es ih => exact ⟨trivial, fun t _ => ih t⟩

/-- A condition on the events alone. -/
theorem along_of_forall {P : σ → ε → Prop} {s : σ} {es : List ε} (h : ∀ s, ∀ e ∈ es, P s e) :
    Along step P s es := by
  induction es generalizing s with
  | nil => trivial
  | cons e es ih =>
      exact ⟨h s e (by simp), fun t _ => ih fun s e he => h s e (List.mem_cons_of_mem _ he)⟩

theorem Along.mono {P Q : σ → ε → Prop} (hPQ : ∀ s e, P s e → Q s e) {s : σ} {es : List ε}
    (h : Along step P s es) : Along step Q s es := by
  induction es generalizing s with
  | nil => trivial
  | cons e es ih => exact ⟨hPQ s e h.1, fun t ht => ih (h.2 t ht)⟩

/-- A condition that an invariant implies at every enabled step holds along
every run from a state with the invariant. -/
theorem along_of_invariant {Inv : σ → Prop} {P Q : σ → ε → Prop}
    (hQ : ∀ s e t, Inv s → P s e → step s e = some t → Q s e)
    (hstep : ∀ s e t, Inv s → P s e → step s e = some t → Inv t)
    {s t : σ} {es : List ε} (hs : Inv s) (hP : Along step P s es)
    (h : exec step s es = some t) : Along step Q s es := by
  induction es generalizing s with
  | nil => trivial
  | cons e es ih =>
      obtain ⟨u, hu, hrest⟩ := exec_cons_eq_some.mp h
      refine ⟨hQ s e u hs hP.1 hu, fun v hv => ?_⟩
      obtain rfl : u = v := Option.some.inj (hu.symm.trans hv)
      exact ih (hstep s e u hs hP.1 hu) (hP.2 u hu) hrest

/-! ## invariants -/

/-- What every step meeting `P` keeps holds at the end of every run whose steps
all meet `P`. -/
theorem exec_invariant_of_along {Inv : σ → Prop} {P : σ → ε → Prop}
    (hstep : ∀ s e t, Inv s → P s e → step s e = some t → Inv t)
    {s t : σ} {es : List ε} (hs : Inv s) (hP : Along step P s es)
    (h : exec step s es = some t) : Inv t := by
  induction es generalizing s with
  | nil => cases h; exact hs
  | cons e es ih =>
      obtain ⟨u, hu, hrest⟩ := exec_cons_eq_some.mp h
      exact ih (hstep s e u hs hP.1 hu) (hP.2 u hu) hrest

/-- What every step keeps holds at the end of every run. -/
theorem exec_invariant {Inv : σ → Prop}
    (hstep : ∀ s e t, Inv s → step s e = some t → Inv t)
    {s t : σ} {es : List ε} (hs : Inv s) (h : exec step s es = some t) : Inv t :=
  exec_invariant_of_along (P := fun _ _ => True) (fun s e t hi _ => hstep s e t hi) hs
    (along_true s es) h

/-- Where a step keeps `S` exactly when it meets `P`, a run does when all of its steps do. -/
theorem exec_iff_along {Inv S : σ → Prop} {P : σ → ε → Prop}
    (hstep : ∀ s e t, Inv s → step s e = some t → Inv t)
    (hiff : ∀ s e t, Inv s → step s e = some t → (S t ↔ S s ∧ P s e))
    {s t : σ} {es : List ε} (hs : Inv s) (h : exec step s es = some t) :
    S t ↔ S s ∧ Along step P s es := by
  induction es generalizing s with
  | nil =>
      cases h
      simp [Along]
  | cons e es ih =>
      obtain ⟨u, hu, hrest⟩ := exec_cons_eq_some.mp h
      rw [ih (hstep s e u hs hu) hrest, hiff s e u hs hu]
      simp [Along, hu, and_assoc]

/-- `S` holds in every state of the run. -/
def Always (step : σ → ε → Option σ) (S : σ → Prop) (s : σ) (es : List ε) : Prop :=
  S s ∧ Along step (fun s e => ∀ t ∈ step s e, S t) s es

/-- What every step meeting `P` keeps, and what follows from it, holds in every state of a run
whose steps all meet `P`. -/
theorem always_of_along {Inv S : σ → Prop} {P : σ → ε → Prop} (hS : ∀ s, Inv s → S s)
    (hstep : ∀ s e t, Inv s → P s e → step s e = some t → Inv t) {s : σ} {es : List ε}
    (hs : Inv s) (hP : Along step P s es) : Always step S s es := by
  refine ⟨hS s hs, ?_⟩
  induction es generalizing s with
  | nil => trivial
  | cons e es ih =>
      have hnext : ∀ t ∈ step s e, Inv t := fun t ht => hstep s e t hs hP.1 ht
      exact ⟨fun t ht => hS t (hnext t ht), fun t ht => ih (hnext t ht) (hP.2 t ht)⟩

/-- Where a step does what `T` says exactly when it meets `P`, every step of a run does when all of
them meet it; the steps meet `Q` all along. -/
theorem along_iff_along {Inv : σ → Prop} {T : σ → ε → σ → Prop} {P Q : σ → ε → Prop}
    (hstep : ∀ s e t, Inv s → Q s e → P s e → step s e = some t → Inv t)
    (hiff : ∀ s e t, Inv s → Q s e → step s e = some t → (T s e t ↔ P s e))
    {s t : σ} {es : List ε} (hs : Inv s) (hQ : Along step Q s es) (h : exec step s es = some t) :
    Along step (fun s e => ∀ t ∈ step s e, T s e t) s es ↔ Along step P s es := by
  induction es generalizing s with
  | nil => simp [Along]
  | cons e es ih =>
      obtain ⟨u, hu, hrest⟩ := exec_cons_eq_some.mp h
      simp only [Along, hu, Option.mem_some_iff, forall_eq', hiff s e u hs hQ.1 hu]
      refine and_congr_right fun hP => ?_
      exact ih (hstep s e u hs hQ.1 hP hu) (hQ.2 u hu) hrest

/-- Where a step leads from a state with `S` to one with `S` exactly when it meets `P`, `S` holds
in every state of a run when all of its steps meet `P`. -/
theorem always_iff_along {Inv S : σ → Prop} {P : σ → ε → Prop}
    (hstep : ∀ s e t, Inv s → step s e = some t → Inv t)
    (hiff : ∀ s e t, Inv s → S s → step s e = some t → (S t ↔ P s e))
    {s t : σ} {es : List ε} (hs : Inv s) (hS : S s) (h : exec step s es = some t) :
    Always step S s es ↔ Along step P s es := by
  simp only [Always, hS, true_and]
  have hboth : ∀ s e t, Inv s ∧ S s → True → P s e → step s e = some t → Inv t ∧ S t :=
    fun s e t hs _ hP hst => ⟨hstep s e t hs.1 hst, (hiff s e t hs.1 hs.2 hst).mpr hP⟩
  exact along_iff_along hboth (fun s e t hs _ hst => hiff s e t hs.1 hs.2 hst) ⟨hs, hS⟩
    (along_true s es) h

/-- A run has no more of the events that `p` selects than a measure that they decrease, and that
no event increases. -/
theorem length_filter_le {Inv : σ → Prop} {P : σ → ε → Prop} {p : ε → Bool} {measure : σ → Nat}
    (hstep : ∀ s e t, Inv s → P s e → step s e = some t →
      Inv t ∧ measure t + (if p e = true then 1 else 0) ≤ measure s)
    {s t : σ} {es : List ε} (hs : Inv s) (hP : Along step P s es)
    (h : exec step s es = some t) : (es.filter p).length + measure t ≤ measure s := by
  induction es generalizing s with
  | nil =>
      cases h
      simp
  | cons e es ih =>
      obtain ⟨u, hu, hrest⟩ := exec_cons_eq_some.mp h
      obtain ⟨hInv, hle⟩ := hstep s e u hs hP.1 hu
      have hrun := ih hInv (hP.2 u hu) hrest
      rw [List.filter_cons]
      split_ifs with hp
      · rw [if_pos hp] at hle
        rw [List.length_cons]
        omega
      · rw [if_neg hp] at hle
        omega

/-! ## simulation -/

section

variable {σ' ε' : Type*} {step' : σ' → ε' → Option σ'}

/-- The run of another system in which `f` says what is done for every event. -/
def translate (step : σ → ε → Option σ) (f : σ → ε → List ε') : σ → List ε → List ε'
  | _, [] => []
  | s, e :: es => f s e ++ ((step s e).map fun t => translate step f t es).getD []

/-- Where every step is followed by the other system, every run is. -/
theorem exec_translate {f : σ → ε → List ε'} {R : σ → σ' → Prop} {P : σ → ε → Prop}
    (hsim : ∀ s e t u, R s u → P s e → step s e = some t →
      ∃ v, exec step' u (f s e) = some v ∧ R t v)
    {s t : σ} {u : σ'} {es : List ε} (hR : R s u) (hP : Along step P s es)
    (h : exec step s es = some t) :
    ∃ v, exec step' u (translate step f s es) = some v ∧ R t v := by
  induction es generalizing s u with
  | nil =>
      cases h
      exact ⟨u, rfl, hR⟩
  | cons e es ih =>
      obtain ⟨w, hw, hrest⟩ := exec_cons_eq_some.mp h
      obtain ⟨x, hx, hRx⟩ := hsim s e w u hR hP.1 hw
      obtain ⟨v, hv, hRv⟩ := ih hRx (hP.2 w hw) hrest
      refine ⟨v, ?_, hRv⟩
      rw [translate, hw, exec_append, hx]
      exact hv

/-- Where the events that `p` does not select are not seen by the other system, the run
of the others is followed. -/
theorem exec_filter {step'' : σ' → ε → Option σ'} {p : ε → Bool} {R : σ → σ' → Prop}
    {P : σ → ε → Prop}
    (hseen : ∀ s e t u, R s u → P s e → p e = true → step s e = some t →
      ∃ v, step'' u e = some v ∧ R t v)
    (hunseen : ∀ s e t u, R s u → p e = false → step s e = some t → R t u)
    {s t : σ} {u : σ'} {es : List ε} (hR : R s u) (hP : Along step P s es)
    (h : exec step s es = some t) : ∃ v, exec step'' u (es.filter p) = some v ∧ R t v := by
  induction es generalizing s u with
  | nil =>
      cases h
      exact ⟨u, rfl, hR⟩
  | cons e es ih =>
      obtain ⟨w, hw, hrest⟩ := exec_cons_eq_some.mp h
      cases hp : p e with
      | true =>
          obtain ⟨x, hx, hRx⟩ := hseen s e w u hR hP.1 hp hw
          obtain ⟨v, hv, hRv⟩ := ih hRx (hP.2 w hw) hrest
          refine ⟨v, ?_, hRv⟩
          rw [List.filter_cons_of_pos hp, exec_cons, hx]
          exact hv
      | false =>
          obtain ⟨v, hv, hRv⟩ := ih (hunseen s e w u hR hp hw) (hP.2 w hw) hrest
          refine ⟨v, ?_, hRv⟩
          rw [List.filter_cons_of_neg (by simp [hp])]
          exact hv

end

end Lts
