import Mathlib.Data.List.Forall2

/-!
# SnowflakeConnector.Loops

Loops over a list whose body may throw: which errors they can end with, and what they
return when they end with none.

* `foldlM_eq_ok_iff`, `mapM_eq_ok_iff` -- a loop returns when its body does at every turn.
* `forM_eq_error_iff` -- a loop stops at the first error of its body.
* `forall₂_of_forall_exists` -- results for every element, collected.
-/

namespace SnowflakeConnector

namespace Loops

section

universe u v w

variable {ε : Type u} {α β : Type v} {e : ε}

/-! ## errors -/

theorem bind_ne_error {x : Except ε α} {f : α → Except ε β} (hx : x ≠ .error e)
    (hf : ∀ a, f a ≠ .error e) : x >>= f ≠ .error e := by
  cases x with
  | error e' => exact fun h => hx (congrArg Except.error (Except.error.inj h))
  | ok a => exact hf a

theorem map_ne_error {x : Except ε α} (f : α → β) (hx : x ≠ .error e) : x.map f ≠ .error e := by
  cases x with
  | error e' => simpa [Except.map] using hx
  | ok a => simp [Except.map]

theorem foldlM_ne_error {f : β → α → Except ε β} {l : List α}
    (h : ∀ b, ∀ a ∈ l, f b a ≠ .error e) (b : β) : l.foldlM f b ≠ .error e := by
  induction l generalizing b with
  | nil => simp [pure, Except.pure]
  | cons a l ih =>
      rw [List.foldlM_cons]
      exact bind_ne_error (h b a (by simp)) fun b' =>
        ih (fun b a ha => h b a (List.mem_cons_of_mem _ ha)) b'

theorem mapM_ne_error {f : α → Except ε β} {l : List α} (h : ∀ a ∈ l, f a ≠ .error e) :
    l.mapM f ≠ .error e := by
  induction l with
  | nil => simp [pure, Except.pure]
  | cons a l ih =>
      rw [List.mapM_cons]
      refine bind_ne_error (h a (by simp)) fun b => bind_ne_error ?_ fun bs => ?_
      · exact ih fun a ha => h a (List.mem_cons_of_mem _ ha)
      · simp [pure, Except.pure]

/-! ## results -/

theorem bind_eq_ok_iff {x : Except ε α} {f : α → Except ε β} {b : β} :
    x >>= f = .ok b ↔ ∃ a, x = .ok a ∧ f a = .ok b := by
  cases x with
  | error e' => simp [bind, Except.bind]
  | ok a => simp [bind, Except.bind]

theorem map_eq_ok_iff {γ : Type w} {x : Except ε α} {f : α → γ} {b : γ} :
    x.map f = .ok b ↔ ∃ a, x = .ok a ∧ f a = b := by
  cases x with
  | error e' => simp [Except.map]
  | ok a => simp [Except.map]

theorem mapM_eq_ok_iff {f : α → Except ε β} {l : List α} {bs : List β} :
    l.mapM f = .ok bs ↔ List.Forall₂ (fun a b => f a = .ok b) l bs := by
  induction l generalizing bs with
  | nil => simp [pure, Except.pure, eq_comm]
  | cons a l ih =>
      rw [List.mapM_cons, List.forall₂_cons_left_iff, bind_eq_ok_iff]
      constructor
      · rintro ⟨b, hb, hrest⟩
        obtain ⟨bs', hbs', hpure⟩ := bind_eq_ok_iff.mp hrest
        exact ⟨b, bs', hb, ih.mp hbs', (Except.ok.inj hpure).symm⟩
      · rintro ⟨b, bs', hb, hbs', rfl⟩
        exact ⟨b, hb, bind_eq_ok_iff.mpr ⟨bs', ih.mpr hbs', rfl⟩⟩

/-- A loop stops at the first error of its body. -/
theorem forM_eq_error_iff {f : α → Except ε PUnit} {l : List α} :
    forM l f = .error e ↔
      ∃ before a after, l = before ++ a :: after ∧ (∀ b ∈ before, f b = .ok ⟨⟩) ∧
        f a = .error e := by
  induction l with
  | nil => simp [pure, Except.pure]
  | cons a l ih =>
      rw [List.forM_cons]
      cases ha : f a with
      | error e' =>
          constructor
          · intro h
            obtain rfl := Except.error.inj h
            exact ⟨[], a, l, rfl, by simp, ha⟩
          · rintro ⟨before, a', after, hl, hbefore, ha'⟩
            cases before with
            | nil =>
                rw [List.nil_append] at hl
                rw [(List.cons.inj hl).1, ha'] at ha
                rw [← ha]
                rfl
            | cons b before =>
                have hb := hbefore b (by simp)
                rw [← (List.cons.inj hl).1, ha] at hb
                contradiction
      | ok u =>
          change forM l f = .error e ↔ _
          rw [ih]
          constructor
          · rintro ⟨before, a', after, rfl, hbefore, ha'⟩
            exact ⟨a :: before, a', after, rfl, List.forall_mem_cons.mpr ⟨ha, hbefore⟩, ha'⟩
          · rintro ⟨before, a', after, hl, hbefore, ha'⟩
            cases before with
            | nil =>
                rw [List.nil_append] at hl
                rw [← (List.cons.inj hl).1, ha] at ha'
                contradiction
            | cons b before =>
                exact ⟨before, a', after, (List.cons.inj hl).2,
                  fun b hb => hbefore b (List.mem_cons_of_mem _ hb), ha'⟩

theorem forM_flatMap {γ : Type v} (f : β → Except ε PUnit) (g : γ → List β) (l : List γ) :
    forM (l.flatMap g) f = forM l fun a => forM (g a) f := by
  induction l with
  | nil => rfl
  | cons a l ih => rw [List.flatMap_cons, List.forM_append, List.forM_cons, ih]

/-- A loop that converts every element and puts the results together one by one. -/
theorem foldlM_eq_ok_iff {γ : Type v} (f : α → Except ε γ) (g : β → γ → β) {l : List α} {b out : β} :
    (l.foldlM (fun b a => f a >>= fun c => pure (g b c)) b : Except ε β) = .ok out ↔
      ∃ cs, List.Forall₂ (fun a c => f a = .ok c) l cs ∧ out = cs.foldl g b := by
  induction l generalizing b with
  | nil => simp [pure, Except.pure, eq_comm]
  | cons a l ih =>
      rw [List.foldlM_cons, bind_eq_ok_iff]
      constructor
      · rintro ⟨b', hb', hrest⟩
        obtain ⟨c, hc, hpure⟩ := bind_eq_ok_iff.mp hb'
        obtain rfl := Except.ok.inj hpure
        obtain ⟨cs, hcs, hout⟩ := ih.mp hrest
        exact ⟨c :: cs, .cons hc hcs, by rw [hout, List.foldl_cons]⟩
      · rintro ⟨cs', hcs', hout⟩
        obtain ⟨c, cs, hc, hcs, rfl⟩ := List.forall₂_cons_left_iff.mp hcs'
        refine ⟨g b c, bind_eq_ok_iff.mpr ⟨c, hc, rfl⟩, ih.mpr ⟨cs, hcs, ?_⟩⟩
        rw [hout, List.foldl_cons]

end

section

variable {α β : Type*} {R S : α → β → Prop}

/-- What an element gives does not depend on its place. -/
theorem map_mapIdx_eq_map {γ : Type*} {f : Nat → α → β} {g : β → γ} {g' : α → γ}
    (h : ∀ i a, g (f i a) = g' a) (l : List α) : (l.mapIdx f).map g = l.map g' := by
  induction l generalizing f with
  | nil => rfl
  | cons a l ih =>
      rw [List.mapIdx_cons, List.map_cons, List.map_cons, h, ih fun i a => h (i + 1) a]

theorem forall₂_of_forall_exists {l : List α} (h : ∀ a ∈ l, ∃ b, R a b) :
    ∃ bs, List.Forall₂ R l bs := by
  induction l with
  | nil => exact ⟨[], .nil⟩
  | cons a l ih =>
      obtain ⟨b, hb⟩ := h a (by simp)
      obtain ⟨bs, hbs⟩ := ih fun a ha => h a (List.mem_cons_of_mem _ ha)
      exact ⟨b :: bs, .cons hb hbs⟩

theorem forall₂_and {l : List α} {bs : List β} :
    List.Forall₂ (fun a b => R a b ∧ S a b) l bs ↔ List.Forall₂ R l bs ∧ List.Forall₂ S l bs := by
  constructor
  · exact fun h => ⟨h.imp fun _ _ hab => hab.1, h.imp fun _ _ hab => hab.2⟩
  · rintro ⟨hR, hS⟩
    exact hR.mp (fun _ _ ha hb => ⟨ha, hb⟩) hS

theorem exists_of_forall₂_left {l : List α} {bs : List β} (h : List.Forall₂ R l bs) :
    ∀ a ∈ l, ∃ b ∈ bs, R a b := by
  induction h with
  | nil => simp
  | cons hab _ ih =>
      intro a ha
      obtain rfl | ha := List.mem_cons.mp ha
      · exact ⟨_, by simp, hab⟩
      · obtain ⟨b, hb, hab⟩ := ih a ha
        exact ⟨b, List.mem_cons_of_mem _ hb, hab⟩

theorem exists_of_forall₂_right {l : List α} {bs : List β} (h : List.Forall₂ R l bs) :
    ∀ b ∈ bs, ∃ a ∈ l, R a b := by
  induction h with
  | nil => simp
  | cons hab _ ih =>
      intro b hb
      obtain rfl | hb := List.mem_cons.mp hb
      · exact ⟨_, by simp, hab⟩
      · obtain ⟨a, ha, hab⟩ := ih b hb
        exact ⟨a, List.mem_cons_of_mem _ ha, hab⟩

/-- A relation between the elements is one between the results. -/
theorem pairwise_iff_of_forall₂ {P : α → α → Prop} {Q : β → β → Prop} {l : List α} {bs : List β}
    (h : List.Forall₂ R l bs) (hiff : ∀ a b a' b', R a b → R a' b' → (P a a' ↔ Q b b')) :
    l.Pairwise P ↔ bs.Pairwise Q := by
  induction h with
  | nil => simp
  | cons hab hrest ih =>
      rw [List.pairwise_cons, List.pairwise_cons, ih]
      refine and_congr_left fun _ => ⟨fun hP b hb => ?_, fun hQ a ha => ?_⟩
      · obtain ⟨a, ha, hab'⟩ := exists_of_forall₂_right hrest b hb
        exact (hiff _ _ _ _ hab hab').mp (hP a ha)
      · obtain ⟨b, hb, hab'⟩ := exists_of_forall₂_left hrest a ha
        exact (hiff _ _ _ _ hab hab').mpr (hQ b hb)

end

end Loops

end SnowflakeConnector
