import Mathlib

/-!
# SnowflakeConnector.Slice

`Array.prototype.slice` on lists, and windows of consecutively numbered lists.

A list is `NumberedFrom` a base when its elements carry consecutive numbers
starting there.  On such a list the part inside a window `a..b` of numbers can
be cut out by positions (`slice`) or picked by numbers (`filter`); the two agree
(`slice_eq_filter`), and picking by numbers distributes over concatenation, which
is what a result cut into chunks needs.
-/

namespace Slice

variable {α : Type*}

/-- `Array.prototype.slice(start, stop)`: a negative position counts from the
end, and both are clamped to the length. -/
def slice (xs : List α) (start stop : Int) : List α :=
  let n : Int := xs.length
  let k := if start < 0 then max (n + start) 0 else min start n
  let m := if stop < 0 then max (n + stop) 0 else min stop n
  (xs.drop k.toNat).take (m.toNat - k.toNat)

/-- Positions that are not negative cut as `take` and `drop` do. -/
theorem slice_of_nonneg (xs : List α) {start stop : Int} (h₁ : 0 ≤ start) (h₂ : 0 ≤ stop) :
    slice xs start stop = (xs.take stop.toNat).drop start.toNat := by
  simp only [slice, if_neg (Int.not_lt.mpr h₁), if_neg (Int.not_lt.mpr h₂)]
  rw [List.drop_take]
  by_cases h : start ≤ xs.length
  · rw [Int.min_eq_left h]
    by_cases h' : stop ≤ xs.length
    · rw [Int.min_eq_left h']
    · have hmin : min stop (xs.length : Int) = xs.length := Int.min_eq_right (by omega)
      rw [hmin, List.take_of_length_le (by simp), List.take_of_length_le (by simp; omega)]
  · have hmin : min start (xs.length : Int) = xs.length := Int.min_eq_right (by omega)
    have hs : xs.drop start.toNat = [] := List.drop_eq_nil_of_le (by omega)
    simp [hmin, hs]

/-! ## numbered lists -/

/-- The elements of `xs` carry the numbers `b, b + 1, …`. -/
def NumberedFrom (idx : α → Int) : Int → List α → Prop
  | _, [] => True
  | b, x :: xs => idx x = b ∧ NumberedFrom idx (b + 1) xs

variable {idx : α → Int}

/-- Every element's number lies between the base and the base plus the length. -/
theorem NumberedFrom.mem {b : Int} {xs : List α} (h : NumberedFrom idx b xs) {x : α}
    (hx : x ∈ xs) : b ≤ idx x ∧ idx x < b + xs.length := by
  induction xs generalizing b with
  | nil => cases hx
  | cons y ys ih =>
      obtain ⟨hy, hys⟩ := h
      rcases List.mem_cons.mp hx with rfl | hx
      · simp only [List.length_cons]; omega
      · have := ih hys hx
        simp only [List.length_cons]; omega

/-- No two elements carry the same number. -/
theorem NumberedFrom.eq_of_eq {b : Int} {xs : List α} (h : NumberedFrom idx b xs) {x y : α}
    (hx : x ∈ xs) (hy : y ∈ xs) (hxy : idx x = idx y) : x = y := by
  induction xs generalizing b with
  | nil => cases hx
  | cons z zs ih =>
      obtain ⟨hz, hzs⟩ := h
      rcases List.mem_cons.mp hx with hxz | hx' <;> rcases List.mem_cons.mp hy with hyz | hy'
      · rw [hxz, hyz]
      · have hlow := (hzs.mem hy').1
        rw [hxz] at hxy
        omega
      · have hlow := (hzs.mem hx').1
        rw [hyz] at hxy
        omega
      · exact ih hzs hx' hy'

/-- Numbers up to `e` are a prefix. -/
theorem NumberedFrom.filter_le {b : Int} {xs : List α} (h : NumberedFrom idx b xs) (e : Int) :
    xs.filter (fun x => decide (idx x ≤ e)) = xs.take (e + 1 - b).toNat := by
  induction xs generalizing b with
  | nil => simp
  | cons x xs ih =>
      obtain ⟨hx, hxs⟩ := h
      rw [List.filter_cons, ih hxs]
      by_cases hle : b ≤ e
      · have hsucc : (e + 1 - b).toNat = (e + 1 - (b + 1)).toNat + 1 := by omega
        simp [hx, hle, hsucc]
      · have hzero : (e + 1 - b).toNat = 0 := by omega
        have hzero' : (e + 1 - (b + 1)).toNat = 0 := by omega
        rw [hx, decide_eq_false hle, hzero, hzero', List.take_zero, List.take_zero]
        rfl

/-- Numbers from `s` on are a suffix. -/
theorem NumberedFrom.filter_ge {b : Int} {xs : List α} (h : NumberedFrom idx b xs) (s : Int) :
    xs.filter (fun x => decide (s ≤ idx x)) = xs.drop (s - b).toNat := by
  induction xs generalizing b with
  | nil => simp
  | cons x xs ih =>
      obtain ⟨hx, hxs⟩ := h
      rw [List.filter_cons, ih hxs]
      by_cases hle : s ≤ b
      · have hzero : (s - b).toNat = 0 := by omega
        have hzero' : (s - (b + 1)).toNat = 0 := by omega
        rw [hx, decide_eq_true hle, hzero, hzero', List.drop_zero, List.drop_zero]
        rfl
      · have hsucc : (s - b).toNat = (s - (b + 1)).toNat + 1 := by omega
        simp [hx, hle, hsucc]

theorem NumberedFrom.take {b : Int} {xs : List α} (h : NumberedFrom idx b xs) (n : Nat) :
    NumberedFrom idx b (xs.take n) := by
  induction xs generalizing b n with
  | nil => simp [NumberedFrom]
  | cons x xs ih =>
      cases n with
      | zero => trivial
      | succ n => exact ⟨h.1, ih h.2 n⟩

/-- The part of a numbered list inside `a..b`, picked by number, is the part cut
out by position. -/
theorem NumberedFrom.filter_eq {s : Int} {xs : List α} (h : NumberedFrom idx s xs) (a b : Int) :
    xs.filter (fun x => decide (a ≤ idx x ∧ idx x ≤ b)) =
      (xs.take (b + 1 - s).toNat).drop (a - s).toNat := by
  rw [← (h.take _).filter_ge, ← h.filter_le, List.filter_filter]
  congr 1
  funext x
  simp [Bool.decide_and]

/-- The positions that `max s a - s` and `min t b + 1 - s` compute, `t` the last
number of the list, cut out the part inside `a..b`. -/
theorem NumberedFrom.slice_eq_filter {s t : Int} {xs : List α} (h : NumberedFrom idx s xs)
    (ht : t = s + xs.length - 1) {a b : Int} (hb : s ≤ b + 1) :
    slice xs (max s a - s) (min t b + 1 - s) =
      xs.filter (fun x => decide (a ≤ idx x ∧ idx x ≤ b)) := by
  rw [slice_of_nonneg xs (by omega) (by omega), h.filter_eq]
  have hstart : (max s a - s).toNat = (a - s).toNat := by omega
  rw [hstart]
  by_cases hle : t ≤ b
  · rw [List.take_of_length_le (by omega), List.take_of_length_le (by omega)]
  · have hstop : (min t b + 1 - s).toNat = (b + 1 - s).toNat := by omega
    rw [hstop]

/-! ## the numbers of a window -/

/-- The numbers from `a` to `b`. -/
def indices (a b : Int) : List Int := (List.range (b + 1 - a).toNat).map fun k : Nat => a + (k : Int)

theorem indices_eq_nil {a b : Int} (h : b < a) : indices a b = [] := by
  have hzero : (b + 1 - a).toNat = 0 := by omega
  rw [indices, hzero]
  rfl

theorem indices_eq_cons {a b : Int} (h : a ≤ b) : indices a b = a :: indices (a + 1) b := by
  have hsucc : (b + 1 - a).toNat = (b + 1 - (a + 1)).toNat + 1 := by omega
  rw [indices, hsucc, List.range_succ_eq_map, List.map_cons, List.map_map, indices]
  congr 1
  · simp
  · congr 1
    funext k
    simp only [Function.comp_apply, Nat.cast_succ]
    omega

/-- The part of a numbered list inside `a..b` carries the numbers that both have. -/
theorem NumberedFrom.map_filter {s : Int} {xs : List α} (h : NumberedFrom idx s xs) (a b : Int) :
    (xs.filter fun x => decide (a ≤ idx x ∧ idx x ≤ b)).map idx =
      indices (max s a) (min (s + xs.length - 1) b) := by
  induction xs generalizing s with
  | nil =>
      rw [indices_eq_nil (by simp only [List.length_nil]; omega)]
      rfl
  | cons x xs ih =>
      obtain ⟨hx, hxs⟩ := h
      have hlen : s + 1 + (xs.length : Int) - 1 = s + ((x :: xs).length : Int) - 1 := by
        simp only [List.length_cons]
        omega
      have hrest := ih hxs
      rw [hlen] at hrest
      have hle : s ≤ s + ((x :: xs).length : Int) - 1 := by
        simp only [List.length_cons]
        omega
      rw [List.filter_cons, hx]
      by_cases ha : a ≤ s
      · by_cases hb : s ≤ b
        · have hcons : max s a = s ∧ max (s + 1) a = s + 1 := by omega
          rw [if_pos (by simp [ha, hb]), List.map_cons, hrest, hx, hcons.1, hcons.2,
            indices_eq_cons (a := s) (by omega)]
        · rw [if_neg (by simp [hb]), hrest, indices_eq_nil (by omega), indices_eq_nil (by omega)]
      · have hmax : max (s + 1) a = max s a := by omega
        rw [if_neg (by simp [ha]), hrest, hmax]

/-- Elements of a numbered list are known by their numbers. -/
theorem NumberedFrom.prefix_of_map {s : Int} {all xs ys : List α} (h : NumberedFrom idx s all)
    (hx : ∀ x ∈ xs, x ∈ all) (hy : ∀ y ∈ ys, y ∈ all) (hmap : xs.map idx <+: ys.map idx) :
    xs <+: ys := by
  induction xs generalizing ys with
  | nil => exact List.nil_prefix
  | cons x xs ih =>
      cases ys with
      | nil => simp at hmap
      | cons y ys =>
          rw [List.map_cons, List.map_cons, List.cons_prefix_cons] at hmap
          obtain rfl : x = y :=
            h.eq_of_eq (hx x List.mem_cons_self) (hy y List.mem_cons_self) hmap.1
          rw [List.cons_prefix_cons]
          exact ⟨rfl, ih (fun z hz => hx z (List.mem_cons_of_mem _ hz))
            (fun z hz => hy z (List.mem_cons_of_mem _ hz)) hmap.2⟩

end Slice
