import SnowflakeConnector.Result.Overlap

/-!
# SnowflakeConnector.Result.Search

Which windows `findOverlappingChunks` answers exactly, over the chunks that `createChunks`
builds.

A window that starts after the last row, or that ends before it starts, need not overlap
with any chunk, and then the search gives `-1`, where the loop finds no chunk to ask.  For
a window that ends before it starts the search follows the start to the right, and finds the
chunk of the end only when it comes by.

* `helper_isSome_of_holds` / `helper_of_right` -- the search for a window that ends before it
  starts;
* `exactFor_iff` -- the windows whose chunks are found.
-/

namespace SnowflakeConnector

variable {ι ρ : Type*}

namespace Chunk

/-- The chunk holds the row of this index. -/
def Holds (c : Chunk ι ρ) (row : Int) : Prop := c.startIndex ≤ row ∧ row ≤ c.endIndex

/-- It holds a row of the window. -/
def HoldsRowOf (c : Chunk ι ρ) (s e : Int) : Prop := ∃ row, c.Holds row ∧ s ≤ row ∧ row ≤ e

/-- It holds no row at all. -/
def IsEmpty (c : Chunk ι ρ) : Prop := c.endIndex < c.startIndex

end Chunk

namespace Result

/-- The chunk at a position of the array. -/
def chunkAt (chunks : List (Chunk ι ρ)) (i : Nat) : Chunk ι ρ :=
  chunks.getD i (Chunk.ofCfg 0 (inlineCfg []))

/-- The answer to a window: an array of chunks, and of a window that does not end before it starts
those that hold a row of it, in order. -/
def ExactFor (chunks : List (Chunk ι ρ)) (s e : Int) : Except Err (List Nat) → Prop
  | .ok is => (∀ i ∈ is, i < chunks.length) ∧
      (s ≤ e → is.Pairwise (· < ·) ∧
        ∀ i, i ∈ is ↔ i < chunks.length ∧ (chunkAt chunks i).HoldsRowOf s e)
  | .error _ => False

/-- A search to the right among `n` chunks comes by the chunk `k`: it is the last one, or its
distance from the last one is that of the first, halved at least once and rounded up. -/
def Probed (n k : Nat) : Prop :=
  k + 1 = n ∨ ∃ t, (n - 2 - k) * 2 ^ (t + 1) < n - 1 ∧ n - 1 ≤ (n - 1 - k) * 2 ^ (t + 1)

/-- There are no chunks; or the window starts at a row, with no chunk without rows in it or right
after it; or it ends before it starts, at a row itself or where the search comes by. -/
def Found (chunks : List (Chunk ι ρ)) (s e : Int) : Prop :=
  chunks = [] ∨ if s ≤ e then
    (∃ i, i < chunks.length ∧ (chunkAt chunks i).Holds s) ∧
      ∀ i, i < chunks.length → (chunkAt chunks i).IsEmpty →
        ¬ (s ≤ (chunkAt chunks i).startIndex ∧ (chunkAt chunks i).startIndex ≤ e + 1)
  else
    (∃ i, i < chunks.length ∧ (chunkAt chunks i).Holds s) ∨
      (s = e + 1 ∧ ∃ i, i < chunks.length ∧ (chunkAt chunks i).IsEmpty ∧
        (chunkAt chunks i).startIndex = s) ∨
      ∃ k, k < chunks.length ∧ (chunkAt chunks k).Holds e ∧ Probed chunks.length k

/-! ## the search -/

section

variable {chunk : Nat → Chunk ι ρ} {offset : Nat → Int} {s e : Int} {n : Nat}

/-- What the search finds overlaps. -/
theorem helper_overlaps {left right i : Nat} (hlr : left ≤ right)
    (h : helper chunk s e left right = some i) :
    i ≤ right ∧ (chunk i).overlapsWithWindow s e = true := by
  fun_induction helper chunk s e left right with
  | case1 left overlaps middle hmid hov =>
      obtain rfl := Option.some.inj h
      have hmiddle : middle = left := by omega
      rw [← hmiddle]
      exact ⟨le_refl middle, hov⟩
  | case3 left right overlaps middle hmid hne hov =>
      obtain rfl := Option.some.inj h
      exact ⟨hlr, hov⟩
  | case4 left right overlaps middle hmid hne hov hov' =>
      obtain rfl := Option.some.inj h
      exact ⟨le_refl right, hov'⟩
  | case8 left right overlaps middle hmid hov hfirst =>
      obtain rfl := Option.some.inj h
      exact ⟨by omega, by simpa using hov⟩
  | case2 => contradiction
  | case5 => contradiction
  | case6 left right overlaps middle hmid hov hgt ih => exact ih (by omega) h
  | case7 left right overlaps middle hmid hov hgt ih =>
      obtain ⟨hle, hov'⟩ := ih (by omega) h
      exact ⟨by omega, hov'⟩
  | case9 left right overlaps middle hmid hov hfirst ih =>
      obtain ⟨hle, hov'⟩ := ih (by omega) h
      exact ⟨by omega, hov'⟩

/-- A chunk overlaps with a window that ends well before it starts when it holds one of the ends. -/
theorem Contiguous.overlaps_iff_holds (h : Contiguous chunk offset n) (hes : e + 1 < s) {i : Nat}
    (hi : i < n) : (chunk i).overlapsWithWindow s e = true ↔
      offset i ≤ e ∧ e < offset (i + 1) ∨ offset i ≤ s ∧ s < offset (i + 1) := by
  have hmono : offset i ≤ offset (i + 1) := h.mono (Nat.le_succ i)
  simp only [Chunk.overlapsWithWindow, h.startIndex i hi, h.endIndex i hi, Bool.or_eq_true,
    Bool.and_eq_true, decide_eq_true_eq]
  omega

/-- Some chunk is found when the start of the window is the index of a row. -/
theorem helper_isSome_of_holds (h : Contiguous chunk offset n) (hes : e + 1 < s) {j left right : Nat}
    (hj : offset j ≤ s ∧ s < offset (j + 1)) (hl : left ≤ j) (hr : j ≤ right) (hn : right < n) :
    (helper chunk s e left right).isSome = true := by
  have hjov : (chunk j).overlapsWithWindow s e = true :=
    (h.overlaps_iff_holds hes (by omega)).mpr (.inr hj)
  fun_induction helper chunk s e left right with
  | case2 left overlaps middle hmid hov =>
      obtain rfl : j = middle := by omega
      exact absurd hjov hov
  | case5 left right overlaps middle hmid hne hov hov' =>
      obtain rfl | rfl : j = left ∨ j = right := by omega
      · exact absurd hjov hov
      · exact absurd hjov hov'
  | case6 left right overlaps middle hmid hov hgt ih =>
      refine ih ?_ hr hn
      by_contra hlt
      have hmono : offset (j + 1) ≤ offset middle := h.mono (by omega)
      have hmono' : offset middle ≤ offset (middle + 1) := h.mono (by omega)
      rw [h.endIndex middle (by omega)] at hgt
      omega
  | case7 left right overlaps middle hmid hov hgt ih =>
      refine ih hl ?_ (by omega)
      by_contra hlt
      have hmono : offset (middle + 1) ≤ offset j := h.mono (by omega)
      rw [h.endIndex middle (by omega)] at hgt
      omega
  | case9 left right overlaps middle hmid hov hfirst ih =>
      refine ih hl ?_ (by omega)
      -- two chunks that overlap are that of the end and that of the start
      by_contra hlt
      simp only [Bool.not_eq_true', Bool.not_eq_false, not_or] at hov hfirst
      have hov' := (h.overlaps_iff_holds hes (by omega)).mp hov
      have hprev := (h.overlaps_iff_holds hes (by omega)).mp hfirst.2
      have hmono : offset (middle - 1 + 1) ≤ offset middle := h.mono (by omega)
      have hmono' : offset (middle + 1) ≤ offset j := h.mono (by omega)
      omega
  | _ => rfl

/-- Distances from the right end of the search, halved and rounded up. -/
theorem halved {d x t : Nat} :
    (x - 1) * 2 ^ (t + 1) < d ∧ d ≤ x * 2 ^ (t + 1) ↔
      (x - 1) * 2 ^ t < (d + 1) / 2 ∧ (d + 1) / 2 ≤ x * 2 ^ t := by
  rw [pow_succ, ← mul_assoc, ← mul_assoc]
  omega

/-- When all chunks lie left of the start of the window and one overlaps, the search finds it exactly
when it comes by. -/
theorem helper_of_right {k left right : Nat} (hright : ∀ i, i ≤ right → s > (chunk i).endIndex)
    (hov : ∀ i, i ≤ right → ((chunk i).overlapsWithWindow s e = true ↔ i = k))
    (hlr : left ≤ right) (hr : k ≤ right) :
    (helper chunk s e left right).isSome = true ↔
      k = right ∨ ∃ t, (right - k - 1) * 2 ^ (t + 1) < right - left ∧
        right - left ≤ (right - k) * 2 ^ (t + 1) := by
  fun_induction helper chunk s e left right with
  | case1 left overlaps middle hmid hov' =>
      have hmiddle := (hov middle (by omega)).mp hov'
      simp only [Option.isSome_some, true_iff]
      exact .inl (by omega)
  | case2 left overlaps middle hmid hov' =>
      have hk : k ≠ left := fun hk => hov' ((hov middle (by omega)).mpr (by omega))
      simp [hk]
  | case3 left right overlaps middle hmid hne hov' =>
      have hk := (hov left (by omega)).mp hov'
      simp only [Option.isSome_some, true_iff]
      exact .inr ⟨0, by omega⟩
  | case4 left right overlaps middle hmid hne hov' hov'' =>
      have hk := (hov right (by omega)).mp hov''
      simp only [Option.isSome_some, true_iff]
      exact .inl hk.symm
  | case5 left right overlaps middle hmid hne hov' hov'' =>
      have hleft : left ≠ k := fun hk => hov' ((hov left (by omega)).mpr hk)
      have hright' : right ≠ k := fun hk => hov'' ((hov right (by omega)).mpr hk)
      simp only [Option.isSome_none, Bool.false_eq_true, false_iff, not_or, not_exists]
      refine ⟨fun hk => hright' hk.symm, ?_⟩
      rintro t ⟨hlt, _⟩
      have hpos : 1 * 2 ^ (t + 1) ≤ (right - k - 1) * 2 ^ (t + 1) :=
        Nat.mul_le_mul_right _ (by omega)
      have htwo : 1 ≤ 2 ^ (t + 1) := Nat.one_le_two_pow
      omega
  | case6 left right overlaps middle hmid hov' hgt ih =>
      have hk : middle ≠ k := fun hk => by simp [overlaps, (hov middle (by omega)).mpr hk] at hov'
      rw [ih hright hov (by omega) hr]
      refine or_congr_right ⟨?_, ?_⟩
      · rintro ⟨t, h⟩
        refine ⟨t + 1, halved.mpr ?_⟩
        rwa [show (right - left + 1) / 2 = right - middle by omega]
      · rintro ⟨t, h⟩
        have h' := halved.mp h
        rw [show (right - left + 1) / 2 = right - middle by omega] at h'
        cases t with
        | zero => omega
        | succ t => exact ⟨t, h'⟩
  | case7 left right overlaps middle hmid hov' hgt ih =>
      exact absurd (hright middle (by omega)) hgt
  | case8 left right overlaps middle hmid hov' hfirst =>
      have hk := (hov middle (by omega)).mp (by simpa using hov')
      simp only [Option.isSome_some, true_iff]
      exact .inr ⟨0, by omega⟩
  | case9 left right overlaps middle hmid hov' hfirst ih =>
      simp only [Bool.not_eq_true', Bool.not_eq_false, not_or] at hov' hfirst
      have hk := (hov middle (by omega)).mp hov'
      have hprev := (hov (middle - 1) (by omega)).mp hfirst.2
      omega

/-! ## the windows that are found -/

/-- A chunk holds a row of a window that does not end before it starts when it overlaps with the
window and is not empty. -/
theorem Contiguous.holdsRowOf_iff (h : Contiguous chunk offset n) (hse : s ≤ e) {i : Nat}
    (hi : i < n) : (chunk i).HoldsRowOf s e ↔
      (chunk i).overlapsWithWindow s e = true ∧ offset i < offset (i + 1) := by
  have hmono : offset i ≤ offset (i + 1) := h.mono (Nat.le_succ i)
  rw [h.overlaps_iff hse hi]
  simp only [Chunk.HoldsRowOf, Chunk.Holds, h.startIndex i hi, h.endIndex i hi]
  refine ⟨fun ⟨row, hrow⟩ => by omega, fun hov => ?_⟩
  exact ⟨max (offset i) s, by omega⟩

theorem Contiguous.holds_iff_bounds (h : Contiguous chunk offset n) {i : Nat} (hi : i < n) (row : Int) :
    (chunk i).Holds row ↔ offset i ≤ row ∧ row < offset (i + 1) := by
  simp only [Chunk.Holds, h.startIndex i hi, h.endIndex i hi]
  omega

theorem Contiguous.isEmpty_iff (h : Contiguous chunk offset n) {i : Nat} (hi : i < n) :
    (chunk i).IsEmpty ↔ offset (i + 1) = offset i := by
  have hmono : offset i ≤ offset (i + 1) := h.mono (Nat.le_succ i)
  simp only [Chunk.IsEmpty, h.startIndex i hi, h.endIndex i hi]
  omega

/-- The loop starts from the chunk that was found, and throws when there is none. -/
theorem findOverlappingChunks_isOk (hn : n ≠ 0) :
    (findOverlappingChunks chunk s e n).isOk = (findFirstOverlappingChunk chunk s e n).isSome := by
  unfold findOverlappingChunks
  rw [if_neg hn]
  cases findFirstOverlappingChunk chunk s e n <;> rfl

theorem lt_of_mem_findOverlappingChunks {is : List Nat}
    (h : findOverlappingChunks chunk s e n = .ok is) {i : Nat} (hi : i ∈ is) : i < n := by
  unfold findOverlappingChunks at h
  split_ifs at h with hn
  · obtain rfl := Except.ok.inj h
    simp at hi
  · cases hfirst : findFirstOverlappingChunk chunk s e n with
    | none => simp [hfirst] at h
    | some index =>
        simp only [hfirst, Except.ok.injEq] at h
        subst h
        have hmem := (List.takeWhile_sublist _).subset hi
        rw [List.mem_range'_1] at hmem
        omega

/-- Some chunk overlaps when one is found. -/
theorem exists_overlaps (hn : n ≠ 0) (h : (findOverlappingChunks chunk s e n).isOk = true) :
    ∃ i, i < n ∧ (chunk i).overlapsWithWindow s e = true := by
  rw [findOverlappingChunks_isOk hn] at h
  obtain ⟨i, hi⟩ := Option.isSome_iff_exists.mp h
  obtain ⟨hle, hov⟩ := helper_overlaps (Nat.zero_le _) hi
  exact ⟨i, by omega, hov⟩

/-- Of a window that does not end before it starts the overlapping chunks are returned. -/
theorem Contiguous.find_eq (h : Contiguous chunk offset n) (hse : s ≤ e)
    (hsome : ∃ i, i < n ∧ (chunk i).overlapsWithWindow s e = true) :
    ∃ is, findOverlappingChunks chunk s e n = .ok is ∧ is ≠ [] ∧ is.Pairwise (· < ·) ∧
      ∀ i, i ∈ is ↔ i < n ∧ (chunk i).overlapsWithWindow s e = true := by
  obtain ⟨lo, hi, hsorted, -, -⟩ := h.exists_sorted hse hsome
  have hlt := hsorted.lo_lt
  have hle := hsorted.hi_le
  refine ⟨_, findOverlappingChunks_eq hsorted, ?_, List.pairwise_lt_range', fun i => ?_⟩
  · rw [ne_eq, List.range'_eq_nil_iff]
    omega
  · rw [List.mem_range'_1]
    constructor
    · intro hi'
      exact ⟨by omega, (hsorted.overlaps i (by omega)).mpr (by omega)⟩
    · rintro ⟨hn, hov⟩
      have := (hsorted.overlaps i hn).mp hov
      omega

theorem Contiguous.overlaps_adjacent (h : Contiguous chunk offset n) (hse : s = e + 1) {i : Nat}
    (hi : i < n) : (chunk i).overlapsWithWindow s e = true ↔
      ¬ offset (i + 1) < s ∧ ¬ s < offset i := by
  have hmono : offset i ≤ offset (i + 1) := h.mono (Nat.le_succ i)
  simp only [Chunk.overlapsWithWindow, h.startIndex i hi, h.endIndex i hi, Bool.or_eq_true,
    Bool.and_eq_true, decide_eq_true_eq]
  omega

/-- A window that ends right before it starts has some chunk found when one overlaps. -/
theorem Contiguous.isOk_of_adjacent (h : Contiguous chunk offset n) (hse : s = e + 1)
    (hsome : ∃ i, i < n ∧ (chunk i).overlapsWithWindow s e = true) :
    (findOverlappingChunks chunk s e n).isOk = true := by
  obtain ⟨lo, hi, hsorted, -, -⟩ := Result.exists_sorted (fun i hi => h.overlaps_adjacent hse hi)
    (fun i j hij hL => lt_of_le_of_lt (h.mono (Nat.succ_le_succ hij)) hL)
    (fun i j hij hR => lt_of_lt_of_le hR (h.mono hij))
    (fun i hi hL => by rw [h.endIndex i hi]; omega)
    (fun i hi hR => by
      have hmono : offset i ≤ offset (i + 1) := h.mono (Nat.le_succ i)
      rw [h.endIndex i hi]
      omega) hsome
  rw [findOverlappingChunks_eq hsorted]
  rfl

theorem Contiguous.isOk_iff_of_adjacent (h : Contiguous chunk offset n) (hn : n ≠ 0)
    (hse : s = e + 1) : (findOverlappingChunks chunk s e n).isOk = true ↔
      (∃ i, i < n ∧ (chunk i).Holds s) ∨
        (s = e + 1 ∧ ∃ i, i < n ∧ (chunk i).IsEmpty ∧ (chunk i).startIndex = s) ∨
        ∃ k, k < n ∧ (chunk k).Holds e ∧ Probed n k := by
  constructor
  · intro hok
    obtain ⟨i, hi, hov⟩ := exists_overlaps hn hok
    have hbounds := (h.overlaps_adjacent hse hi).mp hov
    by_cases hholds : s < offset (i + 1)
    · exact .inl ⟨i, hi, (h.holds_iff_bounds hi s).mpr (by omega)⟩
    by_cases hempty : offset (i + 1) = offset i
    · exact .inr (.inl ⟨hse, i, hi, (h.isEmpty_iff hi).mpr hempty, by
        rw [h.startIndex i hi]
        omega⟩)
    have hmono : offset i ≤ offset (i + 1) := h.mono (Nat.le_succ i)
    by_cases hlast : i + 1 = n
    · exact .inr (.inr ⟨i, hi, (h.holds_iff_bounds hi e).mpr (by omega), .inl hlast⟩)
    -- the chunk after that of the end starts where the window does
    have hi' : i + 1 < n := by omega
    have hmono' : offset (i + 1) ≤ offset (i + 1 + 1) := h.mono (Nat.le_succ (i + 1))
    by_cases hnext : s < offset (i + 1 + 1)
    · exact .inl ⟨i + 1, hi', (h.holds_iff_bounds hi' s).mpr (by omega)⟩
    · exact .inr (.inl ⟨hse, i + 1, hi', (h.isEmpty_iff hi').mpr (by omega), by
        rw [h.startIndex (i + 1) hi']
        omega⟩)
  · intro hsome
    refine h.isOk_of_adjacent hse ?_
    obtain ⟨i, hi, hholds⟩ | ⟨-, i, hi, hempty, hstart⟩ | ⟨i, hi, hholds, -⟩ := hsome
    · rw [h.holds_iff_bounds hi] at hholds
      exact ⟨i, hi, (h.overlaps_adjacent hse hi).mpr (by omega)⟩
    · rw [h.isEmpty_iff hi] at hempty
      rw [h.startIndex i hi] at hstart
      exact ⟨i, hi, (h.overlaps_adjacent hse hi).mpr (by omega)⟩
    · rw [h.holds_iff_bounds hi] at hholds
      exact ⟨i, hi, (h.overlaps_adjacent hse hi).mpr (by omega)⟩

/-- When a window that ends before it starts has some chunk found. -/
theorem Contiguous.isOk_iff (h : Contiguous chunk offset n) (hn : n ≠ 0) (hs : 0 ≤ s) (hes : e < s) :
    (findOverlappingChunks chunk s e n).isOk = true ↔
      (∃ i, i < n ∧ (chunk i).Holds s) ∨
        (s = e + 1 ∧ ∃ i, i < n ∧ (chunk i).IsEmpty ∧ (chunk i).startIndex = s) ∨
        ∃ k, k < n ∧ (chunk k).Holds e ∧ Probed n k := by
  by_cases hse : s = e + 1
  · exact h.isOk_iff_of_adjacent hn hse
  have hes' : e + 1 < s := by omega
  by_cases hstart : ∃ i, i < n ∧ (chunk i).Holds s
  · obtain ⟨j, hj, hholds⟩ := hstart
    refine iff_of_true ?_ (.inl ⟨j, hj, hholds⟩)
    rw [findOverlappingChunks_isOk hn]
    exact helper_isSome_of_holds h hes' ((h.holds_iff_bounds hj s).mp hholds) (Nat.zero_le j) (by omega)
      (by omega)
  simp only [hstart, hse, false_and, false_or]
  have hright : offset n ≤ s := by
    by_contra hlt
    obtain ⟨i, hi, hbounds⟩ := h.exists_row hs (by omega)
    exact hstart ⟨i, hi, (h.holds_iff_bounds hi s).mpr hbounds⟩
  have hov : ∀ i, i < n → ((chunk i).overlapsWithWindow s e = true ↔ (chunk i).Holds e) := by
    intro i hi
    have hmono : offset (i + 1) ≤ offset n := h.mono hi
    rw [h.overlaps_iff_holds hes' hi, h.holds_iff_bounds hi]
    omega
  by_cases hend : ∃ k, k < n ∧ (chunk k).Holds e
  · obtain ⟨k, hk, hholds⟩ := hend
    have hbounds := (h.holds_iff_bounds hk e).mp hholds
    have honly : ∀ i, i < n → ((chunk i).Holds e ↔ i = k) := by
      intro i hi
      refine ⟨fun hi' => ?_, fun hik => hik ▸ hholds⟩
      have hbounds' := (h.holds_iff_bounds hi e).mp hi'
      obtain hlt | heq | hgt := lt_trichotomy i k
      · have hmono : offset (i + 1) ≤ offset k := h.mono hlt
        omega
      · exact heq
      · have hmono : offset (k + 1) ≤ offset i := h.mono hgt
        omega
    have hprobed : (∃ k, k < n ∧ (chunk k).Holds e ∧ Probed n k) ↔ Probed n k := by
      refine ⟨fun ⟨i, hi, hi', hprobed⟩ => ?_, fun hprobed => ⟨k, hk, hholds, hprobed⟩⟩
      obtain rfl := (honly i hi).mp hi'
      exact hprobed
    have hends : ∀ i, i ≤ n - 1 → s > (chunk i).endIndex := by
      intro i hi
      have hmono : offset (i + 1) ≤ offset n := h.mono (by omega)
      rw [h.endIndex i (by omega)]
      omega
    have hsearch := helper_of_right hends
      (fun i hi => by rw [hov i (by omega), honly i (by omega)]) (Nat.zero_le (n - 1)) (by omega)
    rw [hprobed, findOverlappingChunks_isOk hn]
    refine hsearch.trans (or_congr (by omega) ?_)
    rw [show n - 1 - k - 1 = n - 2 - k by omega, Nat.sub_zero]
  · refine iff_of_false (fun hok => ?_) fun ⟨k, hk, hholds, _⟩ => hend ⟨k, hk, hholds⟩
    obtain ⟨i, hi, hov'⟩ := exists_overlaps hn hok
    exact hend ⟨i, hi, (hov i hi).mp hov'⟩

end

/-! ## the chunks of a response -/

/-- The chunks that `createChunks` builds follow one another. -/
theorem contiguous_createChunks (chunkCfgs : Option (List (ChunkCfg ρ))) (rowset : List ρ) :
    Contiguous (chunkAt (createChunks chunkCfgs rowset : List (Chunk ι ρ)))
      (fun i => rowTotal ((allCfgs chunkCfgs rowset).take i))
      (createChunks chunkCfgs rowset : List (Chunk ι ρ)).length := by
  have hsucc : ∀ (cfgs : List (ChunkCfg ρ)) i cfg, cfgs[i]? = some cfg →
      rowTotal (cfgs.take (i + 1)) = rowTotal (cfgs.take i) + cfg.rowCount := by
    intro cfgs i cfg hcfg
    simp [List.take_add_one, hcfg, rowTotal]
  have hchunk : ∀ i, i < (createChunks chunkCfgs rowset : List (Chunk ι ρ)).length →
      ∃ cfg, (allCfgs chunkCfgs rowset)[i]? = some cfg ∧
        chunkAt (createChunks chunkCfgs rowset : List (Chunk ι ρ)) i =
          Chunk.ofCfg (rowTotal ((allCfgs chunkCfgs rowset).take i)) cfg := by
    intro i hi
    rw [createChunks, length_buildChunks] at hi
    refine ⟨_, List.getElem?_eq_getElem hi, ?_⟩
    simp [chunkAt, createChunks, List.getD_eq_getElem?_getD, getElem?_buildChunks,
      List.getElem?_eq_getElem hi]
  refine ⟨rfl, monotone_nat_of_le_succ fun i => ?_, fun i hi => ?_, fun i hi => ?_⟩
  · cases hcfg : (allCfgs chunkCfgs rowset)[i]? with
    | none => simp [List.take_add_one, hcfg]
    | some cfg =>
        simp only [hsucc _ i cfg hcfg]
        omega
  · obtain ⟨cfg, -, hcfg⟩ := hchunk i hi
    rw [hcfg]
    rfl
  · obtain ⟨cfg, hget, hcfg⟩ := hchunk i hi
    simp only [hcfg, hsucc _ i cfg hget]
    rfl

section

variable {chunks : List (Chunk ι ρ)} {offset : Nat → Int} {s e : Int}

/-- The chunks of a window that does not end before it starts are found. -/
theorem exactFor_of_le (h : Contiguous (chunkAt chunks) offset chunks.length)
    (hn : chunks.length ≠ 0) (hs : 0 ≤ s) (hse : s ≤ e) :
    ExactFor chunks s e (findOverlappingChunks (chunkAt chunks) s e chunks.length) ↔
      (∃ i, i < chunks.length ∧ (chunkAt chunks i).Holds s) ∧
        ∀ i, i < chunks.length → (chunkAt chunks i).IsEmpty →
          ¬ (s ≤ (chunkAt chunks i).startIndex ∧ (chunkAt chunks i).startIndex ≤ e + 1) := by
  constructor
  · intro hexact
    cases hfind : findOverlappingChunks (chunkAt chunks) s e chunks.length with
    | error err => simp [hfind, ExactFor] at hexact
    | ok found =>
        rw [hfind] at hexact
        obtain ⟨-, hholds⟩ := hexact.2 hse
        have hok : (findOverlappingChunks (chunkAt chunks) s e chunks.length).isOk = true := by
          rw [hfind]
          rfl
        obtain ⟨is, hfind', hne, -, hmem⟩ := h.find_eq hse (exists_overlaps hn hok)
        obtain rfl : found = is := by simpa [hfind] using hfind'
        refine ⟨?_, fun i hi hempty hbounds => ?_⟩
        · obtain ⟨i, hi⟩ := List.exists_mem_of_ne_nil _ hne
          obtain ⟨hlt, row, hrow, hge, -⟩ := (hholds i).mp hi
          have hrow' := (h.holds_iff_bounds hlt row).mp hrow
          have hmono : offset (i + 1) ≤ offset chunks.length := h.mono hlt
          obtain ⟨j, hj, hbounds⟩ := h.exists_row hs (by omega)
          exact ⟨j, hj, (h.holds_iff_bounds hj s).mpr hbounds⟩
        · rw [h.isEmpty_iff hi] at hempty
          rw [h.startIndex i hi] at hbounds
          have hov := (h.overlaps_iff hse hi).mpr ⟨by omega, by omega⟩
          have hrow := ((hholds i).mp ((hmem i).mpr ⟨hi, hov⟩)).2
          have hpos := ((h.holdsRowOf_iff hse hi).mp hrow).2
          omega
  · rintro ⟨⟨j, hj, hholds⟩, hempty⟩
    rw [h.holds_iff_bounds hj] at hholds
    obtain ⟨is, hfind, -, hpairwise, hmem⟩ :=
      h.find_eq hse ⟨j, hj, (h.overlaps_iff hse hj).mpr ⟨by omega, by omega⟩⟩
    rw [hfind]
    refine ⟨fun i hi => ((hmem i).mp hi).1, fun _ => ⟨hpairwise, fun i => ?_⟩⟩
    rw [hmem]
    refine and_congr_right fun hi => ?_
    rw [h.holdsRowOf_iff hse hi, iff_self_and]
    intro hov
    have hbounds := (h.overlaps_iff hse hi).mp hov
    have hmono : offset i ≤ offset (i + 1) := h.mono (Nat.le_succ i)
    have hno := hempty i hi
    rw [h.isEmpty_iff hi, h.startIndex i hi] at hno
    omega

/-- Of a window that ends before it starts nothing but an answer is asked. -/
theorem exactFor_of_lt (hse : ¬ s ≤ e) :
    ExactFor chunks s e (findOverlappingChunks (chunkAt chunks) s e chunks.length) ↔
      (findOverlappingChunks (chunkAt chunks) s e chunks.length).isOk = true := by
  cases hfind : findOverlappingChunks (chunkAt chunks) s e chunks.length with
  | error err => simp [ExactFor, Except.isOk, Except.toBool]
  | ok is =>
      refine iff_of_true ⟨fun i hi => lt_of_mem_findOverlappingChunks hfind hi, ?_⟩ rfl
      exact fun hle => absurd hle hse

end

/-- **Exactness**: over the chunks of any response, and for any window whose start is not negative,
the search ends with an answer that is exact when the window is one that is found, and only then. -/
theorem exactFor_iff (chunkCfgs : Option (List (ChunkCfg ρ))) (rowset : List ρ) (s : Nat) (e : Int) :
    ExactFor (createChunks chunkCfgs rowset : List (Chunk ι ρ)) s e
        (findOverlappingChunks (chunkAt (createChunks chunkCfgs rowset : List (Chunk ι ρ))) s e
          (createChunks chunkCfgs rowset : List (Chunk ι ρ)).length) ↔
      Found (createChunks chunkCfgs rowset : List (Chunk ι ρ)) s e := by
  have h : Contiguous (chunkAt (createChunks chunkCfgs rowset : List (Chunk ι ρ))) _ _ :=
    contiguous_createChunks chunkCfgs rowset
  generalize (createChunks chunkCfgs rowset : List (Chunk ι ρ)) = chunks at h ⊢
  by_cases hn : chunks = []
  · subst hn
    simp [ExactFor, Found, findOverlappingChunks]
  have hlength : chunks.length ≠ 0 := by simpa using hn
  simp only [Found, hn, false_or]
  split_ifs with hse
  · exact exactFor_of_le h hlength (by omega) hse
  · rw [exactFor_of_lt hse]
    exact h.isOk_iff hlength (by omega) (by omega)

/-- For the window from row 7 to row -1 of a result with five rows the search throws, and for the
first two rows of a result whose second chunk is empty the empty chunk is returned as well. -/
theorem findOverlappingChunks_not_exact :
    (¬ ExactFor (createChunks none [0, 1, 2, 3, 4] : List (Chunk Unit Nat)) 7 (-1)
      (findOverlappingChunks
        (chunkAt (createChunks none [0, 1, 2, 3, 4] : List (Chunk Unit Nat))) 7 (-1) 1)) ∧
    ¬ ExactFor (createChunks (some [⟨0, some "u", none⟩, ⟨1, some "v", none⟩]) [0] :
        List (Chunk Unit Nat)) 0 1
      (findOverlappingChunks
        (chunkAt (createChunks (some [⟨0, some "u", none⟩, ⟨1, some "v", none⟩]) [0] :
          List (Chunk Unit Nat))) 0 1 3) := by
  refine ⟨?_, ?_⟩
  · intro hexact
    have hthrows : findOverlappingChunks
        (chunkAt (createChunks none [0, 1, 2, 3, 4] : List (Chunk Unit Nat))) 7 (-1) 1 =
          .error Errors.typeError := by
      simp [findOverlappingChunks, findFirstOverlappingChunk, helper, chunkAt, createChunks,
        allCfgs, inlineCfg, buildChunks, Chunk.ofCfg, Chunk.overlapsWithWindow]
    rw [hthrows] at hexact
    exact hexact
  · intro hexact
    have hall : findOverlappingChunks
        (chunkAt (createChunks (some [⟨0, some "u", none⟩, ⟨1, some "v", none⟩]) [0] :
          List (Chunk Unit Nat))) 0 1 3 = .ok [0, 1, 2] := by
      simp [findOverlappingChunks, findFirstOverlappingChunk, helper, chunkAt, createChunks,
        allCfgs, inlineCfg, buildChunks, Chunk.ofCfg, Chunk.overlapsWithWindow, List.range']
    rw [hall] at hexact
    obtain ⟨-, hholds⟩ := hexact.2 (by decide)
    obtain ⟨-, row, ⟨hge, hle⟩, -⟩ := (hholds 1).mp (by decide)
    simp [chunkAt, createChunks, allCfgs, inlineCfg, buildChunks, Chunk.ofCfg] at hge hle
    omega

end Result

end SnowflakeConnector
