import SnowflakeConnector.Result

/-!
# SnowflakeConnector.Result.Overlap

The chunks of a result that overlap with a window of rows.

`findOverlappingChunks` searches the sorted chunks for the first one that overlaps
and walks on from there.  A chunk without rows counts as overlapping when the
window starts before it and ends right before it or later, so the chunks are
still sorted into those left of the window, those that overlap, and those right of
it, and the search is right about all of them.
-/

namespace SnowflakeConnector

open Slice

variable {ι ρ : Type*}

namespace Result

/-- The start of a window: 0 unless a non-negative number is given. -/
def windowStart (start : Option Rat) : Int :=
  match start with
  | some s => if s < 0 then 0 else s.floor
  | none => 0

/-- The end of a window: the last row unless a smaller number is given. -/
def windowEnd (stop : Option Rat) (returnedRows : Nat) : Int :=
  match stop with
  | some e => if e ≥ returnedRows then returnedRows - 1 else e.floor
  | none => returnedRows - 1

section

variable (chunk : Nat → Chunk ι ρ) (windowStart windowEnd : Int)

/-- The recursion of `findFirstOverlappingChunk`; `none` is `-1`. -/
def helper (left right : Nat) : Option Nat :=
  let overlaps i := (chunk i).overlapsWithWindow windowStart windowEnd
  let middle := (left + right) / 2
  if middle = left ∨ middle = right then
    if left = right then (if overlaps middle then some left else none)
    else if overlaps left then some left
    else if overlaps right then some right
    else none
  else if !overlaps middle then
    if windowStart > (chunk middle).endIndex then helper middle right else helper left middle
  else if middle = 0 ∨ !overlaps (middle - 1) then some middle
  else helper left middle
termination_by (right - left) + (left - right)
decreasing_by all_goals omega

/-- The index of the first of `n` chunks that overlaps with the window. -/
def findFirstOverlappingChunk (n : Nat) : Option Nat := helper chunk windowStart windowEnd 0 (n - 1)

/-- The chunks among `n` that overlap with the window; with no first one the loop
starts at index `-1`, where there is no chunk to ask. -/
def findOverlappingChunks (n : Nat) : Except Err (List Nat) :=
  if n = 0 then .ok []
  else
    match findFirstOverlappingChunk chunk windowStart windowEnd n with
    | none => .error Errors.typeError
    | some index =>
        .ok ((List.range' index (n - index)).takeWhile fun i =>
          (chunk i).overlapsWithWindow windowStart windowEnd)

end

/-! ## the search -/

section

variable {chunk : Nat → Chunk ι ρ} {s e : Int} {lo hi n : Nat}

/-- The chunks before `lo` lie left of the window, those from `hi` on right of it,
and those between overlap. -/
structure Sorted (chunk : Nat → Chunk ι ρ) (s e : Int) (lo hi n : Nat) : Prop where
  lo_lt : lo < hi
  hi_le : hi ≤ n
  overlaps : ∀ i, i < n → ((chunk i).overlapsWithWindow s e = true ↔ lo ≤ i ∧ i < hi)
  left : ∀ i, i < lo → s > (chunk i).endIndex
  right : ∀ i, hi ≤ i → i < n → ¬ s > (chunk i).endIndex

/-- Chunks that are left of the window, that overlap with it, or that are right of it, in this
order, are sorted around it when one of them overlaps. -/
theorem exists_sorted {L R : Nat → Prop}
    (hov : ∀ i, i < n → ((chunk i).overlapsWithWindow s e = true ↔ ¬ L i ∧ ¬ R i))
    (hL : ∀ i j, i ≤ j → L j → L i) (hR : ∀ i j, i ≤ j → R i → R j)
    (hleft : ∀ i, i < n → L i → s > (chunk i).endIndex)
    (hright : ∀ i, i < n → R i → ¬ s > (chunk i).endIndex)
    (hsome : ∃ i, i < n ∧ (chunk i).overlapsWithWindow s e = true) :
    ∃ lo hi, Sorted chunk s e lo hi n ∧ (∀ i, i < lo → L i) ∧ ∀ i, hi ≤ i → i < n → R i := by
  classical
  obtain ⟨j, hj, hjov⟩ := hsome
  obtain ⟨hjL, hjR⟩ := (hov j hj).mp hjov
  have hexlo : ∃ i, ¬ L i := ⟨j, hjL⟩
  have hexhi : ∃ i, n ≤ i ∨ R i := ⟨n, .inl (le_refl n)⟩
  -- `lo` is the first chunk not left of the window, `hi` the first one right of it
  obtain ⟨lo, hlo, hbefore⟩ : ∃ lo, ¬ L lo ∧ ∀ i, i < lo → L i :=
    ⟨Nat.find hexlo, Nat.find_spec hexlo, fun i hi => not_not.mp (Nat.find_min hexlo hi)⟩
  obtain ⟨hi, hhi, hnotright⟩ : ∃ hi, (n ≤ hi ∨ R hi) ∧ ∀ i, i < hi → i < n ∧ ¬ R i := by
    refine ⟨Nat.find hexhi, Nat.find_spec hexhi, fun i hi => ?_⟩
    have hmin := Nat.find_min hexhi hi
    exact ⟨by omega, fun hRi => hmin (.inr hRi)⟩
  have hafter : ∀ i, hi ≤ i → i < n → R i := by
    intro i hle hn
    obtain hlen | hRhi := hhi
    · omega
    · exact hR hi i hle hRhi
  have hlej : lo ≤ j := by
    by_contra hlt
    exact hjL (hbefore j (by omega))
  have hjlt : j < hi := by
    by_contra hge
    exact hjR (hafter j (by omega) hj)
  have hhi_le : hi ≤ n := by
    by_contra hgt
    exact absurd (hnotright n (by omega)).1 (lt_irrefl n)
  refine ⟨lo, hi, ⟨by omega, hhi_le, fun i hn => ?_, fun i hlt => hleft i (by omega) (hbefore i hlt),
    fun i hge hn => hright i hn (hafter i hge hn)⟩, hbefore, hafter⟩
  rw [hov i hn]
  constructor
  · rintro ⟨hLi, hRi⟩
    refine ⟨?_, ?_⟩
    · by_contra hlt
      exact hLi (hbefore i (by omega))
    · by_contra hge
      exact hRi (hafter i (by omega) hn)
  · rintro ⟨hge, hlt⟩
    exact ⟨fun hLi => hlo (hL lo i hge hLi), (hnotright i hlt).2⟩

/-- The chunks follow one another from the first row on. -/
structure Contiguous (chunk : Nat → Chunk ι ρ) (offset : Nat → Int) (n : Nat) : Prop where
  zero : offset 0 = 0
  mono : Monotone offset
  startIndex : ∀ i, i < n → (chunk i).startIndex = offset i
  endIndex : ∀ i, i < n → (chunk i).endIndex = offset (i + 1) - 1

section

variable {offset : Nat → Int}

/-- A chunk holds the row. -/
theorem Contiguous.exists_row (h : Contiguous chunk offset n) {row : Int} (h0 : 0 ≤ row)
    (hlt : row < offset n) : ∃ i, i < n ∧ offset i ≤ row ∧ row < offset (i + 1) := by
  induction n with
  | zero =>
      have hzero := h.zero
      omega
  | succ n ih =>
      by_cases hrow : row < offset n
      · obtain ⟨i, hi, hbounds⟩ := ih ⟨h.zero, h.mono, fun i hi => h.startIndex i (by omega),
          fun i hi => h.endIndex i (by omega)⟩ hrow
        exact ⟨i, by omega, hbounds⟩
      · exact ⟨n, by omega, by omega, hlt⟩

theorem Contiguous.overlaps_iff (h : Contiguous chunk offset n) (hse : s ≤ e) {i : Nat}
    (hi : i < n) : (chunk i).overlapsWithWindow s e = true ↔
      ¬ (offset i < s ∧ offset (i + 1) ≤ s) ∧ ¬ (e < offset i ∧ e + 1 < offset (i + 1)) := by
  have hmono : offset i ≤ offset (i + 1) := h.mono (Nat.le_succ i)
  simp only [Chunk.overlapsWithWindow, h.startIndex i hi, h.endIndex i hi, Bool.or_eq_true,
    Bool.and_eq_true, decide_eq_true_eq]
  omega

/-- Around a window with which one of them overlaps the chunks are sorted. -/
theorem Contiguous.exists_sorted (h : Contiguous chunk offset n) (hse : s ≤ e)
    (hsome : ∃ i, i < n ∧ (chunk i).overlapsWithWindow s e = true) :
    ∃ lo hi, Sorted chunk s e lo hi n ∧ (∀ i, i < lo → offset (i + 1) ≤ s) ∧
      ∀ i, hi ≤ i → i < n → e < offset i := by
  have hmono : ∀ i j, i ≤ j → offset i ≤ offset j ∧ offset (i + 1) ≤ offset (j + 1) :=
    fun i j hij => ⟨h.mono hij, h.mono (Nat.succ_le_succ hij)⟩
  have hL : ∀ i j, i ≤ j → offset j < s ∧ offset (j + 1) ≤ s → offset i < s ∧ offset (i + 1) ≤ s := by
    intro i j hij hL
    have := hmono i j hij
    omega
  have hR : ∀ i j, i ≤ j → e < offset i ∧ e + 1 < offset (i + 1) →
      e < offset j ∧ e + 1 < offset (j + 1) := by
    intro i j hij hR
    have := hmono i j hij
    omega
  obtain ⟨lo, hi, hsorted, hleft, hright⟩ := Result.exists_sorted
    (fun i hi => h.overlaps_iff hse hi) hL hR (fun i hi hL => by rw [h.endIndex i hi]; omega)
    (fun i hi hR => by rw [h.endIndex i hi]; omega) hsome
  exact ⟨lo, hi, hsorted, fun i hi => (hleft i hi).2, fun i hge hn => (hright i hge hn).1⟩

end

/-- The search keeps the first overlapping chunk between its bounds. -/
theorem helper_eq (h : Sorted chunk s e lo hi n) {left right : Nat} (hl : left ≤ lo)
    (hr : lo ≤ right) (hn : right < n) : helper chunk s e left right = some lo := by
  have hlo : (chunk lo).overlapsWithWindow s e = true :=
    (h.overlaps lo (by omega)).mpr ⟨le_refl lo, h.lo_lt⟩
  fun_induction helper chunk s e left right with
  | case1 left overlaps middle hmid hov =>
      obtain rfl : left = lo := by omega
      rfl
  | case2 left overlaps middle hmid hov =>
      have hleft : middle = lo := by omega
      exact absurd hlo (by rw [← hleft]; exact hov)
  | case3 left right overlaps middle hmid hne hov =>
      have hleft := (h.overlaps left (by omega)).mp hov
      obtain rfl : left = lo := by omega
      rfl
  | case4 left right overlaps middle hmid hne hov hov' =>
      have hright : right = lo := by
        have hcase : lo = left ∨ lo = right := by omega
        rcases hcase with rfl | rfl
        · exact absurd hlo hov
        · rfl
      rw [hright]
  | case5 left right overlaps middle hmid hne hov hov' =>
      have hcase : lo = left ∨ lo = right := by omega
      rcases hcase with rfl | rfl
      · exact absurd hlo hov
      · exact absurd hlo hov'
  | case6 left right overlaps middle hmid hov hgt ih =>
      refine ih ?_ hr hn
      by_contra hlt
      have hge : hi ≤ middle := by
        by_contra hlt'
        have hin := (h.overlaps middle (by omega)).mpr ⟨by omega, by omega⟩
        simp [overlaps, hin] at hov
      exact h.right middle hge (by omega) hgt
  | case7 left right overlaps middle hmid hov hgt ih =>
      refine ih hl ?_ (by omega)
      by_contra hlt
      exact hgt (h.left middle (by omega))
  | case8 left right overlaps middle hmid hov hfirst =>
      have hov' : (chunk middle).overlapsWithWindow s e = true := by simpa using hov
      have hin := (h.overlaps middle (by omega)).mp hov'
      have hmiddle : middle = lo := by
        rcases hfirst with hzero | hprev
        · omega
        · by_contra hne
          have hprev' := (h.overlaps (middle - 1) (by omega)).mpr ⟨by omega, by omega⟩
          simp [overlaps, hprev'] at hprev
      rw [hmiddle]
  | case9 left right overlaps middle hmid hov hfirst ih =>
      refine ih hl ?_ (by omega)
      have hov' : (chunk middle).overlapsWithWindow s e = true := by simpa using hov
      exact ((h.overlaps middle (by omega)).mp hov').1

/-- The overlapping chunks are found, all of them and in order. -/
theorem findOverlappingChunks_eq (h : Sorted chunk s e lo hi n) :
    findOverlappingChunks chunk s e n = .ok (List.range' lo (hi - lo)) := by
  have hlo := h.lo_lt
  have hhi := h.hi_le
  have hfirst : findFirstOverlappingChunk chunk s e n = some lo :=
    helper_eq h (Nat.zero_le lo) (by omega) (by omega)
  unfold findOverlappingChunks
  rw [if_neg (by omega), hfirst]
  have hsplit : List.range' lo (n - lo) = List.range' lo (hi - lo) ++ List.range' hi (n - hi) := by
    have hsum : n - lo = hi - lo + (n - hi) := by omega
    have hstart : hi = lo + 1 * (hi - lo) := by omega
    rw [hsum, ← List.range'_append, ← hstart]
  have hin : ∀ i ∈ List.range' lo (hi - lo), (chunk i).overlapsWithWindow s e = true := by
    intro i hi'
    simp only [List.mem_range'_1] at hi'
    exact (h.overlaps i (by omega)).mpr ⟨by omega, by omega⟩
  simp only
  congr 1
  rw [hsplit, List.takeWhile_append_of_pos hin]
  cases hrest : n - hi with
  | zero => simp
  | succ m =>
      have hout : (chunk hi).overlapsWithWindow s e = false := by
        have hn := h.overlaps hi (by omega)
        simp only [Bool.eq_false_iff, ne_eq, hn]
        omega
      simp [List.range'_succ, hout]

end

/-! ## the rows of a result by chunk -/

variable {blocks : List (List ρ)}

/-- The index of the first row of a block. -/
def offset (blocks : List (List ρ)) (i : Nat) : Int := ((blocks.take i).flatten.length : Nat)

/-- The rows of a result whose chunks hold these rowsets. -/
def allRows (blocks : List (List ρ)) : List (Row ρ) := convertRowsetToRows 0 blocks.flatten

def blockRows (blocks : List (List ρ)) (i : Nat) : List (Row ρ) :=
  convertRowsetToRows (offset blocks i) (blocks.getD i [])

/-- The rows of a window. -/
def inWindow (s e : Int) (rows : List (Row ρ)) : List (Row ρ) :=
  rows.filter fun row => decide (s ≤ row.rowIndex ∧ row.rowIndex ≤ e)

/-- The part of a block that lies in the window. -/
def part (blocks : List (List ρ)) (s e : Int) (i : Nat) : List (Row ρ) :=
  inWindow s e (blockRows blocks i)

theorem offset_succ {i : Nat} (h : i < blocks.length) :
    offset blocks (i + 1) = offset blocks i + blocks[i].length := by
  simp only [offset, List.take_add_one, List.getElem?_eq_getElem h, Option.toList_some,
    List.flatten_append, List.length_append, List.flatten_cons, List.flatten_nil, List.append_nil]
  omega

theorem offset_mono {i j : Nat} (h : i ≤ j) : offset blocks i ≤ offset blocks j := by
  have hsub : List.Sublist (blocks.take i).flatten (blocks.take j).flatten := by
    obtain ⟨k, rfl⟩ := Nat.exists_eq_add_of_le h
    rw [List.take_add, List.flatten_append]
    exact List.sublist_append_left _ _
  have hle := hsub.length_le
  unfold offset
  exact_mod_cast hle

theorem offset_length : offset blocks blocks.length = (blocks.flatten.length : Nat) := by
  simp [offset]

theorem numberedFrom_blockRows (i : Nat) :
    NumberedFrom Row.rowIndex (offset blocks i) (blockRows blocks i) :=
  numberedFrom_convertRowsetToRows _ _

/-- The blocks' rows one after the other are the rows of the result. -/
theorem flatMap_blockRows (n : Nat) (h : n ≤ blocks.length) :
    (List.range n).flatMap (blockRows blocks) = convertRowsetToRows 0 (blocks.take n).flatten := by
  induction n with
  | zero => simp [convertRowsetToRows]
  | succ n ih =>
      have hlt : n < blocks.length := h
      rw [List.range_succ, List.flatMap_append, ih (by omega), List.take_add_one,
        List.getElem?_eq_getElem hlt, Option.toList_some, List.flatten_append,
        convertRowsetToRows_append]
      simp [blockRows, offset, List.getD_eq_getElem?_getD, List.getElem?_eq_getElem hlt]

theorem flatMap_part (s e : Int) :
    (List.range blocks.length).flatMap (part blocks s e) = inWindow s e (allRows blocks) := by
  have h := flatMap_blockRows blocks.length (le_refl blocks.length)
  rw [List.take_length] at h
  rw [allRows, ← h]
  simp only [inWindow, List.filter_flatMap]
  rfl

/-- A window inside the result has as many rows as its bounds say. -/
theorem length_inWindow {s e : Int} (hs : 0 ≤ s) (hse : s ≤ e)
    (he : e < (blocks.flatten.length : Nat)) :
    ((inWindow s e (allRows blocks)).length : Int) = e - s + 1 := by
  have hnum : NumberedFrom Row.rowIndex 0 (allRows blocks) := numberedFrom_convertRowsetToRows _ _
  rw [inWindow, hnum.filter_eq s e, List.length_drop, List.length_take, allRows,
    length_convertRowsetToRows]
  omega

/-- The rows of a window inside the result carry the indices of the window. -/
theorem map_rowIndex_inWindow {s e : Int} (hs : 0 ≤ s) (he : e < (blocks.flatten.length : Nat)) :
    (inWindow s e (allRows blocks)).map Row.rowIndex = indices s e := by
  have hnum : NumberedFrom Row.rowIndex 0 (allRows blocks) := numberedFrom_convertRowsetToRows _ _
  rw [inWindow, hnum.map_filter s e, allRows, length_convertRowsetToRows]
  congr 1 <;> omega

/-- So do the rows of a block's part. -/
theorem map_rowIndex_part {s e : Int} {i : Nat} (hi : i < blocks.length) :
    (part blocks s e i).map Row.rowIndex =
      indices (max (offset blocks i) s) (min (offset blocks (i + 1) - 1) e) := by
  have hget : blocks.getD i [] = blocks[i] := by
    simp [List.getD_eq_getElem?_getD, List.getElem?_eq_getElem hi]
  have hlen : offset blocks i + ((blockRows blocks i).length : Int) - 1 = offset blocks (i + 1) - 1 := by
    rw [blockRows, length_convertRowsetToRows, hget, offset_succ hi]
  rw [part, inWindow, (numberedFrom_blockRows i).map_filter s e, hlen]

/-- A row of a block has an index between the block's bounds. -/
theorem mem_blockRows {i : Nat} (hi : i < blocks.length) {row : Row ρ}
    (h : row ∈ blockRows blocks i) :
    offset blocks i ≤ row.rowIndex ∧ row.rowIndex < offset blocks (i + 1) := by
  have hmem := numberedFrom_blockRows i |>.mem h
  have hget : blocks.getD i [] = blocks[i] := by
    simp [List.getD_eq_getElem?_getD, List.getElem?_eq_getElem hi]
  rw [blockRows, length_convertRowsetToRows, hget] at hmem
  rw [offset_succ hi]
  exact hmem

/-- A block left or right of the window has no part in it. -/
theorem part_eq_nil {s e : Int} {i : Nat} (hi : i < blocks.length)
    (hout : offset blocks (i + 1) ≤ s ∨ e < offset blocks i) : part blocks s e i = [] := by
  refine List.filter_eq_nil_iff.mpr fun row hrow => ?_
  have hmem := mem_blockRows hi hrow
  simp only [decide_eq_true_eq]
  omega

/-- The chunks of a result describe its blocks. -/
structure Fits (blocks : List (List ρ)) (chunk : Nat → Chunk ι ρ) : Prop where
  startIndex : ∀ i, i < blocks.length → (chunk i).startIndex = offset blocks i
  endIndex : ∀ i, i < blocks.length → (chunk i).endIndex = offset blocks (i + 1) - 1

section

variable {chunk : Nat → Chunk ι ρ} {s e : Int}

theorem Fits.contiguous (h : Fits blocks chunk) : Contiguous chunk (offset blocks) blocks.length :=
  ⟨by simp [offset], fun _ _ => offset_mono, h.startIndex, h.endIndex⟩

/-- The code's cut of a chunk's rows is its part of the window. -/
theorem Fits.slice_eq (h : Fits blocks chunk) {i : Nat} (hi : i < blocks.length)
    (hov : (chunk i).overlapsWithWindow s e = true) (hse : s ≤ e) :
    slice (convertRowsetToRows (chunk i).startIndex (blocks.getD i []))
        (max (chunk i).startIndex s - (chunk i).startIndex)
        (min (chunk i).endIndex e + 1 - (chunk i).startIndex) = part blocks s e i := by
  have hoff := offset_succ hi
  have hov' := (h.contiguous.overlaps_iff hse hi).mp hov
  have hget : blocks.getD i [] = blocks[i] := by
    simp [List.getD_eq_getElem?_getD, List.getElem?_eq_getElem hi]
  have hnum := @numberedFrom_blockRows ρ blocks i
  rw [h.startIndex i hi, h.endIndex i hi]
  refine hnum.slice_eq_filter ?_ ?_
  · rw [blockRows, length_convertRowsetToRows, hget]
    omega
  · omega

/-- For a window inside the result the chunks are sorted around it. -/
theorem Fits.exists_sorted (h : Fits blocks chunk) (hs : 0 ≤ s) (hse : s ≤ e)
    (he : e < (blocks.flatten.length : Nat)) :
    ∃ lo hi, Sorted chunk s e lo hi blocks.length ∧
      (List.range' lo (hi - lo)).flatMap (part blocks s e) = inWindow s e (allRows blocks) := by
  have htotal := @offset_length ρ blocks
  obtain ⟨j, hj, hstart, hend⟩ := h.contiguous.exists_row hs (by omega)
  have hjov := (h.contiguous.overlaps_iff hse hj).mpr ⟨by omega, by omega⟩
  obtain ⟨lo, hi, hsorted, hleft, hright⟩ := h.contiguous.exists_sorted hse ⟨j, hj, hjov⟩
  have hlt := hsorted.lo_lt
  have hhi_le := hsorted.hi_le
  refine ⟨lo, hi, hsorted, ?_⟩
  rw [← flatMap_part]
  have hsplit : List.range blocks.length =
      List.range' 0 lo ++ (List.range' lo (hi - lo) ++ List.range' hi (blocks.length - hi)) := by
    have h1 : List.range' lo (hi - lo) ++ List.range' hi (blocks.length - hi) =
        List.range' lo (blocks.length - lo) := by
      have hstart : hi = lo + 1 * (hi - lo) := by omega
      have hsum : blocks.length - lo = hi - lo + (blocks.length - hi) := by omega
      rw [hsum, ← List.range'_append, ← hstart]
    have h2 : List.range' 0 lo ++ List.range' lo (blocks.length - lo) =
        List.range' 0 blocks.length := by
      have hstart : lo = 0 + 1 * lo := by omega
      have hsum : blocks.length = lo + (blocks.length - lo) := by omega
      conv_rhs => rw [hsum, ← List.range'_append, ← hstart]
    rw [h1, h2, List.range_eq_range']
  have hbefore : (List.range' 0 lo).flatMap (part blocks s e) = [] := by
    refine List.flatMap_eq_nil_iff.mpr fun i hi' => ?_
    simp only [List.mem_range'_1] at hi'
    exact part_eq_nil (by omega) (.inl (hleft i (by omega)))
  have hafter : (List.range' hi (blocks.length - hi)).flatMap (part blocks s e) = [] := by
    refine List.flatMap_eq_nil_iff.mpr fun i hi' => ?_
    simp only [List.mem_range'_1] at hi'
    exact part_eq_nil (by omega) (.inr (hright i (by omega) (by omega)))
  rw [hsplit, List.flatMap_append, List.flatMap_append, hbefore, hafter, List.nil_append,
    List.append_nil]

/-- The chunks to read for a window: they lie in the result, the code's cut of each
is its part of the window, and the parts make up the window. -/
structure Reads (blocks : List (List ρ)) (s e : Int) (is : List Nat) : Prop where
  inside : ∀ i ∈ is, i < blocks.length
  nodup : is.Nodup
  slices : ∀ i ∈ is, slice (blockRows blocks i) (max (offset blocks i) s - offset blocks i)
    (min (offset blocks (i + 1) - 1) e + 1 - offset blocks i) = part blocks s e i
  rows : is.flatMap (part blocks s e) = inWindow s e (allRows blocks)
  part_ne : ∀ i ∈ is, blocks.getD i [] ≠ [] → part blocks s e i ≠ []

/-- A chunk to read is not read again. -/
theorem Reads.not_mem_drop {s e : Int} {is : List Nat} {k i : Nat} (h : Reads blocks s e is)
    (hk : is[k]? = some i) : i ∉ is.drop (k + 1) := by
  obtain ⟨hlt, hget⟩ := List.getElem?_eq_some_iff.mp hk
  have hnodup : (is.drop k).Nodup := h.nodup.sublist (List.drop_sublist k is)
  rw [List.drop_eq_getElem_cons hlt, hget] at hnodup
  exact (List.nodup_cons.mp hnodup).1

/-- A window that ends before it starts has no rows. -/
theorem inWindow_of_lt (h : e < s) (rows : List (Row ρ)) : inWindow s e rows = [] := by
  rw [inWindow, List.filter_eq_nil_iff]
  intro row _
  simp only [decide_eq_true_eq]
  omega

theorem reads_of_lt (h : e < s) : Reads blocks s e [] :=
  ⟨by simp, List.nodup_nil, by simp, by simp [inWindow_of_lt h], by simp⟩

/-- The overlapping chunks are the chunks to read, and there are some. -/
theorem Fits.exists_reads (h : Fits blocks chunk) (hs : 0 ≤ s) (hse : s ≤ e)
    (he : e < (blocks.flatten.length : Nat)) :
    ∃ is, findOverlappingChunks chunk s e blocks.length = .ok is ∧ Reads blocks s e is ∧ is ≠ [] := by
  obtain ⟨lo, hi, hsorted, hrows⟩ := h.exists_sorted hs hse he
  have hlo := hsorted.lo_lt
  have hhi := hsorted.hi_le
  have hin : ∀ i ∈ List.range' lo (hi - lo), i < blocks.length ∧ lo ≤ i ∧ i < hi := by
    intro i hmem
    rw [List.mem_range'_1] at hmem
    omega
  have hslices : ∀ i ∈ List.range' lo (hi - lo),
      slice (blockRows blocks i) (max (offset blocks i) s - offset blocks i)
        (min (offset blocks (i + 1) - 1) e + 1 - offset blocks i) = part blocks s e i := by
    intro i hmem
    obtain ⟨hlt, hbounds⟩ := hin i hmem
    have hslice := h.slice_eq hlt ((hsorted.overlaps i hlt).mpr hbounds) hse
    rwa [h.startIndex i hlt, h.endIndex i hlt] at hslice
  have hne : List.range' lo (hi - lo) ≠ [] := by
    rw [ne_eq, List.range'_eq_nil_iff]
    omega
  have hpart : ∀ i ∈ List.range' lo (hi - lo), blocks.getD i [] ≠ [] → part blocks s e i ≠ [] := by
    intro i hmem hblock hnil
    obtain ⟨hlt, hbounds⟩ := hin i hmem
    have hov := (h.contiguous.overlaps_iff hse hlt).mp ((hsorted.overlaps i hlt).mpr hbounds)
    have hget : blocks.getD i [] = blocks[i] := by
      simp [List.getD_eq_getElem?_getD, List.getElem?_eq_getElem hlt]
    rw [hget] at hblock
    have hpos := List.length_pos_iff.mpr hblock
    have hsucc := offset_succ hlt
    have hindices : (part blocks s e i).map Row.rowIndex =
        indices (max (offset blocks i) s) (min (offset blocks (i + 1) - 1) e) := map_rowIndex_part hlt
    rw [hnil, indices_eq_cons (by omega)] at hindices
    simp at hindices
  exact ⟨_, findOverlappingChunks_eq hsorted, ⟨fun i hmem => (hin i hmem).1, List.nodup_range',
    hslices, hrows, hpart⟩, hne⟩

end

/-! ## the bounds of a window -/

theorem windowStart_nonneg (start : Option Rat) : 0 ≤ windowStart start := by
  unfold windowStart
  split
  · next s =>
      split
      · exact le_refl 0
      · next h => exact Rat.le_floor_iff.mpr (by simpa using h)
  · exact le_refl 0

theorem windowEnd_lt (stop : Option Rat) (returnedRows : Nat) :
    windowEnd stop returnedRows < returnedRows := by
  unfold windowEnd
  split
  · next e =>
      split
      · omega
      · next h => exact Rat.floor_lt_iff.mpr (by simpa using h)
  · omega

end Result

end SnowflakeConnector
