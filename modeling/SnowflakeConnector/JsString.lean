import Mathlib

/-!
# SnowflakeConnector.JsString

Strings of JavaScript as lists of their code units, and the methods that look for a text in them:
`indexOf`, `substring` and `replace` with a string.

* `indexOf?_eq_some_iff` -- the first place of a text.
* `replace_of_indexOf?` -- what is around the place that is replaced stays.
* `expand_of_notMem` -- a replacement without a dollar sign stands for itself.
-/

namespace SnowflakeConnector

namespace JsString

/-- A character of a text, which is one of its code units. -/
def unit (c : Char) : UInt16 := c.toNat.toUInt16

def text (s : String) : List UInt16 := s.toList.map unit

/-- White space, which `trim` removes and `\s` matches. -/
def isSpace (c : UInt16) : Bool :=
  [9, 10, 11, 12, 13, 32, 0xa0, 0x1680, 0x2028, 0x2029, 0x202f, 0x205f, 0x3000, 0xfeff].contains
    c || (0x2000 ≤ c && c ≤ 0x200a)

/-! ## places -/

/-- The first place of a text, if there is one. -/
def indexOf? (needle : List UInt16) : List UInt16 → Option Nat
  | [] => if needle = [] then some 0 else none
  | c :: s => if needle <+: c :: s then some 0 else (indexOf? needle s).map (· + 1)

theorem indexOf?_eq_some_iff {needle s : List UInt16} {i : Nat} :
    indexOf? needle s = some i ↔
      i ≤ s.length ∧ needle <+: s.drop i ∧ ∀ j < i, ¬ needle <+: s.drop j := by
  induction s generalizing i with
  | nil =>
      simp only [indexOf?]
      split_ifs with h
      · subst h
        simp only [Option.some.injEq, List.length_nil, Nat.le_zero]
        constructor
        · rintro rfl
          simp
        · exact fun h => h.1.symm
      · simp [h]
  | cons c s ih =>
      simp only [indexOf?]
      split_ifs with h
      · simp only [Option.some.injEq]
        constructor
        · rintro rfl
          exact ⟨Nat.zero_le _, h, by simp⟩
        · rintro ⟨_, _, hfirst⟩
          by_contra hi
          exact hfirst 0 (by omega) h
      · cases i with
        | zero => simp [h]
        | succ i =>
            simp only [Option.map_eq_some_iff, Nat.add_right_cancel_iff, exists_eq_right, ih,
              List.length_cons, List.drop_succ_cons, Nat.add_le_add_iff_right]
            refine and_congr_right fun _ => and_congr_right fun _ => ?_
            constructor
            · intro hfirst j hj
              cases j with
              | zero => exact h
              | succ j => exact hfirst j (by omega)
            · intro hfirst j hj
              exact hfirst (j + 1) (by omega)

/-- A text is found where it occurs, or before. -/
theorem exists_indexOf? {needle s : List UInt16} {i : Nat} (hi : i ≤ s.length)
    (h : needle <+: s.drop i) : ∃ j ≤ i, indexOf? needle s = some j := by
  induction i using Nat.strong_induction_on with
  | _ i ih =>
      by_cases hfirst : ∀ j < i, ¬ needle <+: s.drop j
      · exact ⟨i, le_rfl, indexOf?_eq_some_iff.mpr ⟨hi, h, hfirst⟩⟩
      · push Not at hfirst
        obtain ⟨j, hj, hoccurs⟩ := hfirst
        obtain ⟨k, hk, hfound⟩ := ih j hj (by omega) hoccurs
        exact ⟨k, by omega, hfound⟩

theorem singleton_prefix_drop {c : UInt16} {s : List UInt16} {i : Nat} :
    [c] <+: s.drop i ↔ s[i]? = some c := by
  rw [List.prefix_iff_eq_take, ← List.head?_drop]
  cases s.drop i <;> simp [eq_comm]

/-- The first place of a character. -/
theorem indexOf?_singleton {c : UInt16} {s : List UInt16} {i : Nat} :
    indexOf? [c] s = some i ↔ s[i]? = some c ∧ c ∉ s.take i := by
  simp only [indexOf?_eq_some_iff, singleton_prefix_drop, List.mem_take_iff_getElem]
  constructor
  · rintro ⟨_, hi, hfirst⟩
    refine ⟨hi, ?_⟩
    rintro ⟨j, hj, hjc⟩
    exact hfirst j (by omega) (List.getElem?_eq_some_iff.mpr ⟨by omega, hjc⟩)
  · rintro ⟨hi, hfirst⟩
    obtain ⟨hlt, _⟩ := List.getElem?_eq_some_iff.mp hi
    refine ⟨hlt.le, hi, fun j hj hjc => hfirst ⟨j, by omega, ?_⟩⟩
    exact (List.getElem?_eq_some_iff.mp hjc).2

theorem indexOf?_singleton_eq_none {c : UInt16} {s : List UInt16} :
    indexOf? [c] s = none ↔ c ∉ s := by
  induction s with
  | nil => simp [indexOf?]
  | cons d s ih =>
      by_cases hcd : c = d
      · simp [indexOf?, hcd]
      · simp [indexOf?, List.cons_prefix_cons, hcd, ih]

def indexOf (s needle : List UInt16) : Int :=
  match indexOf? needle s with
  | some i => i
  | none => -1

/-- Both ends are put into the range of the places, and in order. -/
def substring (s : List UInt16) (start stop : Int) : List UInt16 :=
  let a := min start.toNat s.length
  let b := min stop.toNat s.length
  (s.drop (min a b)).take (max a b - min a b)

theorem substring_of_le (s : List UInt16) {a b : Nat} (hab : a ≤ b) :
    substring s a b = (s.drop a).take (b - a) := by
  simp only [substring, Int.toNat_natCast]
  by_cases hb : b ≤ s.length
  · rw [Nat.min_eq_left (hab.trans hb), Nat.min_eq_left hb, Nat.min_eq_left hab,
      Nat.max_eq_right hab]
  · rw [Nat.min_eq_right (Nat.le_of_not_le hb), Nat.min_eq_left (Nat.min_le_right a _),
      Nat.max_eq_right (Nat.min_le_right a _)]
    obtain ha | ha := Nat.le_total a s.length
    · rw [Nat.min_eq_left ha, List.take_of_length_le (by simp),
        List.take_of_length_le (by simp; omega)]
    · simp [Nat.min_eq_right ha, List.drop_eq_nil_of_le ha]

theorem substring_comm (s : List UInt16) (a b : Int) : substring s a b = substring s b a := by
  simp only [substring, Nat.min_comm, Nat.max_comm]

theorem indexOf_of_some {needle s : List UInt16} {i : Nat} (h : indexOf? needle s = some i) :
    indexOf s needle = i := by
  rw [indexOf, h]

theorem indexOf_of_none {needle s : List UInt16} (h : indexOf? needle s = none) :
    indexOf s needle = -1 := by
  rw [indexOf, h]

/-! ## replacements -/

/-- A replacement, with what its patterns stand for. -/
def expand (replaced before after : List UInt16) : List UInt16 → List UInt16
  | [] => []
  | [c] => [c]
  | c :: d :: rest =>
      if c = unit '$' then
        if d = unit '$' then unit '$' :: expand replaced before after rest
        else if d = unit '&' then replaced ++ expand replaced before after rest
        else if d = 0x60 then before ++ expand replaced before after rest
        else if d = 0x27 then after ++ expand replaced before after rest
        else c :: expand replaced before after (d :: rest)
      else c :: expand replaced before after (d :: rest)

/-- `replace` of the first place of a text. -/
def replace (s pattern replacement : List UInt16) : List UInt16 :=
  match indexOf? pattern s with
  | some i =>
      s.take i ++ expand pattern (s.take i) (s.drop (i + pattern.length)) replacement ++
        s.drop (i + pattern.length)
  | none => s

theorem expand_of_notMem {replaced before after replacement : List UInt16}
    (h : unit '$' ∉ replacement) : expand replaced before after replacement = replacement := by
  induction replacement with
  | nil => rfl
  | cons c rest ih =>
      simp only [List.mem_cons, not_or] at h
      cases rest with
      | nil => rfl
      | cons d rest => rw [expand, if_neg (Ne.symm h.1), ih h.2]

theorem replace_of_indexOf? {before pattern after : List UInt16}
    (h : indexOf? pattern (before ++ pattern ++ after) = some before.length)
    (replacement : List UInt16) :
    replace (before ++ pattern ++ after) pattern replacement =
      before ++ expand pattern before after replacement ++ after := by
  rw [replace, h]
  simp

end JsString

end SnowflakeConnector
