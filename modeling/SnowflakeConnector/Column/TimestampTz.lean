import SnowflakeConnector.Column.History

/-!
# SnowflakeConnector.Column.TimestampTz

The two encodings of a TIMESTAMP_TZ that `convertRawTimestampTz` reads: the older one, a
number whose lowest 14 bits are the timezone, and the two fields of the newer result versions.

* `encodings_agree_iff` -- they are read as the same timestamp, unless it lies before the
  epoch and the code of its timezone is zero.
-/

namespace SnowflakeConnector

namespace Column

/-! ## fields between blanks -/

open String (ofList utf8Len splitOnAux)

/-- The loop of `splitOn` behind the fields in `acc`; `field` has been read of the next one. -/
theorem splitOnAux_blank (done field rest : List Char) (acc : List String) :
    splitOnAux (ofList (done ++ field ++ rest)) " " ⟨utf8Len done⟩ ⟨utf8Len (done ++ field)⟩ 0 acc =
      acc.reverse ++ (List.splitOnPPrepend (· == ' ') rest field.reverse).map ofList := by
  induction rest generalizing done field acc with
  | nil =>
      have hfield := String.extract_of_valid done field []
      rw [← String.utf8Len_append] at hfield
      rw [splitOnAux, if_pos ((String.atEnd_of_valid _ _).mpr rfl), hfield]
      simp
  | cons c rest ih =>
      have hfield := String.extract_of_valid done field (c :: rest)
      rw [← String.utf8Len_append] at hfield
      have hget := String.get_of_valid (done ++ field) (c :: rest)
      have hnext := String.next_of_valid (done ++ field) c rest
      have hblank : String.Pos.Raw.get " " 0 = ' ' := rfl
      have hend : ¬ String.Pos.Raw.atEnd (ofList (done ++ field ++ c :: rest))
          ⟨utf8Len (done ++ field)⟩ := by
        rw [String.atEnd_of_valid]
        exact List.cons_ne_nil c rest
      rw [splitOnAux, if_neg hend, hget, hblank, List.headD_cons, hnext]
      by_cases hc : c = ' '
      · subst c
        have hlast : String.Pos.Raw.next " " 0 = ⟨Char.utf8Size ' '⟩ := rfl
        have hatEnd : String.Pos.Raw.atEnd " " ⟨Char.utf8Size ' '⟩ = true := rfl
        have hback : (⟨utf8Len (done ++ field) + Char.utf8Size ' '⟩ : String.Pos.Raw).unoffsetBy
            ⟨Char.utf8Size ' '⟩ = ⟨utf8Len (done ++ field)⟩ := rfl
        have hnextField := ih (done ++ field ++ [' ']) [] (ofList field :: acc)
        rw [if_pos (by rfl)]
        dsimp only
        rw [hlast, if_pos hatEnd, hback, hfield, List.splitOnPPrepend_cons_pos (by rfl)]
        simpa [-String.ofList_append, String.utf8Len_append, Nat.add_assoc] using hnextField
      · have hsame := ih done (field ++ [c]) acc
        have hback : (⟨utf8Len (done ++ field)⟩ : String.Pos.Raw).unoffsetBy 0 =
            ⟨utf8Len (done ++ field)⟩ := rfl
        rw [if_neg (by simpa using hc), hback, hnext, List.splitOnPPrepend_cons_neg (by simpa using hc)]
        simpa [-String.ofList_append, String.utf8Len_append, Nat.add_assoc] using hsame

/-- A text of two fields falls into them at the blank. -/
theorem splitOn_fields {first second : String} (hfirst : ' ' ∉ first.toList)
    (hsecond : ' ' ∉ second.toList) : (first ++ " " ++ second).splitOn " " = [first, second] := by
  have hsplit : (first.toList ++ ' ' :: second.toList).splitOnP (· == ' ') =
      [first.toList, second.toList] := by
    rw [List.splitOnP_append_cons _ _ (by rfl), List.splitOnP_eq_singleton,
      List.splitOnP_eq_singleton]
    · rfl
    · intro c hc
      exact beq_false_of_ne (ne_of_mem_of_not_mem hc hsecond)
    · intro c hc
      exact beq_false_of_ne (ne_of_mem_of_not_mem hc hfirst)
  have htext : first ++ " " ++ second = ofList ([] ++ [] ++ (first.toList ++ ' ' :: second.toList)) :=
    String.ext (by simp)
  have hloop := splitOnAux_blank [] [] (first.toList ++ ' ' :: second.toList) []
  rw [← htext, List.reverse_nil, List.reverse_nil, List.splitOnPPrepend_nil_right, hsplit] at hloop
  rw [String.splitOn, if_neg (by decide)]
  simpa using hloop

/-! ## the two encodings -/

variable {ν ω : Type*}

/-- All but the lowest 14 bits. -/
theorem floor_combined (n : Int) {tz : Int} (hpos : 0 ≤ tz) (hlt : tz < 16384) :
    ⌊((n * 16384 + tz : Int) : ℚ) / 16384⌋ = n := by
  have hcast : ((n * 16384 + tz : Int) : ℚ) / 16384 = n + (tz : ℚ) / 16384 := by
    push_cast
    ring
  have hpos' : (0 : ℚ) ≤ tz := mod_cast hpos
  have hlt' : (tz : ℚ) < 16384 := mod_cast hlt
  rw [hcast, Int.floor_eq_iff]
  constructor
  · have := div_nonneg hpos' (by norm_num : (0 : ℚ) ≤ 16384)
    linarith
  · have := (div_lt_one (by norm_num : (0 : ℚ) < 16384)).mpr hlt'
    linarith

theorem ceil_combined (n : Int) {tz : Int} (hpos : 0 ≤ tz) (hlt : tz < 16384) :
    ⌈((n * 16384 + tz : Int) : ℚ) / 16384⌉ = if tz = 0 then n else n + 1 := by
  have hcast : ((n * 16384 + tz : Int) : ℚ) / 16384 = n + (tz : ℚ) / 16384 := by
    push_cast
    ring
  split_ifs with htz
  · simp [htz]
  · have hpos' : (0 : ℚ) < tz := mod_cast lt_of_le_of_ne hpos (Ne.symm htz)
    have hlt' : (tz : ℚ) < 16384 := mod_cast hlt
    have hfraction := div_pos hpos' (by norm_num : (0 : ℚ) < 16384)
    have hone := (div_lt_one (by norm_num : (0 : ℚ) < 16384)).mpr hlt'
    rw [hcast, Int.ceil_eq_iff]
    push_cast
    constructor <;> linarith

/-- The lowest 14 bits of an older value, as they are found with the sign of the value. -/
theorem lowestBits_combined (n : Int) {tz : Int} (hpos : 0 ≤ tz) (hlt : tz < 16384) :
    (if 0 ≤ ((n * 16384 + tz : Int) : ℚ) then
        ((n * 16384 + tz : Int) : ℚ) - 16384 * ⌊((n * 16384 + tz : Int) : ℚ) / 16384⌋
      else ((n * 16384 + tz : Int) : ℚ) - 16384 * ⌈((n * 16384 + tz : Int) : ℚ) / 16384⌉ + 16384) =
      if n < 0 ∧ tz = 0 then 16384 else (tz : ℚ) := by
  have hsign : 0 ≤ ((n * 16384 + tz : Int) : ℚ) ↔ 0 ≤ n := by
    rw [Int.cast_nonneg_iff]
    omega
  rw [floor_combined n hpos hlt, ceil_combined n hpos hlt]
  by_cases hn : 0 ≤ n
  · rw [if_pos (hsign.mpr hn), if_neg (by omega)]
    push_cast
    ring
  · rw [if_neg (mt hsign.mp hn)]
    by_cases htz : tz = 0
    · rw [if_pos htz, if_pos ⟨by omega, htz⟩, htz]
      push_cast
      ring
    · rw [if_neg htz, if_neg (by omega)]
      push_cast
      ring

/-- The timestamp of `count` fractions of a second, in the timezone of the code `tz`. -/
def timestampAt (env : Engine ν ω) (count : Int) (tz scale : Nat) (format : Option String) :
    SfTimestamp ν :=
  newSfTimestamp (env.round (count / 10 ^ scale : Int))
    (some ((count % 10 ^ scale * 10 ^ (9 - scale) : Int) : ℚ)) scale (.minutes (tz - 1440)) format

/-- Texts for the two encodings of `count` fractions of a second with the code `tz`. -/
structure Encodes (env : Engine ν ω) (count : Int) (tz scale : Nat)
    (combined seconds timezone : String) : Prop where
  reads_combined : env.bigNumber (some combined) =
    some (((count * 16384 + tz : Int) : ℚ) / (10 : ℚ) ^ scale)
  reads_seconds : env.bigNumber (some seconds) = some ((count : ℚ) / (10 : ℚ) ^ scale)
  reads_timezone : env.bigNumber (some timezone) = some (tz : ℚ)
  seconds_field : ' ' ∉ seconds.toList
  timezone_field : ' ' ∉ timezone.toList

variable {env : Engine ν ω} {count : Int} {tz scale : Nat}

theorem fraction_nonneg (count : Int) (scale : Nat) :
    0 ≤ count % 10 ^ scale * 10 ^ (9 - scale) := by
  have hpos := Int.emod_nonneg count (pow_ne_zero scale (by norm_num : (10 : Int) ≠ 0))
  exact mul_nonneg hpos (by positivity)

/-- What remains of the seconds is less than a second, in nanoseconds. -/
theorem fraction_lt (count : Int) (hscale : scale ≤ 9) :
    count % 10 ^ scale * 10 ^ (9 - scale) < 10 ^ 9 := by
  have hlt := Int.emod_lt_of_pos count (pow_pos (by norm_num : (0 : Int) < 10) scale)
  have hfactor := pow_pos (by norm_num : (0 : Int) < 10) (9 - scale)
  calc count % 10 ^ scale * 10 ^ (9 - scale)
      < 10 ^ scale * 10 ^ (9 - scale) := mul_lt_mul_of_pos_right hlt hfactor
    _ = 10 ^ 9 := by rw [← pow_add, Nat.add_sub_cancel' hscale]

/-- The seconds are rounded down, and the nanoseconds are what remains. -/
theorem convertRawTimestampHelper_count
    (hround : ∀ k : Int, |k| ≤ 2 ^ 53 → env.round k = some (k : ℚ)) (hscale : scale ≤ 9)
    (timezone : Timezone) (format : Option String) :
    convertRawTimestampHelper env (some (count : ℚ)) scale timezone format =
      newSfTimestamp (env.round (count / 10 ^ scale : Int))
        (some ((count % 10 ^ scale * 10 ^ (9 - scale) : Int) : ℚ)) scale timezone format := by
  have hfloor : ⌊(count : ℚ) / (10 : ℚ) ^ scale⌋ = count / 10 ^ scale := by
    have := Rat.floor_intCast_div_natCast count (10 ^ scale)
    simpa using this
  have hzpow : (10 : ℚ) ^ (9 - (scale : Int)) = (10 : ℚ) ^ (9 - scale) := by
    rw [← zpow_natCast, Nat.cast_sub hscale]
    rfl
  have hsplit : (count : ℚ) = (count / 10 ^ scale : Int) * (10 : ℚ) ^ scale +
      (count % 10 ^ scale : Int) := by
    have := Int.ediv_mul_add_emod count (10 ^ scale)
    exact_mod_cast this.symm
  have hnano : ((count : ℚ) - (count / 10 ^ scale : Int) * (10 : ℚ) ^ scale) *
      (10 : ℚ) ^ (9 - (scale : Int)) = ((count % 10 ^ scale * 10 ^ (9 - scale) : Int) : ℚ) := by
    rw [hzpow, Int.cast_mul, Int.cast_pow]
    push_cast
    linear_combination (10 : ℚ) ^ (9 - scale) * hsplit
  have hbound : |count % 10 ^ scale * 10 ^ (9 - scale)| ≤ (2 : Int) ^ 53 := by
    rw [abs_of_nonneg (fraction_nonneg count scale)]
    exact (fraction_lt count hscale).le.trans (by norm_num)
  simp only [convertRawTimestampHelper, Option.map_some, Option.bind_some, hfloor, hnano,
    hround _ hbound]

/-- The two fields of the newer versions. -/
theorem convertRawTimestampTz_fields
    (hround : ∀ k : Int, |k| ≤ 2 ^ 53 → env.round k = some (k : ℚ)) (hscale : scale ≤ 9)
    (htz : tz ≤ 2880) {combined seconds timezone : String}
    (h : Encodes env count tz scale combined seconds timezone) {version : String}
    (hversion : version ≠ "0") (format : Option String) :
    convertRawTimestampTz env (seconds ++ " " ++ timezone) scale (some version) format =
      some (timestampAt env count tz scale format) := by
  have hcount : (count : ℚ) / (10 : ℚ) ^ scale * (10 : ℚ) ^ scale = count :=
    div_mul_cancel₀ _ (pow_ne_zero _ (by norm_num))
  have hexact : env.round (tz : ℚ) = some (tz : ℚ) := by
    have := hround tz (by rw [abs_of_nonneg (by omega)]; omega)
    exact_mod_cast this
  have hrange : (0 : ℚ) ≤ tz ∧ (tz : ℚ) ≤ 2880 := ⟨by positivity, mod_cast htz⟩
  have hnewer : ¬ (some version = none ∨ some version = some "0") := by simpa using hversion
  simp only [convertRawTimestampTz, if_neg hnewer, splitOn_fields h.seconds_field h.timezone_field,
    List.getElem?_cons_zero, List.getElem?_cons_succ, h.reads_seconds, h.reads_timezone,
    Option.map_some, Option.bind_some, hcount, hexact, if_pos hrange]
  rw [convertRawTimestampHelper_count hround hscale, timestampAt]

/-- The number of the older version; its timezone is out of range where the sign is corrected
although nothing remains. -/
theorem convertRawTimestampTz_combined
    (hround : ∀ k : Int, |k| ≤ 2 ^ 53 → env.round k = some (k : ℚ)) (hscale : scale ≤ 9)
    (htz : tz ≤ 2880) {combined seconds timezone : String}
    (h : Encodes env count tz scale combined seconds timezone) {version : Option String}
    (hversion : version = none ∨ version = some "0") (format : Option String) :
    convertRawTimestampTz env combined scale version format =
      if count < 0 ∧ tz = 0 then none else some (timestampAt env count tz scale format) := by
  have hcount : ((count * 16384 + tz : Int) : ℚ) / (10 : ℚ) ^ scale * (10 : ℚ) ^ scale =
      ((count * 16384 + tz : Int) : ℚ) := div_mul_cancel₀ _ (pow_ne_zero _ (by norm_num))
  have hlt : (tz : Int) < 16384 := by omega
  simp only [convertRawTimestampTz, if_pos hversion, h.reads_combined, Option.map_some,
    Option.bind_some, hcount, lowestBits_combined count (Int.natCast_nonneg tz) hlt]
  by_cases hslip : count < 0 ∧ tz = 0
  · have hbits := hround 16384 (by norm_num)
    rw [if_pos hslip, if_pos ⟨hslip.1, mod_cast hslip.2⟩]
    norm_num at hbits
    simp only [hbits]
    norm_num
  · have hexact : env.round (((tz : Int) : ℚ)) = some (tz : ℚ) := by
      have := hround tz (by rw [abs_of_nonneg (by omega)]; omega)
      exact_mod_cast this
    have hrange : (0 : ℚ) ≤ tz ∧ (tz : ℚ) ≤ 2880 := ⟨by positivity, mod_cast htz⟩
    rw [if_neg hslip, if_neg (by omega), hexact, floor_combined count (Int.natCast_nonneg tz) hlt]
    dsimp only
    rw [if_pos hrange, convertRawTimestampHelper_count hround hscale, timestampAt]

/-- **Encodings**: the two of a timestamp are read, and as the timestamp that they encode,
unless it lies before the epoch and the code of its timezone is zero. -/
theorem encodings_agree_iff (env : Engine ν ω)
    (hround : ∀ k : Int, |k| ≤ 2 ^ 53 → env.round k = some (k : ℚ)) (count : Int)
    {tz scale : Nat} (hscale : scale ≤ 9) (htz : tz ≤ 2880) {combined seconds timezone : String}
    (h : Encodes env count tz scale combined seconds timezone) {older : Option String}
    {newer : String} (holder : older = none ∨ older = some "0") (hnewer : newer ≠ "0")
    (format : Option String) :
    (∃ t, convertRawTimestampTz env combined scale older format = some t ∧
        convertRawTimestampTz env (seconds ++ " " ++ timezone) scale (some newer) format = some t ∧
        t = timestampAt env count tz scale format) ↔
      ¬ (count < 0 ∧ tz = 0) := by
  rw [convertRawTimestampTz_combined hround hscale htz h holder,
    convertRawTimestampTz_fields hround hscale htz h hnewer]
  constructor
  · intro hread hslip
    obtain ⟨t, hcombined, _⟩ := hread
    rw [if_pos hslip] at hcombined
    contradiction
  · intro hslip
    exact ⟨timestampAt env count tz scale format, if_neg hslip, rfl, rfl⟩

/-! ## instants at scale 0 -/

/-- `BigNumber` on integers. -/
def bigInteger (text : List Char) : Option ℚ :=
  let digits := if text.head? = some '-' then text.tail else text
  let value : Int := digits.foldl (fun n c => 10 * n + (c.toNat - 48)) 0
  if digits ≠ [] ∧ digits.all Char.isDigit then
    some ((if text.head? = some '-' then -value else value : Int) : ℚ)
  else none

/-- An engine that reads integers. -/
def integerEngine : Engine Int (Json Int) :=
  { variantEngine with bigNumber := fun text => text.bind fun s => bigInteger s.toList }

theorem encodes_after_epoch : Encodes integerEngine 1 1500 0 "17884" "1" "1500" where
  reads_combined := by
    rw [pow_zero, div_one]
    rfl
  reads_seconds := by
    rw [pow_zero, div_one]
    rfl
  reads_timezone := rfl
  seconds_field := by decide
  timezone_field := by decide

/-- One second after the epoch, an hour ahead. -/
theorem encodings_agree_iff_after_epoch :
    (∃ t, convertRawTimestampTz integerEngine "17884" 0 none none = some t ∧
        convertRawTimestampTz integerEngine ("1" ++ " " ++ "1500") 0 (some "1") none = some t ∧
        t = timestampAt integerEngine 1 1500 0 none) ↔
      ¬ ((1 : Int) < 0 ∧ 1500 = 0) :=
  encodings_agree_iff integerEngine (fun _ _ => rfl) 1 (by decide) (by decide)
    encodes_after_epoch (Or.inl rfl) (by decide) none

/-- One second before the epoch in the timezone of the code zero: the older value throws. -/
theorem combined_throws_before_epoch :
    Encodes integerEngine (-1) 0 0 "-16384" "-1" "0" ∧
      ¬ ∃ t, convertRawTimestampTz integerEngine "-16384" 0 (some "0") none = some t ∧
        convertRawTimestampTz integerEngine ("-1" ++ " " ++ "0") 0 (some "1") none = some t ∧
        t = timestampAt integerEngine (-1) 0 0 none := by
  have hencodes : Encodes integerEngine (-1) 0 0 "-16384" "-1" "0" := by
    constructor
    · rw [pow_zero, div_one]
      rfl
    · rw [pow_zero, div_one]
      rfl
    · rfl
    · decide
    · decide
  refine ⟨hencodes, fun hread => ?_⟩
  obtain ⟨t, hcombined, _⟩ := hread
  rw [convertRawTimestampTz_combined (fun _ _ => rfl) (by decide) (by decide) hencodes
    (Or.inr rfl), if_pos (by decide)] at hcombined
  contradiction

end Column

end SnowflakeConnector
