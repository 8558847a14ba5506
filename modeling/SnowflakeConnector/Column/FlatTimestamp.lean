import SnowflakeConnector.Column.TimestampTz

/-!
# SnowflakeConnector.Column.FlatTimestamp

The cells of flat TIME and TIMESTAMP columns: how a number of seconds is split by
`convertRawTimestampHelper` and the constructor of `SfTimestamp`, and which digits
`SfTimestamp.prototype.toString` prints for the tags `FF` and `FF0` to `FF9`.

* `SplitExactly` -- a timestamp that is the number of seconds, and prints its digits.
* `splitExactly_iff` -- when that of a cell is.
-/

namespace SnowflakeConnector

namespace Column

/-! ## digits -/

/-- The last `n` digits of a number, with zeros in front. -/
def lastDigits : Nat → Nat → List Char
  | 0, _ => []
  | n + 1, m => lastDigits n (m / 10) ++ [Nat.digitChar (m % 10)]

@[simp] theorem length_lastDigits (n m : Nat) : (lastDigits n m).length = n := by
  induction n generalizing m with
  | zero => rfl
  | succ n ih => simp [lastDigits, ih]

/-- The first digits are those of the number without the others. -/
theorem take_lastDigits {n k : Nat} (hn : n ≤ k) (m : Nat) :
    (lastDigits k m).take n = lastDigits n (m / 10 ^ (k - n)) := by
  induction k generalizing m with
  | zero =>
      obtain rfl : n = 0 := by omega
      rfl
  | succ k ih =>
      by_cases hk : n = k + 1
      · subst hk
        simp
      · have hle : n ≤ k := by omega
        have hpow : 10 ^ (k + 1 - n) = 10 * 10 ^ (k - n) := by
          rw [Nat.succ_sub hle, Nat.pow_succ, Nat.mul_comm]
        rw [lastDigits, List.take_append_of_le_length (by simpa using hle), ih hle, hpow,
          Nat.div_div_eq_div_mul]

/-- The end of a padded number. -/
theorem drop_toDigits {n z : Nat} (m : Nat) (hn : n ≤ z + (Nat.toDigits 10 m).length) :
    (List.replicate z '0' ++ Nat.toDigits 10 m).drop
      ((List.replicate z '0' ++ Nat.toDigits 10 m).length - n) = lastDigits n m := by
  induction n generalizing z m with
  | zero => simp [lastDigits]
  | succ n ih =>
      rw [lastDigits]
      by_cases hm : m < 10
      · have hdigits : Nat.toDigits 10 m = [Nat.digitChar m] := Nat.toDigits_of_lt_base hm
        have hzero : lastDigits n 0 = List.replicate n '0' := by
          clear ih hn
          induction n with
          | zero => rfl
          | succ n ih => simp [lastDigits, ih, List.replicate_succ']
        rw [hdigits] at hn ⊢
        simp only [List.length_cons, List.length_nil] at hn
        rw [Nat.div_eq_of_lt hm, Nat.mod_eq_of_lt hm, hzero]
        rw [List.drop_append_of_le_length (by simp), List.drop_replicate]
        congr 2
        simp
        omega
      · have hdigits : Nat.toDigits 10 m = Nat.toDigits 10 (m / 10) ++ [Nat.digitChar (m % 10)] :=
          Nat.toDigits_of_base_le (by decide) (by omega)
        rw [hdigits] at hn ⊢
        simp only [List.length_append, List.length_cons, List.length_nil] at hn
        rw [← List.append_assoc, List.drop_append_of_le_length (by simp; omega),
          ← ih (z := z) (m / 10) (by omega)]
        congr 2
        simp
        omega

/-- A number of at most nine digits, padded to nine. -/
def nineDigits (n : Nat) : List Char := (Nat.toDigits 10 n).leftpad 9 '0'

theorem nineDigits_eq {n : Nat} (hn : n < 10 ^ 9) : nineDigits n = lastDigits 9 n := by
  have hlength : (Nat.toDigits 10 n).length ≤ 9 :=
    (Nat.length_toDigits_le_iff (by decide) (by decide)).mpr hn
  rw [← drop_toDigits (z := 9 - (Nat.toDigits 10 n).length) n (by omega)]
  simp [nineDigits, List.leftpad, hlength]

/-- What `toString` prints for a tag with `n` digits. -/
theorem fractionDigits_eq {n nanos : Nat} (hpos : 0 < n) (hn : n ≤ 9) (hnanos : nanos < 10 ^ 9) :
    fractionDigits (nanos : ℚ) n = (nineDigits nanos).take n := by
  have hzpow : (10 : ℚ) ^ (9 - (n : Int)) = ((10 ^ (9 - n) : Nat) : ℚ) := by
    rw [Nat.cast_pow, ← zpow_natCast, Nat.cast_sub hn]
    rfl
  have hscaled : ⌊(nanos : ℚ) / (10 : ℚ) ^ (9 - (n : Int))⌋ = ((nanos / 10 ^ (9 - n) : Nat) : Int) := by
    rw [hzpow]
    exact Rat.floor_natCast_div_natCast nanos (10 ^ (9 - n))
  have hdigits : (toString ((nanos / 10 ^ (9 - n) : Nat) : Int)).toList =
      Nat.toDigits 10 (nanos / 10 ^ (9 - n)) := by
    rw [show toString ((nanos / 10 ^ (9 - n) : Nat) : Int) = toString (nanos / 10 ^ (9 - n)) from rfl,
      Nat.toString_eq_ofList_toDigits, String.toList_ofList]
  have hlength : 0 < (Nat.toDigits 10 (nanos / 10 ^ (9 - n))).length := Nat.length_toDigits_pos
  simp only [fractionDigits, hscaled, hdigits]
  rw [drop_toDigits _ (by omega), nineDigits_eq hnanos, take_lastDigits hn]

/-! ## tags -/

/-- What stands at a place of a format: a character that is no tag, a tag of Moment, or one that
needs special code; `FF` may have a digit. -/
inductive Token
  | char (c : Char)
  | tag (out : List Char)
  | hours
  | minutes
  | fraction (digit : Option (Fin 10))

/-- The places of a format, in the order of the loop. -/
def tokens : Nat → List Char → List Token
  | 0, _ => []
  | _, [] => []
  | fuel + 1, c :: rest =>
      match formatTagsMap.find? fun tag => tag.1.isPrefixOf ((c :: rest).map Char.toUpper) with
      | none => .char c :: tokens fuel rest
      | some (tag, out) =>
          let after := (c :: rest).drop tag.length
          if tag = "TZH".toList then .hours :: tokens fuel after
          else if tag = "TZM".toList then .minutes :: tokens fuel after
          else if tag = "FF".toList then
            match after.head?.filter Char.isDigit with
            | some digit => .fraction (some (Fin.ofNat 10 (digit.toNat - 48))) :: tokens fuel (after.drop 1)
            | none => .fraction none :: tokens fuel after
          else .tag out :: tokens fuel after

def formatTokens (format : String) : List Token := tokens format.toList.length format.toList

/-- The variable `scale` after a place: a digit stays in it. -/
def Token.scale (scale : Nat) : Token → Nat
  | .fraction (some digit) => digit
  | _ => scale

/-- The variable `out` at a place. -/
def Token.out (zone : List Char) (nanoSeconds : ℚ) (scale : Nat) : Token → List Char
  | .char c => ['[', c, ']']
  | .tag out => out
  | .hours => zone.take 3
  | .minutes => zone.drop 3
  | .fraction digit =>
      let scale := (Token.fraction digit).scale scale
      if 0 < scale then fractionDigits nanoSeconds scale else []

/-- What is put into the format of Moment, place by place. -/
def outputs (zone : List Char) (nanoSeconds : ℚ) : Nat → List Token → List (Token × List Char)
  | _, [] => []
  | scale, token :: tokens =>
      (token, token.out zone nanoSeconds scale) ::
        outputs zone nanoSeconds (token.scale scale) tokens

theorem isDigit_lt {c : Char} (h : c.isDigit = true) : c.toNat - 48 < 10 := by
  have hle : c.toNat ≤ 57 := by
    simp only [Char.isDigit, Bool.and_eq_true, decide_eq_true_eq] at h
    exact h.2
  omega

/-- The text for Moment is what is put into it. -/
theorem timestampFormat_eq (zone : List Char) (nanoSeconds : ℚ) (fuel : Nat) (format : List Char)
    (scale : Nat) :
    timestampFormat zone nanoSeconds fuel format scale =
      (outputs zone nanoSeconds scale (tokens fuel format)).flatMap Prod.snd := by
  induction fuel generalizing format scale with
  | zero => simp [timestampFormat, tokens, outputs]
  | succ fuel ih =>
      cases format with
      | nil => simp [timestampFormat, tokens, outputs]
      | cons c rest =>
          simp only [timestampFormat, tokens]
          cases formatTagsMap.find? fun tag => tag.1.isPrefixOf ((c :: rest).map Char.toUpper) with
          | none => simp [outputs, Token.out, Token.scale, ih]
          | some found =>
              dsimp only
              generalize (c :: rest).drop found.1.length = after
              by_cases hhours : found.1 = "TZH".toList
              · simp only [if_pos hhours, ih, outputs]
                rfl
              by_cases hminutes : found.1 = "TZM".toList
              · simp only [if_neg hhours, if_pos hminutes, ih, outputs]
                rfl
              by_cases hfraction : found.1 = "FF".toList
              · simp only [if_neg hhours, if_neg hminutes, if_pos hfraction]
                cases hdigit : after.head?.filter Char.isDigit with
                | none =>
                    simp only [ih, outputs]
                    rfl
                | some digit =>
                    have hlt : digit.toNat - 48 < 10 :=
                      isDigit_lt (Option.filter_eq_some_iff.mp hdigit).2
                    simp [outputs, Token.out, Token.scale, ih, Nat.mod_eq_of_lt hlt]
              · simp only [if_neg hhours, if_neg hminutes, if_neg hfraction, ih, outputs]
                rfl

/-- The value of the variable `scale` after some places. -/
def scaleAfter (scale : Nat) (tokens : List Token) : Nat := tokens.foldl Token.scale scale

theorem mem_outputs {zone : List Char} {nanoSeconds : ℚ} {scale : Nat} {ts : List Token}
    {token : Token} {out : List Char} :
    (token, out) ∈ outputs zone nanoSeconds scale ts ↔
      ∃ before after, ts = before ++ token :: after ∧
        out = token.out zone nanoSeconds (scaleAfter scale before) := by
  induction ts generalizing scale with
  | nil => simp [outputs]
  | cons t ts ih =>
      rw [outputs, List.mem_cons, Prod.mk.injEq, ih]
      constructor
      · rintro (⟨rfl, rfl⟩ | ⟨before, after, rfl, rfl⟩)
        · exact ⟨[], ts, rfl, rfl⟩
        · exact ⟨t :: before, after, rfl, rfl⟩
      · rintro ⟨before, after, hts, rfl⟩
        cases before with
        | nil =>
            obtain ⟨rfl, rfl⟩ := List.cons.inj hts
            exact .inl ⟨rfl, rfl⟩
        | cons b before =>
            obtain ⟨rfl, rfl⟩ := List.cons.inj hts
            exact .inr ⟨before, after, rfl, rfl⟩

/-- An `FF` without a digit has the scale of the column, whatever digit came before. -/
def KeepsScale (scale : Nat) (ts : List Token) : Prop :=
  ∀ before after, ts = before ++ .fraction none :: after → scaleAfter scale before = scale

/-- The digits of every `FF` are the first ones of the nanoseconds: as many as its digit says, or
else the scale. -/
def PrintsDigits (scale nanos : Nat) (outs : List (Token × List Char)) : Prop :=
  ∀ digit out, (Token.fraction digit, out) ∈ outs →
    out = (nineDigits nanos).take (digit.elim scale Fin.val)

theorem scaleAfter_le {scale : Nat} (hscale : scale ≤ 9) (ts : List Token) :
    scaleAfter scale ts ≤ 9 := by
  unfold scaleAfter
  induction ts generalizing scale with
  | nil => exact hscale
  | cons t ts ih =>
      refine ih ?_
      unfold Token.scale
      split
      · omega
      · exact hscale

theorem scale_fraction (scale : Nat) (digit : Option (Fin 10)) :
    (Token.fraction digit).scale scale = digit.elim scale Fin.val := by
  cases digit <;> rfl

/-- An `FF` prints as many digits as the variable `scale` says. -/
theorem out_fraction {zone : List Char} {scale nanos : Nat} (hscale : scale ≤ 9)
    (hnanos : nanos < 10 ^ 9) (digit : Option (Fin 10)) :
    (Token.fraction digit).out zone nanos scale =
      (nineDigits nanos).take (digit.elim scale Fin.val) := by
  have hle : digit.elim scale Fin.val ≤ 9 := by
    cases digit with
    | none => exact hscale
    | some digit => exact Nat.le_of_lt_succ digit.isLt
  rw [Token.out, scale_fraction]
  split_ifs with hpos
  · exact fractionDigits_eq hpos hle hnanos
  · rw [Nat.eq_zero_of_not_pos hpos, List.take_zero]

/-- The digits are right exactly where no digit stays in the scale. -/
theorem printsDigits_iff {zone : List Char} {scale nanos : Nat} (hscale : scale ≤ 9)
    (hnanos : nanos < 10 ^ 9) (ts : List Token) :
    PrintsDigits scale nanos (outputs zone nanos scale ts) ↔ KeepsScale scale ts := by
  constructor
  · intro h before after hts
    have htake := h none _ (mem_outputs.mpr ⟨before, after, hts, rfl⟩)
    rw [out_fraction (scaleAfter_le hscale before) hnanos] at htake
    have hlength := congrArg List.length htake
    have hafter := scaleAfter_le hscale before
    simp only [nineDigits_eq hnanos, List.length_take, length_lastDigits, Option.elim_none] at hlength
    omega
  · intro h digit out hmem
    obtain ⟨before, after, hts, rfl⟩ := mem_outputs.mp hmem
    rw [out_fraction (scaleAfter_le hscale before) hnanos]
    cases digit with
    | none => rw [Option.elim_none, h before after hts, Option.elim_none]
    | some digit => rfl

/-! ## the moment -/

def trunc (x : ℚ) : Int := if 0 ≤ x then ⌊x⌋ else ⌈x⌉

/-- The time value of a date, in milliseconds; there is none outside of the range of a date. -/
def timeClip (x : ℚ) : Option Int :=
  if |x| ≤ 8640000000000000 then some (trunc x) else none

/-- The time of the field `moment`.  Both operands of the quotient are small integers, so that it
is not rounded past one. -/
def SfTimestamp.moment {ν ω : Type*} (env : Engine ν ω) (t : SfTimestamp ν) : Option Int :=
  let milliseconds := trunc (t.nanoSeconds / 1000000)
  (env.round (t.epochSeconds * 1000)).bind fun x =>
    (env.round (x + milliseconds)).bind timeClip

/-- What `toString` puts into the format of Moment. -/
def SfTimestamp.outputs {ν ω : Type*} (env : Engine ν ω) (t : SfTimestamp ν) :
    List (Token × List Char) :=
  Column.outputs (env.offset t.epochSeconds t.nanoSeconds t.timezone) t.nanoSeconds t.scale
    (formatTokens t.format)

/-- A timestamp of a number of seconds: the whole ones rounded down, the nanoseconds that remain,
its instant in milliseconds, and its digits in every format. -/
structure SplitExactly {ν ω : Type*} (env : Engine ν ω) (value : ℚ) (scale nanos : Nat)
    (t : SfTimestamp ν) : Prop where
  epochSeconds : t.epochSeconds = ⌊value⌋
  nanoSeconds : t.nanoSeconds = nanos
  nanos_lt : nanos < 10 ^ 9
  whole : t.epochSeconds * 10 ^ 9 + t.nanoSeconds = value * 10 ^ 9
  moment : t.moment env = some ⌊value * 1000⌋
  digits : PrintsDigits scale nanos (t.outputs env)

/-! ## cells -/

/-- The whole seconds of `count` fractions of a second. -/
def secondsOf (count : Int) (scale : Nat) : Int := count / 10 ^ scale

def nanosOf (count : Int) (scale : Nat) : Nat := (count % 10 ^ scale * 10 ^ (9 - scale)).toNat

theorem nanosOf_cast (count : Int) (scale : Nat) :
    (nanosOf count scale : Int) = count % 10 ^ scale * 10 ^ (9 - scale) :=
  Int.toNat_of_nonneg (fraction_nonneg count scale)

theorem nanosOf_lt (count : Int) {scale : Nat} (hscale : scale ≤ 9) :
    nanosOf count scale < 10 ^ 9 := by
  have hbound : (nanosOf count scale : Int) < 10 ^ 9 := by
    rw [nanosOf_cast]
    exact fraction_lt count hscale
  exact_mod_cast hbound

/-- A number of fractions is its seconds and its nanoseconds. -/
theorem value_eq (count : Int) {scale : Nat} (hscale : scale ≤ 9) :
    (count : ℚ) / 10 ^ scale = secondsOf count scale + (nanosOf count scale : ℚ) / 10 ^ 9 := by
  have hsplit : (count : ℚ) = secondsOf count scale * (10 : ℚ) ^ scale + (count % 10 ^ scale : Int) := by
    have := Int.ediv_mul_add_emod count (10 ^ scale)
    exact_mod_cast this.symm
  have hnanos : (nanosOf count scale : ℚ) = (count % 10 ^ scale : Int) * (10 : ℚ) ^ (9 - scale) := by
    exact_mod_cast nanosOf_cast count scale
  have hpow : (10 : ℚ) ^ 9 = 10 ^ scale * 10 ^ (9 - scale) := by
    rw [← pow_add, Nat.add_sub_cancel' hscale]
  rw [hnanos, hpow, hsplit]
  field_simp

theorem floor_value (count : Int) {scale : Nat} (hscale : scale ≤ 9) :
    ⌊(count : ℚ) / 10 ^ scale⌋ = secondsOf count scale := by
  have hlt : (nanosOf count scale : ℚ) < 10 ^ 9 := by exact_mod_cast nanosOf_lt count hscale
  rw [value_eq count hscale, Int.floor_eq_iff]
  refine ⟨by simp; positivity, ?_⟩
  have := (div_lt_one (by norm_num : (0 : ℚ) < 10 ^ 9)).mpr hlt
  linarith

theorem floor_value_thousand (count : Int) {scale : Nat} (hscale : scale ≤ 9) :
    ⌊(count : ℚ) / 10 ^ scale * 1000⌋ =
      secondsOf count scale * 1000 + (nanosOf count scale / 1000000 : Nat) := by
  have hvalue : (count : ℚ) / 10 ^ scale * 1000 =
      ((secondsOf count scale * 1000 : Int) : ℚ) + (nanosOf count scale : ℚ) / (1000000 : Nat) := by
    rw [value_eq count hscale]
    push_cast
    ring
  rw [hvalue, Int.floor_intCast_add, Rat.floor_natCast_div_natCast]
  norm_cast

section

variable {ν ω : Type*} {env : Engine ν ω} {count : Int} {scale : Nat}

/-- The timestamp of a cell that holds `count` fractions of a second. -/
theorem convertRawTimestamp_eq
    (hround : ∀ k : Int, |k| ≤ 2 ^ 53 → env.round k = some (k : ℚ)) (hscale : scale ≤ 9)
    {raw : String} (hread : env.bigNumber (some raw) = some ((count : ℚ) / 10 ^ scale))
    (timezone : Timezone) (format : Option String) :
    convertRawTimestamp env raw scale timezone format =
      newSfTimestamp (env.round (secondsOf count scale)) (some (nanosOf count scale)) scale timezone
        format := by
  have hcount : (count : ℚ) / 10 ^ scale * 10 ^ scale = count :=
    div_mul_cancel₀ _ (pow_ne_zero _ (by norm_num))
  have hnanos : ((count % 10 ^ scale * 10 ^ (9 - scale) : Int) : ℚ) = nanosOf count scale := by
    exact_mod_cast (nanosOf_cast count scale).symm
  rw [convertRawTimestamp, hread, Option.map_some, hcount,
    convertRawTimestampHelper_count hround hscale, hnanos]
  rfl

theorem timeClip_eq_some {x : ℚ} {k : Int} (h : timeClip x = some k) : |k| ≤ 8640000000000000 := by
  unfold timeClip at h
  split_ifs at h with hrange
  obtain rfl := Option.some.inj h
  rw [abs_le] at hrange ⊢
  unfold trunc
  split_ifs with hpos
  · have hfloor : ⌊x⌋ ≤ 8640000000000000 := by
      have := (Int.floor_le x).trans hrange.2
      exact_mod_cast this
    have := Int.floor_nonneg.mpr hpos
    omega
  · have hceil : -8640000000000000 ≤ ⌈x⌉ := by
      have := hrange.1.trans (Int.le_ceil x)
      exact_mod_cast this
    have : ⌈x⌉ ≤ 0 := Int.ceil_le.mpr (by push_cast; linarith)
    omega

theorem timeClip_intCast {k : Int} (h : |k| ≤ 8640000000000000) : timeClip k = some k := by
  have hrange : |(k : ℚ)| ≤ 8640000000000000 := by exact_mod_cast h
  simp [timeClip, trunc, hrange]

/-- The moment of whole seconds and nanoseconds. -/
theorem moment_newSfTimestamp
    (hround : ∀ k : Int, |k| ≤ 2 ^ 53 → env.round k = some (k : ℚ)) {seconds : Int} {nanos : Nat}
    (hnanos : nanos < 10 ^ 9)
    (hrange : |seconds * 1000 + (nanos / 1000000 : Nat)| ≤ 8640000000000000)
    (timezone : Timezone) (format : Option String) :
    (newSfTimestamp (env.round seconds) (some (nanos : ℚ)) scale timezone format).moment env =
      some (seconds * 1000 + (nanos / 1000000 : Nat)) := by
  have hms : nanos / 1000000 < 1000 := by omega
  have htrunc : trunc ((nanos : ℚ) / 1000000) = (nanos / 1000000 : Nat) := by
    have hfloor := Rat.floor_natCast_div_natCast nanos 1000000
    rw [trunc, if_pos (by positivity)]
    exact_mod_cast hfloor
  rw [abs_le] at hrange
  have hseconds := hround seconds (by rw [abs_le]; omega)
  have hthousand := hround (seconds * 1000) (by rw [abs_le]; omega)
  have hsum := hround (seconds * 1000 + (nanos / 1000000 : Nat)) (by rw [abs_le]; omega)
  push_cast at hthousand hsum
  simp only [SfTimestamp.moment, newSfTimestamp, hseconds, Option.getD_some, htrunc, hthousand,
    Option.bind_some]
  have hclip := timeClip_intCast (abs_le.mpr hrange)
  push_cast at hclip ⊢
  rw [hsum, Option.bind_some, hclip]

/-- No digit stays in the scale where all digits are right. -/
theorem SplitExactly.keepsScale {value : ℚ} {nanos : Nat} {t : SfTimestamp ν}
    (h : SplitExactly env value scale nanos t) (hscale : scale ≤ 9) (ht : t.scale = scale) :
    KeepsScale scale (formatTokens t.format) := by
  have hdigits := h.digits
  rw [SfTimestamp.outputs, h.nanoSeconds, ht] at hdigits
  exact (printsDigits_iff hscale h.nanos_lt _).mp hdigits

end

/-! ## a cell at scale 2 -/

/-- `BigNumber` on decimals. -/
def bigDecimal (text : List Char) : Option ℚ :=
  let whole := text.takeWhile (· ≠ '.')
  let fraction := (text.dropWhile (· ≠ '.')).drop 1
  (bigInteger (whole ++ fraction)).map (· / 10 ^ fraction.length)

def decimalEngine : Engine Int (Json Int) :=
  { variantEngine with bigNumber := fun text => text.bind fun s => bigDecimal s.toList }

theorem reads_decimal : decimalEngine.bigNumber (some "-1.25") = some (((-125 : Int) : ℚ) / 10 ^ 2) :=
  rfl

end Column

end SnowflakeConnector
