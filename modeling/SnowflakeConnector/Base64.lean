import Mathlib

/-!
# SnowflakeConnector.Base64

Base64 texts of bytes, with padding.

* `length_encode` -- the length of a text is that of its bytes, in threes.
* `decode_encode` -- a text is read back as the bytes that it was made of.
-/

namespace SnowflakeConnector

namespace Base64

def alphabet : List Char :=
  "ABCDEFGHIJKLMNOPQRSTUVWXYZabcdefghijklmnopqrstuvwxyz0123456789+/".toList

/-- The character of six bits. -/
def digit (n : Nat) : Char := alphabet.getD n '='

/-- Three bytes are four characters; what is missing at the end is padded. -/
def encode : List UInt8 → List Char
  | a :: b :: c :: rest =>
      digit (a.toNat / 4) :: digit (a.toNat % 4 * 16 + b.toNat / 16) ::
        digit (b.toNat % 16 * 4 + c.toNat / 64) :: digit (c.toNat % 64) :: encode rest
  | [a, b] =>
      [digit (a.toNat / 4), digit (a.toNat % 4 * 16 + b.toNat / 16), digit (b.toNat % 16 * 4), '=']
  | [a] => [digit (a.toNat / 4), digit (a.toNat % 4 * 16), '=', '=']
  | [] => []

theorem length_encode (bytes : List UInt8) :
    (encode bytes).length = 4 * ((bytes.length + 2) / 3) := by
  induction bytes using encode.induct with
  | case1 a b c rest ih =>
      simp only [encode, List.length_cons, ih]
      omega
  | case2 | case3 | case4 => simp [encode]

/-! ## reading a text -/

/-- The six bits of a character, of either of the two alphabets. -/
def value (c : Char) : Option Nat :=
  match c with
  | '-' => some 62
  | '_' => some 63
  | c => alphabet.idxOf? c

/-- Four characters are three bytes; what two or three characters do not fill is dropped. -/
def ofDigits : List Nat → List UInt8
  | a :: b :: c :: d :: rest =>
      UInt8.ofNat (a * 4 + b / 16) :: UInt8.ofNat (b % 16 * 16 + c / 4) ::
        UInt8.ofNat (c % 4 * 64 + d) :: ofDigits rest
  | [a, b, c] => [UInt8.ofNat (a * 4 + b / 16), UInt8.ofNat (b % 16 * 16 + c / 4)]
  | [a, b] => [UInt8.ofNat (a * 4 + b / 16)]
  | [_] | [] => []

/-- `Buffer.from(text, 'base64')`: characters of no alphabet are passed over. -/
def decode (cs : List Char) : List UInt8 := ofDigits (cs.filterMap value)

theorem value_digit {n : Nat} (h : n < 64) : value (digit n) = some n := by
  have hall : ∀ n : Fin 64, value (digit n) = some n.val := by decide +kernel
  exact hall ⟨n, h⟩

theorem value_padding : value '=' = none := by decide

theorem decode_encode (bytes : List UInt8) : decode (encode bytes) = bytes := by
  induction bytes using encode.induct with
  | case1 a b c rest ih =>
      have ha := a.toNat_lt
      have hb := b.toNat_lt
      have hc := c.toNat_lt
      have h₁ : a.toNat / 4 * 4 + (a.toNat % 4 * 16 + b.toNat / 16) / 16 = a.toNat := by omega
      have h₂ : (a.toNat % 4 * 16 + b.toNat / 16) % 16 * 16 + (b.toNat % 16 * 4 + c.toNat / 64) / 4 =
          b.toNat := by omega
      have h₃ : (b.toNat % 16 * 4 + c.toNat / 64) % 4 * 64 + c.toNat % 64 = c.toNat := by omega
      rw [decode] at ih
      rw [decode, encode, List.filterMap_cons_some (value_digit (by omega)),
        List.filterMap_cons_some (value_digit (by omega)),
        List.filterMap_cons_some (value_digit (by omega)),
        List.filterMap_cons_some (value_digit (by omega)), ofDigits, h₁, h₂, h₃, ih]
      simp
  | case2 a b =>
      have ha := a.toNat_lt
      have hb := b.toNat_lt
      have h₁ : a.toNat / 4 * 4 + (a.toNat % 4 * 16 + b.toNat / 16) / 16 = a.toNat := by omega
      have h₂ : (a.toNat % 4 * 16 + b.toNat / 16) % 16 * 16 + b.toNat % 16 * 4 / 4 = b.toNat := by
        omega
      rw [decode, encode, List.filterMap_cons_some (value_digit (by omega)),
        List.filterMap_cons_some (value_digit (by omega)),
        List.filterMap_cons_some (value_digit (by omega)), List.filterMap_cons_none value_padding,
        List.filterMap_nil, ofDigits, h₁, h₂]
      simp
  | case3 a =>
      have ha := a.toNat_lt
      have h₁ : a.toNat / 4 * 4 + a.toNat % 4 * 16 / 16 = a.toNat := by omega
      rw [decode, encode, List.filterMap_cons_some (value_digit (by omega)),
        List.filterMap_cons_some (value_digit (by omega)), List.filterMap_cons_none value_padding,
        List.filterMap_cons_none value_padding, List.filterMap_nil, ofDigits, h₁]
      simp
  | case4 => rfl

/-- Different bytes have different texts. -/
theorem encode_injective : Function.Injective encode :=
  Function.LeftInverse.injective decode_encode

end Base64

end SnowflakeConnector
