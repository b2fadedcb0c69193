import Mathlib.Data.UInt
import Mathlib.Tactic.IntervalCases

/-!
# Base 64

The standard encoding with padding. What is encoded can be read back (`decode_encode`), so different bytes
are encoded differently.
-/

namespace Base64

/-- The digits. -/
def alphabet : List Char := "ABCDEFGHIJKLMNOPQRSTUVWXYZabcdefghijklmnopqrstuvwxyz0123456789+/".toList

/-- The digit of six bits. -/
def digit (n : ℕ) : Char := alphabet.getD n '='

/-- Three bytes at a time are four digits. -/
def encode : List UInt8 → List Char
  | [] => []
  | [a] => [digit (a.toNat / 4), digit (a.toNat % 4 * 16), '=', '=']
  | [a, b] => [digit (a.toNat / 4), digit (a.toNat % 4 * 16 + b.toNat / 16), digit (b.toNat % 16 * 4), '=']
  | a :: b :: c :: bs =>
    digit (a.toNat / 4) :: digit (a.toNat % 4 * 16 + b.toNat / 16) :: digit (b.toNat % 16 * 4 + c.toNat / 64) ::
      digit (c.toNat % 64) :: encode bs

/-- The bits of a digit; the padding has none. -/
def value (c : Char) : ℕ := alphabet.idxOf c

/-- Four digits at a time are three bytes, or fewer if there is padding. -/
def decode : List Char → List UInt8
  | p :: q :: r :: s :: cs =>
    let a := UInt8.ofNat (value p * 4 + value q / 16)
    let b := UInt8.ofNat (value q % 16 * 16 + value r / 4)
    let c := UInt8.ofNat (value r % 4 * 64 + value s)
    if r = '=' then [a] else if s = '=' then [a, b] else a :: b :: c :: decode cs
  | _ => []

theorem value_digit {n : ℕ} (h : n < 64) : value (digit n) = n :=
  (by decide +kernel : ∀ i : Fin 64, value (digit i) = i) ⟨n, h⟩

theorem digit_ne_padding {n : ℕ} (h : n < 64) : digit n ≠ '=' :=
  (by decide +kernel : ∀ i : Fin 64, digit i ≠ '=') ⟨n, h⟩

theorem ofNat_eq {n : ℕ} {a : UInt8} (h : n = a.toNat) : UInt8.ofNat n = a := by
  rw [h, UInt8.ofNat_toNat]

/-- **Round trip**: what is encoded is read back. -/
theorem decode_encode (bs : List UInt8) : decode (encode bs) = bs := by
  induction bs using encode.induct with
  | case1 => rfl
  | case2 a =>
    have ha := a.toNat_lt
    simp only [encode, decode, value_digit (show a.toNat / 4 < 64 by omega), value_digit (show a.toNat % 4 * 16 < 64 by omega),
      if_true, List.cons.injEq, and_true]
    exact ofNat_eq (by omega)
  | case3 a b =>
    have ha := a.toNat_lt
    have hb := b.toNat_lt
    have hr : b.toNat % 16 * 4 < 64 := by omega
    simp only [encode, decode, value_digit (show a.toNat / 4 < 64 by omega),
      value_digit (show a.toNat % 4 * 16 + b.toNat / 16 < 64 by omega), value_digit hr, digit_ne_padding hr, if_false,
      if_true, List.cons.injEq, and_true]
    exact ⟨ofNat_eq (by omega), ofNat_eq (by omega)⟩
  | case4 a b c bs ih =>
    have ha := a.toNat_lt
    have hb := b.toNat_lt
    have hc := c.toNat_lt
    have hr : b.toNat % 16 * 4 + c.toNat / 64 < 64 := by omega
    have hs : c.toNat % 64 < 64 := by omega
    simp only [encode, decode, value_digit (show a.toNat / 4 < 64 by omega),
      value_digit (show a.toNat % 4 * 16 + b.toNat / 16 < 64 by omega), value_digit hr, value_digit hs,
      digit_ne_padding hr, digit_ne_padding hs, if_false, List.cons.injEq, ih, and_true]
    exact ⟨ofNat_eq (by omega), ofNat_eq (by omega), ofNat_eq (by omega)⟩

/-- Different bytes are encoded differently. -/
theorem encode_injective : Function.Injective encode := Function.LeftInverse.injective decode_encode

end Base64
