import Mathlib.Data.Rat.Defs
import Mathlib.Data.Rat.Cast.Order
import Mathlib.Algebra.Order.Field.Rat
import Mathlib.Tactic.FieldSimp
import Mathlib.Tactic.Ring

/-!
# Decimal numbers

A decimal number is an integer with the number of its digits after the point. Its text denotes it (`denotes_toList`).
-/

/-- A decimal number. -/
structure Dec where
  unscaled : ℤ
  scale : ℤ
  deriving DecidableEq

namespace Dec

/-- The number. -/
def value (d : Dec) : ℚ := d.unscaled * (10 : ℚ) ^ (-d.scale)

/-- The text: the digits, with zeros or with the point where the scale says. -/
def toList (d : Dec) : List Char :=
  let sign := if d.unscaled < 0 then ['-'] else []
  let digits := Nat.toDigits 10 d.unscaled.natAbs
  if d.scale ≤ 0 then sign ++ digits ++ (if d.unscaled = 0 then [] else List.replicate (-d.scale).toNat '0')
  else
    let scale := d.scale.toNat
    if digits.length ≤ scale then sign ++ ['0', '.'] ++ List.replicate (scale - digits.length) '0' ++ digits
    else sign ++ digits.take (digits.length - scale) ++ ['.'] ++ digits.drop (digits.length - scale)

/-- The text as a string. -/
def toString (d : Dec) : String := String.ofList d.toList

/-- A decimal text: a sign, digits, and digits after a point. -/
def text (negative : Bool) (whole fraction : List Char) : List Char :=
  (if negative then ['-'] else []) ++ whole ++ if fraction = [] then [] else '.' :: fraction

/-- The number of a decimal text. -/
def number (negative : Bool) (whole fraction : List Char) : ℚ :=
  (if negative then -1 else 1) * (Nat.ofDigitChars 10 (whole ++ fraction) 0 : ℚ) / 10 ^ fraction.length

/-- Does the text denote the number? -/
def Denotes (t : List Char) (q : ℚ) : Prop :=
  ∃ negative whole fraction, t = text negative whole fraction ∧ whole ≠ [] ∧ (∀ c ∈ whole ++ fraction, c.isDigit = true) ∧
    q = number negative whole fraction

section

variable {d : Dec}

/-- An integer is its sign and its absolute value. -/
theorem unscaled_eq (n : ℤ) : (n : ℚ) = (if decide (n < 0) then -1 else 1) * (n.natAbs : ℚ) := by
  rw [Nat.cast_natAbs]
  by_cases hn : n < 0
  · simp [hn, abs_of_neg hn]
  · simp [hn, abs_of_nonneg (not_lt.1 hn)]

theorem isDigit_of_mem {n : ℕ} : ∀ c ∈ Nat.toDigits 10 n, c.isDigit = true :=
  fun _ hc => Nat.isDigit_of_mem_toDigits (by decide) (by decide) hc

theorem isDigit_of_mem_replicate {k : ℕ} : ∀ c ∈ List.replicate k '0', c.isDigit = true := by
  intro c hc
  rw [List.eq_of_mem_replicate hc]
  rfl

/-- Without digits after the point. -/
theorem denotes_of_scale_nonpos (h : d.scale ≤ 0) : Denotes d.toList d.value := by
  refine ⟨decide (d.unscaled < 0), Nat.toDigits 10 d.unscaled.natAbs ++
    (if d.unscaled = 0 then [] else List.replicate (-d.scale).toNat '0'), [], ?_, ?_, ?_, ?_⟩
  · simp [toList, text, h]
  · simp
  · intro c hc
    rw [List.append_nil, List.mem_append] at hc
    rcases hc with hc | hc
    · exact isDigit_of_mem c hc
    · split at hc
      · exact absurd hc List.not_mem_nil
      · exact isDigit_of_mem_replicate c hc
  · have hdigits : Nat.ofDigitChars 10 (Nat.toDigits 10 d.unscaled.natAbs ++
        (if d.unscaled = 0 then [] else List.replicate (-d.scale).toNat '0')) 0 = 10 ^ (-d.scale).toNat * d.unscaled.natAbs := by
      rw [Nat.ofDigitChars_append, Nat.ofDigitChars_ten_toDigits]
      by_cases hzero : d.unscaled = 0
      · simp [hzero]
      · rw [if_neg hzero, Nat.ofDigitChars_replicate_zero]
    have hpow : (10 : ℚ) ^ (-d.scale) = 10 ^ (-d.scale).toNat := by
      rw [← zpow_natCast, Int.toNat_of_nonneg (by omega)]
    rw [value, number, List.append_nil, hdigits, hpow, unscaled_eq d.unscaled, List.length_nil, pow_zero, div_one]
    push_cast
    ring

/-- As many digits after the point as the scale says. -/
theorem value_eq_number {whole fraction : List Char} (hscale : 0 < d.scale) (hlength : fraction.length = d.scale.toNat)
    (hdigits : Nat.ofDigitChars 10 (whole ++ fraction) 0 = d.unscaled.natAbs) :
    d.value = number (decide (d.unscaled < 0)) whole fraction := by
  have hpow : (10 : ℚ) ^ (-d.scale) = (10 ^ d.scale.toNat)⁻¹ := by
    rw [zpow_neg, ← zpow_natCast, Int.toNat_of_nonneg (by omega)]
  rw [value, number, hdigits, hlength, hpow, unscaled_eq d.unscaled, div_eq_mul_inv]

/-- All digits after the point. -/
theorem denotes_of_length_le (h : 0 < d.scale) (hlength : (Nat.toDigits 10 d.unscaled.natAbs).length ≤ d.scale.toNat) :
    Denotes d.toList d.value := by
  have hpos : 0 < (Nat.toDigits 10 d.unscaled.natAbs).length := Nat.length_toDigits_pos
  have hne : List.replicate (d.scale.toNat - (Nat.toDigits 10 d.unscaled.natAbs).length) '0' ++
      Nat.toDigits 10 d.unscaled.natAbs ≠ [] := by simp
  refine ⟨decide (d.unscaled < 0), ['0'], List.replicate (d.scale.toNat - (Nat.toDigits 10 d.unscaled.natAbs).length) '0' ++
    Nat.toDigits 10 d.unscaled.natAbs, ?_, by simp, ?_, ?_⟩
  · rw [toList, if_neg (by omega), if_pos hlength, text, if_neg hne]
    simp
  · intro c hc
    rw [List.singleton_append, List.mem_cons, List.mem_append] at hc
    rcases hc with rfl | hc | hc
    · rfl
    · exact isDigit_of_mem_replicate c hc
    · exact isDigit_of_mem c hc
  · refine value_eq_number h ?_ ?_
    · rw [List.length_append, List.length_replicate]
      omega
    · rw [List.singleton_append, ← List.cons_append, ← List.replicate_succ, Nat.ofDigitChars_append, Nat.ofDigitChars_replicate_zero,
        Nat.mul_zero, Nat.ofDigitChars_ten_toDigits]

/-- Digits before and after the point. -/
theorem denotes_of_lt_length (h : 0 < d.scale) (hlength : d.scale.toNat < (Nat.toDigits 10 d.unscaled.natAbs).length) :
    Denotes d.toList d.value := by
  have hsplit := List.take_append_drop ((Nat.toDigits 10 d.unscaled.natAbs).length - d.scale.toNat) (Nat.toDigits 10 d.unscaled.natAbs)
  have hdrop : ((Nat.toDigits 10 d.unscaled.natAbs).drop ((Nat.toDigits 10 d.unscaled.natAbs).length - d.scale.toNat)).length =
      d.scale.toNat := by
    rw [List.length_drop]
    omega
  refine ⟨decide (d.unscaled < 0), (Nat.toDigits 10 d.unscaled.natAbs).take ((Nat.toDigits 10 d.unscaled.natAbs).length - d.scale.toNat),
    (Nat.toDigits 10 d.unscaled.natAbs).drop ((Nat.toDigits 10 d.unscaled.natAbs).length - d.scale.toNat), ?_, ?_, ?_, ?_⟩
  · have hne : (Nat.toDigits 10 d.unscaled.natAbs).drop ((Nat.toDigits 10 d.unscaled.natAbs).length - d.scale.toNat) ≠ [] := by
      rw [← List.length_pos_iff]
      omega
    rw [toList, if_neg (by omega), if_neg (by omega), text, if_neg hne]
    simp
  · rw [← List.length_pos_iff, List.length_take]
    omega
  · rw [hsplit]
    exact isDigit_of_mem
  · refine value_eq_number h hdrop ?_
    rw [hsplit, Nat.ofDigitChars_ten_toDigits]

/-- **The text of a decimal number denotes it.** -/
theorem denotes_toList (d : Dec) : Denotes d.toList d.value := by
  by_cases hscale : d.scale ≤ 0
  · exact denotes_of_scale_nonpos hscale
  · by_cases hlength : (Nat.toDigits 10 d.unscaled.natAbs).length ≤ d.scale.toNat
    · exact denotes_of_length_le (by omega) hlength
    · exact denotes_of_lt_length (by omega) (by omega)

/-- Such a text is made of digits, a sign and a point. -/
theorem notMem_toList {c : Char} (hdigit : c.isDigit = false) (hsign : c ≠ '-') (hpoint : c ≠ '.') (d : Dec) : c ∉ d.toList := by
  obtain ⟨negative, whole, fraction, ht, -, hdigits, -⟩ := denotes_toList d
  have hnot : c ∉ whole ++ fraction := fun hc => absurd (hdigits c hc) (by simp [hdigit])
  rw [List.mem_append, not_or] at hnot
  rw [ht, text, List.mem_append, List.mem_append, not_or, not_or]
  refine ⟨⟨?_, hnot.1⟩, ?_⟩
  · split
    · simpa using hsign
    · simp
  · split
    · simp
    · rw [List.mem_cons, not_or]
      exact ⟨hpoint, hnot.2⟩

end

end Dec
