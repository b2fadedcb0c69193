import Mathlib.Tactic.Ring
import Mathlib.Data.Int.Basic
import Mathlib.Algebra.Order.Ring.Int
import Mathlib.Algebra.Group.Int.Even

/-!
# Integers of 64 bits

Arithmetic wraps around at both ends of the range. A power is computed by multiplying again and again, and is the wrapped
power (`pow_eq_wrap`). What is written in decimal is read back (`atoi_toString`).
-/

namespace Int64Bits

/-- Wrap around. -/
def wrap (n : ℤ) : ℤ := n.bmod (2 ^ 64)

/-- Does a number fit in 64 bits? -/
def Fits (n : ℤ) : Prop := -2 ^ 63 ≤ n ∧ n < 2 ^ 63

instance (n : ℤ) : Decidable (Fits n) := inferInstanceAs (Decidable (_ ∧ _))

/-- `a` multiplied by itself `b` times; 1 if `b` is negative. -/
def pow (a b : ℤ) : ℤ := (fun result => wrap (result * a))^[b.toNat] 1

/-- The number that digits write. -/
def readDigits (cs : List Char) : Option ℕ :=
  if cs ≠ [] ∧ cs.all Char.isDigit then some (Nat.ofDigitChars 10 cs 0) else none

/-- The number that digits with a sign or without one write. -/
def readSigned : List Char → Option ℤ
  | '-' :: cs => (readDigits cs).map fun n : ℕ => -(n : ℤ)
  | '+' :: cs => (readDigits cs).map fun n : ℕ => (n : ℤ)
  | cs => (readDigits cs).map fun n : ℕ => (n : ℤ)

/-- The number that a decimal text writes, if it fits. -/
def atoi (s : String) : Option ℤ := (readSigned s.toList).filter fun n => Fits n

section

variable {n : ℤ}

theorem wrap_eq (h : Fits n) : wrap n = n := by
  obtain ⟨hle, hlt⟩ := h
  apply Int.bmod_eq_of_le
  · omega
  · omega

theorem fits_wrap (n : ℤ) : Fits (wrap n) := by
  have hle := Int.le_bmod (x := n) (m := 2 ^ 64) (by decide)
  have hlt := Int.bmod_lt (x := n) (m := 2 ^ 64) (by decide)
  unfold Fits wrap
  omega

theorem wrap_mul_wrap (m n : ℤ) : wrap (wrap m * n) = wrap (m * n) := Int.bmod_mul_bmod

theorem mul_wrap (m n : ℤ) : wrap (m * wrap n) = wrap (m * n) := Int.mul_bmod_bmod

/-- A multiple of the number of values wraps around to zero. -/
theorem wrap_eq_zero (h : (2 ^ 64 : ℤ) ∣ n) : wrap n = 0 := by
  obtain ⟨k, rfl⟩ := h
  exact Int.bmod_eq_zero_of_dvd (Dvd.intro k rfl)

/-- A power that is computed step by step is the wrapped power. -/
theorem pow_eq_wrap (a : ℤ) (b : ℤ) : pow a b = wrap (a ^ b.toNat) := by
  have key : ∀ k : ℕ, (fun result => wrap (result * a))^[k] 1 = wrap (a ^ k) := by
    intro k
    induction k with
    | zero => rw [pow_zero, wrap_eq (by decide), Function.iterate_zero_apply]
    | succ k ih => rw [Function.iterate_succ_apply', ih, wrap_mul_wrap, pow_succ]
  exact key b.toNat

/-! ### Decimal texts -/

theorem all_isDigit_toDigits (n : ℕ) : (Nat.toDigits 10 n).all Char.isDigit = true := by
  rw [List.all_eq_true]
  intro c hc
  exact Nat.isDigit_of_mem_toDigits (by decide) (by decide) hc

/-- A digit is no sign. -/
theorem ne_sign_of_isDigit {c : Char} (h : c.isDigit = true) : c ≠ '-' ∧ c ≠ '+' := by
  constructor
  · rintro rfl
    exact absurd h (by decide)
  · rintro rfl
    exact absurd h (by decide)

theorem toDigits_ne_nil (n : ℕ) : Nat.toDigits 10 n ≠ [] := by
  apply List.ne_nil_of_length_pos
  exact Nat.length_toDigits_pos

theorem readDigits_toDigits (n : ℕ) : readDigits (Nat.toDigits 10 n) = some n := by
  rw [readDigits, if_pos ⟨toDigits_ne_nil n, all_isDigit_toDigits n⟩, Nat.ofDigitChars_ten_toDigits]

/-- Without a sign in front the digits are the number. -/
theorem readSigned_toDigits (n : ℕ) : readSigned (Nat.toDigits 10 n) = some (n : ℤ) := by
  have hne : ∀ c cs, Nat.toDigits 10 n = c :: cs → c ≠ '-' ∧ c ≠ '+' := by
    intro c cs hcs
    refine ne_sign_of_isDigit (List.all_eq_true.1 (all_isDigit_toDigits n) c ?_)
    rw [hcs]
    exact List.mem_cons_self
  unfold readSigned
  split
  · rename_i cs hcs
    exact absurd rfl (hne _ _ hcs).1
  · rename_i cs hcs
    exact absurd rfl (hne _ _ hcs).2
  · rw [readDigits_toDigits, Option.map_some]

/-- **What is written is read back.** -/
theorem atoi_toString (h : Fits n) : atoi (toString n) = some n := by
  have hread : readSigned (toString n).toList = some n := by
    cases n with
    | ofNat m =>
      have hlist : (toString (Int.ofNat m)).toList = Nat.toDigits 10 m := String.toList_ofList
      rw [hlist, readSigned_toDigits]
      rfl
    | negSucc m =>
      have htext : toString (Int.negSucc m) = "-" ++ String.ofList (Nat.toDigits 10 (m + 1)) := rfl
      have hlist : (toString (Int.negSucc m)).toList = '-' :: Nat.toDigits 10 (m + 1) := by
        rw [htext, String.toList_append, String.toList_ofList]
        simp
      rw [hlist, readSigned, readDigits_toDigits]
      rfl
  rw [atoi, hread, Option.filter_some, if_pos (decide_eq_true h)]

end

end Int64Bits
