import Mathlib.Data.Nat.Digits.Defs
import Stencil.Decimal.Notation

/-!
# Digits and the numbers that they write

A number is read from its decimal digits by one step a digit, `n * 10 + (c.toNat - 48)`; `foldl_digitsOf` says
that the digits of a number are read as the number.
-/

namespace Stencil.Decimal

theorem foldl_digitsOf (n : Nat) : (digitsOf n).foldl (fun n c => n * 10 + (c.toNat - 48)) 0 = n := by
  have read := Nat.ofDigitChars_toDigits (b := 10) (n := n) (by decide) (by decide)
  simp only [Nat.ofDigitChars, Nat.mul_comm 10] at read
  exact read

theorem le_foldl_digits (ds : List Char) (n : Nat) : n ≤ ds.foldl (fun n c => n * 10 + (c.toNat - 48)) n := by
  induction ds generalizing n with
  | nil => exact Nat.le_refl n
  | cons c ds ih =>
    have first : n ≤ n * 10 + (c.toNat - 48) := by omega
    exact first.trans (ih _)

theorem foldl_zeros (k : Nat) :
    (List.replicate k '0').foldl (fun n c => n * 10 + (c.toNat - 48)) 0 = 0 := by
  induction k with
  | zero => rfl
  | succ k ih => exact ih

theorem isDigit_of_mem_digitsOf {n : Nat} {c : Char} (among : c ∈ digitsOf n) : c.isDigit = true :=
  Nat.isDigit_of_mem_toDigits (by decide) (by decide) among

theorem digitsOf_ne_nil (n : Nat) : digitsOf n ≠ [] := Nat.toDigits_ne_nil

theorem exists_digitsOf {n : Nat} (positive : 0 < n) : ∃ c ds, digitsOf n = c :: ds ∧ c ≠ '0' := by
  unfold digitsOf
  induction n using Nat.strongRecOn with
  | ind n ih =>
    by_cases one : n < 10
    · refine ⟨n.digitChar, [], Nat.toDigits_of_lt_base one, ?_⟩
      rw [Ne, Nat.digitChar_eq_zero]
      omega
    · obtain ⟨c, ds, front, other⟩ := ih (n / 10) (by omega) (by omega)
      refine ⟨c, ds ++ [(n % 10).digitChar], ?_, other⟩
      rw [Nat.toDigits_of_base_le (by decide) (by omega), front]
      rfl

end Stencil.Decimal
