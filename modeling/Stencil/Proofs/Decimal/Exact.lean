import Mathlib.Algebra.Order.Field.Power
import Mathlib.Tactic.NormNum
import Mathlib.Tactic.Positivity
import Stencil.Proofs.Decimal.Order

/-!
# What doubles stand for

A double that is a finite number stands for a mantissa times a power of two. `exact_of_inPercent` says that a
percentage stands for a number from 0 to 100.
-/

namespace Stencil.Decimal

open Float.Model Float.Model.UnpackedFloat

/-- The number that an unpacked double stands for; what is infinite or no number counts as zero. -/
def exactUnpacked : UnpackedFloat → ℚ
  | .finite .positive m e _ => m * 2 ^ e
  | .finite .negative m e _ => -(m * 2 ^ e)
  | .zero _ | .infinity _ | .notANumber => 0

def exact (x : Float) : ℚ := exactUnpacked x.toModel.unpack

theorem mantissa_lt {b : BitVec 64} {sign : Sign} {m : Nat} {e : Int} {positive : 0 < m}
    (h : UnpackedFloat.unpack Format.binary64 b = .finite sign m e positive) : m < 2 ^ 53 := by
  have fact := unpack_spec b
  rw [h] at fact
  exact fact

theorem unpack_hundred : (100 : Float).toModel.unpack = .finite .positive 7036874417766400 (-46) (by decide) := rfl

/-- A percentage stands for a number from 0 to 100. -/
theorem exact_of_inPercent {x : Float} (h : inPercent x = true) : 0 ≤ exact x ∧ exact x ≤ 100 := by
  rw [inPercent, Bool.and_eq_true, decide_eq_true_iff, decide_eq_true_iff, le_iff, le_iff] at h
  obtain ⟨low, high⟩ := h
  rw [Float.Model.compare, unpack_hundred] at high
  have zero : (0 : Float).toModel.unpack = .zero .positive := rfl
  rw [Float.Model.compare, zero] at low
  unfold exact
  generalize known : x.toModel.unpack = a at low high ⊢
  rcases a with (_ | _) | _ | sign | ⟨_ | _, m, e, positive⟩
  case zero =>
    have value : exactUnpacked (.zero sign) = 0 := rfl
    rw [value]
    norm_num
  case finite.positive =>
    have small : m < 2 ^ 53 := mantissa_lt known
    have order : ((compare e (-46)).then (compare m 7036874417766400)).isLE = true := high
    have value : exactUnpacked (.finite .positive m e positive) = m * 2 ^ e := rfl
    rw [value]
    refine ⟨by positivity, ?_⟩
    rcases lt_trichotomy e (-46) with below | rfl | above
    · -- Below the exponent of 100 even the greatest mantissa gives less.
      calc (m : ℚ) * 2 ^ e ≤ 2 ^ 53 * 2 ^ (-47 : ℤ) := by
            gcongr
            · exact_mod_cast small.le
            · norm_num
            · exact Int.le_sub_one_of_lt below
        _ ≤ 100 := by norm_num
    · have mantissa : m ≤ 7036874417766400 := by
        have same : compare (-46 : ℤ) (-46) = .eq := rfl
        rw [same, Ordering.eq_then] at order
        exact Std.isLE_compare.1 order
      calc (m : ℚ) * 2 ^ (-46 : ℤ) ≤ 7036874417766400 * 2 ^ (-46 : ℤ) := by
            gcongr
            exact_mod_cast mantissa
        _ ≤ 100 := by norm_num
    · have greater : compare e (-46) = .gt := Std.compare_eq_gt.2 above
      rw [greater] at order
      cases order
  case infinity.positive => cases high
  all_goals cases low

end Stencil.Decimal
