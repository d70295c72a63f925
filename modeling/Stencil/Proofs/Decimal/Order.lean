import Mathlib.Algebra.Group.Nat.Defs
import Stencil.Catalog.Call
import Stencil.Extraction.Policy

/-!
# The order of doubles

Doubles that are numbers are ordered totally, up to the sign of zero. `inPercent_clamp` says that a clamped
score is a percentage, and `eq_or_eq_of_beq_zero` that zero only comes with two signs.
-/

namespace Stencil.Decimal

open Float.Model Float.Model.UnpackedFloat

/-! ### Comparison -/

theorem lt_iff {x y : Float} : x < y ↔ x.toModel.compare y.toModel = some .lt :=
  (decide_eq_true_iff (p := x.toModel < y.toModel)).trans beq_iff_eq

theorem le_iff {x y : Float} :
    x ≤ y ↔ (x.toModel.compare y.toModel).any (·.isLE) = true :=
  decide_eq_true_iff (p := x.toModel ≤ y.toModel)

theorem beq_iff {x y : Float} : (x == y) = true ↔ x.toModel.compare y.toModel = some .eq := by
  show (x.toModel.compare y.toModel == some .eq) = true ↔ _
  exact beq_iff_eq

theorem compare_swap (a b : UnpackedFloat) : b.compare a = (a.compare b).map Ordering.swap := by
  unfold UnpackedFloat.compare
  -- Only two finite numbers of one sign are compared by their exponents and mantissas.
  rcases a with (_ | _) | _ | _ | ⟨_ | _, m, e, _⟩ <;>
    rcases b with (_ | _) | _ | _ | ⟨_ | _, m', e', _⟩ <;> try rfl
  all_goals
    show some _ = some _
    rw [Std.OrientedOrd.eq_swap (a := e'), Std.OrientedOrd.eq_swap (a := m')]
    simp only [Ordering.swap_then, Ordering.swap_swap]

theorem exists_compare {a b : UnpackedFloat} (first : a.isNaN = false) (second : b.isNaN = false) :
    ∃ order, a.compare b = some order := by
  rcases a with (_ | _) | _ | _ | ⟨_ | _, m, e, _⟩
  case notANumber => cases first
  all_goals
    rcases b with (_ | _) | _ | _ | ⟨_ | _, m', e', _⟩
    case notANumber => cases second
    all_goals exact ⟨_, rfl⟩

theorem le_of_not_lt {x y : Float} (first : x.isNaN = false) (second : y.isNaN = false)
    (h : ¬x < y) : y ≤ x := by
  obtain ⟨order, compared⟩ := exists_compare (a := x.toModel.unpack) (b := y.toModel.unpack) first second
  have swapped : y.toModel.compare x.toModel = some order.swap := by
    rw [Float.Model.compare, compare_swap, compared, Option.map_some]
  rw [lt_iff, Float.Model.compare, compared] at h
  rw [le_iff, swapped]
  cases order
  · exact absurd rfl h
  · rfl
  · rfl

/-! ### Zero -/

theorem eq_of_toBits {x y : Float} (h : x.toBits = y.toBits) : x = y := by
  obtain ⟨⟨bits, _⟩⟩ := x
  obtain ⟨⟨bits', _⟩⟩ := y
  obtain rfl : bits = bits' := h
  rfl

theorem eq_zero_of_compare {a : UnpackedFloat} (h : a.compare (.zero .positive) = some .eq) :
    ∃ sign, a = .zero sign := by
  rcases a with (_ | _) | _ | sign | ⟨_ | _, m, e, _⟩
  case zero => exact ⟨sign, rfl⟩
  all_goals cases h

/-- A zero has no bits but that of its sign, and the mantissa of a finite number has 53 bits. -/
theorem unpack_spec (b : BitVec 64) :
    match UnpackedFloat.unpack Format.binary64 b with
    | .zero _ => @unpackExponent Format.binary64 b = 0#11 ∧ @unpackMantissa Format.binary64 b = 0#52
    | .finite _ m _ _ => m < 2 ^ 53
    | _ => True := by
  unfold UnpackedFloat.unpack
  dsimp only
  by_cases special : @unpackExponent Format.binary64 b = -1#11
  · rw [if_pos special]
    by_cases infinite : @unpackMantissa Format.binary64 b = 0#52
    · rw [if_pos infinite]
      trivial
    · rw [if_neg infinite]
      trivial
  rw [if_neg special]
  by_cases exponent : @unpackExponent Format.binary64 b = 0#11
  · rw [if_pos exponent]
    by_cases mantissa : @unpackMantissa Format.binary64 b = 0#52
    · rw [dif_pos mantissa]
      exact ⟨exponent, mantissa⟩
    · rw [dif_neg mantissa]
      exact Nat.lt_trans (BitVec.isLt _) (by decide)
  · rw [if_neg exponent]
    exact BitVec.isLt _

theorem bits_of_unpack {b : BitVec 64} {sign : Sign}
    (h : UnpackedFloat.unpack Format.binary64 b = .zero sign) : b.toNat % 2 ^ 63 = 0 := by
  have fact := unpack_spec b
  rw [h] at fact
  obtain ⟨exponent, mantissa⟩ := fact
  have high : b.toNat >>> 52 % 2 ^ 11 = 0 := by
    simpa [unpackExponent] using congrArg BitVec.toNat exponent
  have low : b.toNat % 2 ^ 52 = 0 := by
    simpa [unpackMantissa] using congrArg BitVec.toNat mantissa
  omega

/-- What equals zero is zero or negative zero. -/
theorem eq_or_eq_of_beq_zero {x : Float} (h : (x == 0) = true) : x = 0 ∨ x = -0 := by
  obtain ⟨sign, zero⟩ := eq_zero_of_compare (beq_iff.1 h)
  have small : x.toBits.toBitVec.toNat < 2 ^ 64 := x.toBits.toBitVec.isLt
  have bits : x.toBits.toBitVec.toNat % 2 ^ 63 = 0 := bits_of_unpack zero
  rcases (by omega : x.toBits.toBitVec.toNat = 0 ∨ x.toBits.toBitVec.toNat = 2 ^ 63) with low | high
  · exact .inl (eq_of_toBits (UInt64.toNat_inj.1 low))
  · exact .inr (eq_of_toBits (UInt64.toNat_inj.1 high))

end Stencil.Decimal

namespace Stencil.Catalog

theorem inPercent_clamp {score : Float} (number : score.isNaN = false) :
    inPercent (clamp score) = true := by
  unfold clamp
  split
  · decide
  split
  · decide
  · next below above =>
    rw [inPercent, Bool.and_eq_true, decide_eq_true_iff, decide_eq_true_iff]
    exact ⟨Decimal.le_of_not_lt number rfl below, Decimal.le_of_not_lt rfl number above⟩

end Stencil.Catalog
