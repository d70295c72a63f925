import Mathlib.Algebra.Order.BigOperators.Group.List
import Mathlib.Tactic.Linarith
import Stencil.Proofs.Batch.History

/-!
# The means of renderings

The score of a template is made of the scores of its renderings, one after the other. The arithmetic is written
down for any numbers: with doubles it is that of the catalogs, and with rational numbers it gives the mean of the
scores and of the effectiveness at the start (`Medium.runsExactly`).
-/

namespace Stencil

section

variable {α : Type} [OfNat α 0] [OfNat α 100]

def worth (passed : Bool) : α := if passed then 100 else 0

def bounded [LT α] [DecidableLT α] (score : α) : α :=
  if score < 0 then 0 else if 100 < score then 100 else score

/-- A score as a catalog holds it: in tables zero has no sign. -/
def Medium.hold [BEq α] (medium : Medium) (score : α) : α :=
  match medium with
  | .memory => score
  | .relational => if score == 0 then 0 else score

variable [OfNat α 1] [Add α] [Mul α] [Div α]

/-- A score and the count of its renderings, after one rendering more. -/
def rate (hold : α → α) (number : UInt64 → α) (rating : α × UInt64) (passed : Bool) : α × UInt64 :=
  let count := rating.2 + 1
  (hold (blend rating.1 (number count) (worth passed)), count)

/-- The rating of a template after renderings, from the score that it is stored with. -/
def Medium.rating [BEq α] [LT α] [DecidableLT α] (medium : Medium) (number : UInt64 → α) (first : α)
    (passes : List Bool) : α × UInt64 :=
  passes.foldl (rate (fun score => medium.hold (bounded score)) number) (medium.hold first, 0)

end

/-! ### Exact numbers -/

/-- The number that a word stands for. -/
def exactCount (count : UInt64) : ℚ := count.toNat

theorem bounded_eq {score : ℚ} (low : 0 ≤ score) (high : score ≤ 100) : bounded score = score := by
  rw [bounded, if_neg low.not_gt, if_neg high.not_gt]

theorem Medium.hold_eq (medium : Medium) (score : ℚ) : medium.hold score = score := by
  cases medium with
  | memory => rfl
  | relational =>
    show (if score == 0 then 0 else score) = score
    split
    · next zero => exact (beq_iff_eq.1 zero).symm
    · rfl

/-- The mean of the scores of renderings and of one number more. -/
def meanWith (first : ℚ) (passes : List Bool) : ℚ := (first + (passes.map worth).sum) / (passes.length + 1)

theorem meanWith_append (first : ℚ) (passes : List Bool) (passed : Bool) :
    meanWith first (passes ++ [passed]) =
      blend (meanWith first passes) (passes.length + 1 : ℚ) (worth passed) := by
  unfold meanWith blend
  have positive : (passes.length : ℚ) + 1 ≠ 0 := by positivity
  rw [List.map_append, List.sum_append, List.length_append, div_mul_cancel₀ _ positive]
  push_cast
  simp only [List.map_singleton, List.sum_singleton, List.length_singleton, Nat.cast_one, add_assoc]

theorem worth_mem (passed : Bool) : 0 ≤ (worth passed : ℚ) ∧ (worth passed : ℚ) ≤ 100 := by
  cases passed <;> norm_num [worth]

theorem meanWith_mem {first : ℚ} (low : 0 ≤ first) (high : first ≤ 100) (passes : List Bool) :
    0 ≤ meanWith first passes ∧ meanWith first passes ≤ 100 := by
  have sum : 0 ≤ (passes.map (worth : Bool → ℚ)).sum ∧
      (passes.map (worth : Bool → ℚ)).sum ≤ 100 * passes.length := by
    induction passes with
    | nil => simp
    | cons passed passes ih =>
      obtain ⟨least, most⟩ := worth_mem passed
      rw [List.map_cons, List.sum_cons, List.length_cons]
      push_cast
      constructor <;> linarith
  unfold meanWith
  constructor
  · exact div_nonneg (add_nonneg low sum.1) (by positivity)
  · rw [div_le_iff₀ (by positivity)]
    linarith [sum.2]

/-- The sum of the scores depends on how many of the renderings passed. -/
theorem sum_worth (passes : List Bool) : (passes.map (worth : Bool → ℚ)).sum = 100 * passes.count true := by
  induction passes with
  | nil => simp
  | cons passed passes ih =>
    rw [List.map_cons, List.sum_cons, ih, List.count_cons]
    cases passed <;> simp [worth, mul_add, add_comm]

/-- In exact numbers the score is the mean, in whatever form scores are held that leaves percentages alone. -/
theorem exact_rates {hold : ℚ → ℚ} (holds : ∀ score, 0 ≤ score → score ≤ 100 → hold score = score) {first : ℚ}
    (low : 0 ≤ first) (high : first ≤ 100) {passes : List Bool} (short : passes.length < 2 ^ 64) :
    passes.foldl (rate hold exactCount) (first, 0) = (meanWith first passes, .ofNat passes.length) := by
  induction passes using List.reverseRecOn with
  | nil =>
    have none : meanWith first [] = first := by norm_num [meanWith]
    rw [none]
    rfl
  | append_singleton passes passed ih =>
    rw [List.length_append, List.length_singleton] at short
    have before := ih (by omega)
    have count : exactCount (.ofNat passes.length + 1) = passes.length + 1 := by
      rw [exactCount, ← UInt64.ofNat_one, ← UInt64.ofNat_add, UInt64.toNat_ofNat_of_lt' short]
      push_cast
      rfl
    obtain ⟨least, most⟩ := meanWith_mem low high (passes ++ [passed])
    rw [List.foldl_append, before]
    show (hold (blend (meanWith first passes) (exactCount (.ofNat passes.length + 1)) (worth passed)),
      UInt64.ofNat passes.length + 1) = _
    rw [count, ← meanWith_append, holds _ least most, List.length_append, UInt64.ofNat_add]
    rfl

/-- What is said of a score in exact numbers, after all its renderings and after the first ones of them. -/
structure Medium.RunsExactly (medium : Medium) (first : ℚ) (passes : List Bool) : Prop where
  score : (medium.rating exactCount first passes).1 = (first + (passes.map worth).sum) / (passes.length + 1)
  /-- Only how many passed matters, not which. -/
  unordered : ∀ passes' : List Bool, passes'.length = passes.length → passes'.count true = passes.count true →
    medium.rating exactCount first passes' = medium.rating exactCount first passes
  percentage : ∀ k, 0 ≤ (medium.rating exactCount first (passes.take k)).1 ∧
    (medium.rating exactCount first (passes.take k)).1 ≤ 100
  /-- Without bounds there would be the same score at any time. -/
  unbounded : ∀ k, medium.rating exactCount first (passes.take k) =
    (passes.take k).foldl (rate id exactCount) (first, 0)

theorem Medium.runsExactly (medium : Medium) {first : ℚ} (low : 0 ≤ first) (high : first ≤ 100)
    {passes : List Bool} (short : passes.length < 2 ^ 64) : medium.RunsExactly first passes := by
  have rating : ∀ {passes : List Bool}, passes.length < 2 ^ 64 →
      medium.rating exactCount first passes = (meanWith first passes, .ofNat passes.length) := by
    intro passes short
    unfold Medium.rating
    rw [hold_eq]
    exact exact_rates (fun score least most => by rw [bounded_eq least most, hold_eq]) low high short
  have shorter : ∀ k, (passes.take k).length < 2 ^ 64 := fun k => (List.length_take_le' k passes).trans_lt short
  refine ⟨?_, fun passes' length count => ?_, fun k => ?_, fun k => ?_⟩
  · rw [rating short]
    rfl
  · rw [rating short, rating (length ▸ short), meanWith, meanWith, sum_worth, sum_worth, count, length]
  · rw [rating (shorter k)]
    exact meanWith_mem low high _
  · have held : ∀ score : ℚ, 0 ≤ score → score ≤ 100 → id score = score := fun _ _ _ => rfl
    rw [rating (shorter k), exact_rates held low high (shorter k)]

end Stencil
