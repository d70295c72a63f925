import Stencil.Proofs.Path
import Stencil.Proofs.SortedMap
import Stencil.Summary

/-!
# Exact summaries

A summary is exact when every number in it is what it says of the items, the failures are those of the items,
and only rendered items have a template. A tally is exact when each item comes with its own failure.
-/

namespace Stencil

/-! ### Sums over sorted maps -/

namespace SortedMap

variable {κ : Type} [Ord κ] [Std.TransOrd κ] [Std.LawfulEqOrd κ]

def total (m : SortedMap κ Nat) : Nat := m.values.foldr (· + ·) 0

theorem total_insertEntry {l : List (κ × Nat)} (ascending : l.Pairwise fun a b => compare a.1 b.1 = .lt)
    (k : κ) (n : Nat) :
    ((insertEntry k n l).map (·.2)).foldr (· + ·) 0 +
        ((l.find? fun e => compare e.1 k == .eq).map (·.2)).getD 0 =
      (l.map (·.2)).foldr (· + ·) 0 + n := by
  induction l with
  | nil => simp [insertEntry]
  | cons e l ih =>
    obtain ⟨below, rest⟩ := List.pairwise_cons.1 ascending
    rw [insertEntry]
    cases order : compare k e.1 with
    | lt =>
      -- Everything in the list is above the new key.
      have missing : ((e :: l).find? fun e => compare e.1 k == .eq) = none := by
        refine List.find?_eq_none.2 fun d among same => ?_
        have above : compare k d.1 = .lt := by
          rcases List.mem_cons.1 among with rfl | later
          · exact order
          · exact Std.TransCmp.lt_trans order (below d later)
        rw [Std.LawfulEqOrd.eq_of_compare (beq_iff_eq.1 same), Std.ReflOrd.compare_self] at above
        cases above
      rw [missing]
      simp [Nat.add_comm]
    | eq =>
      obtain rfl := Std.LawfulEqOrd.eq_of_compare order
      rw [List.find?_cons_of_pos (by simp)]
      simp [Nat.add_comm, Nat.add_left_comm]
    | gt =>
      have other : compare e.1 k ≠ .eq := by
        rw [Std.OrientedCmp.lt_of_gt order]
        decide
      rw [List.find?_cons_of_neg (by simpa using other)]
      have rest := ih rest
      simp only [List.map_cons, List.foldr_cons]
      omega

theorem total_insert (m : SortedMap κ Nat) (k : κ) (n : Nat) :
    (m.insert k n).total + (m.get? k).getD 0 = m.total + n := total_insertEntry m.ascending k n

end SortedMap

/-! ### Items by category -/

namespace Summary

/-- One more item of a category. -/
def countOne (m : SortedMap String Nat) (i : Item) : SortedMap String Nat :=
  m.insert i.category.name ((m.get? i.category.name).getD 0 + 1)

theorem get?_foldl_countOne (items : List Item) (m : SortedMap String Nat) (name : String) :
    ((items.foldl countOne m).get? name).getD 0 =
      (m.get? name).getD 0 + items.countP (·.category.name == name) := by
  induction items generalizing m with
  | nil => rfl
  | cons i items ih =>
    rw [List.foldl_cons, ih, List.countP_cons, countOne, SortedMap.get?_insert]
    by_cases same : i.category.name = name
    · rw [if_pos same, if_pos (beq_iff_eq.2 same), same, Option.getD_some]
      omega
    · rw [if_neg same, if_neg (mt beq_iff_eq.1 same), Nat.add_zero]

theorem total_foldl_countOne (items : List Item) (m : SortedMap String Nat) :
    (items.foldl countOne m).total = m.total + items.length := by
  induction items generalizing m with
  | nil => rfl
  | cons i items ih =>
    have one := m.total_insert i.category.name ((m.get? i.category.name).getD 0 + 1)
    rw [List.foldl_cons, ih, List.length_cons, countOne]
    omega

theorem get?_categoryCounts (items : List Item) (name : String) :
    ((categoryCounts items).get? name).getD 0 = items.countP (·.category.name == name) :=
  (get?_foldl_countOne items .empty name).trans (Nat.zero_add _)

theorem total_categoryCounts (items : List Item) : (categoryCounts items).total = items.length :=
  (total_foldl_countOne items .empty).trans (Nat.zero_add _)

end Summary

/-! ### Failures of items -/

/-- The failure that is to be reported for an item: where, and of which kind. -/
def Item.failure? (i : Item) : Option (Path × FailureKind) :=
  match i.fate with
  | .failed kind => some (i.path, kind)
  | .invalid => some (i.path, .validationFailed)
  | .validated | .belowGate => none

/-- The numbers, failures and templates of a summary are those of its items. -/
structure Summary.Exact (s : Summary) : Prop where
  total : s.total = s.items.length
  parts : s.total = s.validated + s.invalid + s.skipped + s.failed
  succeeded : s.succeeded = s.validated + s.invalid
  validated : s.validated = s.items.countP (·.fate == .validated)
  invalid : s.invalid = s.items.countP (·.fate == .invalid)
  skipped : s.skipped = s.items.countP (·.fate == .belowGate)
  categories : ∀ name, (s.byCategory.get? name).getD 0 = s.items.countP (·.category.name == name)
  categorized : s.byCategory.total = s.total
  failures : s.failures.map (fun f => (f.path, f.kind)) = s.items.filterMap Item.failure?
  templates : ∀ i ∈ s.items, i.template.isSome = i.fate.isRendered
  clean : s.isClean = true ↔ s.failures = []

namespace Summary

theorem failure?_eq_none_iff (i : Item) :
    i.failure? = none ↔ ¬isFailed i.fate = true ∧ ¬(i.fate == .invalid) = true := by
  cases fate : i.fate <;> simp [Item.failure?, fate, isFailed]

theorem isClean_tally_iff (items : List Item) (failures : List Failure) (duration : Duration) :
    (tally items failures duration).isClean = true ↔ items.filterMap Item.failure? = [] := by
  show (count isFailed items == 0 && count (· == .invalid) items == 0) = true ↔ _
  rw [Bool.and_eq_true, beq_iff_eq, beq_iff_eq, count, count, List.countP_eq_zero, List.countP_eq_zero,
    List.filterMap_eq_nil_iff]
  constructor
  · rintro ⟨fine, valid⟩ i among
    exact (failure?_eq_none_iff i).2 ⟨fine i among, valid i among⟩
  · intro none
    exact ⟨fun i among => ((failure?_eq_none_iff i).1 (none i among)).1,
      fun i among => ((failure?_eq_none_iff i).1 (none i among)).2⟩

theorem exact_tally {items : List Item} {failures : List Failure} (duration : Duration)
    (own : failures.map (fun f => (f.path, f.kind)) = items.filterMap Item.failure?)
    (templates : ∀ i ∈ items, i.template.isSome = i.fate.isRendered) :
    (tally items failures duration).Exact where
  total := rfl
  parts := tally_partition items failures duration
  succeeded := rfl
  validated := rfl
  invalid := rfl
  skipped := rfl
  categories := get?_categoryCounts items
  categorized := total_categoryCounts items
  failures := own
  templates := templates
  clean := by
    rw [isClean_tally_iff, ← own, List.map_eq_nil_iff]
    rfl

/-! ### Summaries in writing -/

theorem mapM_eq_none_iff {α β : Type} {f : α → Option β} {as : List α} :
    as.mapM f = none ↔ ∃ a ∈ as, f a = none := by
  induction as with
  | nil => simp
  | cons a as ih =>
    simp only [List.mapM_cons, List.mem_cons, exists_eq_or_imp, ← ih]
    cases f a <;> cases as.mapM f <;> simp

end Summary

theorem Item.toJson?_eq_none_iff {i : Item} : i.toJson? = none ↔ ¬ i.path.IsText := by
  by_cases spelled : i.path.IsText
  · obtain ⟨j, written⟩ := Path.exists_toJson? spelled
    simp [Item.toJson?, written, spelled]
  · simp [Item.toJson?, Path.toJson?_eq_none spelled, spelled]

theorem Failure.toJson?_eq_none_iff {f : Failure} : f.toJson? = none ↔ ¬ f.path.IsText := by
  by_cases spelled : f.path.IsText
  · obtain ⟨j, written⟩ := Path.exists_toJson? spelled
    simp [Failure.toJson?, written, spelled]
  · simp [Failure.toJson?, Path.toJson?_eq_none spelled, spelled]

/-- An exact summary is written unless it has an item whose path is no text. -/
theorem Summary.Exact.toJson?_eq_none_iff {s : Summary} (h : s.Exact) :
    s.toJson? = none ↔ ∃ i ∈ s.items, ¬ i.path.IsText := by
  have failed : ∀ f ∈ s.failures, ∃ i ∈ s.items, i.path = f.path := by
    intro f among
    have own : (f.path, f.kind) ∈ s.items.filterMap Item.failure? :=
      h.failures ▸ List.mem_map_of_mem among
    obtain ⟨i, held, same⟩ := List.mem_filterMap.1 own
    refine ⟨i, held, ?_⟩
    unfold Item.failure? at same
    split at same <;> simp_all
  have items : s.items.mapM Item.toJson? = none ↔ ∃ i ∈ s.items, ¬ i.path.IsText := by
    simp only [Summary.mapM_eq_none_iff, Item.toJson?_eq_none_iff]
  rw [← items]
  constructor
  · intro lost
    cases failures : s.failures.mapM Failure.toJson? with
    | none =>
      obtain ⟨f, among, unwritten⟩ := Summary.mapM_eq_none_iff.1 failures
      obtain ⟨i, held, same⟩ := failed f among
      exact items.2 ⟨i, held, same ▸ Failure.toJson?_eq_none_iff.1 unwritten⟩
    | some fs =>
      cases written : s.items.mapM Item.toJson? with
      | none => rfl
      | some is => simp [Summary.toJson?, failures, written] at lost
  · intro lost
    unfold Summary.toJson?
    cases s.failures.mapM Failure.toJson? <;> simp [lost]

end Stencil
