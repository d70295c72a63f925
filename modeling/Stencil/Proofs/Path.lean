import Mathlib.Data.List.Nodup
import Stencil.Path

/-!
# Paths and their order

A path has a JSON form iff it is a text. Components are ordered by kind and then by name, and paths step by step.
Paths that the order does not tell apart have the same components, so they are one path in different spellings.
-/

namespace Stencil.Path

open Std

/-! ### Texts -/

def IsText (p : Path) : Prop := ∃ text, p.spelling = .ofString text

theorem exists_toJson? {p : Path} (h : p.IsText) : ∃ j, p.toJson? = some j := by
  obtain ⟨text, spelled⟩ := h
  exact ⟨.str text, congrArg (Option.map Json.str) (OsText.text?_eq_some_iff.2 spelled)⟩

theorem toJson?_eq_none {p : Path} (h : ¬ p.IsText) : p.toJson? = none := by
  refine Option.map_eq_none_iff.2 (Option.eq_none_iff_forall_ne_some.2 fun text known => h ⟨text, ?_⟩)
  exact OsText.text?_eq_some_iff.1 known

theorem isText_iff {p : Path} : p.IsText ↔ p.spelling.text?.isSome = true := by
  rw [Option.isSome_iff_exists]
  exact exists_congr fun text => OsText.text?_eq_some_iff.symm

instance (p : Path) : Decidable p.IsText := decidable_of_iff _ isText_iff.symm

/-! ### Components -/

theorem Component.compare_eq :
    Component.compare = compareLex (compareOn Component.rank) (compareOn Component.spelling) := by
  funext a b
  cases a <;> cases b <;> rfl

instance : TransCmp Component.compare := by
  rw [Component.compare_eq]
  infer_instance

instance : LawfulEqCmp Component.compare where
  compare_self {a} := by
    cases a with
    | name spelling => exact ReflOrd.compare_self
    | _ => rfl
  eq_of_compare {a b} same := by
    cases a <;> cases b <;> first | rfl | cases same | skip
    exact congrArg Component.name (LawfulEqOrd.eq_of_compare same)

/-! ### Paths -/

theorem compareComponents_eq (as bs : List Component) :
    compareComponents as bs = List.compareLex Component.compare as bs := by
  induction as generalizing bs with
  | nil => cases bs <;> rfl
  | cons a as ih =>
    cases bs with
    | nil => rfl
    | cons b bs => rw [compareComponents, List.compareLex_cons_cons, ih]

theorem compare_eq (p q : Path) :
    p.compare q = List.compareLex Component.compare p.components q.components :=
  compareComponents_eq p.components q.components

instance : TransCmp Path.compare where
  eq_swap {p q} := by
    rw [compare_eq, compare_eq]
    exact OrientedCmp.eq_swap
  isLE_trans {p q r} first second := by
    rw [compare_eq] at first second ⊢
    exact TransCmp.isLE_trans first second

theorem components_eq_of_compare {p q : Path} (same : p.compare q = .eq) :
    p.components = q.components := by
  rw [compare_eq] at same
  exact LawfulEqCmp.eq_of_compare same

end Stencil.Path
