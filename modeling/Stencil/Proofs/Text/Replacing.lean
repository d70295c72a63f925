import Mathlib.Data.List.Infix
import Stencil.Text.Search

/-!
# Replacing all occurrences

The occurrences that are replaced are found from left to right, each where no other one begins before it
(`Parts`). `replaceAll_of_parts` says that replacing puts the parts of a text between them together again, with
the new text in place of the old one.
-/

namespace Stencil.Text

variable {old new : List Char}

/-! ### One step of a replacement -/

theorem replaceAfter_eq_replaceAll (old new : List Char) (skip : Nat) (cs : List Char) :
    replaceAfter old new skip cs = replaceAll old new (cs.drop skip) := by
  induction cs generalizing skip with
  | nil => cases skip <;> rfl
  | cons c cs ih =>
    cases skip with
    | zero => rfl
    | succ k =>
      rw [replaceAfter, ih]
      rfl

@[simp] theorem replaceAll_nil (old new : List Char) : replaceAll old new [] = [] := rfl

theorem replaceAll_append (nonempty : old ≠ []) (new cs : List Char) :
    replaceAll old new (old ++ cs) = new ++ replaceAll old new cs := by
  cases old with
  | nil => exact absurd rfl nonempty
  | cons o os =>
    have front : (o :: os).isPrefixOf (o :: (os ++ cs)) = true :=
      List.isPrefixOf_iff_prefix.2 (List.prefix_append (o :: os) cs)
    rw [List.cons_append, replaceAll, replaceAfter, front]
    simp only [List.isEmpty_cons, Bool.not_false, Bool.and_self, if_true]
    rw [replaceAfter_eq_replaceAll, List.length_cons, Nat.add_sub_cancel, List.drop_left]

theorem replaceAll_cons {c : Char} {cs : List Char} (other : ¬old <+: c :: cs) (new : List Char) :
    replaceAll old new (c :: cs) = c :: replaceAll old new cs := by
  have front : old.isPrefixOf (c :: cs) = false :=
    Bool.eq_false_iff.2 fun h => other (List.isPrefixOf_iff_prefix.1 h)
  rw [replaceAll, replaceAfter, front, Bool.and_false]
  rfl

theorem replaceAll_empty (new cs : List Char) : replaceAll [] new cs = cs := by
  induction cs with
  | nil => rfl
  | cons c cs ih => exact congrArg (c :: ·) ih

/-! ### The parts between occurrences -/

theorem contains_cons_eq_false {needle : List Char} {c : Char} {cs : List Char} :
    contains needle (c :: cs) = false ↔ ¬needle <+: c :: cs ∧ contains needle cs = false := by
  rw [contains, Bool.or_eq_false_iff, ← List.isPrefixOf_iff_prefix, Bool.not_eq_true]

theorem contains_eq_false_of_length_lt {needle cs : List Char} (short : cs.length < needle.length) :
    contains needle cs = false := by
  induction cs with
  | nil =>
    cases needle with
    | nil => cases short
    | cons => rfl
  | cons c cs ih =>
    refine contains_cons_eq_false.2 ⟨fun front => ?_, ih (by simp only [List.length_cons] at short; omega)⟩
    have fits := front.length_le
    omega

/-- The parts of a text between the occurrences of `old`, from left to right and without overlap: no occurrence
begins inside of a part. -/
inductive Parts (old : List Char) : List Char → List (List Char) → Prop
  | last {cs : List Char} (none : contains old cs = false) : Parts old cs [cs]
  | cut {front rest : List Char} {parts : List (List Char)}
      (first : contains old (front ++ old.dropLast) = false) (more : Parts old rest parts) :
      Parts old (front ++ old ++ rest) (front :: parts)

/-- An occurrence that begins in front of another one is there without the end of that one. -/
theorem prefix_append_dropLast_iff {c : Char} {front rest : List Char} (nonempty : old ≠ []) :
    old <+: c :: (front ++ old ++ rest) ↔ old <+: c :: (front ++ old.dropLast) := by
  have whole : c :: (front ++ old ++ rest) = (c :: (front ++ old.dropLast)) ++ (old.getLast nonempty :: rest) := by
    have split : old.dropLast ++ (old.getLast nonempty :: rest) = old ++ rest := by
      rw [List.append_cons, List.dropLast_append_getLast]
    rw [List.cons_append, List.append_assoc front old.dropLast, split, List.append_assoc]
  have fits : old.length ≤ (c :: (front ++ old.dropLast)).length := by
    simp only [List.length_cons, List.length_append, List.length_dropLast]
    omega
  rw [whole]
  exact ⟨fun front => List.prefix_of_prefix_length_le front (List.prefix_append _ _) fits,
    fun front => front.trans (List.prefix_append _ _)⟩

theorem exists_parts (nonempty : old ≠ []) (cs : List Char) : ∃ parts, Parts old cs parts := by
  induction length : cs.length using Nat.strongRecOn generalizing cs with
  | ind n ih =>
    subst length
    by_cases front : old <+: cs
    · obtain ⟨rest, rfl⟩ := front
      have shorter : rest.length < (old ++ rest).length := by
        have := List.length_pos_iff.2 nonempty
        rw [List.length_append]
        omega
      obtain ⟨parts, more⟩ := ih rest.length shorter rest rfl
      have none : contains old ([] ++ old.dropLast) = false := by
        refine contains_eq_false_of_length_lt ?_
        have := List.length_pos_iff.2 nonempty
        simp only [List.nil_append, List.length_dropLast]
        omega
      exact ⟨[] :: parts, .cut none more⟩
    cases cs with
    | nil => exact ⟨[[]], .last (contains_eq_false_of_length_lt (List.length_pos_iff.2 nonempty))⟩
    | cons c cs =>
      obtain ⟨parts, behind⟩ := ih cs.length (Nat.lt_succ_self _) cs rfl
      cases behind with
      | last none => exact ⟨[c :: cs], .last (contains_cons_eq_false.2 ⟨front, none⟩)⟩
      | @cut start rest parts first more =>
        have none : contains old (c :: start ++ old.dropLast) = false :=
          contains_cons_eq_false.2 ⟨(prefix_append_dropLast_iff nonempty).not.1 front, first⟩
        exact ⟨(c :: start) :: parts, .cut none more⟩

theorem replaceAll_of_not_contains {cs : List Char} (none : contains old cs = false) (new : List Char) :
    replaceAll old new cs = cs := by
  induction cs with
  | nil => rfl
  | cons c cs ih =>
    obtain ⟨other, behind⟩ := contains_cons_eq_false.1 none
    rw [replaceAll_cons other, ih behind]

/-- Nothing is replaced before the first occurrence. -/
theorem replaceAll_cut (nonempty : old ≠ []) {front : List Char}
    (first : contains old (front ++ old.dropLast) = false) (new rest : List Char) :
    replaceAll old new (front ++ old ++ rest) = front ++ new ++ replaceAll old new rest := by
  induction front with
  | nil => exact replaceAll_append nonempty new rest
  | cons c front ih =>
    obtain ⟨other, behind⟩ := contains_cons_eq_false.1 first
    have here : ¬old <+: c :: (front ++ old ++ rest) := (prefix_append_dropLast_iff nonempty).not.2 other
    show replaceAll old new (c :: (front ++ old ++ rest)) = _
    rw [replaceAll_cons here, ih behind]
    rfl

/-- To replace a text is to put another one between the parts that it leaves. -/
theorem replaceAll_of_parts (nonempty : old ≠ []) {cs : List Char} {parts : List (List Char)}
    (between : Parts old cs parts) (new : List Char) : replaceAll old new cs = new.intercalate parts := by
  induction between with
  | @last cs none =>
    rw [replaceAll_of_not_contains none]
    simp [List.intercalate]
  | @cut front rest parts first more ih =>
    rw [replaceAll_cut nonempty first, ih]
    cases more <;> simp [List.intercalate]

theorem intercalate_parts {cs : List Char} {parts : List (List Char)} (between : Parts old cs parts) :
    old.intercalate parts = cs := by
  induction between with
  | last none => simp [List.intercalate]
  | cut first more ih =>
    rw [← ih]
    cases more <;> simp [List.intercalate]

/-- Every text has parts between the occurrences of a text that is not empty, which both make it and make what
replacing leaves of it. -/
theorem replaceAll_eq_intercalate (nonempty : old ≠ []) (cs : List Char) :
    ∃ parts, Parts old cs parts ∧ old.intercalate parts = cs ∧
      ∀ new, replaceAll old new cs = new.intercalate parts := by
  obtain ⟨parts, between⟩ := exists_parts nonempty cs
  exact ⟨parts, between, intercalate_parts between, replaceAll_of_parts nonempty between⟩

end Stencil.Text
