import Stencil.Proofs.Text.Cut
import Stencil.Text.Lines

/-!
# The pieces of a text

A text without line feed is one piece, and behind a line feed the pieces begin anew. Only the last
character of a piece can be a line feed.
-/

namespace Stencil.Text

theorem terminatedLines_of_not_mem {l : List Char} (plain : '\n' ∉ l) (some : l ≠ []) :
    terminatedLines l = [l] := by
  induction l with
  | nil => exact absurd rfl some
  | cons c l ih =>
    rw [List.mem_cons, not_or] at plain
    rw [terminatedLines, if_neg (Ne.symm plain.1)]
    cases l with
    | nil => rfl
    | cons d l => rw [ih plain.2 (List.cons_ne_nil d l)]

theorem terminatedLines_append {l : List Char} (plain : '\n' ∉ l) (cs : List Char) :
    terminatedLines (l ++ '\n' :: cs) = (l ++ ['\n']) :: terminatedLines cs := by
  induction l with
  | nil => rfl
  | cons c l ih =>
    rw [List.mem_cons, not_or] at plain
    rw [List.cons_append, terminatedLines, if_neg (Ne.symm plain.1), ih plain.2]
    rfl

theorem terminatedLines_ne_nil {cs : List Char} (some : cs ≠ []) : terminatedLines cs ≠ [] := by
  intro none
  have whole := flatten_terminatedLines cs
  rw [none, List.flatten_nil] at whole
  exact some whole.symm

theorem terminatedLines_append_of_getLast? {a : List Char} (ends : a.getLast? = some '\n')
    (b : List Char) : terminatedLines (a ++ b) = terminatedLines a ++ terminatedLines b := by
  induction a with
  | nil => cases ends
  | cons c a ih =>
    cases a with
    | nil =>
      obtain rfl : c = '\n' := by simpa using ends
      rfl
    | cons d a =>
      rw [List.getLast?_cons_cons] at ends
      obtain ⟨l, ls, pieces⟩ := List.exists_cons_of_ne_nil (terminatedLines_ne_nil (List.cons_ne_nil d a))
      rw [List.cons_append, terminatedLines, terminatedLines, ih ends]
      by_cases feed : c = '\n'
      · rw [if_pos feed, if_pos feed, List.cons_append]
      · rw [if_neg feed, if_neg feed, pieces]
        rfl

theorem lines_append {a : List Char} (ends : a.getLast? = some '\n') (b : List Char) :
    lines (a ++ b) = lines a ++ lines b := by
  rw [lines, terminatedLines_append_of_getLast? ends, List.map_append]
  rfl

theorem not_mem_dropLast_of_mem_terminatedLines {cs l : List Char} (h : l ∈ terminatedLines cs) :
    '\n' ∉ l.dropLast := by
  induction cs generalizing l with
  | nil => simp [terminatedLines] at h
  | cons c cs ih =>
    rw [terminatedLines] at h
    split at h
    · rcases List.mem_cons.1 h with rfl | later
      · simp
      · exact ih later
    · next other =>
      split at h
      · obtain rfl := List.mem_singleton.1 h
        simp
      · next first rest pieces =>
        rcases List.mem_cons.1 h with rfl | later
        · have behind := ih (l := first) (by simp [pieces])
          cases first with
          | nil => simp
          | cons d first =>
            rw [List.dropLast_cons_cons, List.mem_cons, not_or]
            exact ⟨Ne.symm other, behind⟩
        · exact ih (by simp [pieces, later])

/-- A piece begins at the front of its text or behind a line feed. -/
theorem begins_of_terminatedLines_eq {cs : List Char} {before after : List (List Char)} {l : List Char}
    (h : terminatedLines cs = before ++ l :: after) :
    before = [] ∨ before.flatten.getLast? = some '\n' := by
  cases before with
  | nil => exact .inl rfl
  | cons first before =>
    refine .inr ?_
    by_cases feed : '\n' ∈ cs
    · obtain ⟨front, rest, rfl, plain⟩ := List.eq_append_cons_of_mem feed
      rw [terminatedLines_append plain, List.cons_append, List.cons.injEq] at h
      obtain ⟨rfl, pieces⟩ := h
      rcases begins_of_terminatedLines_eq pieces with rfl | last
      · simp
      · rw [List.flatten_cons, List.getLast?_append, last, Option.some_or]
    · cases cs with
      | nil => simp [terminatedLines] at h
      | cons c cs =>
        rw [terminatedLines_of_not_mem feed (List.cons_ne_nil c cs)] at h
        simp at h
  termination_by cs.length
  decreasing_by
    rw [‹cs = _›]
    simp
    omega

end Stencil.Text
