import Stencil.Proofs.Grammar.Lines
import Stencil.Proofs.Text.Cut

/-!
# Shapes of a line

What a line looks like as a comment, as a header and as a setting is said without the readers here, as the
parts that it is put together from. Each reader accepts the lines of its shape and gives their parts.
-/

namespace Stencil.Lines

/-! ### Shapes -/

/-- A name in brackets with nothing but blanks around them. -/
def Headed (line name : List Char) : Prop :=
  ∃ before after, line = before ++ '[' :: name ++ ']' :: after ∧ Text.allBlank before = true ∧
    Text.allBlank after = true ∧ name ≠ [] ∧ '[' ∉ name ∧ ']' ∉ name

theorem header?_eq_some_iff {line name : List Char} :
    header? line = some name ↔ ∃ raw, Headed line raw ∧ name = Text.trim raw := by
  constructor
  · intro found
    obtain ⟨before, after, whole, blankBefore, blankAfter⟩ := Text.exists_blanks_trim line
    unfold header? at found
    split at found
    · next rest trimmed =>
      split at found
      · next shape =>
        obtain ⟨closed, some, plain⟩ := shape
        have inner : rest.dropLast ++ [']'] = rest := List.dropLast_append_getLast? _ closed
        refine ⟨rest.dropLast, ⟨before, after, ?_, blankBefore, blankAfter, some, ?_, ?_⟩, ?_⟩
        · rw [trimmed, ← inner] at whole
          simpa using whole
        · exact fun among => by simpa using List.all_eq_true.1 plain _ among
        · exact fun among => by simpa using List.all_eq_true.1 plain _ among
        · exact (Option.some.inj found).symm
      · cases found
    · cases found
  · rintro ⟨raw, ⟨before, after, rfl, blankBefore, blankAfter, some, opening, closing⟩, rfl⟩
    have trimmed : Text.trim (before ++ '[' :: raw ++ ']' :: after) = '[' :: (raw ++ [']']) := by
      have end_ := Text.trim_of_blanks (raw ++ [']']) blankBefore (by decide : Text.isBlank '[' = false)
        blankAfter
      rw [← List.cons_append, Text.trimEnd_of_not_isBlank _ (by decide)] at end_
      simpa using end_
    have plain : raw.all (fun c => c != '[' && c != ']') = true := by
      refine List.all_eq_true.2 fun c among => ?_
      rw [Bool.and_eq_true, bne_iff_ne, bne_iff_ne]
      exact ⟨fun same => opening (same ▸ among), fun same => closing (same ▸ among)⟩
    unfold header?
    rw [trimmed]
    simp [some, plain]

/-! ### Readers of settings -/

def setting? : Style → List Char → Option (List Char × List Char)
  | .settings => spacedSetting?
  | .environment => exportedSetting?

end Stencil.Lines
