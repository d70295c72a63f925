import Stencil.Proofs.Extraction.Identity
import Stencil.Proofs.Inspection

/-!
# Analysis and validation mean the same

What the analysis of an artifact accepts is what validation passes: a template that was extracted from it
and rendered for an environment that changes nothing is refused for being blank only (`analyze_validate`).
-/

namespace Stencil.Extraction

section

variable [Libraries]

/-- For an environment that changes nothing, a template that was extracted is rendered to the text of its
artifact, without leftovers. -/
theorem render_of_extract {p : Policy} {a : Analysis} {artifact : Artifact} {newId : Identifier}
    {now : Instant} {t : Template} (extracted : extract p a artifact newId now = .ok (some t))
    (quoted : artifact.kind = .script → QuotedLiterals artifact.content.toList) {e : Environment}
    (identity : e.isIdentity = true) :
    t.render e = .ok ⟨newId, e.name, artifact.kind, artifact.content, []⟩ := by
  obtain ⟨text, rendered, exchanged⟩ :=
    exchange_of_extract (fun (_ : Unit) _ => ()) (fun _ _ _ => True) extracted
      (Environment.rules_of_isIdentity identity) () (fun c among => stands_of_mem_candidates quoted among)
      fun _ _ _ _ _ _ => trivial
  rw [rendered, exchanged.eq_of_same fun _ _ puts => Environment.eq_of_puts identity puts,
    String.ofList_toList]

/-- An artifact is analyzed exactly when its text has no issues, and else refused with the first of them.
A template that was extracted from it, rendered for an environment that changes nothing, passes validation
exactly when the text is not blank, and else validation finds nothing but that it is. -/
theorem analyze_validate (w : Weights) (artifact : Artifact) :
    ((∃ a, Inspection.analyze w artifact = .ok a) ↔
      artifact.kind.issues artifact.content.toList = []) ∧
    (∀ i rest, artifact.kind.issues artifact.content.toList = i :: rest →
      Inspection.analyze w artifact =
        .error (.malformed artifact.path.text artifact.kind.grammarName i)) ∧
    ∀ p a newId now t e, (artifact.kind = .script → QuotedLiterals artifact.content.toList) →
      Inspection.analyze w artifact = .ok a → extract p a artifact newId now = .ok (some t) →
      e.isIdentity = true →
      ∃ r, t.render e = .ok r ∧
        ((r.validate t.kind).passed = true ↔ Text.allBlank artifact.content.toList = false) ∧
        (Text.allBlank artifact.content.toList = true →
          (r.validate t.kind).diagnostics = [Diagnostic.empty]) := by
  refine ⟨⟨?_, ?_⟩, ?_, ?_⟩
  · rintro ⟨a, analyzed⟩
    exact Inspection.issues_of_analyze analyzed
  · intro clean
    rcases Inspection.analyze_spec w artifact with ⟨a, analyzed, -⟩ | ⟨i, rest, -, found⟩
    · exact ⟨a, analyzed⟩
    · rw [clean] at found
      cases found
  · intro i rest found
    rcases Inspection.analyze_spec w artifact with ⟨a, -, clean⟩ | ⟨i', rest', refused, found'⟩
    · rw [clean] at found
      cases found
    · obtain ⟨rfl, -⟩ := List.cons.inj (found'.symm.trans found)
      exact refused
  · intro p a newId now t e quoted analyzed extracted identity
    refine ⟨_, render_of_extract extracted quoted identity, ?_⟩
    have outcome : Rendering.validate ⟨newId, e.name, artifact.kind, artifact.content, []⟩ t.kind =
        .of (if Text.allBlank artifact.content.toList then [Diagnostic.empty] else []) := by
      rw [eq_made_of_extract extracted]
      exact Kind.validate_of_issues (Inspection.issues_of_analyze analyzed)
    rw [outcome]
    cases Text.allBlank artifact.content.toList <;> simp [Outcome.of]

end

open Readers

/-- A script of blanks, which becomes a template that never passes. -/
def blankScript : Artifact := { path := ⟨"empty.py"⟩, content := "  \n", kind := .script }

theorem analyze_validate_blankScript :
    ∃ a t, Inspection.analyze {} blankScript = .ok a ∧
      extract { threshold := 0, checks := 0 } a blankScript default default = .ok (some t) ∧
      ∃ r, t.render (.identity "prod") = .ok r ∧
        ((r.validate t.kind).passed = true ↔ Text.allBlank blankScript.content.toList = false) ∧
        (Text.allBlank blankScript.content.toList = true →
          (r.validate t.kind).diagnostics = [Diagnostic.empty]) := by
  obtain ⟨a, analyzed, extracted⟩ := exists_extract {} { threshold := 0, checks := 0 } blankScript default
    default (by decide +kernel) (by decide +kernel) fun c among =>
      stands_of_mem_candidates (fun _ => quotedLiterals _) among
  exact ⟨a, _, analyzed, extracted,
    (analyze_validate {} blankScript).2.2 _ _ _ _ _ _ (fun _ => quotedLiterals _) analyzed extracted rfl⟩

end Stencil.Extraction
