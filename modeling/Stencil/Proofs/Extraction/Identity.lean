import Stencil.Proofs.Extraction.Substitution
import Stencil.Proofs.Script.Reader

/-!
# Extraction and rendering give a text back

The template of an artifact that passes the gate is valid, and rendered for an environment that changes
nothing it is the artifact's content again (`render_extract`), whatever dollars and braces the content
holds.
-/

namespace Stencil.Extraction

section

variable [Libraries]

/-- The contents of the strings of a script follow their quotes, whether there are errors in it or not. -/
def QuotedLiterals (cs : List Char) : Prop :=
  ∀ tree, Libraries.script cs = .ok tree → tree.ContentsFollow cs

/-- Every candidate of a script stands in its text when contents follow their quotes. -/
theorem stands_of_script {cs : List Char} (quoted : QuotedLiterals cs) {c : Candidate}
    (h : c ∈ candidates .script cs) : Stands cs c.start c.value := by
  simp only [candidates, scriptCandidates] at h
  split at h
  · simp at h
  · next tree parsed =>
    obtain ⟨l, literal, found⟩ := List.mem_filterMap.1 h
    obtain ⟨start, value⟩ := eq_of_candidate? found
    obtain ⟨front, quote, behind, whole, mark, place⟩ :=
      Script.exists_quote_of_mem_literalsOf (quoted tree parsed) literal
    have plain : quote ≠ '$' := by rcases mark with rfl | rfl <;> decide
    rw [start, value, place, whole]
    exact .of_append plain

theorem stands_of_mem_candidates {kind : Kind} {cs : List Char}
    (quoted : kind = .script → QuotedLiterals cs) {c : Candidate} (h : c ∈ candidates kind cs) :
    Stands cs c.start c.value := by
  cases kind with
  | script => exact stands_of_script (quoted rfl) h
  | config format => exact stands_of_config h

/-- What an artifact is made into is valid, and rendering it for an environment that changes nothing gives
the artifact's content. -/
theorem render_made {a : Analysis} {artifact : Artifact} (newId : Identifier) (now : Instant)
    {e : Environment} (named : Text.allBlank artifact.stem.toList = false)
    (complexity : inPercent a.complexity = true) (score : inPercent a.score = true)
    (quoted : artifact.kind = .script → QuotedLiterals artifact.content.toList)
    (identity : e.isIdentity = true) :
    (made a artifact newId now).validate = .ok () ∧
      ∃ r, (made a artifact newId now).render e = .ok r ∧ r.content = artifact.content := by
  obtain ⟨names, declared, text, rendered, exchanged⟩ :=
    exchange_made (fun (_ : Unit) _ => ()) (fun _ _ _ => True) a newId now
      (Environment.rules_of_isIdentity identity) ()
      (fun c among => stands_of_mem_candidates quoted among) fun _ _ _ _ _ _ => trivial
  have same := exchanged.eq_of_same fun _ _ puts => Environment.eq_of_puts identity puts
  exact ⟨Template.validate_of named names declared rfl complexity score, _, rendered,
    by rw [same, String.ofList_toList]⟩

/-- An artifact that passes the gate becomes a valid template, and rendering it for an environment that
changes nothing gives the artifact's content. -/
theorem render_extract (p : Policy) (a : Analysis) (artifact : Artifact) (newId : Identifier)
    (now : Instant) (e : Environment) (named : Text.allBlank artifact.stem.toList = false)
    (complexity : inPercent a.complexity = true) (score : inPercent a.score = true)
    (accepted : (p.gate a artifact).accepted = true)
    (quoted : artifact.kind = .script → QuotedLiterals artifact.content.toList)
    (identity : e.isIdentity = true) :
    ∃ t, extract p a artifact newId now = .ok (some t) ∧ t.validate = .ok () ∧
      ∃ r, t.render e = .ok r ∧ r.content = artifact.content := by
  obtain ⟨valid, rendered⟩ := render_made newId now named complexity score quoted identity
  refine ⟨made a artifact newId now, ?_, valid, rendered⟩
  rw [extract_eq, if_pos accepted, valid]
  rfl

end

/-! ### Scripts that are read -/

open Readers

/-- So it is in the scripts that the program reads. -/
theorem quotedLiterals (cs : List Char) : QuotedLiterals cs := by
  rintro _ ⟨⟩ string among form opening others content named found
  cases parsed : Script.tree? cs with
  | some tree =>
    rw [parsed] at among
    exact Script.contentsFollow_of_tree? parsed string among form opening others content named found
  | none =>
    rw [parsed] at among
    simp only [Option.getD_none, Script.Node.preorder, Script.Node.preorderAll, List.mem_singleton] at among
    rw [among] at form
    cases form

/-- A script with a path, and with a text that looks like the placeholder of it. -/
def pathScript : Artifact :=
  { path := ⟨"load.py"⟩, content := "root = \"data/in\"\nmark = \"${root}\"\n", kind := .script }

theorem render_extract_pathScript :
    ∃ t, extract { threshold := 0, checks := 0 } { (default : Analysis) with complexity := 0, score := 100 }
        pathScript default default = .ok (some t) ∧ t.validate = .ok () ∧
      ∃ r, t.render (.identity "prod") = .ok r ∧ r.content = pathScript.content :=
  render_extract _ _ pathScript _ _ _ (by decide +kernel) (by decide +kernel) (by decide +kernel)
    (by decide +kernel) (fun _ => quotedLiterals _) rfl

end Stencil.Extraction
