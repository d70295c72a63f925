import Stencil.Proofs.Extraction.Identity

/-!
# Valid templates

A template that is not refused keeps to every rule, and keeps to them with another score when that is a
percentage. No rule is about the use of a template or its times.
-/

namespace Stencil.Template

structure Valid (t : Template) : Prop where
  named : Text.allBlank t.name.toList = false
  names : ∀ name ∈ t.schema.keys, Placeholder.isName name.toList = true
  declared : t.checkDeclared = .ok ()
  digest : t.digest = .of t.content
  complexity : inPercent t.complexity = true
  effectiveness : inPercent t.effectiveness = true

theorem valid_of_validate {t : Template} (h : t.validate = .ok ()) : t.Valid := by
  unfold validate at h
  have named : Text.allBlank t.name.toList = false := by
    by_contra blank
    rw [Bool.not_eq_false] at blank
    simp only [blank, if_true] at h
    cases h
  simp only [named, Bool.false_eq_true, if_false] at h
  have names : (t.schema.keys.find? fun n => !Placeholder.isName n.toList) = none := by
    cases wrong : t.schema.keys.find? fun n => !Placeholder.isName n.toList with
    | none => rfl
    | some name =>
      simp only [wrong] at h
      cases h
  simp only [names] at h
  have declared : t.checkDeclared = .ok () := by
    cases checked : t.checkDeclared with
    | ok _ => rfl
    | error e =>
      rw [checked] at h
      cases h
  rw [declared] at h
  have digest : t.digest = .of t.content := by
    by_contra stale
    rw [if_pos stale] at h
    cases h
  rw [if_neg (not_not.2 digest)] at h
  have complexity : inPercent t.complexity = true := by
    by_contra outside
    rw [if_pos (by simpa using outside)] at h
    cases h
  rw [if_neg (by simp [complexity])] at h
  have effectiveness : inPercent t.effectiveness = true := by
    by_contra outside
    rw [if_pos (by simpa using outside)] at h
    cases h
  refine ⟨named, fun name among => ?_, declared, digest, complexity, effectiveness⟩
  simpa using List.find?_eq_none.1 names name among

theorem validate_eq_ok_iff {t : Template} : t.validate = .ok () ↔ t.Valid :=
  ⟨valid_of_validate, fun h =>
    validate_of h.named h.names h.declared h.digest h.complexity h.effectiveness⟩

theorem validate_rescored {t : Template} (valid : t.validate = .ok ()) {score : Float}
    (inside : inPercent score = true) (now : Instant) :
    { t with effectiveness := score, updatedAt := now }.validate = .ok () := by
  have keeps := valid_of_validate valid
  exact validate_eq_ok_iff.2 { keeps with effectiveness := inside }

/-- A template of an empty text that was never used. -/
def blank (id : Identifier) (name : String) : Template where
  id := id
  name := name
  category := .generalPurpose
  kind := .script
  content := ""
  digest := .of ""
  schema := .empty
  tags := []
  dependencies := []
  complexity := 0
  effectiveness := 0
  usage := 0
  environments := .empty
  path := ⟨""⟩
  createdAt := default
  updatedAt := default
  lastUsed := none

theorem validate_blank (id : Identifier) {name : String}
    (named : Text.allBlank name.toList = false) : (blank id name).validate = .ok () := by
  have zero : inPercent 0 = true := by decide
  refine validate_of named (fun name among => ?_) ?_ rfl zero zero
  · cases among
  · refine checkDeclared_of fun used marked => ?_
    rw [show (blank id name).content.toList = [] from rfl, Placeholder.segments] at marked
    cases marked

end Stencil.Template
