import Stencil.Inspection
import Stencil.Validation

/-!
# Analysis and grammar

An artifact has an analysis exactly when its text has no issues, and else it is refused with the first of
them (`analyze_spec`): the profile and the issues of a text are made of the same reading.
-/

namespace Stencil

theorem Lines.issues_ne_nil {style : Lines.Style} {cs : List Char} {issues : List Issue}
    (h : Lines.parse style cs = .error issues) : issues ≠ [] := by
  unfold Lines.parse at h
  dsimp only at h
  split at h
  · cases h
  · next some => exact Except.error.inj h ▸ some

theorem Yaml.issues_ne_nil {out : Array Entry} {sections depth : Nat} {values : List (Except Report Value)}
    {issues : List Issue} (h : documentOf out sections depth values = .error issues) : issues ≠ [] := by
  induction values generalizing out sections depth with
  | nil => cases h
  | cons v rest ih =>
    cases v with
    | error r => exact Except.error.inj h ▸ List.cons_ne_nil _ _
    | ok v => exact ih h

variable [Libraries]

theorem Format.issues_ne_nil {f : Format} {cs : List Char} {issues : List Issue}
    (h : f.document cs = .error issues) : issues ≠ [] := by
  cases f with
  | ini => exact Lines.issues_ne_nil h
  | env => exact Lines.issues_ne_nil h
  | json =>
    unfold Format.document Json.document at h
    dsimp only at h
    split at h
    · cases h
    · exact Except.error.inj h ▸ List.cons_ne_nil _ _
  | yaml =>
    unfold Format.document Yaml.document at h
    dsimp only at h
    cases read : Yaml.documentOf #[] 0 0 (Libraries.yaml cs) with
    | ok d =>
      rw [read] at h
      cases h
    | error found =>
      rw [read] at h
      exact Except.error.inj h ▸ Yaml.issues_ne_nil read
  | toml =>
    unfold Format.document Toml.document at h
    dsimp only at h
    split at h
    · cases h
    · exact Except.error.inj h ▸ List.cons_ne_nil _ _

namespace Inspection

/-- The profile and the issues of a script exclude each other. -/
theorem profileOfScript_spec (cs : List Char) :
    (∃ p, profileOfScript cs = .ok p ∧ Kind.script.issues cs = []) ∨
      ∃ i rest, profileOfScript cs = .error i ∧ Kind.script.issues cs = i :: rest := by
  unfold profileOfScript Kind.issues
  cases Libraries.script cs with
  | error issue => exact .inr ⟨issue, [], rfl, rfl⟩
  | ok tree =>
    dsimp only [bind, Except.bind]
    cases found : tree.issues cs with
    | nil => exact .inl ⟨_, rfl, rfl⟩
    | cons i rest => exact .inr ⟨i, rest, rfl, rfl⟩

theorem profileOfConfiguration_spec (f : Format) (cs : List Char) :
    (∃ p, profileOfConfiguration f cs = .ok p ∧ (Kind.config f).issues cs = []) ∨
      ∃ i rest, profileOfConfiguration f cs = .error i ∧ (Kind.config f).issues cs = i :: rest := by
  unfold profileOfConfiguration Kind.issues
  dsimp only
  cases read : f.document cs with
  | ok d => exact .inl ⟨_, rfl, rfl⟩
  | error issues =>
    obtain ⟨i, rest, rfl⟩ := List.exists_cons_of_ne_nil (Format.issues_ne_nil read)
    exact .inr ⟨i, rest, rfl, rfl⟩

/-- An artifact whose text has no issues is analyzed; another one is refused with its first issue. -/
theorem analyze_spec (w : Weights) (a : Artifact) :
    (∃ x, analyze w a = .ok x ∧ a.kind.issues a.content.toList = []) ∨
      ∃ i rest, analyze w a = .error (.malformed a.path.text a.kind.grammarName i) ∧
        a.kind.issues a.content.toList = i :: rest := by
  have spec : (∃ p, profile a = .ok p ∧ a.kind.issues a.content.toList = []) ∨
      ∃ i rest, profile a = .error i ∧ a.kind.issues a.content.toList = i :: rest := by
    unfold profile
    cases a.kind with
    | script => exact profileOfScript_spec _
    | config f => exact profileOfConfiguration_spec f _
  rcases spec with ⟨p, profiled, none⟩ | ⟨i, rest, profiled, some⟩
  · exact .inl ⟨assess w a p, by rw [analyze, profiled], none⟩
  · exact .inr ⟨i, rest, by rw [analyze, profiled], some⟩

theorem issues_of_analyze {w : Weights} {a : Artifact} {x : Analysis} (h : analyze w a = .ok x) :
    a.kind.issues a.content.toList = [] := by
  rcases analyze_spec w a with ⟨_, -, none⟩ | ⟨_, _, refused, -⟩
  · exact none
  · rw [refused] at h
    cases h

end Inspection

theorem Format.document_of_issues {f : Format} {cs : List Char}
    (h : (Kind.config f).issues cs = []) : ∃ d, f.document cs = .ok d := by
  unfold Kind.issues at h
  dsimp only at h
  split at h
  · next d read => exact ⟨d, read⟩
  · next issues read => exact absurd h (Format.issues_ne_nil read)

theorem Format.issues_of_document {f : Format} {cs : List Char} {d : Document}
    (h : f.document cs = .ok d) : (Kind.config f).issues cs = [] := by
  simp [Kind.issues, h]

theorem Kind.validate_of_issues {k : Kind} {content : String} (clean : k.issues content.toList = []) :
    k.validate content [] =
      .of (if Text.allBlank content.toList then [Diagnostic.empty] else []) := by
  unfold validate
  dsimp only
  rw [clean, List.map_nil, List.map_nil, List.append_nil, List.append_nil]

end Stencil
