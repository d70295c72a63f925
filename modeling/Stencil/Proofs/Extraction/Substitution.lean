import Stencil.Extraction
import Stencil.Inspection
import Stencil.Proofs.Extraction.Parameters
import Stencil.Proofs.Rendering.Steps

/-!
# Rendering what was extracted

The template of an artifact, rendered for an environment without rules, is the artifact's text with values
exchanged where the candidates stand (`exchange_of_extract`). What may be put for a value is the value
itself or what the environment binds a name to.
-/

namespace Stencil

/-- What an environment may put for a value: the value itself, or what a name is bound to. -/
def Environment.Puts (e : Environment) (old put : List Char) : Prop :=
  put = old ∨ ∃ name bound, e.binding? name = some bound ∧ put = bound.toList

namespace Environment

theorem rules_of_isIdentity {e : Environment} (identity : e.isIdentity = true) : e.rules = [] := by
  simp only [isIdentity, Bool.and_eq_true, List.isEmpty_iff] at identity
  exact identity.2

theorem binding?_of_isIdentity {e : Environment} (identity : e.isIdentity = true) (name : String) :
    e.binding? name = none := by
  simp only [isIdentity, Bool.and_eq_true] at identity
  have bindings : e.bindings.entries = [] := List.isEmpty_iff.1 identity.1
  rw [binding?, SortedMap.get?, bindings]
  rfl

theorem eq_of_puts {e : Environment} (identity : e.isIdentity = true) {old put : List Char}
    (puts : e.Puts old put) : put = old := by
  rcases puts with same | ⟨name, bound, found, -⟩
  · exact same
  · rw [binding?_of_isIdentity identity] at found
    cases found

end Environment

namespace Template

theorem validate_of {t : Template} (named : Text.allBlank t.name.toList = false)
    (names : ∀ name ∈ t.schema.keys, Placeholder.isName name.toList = true)
    (declared : t.checkDeclared = .ok ()) (digest : t.digest = .of t.content)
    (complexity : inPercent t.complexity = true) (effectiveness : inPercent t.effectiveness = true) :
    t.validate = .ok () := by
  have none : (t.schema.keys.find? fun n => !Placeholder.isName n.toList) = none := by
    rw [List.find?_eq_none]
    intro name among
    simp [names name among]
  unfold validate
  simp only [named, none, declared, digest, complexity, effectiveness, ne_eq, not_true_eq_false,
    Bool.not_true, Bool.false_eq_true, if_false]
  rfl

theorem render_of_substitute {t : Template} {e : Environment} (rules : e.rules = [])
    (declared : t.checkDeclared = .ok ()) {text : List Char}
    (filled : t.substitute e (Placeholder.segments t.content.toList) = .ok text) :
    t.render e = .ok ⟨t.id, e.name, t.kind, String.ofList text, []⟩ := by
  have last : t.fillLeftovers (MarkedText.ofText .final text) = .ok text := by
    rw [fillLeftovers_of_not_opens t fun name =>
      MarkedText.not_opens_of_not_mem (MarkedText.not_mem_ofText_final text) name,
      MarkedText.text_ofText]
  unfold render
  simp only [declared, filled, rules, List.foldl_nil]
  show (t.fillLeftovers (MarkedText.ofText .final text) >>= _) = _
  rw [last]
  rfl

/-- The value of a name in an environment, when everything declared has a default. -/
def filler (t : Template) (e : Environment) (name : List Char) : List Char :=
  ((e.binding? (String.ofList name)).getD ((t.default? name).getD "")).toList

theorem value_eq_filler {t : Template} (e : Environment) {name : List Char} {type : VariableType}
    {default : String}
    (declared : t.schema.get? (String.ofList name) = some (.optional type default)) :
    t.value e (String.ofList name) = .ok (String.ofList (t.filler e name)) := by
  rw [filler, String.ofList_toList, default?, declared, value]
  cases e.binding? (String.ofList name) with
  | some bound => rfl
  | none =>
    rw [fallback, declared]
    rfl

theorem puts_filler {t : Template} (e : Environment) {name : String} {type : VariableType}
    {default : String} (declared : t.schema.get? name = some (.optional type default)) :
    e.Puts default.toList (t.filler e name.toList) := by
  rw [filler, default?, String.ofList_toList, declared]
  cases found : e.binding? name with
  | some bound => exact .inr ⟨name, bound, found, rfl⟩
  | none => exact .inl rfl

end Template

namespace Extraction

variable [Libraries]

/-- The template of an artifact, before it is checked. -/
def made (a : Analysis) (artifact : Artifact) (newId : Identifier) (now : Instant) : Template :=
  let (content, vs) := parameterize 0 artifact.content.toList {}
    (inOrder (candidates artifact.kind artifact.content.toList))
  { id := newId
    name := artifact.stem
    category := a.category
    kind := artifact.kind
    content := String.ofList content
    digest := .of (String.ofList content)
    schema := vs.schema
    tags := a.tags
    dependencies := a.dependencies
    complexity := a.complexity
    effectiveness := a.score
    usage := 0
    environments := .empty
    path := artifact.path
    createdAt := now
    updatedAt := now
    lastUsed := none }

theorem extract_eq (p : Policy) (a : Analysis) (artifact : Artifact) (newId : Identifier)
    (now : Instant) :
    extract p a artifact newId now =
      if (p.gate a artifact).accepted then
        (made a artifact newId now).validate.map fun _ => some (made a artifact newId now)
      else .ok none := by
  unfold extract
  split
  · show ((made a artifact newId now).validate >>= fun _ => .ok (made a artifact newId now)).map some = _
    cases (made a artifact newId now).validate with
    | error x => rfl
    | ok _ => rfl
  · rfl

theorem eq_made_of_extract {p : Policy} {a : Analysis} {artifact : Artifact} {newId : Identifier}
    {now : Instant} {t : Template} (h : extract p a artifact newId now = .ok (some t)) :
    t = made a artifact newId now := by
  rw [extract_eq] at h
  split at h
  · cases valid : (made a artifact newId now).validate with
    | error x =>
      rw [valid] at h
      cases h
    | ok _ =>
      rw [valid] at h
      exact (Option.some.inj (Except.ok.inj h)).symm
  · cases h

section

variable {σ : Type} (next : σ → Char → σ) (slot : σ → List Char → List Char → Prop)

/-- Where the candidates of an artifact stand at slots, its template declares the variables that it marks
and is rendered to the artifact's text with values exchanged. -/
theorem exchange_made (a : Analysis) {artifact : Artifact} (newId : Identifier) (now : Instant)
    {e : Environment} (rules : e.rules = []) (s : σ)
    (stands : ∀ c ∈ candidates artifact.kind artifact.content.toList,
      Stands artifact.content.toList c.start c.value)
    (slots : ∀ c ∈ candidates artifact.kind artifact.content.toList, ∀ front back,
      artifact.content.toList = front ++ (c.value ++ back) → c.start = Text.byteSize front →
      slot (front.foldl next s) c.value back) :
    (∀ name ∈ (made a artifact newId now).schema.keys, Placeholder.isName name.toList = true) ∧
      (made a artifact newId now).checkDeclared = .ok () ∧
      ∃ text, (made a artifact newId now).render e =
          .ok ⟨newId, e.name, artifact.kind, String.ofList text, []⟩ ∧
        Exchange next slot e.Puts s artifact.content.toList text := by
  let t := made a artifact newId now
  let content := parameterize 0 artifact.content.toList {}
    (inOrder (candidates artifact.kind artifact.content.toList))
  have restores : Restores next slot e.Puts s {} artifact.content.toList content :=
    restores_parameterize s (fun c among => stands c (mem_inOrder.1 among))
      (fun c among => slots c (mem_inOrder.1 among)) (List.nil_append _).symm Variables.sound_empty
  have text : t.content.toList = content.1 := String.toList_ofList
  have declared : t.checkDeclared = .ok () := by
    refine Template.checkDeclared_of fun name marked => ?_
    rw [text] at marked
    obtain ⟨type, default, found⟩ := restores.declared name marked
    show SortedMap.contains content.2.schema (String.ofList name) = true
    rw [SortedMap.contains, found]
    rfl
  have filled : t.substitute e (Placeholder.segments t.content.toList) =
      .ok (Placeholder.fill (t.filler e) (Placeholder.segments t.content.toList)) := by
    refine Template.substitute_eq_fill (t.filler e) fun name marked => ?_
    rw [text] at marked
    obtain ⟨type, default, found⟩ := restores.declared name marked
    exact Template.value_eq_filler e found
  refine ⟨restores.sound.named, declared, _, Template.render_of_substitute rules declared filled, ?_⟩
  rw [text]
  exact restores.filled _ fun name type default found => Template.puts_filler e found

/-- An artifact with a name that passes the gate becomes a template. -/
theorem extract_eq_made {p : Policy} {a : Analysis} {artifact : Artifact} (newId : Identifier)
    (now : Instant) (named : Text.allBlank artifact.stem.toList = false)
    (complexity : inPercent a.complexity = true) (score : inPercent a.score = true)
    (accepted : (p.gate a artifact).accepted = true)
    (stands : ∀ c ∈ candidates artifact.kind artifact.content.toList,
      Stands artifact.content.toList c.start c.value) :
    (made a artifact newId now).validate = .ok () ∧
      extract p a artifact newId now = .ok (some (made a artifact newId now)) := by
  obtain ⟨names, declared, -⟩ := exchange_made (fun (_ : Unit) _ => ()) (fun _ _ _ => True) (e := .identity "") a newId
    now rfl () stands
    fun _ _ _ _ _ _ => trivial
  have valid := Template.validate_of (t := made a artifact newId now) named names declared rfl
    complexity score
  refine ⟨valid, ?_⟩
  rw [extract_eq, if_pos accepted, valid]
  rfl

theorem exists_extract (w : Weights) (p : Policy) (artifact : Artifact) (newId : Identifier)
    (now : Instant) (named : Text.allBlank artifact.stem.toList = false)
    (ready : ((Inspection.analyze w artifact).toOption.any fun a =>
      (p.gate a artifact).accepted && inPercent a.complexity && inPercent a.score) = true)
    (stands : ∀ c ∈ candidates artifact.kind artifact.content.toList,
      Stands artifact.content.toList c.start c.value) :
    ∃ a, Inspection.analyze w artifact = .ok a ∧
      extract p a artifact newId now = .ok (some (made a artifact newId now)) := by
  cases known : Inspection.analyze w artifact with
  | error x =>
    rw [known] at ready
    cases ready
  | ok a =>
    rw [known] at ready
    have facts : ((p.gate a artifact).accepted && inPercent a.complexity && inPercent a.score) = true :=
      ready
    simp only [Bool.and_eq_true] at facts
    exact ⟨a, rfl, (extract_eq_made newId now named facts.1.2 facts.2 facts.1.1 stands).2⟩

theorem exchange_of_extract {p : Policy} {a : Analysis} {artifact : Artifact} {newId : Identifier}
    {now : Instant} {t : Template} (extracted : extract p a artifact newId now = .ok (some t))
    {e : Environment} (rules : e.rules = []) (s : σ)
    (stands : ∀ c ∈ candidates artifact.kind artifact.content.toList,
      Stands artifact.content.toList c.start c.value)
    (slots : ∀ c ∈ candidates artifact.kind artifact.content.toList, ∀ front back,
      artifact.content.toList = front ++ (c.value ++ back) → c.start = Text.byteSize front →
      slot (front.foldl next s) c.value back) :
    ∃ text, t.render e = .ok ⟨newId, e.name, artifact.kind, String.ofList text, []⟩ ∧
      Exchange next slot e.Puts s artifact.content.toList text := by
  rw [eq_made_of_extract extracted]
  exact (exchange_made next slot a newId now rules s stands slots).2.2

end

end Extraction

end Stencil
