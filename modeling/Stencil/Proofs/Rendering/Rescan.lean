import Stencil.Proofs.Rendering.Steps

/-!
# The rescan after the rules

The last step of rendering looks for placeholders that rules wrote, but it takes a dollar of a rule for
the beginning of one whatever wrote the name behind it. So a rule without any placeholder can make one
out of a dollar of its own and braces of the source. `render_eq_iff` says exactly which environments keep
clear of that.
-/

namespace Stencil

def Rule.written : Rule → String
  | replace _ new => new
  | prepend text => text
  | append text => text

/-- Whether a rule writes a text that marks no variable. -/
def Rule.IsPlain (r : Rule) : Prop := Placeholder.names r.written.toList = []

def Environment.ruled (e : Environment) (text : List Char) : MarkedText :=
  e.rules.foldl MarkedText.apply (MarkedText.ofText .final text)

namespace MarkedText

/-! ### Dollars of rules -/

theorem mem_replaceAfter {old : List Char} {new d : MarkedText} {skip : Nat} {x : Char × Origin}
    (h : x ∈ replaceAfter old new skip d) : x ∈ new ∨ x ∈ d := by
  induction d generalizing skip with
  | nil => simp [replaceAfter] at h
  | cons y d ih =>
    cases skip with
    | succ k =>
      rw [replaceAfter] at h
      exact (ih h).imp id (List.mem_cons_of_mem y)
    | zero =>
      rw [replaceAfter] at h
      split at h
      · rcases List.mem_append.1 h with written | kept
        · exact .inl written
        · exact (ih kept).imp id (List.mem_cons_of_mem y)
      · rcases List.mem_cons.1 h with rfl | kept
        · exact .inr List.mem_cons_self
        · exact (ih kept).imp id (List.mem_cons_of_mem y)

theorem mem_apply {d : MarkedText} {r : Rule} {x : Char × Origin} (h : x ∈ apply d r) :
    x ∈ ofRule r.written.toList ∨ x ∈ d := by
  cases r with
  | replace old new => exact mem_replaceAfter h
  | prepend text => exact List.mem_append.1 h
  | append text => exact (List.mem_append.1 h).symm

theorem mem_foldl_apply {rules : List Rule} {d : MarkedText} {x : Char × Origin}
    (h : x ∈ rules.foldl apply d) : (∃ r ∈ rules, x ∈ ofRule r.written.toList) ∨ x ∈ d := by
  induction rules generalizing d with
  | nil => exact .inr h
  | cons r rules ih =>
    rw [List.foldl_cons] at h
    rcases ih h with ⟨r', among, written⟩ | kept
    · exact .inl ⟨r', List.mem_cons_of_mem r among, written⟩
    · rcases mem_apply kept with written | kept
      · exact .inl ⟨r, List.mem_cons_self, written⟩
      · exact .inr kept

/-- Rules that write no dollar but in an escape open nothing. -/
theorem not_opens_ruled {e : Environment}
    (plain : ∀ r ∈ e.rules, ('$', Origin.rule) ∉ ofRule r.written.toList) (text name : List Char) :
    ¬ Opens (e.ruled text) name := by
  refine not_opens_of_not_mem (fun among => ?_) name
  rcases mem_foldl_apply among with ⟨r, rule, written⟩ | kept
  · exact plain r rule written
  · exact not_mem_ofText_final text kept

end MarkedText

namespace Template

open MarkedText (Opens)

/-- The first step: the check of the declarations, and the content with values. -/
def filled (t : Template) (e : Environment) : Except Error (List Char) := do
  t.checkDeclared
  t.substitute e (Placeholder.segments t.content.toList)

def unscanned (t : Template) (e : Environment) (text : List Char) : Rendering :=
  ⟨t.id, e.name, t.kind, String.ofList (MarkedText.text (e.ruled text)), []⟩

theorem render_eq_filled (t : Template) (e : Environment) :
    t.render e = t.filled e >>= fun text => t.fillLeftovers (e.ruled text) >>= fun content =>
      .ok ⟨t.id, e.name, t.kind, String.ofList content, []⟩ := by
  unfold render filled
  cases t.checkDeclared with
  | error x => rfl
  | ok _ => rfl

/-- Rendering succeeds exactly when the first step does and every name that is opened after the rules has
a default. -/
theorem render_ok_iff (t : Template) (e : Environment) :
    (∃ r, t.render e = .ok r) ↔
      ∃ text, t.filled e = .ok text ∧ ∀ name, Opens (e.ruled text) name → t.default? name ≠ none := by
  rw [render_eq_filled]
  cases t.filled e with
  | error x =>
    constructor
    · rintro ⟨r, rendered⟩
      cases rendered
    · rintro ⟨text, failed, -⟩
      cases failed
  | ok text =>
    rcases t.fillLeftovers_spec (e.ruled text) with ⟨cs, last, defaults, -⟩ | ⟨name, refused, opened, missing⟩
    · refine ⟨fun _ => ⟨text, rfl, defaults⟩, fun _ => ⟨⟨t.id, e.name, t.kind, String.ofList cs, []⟩, ?_⟩⟩
      show (t.fillLeftovers (e.ruled text) >>= _) = _
      rw [last]
      rfl
    · constructor
      · rintro ⟨r, rendered⟩
        replace rendered : (t.fillLeftovers (e.ruled text) >>= _) = _ := rendered
        rw [refused] at rendered
        cases rendered
      · rintro ⟨text', same, defaults⟩
        obtain rfl := Except.ok.inj same
        exact absurd missing (defaults name opened)

theorem render_of_not_opens {t : Template} {e : Environment}
    (plain : ∀ text name, ¬ Opens (e.ruled text) name) :
    t.render e = (t.filled e).map (t.unscanned e) := by
  rw [render_eq_filled]
  cases t.filled e with
  | error x => rfl
  | ok text =>
    show (t.fillLeftovers (e.ruled text) >>= _) = _
    rw [fillLeftovers_of_not_opens t (plain text)]
    rfl

/-! ### Where the rescan keeps clear of the source -/

/-- A template that is a plain text without variables. -/
def ofSource (text : List Char) : Template :=
  { (default : Template) with content := String.ofList (Placeholder.escape text), schema := .empty }

theorem filled_ofSource (text : List Char) (e : Environment) : (ofSource text).filled e = .ok text := by
  have content : (ofSource text).content.toList = Placeholder.escape text := String.toList_ofList
  have unmarked : Placeholder.marked (Placeholder.segments (ofSource text).content.toList) = [] := by
    rw [content, Placeholder.marked_segments_escape]
  have declared : (ofSource text).checkDeclared = .ok () := by
    refine checkDeclared_of fun name marked => ?_
    rw [unmarked] at marked
    cases marked
  have substituted : (ofSource text).substitute e
      (Placeholder.segments (ofSource text).content.toList) = .ok text := by
    rw [substitute_eq_fill fun _ => [], content, Placeholder.fill_segments_escape]
    intro name marked
    rw [unmarked] at marked
    cases marked
  rw [filled, declared]
  exact substituted

/-- Rendering is exactly the first step and the rules, for every template, when no name is opened in any
text after the rules; and it succeeds exactly when the first step does and the names that are opened
have defaults. -/
theorem render_eq_iff (e : Environment) :
    ((∀ t : Template, t.render e = (t.filled e).map (t.unscanned e)) ↔
      ∀ text name, ¬ Opens (e.ruled text) name) ∧
    ∀ t : Template, (∃ r, t.render e = .ok r) ↔
      ∃ text, t.filled e = .ok text ∧
        ∀ name, Opens (e.ruled text) name → t.default? name ≠ none := by
  refine ⟨⟨fun rendered text name opened => ?_, fun plain t => render_of_not_opens plain⟩,
    fun t => render_ok_iff t e⟩
  have whole := rendered (ofSource text)
  rw [filled_ofSource] at whole
  obtain ⟨text', filled, defaults⟩ := (render_ok_iff (ofSource text) e).1 ⟨_, whole⟩
  rw [filled_ofSource] at filled
  obtain rfl := Except.ok.inj filled
  exact defaults name opened rfl

end Template

/-- An environment with one rule, which marks no variable. -/
def Environment.dollarRule : Environment := { name := "prod", rules := [.replace "US$" "EU$"] }

theorem Environment.segments_dollarRule :
    Placeholder.segments "EU$".toList = [.literal "EU$".toList] := by
  show Placeholder.segments ['E', 'U', '$'] = [.literal ['E', 'U', '$']]
  rw [Placeholder.segments_of_ne_dollar (by decide), Placeholder.segments_of_ne_dollar (by decide),
    Placeholder.segments_dollar (by simp) (by simp), Placeholder.segments]
  rfl

/-- The dollar of the rule opens the braces of the source, so rendering fails although the rule marks no
variable and the first step goes through. -/
theorem Environment.render_dollarRule :
    (∀ r ∈ dollarRule.rules, r.IsPlain) ∧
      (Template.ofSource "K=US${HOME}\n".toList).filled dollarRule = .ok "K=US${HOME}\n".toList ∧
      ∀ r, (Template.ofSource "K=US${HOME}\n".toList).render dollarRule ≠ .ok r := by
  have written : MarkedText.ofRule "EU$".toList = MarkedText.ofText .rule "EU$".toList := by
    rw [MarkedText.ofRule, segments_dollarRule]
    rfl
  have ruled : dollarRule.ruled "K=US${HOME}\n".toList =
      MarkedText.ofText .final "K=".toList ++ MarkedText.ofText .rule "EU".toList ++
        ('$', Origin.rule) :: MarkedText.ofText .final "{HOME}\n".toList := by
    show MarkedText.replaceAfter "US$".toList (MarkedText.ofRule "EU$".toList) 0 _ = _
    rw [written]
    decide +kernel
  refine ⟨fun r among => ?_, Template.filled_ofSource _ _, fun r rendered => ?_⟩
  · obtain rfl := List.mem_singleton.1 among
    rw [Rule.IsPlain, Rule.written, Placeholder.names, segments_dollarRule]
    rfl
  · obtain ⟨text, filled, defaults⟩ := (Template.render_ok_iff _ _).1 ⟨r, rendered⟩
    rw [Template.filled_ofSource] at filled
    obtain rfl := Except.ok.inj filled
    refine defaults "HOME".toList ?_ rfl
    exact ⟨_, _, ['\n'], ruled, by decide +kernel, by decide +kernel⟩

end Stencil
