import Stencil.Proofs.Placeholder.Segments
import Stencil.Rendering

/-!
# The steps of rendering

The first step fills the segments of a template with values. The last step acts exactly where a rule
wrote a dollar and the text goes on with a name in braces, whoever wrote that (`Opens`); it fails exactly
when a name that is opened so has no default.
-/

namespace Stencil.MarkedText

/-- A rule wrote a dollar, and the text behind it goes on with a name in braces. -/
def Opens (d : MarkedText) (name : List Char) : Prop :=
  ∃ before rest after, d = before ++ ('$', Origin.rule) :: rest ∧
    text rest = '{' :: (name ++ '}' :: after) ∧ Placeholder.isName name = true

theorem text_cons (x : Char × Origin) (d : MarkedText) : text (x :: d) = x.1 :: text d := rfl

theorem text_drop (n : Nat) (d : MarkedText) : text (d.drop n) = (text d).drop n := List.map_drop

theorem not_opens_nil (name : List Char) : ¬ Opens [] name := by
  rintro ⟨before, rest, after, whole, -, -⟩
  simp at whole

theorem opens_cons {c : Char} {origin : Origin} {d : MarkedText} {name : List Char} :
    Opens ((c, origin) :: d) name ↔
      (c = '$' ∧ origin = .rule ∧ ∃ after, text d = '{' :: (name ++ '}' :: after) ∧
        Placeholder.isName name = true) ∨ Opens d name := by
  constructor
  · rintro ⟨before, rest, after, whole, opener, valid⟩
    cases before with
    | nil =>
      simp only [List.nil_append, List.cons.injEq, Prod.mk.injEq] at whole
      obtain ⟨⟨rfl, rfl⟩, rfl⟩ := whole
      exact .inl ⟨rfl, rfl, after, opener, valid⟩
    | cons x before =>
      simp only [List.cons_append, List.cons.injEq] at whole
      exact .inr ⟨before, rest, after, whole.2, opener, valid⟩
  · rintro (⟨rfl, rfl, after, opener, valid⟩ | ⟨before, rest, after, rfl, opener, valid⟩)
    · exact ⟨[], d, after, rfl, opener, valid⟩
    · exact ⟨(c, origin) :: before, rest, after, rfl, opener, valid⟩

theorem opens_append {front : MarkedText} (plain : ∀ x ∈ front, x.1 ≠ '$') (d : MarkedText)
    (name : List Char) : Opens (front ++ d) name ↔ Opens d name := by
  induction front with
  | nil => rfl
  | cons x front ih =>
    obtain ⟨c, origin⟩ := x
    have other := plain (c, origin) List.mem_cons_self
    rw [List.cons_append, opens_cons, ih fun y h => plain y (List.mem_cons_of_mem _ h)]
    constructor
    · rintro (⟨dollar, -⟩ | behind)
      · exact absurd dollar other
      · exact behind
    · exact .inr

theorem not_opens_of_not_mem {d : MarkedText} (h : ('$', Origin.rule) ∉ d) (name : List Char) :
    ¬ Opens d name := by
  rintro ⟨before, rest, after, rfl, -, -⟩
  simp at h

theorem not_mem_ofText_final (cs : List Char) : ('$', Origin.rule) ∉ ofText .final cs := by
  intro h
  obtain ⟨c, -, same⟩ := List.mem_map.1 h
  simp at same

theorem ne_dollar_of_isName {name : List Char} (valid : Placeholder.isName name = true) :
    ∀ c ∈ name, c ≠ '$' := by
  have dollar : Placeholder.isNameChar '$' = false := by decide
  cases name with
  | nil => simp
  | cons d more =>
    simp only [Placeholder.isName, Bool.and_eq_true, List.all_eq_true] at valid
    rintro c among rfl
    rcases List.mem_cons.1 among with rfl | among
    · simp [Placeholder.isNameChar_of_isNameStart valid.1] at dollar
    · simp [valid.2 _ among] at dollar

/-- A placeholder at the front opens its name when a rule wrote the dollar; the next ones come behind
its closing brace. -/
theorem opens_token {rest : MarkedText} {name after : List Char} (origin origin' : Origin)
    (closed : Placeholder.closed? (text rest) = some (name, after)) (name' : List Char) :
    Opens (('$', origin) :: ('{', origin') :: rest) name' ↔
      (origin = .rule ∧ name' = name) ∨ Opens (rest.drop (name.length + 1)) name' := by
  obtain ⟨whole, valid⟩ := Placeholder.eq_append_of_closed? closed
  have front : ∀ x ∈ rest.take (name.length + 1), x.1 ≠ '$' := by
    intro x among
    have char : x.1 ∈ (text rest).take (name.length + 1) := by
      rw [text, ← List.map_take]
      exact List.mem_map_of_mem among
    rw [whole, List.take_append, List.take_of_length_le (by omega)] at char
    rcases List.mem_append.1 char with char | char
    · exact ne_dollar_of_isName valid _ char
    · have brace : x.1 = '}' := by simpa using char
      rw [brace]
      decide
  have behind : Opens (('{', origin') :: rest) name' ↔ Opens (rest.drop (name.length + 1)) name' := by
    have plain : ∀ x ∈ ('{', origin') :: rest.take (name.length + 1), x.1 ≠ '$' := by
      intro x among
      rcases List.mem_cons.1 among with rfl | among
      · simp
      · exact front x among
    have skipped := opens_append plain (rest.drop (name.length + 1)) name'
    rwa [List.cons_append, List.take_append_drop] at skipped
  rw [opens_cons, behind]
  refine or_congr ?_ Iff.rfl
  constructor
  · rintro ⟨-, rule, after', opener, valid'⟩
    simp only [text_cons, List.cons.injEq, true_and] at opener
    have same := (opener ▸ closed).symm.trans (Placeholder.closed?_mark valid' after')
    simp only [Option.some.injEq, Prod.mk.injEq] at same
    exact ⟨rule, same.1.symm⟩
  · rintro ⟨rule, rfl⟩
    exact ⟨rfl, rule, after, by rw [text_cons, whole], valid⟩

theorem opens_not_token {c d : Char} {rest : MarkedText} (origin origin' : Origin)
    (plain : (if c = '$' ∧ d = '{' then Placeholder.closed? (text rest) else none) = none)
    (name : List Char) : Opens ((c, origin) :: (d, origin') :: rest) name ↔ Opens ((d, origin') :: rest) name := by
  rw [opens_cons]
  constructor
  · rintro (⟨rfl, -, after, opener, valid⟩ | behind)
    · simp only [text_cons, List.cons.injEq] at opener
      obtain ⟨rfl, opener⟩ := opener
      rw [if_pos ⟨rfl, rfl⟩, opener, Placeholder.closed?_mark valid] at plain
      simp at plain
    · exact behind
  · exact .inr

end Stencil.MarkedText

namespace Stencil.Template

open MarkedText (Opens)

/-! ### The first step -/

theorem checkDeclared_of {t : Template}
    (declared : ∀ name ∈ Placeholder.marked (Placeholder.segments t.content.toList),
      t.schema.contains (String.ofList name) = true) : t.checkDeclared = .ok () := by
  have none : undeclared? t.content t.schema = none := by
    rw [undeclared?, List.find?_eq_none]
    intro name among
    obtain ⟨name, marked, rfl⟩ := List.mem_map.1 among
    simp [declared name (Placeholder.mem_names.1 marked)]
  rw [checkDeclared, none]

theorem substitute_eq_fill {t : Template} {e : Environment} {segs : List Placeholder.Segment}
    (value : List Char → List Char)
    (values : ∀ name ∈ Placeholder.marked segs,
      t.value e (String.ofList name) = .ok (String.ofList (value name))) :
    t.substitute e segs = .ok (Placeholder.fill value segs) := by
  induction segs with
  | nil => rfl
  | cons s segs ih =>
    cases s with
    | literal text =>
      rw [substitute, ih values]
      rfl
    | escape =>
      rw [substitute, ih values]
      rfl
    | placeholder name =>
      rw [Placeholder.marked_placeholder] at values
      have first := values name List.mem_cons_self
      rw [substitute, first, ih fun name' among => values name' (List.mem_cons_of_mem _ among)]
      show Except.ok ((String.ofList (value name)).toList ++ Placeholder.fill value segs) = _
      rw [String.toList_ofList, Placeholder.fill_placeholder]

/-! ### The last step -/

def default? (t : Template) (name : List Char) : Option String :=
  (t.schema.get? (String.ofList name)).bind (·.default)

theorem token_of_closed? {c d : Char} {rest : MarkedText} {name after : List Char}
    (token : (if c = '$' ∧ d = '{' then Placeholder.closed? (MarkedText.text rest) else none) =
      some (name, after)) :
    c = '$' ∧ d = '{' ∧ Placeholder.closed? (MarkedText.text rest) = some (name, after) := by
  split at token
  · next opener => exact ⟨opener.1, opener.2, token⟩
  · simp at token

theorem text_token {rest : MarkedText} {name after : List Char} (origin origin' : Origin)
    (closed : Placeholder.closed? (MarkedText.text rest) = some (name, after)) :
    MarkedText.text (('$', origin) :: ('{', origin') :: rest) =
      Placeholder.mark name ++ MarkedText.text (rest.drop (name.length + 1)) := by
  obtain ⟨whole, -⟩ := Placeholder.eq_append_of_closed? closed
  have behind : MarkedText.text (rest.drop (name.length + 1)) = after := by
    rw [MarkedText.text_drop, whole, ← List.drop_drop]
    simp
  rw [behind, MarkedText.text_cons, MarkedText.text_cons, whole]
  simp [Placeholder.mark]

/-- The last step goes through when every name that a rule opens has a default, and changes nothing
when no name is opened; else it refuses a name that is opened and has no default. -/
theorem fillLeftovers_spec (t : Template) (d : MarkedText) :
    (∃ cs, t.fillLeftovers d = .ok cs ∧ (∀ name, Opens d name → t.default? name ≠ none) ∧
      ((∀ name, ¬ Opens d name) → cs = MarkedText.text d)) ∨
    ∃ name, t.fillLeftovers d = .error (.unresolved (String.ofList name)) ∧ Opens d name ∧
      t.default? name = none := by
  fun_induction t.fillLeftovers d with
  | case1 => exact .inl ⟨[], rfl, fun name opened => absurd opened (MarkedText.not_opens_nil name),
      fun _ => rfl⟩
  | case2 c origin =>
    refine .inl ⟨[c], rfl, fun name opened => ?_, fun _ => rfl⟩
    rcases MarkedText.opens_cons.1 opened with ⟨-, -, after, opener, -⟩ | opened
    · simp [MarkedText.text] at opener
    · exact absurd opened (MarkedText.not_opens_nil name)
  | case3 c d origin' rest name after token ih =>
    obtain ⟨rfl, rfl, closed⟩ := token_of_closed? token
    have opens := MarkedText.opens_token .final origin' closed
    rcases ih with ⟨cs, filled, defaults, same⟩ | ⟨name', refused, opened, missing⟩
    · refine .inl ⟨Placeholder.mark name ++ cs, by rw [filled]; rfl, fun name' opened => ?_,
        fun plain => ?_⟩
      · rcases (opens name').1 opened with ⟨final, -⟩ | behind
        · simp at final
        · exact defaults name' behind
      · rw [text_token _ _ closed, same fun name' behind => plain name' ((opens name').2 (.inr behind))]
    · exact .inr ⟨name', by rw [refused]; rfl, (opens name').2 (.inr opened), missing⟩
  | case4 c d origin' rest name after token default found ih =>
    obtain ⟨rfl, rfl, closed⟩ := token_of_closed? token
    have opens := MarkedText.opens_token .rule origin' closed
    rcases ih with ⟨cs, filled, defaults, -⟩ | ⟨name', refused, opened, missing⟩
    · refine .inl ⟨default.toList ++ cs, by rw [filled]; rfl, fun name' opened => ?_,
        fun plain => absurd ((opens name).2 (.inl ⟨rfl, rfl⟩)) (plain name)⟩
      rcases (opens name').1 opened with ⟨-, rfl⟩ | behind
      · simp [default?, found]
      · exact defaults name' behind
    · exact .inr ⟨name', by rw [refused]; rfl, (opens name').2 (.inr opened), missing⟩
  | case5 c d origin' rest name after token missing =>
    obtain ⟨rfl, rfl, closed⟩ := token_of_closed? token
    exact .inr ⟨name, rfl, (MarkedText.opens_token .rule origin' closed name).2 (.inl ⟨rfl, rfl⟩), missing⟩
  | case6 c origin d origin' rest plain ih =>
    have opens := MarkedText.opens_not_token origin origin' plain
    rcases ih with ⟨cs, filled, defaults, same⟩ | ⟨name, refused, opened, missing⟩
    · refine .inl ⟨c :: cs, by rw [filled]; rfl, fun name opened => defaults name ((opens name).1 opened),
        fun none => ?_⟩
      rw [same fun name behind => none name ((opens name).2 behind)]
      rfl
    · exact .inr ⟨name, by rw [refused]; rfl, (opens name).2 opened, missing⟩

theorem fillLeftovers_of_not_opens (t : Template) {d : MarkedText}
    (plain : ∀ name, ¬ Opens d name) : t.fillLeftovers d = .ok (MarkedText.text d) := by
  rcases t.fillLeftovers_spec d with ⟨cs, filled, -, same⟩ | ⟨name, -, opened, -⟩
  · rw [filled, same plain]
  · exact absurd opened (plain name)

theorem of_render {t : Template} {e : Environment} {r : Rendering} (h : t.render e = .ok r) :
    r.template = t.id ∧ r.environment = e.name ∧ r.kind = t.kind := by
  unfold render at h
  cases declared : t.checkDeclared with
  | error x =>
    rw [declared] at h
    cases h
  | ok _ =>
    cases substituted : t.substitute e (Placeholder.segments t.content.toList) with
    | error x =>
      rw [declared, substituted] at h
      cases h
    | ok text =>
      cases filled : t.fillLeftovers (e.rules.foldl MarkedText.apply (MarkedText.ofText .final text)) with
      | error x =>
        rw [declared, substituted] at h
        replace h : (t.fillLeftovers _ >>= _) = _ := h
        rw [filled] at h
        cases h
      | ok content =>
        rw [declared, substituted] at h
        replace h : (t.fillLeftovers _ >>= _) = _ := h
        rw [filled] at h
        obtain rfl := Except.ok.inj h
        exact ⟨rfl, rfl, rfl⟩

/-! ### What a rendering depends on -/

section Congruence

variable {t t' : Template} (schema : t.schema = t'.schema)

include schema

theorem substitute_congr (e : Environment) (segs : List Placeholder.Segment) :
    t.substitute e segs = t'.substitute e segs := by
  have value : ∀ name, t.value e name = t'.value e name := by
    intro name
    simp only [Template.value, fallback, schema]
  induction segs with
  | nil => rfl
  | cons s segs ih => cases s <;> simp only [substitute, value, ih]

theorem fillLeftovers_congr (d : MarkedText) : t.fillLeftovers d = t'.fillLeftovers d := by
  fun_induction t.fillLeftovers d with
  | case1 => rw [fillLeftovers]
  | case2 => rw [fillLeftovers]
  | case3 c d origin' rest name after token ih =>
    obtain ⟨rfl, rfl, closed⟩ := token_of_closed? token
    rw [fillLeftovers]
    simp only [closed, and_self, if_true, ih]
  | case4 c d origin' rest name after token default found ih =>
    obtain ⟨rfl, rfl, closed⟩ := token_of_closed? token
    rw [schema] at found
    rw [fillLeftovers]
    simp only [closed, and_self, if_true, found, ih]
  | case5 c d origin' rest name after token missing =>
    obtain ⟨rfl, rfl, closed⟩ := token_of_closed? token
    rw [schema] at missing
    rw [fillLeftovers]
    simp only [closed, and_self, if_true, missing]
  | case6 c origin d origin' rest plain ih =>
    rw [dite_eq_ite] at plain
    rw [fillLeftovers, plain]
    simp only [ih]

theorem render_congr (content : t.content = t'.content) (e : Environment) :
    t'.render e = (t.render e).map fun r => { r with template := t'.id, kind := t'.kind } := by
  have declared : t.checkDeclared = t'.checkDeclared := by simp only [checkDeclared, content, schema]
  unfold render
  rw [← declared, ← content, ← substitute_congr schema]
  cases t.checkDeclared with
  | error x => rfl
  | ok _ =>
    show (t.substitute e _ >>= _) = (t.substitute e _ >>= _).map _
    cases t.substitute e (Placeholder.segments t.content.toList) with
    | error x => rfl
    | ok text =>
      show (t'.fillLeftovers _ >>= _) = (t.fillLeftovers _ >>= _).map _
      rw [← fillLeftovers_congr schema]
      cases t.fillLeftovers (e.rules.foldl MarkedText.apply (MarkedText.ofText .final text)) with
      | error x => rfl
      | ok content => rfl

end Congruence

end Stencil.Template
