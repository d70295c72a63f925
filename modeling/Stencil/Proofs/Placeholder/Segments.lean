import Mathlib.Data.List.Chain
import Stencil.Placeholder

/-!
# Segments of a text

A text is read from left to right: an escape or the mark of a name at the front is a segment, and else the first
character is literal. So the literals hold all that is neither, in pieces as long as possible, and each of them
reads as itself (`segments_canonical`). Raw text that is escaped reads back as itself as well:
`segments_escape_append` says what its segments are with anything behind it, as long as no dollar at its end can run
into what follows.
-/

namespace Stencil.Placeholder

/-! ### The front of a text -/

theorem segments_escaped (rest : List Char) :
    segments ('$' :: '$' :: '{' :: rest) = .escape :: segments rest := by
  rw [segments]

theorem segments_of_ne_dollar {c : Char} (h : c ≠ '$') (rest : List Char) :
    segments (c :: rest) = pushChar c (segments rest) := by
  rw [segments]
  · intro _ e
    exact absurd e h
  · intro _ e
    exact absurd e h

theorem segments_dollar {rest : List Char} (opener : ∀ r, rest ≠ '{' :: r)
    (escaped : ∀ r, rest ≠ '$' :: '{' :: r) :
    segments ('$' :: rest) = pushChar '$' (segments rest) := by
  rw [segments]
  · intro r _ e
    exact escaped r e
  · intro r _ e
    exact opener r e

theorem segments_mark {name : List Char} (valid : isName name = true) (rest : List Char) :
    segments (mark name ++ rest) = .placeholder name :: segments rest := by
  have front : mark name ++ rest = '$' :: '{' :: (name ++ '}' :: rest) := by simp [mark]
  rw [front, segments]
  split
  · next name' rest' found =>
    have same := found.symm.trans (closed?_mark valid rest)
    simp only [Option.some.injEq, Prod.mk.injEq] at same
    obtain ⟨rfl, rfl⟩ := same
    rfl
  · next missing => simp [closed?_mark valid rest] at missing

section Tokens

/-- What is read as more than its characters. -/
inductive IsToken : List Char → Prop
  | escape : IsToken ['$', '$', '{']
  | mark {name : List Char} (valid : isName name = true) : IsToken (mark name)

def Segment.isLiteral : Segment → Bool
  | .literal _ => true
  | _ => false

variable {c : Char} {cs rest text token : List Char} {segs : List Segment}

theorem IsToken.ne_nil (h : IsToken token) : token ≠ [] := by
  cases h <;> simp [Placeholder.mark]

theorem closed?_eq_none (plain : ∀ name, isName name = true → ¬mark name <+: '$' :: '{' :: rest) :
    closed? rest = none := by
  cases closed : closed? rest with
  | none => rfl
  | some found =>
    obtain ⟨name, after⟩ := found
    obtain ⟨rfl, valid⟩ := eq_append_of_closed? closed
    exact absurd ⟨after, by simp [mark]⟩ (plain name valid)

/-- Where no token begins, the first character is literal. -/
theorem segments_cons (plain : ∀ token, IsToken token → ¬token <+: c :: rest) :
    segments (c :: rest) = pushChar c (segments rest) := by
  by_cases dollar : c = '$'
  · subst dollar
    have escaped : ∀ r, rest ≠ '$' :: '{' :: r := by
      rintro r rfl
      exact plain _ .escape (List.prefix_append ['$', '$', '{'] r)
    by_cases opener : ∃ r, rest = '{' :: r
    · obtain ⟨r, rfl⟩ := opener
      have none : closed? r = none := closed?_eq_none fun name valid => plain _ (.mark valid)
      rw [segments]
      split
      · next found =>
        rw [none] at found
        cases found
      · rfl
    · exact segments_dollar (fun r same => opener ⟨r, same⟩) escaped
  · exact segments_of_ne_dollar dollar rest

theorem segments_cases (cs : List Char) :
    cs = [] ∨ (∃ rest, cs = '$' :: '$' :: '{' :: rest) ∨
      (∃ name rest, isName name = true ∧ cs = mark name ++ rest) ∨
      ∃ c rest, cs = c :: rest ∧ ∀ token, IsToken token → ¬token <+: cs := by
  by_cases front : ∃ token, IsToken token ∧ token <+: cs
  · obtain ⟨token, valid, rest, rfl⟩ := front
    cases valid with
    | escape => exact .inr (.inl ⟨rest, rfl⟩)
    | @mark name valid => exact .inr (.inr (.inl ⟨name, rest, valid, rfl⟩))
  · cases cs with
    | nil => exact .inl rfl
    | cons c rest =>
      refine .inr (.inr (.inr ⟨c, rest, rfl, fun token valid begins => ?_⟩))
      exact front ⟨token, valid, begins⟩

/-- A property of texts with their segments holds when the front of a text hands it on. -/
theorem segments_induction {P : List Char → List Segment → Prop} (nil : P [] [])
    (escape : ∀ rest, P rest (segments rest) → P ('$' :: '$' :: '{' :: rest) (.escape :: segments rest))
    (mark : ∀ name rest, isName name = true → P rest (segments rest) →
      P (mark name ++ rest) (.placeholder name :: segments rest))
    (char : ∀ c rest, (∀ token, IsToken token → ¬token <+: c :: rest) → P rest (segments rest) →
      P (c :: rest) (pushChar c (segments rest)))
    (cs : List Char) : P cs (segments cs) := by
  induction length : cs.length using Nat.strongRecOn generalizing cs with
  | ind n ih =>
    subst length
    rcases segments_cases cs with rfl | ⟨rest, rfl⟩ | ⟨name, rest, valid, rfl⟩ | ⟨c, rest, rfl, plain⟩
    · simpa [segments] using nil
    · rw [segments_escaped]
      exact escape rest (ih _ (by simp only [List.length_cons]; omega) rest rfl)
    · rw [segments_mark valid]
      exact mark name rest valid (ih _ (by simp [Placeholder.mark]; omega) rest rfl)
    · rw [segments_cons plain]
      exact char c rest plain (ih _ (by simp) rest rfl)

/-! ### Literals -/

theorem mem_pushChar {s : Segment} (among : s ∈ pushChar c segs) :
    s ∈ segs ∨ ∃ text, s = .literal (c :: text) ∧ (text = [] ∨ .literal text ∈ segs) ∧
      (pushChar c segs).head? = some s := by
  cases segs with
  | nil => exact .inr ⟨[], List.mem_singleton.1 among, .inl rfl, by rw [List.mem_singleton.1 among]; rfl⟩
  | cons first segs =>
    cases first with
    | literal text =>
      rcases List.mem_cons.1 among with rfl | later
      · exact .inr ⟨text, rfl, .inr List.mem_cons_self, rfl⟩
      · exact .inl (List.mem_cons_of_mem _ later)
    | escape | placeholder name =>
      rcases List.mem_cons.1 among with rfl | there
      · exact .inr ⟨[], rfl, .inl rfl, rfl⟩
      · exact .inl there

def Apart (a b : Segment) : Prop := ¬(a.isLiteral = true ∧ b.isLiteral = true)

theorem isChain_pushChar (c : Char) (apart : segs.IsChain Apart) : (pushChar c segs).IsChain Apart := by
  cases segs with
  | nil => exact List.isChain_singleton _
  | cons first segs =>
    cases first with
    | literal text =>
      obtain ⟨next, behind⟩ := List.isChain_cons.1 apart
      exact List.isChain_cons.2 ⟨fun s head => next s head, behind⟩
    | escape => exact List.isChain_cons_cons.2 ⟨by simp [Apart, Segment.isLiteral], apart⟩
    | placeholder name => exact List.isChain_cons_cons.2 ⟨by simp [Apart, Segment.isLiteral], apart⟩

theorem isChain_segments (cs : List Char) : (segments cs).IsChain Apart := by
  refine segments_induction (P := fun _ segs => segs.IsChain Apart) List.isChain_nil ?escape ?mark
    (fun c _ _ => isChain_pushChar c) cs
  case escape =>
    intro rest ih
    exact List.isChain_cons.2 ⟨by simp [Apart, Segment.isLiteral], ih⟩
  case mark =>
    intro name rest _ ih
    exact List.isChain_cons.2 ⟨by simp [Apart, Segment.isLiteral], ih⟩

theorem ne_nil_of_mem_segments : ∀ text, .literal text ∈ segments cs → text ≠ [] := by
  refine segments_induction (P := fun _ segs => ∀ text, .literal text ∈ segs → text ≠ [])
    (by simp) (by simp) (by simp) ?char cs
  case char =>
    intro c rest _ ih text among
    rcases mem_pushChar among with there | ⟨first, same, -, -⟩
    · exact ih text there
    · simp [Segment.literal.inj same]

theorem isName_of_mem_segments : ∀ name, .placeholder name ∈ segments cs → isName name = true := by
  refine segments_induction (P := fun _ segs => ∀ name, .placeholder name ∈ segs → isName name = true)
    (by simp) (by simp) ?mark ?char cs
  case mark =>
    intro name rest valid ih other among
    rcases List.mem_cons.1 among with here | later
    · rw [Segment.placeholder.inj here, valid]
    · exact ih other later
  case char =>
    intro c rest _ ih name among
    rcases mem_pushChar among with there | ⟨first, other, -, -⟩
    · exact ih name there
    · cases other

theorem not_infix_of_mem_segments :
    ∀ text, .literal text ∈ segments cs → ∀ token, IsToken token → ¬token <:+: text := by
  refine segments_induction
    (P := fun _ segs => ∀ text, .literal text ∈ segs → ∀ token, IsToken token → ¬token <:+: text)
    (by simp) (fun rest ih => by simpa using ih) (fun name rest _ ih => by simpa using ih) ?char cs
  case char =>
    intro c rest plain ih text among token valid inside
    rcases mem_pushChar among with there | ⟨first, same, before, head⟩
    · exact ih text there token valid inside
    · obtain rfl := Segment.literal.inj same
      -- A token at the front of the literal would be at the front of the text as well.
      have begins : c :: first <+: c :: rest := by
        obtain ⟨tail, pushed⟩ := List.head?_eq_some_iff.1 head
        have written := write_pushChar c (segments rest)
        rw [write_segments, pushed] at written
        exact ⟨write tail, written⟩
      rcases List.infix_cons_iff.1 inside with front | behind
      · exact plain token valid (front.trans begins)
      · rcases before with rfl | literal
        · exact valid.ne_nil (List.infix_nil.1 behind)
        · exact ih first literal token valid behind

theorem segments_of_not_infix (plain : ∀ token, IsToken token → ¬token <:+: text) (some : text ≠ []) :
    segments text = [.literal text] := by
  induction text with
  | nil => exact absurd rfl some
  | cons c text ih =>
    have here : ∀ token, IsToken token → ¬token <+: c :: text := fun token valid begins =>
      plain token valid begins.isInfix
    have behind : ∀ token, IsToken token → ¬token <:+: text := fun token valid inside =>
      plain token valid (List.infix_cons inside)
    rw [segments_cons here]
    cases text with
    | nil => simp [segments, pushChar]
    | cons d text => rw [ih behind (List.cons_ne_nil d text), pushChar]

/-- The segments of a text write it back. Their names are valid, their literals are not empty and never next to
each other, and a literal holds no escape and no mark of a name, so that it reads as itself. -/
theorem segments_canonical (cs : List Char) :
    write (segments cs) = cs ∧
    (∀ text, .literal text ∈ segments cs → text ≠ [] ∧ segments text = [.literal text] ∧
      ∀ token, IsToken token → ¬token <:+: text) ∧
    (segments cs).IsChain Apart ∧
    ∀ name, .placeholder name ∈ segments cs → isName name = true := by
  refine ⟨write_segments cs, fun text among => ?_, isChain_segments cs, isName_of_mem_segments⟩
  have plain := not_infix_of_mem_segments text among
  have some := ne_nil_of_mem_segments text among
  exact ⟨some, segments_of_not_infix plain some, plain⟩

/-- Openers that are not closed or open no name stay in a literal, between an escape and a mark. -/
theorem segments_canonical_openers :
    let cs := "$$$\x7bx\x7d$\x7ba$\x7bb\x7d$".toList
    let between := "x\x7d$\x7ba".toList
    .literal between ∈ segments cs ∧ between ≠ [] ∧ segments between = [.literal between] := by
  intro cs between
  have read : segments cs = [.literal ['$'], .escape, .literal between, .placeholder ['b'], .literal ['$']] := by
    decide +kernel
  have among : .literal between ∈ segments cs := by simp [read]
  obtain ⟨some, alone, -⟩ := (segments_canonical cs).2.1 between among
  exact ⟨among, some, alone⟩

end Tokens

/-! ### Escaped text -/

def pushText : List Char → List Segment → List Segment
  | [], segs => segs
  | '$' :: '{' :: rest, segs => .escape :: pushText rest segs
  | c :: rest, segs => pushChar c (pushText rest segs)

theorem escape_cons {c : Char} {rest : List Char} (plain : c = '$' → ∀ r, rest ≠ '{' :: r) :
    escape (c :: rest) = c :: escape rest := by
  rw [escape]
  intro r e
  exact plain e r

@[simp] theorem head?_escape (cs : List Char) : (escape cs).head? = cs.head? := by
  fun_cases escape cs <;> simp

/-- What stands behind a literal dollar of an escaped text neither opens a placeholder nor ends an
escape. -/
theorem escape_append_ne {d : Char} {rest T : List Char} (plain : d ≠ '{')
    (end_ : (d :: rest).getLast? ≠ some '$' ∨ T = []) :
    (∀ r, escape (d :: rest) ++ T ≠ '{' :: r) ∧ ∀ r, escape (d :: rest) ++ T ≠ '$' :: '{' :: r := by
  cases rest with
  | nil =>
    have alone : escape [d] = [d] := escape_cons (by simp)
    rw [alone]
    refine ⟨by simp [plain], fun r e => ?_⟩
    rcases end_ with last | rfl
    · simp only [List.cons_append, List.nil_append, List.cons.injEq] at e
      simp [e.1] at last
    · simp at e
  | cons f more =>
    by_cases opens : d = '$' ∧ f = '{'
    · obtain ⟨rfl, rfl⟩ := opens
      simp [escape]
    · have next := head?_escape (f :: more)
      rw [escape_cons fun e r e' => opens ⟨e, (List.cons.inj e').1⟩]
      refine ⟨by simp [plain], fun r e => ?_⟩
      cases tail : escape (f :: more) with
      | nil => simp [tail] at next
      | cons x xs =>
        simp only [tail, List.head?_cons, Option.some.injEq] at next
        simp only [tail, List.cons_append, List.cons.injEq] at e
        exact opens ⟨e.1, next ▸ e.2.1⟩

theorem segments_escape_append {g T : List Char} (end_ : g.getLast? ≠ some '$' ∨ T = []) :
    segments (escape g ++ T) = pushText g (segments T) := by
  fun_induction escape g with
  | case1 => rfl
  | case2 rest ih =>
    simp only [List.cons_append, pushText]
    rw [segments_escaped, ih]
    cases rest with
    | nil => simp
    | cons c rest => simpa using end_
  | case3 c rest other ih =>
    have last : rest.getLast? ≠ some '$' ∨ T = [] := by
      cases rest with
      | nil => simp
      | cons d rest => simpa using end_
    rw [pushText]
    · by_cases dollar : c = '$'
      · subst dollar
        cases rest with
        | nil =>
          rcases end_ with wrong | rfl
          · simp at wrong
          · simp [escape, pushText, segments]
        | cons d rest =>
          have apart := escape_append_ne (fun e => other rest rfl (by rw [e])) last
          rw [List.cons_append, segments_dollar apart.1 apart.2, ih last]
      · rw [List.cons_append, segments_of_ne_dollar dollar, ih last]
    · intro r e e'
      exact other r e e'

/-! ### What segments of raw text say -/

@[simp] theorem fill_pushChar (value : List Char → List Char) (c : Char) (segs : List Segment) :
    fill value (pushChar c segs) = c :: fill value segs := by
  cases segs with
  | nil => rfl
  | cons s segs => cases s <;> rfl

def marked (segs : List Segment) : List (List Char) := segs.filterMap Segment.name?

@[simp] theorem marked_pushChar (c : Char) (segs : List Segment) :
    marked (pushChar c segs) = marked segs := by
  cases segs with
  | nil => rfl
  | cons s segs => cases s <;> rfl

@[simp] theorem marked_placeholder (name : List Char) (segs : List Segment) :
    marked (.placeholder name :: segs) = name :: marked segs := rfl

@[simp] theorem fill_placeholder (value : List Char → List Char) (name : List Char)
    (segs : List Segment) :
    fill value (.placeholder name :: segs) = value name ++ fill value segs := rfl

@[simp] theorem fill_pushText (value : List Char → List Char) (g : List Char)
    (segs : List Segment) : fill value (pushText g segs) = g ++ fill value segs := by
  fun_induction pushText g segs with
  | case1 => rfl
  | case2 segs rest ih => simpa [fill] using ih
  | case3 segs c rest _ ih => simp [ih]

@[simp] theorem marked_pushText (g : List Char) (segs : List Segment) :
    marked (pushText g segs) = marked segs := by
  fun_induction pushText g segs with
  | case1 => rfl
  | case2 segs rest ih => exact ih
  | case3 segs c rest _ ih => simp [ih]

/-- Escaped text alone is raw text again, and marks nothing. -/
theorem fill_segments_escape (value : List Char → List Char) (cs : List Char) :
    fill value (segments (escape cs)) = cs := by
  have read := segments_escape_append (g := cs) (T := []) (.inr rfl)
  rw [List.append_nil] at read
  rw [read, fill_pushText]
  simp [segments, fill]

theorem marked_segments_escape (cs : List Char) : marked (segments (escape cs)) = [] := by
  have read := segments_escape_append (g := cs) (T := []) (.inr rfl)
  rw [List.append_nil] at read
  rw [read, marked_pushText]
  simp [segments, marked]

theorem mem_names {name cs : List Char} : name ∈ names cs ↔ name ∈ marked (segments cs) := by
  have folded : ∀ (ns seen : List (List Char)),
      name ∈ ns.foldl (fun seen n => if seen.contains n then seen else seen ++ [n]) seen ↔
        name ∈ seen ∨ name ∈ ns := by
    intro ns
    induction ns with
    | nil => simp
    | cons n ns ih =>
      intro seen
      rw [List.foldl_cons, ih]
      split
      · next known =>
        have : n ∈ seen := by simpa using known
        constructor
        · rintro (h | h)
          · exact .inl h
          · exact .inr (List.mem_cons_of_mem _ h)
        · rintro (h | h)
          · exact .inl h
          · rcases List.mem_cons.1 h with rfl | h
            · exact .inl this
            · exact .inr h
      · simp [or_assoc]
  simpa [names, marked] using folded (marked (segments cs)) []

end Stencil.Placeholder
