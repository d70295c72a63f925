import Stencil.Proofs.Rendering.Rescan
import Stencil.Proofs.Text.Replacing

/-!
# Rules on plain texts

Without the marks, a rule replaces, prepends or appends plain text: the marks decide nothing about the text that
rules make (`text_ruled`). What a rule writes is its text with every `$${` as a plain `${`.
-/

namespace Stencil

open Text (replaceAll)

/-- A text with `${` for every `$${`. -/
def Placeholder.unescape (cs : List Char) : List Char := replaceAll ['$', '$', '{'] ['$', '{'] cs

def Rule.rewrite (cs : List Char) : Rule → List Char
  | replace old new => replaceAll old.toList (Placeholder.unescape new.toList) cs
  | prepend text => Placeholder.unescape text.toList ++ cs
  | append text => cs ++ Placeholder.unescape text.toList

def Environment.rewritten (e : Environment) (cs : List Char) : List Char := e.rules.foldl Rule.rewrite cs

/-! ### What rules write -/

namespace Placeholder

theorem unescape_cons {c : Char} {cs : List Char} (plain : ∀ rest, c :: cs ≠ '$' :: '$' :: '{' :: rest) :
    unescape (c :: cs) = c :: unescape cs :=
  Text.replaceAll_cons (fun ⟨rest, escaped⟩ => plain rest escaped.symm) _

theorem unescape_append {front : List Char} (plain : ∀ c ∈ front, c ≠ '$') (cs : List Char) :
    unescape (front ++ cs) = front ++ unescape cs := by
  induction front with
  | nil => rfl
  | cons c front ih =>
    have other : ∀ rest, c :: (front ++ cs) ≠ '$' :: '$' :: '{' :: rest := fun rest same =>
      plain c List.mem_cons_self (List.cons.inj same).1
    rw [List.cons_append, unescape_cons other, ih fun d among => plain d (List.mem_cons_of_mem c among)]
    rfl

theorem fill_mark_segments (cs : List Char) : fill mark (segments cs) = unescape cs := by
  fun_induction segments cs with
  | case1 => rfl
  | case2 rest ih =>
    have escaped : unescape ('$' :: '$' :: '{' :: rest) = ['$', '{'] ++ unescape rest :=
      Text.replaceAll_append (by simp) _ _
    rw [escaped, ← ih]
    rfl
  | case3 rest name after closed _ ih =>
    obtain ⟨rfl, valid⟩ := eq_append_of_closed? closed
    have front : unescape (name ++ '}' :: after) = name ++ '}' :: unescape after := by
      rw [unescape_append (MarkedText.ne_dollar_of_isName valid), unescape_cons (by simp)]
    rw [fill_placeholder, ih, unescape_cons (by simp), unescape_cons (by simp), front, mark]
    simp
  | case4 rest _ ih =>
    rw [fill_pushChar, ih]
    exact (unescape_cons (by simp)).symm
  | case5 c rest escaped _ ih =>
    have plain : ∀ r, c :: rest ≠ '$' :: '$' :: '{' :: r := by
      rintro r ⟨⟩
      exact escaped r rfl rfl
    rw [fill_pushChar, ih, unescape_cons plain]

end Placeholder

namespace MarkedText

theorem text_ofRule (cs : List Char) : text (ofRule cs) = Placeholder.unescape cs := by
  rw [← Placeholder.fill_mark_segments, ofRule, Placeholder.fill, text, List.map_flatMap]
  refine List.flatMap_congr fun s _ => ?_
  cases s <;> exact text_ofText _ _

/-! ### Rules -/

theorem startsWith_eq (old : List Char) (d : MarkedText) : startsWith old d = old.isPrefixOf (text d) := by
  induction old generalizing d with
  | nil => cases d <;> rfl
  | cons c old ih =>
    cases d with
    | nil => rfl
    | cons x d => exact congrArg (c == x.1 && ·) (ih d)

theorem text_replaceAfter (old : List Char) (new : MarkedText) (skip : Nat) (d : MarkedText) :
    text (replaceAfter old new skip d) = Text.replaceAfter old (text new) skip (text d) := by
  induction d generalizing skip with
  | nil => rfl
  | cons x d ih =>
    cases skip with
    | succ k => exact ih k
    | zero =>
      rw [replaceAfter, startsWith_eq, text_cons, Text.replaceAfter]
      split
      · rw [text_append, ih]
      · rw [text_cons, ih]

theorem text_apply (d : MarkedText) (r : Rule) : text (apply d r) = r.rewrite (text d) := by
  cases r with
  | replace old new => rw [apply, text_replaceAfter, text_ofRule, Rule.rewrite, replaceAll]
  | prepend text => rw [apply, text_append, text_ofRule, Rule.rewrite]
  | append text => rw [apply, text_append, text_ofRule, Rule.rewrite]

theorem text_foldl_apply (rules : List Rule) (d : MarkedText) :
    text (rules.foldl apply d) = rules.foldl Rule.rewrite (text d) := by
  induction rules generalizing d with
  | nil => rfl
  | cons r rules ih => rw [List.foldl_cons, List.foldl_cons, ih, text_apply]

/-- Whoever wrote what, the text after the rules is that of the rules on plain text. -/
theorem text_ruled (e : Environment) (cs : List Char) : text (e.ruled cs) = e.rewritten cs := by
  rw [Environment.ruled, text_foldl_apply, text_ofText]
  rfl

theorem not_mem_ofRule {cs : List Char} (plain : '$' ∉ cs) : ('$', Origin.rule) ∉ ofRule cs := by
  intro among
  have char : '$' ∈ text (ofRule cs) := List.mem_map_of_mem (f := Prod.fst) among
  rw [text_ofRule] at char
  have same : Placeholder.unescape (cs ++ []) = cs ++ [] :=
    Placeholder.unescape_append (fun c held dollar => plain (dollar ▸ held)) []
  rw [List.append_nil] at same
  exact plain (same ▸ char)

end MarkedText

end Stencil
