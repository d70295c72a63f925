import Stencil.Environment
import Stencil.Template

/-!
# Rendering

A template is rendered in three steps. Placeholders get their values from the environment or their
defaults; the rules change the text; and placeholders that rules wrote get their defaults. Every
character remembers whether a rule wrote it, so that the last step never takes a `${` of the source
or of a value for a placeholder.
-/

namespace Stencil

/-- A placeholder that is left in a rendered text, with its byte offset. -/
structure Leftover where
  name : String
  offset : Nat
  deriving Repr, DecidableEq, Inhabited

def Leftover.toJson (l : Leftover) : Json := .obj [("name", .str l.name), ("offset", .nat l.offset)]

def Leftover.ofJson? (j : Json) : Option Leftover := do
  let j ← j.asRecord? ["name", "offset"]
  return ⟨← j.required "name" Json.asString?, ← j.required "offset" (Json.asNat? 64)⟩

structure Rendering where
  template : Identifier
  environment : String
  kind : Kind
  content : String
  unresolved : List Leftover
  deriving Repr, DecidableEq, Inhabited

/-! ### Marked texts -/

inductive Origin where
  /-- The source or a value; it stands as it is. -/
  | final
  /-- A rule; placeholders count. -/
  | rule
  deriving Repr, DecidableEq, Inhabited

/-- A text whose characters remember who wrote them. -/
abbrev MarkedText := List (Char × Origin)

namespace MarkedText

def ofText (origin : Origin) (cs : List Char) : MarkedText := cs.map (·, origin)

def text (d : MarkedText) : List Char := d.map (·.1)

@[simp] theorem text_ofText (origin : Origin) (cs : List Char) : text (ofText origin cs) = cs := by
  induction cs with
  | nil => rfl
  | cons c cs ih => simpa [text, ofText] using ih

@[simp] theorem text_append (a b : MarkedText) : text (a ++ b) = text a ++ text b := by
  simp [text]

/-- What a rule writes: a `$${` in it is a final `${`. -/
def ofRule (cs : List Char) : MarkedText :=
  (Placeholder.segments cs).flatMap fun
    | .literal text => ofText .rule text
    | .escape => ofText .final ['$', '{']
    | .placeholder name => ofText .rule (Placeholder.mark name)

def startsWith : List Char → MarkedText → Bool
  | [], _ => true
  | _ :: _, [] => false
  | c :: cs, d :: ds => c == d.1 && startsWith cs ds

/-- Replaces every occurrence of `old`, from left to right and without overlap; `skip` counts the
characters of a replaced occurrence still to be passed. -/
def replaceAfter (old : List Char) (new : MarkedText) (skip : Nat) : MarkedText → MarkedText
  | [] => []
  | d :: ds =>
    match skip with
    | k + 1 => replaceAfter old new k ds
    | 0 =>
      if !old.isEmpty && startsWith old (d :: ds) then
        new ++ replaceAfter old new (old.length - 1) ds
      else d :: replaceAfter old new 0 ds

def apply (d : MarkedText) : Rule → MarkedText
  | .replace old new => replaceAfter old.toList (ofRule new.toList) 0 d
  | .prepend text => ofRule text.toList ++ d
  | .append text => d ++ ofRule text.toList

end MarkedText

/-! ### The three steps -/

namespace Template

/-- The value of a placeholder without binding: its default, or nothing when none is needed. -/
def fallback (t : Template) (name : String) : Except Error String :=
  match t.schema.get? name with
  | none => .error (.unresolved name)
  | some v =>
    match v.default, v.required with
    | some default, _ => .ok default
    | none, true => .error (.unresolved name)
    | none, false => .ok ""

def value (t : Template) (e : Environment) (name : String) : Except Error String :=
  match e.binding? name with
  | some bound => .ok bound
  | none => t.fallback name

/-- The text of segments with values for their placeholders. -/
def substitute (t : Template) (e : Environment) : List Placeholder.Segment → Except Error (List Char)
  | [] => .ok []
  | .literal text :: rest => do
    return text ++ (← t.substitute e rest)
  | .escape :: rest => do
    return '$' :: '{' :: (← t.substitute e rest)
  | .placeholder name :: rest => do
    let v ← t.value e (String.ofList name)
    return v.toList ++ (← t.substitute e rest)

theorem length_drop_lt {α : Type} (l : List α) (n : Nat) : (l.drop n).length < l.length + 2 := by
  rw [List.length_drop]
  omega

/-- The text with the defaults of the placeholders that rules wrote. -/
def fillLeftovers (t : Template) : MarkedText → Except Error (List Char)
  | [] => .ok []
  | [(c, _)] => .ok [c]
  | (c, origin) :: (d, origin') :: rest =>
    match if c = '$' ∧ d = '{' then Placeholder.closed? (MarkedText.text rest) else none with
    | some (name, _) =>
      match origin with
      | .final => do
        let others ← t.fillLeftovers (rest.drop (name.length + 1))
        return Placeholder.mark name ++ others
      | .rule =>
        match (t.schema.get? (String.ofList name)).bind (·.default) with
        | some default => do
          let others ← t.fillLeftovers (rest.drop (name.length + 1))
          return default.toList ++ others
        | none => .error (.unresolved (String.ofList name))
    | none => do
      let others ← t.fillLeftovers ((d, origin') :: rest)
      return c :: others
  termination_by d => d.length
  decreasing_by
  · exact length_drop_lt rest _
  · exact length_drop_lt rest _
  · exact Nat.lt_succ_self _

def render (t : Template) (e : Environment) : Except Error Rendering := do
  t.checkDeclared
  let text ← t.substitute e (Placeholder.segments t.content.toList)
  let marked := e.rules.foldl MarkedText.apply (MarkedText.ofText .final text)
  let content ← t.fillLeftovers marked
  return ⟨t.id, e.name, t.kind, String.ofList content, []⟩

end Template

end Stencil
