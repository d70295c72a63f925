import Stencil.Error
import Stencil.Json.Fields
import Stencil.Placeholder
import Stencil.Text.Blank

/-!
# Environments

An environment gives values to variables and changes rendered texts by rules.
-/

namespace Stencil

/-- A change of a rendered text. The text that a rule writes may hold placeholders. -/
inductive Rule where
  /-- Puts `new` for every occurrence of `old`. -/
  | replace (old new : String)
  | prepend (text : String)
  | append (text : String)
  deriving Repr, DecidableEq, Inhabited

namespace Rule

def toJson : Rule → Json
  | replace old new => .obj [("op", .str "replace"), ("from", .str old), ("to", .str new)]
  | prepend text => .obj [("op", .str "prepend"), ("text", .str text)]
  | append text => .obj [("op", .str "append"), ("text", .str text)]

/-- The rule of a JSON value: an object with the name of the operation, or a list that begins with
it. -/
def ofJson? (j : Json) : Option Rule := do
  let (op, j) ← match j with
    | .obj _ => (j.get? "op").map fun op => (op, j)
    | .arr (op :: rest) =>
      match op with
      | .str "replace" => (Json.asRecord? ["from", "to"] (.arr rest)).map fun j => (op, j)
      | _ => (Json.asRecord? ["text"] (.arr rest)).map fun j => (op, j)
    | _ => none
  match op with
  | .str "replace" => return replace (← j.required "from" Json.asString?) (← j.required "to" Json.asString?)
  | .str "prepend" => return prepend (← j.required "text" Json.asString?)
  | .str "append" => return append (← j.required "text" Json.asString?)
  | _ => none

theorem ofJson?_toJson (r : Rule) : ofJson? r.toJson = some r := by
  cases r <;> rfl

end Rule

/-- What templates are rendered against. -/
structure Environment where
  name : String
  bindings : SortedMap String String := .empty
  rules : List Rule := []
  deriving Repr, DecidableEq, Inhabited

namespace Environment

def identity (name : String) : Environment := { name }

def isIdentity (e : Environment) : Bool := e.bindings.isEmpty && e.rules.isEmpty

def binding? (e : Environment) (name : String) : Option String := e.bindings.get? name

/-- Refuses an environment without name, or with a binding that no placeholder can name. -/
def validate (e : Environment) : Except Error Unit := do
  if Text.allBlank e.name.toList then throw (.invalidEnvironment .nameEmpty)
  if let some name := e.bindings.keys.find? fun n => !Placeholder.isName n.toList then
    throw (.invalidEnvironment (.bindingName name))

def toJson (e : Environment) : Json :=
  .obj [("environment_name", .str e.name), ("variable_bindings", .ofMap .str e.bindings),
    ("transform_rules", .arr (e.rules.map Rule.toJson))]

def ofJson? (j : Json) : Option Environment := do
  let j ← j.asRecord? ["environment_name", "variable_bindings", "transform_rules"]
  return {
    name := ← j.required "environment_name" Json.asString?,
    bindings := ← j.defaulted "variable_bindings" .empty (Json.asMap? Json.asString?),
    rules := ← j.defaulted "transform_rules" [] (Json.asList? Rule.ofJson?) }

end Environment

end Stencil
