import Stencil.Json.Fields

/-!
# Variables

What a template says about each of its variables.
-/

namespace Stencil

/-- What the values of a variable are. -/
inductive VariableType where
  | path
  | version
  | environment
  | string
  deriving Repr, DecidableEq, Inhabited

namespace VariableType

def all : List VariableType := [path, version, environment, string]

def name : VariableType → String
  | path => "path"
  | version => "version"
  | environment => "environment"
  | string => "string"

/-- The name of a variable of this type that has no better one. -/
def baseName : VariableType → String
  | path => "path"
  | version => "version"
  | environment => "environment"
  | string => "value"

def ofName? (s : String) : Option VariableType := all.find? fun t => t.name == s

theorem ofName?_name (t : VariableType) : ofName? t.name = some t := by cases t <;> rfl

def toJson (t : VariableType) : Json := .str t.name

def ofJson? (j : Json) : Option VariableType := j.asCase?.bind ofName?

end VariableType

/-- The declaration of a variable. -/
structure Variable where
  type : VariableType
  required : Bool
  default : Option String
  deriving Repr, DecidableEq, Inhabited

namespace Variable

def optional (type : VariableType) (default : String) : Variable := ⟨type, false, some default⟩

def toJson (v : Variable) : Json :=
  .obj <| Json.present [("type", some v.type.toJson), ("required", some (.bool v.required)),
    ("default", v.default.map .str)]

def ofJson? (j : Json) : Option Variable := do
  let j ← j.asRecord? ["type", "required", "default"]
  return {
    type := ← j.required "type" VariableType.ofJson?,
    required := ← j.required "required" Json.asBool?,
    default := ← j.optional "default" Json.asString? }

end Variable

abbrev Schema := SortedMap String Variable

end Stencil
