import Stencil.Grammar.Issue
import Stencil.Script.Reader
import Stencil.Toml.Reader
import Stencil.Yaml.Value

/-!
# Libraries

Scripts, YAML and TOML are read by libraries. What a library makes of a text is a function of the
text, and everything that depends on it takes the libraries as given. `Readers` are the libraries
that the program is run with.
-/

namespace Stencil

/-- Why a document of a YAML stream cannot be read, and where if that is known. -/
structure Yaml.Report where
  location : Option Text.Position
  message : String

/-- Why a TOML text cannot be read, and the byte offset if that is known. -/
structure Toml.Report where
  offset : Option Nat
  message : String

class Libraries where
  /-- The tree of a script, which may have errors in it. -/
  script : List Char → Except Issue Script.Node
  /-- The documents of a YAML stream in order. -/
  yaml : List Char → List (Except Yaml.Report Yaml.Value)
  /-- The members of the root table of a TOML text. -/
  toml : List Char → Except Toml.Report (List (String × Toml.Value))

namespace Readers

/-- A script outside of the grammar is one error. -/
def script (cs : List Char) : Except Issue Script.Node :=
  .ok ((Script.tree? cs).getD (.mk .error none 0 (Text.byteSize cs) []))

/-- A stream has no values if one of its documents cannot be read. -/
def yaml (cs : List Char) : List (Except Yaml.Report Yaml.Value) :=
  match Yaml.parse cs with
  | some values => values.map .ok
  | none => [.error ⟨none, Fault.invalidSyntax.message⟩]

def toml (cs : List Char) : Except Toml.Report (List (String × Toml.Value)) :=
  match Toml.parse cs with
  | some members => .ok members
  | none => .error ⟨none, Fault.invalidSyntax.message⟩

scoped instance libraries : Libraries := ⟨script, yaml, toml⟩

end Readers

end Stencil
