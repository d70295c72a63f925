import Stencil.Json.Reader
import Stencil.Text.Lines

/-!
# Issues

What is wrong with a text in one of the grammars, and where. The wording of line formats, of JSON and
of scripts is fixed; what is wrong with a text in YAML or TOML is reported by the library that reads
it.
-/

namespace Stencil

/-- Why a text is not in its grammar. -/
inductive Fault where
  /-- A line of an environment file that is no assignment. -/
  | assignmentExpected
  /-- A line of a settings file that is neither a header nor an assignment. -/
  | headerOrAssignmentExpected
  | json (error : Json.Error)
  /-- A piece of a script that fits nowhere. -/
  | invalidSyntax
  /-- A token that a script lacks. -/
  | missing (kind : String)
  | reported (text : String)
  deriving Repr, DecidableEq, Inhabited

def Fault.message : Fault → String
  | assignmentExpected => "expected 'key=value'"
  | headerOrAssignmentExpected => "expected '[section]' or 'key=value'"
  | json e => e.message
  | invalidSyntax => "invalid syntax"
  | missing kind => "missing '" ++ kind ++ "'"
  | reported text => text

/-- A fault at a place of a text. -/
structure Issue where
  place : Text.Position
  fault : Fault
  deriving Repr, DecidableEq, Inhabited

/-- The place and the wording of an issue. -/
def Issue.text (i : Issue) : String :=
  toString i.place.line ++ ":" ++ toString i.place.column ++ ": " ++ i.fault.message

/-- The issue of a text that is no JSON; its place counts from one even where nothing is read. -/
def Issue.ofJson (e : Json.Error) : Issue := ⟨⟨max e.line 1, max e.column 1⟩, .json e⟩

end Stencil
