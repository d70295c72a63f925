import Stencil.Json.Fields
import Stencil.Text.Search

/-!
# Outcomes of validation

A validation passes when it finds nothing to say.
-/

namespace Stencil

/-- A finding, with its place as far as it has one. -/
structure Diagnostic where
  line : Option Nat := none
  column : Option Nat := none
  message : String
  deriving Repr, DecidableEq, Inhabited

namespace Diagnostic

/-- The written form of a finding; a column without line is left out. -/
def text (d : Diagnostic) : String :=
  match d.line, d.column with
  | some l, some c => toString l ++ ":" ++ toString c ++ ": " ++ d.message
  | some l, none => toString l ++ ": " ++ d.message
  | none, _ => d.message

def toJson (d : Diagnostic) : Json :=
  .obj <| Json.present [("line", d.line.map Json.nat), ("column", d.column.map Json.nat),
    ("message", some (.str d.message))]

def ofJson? (j : Json) : Option Diagnostic := do
  let j ← j.asRecord? ["line", "column", "message"]
  return {
    line := ← j.optional "line" (Json.asNat? 64),
    column := ← j.optional "column" (Json.asNat? 64),
    message := ← j.required "message" Json.asString? }

theorem ofJson?_toJson_general (message : String) :
    ofJson? (toJson ⟨none, none, message⟩) = some ⟨none, none, message⟩ := rfl

end Diagnostic

/-- Whether a validation passed, and what it found. -/
structure Outcome where
  passed : Bool
  diagnostics : List Diagnostic
  deriving Repr, DecidableEq, Inhabited

namespace Outcome

def of (diagnostics : List Diagnostic) : Outcome := ⟨diagnostics.isEmpty, diagnostics⟩

theorem passed_of_iff {ds : List Diagnostic} : (of ds).passed = true ↔ ds = [] := by
  simp [of]

def summary (o : Outcome) : String := Text.joinWith "; " (o.diagnostics.map Diagnostic.text)

def toJson (o : Outcome) : Json :=
  .obj [("passed", .bool o.passed), ("diagnostics", .arr (o.diagnostics.map Diagnostic.toJson))]

def ofJson? (j : Json) : Option Outcome := do
  let j ← j.asRecord? ["passed", "diagnostics"]
  return {
    passed := ← j.required "passed" Json.asBool?,
    diagnostics := ← j.required "diagnostics" (Json.asList? Diagnostic.ofJson?) }

end Outcome

end Stencil
