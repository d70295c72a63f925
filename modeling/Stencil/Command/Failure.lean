import Stencil.Setup

/-!
# Failures of commands

Every way in which a command can fail, with its report and the exit code that stands for it.
-/

namespace Stencil.Command

inductive Failure where
  | fileMissing (path : Path)
  /-- A file that is no text. -/
  | unreadable (path : Path)
  | setup (error : SetupError)
  /-- The setup has no written form. -/
  | unwritableSetup
  /-- There is a path in the answer that has no JSON form. -/
  | unwritableAnswer
  | library (error : Error)
  /-- The batch is done, but not everything in it went well. -/
  | batch (failed total : Nat)
  deriving Repr, Inhabited

namespace Failure

def message : Failure → String
  | fileMissing path => "File not found: " ++ path.text
  | unreadable path => "I/O error: reading " ++ path.text
  | setup e => "Configuration error: " ++ Text.joinWith ": " e.chain
  | unwritableSetup => "Configuration error: failed to serialise config"
  | unwritableAnswer => "I/O error: " ++ Path.noText
  | library e => e.message
  | batch failed total =>
    toString failed ++ " of " ++ toString total ++ " artifacts did not regenerate cleanly"

def causes : Failure → List String
  | unreadable _ => ["stream did not contain valid UTF-8"]
  | setup e => e.chain
  | unwritableSetup => ["out-of-range value"]
  | unwritableAnswer => [Path.noText]
  | _ => []

def code : Failure → Nat
  | fileMissing _ => 3
  | unreadable _ | unwritableAnswer => 1
  | setup _ | unwritableSetup => 4
  | batch .. => 5
  | library e =>
    match e.area with
    | .parse | .validation => 2
    | .notFound => 3
    | .configuration => 4
    | .internal => 1

/-- What a user can do about a failure. -/
def suggestions : Failure → List String
  | fileMissing path =>
    ["Check that '" ++ path.text ++ "' exists and is readable",
      "Relative paths resolve against the current directory"]
  | setup _ | unwritableSetup =>
    ["Check the file printed by 'reforge config path'",
      "Inspect the merged settings with 'reforge config show'",
      "Environment overrides use REFORGE_<SECTION>__<KEY>"]
  | library e => e.suggestions
  | batch .. =>
    ["Each failed artifact is listed under 'Failures' with its code",
      "Re-run with -v to trace the failing stage",
      "Use --output-format json for a machine-readable report"]
  | unreadable _ | unwritableAnswer => ["Check permissions on the catalog and log paths"]

def report (isVerbose : Bool) (f : Failure) : String :=
  let advice := "\nSuggestions:\n" ++ String.join (f.suggestions.map fun s => "  - " ++ s ++ "\n")
  let causes := String.join (f.causes.map fun c => "  caused by: " ++ c ++ "\n")
  "\nError: " ++ f.message ++ "\n" ++ (if isVerbose then causes else "") ++ advice ++
    (if isVerbose then "" else "\nUse -v / --verbose for more details.\n")

theorem one_le_code (f : Failure) : 1 ≤ f.code := by
  cases f with
  | library e => simp only [code]; split <;> decide
  | _ => simp [code]

end Failure

end Stencil.Command
