import Stencil.Grammar.Issue
import Stencil.Decimal.Notation
import Stencil.Instant
import Stencil.Path

/-!
# Errors

Every way in which the library can refuse an input or fail, with the wording in one function
`Error.message`. An error of the catalog ends a whole batch, every other error only concerns one
artifact: `isFatal_iff` says which.
-/

namespace Stencil

/-- Why something is no artifact. -/
inductive Refusal where
  | unknownFormat
  | unknownKind
  | unknownExtension
  | reported (text : String)
  deriving Repr, DecidableEq, Inhabited

/-- What is wrong with a template. -/
inductive TemplateFlaw where
  | nameMissing
  | kindMissing
  | contentMissing
  | nameEmpty
  | variableName (name : String)
  | staleDigest
  | scoreOutside (label : String) (score : Float)
  | badIdentifier (text : String)
  | reported (text : String)
  deriving Repr, DecidableEq, Inhabited

/-- What is wrong with the settings of a batch. -/
inductive PolicyFlaw where
  | environmentEmpty
  | noWorkers
  | noTime
  | thresholdOutside (threshold : Float)
  | tooManyChecks (required : Nat)
  | weightsTotal (total : Nat)
  | reported (text : String)
  deriving Repr, DecidableEq, Inhabited

/-- What is wrong with an environment. -/
inductive EnvironmentFlaw where
  | nameEmpty
  | bindingName (name : String)
  | reported (text : String)
  deriving Repr, DecidableEq, Inhabited

/-- A refusal or a failure. -/
inductive Error where
  | malformed (path grammar : String) (issue : Issue)
  | unsupported (path : String) (why : Refusal)
  | invalidTemplate (flaw : TemplateFlaw)
  | undeclared (name : String)
  | unresolved (name : String)
  | invalidPolicy (flaw : PolicyFlaw)
  | invalidEnvironment (flaw : EnvironmentFlaw)
  | unknownCategory (text : String)
  | notFound (what id : String)
  | catalogUnavailable (reason : String)
  | timeout (stage : String) (after : Duration)
  | batchTimeout
  | duplicateRecord (id : String)
  | discoveryFailed (path reason : String)
  | workerFailed (reason : String)
  | configuration (text : String)
  | internal (text : String)
  deriving Repr, DecidableEq, Inhabited

/-! ### Wording -/

def Refusal.message : Refusal → String
  | unknownFormat => "unknown config format"
  | unknownKind => "expected 'script' or 'config:<format>'"
  | unknownExtension => "unrecognised file extension"
  | reported text => text

def TemplateFlaw.message : TemplateFlaw → String
  | nameMissing => "name is required"
  | kindMissing => "artifact kind is required"
  | contentMissing => "content is required"
  | nameEmpty => "name cannot be empty"
  | variableName name => "'" ++ name ++ "' is not a valid variable name"
  | staleDigest => "content hash does not match parameterized content"
  | scoreOutside label score =>
    label ++ " " ++ String.ofList (Decimal.plain.write score) ++ " is outside 0..=100"
  | badIdentifier text => "bad template id '" ++ text ++ "'"
  | reported text => text

def PolicyFlaw.message : PolicyFlaw → String
  | environmentEmpty => "environment cannot be empty"
  | noWorkers => "max_workers must be at least 1"
  | noTime => "timeouts must be positive"
  | thresholdOutside threshold =>
    "extraction threshold " ++ String.ofList (Decimal.plain.write threshold) ++
      " is outside 0..=100"
  | tooManyChecks required =>
    "at most 6 structural checks exist, " ++ toString required ++ " required"
  | weightsTotal total => "compliance weights must sum to 100, got " ++ toString total
  | reported text => text

def EnvironmentFlaw.message : EnvironmentFlaw → String
  | nameEmpty => "environment name cannot be empty"
  | bindingName name => "binding '" ++ name ++ "' is not a valid variable name"
  | reported text => text

namespace Error

def message : Error → String
  | malformed path grammar issue =>
    path ++ ":" ++ toString issue.place.line ++ ":" ++ toString issue.place.column ++
      ": cannot parse as " ++ grammar ++ ": " ++ issue.fault.message
  | unsupported path why => "Unsupported artifact '" ++ path ++ "': " ++ why.message
  | invalidTemplate flaw => "Invalid template: " ++ flaw.message
  | undeclared name => "Placeholder '$\x7b" ++ name ++ "\x7d' is not declared in the variable schema"
  | unresolved name => "Unresolved variable '" ++ name ++ "'"
  | invalidPolicy flaw => "Invalid policy: " ++ flaw.message
  | invalidEnvironment flaw => "Invalid environment context: " ++ flaw.message
  | unknownCategory text => "Unknown category '" ++ text ++ "'"
  | notFound what id => what ++ " '" ++ id ++ "' not found"
  | catalogUnavailable reason => "Template catalog unavailable: " ++ reason
  | timeout stage after =>
    stage ++ " timed out after " ++ String.ofList (Decimal.fixed 1 after.toFloat) ++ "s"
  | batchTimeout => "Batch deadline exceeded before scheduling"
  | duplicateRecord id => "Generation record '" ++ id ++ "' already exists"
  | discoveryFailed path reason => "Discovery failed at " ++ path ++ ": " ++ reason
  | workerFailed reason => "Worker task failed: " ++ reason
  | configuration text => "Configuration error: " ++ text
  | internal text => "Internal error: " ++ text ++ ". This is a bug, please report it."

/-- What a user can do about an error. -/
def suggestions : Error → List String
  | malformed path grammar _ =>
    ["'" ++ path ++ "' is not valid " ++ grammar,
      "Fix the syntax error or exclude the file from discovery"]
  | unsupported path _ =>
    ["Skipping: " ++ path,
      "Supported: .py scripts and .ini/.cfg/.conf/.env/.properties/.json/.yaml/.yml/.toml configs"]
  | unresolved name =>
    ["Bind '" ++ name ++ "' in the environment context",
      "Or declare a default for it in the template's variable schema"]
  | undeclared name =>
    ["Add '" ++ name ++ "' to the template's variable schema", "Escape a literal '$\x7b' as '$$\x7b'"]
  | invalidPolicy flaw =>
    ["Check the regeneration policy in your configuration", "Details: " ++ flaw.message]
  | unknownCategory _ => ["Try: reforge templates to see categories in use"]
  | invalidTemplate _ | invalidEnvironment _ => ["See documentation for more details"]
  | notFound what _ =>
    ["No " ++ what ++ " with that identifier",
      "Try: reforge templates to list what the catalog holds"]
  | catalogUnavailable _ =>
    ["Check the catalog path and its permissions",
      "Use --catalog memory to run without persistence"]
  | timeout _ _ | batchTimeout =>
    ["Raise regeneration.artifact_timeout_secs or batch_timeout_secs",
      "Or narrow the batch with --priority / --category"]
  | discoveryFailed path _ =>
    ["Failed to read: " ++ path, "Check that the root directory exists and is readable"]
  | duplicateRecord _ | workerFailed _ => ["Check the error details above"]
  | configuration text =>
    ["Configuration issue: " ++ text,
      "Run: reforge config show to inspect the effective configuration"]
  | internal _ =>
    ["This appears to be a bug in Reforge",
      "Re-run with -vvv and include the log when reporting it"]

/-! ### Classes -/

inductive Area where
  | parse
  | validation
  | notFound
  | configuration
  | internal
  deriving Repr, DecidableEq, Inhabited

def area : Error → Area
  | malformed .. | unsupported .. => .parse
  | invalidTemplate _ | undeclared _ | unresolved _ | invalidEnvironment _ => .validation
  | invalidPolicy _ | discoveryFailed .. | configuration _ => .configuration
  | unknownCategory _ | notFound .. => .notFound
  | catalogUnavailable _ | timeout .. | batchTimeout | duplicateRecord _ | workerFailed _
  | internal _ => .internal

/-- Whether trying again may help. -/
def isRetryable : Error → Bool
  | catalogUnavailable _ | timeout .. | batchTimeout => true
  | _ => false

/-- Whether an error ends a whole batch. -/
def isFatal : Error → Bool
  | catalogUnavailable _ | configuration _ => true
  | _ => false

theorem isFatal_iff (e : Error) :
    e.isFatal = true ↔ (∃ r, e = catalogUnavailable r) ∨ ∃ t, e = configuration t := by
  cases e <;> simp [isFatal]

/-- An error of another kind, told as an internal one under a heading. -/
def within (heading : String) (e : Error) : Error := internal (heading ++ ": " ++ e.message)

end Error

end Stencil
