import Stencil.Inspection.Walk
import Stencil.Text.Lines
import Stencil.Text.Word

/-!
# Inspection of scripts

The profile of a script is what a walk over its syntax tree gathers, and what its text and the fronts of
its blocks show.
-/

namespace Stencil.Script

/-! ### Facts of trees -/

def Form.isDefinition : Form → Bool
  | functionDefinition _ | classDefinition => true
  | _ => false

namespace Node

def startsWithString (block : Node) : Bool :=
  match block.parts.find? fun p => p.form != .comment with
  | some s => s.form == .expressionStatement && (s.parts.head?).any fun x => x.form == .string
  | none => false

def isDocumented (n : Node) : Bool :=
  n.startsWithString || n.preorder.any fun m =>
    m.form.isDefinition && (m.part? .body).any startsWithString

/-- Whether the script has a statement that is run only when the script is the program. -/
def isGuarded (source : List Char) (n : Node) : Bool :=
  n.parts.any fun p => p.form == .ifStatement && (p.part? .condition).any fun c =>
    let text := c.text source
    Text.containsString "__name__" text && Text.containsString "__main__" text

end Node

end Stencil.Script

namespace Stencil.Inspection

open Script

/-! ### Facts of texts -/

def loggers : List String := ["logger", "logging", "log"]

def logMethods : List String :=
  ["debug", "info", "warning", "warn", "error", "exception", "critical"]

/-- Whether a text begins with a call of a logger. -/
def startsLogCall (cs : List Char) : Bool :=
  loggers.any fun l =>
    match Text.dropPrefix? (l ++ ".").toList cs with
    | some rest => logMethods.any fun m => (m ++ "(").toList.isPrefixOf rest
    | none => false

/-- Whether a logger is called somewhere; `inWord` says whether a word goes on here. -/
def hasLogCall (inWord : Bool) : List Char → Bool
  | [] => false
  | c :: cs => (!inWord && startsLogCall (c :: cs)) || hasLogCall (Text.isWordChar c) cs

def hasHeader (cs : List Char) : Bool :=
  "#!".toList.isPrefixOf cs ||
    match Text.lines cs with
    | ('#' :: line) :: _ => Text.containsString "coding:" line || Text.containsString "coding=" line
    | _ => false

/-! ### Profiles -/

def scriptLogs (dependencies : List String) (cs : List Char) : Bool :=
  dependencies.any ["logging", "loguru", "structlog"].contains || hasLogCall false cs

/-- The facts that a walk gathered, with those that it does not look for. -/
def scriptFacts (tree : Node) (cs : List Char) (gathered : Profile) : Facts :=
  { gathered.facts with
    logs := scriptLogs gathered.dependencies cs
    documented := tree.isDocumented
    guarded := tree.isGuarded cs }

def scriptShows (cs : List Char) (walk : Walk) (facts : Facts) (uses : List String → Bool) :
    Signal → Bool
  | .logging => facts.logs
  | .errorHandling => facts.handlesErrors
  | .docstring => facts.documented
  | .typeAnnotations => !walk.profile.functions.isEmpty && walk.untyped == 0
  | .entryGuard => facts.guarded
  | .header => hasHeader cs
  | .externalConfig =>
    uses ["configparser", "dotenv", "yaml", "toml", "tomllib", "json", "argparse", "click"] ||
      Text.containsString "os.environ" cs || Text.containsString "getenv(" cs
  | .persistence =>
    uses ["sqlite3", "sqlalchemy", "psycopg2", "psycopg", "pymongo", "redis", "shelve", "pickle",
      "peewee", "duckdb"]
  | .progress =>
    uses ["tqdm", "rich", "alive_progress", "progressbar"] ||
      Text.containsString "progress" (Text.lower cs)
  | .pathAbstraction =>
    uses ["pathlib"] || Text.containsString "os.path" cs || Text.containsString "Path(" cs

def scriptProfile (tree : Node) (cs : List Char) : Profile :=
  let walk := Walk.gather cs tree
  let gathered := walk.profile
  let facts := scriptFacts tree cs gathered
  { gathered with
    facts
    signals := Signal.all.filter
      (scriptShows cs walk facts fun modules => gathered.dependencies.any modules.contains) }

end Stencil.Inspection
