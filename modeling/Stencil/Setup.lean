import Stencil.Discovery.Rules
import Stencil.Environment
import Stencil.Settings
import Stencil.Setup.Files
import Stencil.Toml.Writer

/-!
# The setup of the program

Where the catalog is kept, where artifacts are looked for, how batches run, and the environments that
are known from the start. A setup is read from a file and from variables, in this order; what neither
says has its usual value.
-/

namespace Stencil

inductive Storage where
  | memory
  | database
  deriving Repr, DecidableEq, Inhabited

namespace Storage

def name : Storage → String
  | memory => "memory"
  | database => "sqlite"

def ofName? (s : String) : Option Storage := [memory, database].find? fun b => b.name == s

theorem ofName?_name (b : Storage) : ofName? b.name = some b := by cases b <;> rfl

/-- The storage of a JSON value; letters may be capitals. -/
def ofJson? : Json → Option Storage
  | .str s => ofName? (String.ofList (Text.lower s.toList))
  | .obj [(s, _)] => ofName? (String.ofList (Text.lower s.toList))
  | _ => none

end Storage

/-- What the program is set up with. -/
structure Setup where
  storage : Storage := .database
  catalogPath : Option Path := none
  root : Path := ⟨"."⟩
  rules : DiscoveryRules := {}
  settings : Settings := {}
  noColor : Bool := false
  environments : List Environment := []
  deriving Repr, Inhabited

/-- Why there is no setup. -/
inductive SetupError where
  /-- The file is not there, or it cannot be read. -/
  | unreadable
  | misshapen
  | invalid (error : Error)
  deriving Repr, Inhabited

namespace SetupError

/-- The wording of an error and of its causes, from the outermost on. -/
def chain : SetupError → List String
  | unreadable => ["failed to read configuration sources"]
  | misshapen => ["configuration has an invalid shape"]
  | invalid e => ["invalid [regeneration] settings", e.message]

end SetupError

namespace Setup

/-! ### Reading -/

/-- The settings of batches in the forms in which they are read. -/
def plainSettings : Json → Json :=
  onMembers fun
    | "environment" => asText
    | "artifact_timeout_secs" | "batch_timeout_secs" => asReal
    | "max_workers" => asCount
    | "extraction" => onMembers fun
      | "threshold" => asReal
      | "min_structural_checks" => asCount
      | _ => id
    | "weights" => onMembers fun _ => asByte
    | _ => id

/-- The environments in the forms in which they are read. -/
def plainEnvironments : Json → Json :=
  onItems <| onMembers fun
    | "environment_name" => asText
    | "variable_bindings" => onMembers fun _ => asText
    | _ => id

/-- The setup of an object; a missing member has its usual value. -/
def ofJson? (j : Json) : Option Setup := do
  let usual : Setup := {}
  let isTable (v : Json) : Option Json := if v.isObj then some v else none
  let catalog ← j.defaulted "catalog" (.obj []) isTable
  let discovery ← j.defaulted "discovery" (.obj []) isTable
  let output ← j.defaulted "output" (.obj []) isTable
  return {
    storage := ← catalog.defaulted "backend" usual.storage Storage.ofJson?,
    catalogPath := ← catalog.optional "path" fun v => Path.ofJson? (asText v),
    root := ← discovery.defaulted "root" usual.root fun v => Path.ofJson? (asText v),
    rules := ← DiscoveryRules.ofJson? discovery,
    settings := ← j.defaulted "regeneration" usual.settings fun v =>
      Settings.ofJson? (plainSettings v),
    noColor := ← output.defaulted "no_color" usual.noColor fun v => Json.asBool? (asFlag v),
    environments := ← j.defaulted "environments" usual.environments fun v =>
      Json.asList? Environment.ofJson? (plainEnvironments v) }

/-! ### Writing -/

def toJson? (s : Setup) : Option Json := do
  let root ← s.root.toJson?
  let discovery := match ← s.rules.toJson? with
    | .obj members => .obj (("root", root) :: members)
    | v => v
  return .obj [
    ("catalog", .obj (Json.present [("backend", some (.str s.storage.name)),
      ("path", ← s.catalogPath.mapM Path.toJson?)])),
    ("discovery", discovery),
    ("regeneration", s.settings.toJson),
    ("output", .obj [("no_color", .bool s.noColor)]),
    ("environments", .arr (s.environments.map Environment.toJson))]

/-- The setup as a TOML document; a path that is no text or a number that TOML has no place for makes it
impossible. -/
def document (s : Setup) : Option String := do
  match ← s.toJson? with
  | .obj members => (Toml.write members).map String.ofList
  | _ => none

/-! ### Places -/

/-- The directory of the program below the one that a variable names, or below one of the home
directory. -/
def directory? (vars : SortedMap String String) (source fallback : String) : Option Path :=
  match (vars.get? source).filter fun d => d.startsWith "/" with
  | some d => some ((Path.mk d).join "reforge")
  | none =>
    ((vars.get? "HOME").filter fun h => !h.isEmpty).map fun home =>
      ((Path.mk home).join fallback).join "reforge"

def usualFile (vars : SortedMap String String) : Path :=
  match directory? vars "XDG_CONFIG_HOME" ".config" with
  | some d => d.join "config.toml"
  | none => ⟨".reforge.toml"⟩

def usualCatalog (vars : SortedMap String String) : Path :=
  match directory? vars "XDG_DATA_HOME" ".local/share" with
  | some d => d.join "catalog.db"
  | none => ⟨".reforge/catalog.db"⟩

def catalogFile (s : Setup) (vars : SortedMap String String) : Path :=
  s.catalogPath.getD (usualCatalog vars)

/-! ### Loading -/

/-- The largest number of workers that is chosen without being asked for. -/
def maxWorkers : Nat := 8

/-- The setup of a file and of variables; a file that is named has to be there. -/
def load (files : FileTree) (vars : SortedMap String String) (named : Option Path)
    (processors : Nat) : Except SetupError Setup := do
  let path := named.getD (usualFile vars)
  let some layer := fileLayer? files path named.isSome | throw .unreadable
  let merged := setAll (setAll [] layer) (variableLayer vars)
  let some setup := ofJson? (.obj merged) | throw .misshapen
  let workers := setup.settings.workers.getD (min processors maxWorkers)
  let setup := { setup with settings := { setup.settings with workers := some workers } }
  match setup.settings.validate with
  | .ok _ => return setup
  | .error e => throw (.invalid e)

end Setup

end Stencil
