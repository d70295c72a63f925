import Stencil.Artifact
import Stencil.Category
import Stencil.Compliance

/-!
# Analyses

What the inspection of an artifact finds: its tags, its structure, its scores and its category.
-/

namespace Stencil

/-- Facts about the structure of an artifact. -/
structure Facts where
  nesting : Nat := 0
  handlers : Nat := 0
  imports : Nat := 0
  handlesErrors : Bool := false
  logs : Bool := false
  documented : Bool := false
  guarded : Bool := false
  deriving Repr, DecidableEq, Inhabited

namespace Facts

def toJson (f : Facts) : Json :=
  .obj [("max_nesting_depth", .nat f.nesting), ("exception_handler_count", .nat f.handlers),
    ("import_count", .nat f.imports), ("has_error_handling", .bool f.handlesErrors),
    ("has_logging", .bool f.logs), ("has_documentation", .bool f.documented),
    ("has_entry_guard", .bool f.guarded)]

def ofJson? (j : Json) : Option Facts := do
  let j ← j.asRecord? ["max_nesting_depth", "exception_handler_count", "import_count",
    "has_error_handling", "has_logging", "has_documentation", "has_entry_guard"]
  return {
    nesting := ← j.required "max_nesting_depth" (Json.asNat? 64),
    handlers := ← j.required "exception_handler_count" (Json.asNat? 64),
    imports := ← j.required "import_count" (Json.asNat? 64),
    handlesErrors := ← j.required "has_error_handling" Json.asBool?,
    logs := ← j.required "has_logging" Json.asBool?,
    documented := ← j.required "has_documentation" Json.asBool?,
    guarded := ← j.required "has_entry_guard" Json.asBool? }

end Facts

/-- What is found out about one artifact. -/
structure Analysis where
  path : Path
  digest : Digest
  kind : Kind
  tags : List String
  /-- Base names of the modules that a script imports, by first appearance. -/
  dependencies : List String
  functions : List String
  classes : List String
  facts : Facts
  complexity : Float
  checklist : Checklist
  /-- The compliance score that the gate looks at. -/
  score : Float
  category : Category
  deriving Repr, DecidableEq, Inhabited

namespace Analysis

def hasTag (a : Analysis) (tag : String) : Bool := a.tags.contains tag

def isDomainTag (tag : String) : Bool := tag.toList.all fun c => c.isUpper || c == '_'

def domainTags (a : Analysis) : List String := a.tags.filter isDomainTag

/-- The same findings for an artifact at another path. -/
def atPath (a : Analysis) (path : Path) : Analysis := { a with path }

def toJson? (a : Analysis) : Option Json := do
  return .obj [("source_path", ← a.path.toJson?), ("content_hash", a.digest.toJson), ("kind", a.kind.toJson),
    ("pattern_tags", .strs a.tags), ("dependencies", .strs a.dependencies),
    ("functions", .strs a.functions), ("classes", .strs a.classes), ("facts", a.facts.toJson),
    ("complexity_score", .float a.complexity), ("compliance", a.checklist.toJson),
    ("compliance_score", .float a.score), ("category", a.category.toJson)]

def ofJson? (j : Json) : Option Analysis := do
  let j ← j.asRecord? ["source_path", "content_hash", "kind", "pattern_tags", "dependencies",
    "functions", "classes", "facts", "complexity_score", "compliance", "compliance_score",
    "category"]
  let strings (key : String) := j.required key (Json.asList? Json.asString?)
  return {
    path := ← j.required "source_path" Path.ofJson?,
    digest := ← j.required "content_hash" Digest.ofJson?,
    kind := ← j.required "kind" Kind.ofJson?,
    tags := ← strings "pattern_tags",
    dependencies := ← strings "dependencies",
    functions := ← strings "functions",
    classes := ← strings "classes",
    facts := ← j.required "facts" Facts.ofJson?,
    complexity := ← j.required "complexity_score" Json.asFloat?,
    checklist := ← j.required "compliance" Checklist.ofJson?,
    score := ← j.required "compliance_score" Json.asFloat?,
    category := ← j.required "category" Category.ofJson? }

end Analysis

end Stencil
