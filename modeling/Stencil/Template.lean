import Stencil.Category
import Stencil.Digest
import Stencil.Extraction.Policy
import Stencil.Identifier
import Stencil.Instant
import Stencil.Kind
import Stencil.Placeholder
import Stencil.Variable

/-!
# Templates

A template is a text with placeholders, the declarations of its variables, where it comes from and
how well it did. Two templates with the same key, which is name, category and digest of the text, are
the same template. `order` is the order of listings.
-/

namespace Stencil

namespace Instant

def toJson (t : Instant) : Json := .str t.text

def ofJson? (j : Json) : Option Instant := j.asString?.bind ofText?

end Instant

namespace Identifier

def toJson (i : Identifier) : Json := .str i.text

def ofJson? (j : Json) : Option Identifier := j.asString?.bind ofText?

end Identifier

/-- A text with variables, and what the catalog knows about it. -/
structure Template where
  id : Identifier
  name : String
  category : Category
  kind : Kind
  content : String
  /-- The digest of the content. -/
  digest : Digest
  schema : Schema
  tags : List String
  dependencies : List String
  complexity : Float
  effectiveness : Float
  usage : UInt64
  /-- The environments that the template is for; none means any. -/
  environments : SortedSet String
  path : Path
  createdAt : Instant
  updatedAt : Instant
  lastUsed : Option Instant
  deriving Repr, DecidableEq, Inhabited

namespace Template

/-! ### Validity -/

/-- The first variable of the content that is not declared. -/
def undeclared? (content : String) (schema : Schema) : Option String :=
  ((Placeholder.names content.toList).map String.ofList).find? fun n => !schema.contains n

def checkDeclared (t : Template) : Except Error Unit :=
  match undeclared? t.content t.schema with
  | some name => .error (.undeclared name)
  | none => .ok ()

def validate (t : Template) : Except Error Unit := do
  if Text.allBlank t.name.toList then throw (.invalidTemplate .nameEmpty)
  if let some name := t.schema.keys.find? fun n => !Placeholder.isName n.toList then
    throw (.invalidTemplate (.variableName name))
  t.checkDeclared
  if t.digest ≠ .of t.content then throw (.invalidTemplate .staleDigest)
  if !inPercent t.complexity then
    throw (.invalidTemplate (.scoreOutside "complexity_score" t.complexity))
  if !inPercent t.effectiveness then
    throw (.invalidTemplate (.scoreOutside "effectiveness_score" t.effectiveness))

/-! ### Making a template -/

/-- What a template is made from. -/
structure Draft where
  id : Option Identifier := none
  name : Option String := none
  category : Category := .generalPurpose
  kind : Option Kind := none
  content : Option String := none
  schema : Schema := .empty
  tags : List String := []
  dependencies : List String := []
  complexity : Float := 0
  effectiveness : Float := 0
  environments : SortedSet String := .empty
  path : Path := ⟨""⟩
  deriving Inhabited

/-- The valid template of a draft; a draft without identifier gets a new one. -/
def ofDraft (d : Draft) (newId : Identifier) (now : Instant) : Except Error Template := do
  let some name := d.name | throw (.invalidTemplate .nameMissing)
  let some kind := d.kind | throw (.invalidTemplate .kindMissing)
  let some content := d.content | throw (.invalidTemplate .contentMissing)
  let t : Template := {
    id := d.id.getD newId, name, category := d.category, kind, content, digest := .of content,
    schema := d.schema, tags := d.tags, dependencies := d.dependencies,
    complexity := d.complexity, effectiveness := d.effectiveness, usage := 0,
    environments := d.environments, path := d.path, createdAt := now, updatedAt := now,
    lastUsed := none }
  t.validate
  return t

/-! ### Identity, environments and order -/

/-- What tells templates apart. -/
structure Key where
  name : String
  category : Category
  digest : Digest
  deriving Repr, DecidableEq, Inhabited

def key (t : Template) : Key := ⟨t.name, t.category, t.digest⟩

def fits (t : Template) (environment : String) : Bool :=
  t.environments.isEmpty || t.environments.contains environment

/-- Total order of doubles by their bits: negative numbers come first and the sign of zero counts. -/
def scoreRank (x : Float) : Int :=
  let bits := x.toBits
  if bits >>> 63 = 0 then (bits.toNat : Int) else -1 - ((bits &&& 0x7fffffffffffffff).toNat : Int)

/-- Order of listings: more effective first, then more used, then by name and identifier. -/
def order (a b : Template) : Ordering :=
  (compare (scoreRank b.effectiveness) (scoreRank a.effectiveness)).then <|
    (compare b.usage.toNat a.usage.toNat).then <|
      (compare a.name b.name).then (compare a.id b.id)

/-! ### JSON -/

/-- The JSON form of a template, given that of its path. -/
def jsonAt (t : Template) (path : Json) : Json :=
  .obj [("id", t.id.toJson), ("name", .str t.name), ("category", t.category.toJson),
    ("kind", t.kind.toJson), ("parameterized_content", .str t.content),
    ("content_hash", t.digest.toJson), ("variable_schema", .ofMap Variable.toJson t.schema),
    ("pattern_tags", .strs t.tags), ("dependencies", .strs t.dependencies),
    ("complexity_score", .float t.complexity), ("effectiveness_score", .float t.effectiveness),
    ("usage_count", .nat t.usage.toNat), ("environments", .ofSet t.environments),
    ("source_path", path), ("created_at", t.createdAt.toJson),
    ("updated_at", t.updatedAt.toJson),
    ("last_used", (t.lastUsed.map Instant.toJson).getD .null)]

def toJson? (t : Template) : Option Json := t.path.toJson?.map t.jsonAt

def ofJson? (j : Json) : Option Template := do
  let j ← j.asRecord? ["id", "name", "category", "kind", "parameterized_content", "content_hash",
    "variable_schema", "pattern_tags", "dependencies", "complexity_score", "effectiveness_score",
    "usage_count", "environments", "source_path", "created_at", "updated_at", "last_used"]
  let strings (key : String) := j.required key (Json.asList? Json.asString?)
  return {
    id := ← j.required "id" Identifier.ofJson?,
    name := ← j.required "name" Json.asString?,
    category := ← j.required "category" Category.ofJson?,
    kind := ← j.required "kind" Kind.ofJson?,
    content := ← j.required "parameterized_content" Json.asString?,
    digest := ← j.required "content_hash" Digest.ofJson?,
    schema := ← j.required "variable_schema" (Json.asMap? Variable.ofJson?),
    tags := ← strings "pattern_tags",
    dependencies := ← strings "dependencies",
    complexity := ← j.required "complexity_score" Json.asFloat?,
    effectiveness := ← j.required "effectiveness_score" Json.asFloat?,
    usage := ← j.required "usage_count" fun v => (v.asNat? 64).map UInt64.ofNat,
    environments := ← j.required "environments" Json.asSet?,
    path := ← j.required "source_path" Path.ofJson?,
    createdAt := ← j.required "created_at" Instant.ofJson?,
    updatedAt := ← j.required "updated_at" Instant.ofJson?,
    lastUsed := ← j.optional "last_used" Instant.ofJson? }

end Template

end Stencil
