import Stencil.Catalog.Relational
import Stencil.Json.Reader

/-!
# Catalogs as documents

A catalog in tables as one JSON document, in the form in which it is kept in a file. The rows stand in
the order in which they came.
-/

namespace Stencil.Catalog

/-- A counter as JSON; one that is no counter any more is null. -/
def Counter.toJson : Counter → Json
  | word n => .num (.int n)
  | outgrown => .null

def Counter.ofJson? : Json → Option Counter
  | .num (.int n) => if Decimal.isSignedWord 64 n then some (word n) else none
  | .null => some outgrown
  | _ => none

theorem Counter.ofJson?_outgrown : ofJson? outgrown.toJson = some outgrown := rfl

def TemplateRow.toJson (r : TemplateRow) : Json :=
  .obj <| Json.present [("id", some r.id.toJson), ("name", some (.str r.key.name)),
    ("category", some r.key.category.toJson), ("digest", some r.key.digest.toJson),
    ("effectiveness", some (.float r.effectiveness)), ("usage", some r.usage.toJson),
    ("updated_at", some (.str r.updatedAt)), ("last_used", r.lastUsed.map .str),
    ("body", some r.body)]

def TemplateRow.ofJson? (j : Json) : Option TemplateRow := do
  let key : Template.Key := ⟨← j.required "name" Json.asString?,
    ← j.required "category" Category.ofJson?, ← j.required "digest" Digest.ofJson?⟩
  return {
    id := ← j.required "id" Identifier.ofJson?,
    key := key,
    effectiveness := ← j.required "effectiveness" Json.asFloat?,
    usage := ← j.required "usage" Counter.ofJson?,
    updatedAt := ← j.required "updated_at" Json.asString?,
    lastUsed := ← j.optional "last_used" Json.asString?,
    body := ← j.get? "body" }

def EnvironmentRow.toJson (r : EnvironmentRow) : Json :=
  .obj [("name", .str r.name), ("body", r.body)]

def EnvironmentRow.ofJson? (j : Json) : Option EnvironmentRow := do
  return { name := ← j.required "name" Json.asString?, body := ← j.get? "body" }

def RecordRow.toJson (r : RecordRow) : Json :=
  .obj [("id", r.id.toJson), ("template", r.template.toJson), ("environment", .str r.environment),
    ("body", r.body)]

def RecordRow.ofJson? (j : Json) : Option RecordRow := do
  return {
    id := ← j.required "id" Identifier.ofJson?,
    template := ← j.required "template" Identifier.ofJson?,
    environment := ← j.required "environment" Json.asString?,
    body := ← j.get? "body" }

namespace Relational

def toJson (r : Relational) : Json :=
  .obj [("templates", .arr (r.templates.map TemplateRow.toJson)),
    ("environments", .arr (r.environments.map EnvironmentRow.toJson)),
    ("records", .arr (r.history.map RecordRow.toJson))]

def ofJson? (j : Json) : Option Relational := do
  return {
    templates := ← j.required "templates" (Json.asList? TemplateRow.ofJson?),
    environments := ← j.required "environments" (Json.asList? EnvironmentRow.ofJson?),
    history := ← j.required "records" (Json.asList? RecordRow.ofJson?) }

def document (r : Relational) : String := r.toJson.render

def ofDocument? (text : String) : Option Relational :=
  match Json.parse text.toList with
  | .ok j => ofJson? j
  | .error _ => none

end Relational

end Stencil.Catalog
