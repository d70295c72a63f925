import Stencil.Outcome
import Stencil.Template

/-!
# Records

One rendering of a template for an environment, as it is kept in the history. Records are never
changed; they are listed from the oldest to the newest.
-/

namespace Stencil

structure Record where
  id : Identifier
  template : Identifier
  environment : String
  path : Path
  content : String
  outcome : Outcome
  time : Instant
  deriving Repr, DecidableEq, Inhabited

namespace Record

/-- Order of the history: by time, then by identifier. -/
def order (a b : Record) : Ordering := (a.time.compare b.time).then (compare a.id b.id)

/-- The JSON form of a record, given that of its path. -/
def jsonAt (r : Record) (path : Json) : Json :=
  .obj [("generation_id", r.id.toJson), ("template_id", r.template.toJson),
    ("environment_name", .str r.environment), ("source_path", path),
    ("rendered_content", .str r.content), ("validation_outcome", r.outcome.toJson),
    ("generated_at", r.time.toJson)]

def toJson? (r : Record) : Option Json := r.path.toJson?.map r.jsonAt

def ofJson? (j : Json) : Option Record := do
  let j ← j.asRecord? ["generation_id", "template_id", "environment_name", "source_path",
    "rendered_content", "validation_outcome", "generated_at"]
  return {
    id := ← j.required "generation_id" Identifier.ofJson?,
    template := ← j.required "template_id" Identifier.ofJson?,
    environment := ← j.required "environment_name" Json.asString?,
    path := ← j.required "source_path" Path.ofJson?,
    content := ← j.required "rendered_content" Json.asString?,
    outcome := ← j.required "validation_outcome" Outcome.ofJson?,
    time := ← j.required "generated_at" Instant.ofJson? }

end Record

end Stencil
