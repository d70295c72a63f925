import Stencil.Catalog.Call
import Stencil.Rendering

/-!
# Commits

What one rendered artifact does to a catalog: its template is stored and counted, a record goes into
the history, and the effectiveness of the template becomes the mean over one more rendering. `blend`
is that mean over any numbers.
-/

namespace Stencil

/-- A mean of `samples` numbers and one number more, as if one were in it that is not counted. -/
def blend {α : Type} [Add α] [Mul α] [Div α] [OfNat α 1] (mean samples observed : α) : α :=
  (mean * samples + observed) / (samples + 1)

/-- A template with its rendering and what the validation found. -/
structure Regenerated where
  template : Template
  rendering : Rendering
  outcome : Outcome
  deriving Repr, DecidableEq, Inhabited

namespace Regenerated

/-- The score of the rendering alone. -/
def observed (r : Regenerated) : Float := if r.outcome.passed then 100 else 0

/-- The record of the rendering, under the identifier that the template is stored under. -/
def record (r : Regenerated) (path : Path) (stored id : Identifier) (now : Instant) : Record where
  id
  template := stored
  environment := r.rendering.environment
  path
  content := r.rendering.content
  outcome := r.outcome
  time := now

variable {σ : Type} [Catalog.Backend σ]

open Catalog (perform)

/-- Commits a rendering of the artifact at `path`, and answers what its template is stored under. -/
def commit (r : Regenerated) (path : Path) (recordId : Identifier) (now : Instant) :
    Catalog.Action σ Identifier := do
  let id ← perform (.put r.template) now
  perform (.recordUsage id) now
  perform (.appendRecord (r.record path id recordId now)) now
  let stored ← perform (.get id) now
  let score := blend stored.effectiveness stored.usage.toFloat r.observed
  perform (.updateEffectiveness id score) now
  return id

end Regenerated

end Stencil
