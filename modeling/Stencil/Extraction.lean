import Stencil.Extraction.Gate
import Stencil.Extraction.Parameters
import Stencil.Template

/-!
# Extraction

A template is made of an artifact that passes the gate. Rendered for an environment that changes
nothing, it gives the artifact's text back.
-/

namespace Stencil.Extraction

def draft [Libraries] (a : Analysis) (artifact : Artifact) : Template.Draft :=
  let cs := artifact.content.toList
  let (content, vs) := parameterize 0 cs {} (inOrder (candidates artifact.kind cs))
  { name := artifact.stem
    category := a.category
    kind := artifact.kind
    content := some (String.ofList content)
    schema := vs.schema
    tags := a.tags
    dependencies := a.dependencies
    complexity := a.complexity
    effectiveness := a.score
    path := artifact.path }

/-- The template of an artifact, when it passes the gate. -/
def extract [Libraries] (p : Policy) (a : Analysis) (artifact : Artifact) (newId : Identifier) (now : Instant) :
    Except Error (Option Template) :=
  if (p.gate a artifact).accepted then (Template.ofDraft (draft a artifact) newId now).map some
  else .ok none

end Stencil.Extraction
