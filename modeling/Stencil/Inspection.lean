import Stencil.Categorization
import Stencil.Inspection.Configuration
import Stencil.Inspection.Script

/-!
# Inspection

The analysis of an artifact: its grammar is read, its profile is made, and the profile is scored. An
artifact that is not in its grammar has no analysis but the first issue of its text.
-/

namespace Stencil.Inspection

/-- The profile of a script whose tree has no issues, or its first issue. -/
def profileOfScript [Libraries] (cs : List Char) : Except Issue Profile := do
  let tree ← Libraries.script cs
  match tree.issues cs with
  | issue :: _ => .error issue
  | [] => .ok (scriptProfile tree cs)

def profileOfConfiguration [Libraries] (format : Format) (cs : List Char) : Except Issue Profile :=
  match format.document cs with
  | .ok doc => .ok (configurationProfile format doc cs)
  | .error issues => .error (issues.headD ⟨.start, .reported "invalid document"⟩)

def profile [Libraries] (a : Artifact) : Except Issue Profile :=
  match a.kind with
  | .script => profileOfScript a.content.toList
  | .config format => profileOfConfiguration format a.content.toList

def assess (w : Weights) (a : Artifact) (p : Profile) : Analysis :=
  let checklist := Checklist.of w p.signals.contains
  let tags := p.allTags a.content.toList
  { path := a.path
    digest := a.digest
    kind := a.kind
    tags
    dependencies := p.dependencies
    functions := p.functions
    classes := p.classes
    facts := p.facts
    complexity := p.complexity a.lineCount
    checklist
    score := Profile.twoPlaces checklist.score
    category := Categorization.categorize a tags }

def analyze [Libraries] (w : Weights) (a : Artifact) : Except Error Analysis :=
  match profile a with
  | .ok p => .ok (assess w a p)
  | .error issue => .error (.malformed a.path.text a.kind.grammarName issue)

end Stencil.Inspection
