import Stencil.Batch
import Stencil.Command.Console
import Stencil.Text.Search

/-!
# Views

What is printed for the results of commands: the summary of a batch, an assessment of one artifact,
and a list of templates.
-/

namespace Stencil.Command

/-- A number with some decimal places. -/
def places (n : Nat) (x : Float) : String := String.ofList (Decimal.fixed n x)

/-- A blank line and lines after it, unless there are none. -/
def paragraph (c : Console) (lines : List String) : List String :=
  if lines.isEmpty then [] else c.line "" ++ lines

/-! ### Batches -/

def describe : Fate → String
  | .validated => "validated"
  | .invalid => "validation failed"
  | .belowGate => "below gate"
  | .failed kind => "failed (" ++ kind.name ++ ")"

def itemLine (i : Item) : String :=
  "  [" ++ i.priority.text ++ "] " ++ Text.padEnd 40 i.path.text ++ " " ++ i.category.name ++ " " ++
    describe i.fate

def failureLine (f : Stencil.Failure) : String :=
  "  " ++ f.kind.name ++ " " ++ f.path.text ++ ": " ++ f.message

def summaryView (c : Console) (details : Bool) (s : Summary) : List String :=
  let counts := s.byCategory.entries.map fun (name, count) =>
    "  " ++ Text.padEnd 24 name ++ " " ++ toString count
  let categories := if counts.isEmpty then [] else "By category:" :: counts
  let items := if details && !s.items.isEmpty then "Artifacts:" :: s.items.map itemLine else []
  let failures :=
    if s.failures.isEmpty then []
    else c.line "" ++ c.marked .warning "Failures:" ++ c.lines (s.failures.map failureLine)
  c.heading "Regeneration summary" ++
    c.lines [
      "  total " ++ toString s.total ++ "  succeeded " ++ toString s.succeeded ++ "  failed " ++
        toString s.failed ++ "  skipped " ++ toString s.skipped ++ "  (" ++
        places 2 s.duration.toFloat ++ "s)",
      "  validated " ++ toString s.validated ++ "  validation failed " ++ toString s.invalid] ++
    paragraph c (c.lines categories) ++ paragraph c (c.lines items) ++ failures ++
    if s.isClean then c.marked .success (toString s.validated ++ " templates regenerated") else []

/-! ### Assessments -/

/-- A line of names, if there are some. -/
def namesLine (label : String) (names : List String) : List String :=
  if names.isEmpty then [] else [label ++ Text.joinWith ", " names]

def assessmentView (c : Console) (a : Analysis) (v : Verdict) : List String :=
  c.heading a.path.text ++
    c.lines
      (["  kind        " ++ a.kind.text,
        "  category    " ++ a.category.name,
        "  compliance  " ++ places 1 a.score ++ " (threshold " ++ places 1 v.threshold ++ ")",
        "  complexity  " ++ places 1 a.complexity] ++
      namesLine "  tags        " a.tags ++
      namesLine "  imports     " a.dependencies ++
      namesLine "  functions   " a.functions ++
      namesLine "  missing     " (a.checklist.missing.map Signal.name) ++
      ["", "Structural checks (" ++ toString v.passedChecks ++ " of " ++ toString v.needed ++
        " required):"] ++
      v.checks.map (fun (check, passed) => "  " ++ (if passed then "✓" else "✗") ++ " " ++ check.text) ++
      [""]) ++
    if v.accepted then c.marked .success "Would be extracted as a template"
    else c.marked .info "Below the extraction gate; would be skipped"

def assessmentJson? (a : Analysis) (v : Verdict) : Option Json := do
  return .obj [("analysis", ← a.toJson?), ("verdict", v.toJson)]

/-! ### Listings -/

def lastUse (t : Template) : String :=
  match t.lastUsed with
  | some time => time.textWith fun _ => []
  | none => "never"

def tableLine (t : Template) : String :=
  "  " ++ Text.padEnd 32 t.name ++ " " ++ t.category.name ++ " " ++ t.kind.text ++ " score " ++
    Text.padStart 5 (places 1 t.effectiveness) ++ "  used " ++
    Text.padStart 3 (toString t.usage.toNat) ++ "  " ++ lastUse t

def csvLine (t : Template) : String :=
  Text.joinWith "," [t.id.text, t.name, t.category.name, t.kind.text, places 1 t.effectiveness,
    toString t.usage.toNat, lastUse t]

def listView (c : Console) (layout : Layout) (ts : List Template) : List String :=
  match layout with
  | .table =>
    if ts.isEmpty then c.marked .info "No templates match"
    else c.heading (toString ts.length ++ " template(s):") ++ c.lines (ts.map tableLine)
  | .names => c.lines (ts.map (·.name))
  | .csv =>
    c.line "id,name,category,kind,effectiveness,usage_count,last_used" ++ c.lines (ts.map csvLine)

end Stencil.Command
