import Stencil.Analysis
import Stencil.Extraction.Policy
import Stencil.Text.Lines

/-!
# The gate of extraction

An artifact passes the gate when its score reaches the threshold and enough structural checks pass.
-/

namespace Stencil

inductive Requirement where
  | errorHandling
  | logging
  | docstring
  | noAbsolutePaths
  | headerOrdering
  | domainTag
  deriving Repr, DecidableEq, Inhabited

namespace Requirement

def all : List Requirement :=
  [errorHandling, logging, docstring, noAbsolutePaths, headerOrdering, domainTag]

def name : Requirement → String
  | errorHandling => "error_handling"
  | logging => "logging"
  | docstring => "docstring"
  | noAbsolutePaths => "no_absolute_paths"
  | headerOrdering => "header_ordering"
  | domainTag => "domain_tag"

def text : Requirement → String
  | errorHandling => "error handling"
  | logging => "logging"
  | docstring => "docstring"
  | noAbsolutePaths => "no absolute paths"
  | headerOrdering => "header/import ordering"
  | domainTag => "domain pattern tag"

theorem length_all : all.length = Policy.checksInAll := rfl

def startsAbsolute : List Char → Bool
  | '/' :: cs =>
    let isPart (c : Char) : Bool := c != '/' && c != '"' && c != '\'' && !Text.isBlank c
    (cs.head?).any isPart && ((cs.dropWhile isPart).head?).any (· == '/')
  | d :: ':' :: c :: _ => d.isAlpha && (c == '\\' || c == '/')
  | _ => false

def quotesAbsolute : List Char → Bool
  | [] => false
  | c :: cs => ((c == '"' || c == '\'') && startsAbsolute cs) || quotesAbsolute cs

/-- What a script may begin with. -/
def openings : List String := ["#", "import ", "from ", "\"\"\"", "'''", "\"", "'"]

/-- Whether the first line of a script that is not blank is a comment, an import or a string. -/
def startsWell (cs : List Char) : Bool :=
  match ((Text.lines cs).map Text.trimStart).find? fun l => !l.isEmpty with
  | none => true
  | some line => openings.any fun o => o.toList.isPrefixOf line

def passes (a : Analysis) (artifact : Artifact) : Requirement → Bool
  | errorHandling => a.facts.handlesErrors
  | logging => a.facts.logs
  | docstring => a.facts.documented
  | noAbsolutePaths =>
    if artifact.kind.isScript then !quotesAbsolute artifact.content.toList
    else a.checklist.passed .pathAbstraction
  | headerOrdering =>
    if artifact.kind.isScript then startsWell artifact.content.toList
    else a.checklist.passed .header
  | domainTag => !a.domainTags.isEmpty

def toJson (r : Requirement) : Json := .str r.name

end Requirement

/-- What the gate says about an artifact. -/
structure Verdict where
  score : Float
  threshold : Float
  checks : List (Requirement × Bool)
  needed : Nat
  accepted : Bool
  deriving Repr, DecidableEq, Inhabited

namespace Verdict

def passedChecks (v : Verdict) : Nat := v.checks.countP (·.2)

def toJson (v : Verdict) : Json :=
  .obj [("compliance_score", .float v.score), ("threshold", .float v.threshold),
    ("checks", .arr (v.checks.map fun c => .arr [c.1.toJson, .bool c.2])),
    ("min_structural_checks", .nat v.needed), ("accepted", .bool v.accepted)]

end Verdict

def Policy.gate (p : Policy) (a : Analysis) (artifact : Artifact) : Verdict :=
  let checks := Requirement.all.map fun r => (r, r.passes a artifact)
  { score := a.score
    threshold := p.threshold
    checks
    needed := p.checks
    accepted := p.threshold ≤ a.score && p.checks ≤ checks.countP (·.2) }

end Stencil
