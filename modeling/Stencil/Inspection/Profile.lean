import Stencil.Analysis
import Stencil.Decimal.Notation
import Stencil.Text.Lower
import Stencil.Text.Search

/-!
# Profiles

What a grammar shows about an artifact, before scores are made of it.
-/

namespace Stencil

/-- What a grammar shows about an artifact. -/
structure Profile where
  tags : List String := []
  dependencies : List String := []
  functions : List String := []
  classes : List String := []
  facts : Facts := {}
  signals : List Signal := []
  deriving Repr, DecidableEq, Inhabited

namespace Profile

def domains : List (String × List String) :=
  [("ANTI_RECURSION_PROTECTION", ["anti_recursion", "recursion", "forbidden_patterns"]),
    ("VISUAL_PROCESSING_INDICATORS", ["tqdm", "progress", "visual", "indicator"]),
    ("DATABASE_INTEGRATION", ["sqlite3", "database", "production.db"]),
    ("ENTERPRISE_COMPLIANCE", ["enterprise", "compliance", "validation"]),
    ("FRAMEWORK_INTEGRATION", ["framework", "orchestrator", "step1", "step2"]),
    ("SESSION_MANAGEMENT", ["session", "session_id"]),
    ("PERFORMANCE_MONITORING", ["performance", "metrics", "monitoring"])]

def domainTags (lowered : List Char) : List String :=
  (domains.filter fun d => d.2.any fun word => Text.containsString word lowered).map (·.1)

/-- The tags of structure and of domains, in order and each once. -/
def allTags (p : Profile) (content : List Char) : List String :=
  (SortedSet.ofList (p.tags ++ domainTags (Text.lower content))).keys

/-- A number with two decimal places. -/
def twoPlaces (x : Float) : Float := Decimal.round2 x

/-- The complexity of an artifact: at most 100. -/
def complexity (p : Profile) (lines : Nat) : Float :=
  let raw := lines.toFloat * 0.1 + p.functions.length.toFloat * 2 + p.classes.length.toFloat * 3 +
    p.facts.nesting.toFloat * 5 + p.facts.handlers.toFloat * 2 + p.facts.imports.toFloat
  twoPlaces (if raw ≤ 100 then raw else 100)

end Profile

end Stencil
