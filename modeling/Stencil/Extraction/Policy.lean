import Stencil.Error
import Stencil.Json.Fields

/-!
# The policy of extraction

An artifact becomes a template when its score reaches a threshold and enough structural checks pass.
-/

namespace Stencil

def inPercent (x : Float) : Bool := 0 ≤ x && x ≤ 100

/-- What an artifact needs to become a template. -/
structure Policy where
  /-- The least score. -/
  threshold : Float := 70
  /-- The least number of structural checks. -/
  checks : Nat := 4
  deriving Repr, DecidableEq, Inhabited

namespace Policy

def checksInAll : Nat := 6

/-- Refuses a threshold or a number of checks that cannot be reached. -/
def validate (p : Policy) : Except Error Unit :=
  if !inPercent p.threshold then .error (.invalidPolicy (.thresholdOutside p.threshold))
  else if checksInAll < p.checks then .error (.invalidPolicy (.tooManyChecks p.checks))
  else .ok ()

def toJson (p : Policy) : Json :=
  .obj [("threshold", .float p.threshold), ("min_structural_checks", .nat p.checks)]

/-- The policy of a JSON value; a missing field has its usual value. -/
def ofJson? (j : Json) : Option Policy := do
  let j ← j.asRecord? ["threshold", "min_structural_checks"]
  let usual : Policy := {}
  return {
    threshold := ← j.defaulted "threshold" usual.threshold Json.asFloat?,
    checks := ← j.defaulted "min_structural_checks" usual.checks (Json.asNat? 64) }

end Policy

end Stencil
