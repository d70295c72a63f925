import Stencil.Compliance
import Stencil.Instant
import Stencil.Extraction.Policy
import Stencil.Text.Blank

/-!
# The settings of a batch
-/

namespace Stencil

namespace Duration

def toJson (d : Duration) : Json := .float d.toFloat

def ofJson? (j : Json) : Option Duration := j.asFloat?.bind Duration.ofFloat?

end Duration

structure Settings where
  environment : String := "production"
  artifactTime : Duration := .ofSeconds 30
  batchTime : Duration := .ofSeconds 300
  /-- The number of workers; the machine decides when it is not given. -/
  workers : Option Nat := none
  extraction : Policy := {}
  weights : Weights := {}
  deriving Repr, DecidableEq, Inhabited

namespace Settings

/-- Refuses settings that no batch can run with. -/
def validate (s : Settings) : Except Error Unit := do
  if Text.allBlank s.environment.toList then throw (.invalidPolicy .environmentEmpty)
  if s.workers = some 0 then throw (.invalidPolicy .noWorkers)
  if s.artifactTime.nanoseconds = 0 ∨ s.batchTime.nanoseconds = 0 then
    throw (.invalidPolicy .noTime)
  s.extraction.validate
  s.weights.validate

def toJson (s : Settings) : Json :=
  .obj [("environment", .str s.environment), ("artifact_timeout_secs", s.artifactTime.toJson),
    ("batch_timeout_secs", s.batchTime.toJson),
    ("max_workers", (s.workers.map Json.nat).getD .null),
    ("extraction", s.extraction.toJson), ("weights", s.weights.toJson)]

/-- The settings of a JSON value; a missing field has its usual value. -/
def ofJson? (j : Json) : Option Settings := do
  let j ← j.asRecord? ["environment", "artifact_timeout_secs", "batch_timeout_secs", "max_workers",
    "extraction", "weights"]
  let usual : Settings := {}
  return {
    environment := ← j.defaulted "environment" usual.environment Json.asString?,
    artifactTime := ← j.defaulted "artifact_timeout_secs" usual.artifactTime Duration.ofJson?,
    batchTime := ← j.defaulted "batch_timeout_secs" usual.batchTime Duration.ofJson?,
    workers := ← j.defaulted "max_workers" usual.workers fun v => (v.asNat? 64).map some,
    extraction := ← j.defaulted "extraction" usual.extraction Policy.ofJson?,
    weights := ← j.defaulted "weights" usual.weights Weights.ofJson? }

end Settings

end Stencil
