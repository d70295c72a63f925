import Stencil.Priority
import Stencil.Settings
import Stencil.Template

/-!
# Summaries of batches

What became of each artifact of a batch, and how many fared alike. `tally_partition` says that the
four counts of outcomes add up to the number of items.
-/

namespace Stencil

inductive FailureKind where
  | parseError
  | unresolvedVariable
  | validationFailed
  | timeout
  | batchTimeout
  | internal
  deriving Repr, DecidableEq, Inhabited

namespace FailureKind

def all : List FailureKind :=
  [parseError, unresolvedVariable, validationFailed, timeout, batchTimeout, internal]

def name : FailureKind → String
  | parseError => "PARSE_ERROR"
  | unresolvedVariable => "UNRESOLVED_VARIABLE"
  | validationFailed => "VALIDATION_FAILED"
  | timeout => "TIMEOUT"
  | batchTimeout => "BATCH_TIMEOUT"
  | internal => "INTERNAL"

def ofName? (s : String) : Option FailureKind := all.find? fun k => k.name == s

def of : Error → FailureKind
  | .malformed .. => parseError
  | .unresolved _ | .undeclared _ => unresolvedVariable
  | .timeout .. => timeout
  | .batchTimeout => batchTimeout
  | _ => internal

def toJson (k : FailureKind) : Json := .str k.name

def ofJson? (j : Json) : Option FailureKind := j.asCase?.bind ofName?

end FailureKind

structure Failure where
  path : Path
  kind : FailureKind
  message : String
  deriving Repr, DecidableEq, Inhabited

namespace Failure

def toJson? (f : Failure) : Option Json := do
  return .obj [("artifact", ← f.path.toJson?), ("kind", f.kind.toJson), ("message", .str f.message)]

def ofJson? (j : Json) : Option Failure := do
  let j ← j.asRecord? ["artifact", "kind", "message"]
  return {
    path := ← j.required "artifact" Path.ofJson?,
    kind := ← j.required "kind" FailureKind.ofJson?,
    message := ← j.required "message" Json.asString? }

end Failure

/-- What became of one artifact. -/
inductive Fate where
  /-- Rendered, and found valid. -/
  | validated
  /-- Rendered, and found invalid. -/
  | invalid
  /-- Not good enough for a template. -/
  | belowGate
  | failed (kind : FailureKind)
  deriving Repr, DecidableEq, Inhabited

namespace Fate

def isRendered : Fate → Bool
  | validated | invalid => true
  | _ => false

def toJson : Fate → Json
  | validated => .obj [("status", .str "validated")]
  | invalid => .obj [("status", .str "validation_failed")]
  | belowGate => .obj [("status", .str "below_gate")]
  | failed k => .obj [("status", .str "failed"), ("kind", k.toJson)]

def ofJson? (j : Json) : Option Fate := do
  let j ← j.asRecord? ["status", "kind"]
  let plain (f : Fate) : Option Fate :=
    match j.get? "kind" with
    | none | some .null => some f
    | some _ => none
  match ← (← j.get? "status").asCase? with
  | "validated" => plain validated
  | "validation_failed" => plain invalid
  | "below_gate" => plain belowGate
  | "failed" => return failed (← j.required "kind" FailureKind.ofJson?)
  | _ => none

end Fate

structure Item where
  path : Path
  name : String
  priority : Priority
  category : Category
  fate : Fate
  template : Option Identifier := none
  score : Option Float := none
  deriving Repr, DecidableEq, Inhabited

namespace Item

def toJson? (i : Item) : Option Json := do
  return .obj <| Json.present [("source_path", some (← i.path.toJson?)), ("name", some (.str i.name)),
    ("priority", some i.priority.toJson), ("category", some i.category.toJson),
    ("outcome", some i.fate.toJson), ("template_id", i.template.map Identifier.toJson),
    ("compliance_score", i.score.map Json.float)]

def ofJson? (j : Json) : Option Item := do
  let j ← j.asRecord? ["source_path", "name", "priority", "category", "outcome", "template_id",
    "compliance_score"]
  return {
    path := ← j.required "source_path" Path.ofJson?,
    name := ← j.required "name" Json.asString?,
    priority := ← j.required "priority" Priority.ofJson?,
    category := ← j.required "category" Category.ofJson?,
    fate := ← j.required "outcome" Fate.ofJson?,
    template := ← j.optional "template_id" Identifier.ofJson?,
    score := ← j.optional "compliance_score" Json.asFloat? }

end Item

/-- What became of a whole batch. -/
structure Summary where
  total : Nat
  succeeded : Nat
  failed : Nat
  validated : Nat
  invalid : Nat
  skipped : Nat
  byCategory : SortedMap String Nat
  duration : Duration
  failures : List Failure
  items : List Item
  deriving Repr, DecidableEq, Inhabited

namespace Summary

def count (p : Fate → Bool) (items : List Item) : Nat := items.countP fun i => p i.fate

def isFailed : Fate → Bool
  | .failed _ => true
  | _ => false

/-- The number of items of each category that occurs. -/
def categoryCounts (items : List Item) : SortedMap String Nat :=
  items.foldl
    (fun m i => m.insert i.category.name ((m.get? i.category.name).getD 0 + 1)) .empty

def tally (items : List Item) (failures : List Failure) (duration : Duration) : Summary where
  total := items.length
  succeeded := count (· == .validated) items + count (· == .invalid) items
  failed := count isFailed items
  validated := count (· == .validated) items
  invalid := count (· == .invalid) items
  skipped := count (· == .belowGate) items
  byCategory := categoryCounts items
  duration
  failures
  items

def isClean (s : Summary) : Bool := s.failed == 0 && s.invalid == 0

theorem tally_partition (items : List Item) (failures : List Failure) (duration : Duration) :
    let s := tally items failures duration
    s.total = s.validated + s.invalid + s.skipped + s.failed := by
  simp only [tally, count]
  induction items with
  | nil => rfl
  | cons i items ih =>
    simp only [List.countP_cons, List.length_cons]
    cases h : i.fate <;> simp_all [isFailed] <;> omega

def toJson? (s : Summary) : Option Json := do
  return .obj [("total", .nat s.total), ("succeeded", .nat s.succeeded), ("failed", .nat s.failed),
    ("validated", .nat s.validated), ("validation_failed", .nat s.invalid),
    ("skipped", .nat s.skipped), ("by_category", .ofMap .nat s.byCategory),
    ("duration_seconds", s.duration.toJson), ("failures", .arr (← s.failures.mapM Failure.toJson?)),
    ("items", .arr (← s.items.mapM Item.toJson?))]

end Summary

end Stencil
