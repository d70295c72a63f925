import Stencil.Error
import Stencil.Json.Fields

/-!
# Compliance

Ten signals of quality, each with a weight. The weights have to sum to 100, so the score of an
artifact, which is the sum of the weights of its signals, is a share of 100.
-/

namespace Stencil

/-- A sign of quality that an artifact may show. -/
inductive Signal where
  | logging
  | errorHandling
  | docstring
  | typeAnnotations
  | entryGuard
  | header
  | externalConfig
  | persistence
  | progress
  | pathAbstraction
  deriving Repr, DecidableEq, Inhabited

namespace Signal

def all : List Signal :=
  [logging, errorHandling, docstring, typeAnnotations, entryGuard, header, externalConfig,
    persistence, progress, pathAbstraction]

def name : Signal → String
  | logging => "logging"
  | errorHandling => "error_handling"
  | docstring => "docstring"
  | typeAnnotations => "type_annotations"
  | entryGuard => "entry_guard"
  | header => "header"
  | externalConfig => "external_config"
  | persistence => "persistence"
  | progress => "progress"
  | pathAbstraction => "path_abstraction"

def ofName? (s : String) : Option Signal := all.find? fun x => x.name == s

theorem ofName?_name (s : Signal) : ofName? s.name = some s := by cases s <;> rfl

theorem mem_all (s : Signal) : s ∈ all := by cases s <;> decide

def toJson (s : Signal) : Json := .str s.name

def ofJson? (j : Json) : Option Signal := j.asCase?.bind ofName?

end Signal

/-- The weight of each signal. -/
structure Weights where
  logging : UInt8 := 10
  errorHandling : UInt8 := 15
  docstring : UInt8 := 15
  typeAnnotations : UInt8 := 10
  entryGuard : UInt8 := 10
  header : UInt8 := 5
  externalConfig : UInt8 := 10
  persistence : UInt8 := 5
  progress : UInt8 := 10
  pathAbstraction : UInt8 := 10
  deriving Repr, DecidableEq, Inhabited

namespace Weights

def of (w : Weights) : Signal → UInt8
  | .logging => w.logging
  | .errorHandling => w.errorHandling
  | .docstring => w.docstring
  | .typeAnnotations => w.typeAnnotations
  | .entryGuard => w.entryGuard
  | .header => w.header
  | .externalConfig => w.externalConfig
  | .persistence => w.persistence
  | .progress => w.progress
  | .pathAbstraction => w.pathAbstraction

def total (w : Weights) : Nat := Signal.all.foldr (fun s n => (w.of s).toNat + n) 0

/-- Refuses weights that do not sum to 100. -/
def validate (w : Weights) : Except Error Unit :=
  if w.total = 100 then .ok () else .error (.invalidPolicy (.weightsTotal w.total))

theorem total_default : ({} : Weights).total = 100 := by decide

def toJson (w : Weights) : Json :=
  .obj (Signal.all.map fun s => (s.name, .nat (w.of s).toNat))

/-- The weights of a JSON value; a missing weight is the usual one. -/
def ofJson? (j : Json) : Option Weights := do
  let j ← j.asRecord? (Signal.all.map Signal.name)
  let usual : Weights := {}
  let read (s : Signal) := j.defaulted s.name (usual.of s) fun v => (v.asNat? 8).map UInt8.ofNat
  return {
    logging := (← read .logging),
    errorHandling := (← read .errorHandling),
    docstring := (← read .docstring),
    typeAnnotations := (← read .typeAnnotations),
    entryGuard := (← read .entryGuard),
    header := (← read .header),
    externalConfig := (← read .externalConfig),
    persistence := (← read .persistence),
    progress := (← read .progress),
    pathAbstraction := (← read .pathAbstraction) }

end Weights

structure Check where
  signal : Signal
  passed : Bool
  weight : UInt8
  deriving Repr, DecidableEq, Inhabited

/-- The checklist of an artifact and its score. -/
structure Checklist where
  checks : List Check
  score : Float
  deriving Repr, DecidableEq, Inhabited

namespace Checklist

/-- The weights of the signals that are shown, added up. -/
def points (w : Weights) (shown : Signal → Bool) : Nat :=
  (Signal.all.filter shown).foldr (fun s n => (w.of s).toNat + n) 0

def of (w : Weights) (shown : Signal → Bool) : Checklist where
  checks := Signal.all.map fun s => ⟨s, shown s, w.of s⟩
  score := (min (points w shown) 100).toFloat

def passed (l : Checklist) (s : Signal) : Bool := l.checks.any fun c => c.signal == s && c.passed

/-- The signals that are not checked off. -/
def missing (l : Checklist) : List Signal :=
  (l.checks.filter fun c => !c.passed).map (·.signal)

def checkToJson (c : Check) : Json :=
  .obj [("signal", c.signal.toJson), ("passed", .bool c.passed), ("weight", .nat c.weight.toNat)]

def checkOfJson? (j : Json) : Option Check := do
  let j ← j.asRecord? ["signal", "passed", "weight"]
  return {
    signal := ← j.required "signal" Signal.ofJson?,
    passed := ← j.required "passed" Json.asBool?,
    weight := ← j.required "weight" fun v => (v.asNat? 8).map UInt8.ofNat }

def toJson (l : Checklist) : Json :=
  .obj [("checks", .arr (l.checks.map checkToJson)), ("score", .float l.score)]

def ofJson? (j : Json) : Option Checklist := do
  let j ← j.asRecord? ["checks", "score"]
  return {
    checks := ← j.required "checks" (Json.asList? checkOfJson?),
    score := ← j.required "score" Json.asFloat? }

end Checklist

end Stencil
