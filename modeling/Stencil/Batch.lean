import Stencil.Batch.Commit
import Stencil.Batch.Plan
import Stencil.Extraction
import Stencil.Inspection
import Stencil.Settings
import Stencil.Summary
import Stencil.Validation

/-!
# Batches

A batch renders artifacts for one environment. The artifacts are planned, put into order, and made
into templates, renderings and outcomes one by one; what comes out is committed to a catalog in that
order. An error of one artifact is noted and the next one follows, but an error of the catalog that
concerns them all ends the batch.
-/

namespace Stencil

/-- What a batch is to do, with valid settings. -/
structure Batch where
  settings : Settings
  lastPriority : Option UInt8
  /-- The only category that is processed. -/
  category : Option Category
  valid : settings.validate = .ok ()

/-- What keeps a worker from the result of its work: its time runs out, or it fails or cannot be had. -/
inductive Interruption where
  | late
  | lost (reason : String)
  deriving Repr, DecidableEq, Inhabited

/-- What a batch takes from outside: new identifiers and the clock for the artifacts by their place in
the order, and what happens to its workers. -/
structure Supply where
  templateId : Nat → Identifier
  recordId : Nat → Identifier
  time : Nat → Instant
  /-- How long the batch has run when an artifact is taken up. -/
  elapsed : Nat → Duration
  /-- What interrupts the analysis of a content. -/
  analysis : Digest → Option Interruption := fun _ => none
  /-- What interrupts the regeneration of the artifact at a place. -/
  regeneration : Nat → Option Interruption := fun _ => none

namespace Batch

def ofSettings (settings : Settings) (lastPriority : Option UInt8 := none)
    (category : Option Category := none) : Except Error Batch :=
  match valid : settings.validate with
  | .ok () => .ok { settings, lastPriority, category, valid }
  | .error e => .error e

def admitted (b : Batch) (as : List Artifact) : List Artifact :=
  as.filter fun a => b.lastPriority.all (a.priority.value ≤ ·)

/-- The result of a stage of work on an artifact, which has a limited time, unless it is interrupted. -/
def bounded {α : Type} (b : Batch) (stage : String) (interruption : Option Interruption)
    (work : Except Error α) : Except Error α :=
  match interruption with
  | none => work
  | some .late => .error (.timeout stage b.settings.artifactTime)
  | some (.lost reason) => .error (.workerFailed reason)

section

variable [Libraries]

def analyze (b : Batch) (supply : Supply) (a : Artifact) : Except Error Analysis :=
  b.bounded "analysis" (supply.analysis a.digest) (Inspection.analyze b.settings.weights a)

def plans (b : Batch) (supply : Supply) (as : List Artifact) : List Plan :=
  Plan.sorted <|
    (Plan.all (b.analyze supply) (b.admitted as)).filter fun p => b.category.all (p.category == ·)

/-- Makes an artifact into a template and renders it, if it is good enough for a template. -/
def regenerate (b : Batch) (e : Environment) (analysis : Analysis) (a : Artifact)
    (newId : Identifier) (now : Instant) : Except Error (Option Regenerated) := do
  match ← Extraction.extract b.settings.extraction analysis a newId now with
  | none => return none
  | some template =>
    let rendering ← template.render e
    return some { template, rendering, outcome := rendering.validate template.kind }

/-- What a worker makes of the artifact at place `k`. -/
def work (b : Batch) (e : Environment) (supply : Supply) (k : Nat) (analysis : Analysis) (a : Artifact) :
    Except Error (Option Regenerated) :=
  b.bounded "regeneration" (supply.regeneration k)
    (b.regenerate e analysis a (supply.templateId k) (supply.time k))

end

/-- What became of an artifact, and its failure if it has one. -/
structure Result where
  item : Item
  failure : Option Failure := none
  deriving Repr, DecidableEq, Inhabited

def item (p : Plan) (fate : Fate) (template : Option Identifier := none) : Item where
  path := p.artifact.path
  name := p.artifact.name
  priority := p.artifact.priority
  category := p.category
  fate
  template
  score := p.analysis.toOption.map (·.score)

def failed (p : Plan) (e : Error) : Result where
  item := item p (.failed (.of e))
  failure := some ⟨p.artifact.path, .of e, e.message⟩

def rendered (p : Plan) (outcome : Outcome) (id : Identifier) : Result :=
  if outcome.passed then { item := item p .validated (some id) }
  else
    { item := item p .invalid (some id)
      failure := some ⟨p.artifact.path, .validationFailed, outcome.summary⟩ }

variable {σ : Type} [Catalog.Backend σ]

/-- Goes on after an error that concerns one artifact only. -/
def unlessFatal (p : Plan) (action : Catalog.Action σ Result) : Catalog.Action σ Result :=
  tryCatch action fun e => if e.isFatal then throw e else return failed p e

/-- Whether the time of a batch is over when the artifact at place `k` is taken up. -/
def isLate (b : Batch) (supply : Supply) (k : Nat) : Bool :=
  b.settings.batchTime.nanoseconds ≤ (supply.elapsed k).nanoseconds

def process [Libraries] (b : Batch) (e : Environment) (supply : Supply) (p : Plan) (k : Nat) :
    Catalog.Action σ Result :=
  match p.analysis with
  | .error err => return failed p err
  | .ok analysis =>
    if b.isLate supply k then return failed p .batchTimeout
    else unlessFatal p do
      match ← b.work e supply k analysis p.artifact with
      | none => return { item := item p .belowGate }
      | some r =>
        let id ← r.commit p.artifact.path (supply.recordId k) (supply.time k)
        return rendered p r.outcome id

/-- Processes artifacts one after the other, the first at place `k`. -/
def processAll [Libraries] (b : Batch) (e : Environment) (supply : Supply) :
    List Plan → Nat → Catalog.Action σ (List Result)
  | [], _ => return []
  | p :: ps, k => do
    let result ← b.process e supply p k
    let results ← b.processAll e supply ps (k + 1)
    return result :: results

/-- The environment of a batch: the stored one of the name in the settings, or the one of that name
that changes nothing. -/
def environment (b : Batch) (now : Instant) : Catalog.Action σ Environment := do
  let name := b.settings.environment
  return (← Catalog.perform (.environment name) now).getD (.identity name)

def run [Libraries] (b : Batch) (as : List Artifact) (supply : Supply) : Catalog.Action σ (List Result) := do
  let e ← b.environment (supply.time 0)
  b.processAll e supply (b.plans supply as) 0

def summary (results : List Result) (duration : Duration) : Summary :=
  .tally (results.map (·.item)) (results.filterMap (·.failure)) duration

def assess [Libraries] (b : Batch) (a : Artifact) : Except Error (Analysis × Verdict) := do
  let analysis ← Inspection.analyze b.settings.weights a
  return (analysis, b.settings.extraction.gate analysis a)

end Batch

end Stencil
