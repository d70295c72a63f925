import Stencil.Command.Failure
import Stencil.Command.Machine
import Stencil.Command.Views
import Stencil.Discovery
import Stencil.Setup.Assignments

/-!
# Commands

One call of the program: the arguments become a request, the setup is loaded, the request is carried
out, and what is to be printed is reported with an exit code. A report that says how long the work
took waits for that time.
-/

namespace Stencil.Command

structure Invocation where
  arguments : List String
  vars : SortedMap String String
  supply : Supply
  /-- The number of processors of the machine. -/
  processors : Nat

/-- What a call prints, and its exit code. -/
structure Report where
  output : Duration → String := fun _ => ""
  errors : String := ""
  code : Nat := 0

/-- What a command prints, and its failure if it has one. -/
structure Result where
  lines : Duration → List String
  failure : Option Failure := none

/-- Lines on which the time has no influence. -/
def printed (lines : List String) : Result := { lines := fun _ => lines }

/-- An answer as a JSON document, if it has one. -/
def written : Option Json → Result
  | some j => printed (Console.json j)
  | none => { printed [] with failure := some .unwritableAnswer }

/-! ### Commands -/

def loadArtifact (files : FileTree) (p : Path) : Except Failure Artifact :=
  match files.file? p with
  | none => .error (.fileMissing p)
  | some (.binary _) => .error (.unreadable p)
  | some (.text content) => (Artifact.ofPath p content).mapError .library

def analyze [Libraries] (c : Console) (s : Setup) (files : FileTree) (p : Path) : Except Failure Result := do
  let artifact ← loadArtifact files p
  let batch ← (Batch.ofSettings s.settings).mapError .library
  let (a, v) ← (batch.assess artifact).mapError .library
  return if c.isJson then written (assessmentJson? a v) else printed (assessmentView c a v)

def showSetup (c : Console) (s : Setup) : Except Failure Result :=
  if c.isJson then .ok (written s.toJson?)
  else
    match s.document with
    | some text => .ok (printed (c.line text))
    | none => .error .unwritableSetup

variable {σ : Type} [Catalog.Backend σ]

def list (c : Console) (q : Catalog.Query) (layout : Layout) (now : Instant) :
    Catalog.Action σ Result := do
  let ts ← Catalog.perform (.find q) now
  return if c.isJson then written ((ts.mapM Template.toJson?).map .arr) else printed (listView c layout ts)

/-- The setup with what a request for a batch says otherwise. -/
def adjusted (s : Setup) (r : RunRequest) : Setup :=
  let settings := s.settings
  { s with
    root := r.root.getD s.root
    settings := { settings with
      environment := r.environment.getD settings.environment
      workers := r.workers.or settings.workers } }

def run [Libraries] (c : Console) (s : Setup) (r : RunRequest) (files : FileTree) (supply : Supply) :
    Catalog.Action σ Result := do
  Catalog.loadEnvironments (supply.time 0) s.environments
  let batch ← Batch.ofSettings s.settings r.lastPriority r.category
  let artifacts ← Discovery.discover s.rules files s.root
  let results ← batch.run artifacts supply
  let summary (d : Duration) : Summary := Batch.summary results d
  let outcome := summary ⟨0⟩
  return {
    lines := fun d =>
      if c.isJson then ((summary d).toJson?.map Console.json).getD []
      else summaryView c r.details (summary d)
    failure :=
      if c.isJson && outcome.toJson?.isNone then some .unwritableAnswer
      else if outcome.isClean then none
      else some (.batch (outcome.failed + outcome.invalid) outcome.total) }

/-! ### Calls -/

def withCatalog (i : Invocation) (s : Setup) (m : Machine)
    (action : {τ : Type} → [Catalog.Backend τ] → Catalog.Action τ Result) :
    Except Failure Result × Machine :=
  match s.storage with
  | .memory => (((action ({} : Catalog.Memory)).1).mapError .library, m)
  | .database =>
    let path := s.catalogFile i.vars
    match m.openCatalog path with
    | .error e => (.error (.library e), m)
    | .ok catalog =>
      let done := action catalog
      (done.1.mapError .library, m.keepCatalog path done.2)

def carryOut [Libraries] (i : Invocation) (o : Options) (s : Setup) (m : Machine) :
    Request → Except Failure Result × Machine
  | .run r =>
    let s := adjusted s r
    if m.files.isDirectory s.root then
      withCatalog i s m (run (Console.of o s.noColor) s r m.files i.supply)
    else (.error (.fileMissing s.root), m)
  | .analyze p => (analyze (Console.of o s.noColor) s m.files p, m)
  | .list q layout =>
    withCatalog i s m (list (Console.of o s.noColor) q layout (i.supply.time 0))
  | .showSetup => (showSetup (Console.of o s.noColor) s, m)
  | .setupPath =>
    (.ok (printed ((Console.of o s.noColor).line (Setup.usualFile i.vars).text)), m)

def failed (o : Options) (f : Failure) : Report := { errors := f.report o.isVerbose, code := f.code }

def reported (o : Options) : Except Failure Result → Report
  | .error f => failed o f
  | .ok r =>
    let output (d : Duration) : String := String.join ((r.lines d).map (· ++ "\n"))
    match r.failure with
    | none => { output }
    | some f => { failed o f with output }

def version : String := "reforge 0.1.0\n"

def usage : String :=
  "Usage: reforge [OPTIONS] <run|analyze|templates|config> [ARGUMENTS]\n"

def withAssignments (i : Invocation) (files : FileTree) : Invocation :=
  match files.file? ⟨".env"⟩ with
  | some (.text content) =>
    { i with vars := Setup.Assignments.apply content.toList i.vars }
  | _ => i

/-- The paths that a call looks at, as far as the files that are known tell. -/
def sights (i : Invocation) (files : FileTree) : List Path :=
  let i := withAssignments i files
  let assignments : Path := ⟨".env"⟩
  match parse i.arguments i.vars with
  | .error _ => [assignments]
  | .ok (o, request) =>
    let setupFile := o.setupFile.getD (Setup.usualFile i.vars)
    let others := match Setup.load files i.vars o.setupFile i.processors, request with
      | .ok s, .run r => [(adjusted s r).root, s.catalogFile i.vars]
      | .ok s, .list .. => [s.catalogFile i.vars]
      | _, .analyze p => [p]
      | _, _ => []
    assignments :: Setup.candidates setupFile ++ o.logFile.toList ++ others

def execute [Libraries] (i : Invocation) (m : Machine) : Report × Machine :=
  let i := withAssignments i m.files
  match parse i.arguments i.vars with
  | .error .version => ({ output := fun _ => version }, m)
  | .error .help => ({ output := fun _ => usage }, m)
  | .error .usage => ({ errors := usage, code := 2 }, m)
  | .ok (o, request) =>
    match o.logFile with
    | some p =>
      if p.fileName?.isNone then
        ({ errors := "Failed to initialise logging: log file path has no file name: " ++ p.text ++
            "\n", code := 1 }, m)
      else proceed i o (m.touch p) request
    | none => proceed i o m request
where
  /-- Carries out a request once the arguments are in order. -/
  proceed (i : Invocation) (o : Options) (m : Machine) (request : Request) : Report × Machine :=
    match Setup.load m.files i.vars o.setupFile i.processors with
    | .error e => (failed o (.setup e), m)
    | .ok s =>
      let done := carryOut i o s m request
      (reported o done.1, done.2)

end Stencil.Command
