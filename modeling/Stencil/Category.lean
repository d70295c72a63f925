import Stencil.Error
import Stencil.Json.Fields
import Stencil.Text.Blank
import Stencil.Text.Lower

/-!
# Categories

The functional categories of artifacts and their names. `ofText?` also reads blanks around a name,
capitals, dashes, and the names that categories had before.
-/

namespace Stencil

inductive Category where
  | frameworkStep
  | frameworkOrchestrator
  | database
  | validation
  | analytics
  | deployment
  | monitoring
  | configuration
  | utility
  | webApi
  | enterpriseCompliance
  | generalPurpose
  deriving Repr, DecidableEq

instance : Inhabited Category := ⟨.generalPurpose⟩

namespace Category

def all : List Category :=
  [frameworkStep, frameworkOrchestrator, database, validation, analytics, deployment, monitoring,
    configuration, utility, webApi, enterpriseCompliance, generalPurpose]

def name : Category → String
  | frameworkStep => "framework_step"
  | frameworkOrchestrator => "framework_orchestrator"
  | database => "database"
  | validation => "validation"
  | analytics => "analytics"
  | deployment => "deployment"
  | monitoring => "monitoring"
  | configuration => "configuration"
  | utility => "utility"
  | webApi => "web_api"
  | enterpriseCompliance => "enterprise_compliance"
  | generalPurpose => "general_purpose"

def ofName? (s : String) : Option Category := all.find? fun c => c.name == s

/-- The category that had a given name before. -/
def ofFormerName? (s : String) : Option Category :=
  match s with
  | "database_operations" | "db" => some database
  | "validation_testing" => some validation
  | "analysis_reporting" => some analytics
  | "deployment_setup" => some deployment
  | "utility_scripts" => some utility
  | "general" => some generalPurpose
  | _ => none

/-- A name in lower case, with underscores and without blanks around it. -/
def normalize (s : String) : String :=
  String.ofList ((Text.asciiLower (Text.trim s.toList)).map fun c => if c = '-' then '_' else c)

def ofText? (s : String) : Option Category :=
  (ofName? (normalize s)).or (ofFormerName? (normalize s))

theorem ofName?_name (c : Category) : ofName? c.name = some c := by cases c <;> rfl

def parse (s : String) : Except Error Category :=
  match ofText? s with
  | some c => .ok c
  | none => .error (.unknownCategory s)

def toJson (c : Category) : Json := .str c.name

def ofJson? (j : Json) : Option Category := j.asCase?.bind ofName?

theorem ofJson?_toJson (c : Category) : ofJson? c.toJson = some c := ofName?_name c

theorem name_injective {a b : Category} (h : a.name = b.name) : a = b :=
  Option.some.inj (by rw [← ofName?_name a, h, ofName?_name])

end Category

end Stencil
