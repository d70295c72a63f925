import Stencil.Analysis
import Stencil.Text.Lower
import Stencil.Text.Search

/-!
# Categorization

The category of an artifact is that of the first rule in a fixed table that it passes. Rules on the
file name come first, then rules on the front of the content, then rules on tags and kinds.
-/

namespace Stencil.Categorization

/-- The number of bytes of the content that rules look at. -/
def frontBytes : Nat := 2048

structure Evidence where
  /-- The parts of the file name between characters other than ASCII letters and digits. -/
  nameTokens : List (List Char)
  front : List Char
  tags : List String
  isConfig : Bool
  deriving Repr, DecidableEq, Inhabited

/-- A test of a rule. All keywords are in small letters. -/
inductive Test where
  | nameToken (keywords : List String)
  /-- A part of the file name begins with `step` and a digit. -/
  | stepNumber
  | content (keywords : List String)
  | tag (tag : String)
  | configuration
  deriving Repr, DecidableEq, Inhabited

namespace Test

def passes (e : Evidence) : Test → Bool
  | nameToken keywords => e.nameTokens.any fun t => keywords.any fun k => k.toList.isPrefixOf t
  | stepNumber => e.nameTokens.any fun t =>
      match Text.dropPrefix? "step".toList t with
      | some (c :: _) => c.isDigit
      | _ => false
  | content keywords => keywords.any fun k => Text.containsString k e.front
  | tag t => e.tags.contains t
  | configuration => e.isConfig

def isOnName : Test → Bool
  | nameToken _ | stepNumber => true
  | _ => false

end Test

def rules : List (Test × Category) :=
  [(.stepNumber, .frameworkStep),
    (.nameToken ["orchestrator", "master"], .frameworkOrchestrator),
    (.nameToken ["db", "database", "migration", "query", "sql"], .database),
    (.nameToken ["validat", "test", "check", "verify"], .validation),
    (.nameToken ["analy", "report", "metrics", "stats"], .analytics),
    (.nameToken ["deploy", "setup", "install", "release"], .deployment),
    (.nameToken ["monitor", "health", "alert", "watch"], .monitoring),
    (.nameToken ["config", "settings", "conf", "env", "properties"], .configuration),
    (.nameToken ["util", "helper", "tool", "clean"], .utility),
    (.nameToken ["web", "api", "server", "http", "client"], .webApi),
    (.content ["sqlite3", "sqlalchemy", "create table"], .database),
    (.content ["unittest", "pytest"], .validation),
    (.content ["flask", "fastapi", "django", "requests"], .webApi),
    (.tag "ENTERPRISE_COMPLIANCE", .enterpriseCompliance),
    (.tag "PERFORMANCE_MONITORING", .monitoring),
    (.configuration, .configuration)]

/-- The category of the first rule that is passed. -/
def firstMatch (e : Evidence) (rules : List (Test × Category)) : Category :=
  ((rules.find? fun r => r.1.passes e).map (·.2)).getD .generalPurpose

def evidence (a : Artifact) (tags : List String) : Evidence where
  nameTokens := (Text.splitBy (fun c => !c.isAlphanum) (Text.lower a.name.toList)).filter
    fun t => !t.isEmpty
  front := Text.lower (Text.takeBytes frontBytes a.content.toList)
  tags
  isConfig := !a.kind.isScript

def categorize (a : Artifact) (tags : List String) : Category := firstMatch (evidence a tags) rules

def categorizeByName (a : Artifact) : Category :=
  firstMatch (evidence a []) (rules.filter fun r => r.1.isOnName)

end Stencil.Categorization
