import Stencil.Catalog.Call
import Stencil.Json.Reread

/-!
# A catalog in tables

Three tables of rows. A row holds what it stores as a JSON document, and beside it the columns that
are compared or that change: where a template is read back, the columns win over the document. No two
rows of templates have the same identifier or the same key, and no two records the same identifier.
Counters are words of 64 bits with sign; a counter that grows past them is no counter any more.
-/

namespace Stencil.Catalog

/-- A column that counts. -/
inductive Counter where
  | word (n : Int)
  /-- Past the words of 64 bits, where only an approximate number is left. -/
  | outgrown
  deriving Repr, DecidableEq, Inhabited

namespace Counter

/-- The column of a count: the word of 64 bits that has the same bits. -/
def ofUsage (n : UInt64) : Counter := .word n.toBitVec.toInt

def next : Counter → Counter
  | word n => if Decimal.isSignedWord 64 (n + 1) then word (n + 1) else outgrown
  | outgrown => outgrown

/-- The count of a column; a negative one counts nothing. -/
def usage? : Counter → Option UInt64
  | word n => some (UInt64.ofNat n.toNat)
  | outgrown => none

end Counter

structure TemplateRow where
  id : Identifier
  key : Template.Key
  effectiveness : Float
  usage : Counter
  updatedAt : String
  lastUsed : Option String
  body : Json
  deriving Repr, Inhabited

structure EnvironmentRow where
  name : String
  body : Json
  deriving Repr, Inhabited

structure RecordRow where
  id : Identifier
  template : Identifier
  environment : String
  body : Json
  deriving Repr, Inhabited

/-- The state of a catalog in tables; rows stand in the order in which they came. -/
structure Relational where
  templates : List TemplateRow := []
  environments : List EnvironmentRow := []
  history : List RecordRow := []
  deriving Repr, Inhabited

def unavailable {α : Type} (reason : String) : Except Error α := .error (.catalogUnavailable reason)

/-- The error of what has no document, since its path is no text. -/
def unwritable : Error := .internal ("encode failed: " ++ Path.noText)

/-- The document that is kept of something, in the form in which it is read again. -/
def encode : Option Json → Except Error Json
  | some j => .ok j.reread
  | none => .error unwritable

theorem exists_of_encode {written : Option Json} {body : Json} (h : encode written = .ok body) :
    ∃ j, written = some j ∧ body = j.reread := by
  cases written with
  | none => cases h
  | some j => exact ⟨j, rfl, (Except.ok.inj h).symm⟩

def decode {α : Type} (read : Json → Option α) (body : Json) : Except Error α :=
  match read body with
  | some a => .ok a
  | none => unavailable "corrupt catalog row"

def readStamp (text : String) : Except Error Instant :=
  match Instant.ofStamp? text with
  | some t => .ok t
  | none => unavailable ("corrupt timestamp '" ++ text ++ "': input contains invalid characters")

/-- A score as a column holds it: zero has no sign. -/
def storedScore (score : Float) : Float := if score == 0 then 0 else score

namespace TemplateRow

def of (t : Template) (body : Json) (now : Instant) : TemplateRow where
  id := t.id
  key := t.key
  effectiveness := storedScore t.effectiveness
  usage := .ofUsage t.usage
  updatedAt := now.stamp
  lastUsed := t.lastUsed.map Instant.stamp
  body

/-- The template of a row with a given count. -/
def template (r : TemplateRow) (usage : UInt64) : Except Error Template := do
  let t ← decode Template.ofJson? r.body
  let updatedAt ← readStamp r.updatedAt
  let lastUsed ← match r.lastUsed with
    | none => pure none
    | some text => (readStamp text).map some
  return { t with effectiveness := r.effectiveness, usage, updatedAt, lastUsed }

end TemplateRow

namespace RecordRow

/-- The row of a record that has a document. -/
def of (r : Record) : Except Error RecordRow :=
  (encode r.toJson?).map fun body => ⟨r.id, r.template, r.environment, body⟩

theorem exists_of {r : Record} {row : RecordRow} (h : of r = .ok row) :
    ∃ j, r.toJson? = some j ∧ row = ⟨r.id, r.template, r.environment, j.reread⟩ := by
  unfold of at h
  cases written : r.toJson? with
  | none =>
    rw [written] at h
    cases h
  | some j =>
    rw [written] at h
    exact ⟨j, rfl, (Except.ok.inj h).symm⟩

theorem id_of {r : Record} {row : RecordRow} (h : of r = .ok row) : row.id = r.id := by
  obtain ⟨j, -, rfl⟩ := exists_of h
  rfl

end RecordRow

namespace Relational

/-- The error of a counter that is no counter any more, met while doing something. -/
def lostCounter (doing : String) : Error :=
  .catalogUnavailable
    ("failed to " ++ doing ++ ": Invalid column type Real at index: 2, name: usage_count")

/-- The document that is kept of a valid template. -/
def templateDocument (t : Template) : Except Error Json := do
  t.validate
  encode t.toJson?

theorem of_templateDocument {t : Template} {body : Json} (h : templateDocument t = .ok body) :
    t.validate = .ok () ∧ encode t.toJson? = .ok body := by
  unfold templateDocument at h
  cases valid : t.validate with
  | error e =>
    rw [valid] at h
    cases h
  | ok _ =>
    rw [valid] at h
    exact ⟨rfl, h⟩

/-- Stores a template. A row with the same key stays, and only the time of its last change moves; a
row with the same identifier and another key is in the way. -/
def put (t : Template) (now : Instant) : Action Relational Identifier := fun r =>
  match templateDocument t with
  | .error e => (.error e, r)
  | .ok body =>
    match r.templates.find? fun row => row.key == t.key with
    | some old =>
      let touch (row : TemplateRow) : TemplateRow :=
        if row.key = t.key then { row with updatedAt := now.stamp } else row
      (.ok old.id, { r with templates := r.templates.map touch })
    | none =>
      if r.templates.any fun row => row.id == t.id then
        (unavailable "failed to store template: UNIQUE constraint failed: templates.id", r)
      else (.ok t.id, { r with templates := r.templates ++ [.of t body now] })

def get (id : Identifier) : Action Relational Template := fun r =>
  match r.templates.find? fun row => row.id == id with
  | none => (.error (missing id), r)
  | some row =>
    match row.usage.usage? with
    | none => (.error (lostCounter "read template"), r)
    | some usage => (row.template usage, r)

/-- The templates that a query accepts. A row of the wanted category that cannot be read makes the
whole query fail. -/
def find (q : Query) : Action Relational (List Template) := fun r =>
  let rows := r.templates.filter fun row => q.category.all (row.key.category == ·)
  match rows.mapM fun row => row.usage.usage?.map (row, ·) with
  | none => (.error (lostCounter "query templates"), r)
  | some counted =>
    match counted.mapM fun row => row.1.template row.2 with
    | .error e => (.error e, r)
    | .ok ts => (.ok (listed (ts.filter q.accepts)), r)

def change (id : Identifier) (f : TemplateRow → TemplateRow) : Action Relational Unit := fun r =>
  if r.templates.any fun row => row.id == id then
    (.ok (), { r with templates := r.templates.map fun row => if row.id = id then f row else row })
  else (.error (missing id), r)

def recordUsage (id : Identifier) (now : Instant) : Action Relational Unit :=
  change id fun row => { row with usage := row.usage.next, lastUsed := some now.stamp }

/-- Gives a template a new score. A score that is no number is no value of the column. -/
def updateEffectiveness (id : Identifier) (score : Float) (now : Instant) :
    Action Relational Unit := fun r =>
  if score.isNaN && r.templates.any fun row => row.id == id then
    (unavailable
      "failed to update effectiveness: NOT NULL constraint failed: templates.effectiveness_score", r)
  else
    change id (fun row =>
      { row with effectiveness := storedScore (clamp score), updatedAt := now.stamp }) r

def putEnvironment (e : Environment) : Action Relational Unit := fun r =>
  match e.validate with
  | .error err => (.error err, r)
  | .ok _ =>
    let others := r.environments.filter fun row => row.name ≠ e.name
    (.ok (), { r with environments := others ++ [⟨e.name, e.toJson.reread⟩] })

def environment (name : String) : Action Relational (Option Environment) := fun r =>
  match r.environments.find? fun row => row.name == name with
  | none => (.ok none, r)
  | some row => ((decode Environment.ofJson? row.body).map some, r)

def appendRecord (record : Record) : Action Relational Unit := fun r =>
  match RecordRow.of record with
  | .error e => (.error e, r)
  | .ok row =>
    if r.history.any fun row => row.id == record.id then (.error (repeated record.id), r)
    else (.ok (), { r with history := r.history ++ [row] })

def records (q : RecordQuery) : Action Relational (List Record) := fun r =>
  let rows := r.history.filter fun row =>
    q.template.all (row.template == ·) && q.environment.all (row.environment == ·)
  ((rows.mapM fun row => decode Record.ofJson? row.body).map chronicle, r)

instance : Backend Relational where
  perform
    | .put t, now => put t now
    | .get id, _ => get id
    | .find q, _ => find q
    | .recordUsage id, now => recordUsage id now
    | .updateEffectiveness id score, now => updateEffectiveness id score now
    | .putEnvironment e, _ => putEnvironment e
    | .environment name, _ => environment name
    | .appendRecord record, _ => appendRecord record
    | .records q, _ => records q

end Relational

end Stencil.Catalog
