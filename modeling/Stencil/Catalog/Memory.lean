import Stencil.Catalog.Call

/-!
# A catalog in memory

Templates lie under their identifiers, environments under their names, and records in the order in
which they came. A template whose key is stored is not stored again.
-/

namespace Stencil.Catalog

/-- The state of a catalog in memory. -/
structure Memory where
  templates : SortedMap Identifier Template := .empty
  environments : SortedMap String Environment := .empty
  /-- The history, in the order in which it was written. -/
  history : List Record := []
  recordIds : SortedSet Identifier := .empty
  deriving Repr, DecidableEq, Inhabited

namespace Memory

def holder? (m : Memory) (key : Template.Key) : Option Template :=
  m.templates.values.find? fun t => t.key == key

/-- Stores a template, unless its key is stored: then only the time of the last change moves. -/
def put (t : Template) (now : Instant) : Action Memory Identifier := fun m =>
  match t.validate with
  | .error e => (.error e, m)
  | .ok _ =>
    match m.holder? t.key with
    | some old =>
      let touched := m.templates.modify old.id fun t => { t with updatedAt := now }
      (.ok old.id, { m with templates := touched })
    | none => (.ok t.id, { m with templates := m.templates.insert t.id t })

def get (id : Identifier) : Action Memory Template := fun m =>
  match m.templates.get? id with
  | some t => (.ok t, m)
  | none => (.error (missing id), m)

def find (q : Query) : Action Memory (List Template) := fun m =>
  (.ok (listed (m.templates.values.filter q.accepts)), m)

def change (id : Identifier) (f : Template → Template) : Action Memory Unit := fun m =>
  match m.templates.get? id with
  | some t => (.ok (), { m with templates := m.templates.insert id (f t) })
  | none => (.error (missing id), m)

def recordUsage (id : Identifier) (now : Instant) : Action Memory Unit :=
  change id fun t => { t with usage := t.usage + 1, lastUsed := some now }

def updateEffectiveness (id : Identifier) (score : Float) (now : Instant) : Action Memory Unit :=
  change id fun t => { t with effectiveness := clamp score, updatedAt := now }

def putEnvironment (e : Environment) : Action Memory Unit := fun m =>
  match e.validate with
  | .error err => (.error err, m)
  | .ok _ => (.ok (), { m with environments := m.environments.insert e.name e })

def appendRecord (r : Record) : Action Memory Unit := fun m =>
  if m.recordIds.contains r.id then (.error (repeated r.id), m)
  else
    (.ok (), { m with history := m.history ++ [r], recordIds := m.recordIds.insert r.id () })

def records (q : RecordQuery) : Action Memory (List Record) := fun m =>
  (.ok (chronicle (m.history.filter q.accepts)), m)

instance : Backend Memory where
  perform
    | .put t, now => put t now
    | .get id, _ => get id
    | .find q, _ => find q
    | .recordUsage id, now => recordUsage id now
    | .updateEffectiveness id score, now => updateEffectiveness id score now
    | .putEnvironment e, _ => putEnvironment e
    | .environment name, _ => fun m => (.ok (m.environments.get? name), m)
    | .appendRecord r, _ => appendRecord r
    | .records q, _ => records q

end Memory

end Stencil.Catalog
