import Stencil.Catalog.Query
import Stencil.Environment

/-!
# Calls

A catalog answers nine calls. A call says what is asked; the type of its answer depends on the call.
A backend is a type of states that performs calls at a given time: it answers or fails, and leaves a
new state in both cases. `run` performs a sequence of calls.
-/

namespace Stencil.Catalog

inductive Call where
  | put (template : Template)
  | get (id : Identifier)
  /-- The templates that a query accepts, in the order of listings. -/
  | find (query : Query)
  | recordUsage (id : Identifier)
  | updateEffectiveness (id : Identifier) (score : Float)
  | putEnvironment (environment : Environment)
  | environment (name : String)
  | appendRecord (record : Record)
  /-- The records that a query accepts, in the order of the history. -/
  | records (query : RecordQuery)
  deriving Repr, DecidableEq, Inhabited

abbrev Call.Answer : Call → Type
  | .put _ => Identifier
  | .get _ => Template
  | .find _ => List Template
  | .recordUsage _ | .updateEffectiveness .. | .putEnvironment _ | .appendRecord _ => Unit
  | .environment _ => Option Environment
  | .records _ => List Record

/-- Something done to a state, with an answer or an error. -/
abbrev Action (σ α : Type) : Type := ExceptT Error (StateM σ) α

/-- A type of states that performs calls. -/
class Backend (σ : Type) where
  perform (call : Call) (now : Instant) : Action σ call.Answer

/-- The score that is stored for a score: at least 0 and at most 100. -/
def clamp (score : Float) : Float :=
  if score < 0 then 0 else if 100 < score then 100 else score

def missing (id : Identifier) : Error := .notFound "template" id.text

def repeated (id : Identifier) : Error := .duplicateRecord id.text

variable {σ : Type} [Backend σ]

export Backend (perform)

/-- A call with its answer or error. -/
abbrev Reply : Type := (call : Call) × Except Error call.Answer

/-- Performs calls, each at its time, and answers the replies in order. -/
def run : List (Call × Instant) → σ → List Reply × σ
  | [], s => ([], s)
  | (c, now) :: rest, s =>
    let done := perform c now s
    let after := run rest done.2
    (⟨c, done.1⟩ :: after.1, after.2)

theorem run_append (xs ys : List (Call × Instant)) (s : σ) :
    run (xs ++ ys) s =
      ((run xs s).1 ++ (run ys (run xs s).2).1, (run ys (run xs s).2).2) := by
  induction xs generalizing s with
  | nil => rfl
  | cons x xs ih => simp [run, ih]

end Stencil.Catalog
