import Stencil.Catalog.Call

/-!
# A supervised catalog

A catalog whose calls are written down and can be made to fail. The schedule says of each kind of
call, and of how many of that kind there were, whether it fails instead of being performed.
-/

namespace Stencil.Catalog

inductive Method where
  | put
  | get
  | find
  | recordUsage
  | updateEffectiveness
  | putEnvironment
  | environment
  | appendRecord
  | records
  deriving Repr, DecidableEq, Inhabited

def Call.method : Call → Method
  | .put _ => .put
  | .get _ => .get
  | .find _ => .find
  | .recordUsage _ => .recordUsage
  | .updateEffectiveness .. => .updateEffectiveness
  | .putEnvironment _ => .putEnvironment
  | .environment _ => .environment
  | .appendRecord _ => .appendRecord
  | .records _ => .records

/-- The error of the `n`-th call of a kind, counted from one, if it is made to fail. -/
abbrev Schedule : Type := Method → Nat → Option Error

/-- No call is made to fail. -/
def Schedule.calm : Schedule := fun _ _ => none

/-- A catalog, the schedule of its failures, and the calls made so far with their errors. -/
structure Supervised (σ : Type) where
  inner : σ
  schedule : Schedule := .calm
  log : List (Call × Option Error) := []

namespace Supervised

variable {σ : Type}

def count (s : Supervised σ) (method : Method) : Nat := s.log.countP fun e => e.1.method == method

def scheduled? (s : Supervised σ) (call : Call) : Option Error :=
  s.schedule call.method (s.count call.method + 1)

def error? {α : Type} : Except Error α → Option Error
  | .ok _ => none
  | .error e => some e

instance [Backend σ] : Backend (Supervised σ) where
  perform call now s :=
    match s.scheduled? call with
    | some e => (.error e, { s with log := s.log ++ [(call, some e)] })
    | none =>
      let done := perform call now s.inner
      (done.1, { s with inner := done.2, log := s.log ++ [(call, error? done.1)] })

/-- Without scheduled failures a supervised catalog answers as the catalog does. -/
theorem perform_calm [Backend σ] (call : Call) (now : Instant) (s : σ)
    (log : List (Call × Option Error)) :
    (perform call now (⟨s, .calm, log⟩ : Supervised σ)).1 = (perform call now s).1 := rfl

end Supervised

end Stencil.Catalog
