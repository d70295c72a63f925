import Stencil.Catalog.Memory
import Stencil.Catalog.Relational
import Stencil.Catalog.Supervised

/-!
# Catalogs

What is done with a catalog beyond single calls: the best template of a query, and the loading of
environments.
-/

namespace Stencil.Catalog

variable {σ : Type} [Backend σ]

def best (q : Query) (now : Instant) : Action σ Template := do
  match ← perform (.find q) now with
  | t :: _ => return t
  | [] => throw (.notFound "template" (q.beginning.getD "*"))

/-- Stores environments one after the other, up to the first that is refused. -/
def loadEnvironments (now : Instant) : List Environment → Action σ Unit
  | [] => pure ()
  | e :: rest => do
    if let .error err := e.validate then throw err
    perform (.putEnvironment e) now
    loadEnvironments now rest

end Stencil.Catalog
