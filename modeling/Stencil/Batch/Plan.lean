import Stencil.Categorization

/-!
# Plans of batches

Before anything is rendered, the artifacts of a batch are analysed, given a category and put into
order. Artifacts of one content share an analysis, the one of the first of them; an artifact without
analysis has the category that its name gives.
-/

namespace Stencil

/-- An artifact with its category and its analysis, or the error that it has instead. -/
structure Plan where
  artifact : Artifact
  category : Category
  analysis : Except Error Analysis

namespace Plan

/-- The plan of an artifact whose content has an analysis. -/
def ofAnalysis (a : Artifact) (shared : Analysis) : Plan :=
  let category := Categorization.categorize a shared.tags
  ⟨a, category, .ok { shared.atPath a.path with category }⟩

/-- The plan of an artifact whose content has no analysis. -/
def ofError (a : Artifact) (e : Error) : Plan := ⟨a, Categorization.categorizeByName a, .error e⟩

def of (a : Artifact) : Except Error Analysis → Plan
  | .ok shared => ofAnalysis a shared
  | .error e => ofError a e

/-- The analyses of the contents of artifacts, by digest. -/
def analyses (analyze : Artifact → Except Error Analysis) (as : List Artifact) :
    SortedMap String (Except Error Analysis) :=
  as.foldl (fun m a =>
    let digest := a.digest.text
    if m.contains digest then m else m.insert digest (analyze a)) .empty

def all (analyze : Artifact → Except Error Analysis) (as : List Artifact) : List Plan :=
  let shared := analyses analyze as
  let missing : Error := .internal "analysis missing for planned artifact"
  as.map fun a => of a ((shared.get? a.digest.text).getD (.error missing))

/-- Order of processing: by priority, category, file name and path. -/
def order (p q : Plan) : Ordering :=
  (compare p.artifact.priority.value.toNat q.artifact.priority.value.toNat).then <|
    (compare p.category.name q.category.name).then <|
      (compare p.artifact.name q.artifact.name).then (p.artifact.path.compare q.artifact.path)

def sorted (ps : List Plan) : List Plan := ps.mergeSort fun p q => (p.order q).isLE

theorem mem_sorted {p : Plan} {ps : List Plan} : p ∈ sorted ps ↔ p ∈ ps := List.mem_mergeSort

end Plan

end Stencil
