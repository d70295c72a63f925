import Stencil.Catalog
import Stencil.Proofs.Batch.Ties

/-!
# Batch after batch

Environments are loaded into an empty catalog, and batches are run over it. Where no call fails, the catalog
stands for the ledger with all their commits afterwards.
-/

namespace Stencil

open Catalog

/-! ### Runs -/

/-- A batch over some artifacts, with what it takes from outside. -/
structure Launch where
  batch : Batch
  artifacts : List Artifact
  supply : Supply

variable [Libraries]

namespace Launch

def commits (x : Launch) (l : Ledger) : List Commit :=
  x.batch.commits (l.environment x.batch.settings.environment) x.supply (x.batch.plans x.supply x.artifacts) 0

/-- The identifiers that the artifacts of a launch can get: for templates and for records. -/
def ids (x : Launch) : List (Identifier × Identifier) :=
  (List.range (x.batch.plans x.supply x.artifacts).length).map fun k =>
    (x.supply.templateId k, x.supply.recordId k)

theorem ids_commits (x : Launch) (l : Ledger) :
    ((x.commits l).map fun c => (c.made.template.id, c.recordId)).Sublist x.ids := by
  have ids := x.batch.ids_commits (l.environment x.batch.settings.environment) x.supply
    (x.batch.plans x.supply x.artifacts) 0
  rwa [← List.range_eq_range'] at ids

theorem commits_commitAll (x : Launch) (l : Ledger) (cs : List Commit) :
    x.commits (l.commitAll cs) = x.commits l := by
  rw [commits, commits, Ledger.environment_commitAll]

variable {σ : Type} [Catalog.Backend σ]

def run (x : Launch) : Action σ (List Batch.Result) := x.batch.run x.artifacts x.supply

def results (x : Launch) (l : Ledger) : List Batch.Result :=
  x.batch.resultsIn (l.environment x.batch.settings.environment) x.supply l (x.batch.plans x.supply x.artifacts) 0

variable [Keeps σ] [Shows σ] {Tied : Ledger → σ → Prop}

/-- A launch ties the catalog to the ledger with its commits, and its results are in it. -/
theorem ties_run (ties : Ties Tied) (x : Launch) (l : Ledger) :
    Faultless (fun s : σ => l.Admits (x.commits l) ∧ Tied l s)
      (x.run : Action (Supervised σ) (List Batch.Result))
      fun rs s => rs = x.results (l.commitAll (x.commits l)) ∧ Tied (l.commitAll (x.commits l)) s := by
  have environment := (Batch.ties_environment ties x.batch (x.supply.time 0) l).keep
    (l.Admits (x.commits l))
  refine environment.bind fun e => ?_
  have processed := (Batch.ties_processAll ties x.batch e x.supply (x.batch.plans x.supply x.artifacts) 0 l
    []).keep (e = l.environment x.batch.settings.environment)
  refine processed.mono ?_ ?_
  · rintro s ⟨admits, rfl, tied⟩
    rw [List.append_nil]
    exact ⟨rfl, admits, tied⟩
  · rintro rs s ⟨rfl, rfl, tied⟩
    refine ⟨?_, tied⟩
    rw [results, Ledger.environment_commitAll]
    rfl

end Launch

def history (xs : List Launch) (l : Ledger) : List Commit := xs.flatMap fun x => x.commits l

theorem for_of_mem_history {xs : List Launch} {l : Ledger} {c : Commit} (h : c ∈ history xs l) :
    c.made.For (l.environment c.made.rendering.environment) := by
  obtain ⟨x, -, among⟩ := List.mem_flatMap.1 h
  have rendered := Batch.for_of_mem_commits among
  have name := (Template.of_render rendered.content).2.1
  rw [Ledger.name_environment] at name
  rwa [name]

theorem ids_history (xs : List Launch) (l : Ledger) :
    ((history xs l).map fun c => (c.made.template.id, c.recordId)).Sublist
      (xs.flatMap Launch.ids) := by
  induction xs with
  | nil => exact .slnil
  | cons x xs ih =>
    rw [history, List.flatMap_cons, List.flatMap_cons, List.map_append]
    exact (x.ids_commits l).append ih

variable {σ : Type} [Catalog.Backend σ]

def runAll (xs : List Launch) (s : Supervised σ) : Supervised σ :=
  xs.foldl (fun s x => (x.run s).2) s

variable [Keeps σ] [Shows σ]

theorem clean_of_runAll {xs : List Launch} {s : Supervised σ} (clean : (runAll xs s).Clean) :
    s.Clean := by
  induction xs generalizing s with
  | nil => exact clean
  | cons x xs ih => exact (x.ties_run ties_represents {}).back (ih clean)

theorem represents_runAll {xs : List Launch} {l : Ledger} {s : Supervised σ}
    (represents : Keeps.Represents l s.inner) (admits : l.Admits (history xs l))
    (clean : (runAll xs s).Clean) :
    Keeps.Represents (l.commitAll (history xs l)) (runAll xs s).inner := by
  induction xs generalizing l s with
  | nil => exact represents
  | cons x xs ih =>
    have split : history (x :: xs) l = x.commits l ++ history xs l := List.flatMap_cons
    rw [split] at admits ⊢
    obtain ⟨rs, s', ran, -, represents'⟩ :=
      (x.ties_run ties_represents l).answers ⟨admits.left, represents⟩ (clean_of_runAll clean)
    -- Commits leave the environments alone, so the later launches commit the same.
    have same : history xs (l.commitAll (x.commits l)) = history xs l :=
      List.flatMap_congr fun y _ => y.commits_commitAll l _
    have after : (x.run s).2 = s' := congrArg Prod.snd ran
    have rest := ih (l := l.commitAll (x.commits l)) (s := s') represents'
    rw [same, ← Ledger.commitAll_append] at rest
    show Keeps.Represents _ (runAll xs (x.run s).2).inner
    rw [after]
    exact rest admits.commitAll (after ▸ clean)

/-! ### Environments -/

omit [Libraries]

/-- The ledger of a catalog into which environments were loaded. -/
def Catalog.Ledger.ofEnvironments (es : List Environment) : Ledger := es.foldl Ledger.putEnvironment {}

theorem Catalog.Ledger.blank_ofEnvironments (es : List Environment) :
    (ofEnvironments es).templates = [] ∧ (ofEnvironments es).records = [] := by
  have blank : ∀ {l : Ledger}, l.templates = [] ∧ l.records = [] →
      (es.foldl putEnvironment l).templates = [] ∧ (es.foldl putEnvironment l).records = [] := by
    induction es with
    | nil => exact id
    | cons e es ih => exact fun h => ih (l := putEnvironment _ e) h
  exact blank ⟨rfl, rfl⟩

omit [Shows σ] in
theorem represents_load {es : List Environment} {now : Instant} {l : Ledger} {s s' : Supervised σ}
    (represents : Keeps.Represents l s.inner) (loaded : loadEnvironments now es s = (.ok (), s')) :
    Keeps.Represents (es.foldl Ledger.putEnvironment l) s'.inner := by
  induction es generalizing l s with
  | nil =>
    obtain ⟨-, rfl⟩ := Prod.mk.inj loaded
    exact represents
  | cons e es ih =>
    unfold loadEnvironments at loaded
    cases valid : e.validate with
    | error x =>
      rw [valid] at loaded
      cases (Prod.mk.inj loaded).1
    | ok _ =>
      rw [valid] at loaded
      have loaded : (perform (.putEnvironment e) now >>= fun _ => loadEnvironments now es) s = (.ok (), s') :=
        loaded
      obtain ⟨_, s₁, put, loaded⟩ := Faultless.exists_of_bind_eq_ok loaded
      exact ih (Keeps.putEnvironment represents (Faultless.inner_of_perform put)) loaded

end Stencil
