import Stencil.Command
import Stencil.Proofs.Batch.Courses
import Stencil.Proofs.Batch.Traces
import Stencil.Proofs.Summary

/-!
# The accounts of a batch

Whatever became of the artifacts of a batch, its summary is exact: `run_accounts`. What a result says of its
artifact, the failure that comes with it and the identifier of its template fit together on every way through
a batch, so that the exit code of a command that runs it tells whether there are failures.
-/

namespace Stencil.Batch

open Catalog

/-- A result whose failure is that of its item, and whose item has a template if it is rendered. -/
structure Result.Accounted (r : Result) : Prop where
  failure : r.failure.map (fun f => (f.path, f.kind)) = r.item.failure?
  template : r.item.template.isSome = r.item.fate.isRendered

theorem accounted_rendered (p : Plan) (outcome : Outcome) (id : Identifier) :
    (rendered p outcome id).Accounted := by
  unfold rendered
  split <;> exact ⟨rfl, rfl⟩

theorem Settles.accounted {p : Plan} {prepared : Except Error (Option Commit)} {r : Result}
    {part : List Reply} (h : Settles p prepared (.ok r) part) :
    r.Accounted ∧ r.item.path = p.artifact.path := by
  cases h with
  | refused x => exact ⟨⟨rfl, rfl⟩, rfl⟩
  | below => exact ⟨⟨rfl, rfl⟩, rfl⟩
  | committed whole => exact ⟨accounted_rendered .., (isRendered_rendered ..).2⟩
  | spoiled broken own => exact ⟨⟨rfl, rfl⟩, rfl⟩

theorem Course.accounted [Libraries] {b : Batch} {e : Environment} {supply : Supply} {ps : List Plan} {k : Nat}
    {result : Except Error (List Result)} {replies : List Reply}
    (h : b.Course e supply ps k result replies) : ∀ {rs}, result = .ok rs →
      (∀ r ∈ rs, r.Accounted) ∧ rs.map (·.item.path) = ps.map (·.artifact.path) := by
  induction h with
  | finished k =>
    intro rs done
    obtain rfl := Except.ok.inj done
    exact ⟨fun r among => (List.not_mem_nil among).elim, rfl⟩
  | @next p ps k r result part rest first later ih =>
    intro rs done
    cases result with
    | error x => cases done
    | ok others =>
      obtain rfl := Except.ok.inj done
      obtain ⟨own, path⟩ := first.accounted
      obtain ⟨accounted, paths⟩ := ih rfl
      exact ⟨List.forall_mem_cons.2 ⟨own, accounted⟩, congrArg₂ List.cons path paths⟩
  | stopped first =>
    intro rs done
    cases done

theorem exact_summary {rs : List Result} (accounted : ∀ r ∈ rs, r.Accounted) (duration : Duration) :
    (summary rs duration).Exact := by
  refine Summary.exact_tally duration ?_ ?_
  · rw [List.map_filterMap, List.filterMap_map]
    exact List.filterMap_congr fun r among => (accounted r among).failure
  · intro i among
    obtain ⟨r, reported, rfl⟩ := List.mem_map.1 among
    exact (accounted r reported).template

variable {σ : Type} [Catalog.Backend σ]

theorem accounted_of_run [Libraries] {b : Batch} {as : List Artifact} {supply : Supply} {s : σ} {rs : List Result}
    (ran : (b.run as supply s).1 = .ok rs) :
    (∀ r ∈ rs, r.Accounted) ∧ rs.map (·.item.path) = (b.plans supply as).map (·.artifact.path) := by
  obtain ⟨xs, -, conducts⟩ := b.performs_run as supply s
  rw [ran] at conducts
  generalize (Catalog.run xs s).1 = replies at conducts
  cases conducts with
  | found course => exact course.accounted rfl

/-! ### Exit codes -/

/-- A command that carries out a batch, from the state in which it has loaded its environments. -/
structure Carries (setup : Setup) (request : Command.RunRequest) (files : FileTree) (b : Batch)
    (as : List Artifact) (supply : Supply) (before s : σ) : Prop where
  loaded : loadEnvironments (supply.time 0) setup.environments before = (.ok (), s)
  batch : Batch.ofSettings setup.settings request.lastPriority request.category = .ok b
  artifacts : Discovery.discover setup.rules files setup.root = .ok as

/-- A command ends with the summary of its batch, and with a failure unless that is clean. A summary in JSON that has
no written form is a failure of its own. -/
theorem Carries.run [Libraries] {setup : Setup} {request : Command.RunRequest} {files : FileTree} {b : Batch}
    {as : List Artifact} {supply : Supply} {before s : σ}
    (h : Carries setup request files b as supply before s) {rs : List Result}
    (ran : (b.run as supply s).1 = .ok rs) (console : Command.Console) :
    ∃ result, (Command.run console setup request files supply before).1 = .ok result ∧
      result.failure = if console.isJson && (summary rs ⟨0⟩).toJson?.isNone then some .unwritableAnswer
        else if (summary rs ⟨0⟩).isClean then none
        else some (.batch ((summary rs ⟨0⟩).failed + (summary rs ⟨0⟩).invalid) (summary rs ⟨0⟩).total) := by
  have ran : b.run as supply s = (.ok rs, (b.run as supply s).2) := Prod.ext ran rfl
  have batch : (liftM (Batch.ofSettings setup.settings request.lastPriority request.category) :
      Action σ Batch) s = (.ok b, s) := by
    rw [h.batch]
    rfl
  have artifacts : (liftM (Discovery.discover setup.rules files setup.root) :
      Action σ (List Artifact)) s = (.ok as, s) := by
    rw [h.artifacts]
    rfl
  unfold Command.run
  rw [Faultless.bind_ok h.loaded, Faultless.bind_ok batch, Faultless.bind_ok artifacts,
    Faultless.bind_ok ran]
  exact ⟨_, rfl, rfl⟩

theorem code_reported (o : Command.Options) (r : Command.Result) :
    (Command.reported o (.ok r)).code = (r.failure.map Command.Failure.code).getD 0 := by
  obtain ⟨lines, failure⟩ := r
  cases failure <;> rfl

/-- The summary of a batch that comes to its end is exact, with one item for each of its plans. A command that
carries out the batch ends with exit code 0 if there are no failures, and with exit code 5 if there are, unless a
path in its answer cannot be written. -/
theorem run_accounts [Libraries] {b : Batch} {as : List Artifact} {supply : Supply} {s : σ} {rs : List Result}
    (ran : (b.run as supply s).1 = .ok rs) (duration : Duration) :
    (summary rs duration).Exact ∧
      (summary rs duration).items.map (·.path) = (b.plans supply as).map (·.artifact.path) ∧
      ∀ {setup request files} {before : σ}, Carries setup request files b as supply before s →
        ∀ console, ∃ result, (Command.run console setup request files supply before).1 = .ok result ∧
          ∀ o, (Command.reported o (.ok result)).code =
            if console.isJson = true ∧ ∃ i ∈ (summary rs duration).items, ¬ i.path.IsText then 1
            else if (summary rs duration).failures = [] then 0 else 5 := by
  obtain ⟨accounted, paths⟩ := accounted_of_run ran
  have exact := exact_summary accounted duration
  refine ⟨exact, ?_, fun carries console => ?_⟩
  · rw [← paths]
    exact List.map_map
  · obtain ⟨result, done, failure⟩ := carries.run ran console
    have clean : (summary rs ⟨0⟩).isClean = true ↔ (summary rs duration).failures = [] :=
      (exact_summary accounted ⟨0⟩).clean
    have unwritten : (console.isJson && (summary rs ⟨0⟩).toJson?.isNone) = true ↔
        console.isJson = true ∧ ∃ i ∈ (summary rs duration).items, ¬ i.path.IsText := by
      rw [Bool.and_eq_true, Option.isNone_iff_eq_none, (exact_summary accounted ⟨0⟩).toJson?_eq_none_iff]
      rfl
    refine ⟨result, done, fun o => ?_⟩
    rw [code_reported, failure, if_congr unwritten rfl rfl]
    split
    · rfl
    by_cases fine : (summary rs duration).failures = []
    · rw [if_pos fine, if_pos (clean.2 fine)]
      rfl
    · rw [if_neg fine, if_neg (mt clean.1 fine)]
      rfl

/-! ### A command with a failure -/

def loneTree : FileTree := FileTree.put { here := ⟨"/"⟩ } ["a", "x.env"] (.file (.text "P=a/b\n"))

theorem carries_lone : Carries { settings := lenient.settings } {} loneTree lenient [loneFile]
    rivalry.supply interrupted interrupted where
  loaded := rfl
  batch := rfl
  artifacts := by decide +kernel

open Readers

/-- The one file fails, and the command ends with exit code 5. -/
theorem run_accounts_interrupted :
    ∃ r, (lenient.run [loneFile] rivalry.supply interrupted).1 = .ok [r] ∧
      (summary [r] ⟨0⟩).Exact ∧
      (summary [r] ⟨0⟩).items.map (·.path) = (lenient.plans rivalry.supply [loneFile]).map (·.artifact.path) ∧
      ∃ result, (Command.run default { settings := lenient.settings } {} loneTree rivalry.supply
          interrupted).1 = .ok result ∧
        ∀ o, (Command.reported o (.ok result)).code = 5 := by
  obtain ⟨c, -, ran⟩ := run_interrupted
  have ran : (lenient.run [loneFile] rivalry.supply interrupted).1 =
      .ok [failed (lenient.own loneFile) gone] := congrArg Prod.fst ran
  obtain ⟨exact, paths, commands⟩ := run_accounts ran ⟨0⟩
  exact ⟨_, ran, exact, paths, commands carries_lone default⟩

end Stencil.Batch
