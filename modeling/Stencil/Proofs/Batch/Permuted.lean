import Stencil.Proofs.Batch.Order
import Stencil.Proofs.Batch.Rerun
import Stencil.Proofs.Batch.Transcripts

/-!
# Batches over lists in another order

A calm run reports the artifacts that its batch selects, each once, in the order of processing. Where all paths
and all contents are different, a list in another order has the same plans: with the same supply the batch does
the same to any catalog, and with another one what it answers and what it writes down differs in identifiers and
times only (`run_of_perm`).
-/

namespace Stencil

open Catalog

instance (medium : Medium) : Rates medium.State :=
  match medium with
  | .memory => inferInstanceAs (Rates Memory)
  | .relational => inferInstanceAs (Rates Relational)

namespace Batch

/-! ### Places in the results -/

theorem place_expected [Libraries] (b : Batch) (e : Environment) (p : Plan) :
    (b.expected e p).item.place = p.place := by
  unfold expected
  split
  · rfl
  · split
    · rfl
    · rfl
    · unfold rendered
      split <;> rfl

/-- A calm run reports every artifact that is selected, each once and nothing else, in order. -/
theorem Calm.places [Libraries] {σ : Type} [Catalog.Backend σ] {b : Batch} {as : List Artifact} {supply : Supply}
    {s : Supervised σ} (h : Calm b as supply s) :
    ∃ rs, (b.run as supply s).1 = .ok rs ∧
      (rs.map (·.item.place)).Perm ((as.filter (b.selects as)).map (b.place as)) ∧
      (rs.map (·.item.place)).Pairwise fun x y => (x.order y).isLE = true := by
  obtain ⟨rs, e, ran, results⟩ := h.exists_results
  have places : rs.map (·.item.place) = (b.plans supply as).map Plan.place := by
    have same := congrArg (List.map (·.item.place)) results
    rw [List.map_map, List.map_map] at same
    exact same.trans (List.map_congr_left fun p _ => b.place_expected e p)
  refine ⟨rs, ran, ?_⟩
  rw [places]
  exact ⟨h.analysed.places_perm, Plan.pairwise_sorted _⟩

/-! ### Results with other identifiers -/

theorem anonymous_resultIn (l l' : Ledger) (p : Plan) {prepared prepared' : Except Error (Option Commit)}
    (same : Again prepared prepared') :
    (resultIn l p prepared).anonymous = (resultIn l' p prepared').anonymous := by
  cases same with
  | error x => rfl
  | nothing => rfl
  | @commit c c' same =>
    show (rendered p c.made.outcome _).anonymous = (rendered p c'.made.outcome _).anonymous
    rw [same.outcome]
    exact anonymous_rendered p c'.made.outcome _ _

theorem anonymous_resultsIn [Libraries] (b : Batch) (e : Environment) {supply supply' : Supply} (l l' : Ledger)
    {ps : List Plan} {k : Nat} (prompt : b.Prompt supply supply' k ps.length) :
    (b.resultsIn e supply l ps k).map Result.anonymous = (b.resultsIn e supply' l' ps k).map Result.anonymous := by
  induction ps generalizing k with
  | nil => rfl
  | cons p ps ih =>
    rw [resultsIn, resultsIn, List.map_cons, List.map_cons, ih prompt.tail,
      anonymous_resultIn l l' p (b.prepare_of_prompt e p prompt)]

/-! ### Runs that correspond -/

/-- Identifiers of templates with one key in two catalogs. -/
def Namesakes {σ : Type} [Catalog.Backend σ] (s s' : σ) (id id' : Identifier) : Prop :=
  ∀ now, ∃ t t', (perform (.get id) now s).1 = .ok t ∧ (perform (.get id') now s').1 = .ok t' ∧ t.key = t'.key

theorem namesakes_of_represents {σ : Type} [Catalog.Backend σ] [Keeps σ] {l l' : Ledger} {s s' : σ}
    (h : Keeps.Represents l s) (h' : Keeps.Represents l' s') {id id' : Identifier}
    (named : l.Namesakes l' id id') : Namesakes s s' id id' := by
  obtain ⟨key, t, t', held, held', rfl, rfl⟩ := named
  obtain ⟨among, rfl⟩ := Ledger.holder?_eq_some_iff.1 held
  obtain ⟨among', same⟩ := Ledger.holder?_eq_some_iff.1 held'
  intro now
  obtain ⟨u, got, alike⟩ := Keeps.get h among now
  obtain ⟨u', got', alike'⟩ := Keeps.get h' among' now
  exact ⟨u, u', congrArg Prod.fst got, congrArg Prod.fst got',
    alike.key.trans (same.symm.trans alike'.key.symm)⟩

/-- What two runs answer and write down, the same but for identifiers and times. -/
structure Corresponds {σ : Type} [Catalog.Backend σ] (rs rs' : List Result) (s s' : Supervised σ) : Prop where
  results : rs.map Result.anonymous = rs'.map Result.anonymous
  failures : rs.filterMap (·.failure) = rs'.filterMap (·.failure)
  calls : List.Forall₂ (Call.Same (Namesakes s.inner s'.inner)) (s.log.map Prod.fst) (s'.log.map Prod.fst)

theorem failures_eq_of_anonymous {rs rs' : List Result}
    (same : rs.map Result.anonymous = rs'.map Result.anonymous) :
    rs.filterMap (·.failure) = rs'.filterMap (·.failure) := by
  have failures := congrArg (List.filterMap (·.failure)) same
  rwa [List.filterMap_map, List.filterMap_map] at failures

/-- The identifiers for templates that a run can take: all different, and none of a stored template. -/
structure Fresh {σ : Type} [Catalog.Backend σ] (n : Nat) (supply : Supply) (s : σ) : Prop where
  distinct : ((List.range n).map supply.templateId).Nodup
  missing : ∀ id ∈ (List.range n).map supply.templateId,
    ∀ now, (perform (.get id) now s).1 = .error (missing id)

/-- Calm runs with the same plans over the same sound catalog correspond. -/
theorem corresponds_of_plans [Libraries] {σ : Type} [Catalog.Backend σ] [Keeps σ] [Shows σ] [Rates σ] {b : Batch}
    {as as' : List Artifact} {supply supply' : Supply} (plans : b.plans supply as = b.plans supply' as') {m : σ}
    (sound : Shows.Sound m) (fresh : Fresh (b.plans supply as).length supply m)
    (fresh' : Fresh (b.plans supply' as').length supply' m) {schedule schedule' : Schedule}
    (calm : Calm b as supply ⟨m, schedule, []⟩) (calm' : Calm b as' supply' ⟨m, schedule', []⟩) :
    ∃ rs rs' s s', b.run as supply ⟨m, schedule, []⟩ = (.ok rs, s) ∧
      b.run as' supply' ⟨m, schedule', []⟩ = (.ok rs', s') ∧ Corresponds rs rs' s s' := by
  obtain ⟨old, holds⟩ := Shows.exists_holds sound
  obtain ⟨l, represents, -, distinct⟩ := Shows.exists_ledger sound holds
  let x : Launch := ⟨b, as, supply⟩
  let y : Launch := ⟨b, as', supply'⟩
  let books : Books σ := ⟨l, Rates.standing m⟩
  have describes : books.Describe m := ⟨represents, rfl⟩
  have admits : l.Admits (x.commits l) :=
    admits_of_missing represents distinct fresh.distinct fresh.missing (b.templateIds_commits as supply l)
  have admits' : l.Admits (y.commits l) :=
    admits_of_missing represents distinct fresh'.distinct fresh'.missing (b.templateIds_commits as' supply' l)
  obtain ⟨rs, s, ran, rfl, after, log⟩ :=
    (x.flawless_run books []).answers ⟨admits, describes, rfl⟩ calm.clean
  obtain ⟨rs', s', ran', rfl, after', log'⟩ :=
    (y.flawless_run books []).answers ⟨admits', describes, rfl⟩ calm'.clean
  refine ⟨_, _, s, s', ran, ran', ?_⟩
  let e := l.environment b.settings.environment
  have prompt : b.Prompt supply supply' 0 (b.plans supply as).length := fun j _ below =>
    ⟨calm.timely j (by omega), calm'.timely j (by rw [← plans]; omega)⟩
  have commits : List.Forall₂ Commit.Same (x.commits l) (y.commits l) := by
    show List.Forall₂ Commit.Same _ (b.commits e supply' (b.plans supply' as') 0)
    rw [← plans]
    exact b.commits_again e prompt
  have results : (x.results (l.commitAll (x.commits l))).map Result.anonymous =
      (y.results (l.commitAll (y.commits l))).map Result.anonymous := by
    rw [Launch.results, Launch.results, Ledger.environment_commitAll, Ledger.environment_commitAll]
    show _ = (b.resultsIn e supply' _ (b.plans supply' as') 0).map Result.anonymous
    rw [← plans]
    exact b.anonymous_resultsIn e _ _ prompt
  refine ⟨results, failures_eq_of_anonymous results, ?_⟩
  have written : ∀ calls : List Call, (calls.map fun call => (call, (none : Option Error))).map Prod.fst = calls :=
    fun calls => by
      rw [List.map_map]
      exact List.map_id calls
  rw [log, log', List.nil_append, List.nil_append, written, written]
  have calls := books.transcript_of_same books commits rfl
  exact .cons (.environment _) (calls.imp fun _ _ same =>
    same.mono fun _ _ => namesakes_of_represents after after')

/-! ### Lists in another order -/

/-- A calm run over any list of artifacts reports those that its batch selects, each once and nothing else, by
priority, category, name and path. Over a list whose paths and contents are all different, any permutation of it
gives the same: with the same supply the very same run, whatever fails in it or is late, and with identifiers of
its own one that corresponds. Otherwise two of the contents have one digest. -/
theorem run_of_perm [Libraries] (b : Batch) (as : List Artifact) :
    (∀ {σ : Type} [Catalog.Backend σ] {supply : Supply} {s : Supervised σ}, Calm b as supply s →
      ∃ rs, (b.run as supply s).1 = .ok rs ∧
        (rs.map (·.item.place)).Perm ((as.filter (b.selects as)).map (b.place as)) ∧
        (rs.map (·.item.place)).Pairwise fun x y => (x.order y).isLE = true) ∧
    ∀ {as' : List Artifact}, as.Perm as' → (as.map (·.path.components)).Nodup →
      (as.map (·.content)).Nodup →
      Collides as ∨
        (∀ {σ : Type} [Catalog.Backend σ] (supply : Supply),
          (b.run as supply : Action σ (List Result)) = b.run as' supply) ∧
        ∀ (medium : Medium) {supply supply' : Supply} {m : medium.State} {schedule schedule' : Schedule},
          Shows.Sound m → Fresh (b.plans supply as).length supply m → Fresh (b.plans supply' as').length supply' m →
          Calm b as supply ⟨m, schedule, []⟩ → Calm b as' supply' ⟨m, schedule', []⟩ →
          ∃ rs rs' s s', b.run as supply ⟨m, schedule, []⟩ = (.ok rs, s) ∧
            b.run as' supply' ⟨m, schedule', []⟩ = (.ok rs', s') ∧ Corresponds rs rs' s s' := by
  refine ⟨fun calm => calm.places, fun {as'} perm paths contents => ?_⟩
  by_cases collide : Collides as
  · exact .inl collide
  have plans (supply : Supply) : b.plans supply as = b.plans supply as' :=
    b.plans_eq_of_perm supply perm paths contents collide
  refine .inr ⟨fun supply => ?_, fun medium supply supply' _ _ _ sound fresh fresh' calm calm' => ?_⟩
  · unfold run
    rw [plans supply]
  · have same : b.plans supply as = b.plans supply' as' :=
      (plans supply).trans ((calm.analysed.of_perm perm).plans_congr calm'.analysed)
    exact corresponds_of_plans same sound fresh fresh' calm calm'

/-! ### Two files, found in either order -/

/-- In memory a run is calm that gets as many different identifiers as it has plans, if nothing is late or
interrupted. -/
theorem calm_memory [Libraries] {b : Batch} {as : List Artifact} {supply : Supply}
    (templates : ((List.range (b.plans supply as).length).map supply.templateId).Nodup)
    (records : ((List.range (b.plans supply as).length).map supply.recordId).Nodup)
    (analysed : b.Analysed supply as) (timely : ∀ k, b.Timely supply k) :
    Calm b as supply (⟨{}, .calm, []⟩ : Supervised Memory) := by
  let x : Launch := ⟨b, as, supply⟩
  have one : [x].flatMap Launch.ids = x.ids := List.append_nil _
  have clean : (runAll [x] (⟨{}, .calm, []⟩ : Supervised Memory)).Clean := by
    refine clean_runAll_memory ?_ ?_
    · rw [one, Launch.ids, List.map_map]
      exact templates
    · rw [one, Launch.ids, List.map_map]
      exact records
  exact ⟨clean, analysed, fun k _ => timely k⟩

open Readers

/-- Of the two rival files the batch reports both, and from either order of them the runs correspond. -/
theorem run_of_perm_rivals :
    ∃ rs rs' s s', lenient.run rivals rivalry.supply (⟨{}, .calm, []⟩ : Supervised Memory) = (.ok rs, s) ∧
      lenient.run rivals.reverse laterSupply (⟨{}, .calm, []⟩ : Supervised Memory) = (.ok rs', s') ∧
      (rs.map (·.item.place)).Perm (rivals.map (lenient.place rivals)) ∧ Corresponds rs rs' s s' := by
  obtain ⟨reports, permuted⟩ := run_of_perm lenient rivals
  have perm : rivals.Perm rivals.reverse := (List.reverse_perm rivals).symm
  have paths : (rivals.map (·.path.components)).Nodup := by decide +kernel
  have contents : (rivals.map (·.content)).Nodup := by decide +kernel
  have faithful : ¬Collides rivals := by
    have all : ∀ a ∈ rivals, ∀ l ∈ rivals, l.content ≠ a.content → l.digest ≠ a.digest := by decide +kernel
    rintro ⟨a, among, l, held, different, same⟩
    exact all a among l held different same
  obtain ⟨-, corresponds⟩ := (permuted perm paths contents).resolve_left faithful
  have analysed : lenient.Analysed rivalry.supply rivals := fun _ _ => rfl
  have analysed' : lenient.Analysed laterSupply rivals.reverse := fun _ _ => rfl
  have plans : lenient.plans rivalry.supply rivals = lenient.plans laterSupply rivals.reverse :=
    (lenient.plans_eq_of_perm rivalry.supply perm paths contents faithful).trans
      ((analysed.of_perm perm).plans_congr analysed')
  obtain ⟨ids, ids', -⟩ := List.nodup_append.1 ids_again
  have calm : Calm lenient rivals rivalry.supply (⟨{}, .calm, []⟩ : Supervised Memory) :=
    calm_memory ids ids analysed fun _ => ⟨rfl, rfl⟩
  have calm' : Calm lenient rivals.reverse laterSupply (⟨{}, .calm, []⟩ : Supervised Memory) :=
    calm_memory (plans ▸ ids') (plans ▸ ids') analysed' fun _ => ⟨rfl, rfl⟩
  obtain ⟨rs, rs', s, s', ran, ran', same⟩ := corresponds .memory Memory.sound_empty
    ⟨ids, fun _ _ _ => rfl⟩ ⟨plans ▸ ids', fun _ _ _ => rfl⟩ calm calm'
  obtain ⟨rs₀, ran₀, places, -⟩ := reports calm
  obtain rfl := Except.ok.inj ((congrArg Prod.fst ran).symm.trans ran₀)
  exact ⟨rs, rs', s, s', ran, ran', places, same⟩

end Batch

end Stencil
