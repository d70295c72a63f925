import Stencil.Proofs.Batch.History

/-!
# The same batch twice

What a second run of a batch commits differs from what the first one committed in identifiers and times only, and
every key that it brings is there already. So it answers the same, leaves the templates alone, and adds the same
records once more.
-/

namespace Stencil

open Catalog

theorem Template.Alike.symm {t t' : Template} (h : t.Alike t') : t'.Alike t :=
  ⟨h.id.symm, h.key.symm, h.content.symm, h.schema.symm, h.kind.symm⟩

namespace Batch

/-! ### What is prepared twice -/

/-- The same error, nothing both times, or commits that are the same. -/
inductive Again : Except Error (Option Commit) → Except Error (Option Commit) → Prop where
  | error (x : Error) : Again (.error x) (.error x)
  | nothing : Again (.ok none) (.ok none)
  | commit {c c' : Commit} (same : c.Same c') : Again (.ok (some c)) (.ok (some c'))

/-- Nothing is late or interrupted in either run, from place `k` on. -/
def Prompt (b : Batch) (supply supply' : Supply) (k n : Nat) : Prop :=
  ∀ j, k ≤ j → j < k + n → b.Timely supply j ∧ b.Timely supply' j

theorem Prompt.tail {b : Batch} {supply supply' : Supply} {k n : Nat} (h : b.Prompt supply supply' k (n + 1)) :
    b.Prompt supply supply' (k + 1) n := fun j above below => h j (by omega) (by omega)

section

variable [Libraries] (b : Batch) (e : Environment) {supply supply' : Supply}

/-- New identifiers and the clock do not change what is prepared. -/
theorem prepare_again (p : Plan) {k : Nat} (timely : b.Timely supply k) (timely' : b.Timely supply' k) :
    Again (b.prepare e supply p k) (b.prepare e supply' p k) := by
  unfold prepare
  cases p.analysis with
  | error x => exact .error x
  | ok analysis =>
    simp only [timely.early, timely'.early, Bool.false_eq_true, if_false, work_eq timely, work_eq timely']
    let made := Extraction.made analysis p.artifact (supply.templateId k) (supply.time k)
    let made' := Extraction.made analysis p.artifact (supply'.templateId k) (supply'.time k)
    have valid : made'.validate = made.validate := rfl
    have schema : made.schema = made'.schema := rfl
    have content : made.content = made'.content := rfl
    have rendered := Template.render_congr schema content e
    rw [regenerate_eq, regenerate_eq]
    split
    · show Again (((made.validate >>= fun _ => _).map _)) ((made'.validate >>= fun _ => _).map _)
      rw [valid]
      cases made.validate with
      | error x => exact .error x
      | ok _ =>
        show Again ((made.render e >>= fun _ => _).map _) ((made'.render e >>= fun _ => _).map _)
        rw [rendered]
        cases made.render e with
        | error x => exact .error x
        | ok rendering => exact .commit ⟨rfl, rfl, rfl, rfl, rfl⟩
    · exact .nothing

theorem prepare_of_prompt (p : Plan) {k n : Nat} (prompt : b.Prompt supply supply' k (n + 1)) :
    Again (b.prepare e supply p k) (b.prepare e supply' p k) := by
  obtain ⟨timely, timely'⟩ := prompt k le_rfl (by omega)
  exact b.prepare_again e p timely timely'

theorem commits_again {ps : List Plan} {k : Nat} (prompt : b.Prompt supply supply' k ps.length) :
    List.Forall₂ Commit.Same (b.commits e supply ps k) (b.commits e supply' ps k) := by
  induction ps generalizing k with
  | nil => exact .nil
  | cons p ps ih =>
    have later := ih prompt.tail
    have same := b.prepare_of_prompt e p prompt
    rw [commits, commits, commit?_eq, commit?_eq]
    generalize b.prepare e supply p k = prepared at same ⊢
    generalize b.prepare e supply' p k = prepared' at same ⊢
    cases same with
    | error x => exact later
    | nothing => exact later
    | commit same => exact .cons same later

/-- The results are the same where the templates lie as they did. -/
theorem resultsIn_again {l l' : Ledger} (templates : l'.templates = l.templates) {ps : List Plan} {k : Nat}
    (prompt : b.Prompt supply supply' k ps.length)
    (held : ∀ c ∈ b.commits e supply ps k, ∃ t, l.holder? c.key = some t) :
    b.resultsIn e supply' l' ps k = b.resultsIn e supply l ps k := by
  induction ps generalizing k with
  | nil => rfl
  | cons p ps ih =>
    rw [commits, commit?_eq] at held
    have later := ih prompt.tail fun c among => held c (List.mem_append_right _ among)
    have same := b.prepare_of_prompt e p prompt
    rw [resultsIn, resultsIn, later]
    congr 1
    generalize b.prepare e supply p k = prepared at same held ⊢
    generalize b.prepare e supply' p k = prepared' at same ⊢
    cases same with
    | error x => rfl
    | nothing => rfl
    | @commit c c' same =>
      obtain ⟨t, found⟩ := held c List.mem_cons_self
      show rendered p c'.made.outcome _ = rendered p c.made.outcome _
      rw [same.outcome, Ledger.slot_of_same same templates found]

end

/-! ### Catalogs with the same templates -/

variable {σ : Type} [Catalog.Backend σ] [Keeps σ] [Shows σ]

theorem ties_holds : Ties fun (l : Ledger) (s : σ) => Keeps.Represents l s ∧ Shows.Holds l.records s where
  represents tied := tied.1
  commit tied fresh _ committed := by
    refine ⟨Keeps.commit tied.1 fresh committed, ?_⟩
    rw [Ledger.records_commit, ← Shows.slot tied.1 fresh committed]
    exact Shows.holds_commit tied.2 committed

/-- For every identifier two catalogs have no template, or templates that are alike. -/
def Unchanged (s s' : σ) : Prop := ∀ id now,
  ((perform (.get id) now s).1 = .error (missing id) ∧ (perform (.get id) now s').1 = .error (missing id)) ∨
    ∃ t t', (perform (.get id) now s).1 = .ok t ∧ (perform (.get id) now s').1 = .ok t' ∧ t'.Alike t

theorem unchanged_of_represents {l l' : Ledger} {s s' : σ} (h : Keeps.Represents l s)
    (h' : Keeps.Represents l' s') (templates : l'.templates = l.templates) : Unchanged s s' := by
  intro id now
  by_cases known : ∃ t ∈ l.templates, t.id = id
  · obtain ⟨t, among, rfl⟩ := known
    obtain ⟨u, got, alike⟩ := Keeps.get h among now
    obtain ⟨u', got', alike'⟩ := Keeps.get h' (templates ▸ among) now
    exact .inr ⟨u, u', congrArg Prod.fst got, congrArg Prod.fst got', alike'.trans alike.symm⟩
  · have other : ∀ t ∈ l.templates, t.id ≠ id := fun t among same => known ⟨t, among, same⟩
    exact .inl ⟨congrArg Prod.fst (Shows.get_missing h other now),
      congrArg Prod.fst (Shows.get_missing h' (templates ▸ other) now)⟩

omit [Shows σ] in
/-- Commits whose identifiers no template has can be made. -/
theorem admits_of_missing {l : Ledger} {s : σ} (represents : Keeps.Represents l s)
    (distinct : (l.templates.map (·.id)).Nodup) {cs : List Commit} {ids : List Identifier} (nodup : ids.Nodup)
    (absent : ∀ id ∈ ids, ∀ now, (perform (.get id) now s).1 = .error (missing id))
    (taken : (cs.map (·.made.template.id)).Sublist ids) : l.Admits cs := by
  refine List.nodup_append.2 ⟨distinct, nodup.sublist taken, ?_⟩
  rintro id stored id' among rfl
  obtain ⟨t, held, rfl⟩ := List.mem_map.1 stored
  obtain ⟨u, got, -⟩ := Keeps.get represents held default
  have none := absent t.id (taken.subset among) default
  rw [got] at none
  cases none

theorem templateIds_commits [Libraries] (b : Batch) (as : List Artifact) (supply : Supply) (l : Ledger) :
    ((Launch.commits ⟨b, as, supply⟩ l).map (·.made.template.id)).Sublist
      ((List.range (b.plans supply as).length).map supply.templateId) := by
  have ids := (Launch.ids_commits ⟨b, as, supply⟩ l).map Prod.fst
  rwa [Launch.ids, List.map_map, List.map_map] at ids

/-- The identifiers for templates that two runs can take: all different, and none of a stored template. -/
structure Unused (n : Nat) (supply supply' : Supply) (s : σ) : Prop where
  distinct : ((List.range n).map supply.templateId ++ (List.range n).map supply'.templateId).Nodup
  missing : ∀ id ∈ (List.range n).map supply.templateId ++ (List.range n).map supply'.templateId,
    ∀ now, (perform (.get id) now s).1 = .error (missing id)

omit [Shows σ] in
theorem Unused.admits [Libraries] {b : Batch} {as : List Artifact} {supply supply' : Supply} {s : σ}
    (h : Unused (b.plans supply as).length supply supply' s) (plans : b.plans supply as = b.plans supply' as)
    {l : Ledger} (represents : Keeps.Represents l s)
    (distinct : (l.templates.map (·.id)).Nodup) :
    l.Admits (Launch.commits ⟨b, as, supply⟩ l ++ Launch.commits ⟨b, as, supply'⟩ l) := by
  refine admits_of_missing represents distinct h.distinct h.missing ?_
  rw [List.map_append]
  have ids' := b.templateIds_commits as supply' l
  rw [← plans] at ids'
  exact (b.templateIds_commits as supply l).append ids'

/-- A batch that is run twice over a sound catalog, without failed calls, late artifacts, workers that are
interrupted or identifiers that are taken, answers the same both times. The second run leaves the templates as the
first one left them, and the records that it adds are, one by one, alike to those of the first. -/
theorem run_again [Libraries] (medium : Medium) (b : Batch) (as : List Artifact) {supply supply' : Supply}
    {m : medium.State} (sound : Shows.Sound m) {schedule : Schedule}
    (analysed : b.Analysed supply as) (analysed' : b.Analysed supply' as)
    (prompt : b.Prompt supply supply' 0 (b.plans supply as).length)
    (unused : Unused (b.plans supply as).length supply supply' m)
    {reply reply' : Except Error (List Result)} {s₁ s₂ : Supervised medium.State}
    (first : b.run as supply { inner := m, schedule } = (reply, s₁))
    (second : b.run as supply' s₁ = (reply', s₂)) (clean : s₂.Clean) :
    (∃ rs, reply = .ok rs ∧ reply' = .ok rs) ∧
      Unchanged s₁.inner s₂.inner ∧
      ∃ old new new', Shows.Holds old m ∧ Shows.Holds (old ++ new) s₁.inner ∧
        Shows.Holds (old ++ new ++ new') s₂.inner ∧ List.Forall₂ Record.Alike new new' := by
  obtain ⟨old, holds⟩ := Shows.exists_holds sound
  obtain ⟨l, represents, rfl, distinct⟩ := Shows.exists_ledger sound holds
  let x : Launch := ⟨b, as, supply⟩
  let y : Launch := ⟨b, as, supply'⟩
  have plans : b.plans supply as = b.plans supply' as := analysed.plans_congr analysed'
  have admits : l.Admits (x.commits l ++ y.commits l) := unused.admits plans represents distinct
  let s : Supervised medium.State := { inner := m, schedule }
  have ran : x.run s = (reply, s₁) := first
  have ran' : y.run s₁ = (reply', s₂) := second
  have clean₁ : s₁.Clean := by
    refine (y.ties_run ties_holds l).back ?_
    rwa [ran']
  obtain ⟨rs, s', done, rfl, tied⟩ := (x.ties_run ties_holds l).answers
    (s := s) ⟨admits.left, represents, holds⟩ (by rwa [ran])
  obtain ⟨rfl, rfl⟩ := Prod.mk.inj (ran.symm.trans done)
  -- The first run leaves the environments alone, so the second one starts from the same.
  have same : y.commits (l.commitAll (x.commits l)) = y.commits l := y.commits_commitAll l _
  obtain ⟨rs', s', done', rfl, tied'⟩ := (y.ties_run ties_holds (l.commitAll (x.commits l))).answers
    (s := s₁) ⟨same ▸ admits.commitAll, tied⟩ (by rwa [ran'])
  obtain ⟨rfl, rfl⟩ := Prod.mk.inj (ran'.symm.trans done')
  rw [same] at tied' ⊢
  let e := l.environment b.settings.environment
  have commits : List.Forall₂ Commit.Same (x.commits l) (y.commits l) := by
    show List.Forall₂ Commit.Same _ (b.commits e supply' (b.plans supply' as) 0)
    rw [← plans]
    exact b.commits_again e prompt
  obtain ⟨templates, new, new', records, records', alike⟩ := l.commitAll_again commits
  have held : ∀ c ∈ x.commits l, ∃ t, (l.commitAll (x.commits l)).holder? c.key = some t :=
    fun c among => (Ledger.exists_record among).imp fun _ h => h.1
  refine ⟨⟨_, rfl, ?_⟩, unchanged_of_represents tied.1 tied'.1 templates, l.records, new, new', holds,
    records ▸ tied.2, records' ▸ tied'.2, alike⟩
  have results := b.resultsIn_again e templates prompt held
  rw [Launch.results, Launch.results, Ledger.environment_commitAll, Ledger.environment_commitAll]
  show Except.ok (b.resultsIn e supply' _ (b.plans supply' as) 0) = _
  rw [← plans]
  exact congrArg _ results

/-! ### Two runs in memory -/

/-- Over a sound catalog in memory no call of two runs fails when the identifiers for records are new as well. -/
theorem clean_again [Libraries] (b : Batch) (as : List Artifact) {supply supply' : Supply} {m : Memory}
    (sound : m.Sound) (plans : b.plans supply as = b.plans supply' as)
    (unused : Unused (b.plans supply as).length supply supply' m)
    (records : (m.history.map (·.id) ++ ((List.range (b.plans supply as).length).map supply.recordId ++
      (List.range (b.plans supply as).length).map supply'.recordId)).Nodup) :
    (b.run as supply' (b.run as supply ({ inner := m } : Supervised Memory)).2).2.Clean := by
  obtain ⟨l, represents, history, distinct⟩ := sound.exists_ledger
  let x : Launch := ⟨b, as, supply⟩
  let y : Launch := ⟨b, as, supply'⟩
  have commits : Stencil.history [x, y] l = x.commits l ++ y.commits l := by
    show x.commits l ++ (y.commits l ++ []) = _
    rw [List.append_nil]
  have accepts : l.Accepts (Stencil.history [x, y] l) := by
    rw [commits]
    refine ⟨unused.admits plans represents distinct, ?_⟩
    have ids := (ids_history [x, y] l).map Prod.snd
    rw [commits, List.map_map, List.flatMap_cons, List.flatMap_cons, List.flatMap_nil, List.append_nil,
      Launch.ids, Launch.ids, List.map_append, List.map_append, List.map_map, List.map_map,
      ← List.map_append] at ids
    rw [history]
    rw [← plans] at ids
    exact records.sublist ((List.Sublist.refl _).append ids)
  have calm : ({ inner := m } : Supervised Memory).Untroubled := ⟨rfl, fun _ among => by cases among⟩
  exact (untroubled_runAll calm represents accepts).clean

open Readers

def laterSupply : Supply :=
  { rivalry.supply with templateId := fun k => .fresh (k + 2), recordId := fun k => .fresh (k + 2) }

theorem ids_again : ((List.range (lenient.plans rivalry.supply rivals).length).map Identifier.fresh ++
    (List.range (lenient.plans rivalry.supply rivals).length).map fun k => Identifier.fresh (k + 2)).Nodup := by
  have all : ((List.range 2).map Identifier.fresh ++
      (List.range 2).map fun k => Identifier.fresh (k + 2)).Nodup := by decide
  have few := List.range_sublist.2 length_plans_rivals
  exact all.sublist ((few.map _).append (few.map _))

/-- Both runs over the two files answer the same, and the second one adds the same two records. -/
theorem run_again_rivals :
    ∃ rs s₁ s₂, lenient.run rivals rivalry.supply ({ inner := {} } : Supervised Memory) = (.ok rs, s₁) ∧
      lenient.run rivals laterSupply s₁ = (.ok rs, s₂) ∧ Unchanged s₁.inner s₂.inner ∧
      ∃ new new', s₁.inner.history = new ∧ s₂.inner.history = new ++ new' ∧
        List.Forall₂ Record.Alike new new' := by
  have unused : Unused (lenient.plans rivalry.supply rivals).length rivalry.supply laterSupply ({} : Memory) :=
    ⟨ids_again, fun _ _ _ => rfl⟩
  have analysed : lenient.Analysed rivalry.supply rivals := fun _ _ => rfl
  have analysed' : lenient.Analysed laterSupply rivals := fun _ _ => rfl
  have clean := clean_again lenient rivals Memory.sound_empty (analysed.plans_congr analysed') unused ids_again
  have prompt : lenient.Prompt rivalry.supply laterSupply 0 (lenient.plans rivalry.supply rivals).length :=
    fun _ _ _ => ⟨⟨rfl, rfl⟩, ⟨rfl, rfl⟩⟩
  cases first : lenient.run rivals rivalry.supply ({ inner := {} } : Supervised Memory) with
  | mk reply s₁ =>
    cases second : lenient.run rivals laterSupply s₁ with
    | mk reply' s₂ =>
      rw [first, second] at clean
      obtain ⟨⟨rs, rfl, rfl⟩, unchanged, old, new, new', none, holds, holds', alike⟩ :=
        run_again .memory lenient rivals Memory.sound_empty analysed analysed' prompt unused first second clean
      obtain rfl : [] = old := none
      exact ⟨rs, s₁, s₂, rfl, second, unchanged, new, new', holds, holds', alike⟩

end Batch

end Stencil
