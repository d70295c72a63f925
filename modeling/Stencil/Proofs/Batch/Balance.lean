import Stencil.Proofs.Batch.Traces

/-!
# Counts agree with the history

A commit puts a template, counts it and adds a record for it with separate calls, and templates are shared by
artifacts and by runs. Still, where no call fails, a template is counted once for each of its records, and there
are as many records as there were artifacts rendered.
-/

namespace Stencil

open Catalog

variable {σ : Type} [Catalog.Backend σ] [Keeps σ] [Shows σ]

/-! ### The books -/

/-- A catalog stands for a ledger in which every record names a template, and counts every template as often as
there are records for it. -/
structure Catalog.Audited (l : Ledger) (s : σ) : Prop where
  represents : Keeps.Represents l s
  holds : Shows.Holds l.records s
  balanced : l.Balanced
  counts : Shows.Counts l.uses s

namespace Catalog.Audited

variable {l : Ledger} {s s' : σ}

theorem commit {c : Commit} {id : Identifier} (h : Audited l s)
    (fresh : ∀ t ∈ l.templates, t.id ≠ c.made.template.id) (unused : c.made.template.usage = 0)
    (committed : Committed c s id s') : Audited (l.commit c) s' := by
  obtain rfl := Shows.slot h.represents fresh committed
  have uses : (l.commit c).uses = Function.update l.uses (l.slot c.made.template)
      (l.uses (l.slot c.made.template) + 1) := by
    funext id
    rw [Ledger.uses_commit, Function.update_apply]
    by_cases same : id = l.slot c.made.template
    · rw [if_pos same, if_pos same.symm, same]
    · rw [if_neg same, if_neg (Ne.symm same), Nat.add_zero]
  -- A template that comes in new starts from zero, so nothing may name it yet.
  have none : l.uses c.made.template.id = 0 := h.balanced.uses_eq_zero fresh
  refine ⟨Keeps.commit h.represents fresh committed, ?_, h.balanced.commit c, ?_⟩
  · rw [Ledger.records_commit]
    exact Shows.holds_commit h.holds committed
  · rw [uses]
    exact Shows.counts_commit h.represents fresh unused none h.counts committed

theorem ties : Ties (Audited : Ledger → σ → Prop) where
  represents h := h.represents
  commit h fresh unused committed := h.commit fresh unused committed

theorem putEnvironment (h : Audited l s) {e : Environment} {now : Instant}
    (put : perform (.putEnvironment e) now s = (.ok (), s')) : Audited (l.putEnvironment e) s' where
  represents := Keeps.putEnvironment h.represents put
  holds := Shows.holds_putEnvironment h.holds put
  balanced := ⟨h.balanced.named, h.balanced.used⟩
  counts := Shows.counts_putEnvironment h.counts put

theorem vacant (represents : Keeps.Represents l s) (holds : Shows.Holds l.records s)
    (templates : l.templates = []) (records : l.records = []) : Audited l s where
  represents := represents
  holds := holds
  balanced := by
    constructor
    · rw [records]
      exact fun r among => by cases among
    · rw [templates]
      exact fun t among => by cases among
  counts := Shows.counts_of_vacant represents templates l.uses

theorem exists_get (h : Audited l s) {r : Record} (among : r ∈ l.records) (now : Instant) :
    ∃ t, (perform (.get r.template) now s).1 = .ok t ∧ t.id = r.template := by
  obtain ⟨t, held, named⟩ := h.balanced.named r among
  obtain ⟨t', got, alike⟩ := Keeps.get h.represents held now
  rw [named] at got
  exact ⟨t', congrArg Prod.fst got, alike.id.trans named⟩

theorem usage_of_get (h : Audited l s) {id : Identifier} {now : Instant} {t : Template}
    (got : (perform (.get id) now s).1 = .ok t) : t.usage = .ofNat (l.uses id) ∧ 0 < l.uses id := by
  refine ⟨Shows.usage h.counts got, ?_⟩
  by_cases known : ∃ u ∈ l.templates, u.id = id
  · obtain ⟨u, held, rfl⟩ := known
    exact h.balanced.used u held
  · have missing := Shows.get_missing h.represents (fun u held same => known ⟨u, held, same⟩) now
    rw [missing] at got
    cases got

end Catalog.Audited

/-! ### How many artifacts were rendered -/

theorem Batch.countP_resultsIn [Libraries] (b : Batch) (e : Environment) (supply : Supply) (l : Ledger)
    (ps : List Plan) (k : Nat) :
    (b.resultsIn e supply l ps k).countP (·.item.fate.isRendered) = (b.commits e supply ps k).length := by
  induction ps generalizing k with
  | nil => rfl
  | cons p ps ih =>
    rw [resultsIn, commits, commit?_eq, List.countP_cons, List.length_append, ih, Nat.add_comm]
    congr 1
    cases b.prepare e supply p k with
    | error x => rfl
    | ok made =>
      cases made with
      | none => rfl
      | some c =>
        have rendered : (resultIn l p (.ok (some c))).item.fate.isRendered = true :=
          (isRendered_rendered p c.made.outcome _).1
        rw [if_pos rendered]
        rfl

/-- How many artifacts of some batches were rendered, by the summaries. -/
def succeeded (rss : List (List Batch.Result)) (duration : Duration) : Nat :=
  (rss.map fun rs => (Batch.summary rs duration).succeeded).foldr (· + ·) 0

/-! ### Sessions -/

/-- What happens to a catalog: batches, none of whose calls fails, each with its reply, and environments that are
put in between. -/
inductive Session [Libraries] : σ → List (Launch × Except Error (List Batch.Result)) → σ → Prop where
  | finished (s : σ) : Session s [] s
  | environment {e : Environment} {now : Instant} {s s₁ s' : σ}
      {xs : List (Launch × Except Error (List Batch.Result))}
      (put : perform (.putEnvironment e) now s = (.ok (), s₁)) (rest : Session s₁ xs s') :
      Session s xs s'
  | launch {x : Launch} {s s' : σ} {schedule : Schedule} {reply : Except Error (List Batch.Result)}
      {s₁ : Supervised σ} {xs : List (Launch × Except Error (List Batch.Result))}
      (ran : x.run { inner := s, schedule } = (reply, s₁)) (clean : s₁.Clean)
      (rest : Session s₁.inner xs s') : Session s ((x, reply) :: xs) s'

/-- Through a session the books stay in order, every batch is answered, and the history grows by one record for
each rendered artifact. -/
theorem Session.audited [Libraries] {s s' : σ} {xs : List (Launch × Except Error (List Batch.Result))}
    (session : Session s xs s') {l : Ledger} (audited : Audited l s)
    (fresh : (l.templates.map (·.id) ++ xs.flatMap fun x => x.1.ids.map Prod.fst).Nodup) :
    ∃ l' rss, Audited l' s' ∧ xs.map Prod.snd = rss.map Except.ok ∧
      ∀ duration, l'.records.length = l.records.length + succeeded rss duration := by
  induction session generalizing l with
  | finished s => exact ⟨l, [], audited, rfl, fun _ => rfl⟩
  | @environment e now s s₁ s' xs put rest ih =>
    exact ih (l := l.putEnvironment e) (audited.putEnvironment put) fresh
  | @launch x s s' schedule reply s₁ xs ran clean rest ih =>
    let cs := x.commits l
    rw [List.flatMap_cons] at fresh
    have ids : (cs.map (·.made.template.id)).Sublist (x.ids.map Prod.fst) := by
      have sub := (x.ids_commits l).map Prod.fst
      rwa [List.map_map] at sub
    have admits : l.Admits cs :=
      fresh.sublist ((List.Sublist.refl _).append (ids.trans (List.sublist_append_left _ _)))
    obtain ⟨rs, s₂, done, results, tied⟩ := (x.ties_run Audited.ties l).answers
      (s := { inner := s, schedule }) ⟨admits, audited⟩ (by rwa [ran])
    obtain ⟨rfl, rfl⟩ := Prod.mk.inj (ran.symm.trans done)
    -- The templates of the ledger are old ones or those of this launch.
    have later : ((l.commitAll cs).templates.map (·.id) ++
        xs.flatMap fun x => x.1.ids.map Prod.fst).Nodup := by
      rw [← List.append_assoc] at fresh
      refine fresh.sublist (((l.ids_commitAll cs).trans ?_).append (List.Sublist.refl _))
      exact (List.Sublist.refl _).append ids
    obtain ⟨l', rss, audited', replies, lengths⟩ := ih tied later
    refine ⟨l', rs :: rss, audited', congrArg (_ :: ·) replies, fun duration => ?_⟩
    have grown : (l.commitAll cs).records.length = l.records.length + cs.length := by
      rw [Ledger.records_commitAll, List.length_append, List.length_map]
    have rendered : (Batch.summary rs duration).succeeded = cs.length := by
      rw [Batch.succeeded_summary, results, Launch.results, Ledger.environment_commitAll]
      exact Batch.countP_resultsIn ..
    rw [lengths duration, grown, Nat.add_assoc, ← rendered]
    rfl

/-- Start from a sound catalog without templates and records, and run any batches in which no call fails, with
environments put in between. Every batch is answered, every record names a template, every template was counted
once for each of its records, and it has one. There are as many records as there were artifacts rendered. -/
theorem counts_agree [Libraries] (medium : Medium) {s s' : medium.State} (sound : Shows.Sound s)
    (noTemplates : ∀ id now, (perform (.get id) now s).1 = .error (missing id))
    (noRecords : Shows.Holds [] s) {xs : List (Launch × Except Error (List Batch.Result))}
    (session : Session s xs s') (fresh : (xs.flatMap fun x => x.1.ids.map Prod.fst).Nodup) :
    ∃ rss records, xs.map Prod.snd = rss.map Except.ok ∧ Shows.Holds records s' ∧
      (∀ r ∈ records, ∀ now, ∃ t, (perform (.get r.template) now s').1 = .ok t ∧ t.id = r.template) ∧
      (∀ id now t, (perform (.get id) now s').1 = .ok t →
        0 < records.countP (·.template == id) ∧
        t.usage = .ofNat (records.countP (·.template == id)) ∧
        (records.length < UInt64.size → t.usage.toNat = records.countP (·.template == id))) ∧
      ∀ duration, records.length = succeeded rss duration := by
  obtain ⟨l, represents, none, -⟩ := Shows.exists_ledger sound noRecords
  have vacant : l.templates = [] := by
    refine List.eq_nil_iff_forall_not_mem.2 fun t among => ?_
    obtain ⟨t', got, -⟩ := Keeps.get represents among default
    have absent := noTemplates t.id default
    rw [got] at absent
    cases absent
  have audited : Audited l s := .vacant represents (none.symm ▸ noRecords) vacant none
  obtain ⟨l', rss, audited', replies, lengths⟩ := session.audited audited (by rwa [vacant])
  refine ⟨rss, l'.records, replies, audited'.holds, fun r among now => audited'.exists_get among now,
    fun id now t got => ?_, fun duration => ?_⟩
  · obtain ⟨usage, used⟩ := audited'.usage_of_get got
    refine ⟨used, usage, fun small => ?_⟩
    rw [usage]
    exact UInt64.toNat_ofNat_of_lt (List.countP_le_length.trans_lt small)
  · rw [lengths duration, none]
    exact Nat.zero_add _

open Readers

/-- After the batch over the two rival files the one template was counted once for each of its records. -/
theorem counts_agree_rivalry :
    ∃ rs, (rivalry.run ({ inner := {} } : Supervised Memory)).1 = .ok rs ∧
      ∃ records, afterRivalry.inner.history = records ∧
        (∀ r ∈ records, ∀ now, ∃ t, (perform (.get r.template) now afterRivalry.inner).1 = .ok t ∧
          t.id = r.template) ∧
        (∀ id now t, (perform (.get id) now afterRivalry.inner).1 = .ok t →
          0 < records.countP (·.template == id) ∧
          t.usage = .ofNat (records.countP (·.template == id))) ∧
        ∀ duration, records.length = succeeded [rs] duration := by
  have ran : rivalry.run ({ inner := {} } : Supervised Memory) =
      ((rivalry.run ({ inner := {} } : Supervised Memory)).1, afterRivalry) := rfl
  have session : Session ({} : Memory) [(rivalry, (rivalry.run ({ inner := {} } : Supervised Memory)).1)]
      afterRivalry.inner := .launch ran clean_afterRivalry (.finished _)
  have fresh : ([(rivalry, (rivalry.run ({ inner := {} } : Supervised Memory)).1)].flatMap fun x =>
      x.1.ids.map Prod.fst).Nodup := by
    have ids := ids_rivalry.1
    rwa [List.flatMap_singleton] at ids ⊢
  obtain ⟨rss, records, replies, holds, named, counted, lengths⟩ :=
    counts_agree .memory Memory.sound_empty (fun _ _ => rfl) rfl session fresh
  obtain ⟨rs, rfl⟩ : ∃ rs, rss = [rs] := by
    have one := congrArg List.length replies
    rw [List.length_map, List.length_map] at one
    exact List.length_eq_one_iff.1 one.symm
  exact ⟨rs, List.head_eq_of_cons_eq replies, records, holds, named,
    fun id now t got => ⟨(counted id now t got).1, (counted id now t got).2.1⟩, lengths⟩

end Stencil
