import Stencil.Proofs.Batch.Isolation
import Stencil.Proofs.Batch.Untroubled
import Stencil.Proofs.Catalog.Contents

/-!
# What the history of a catalog can be made from again

Records name the templates that their contents came from. The template that is stored under a key is the
first one that was committed with it, so a record comes out of the catalog again exactly when it comes out of
that one.
-/

namespace Stencil

open Catalog

variable {σ : Type} [Catalog.Backend σ] [Keeps σ]

/-! ### The two backends -/

/-- What a catalog is kept in. -/
inductive Medium where
  | memory
  | relational

namespace Medium

def State : Medium → Type
  | memory => Memory
  | relational => Relational

def vacant : (medium : Medium) → medium.State
  | memory => ({} : Memory)
  | relational => ({} : Relational)

instance (medium : Medium) : Catalog.Backend medium.State :=
  match medium with
  | memory => inferInstanceAs (Catalog.Backend Memory)
  | relational => inferInstanceAs (Catalog.Backend Relational)

instance (medium : Medium) : Keeps medium.State :=
  match medium with
  | memory => inferInstanceAs (Keeps Memory)
  | relational => inferInstanceAs (Keeps Relational)

instance (medium : Medium) : Shows medium.State :=
  match medium with
  | memory => inferInstanceAs (Shows Memory)
  | relational => inferInstanceAs (Shows Relational)

theorem represents_vacant (medium : Medium) : Keeps.Represents {} medium.vacant := by
  cases medium with
  | memory => exact Memory.represents_empty
  | relational => exact Relational.represents_empty

end Medium

/-! ### Records and their templates -/

/-- What a record says is what was committed. -/
structure Commit.Gives [Libraries] (c : Commit) (r : Record) : Prop where
  environment : r.environment = c.made.rendering.environment
  path : r.path = c.path
  content : r.content = c.made.rendering.content
  outcome : r.outcome = c.made.rendering.validate c.made.template.kind

/-- A content comes out of a template, which has the kind that the content was validated under. -/
structure Template.Reproduces (t : Template) (e : Environment) (content : String) (kind : Kind) :
    Prop where
  content : (t.render e).map (·.content) = .ok content
  kind : t.kind = kind

/-- Templates with the same text, declarations and kind. -/
structure Template.Interchangeable (t t' : Template) : Prop where
  content : t.content = t'.content
  schema : t.schema = t'.schema
  kind : t.kind = t'.kind

theorem Template.Alike.interchangeable {t t' : Template} (h : t.Alike t') : t.Interchangeable t' :=
  ⟨h.content, h.schema, h.kind⟩

/-- Of two templates with the same text, declarations and kind the same comes out. -/
theorem Template.Interchangeable.reproduces_iff {t t' : Template} (h : t.Interchangeable t')
    {e : Environment} {content : String} {kind : Kind} :
    t.Reproduces e content kind ↔ t'.Reproduces e content kind := by
  have same : (t'.render e).map (·.content) = (t.render e).map (·.content) := by
    rw [Template.render_congr h.schema h.content]
    cases t.render e <;> rfl
  constructor
  · rintro ⟨rendered, kind⟩
    exact ⟨same.trans rendered, h.kind.symm.trans kind⟩
  · rintro ⟨rendered, kind⟩
    exact ⟨same.symm.trans rendered, h.kind.trans kind⟩

/-- Where a record comes from, and what a catalog answers for it: the template that it names, which is the first
one that was committed with the key of its own, and its environment. -/
structure Traced [Libraries] (cs : List Commit) (s : σ) (later : Instant) (r : Record) (c first : Commit)
    (stored : Template) (e : Environment) : Prop where
  committed : c ∈ cs
  gives : c.Gives r
  rendered : c.made.For e
  earliest : cs.find? (fun d => d.key == c.key) = some first
  get : perform (.get r.template) later s = (.ok stored, s)
  alike : stored.Alike first.made.template
  environment : ∃ found, perform (.environment r.environment) later s = (.ok found, s) ∧
    e = found.getD (.identity r.environment)

/-- Every record of a catalog that was empty but for environments can be traced. -/
theorem exists_traced [Libraries] {xs : List Launch} {l : Ledger} {s : σ} (noTemplates : l.templates = [])
    (noRecords : l.records = []) (represents : Keeps.Represents (l.commitAll (history xs l)) s)
    {q : RecordQuery} {later : Instant} {rs : List Record}
    (answered : (perform (.records q) later s).1 = .ok rs) {r : Record} (among : r ∈ rs) :
    ∃ c first stored e, Traced (history xs l) s later r c first stored e := by
  obtain ⟨r', kept, alike⟩ := Keeps.records represents answered among
  have old : r' ∉ l.records := by
    rw [noRecords]
    exact List.not_mem_nil
  obtain ⟨c, committed, t, held, rfl⟩ := (Ledger.of_mem_records kept).resolve_left old
  obtain ⟨stored, got, same⟩ :=
    Keeps.get represents (Ledger.holder?_eq_some_iff.1 held).1 later
  have earliest : ((history xs l).find? fun d => d.key == c.key).map (·.made.template) = some t := by
    have none : l.holder? c.key = none := by
      rw [Ledger.holder?, noTemplates]
      rfl
    rwa [Ledger.holder?_commitAll, none, Option.none_or] at held
  obtain ⟨first, found, rfl⟩ := Option.map_eq_some_iff.1 earliest
  have rendered := for_of_mem_history committed
  refine ⟨c, first, stored, _, committed, ⟨alike.environment, alike.path, alike.content, ?_⟩, rendered,
    found, ?_, same, _, Keeps.environment represents r.environment later, ?_⟩
  · exact alike.outcome.trans rendered.outcome
  · rw [alike.template]
    exact got
  · have environment : r.environment = c.made.rendering.environment := alike.environment
    rw [environment]
    exact (Ledger.environment_commitAll l _ _).symm

/-- Start from a catalog with environments and run any launches in which no call fails. For every record that
the catalog answers it has the template that the record names, the first one that was committed with the same
key. The record comes out of it exactly when it comes out of that first one, and so whenever the first one and
the one that was rendered have the same text, declarations and kind. -/
theorem record_reproducible [Libraries] (medium : Medium) {es : List Environment} {schedule : Schedule}
    {now : Instant} {s : Supervised medium.State}
    (loaded : loadEnvironments now es { inner := medium.vacant, schedule } = (.ok (), s))
    {xs : List Launch} (clean : (runAll xs s).Clean) (fresh : ((xs.flatMap Launch.ids).map Prod.fst).Nodup)
    {q : RecordQuery} {later : Instant} {rs : List Record}
    (answered : (perform (.records q) later (runAll xs s).inner).1 = .ok rs) {r : Record}
    (among : r ∈ rs) :
    ∃ c first stored e,
      Traced (history xs (.ofEnvironments es)) (runAll xs s).inner later r c first stored e ∧
      (stored.Reproduces e r.content c.made.template.kind ↔
        first.made.template.Reproduces e r.content c.made.template.kind) ∧
      (first.made.template.Interchangeable c.made.template →
        stored.Reproduces e r.content c.made.template.kind) := by
  obtain ⟨noTemplates, noRecords⟩ := Ledger.blank_ofEnvironments es
  have admits : (Ledger.ofEnvironments es).Admits (history xs (.ofEnvironments es)) := by
    have ids := (ids_history xs (.ofEnvironments es)).map Prod.fst
    rw [List.map_map] at ids
    rw [Ledger.Admits, noTemplates]
    exact fresh.sublist ids
  have represents : Keeps.Represents (.ofEnvironments es) s.inner :=
    represents_load medium.represents_vacant loaded
  obtain ⟨c, first, stored, e, traced⟩ := exists_traced noTemplates noRecords
    (represents_runAll represents admits clean) answered among
  have same : stored.Reproduces e r.content c.made.template.kind ↔
      first.made.template.Reproduces e r.content c.made.template.kind :=
    traced.alike.interchangeable.reproduces_iff
  refine ⟨c, first, stored, e, traced, same, fun agrees => ?_⟩
  rw [same, agrees.reproduces_iff, traced.gives.content]
  exact ⟨by rw [traced.rendered.content]; rfl, rfl⟩

/-! ### Two artifacts under one key -/

open Readers

/-- Settings under which every artifact with an analysis becomes a template. -/
def lenient : Batch :=
  { settings := { extraction := { threshold := 0, checks := 0 } }, lastPriority := none,
    category := none, valid := by decide +kernel }

def environmentFile (path content : String) : Artifact :=
  { path := ⟨path⟩, content, kind := .config .env }

/-- Two files of the same name with the same setting, whose value is a different path. -/
def rivals : List Artifact :=
  [environmentFile "a/x.env" "P=a/b\n", environmentFile "b/x.env" "P=c/d\n"]

def rivalry : Launch :=
  ⟨lenient, rivals, { Batch.still with templateId := .fresh, recordId := .fresh }⟩

def rivalKey : Template.Key := ⟨"x", .configuration, .of "P=${p}\n"⟩

theorem made_rival {a : Artifact} (among : a ∈ rivals) (x : Analysis) (newId : Identifier)
    (now : Instant) (category : x.category = .configuration) :
    (Extraction.made x a newId now).key = rivalKey := by
  have all : ∀ a ∈ rivals, a.stem = "x" ∧
      (Extraction.made default a default default).content = "P=${p}\n" := by decide +kernel
  obtain ⟨stem, content⟩ := all a among
  have key : (Extraction.made x a newId now).key =
      ⟨a.stem, x.category, .of (Extraction.made default a default default).content⟩ := rfl
  rw [key, stem, category, content]
  rfl

theorem analyze_rival {a : Artifact} (among : a ∈ rivals) :
    ∃ x, Inspection.analyze {} a = .ok x ∧ x.category = .configuration ∧
      (lenient.settings.extraction.gate x a).accepted = true ∧ inPercent x.complexity = true ∧
      inPercent x.score = true := by
  have all : ∀ a ∈ rivals, ((Inspection.analyze {} a).toOption.any fun x =>
      decide (x.category = .configuration) && (lenient.settings.extraction.gate x a).accepted &&
        inPercent x.complexity && inPercent x.score) = true := by decide +kernel
  have holds := all a among
  cases known : Inspection.analyze {} a with
  | error x =>
    rw [known] at holds
    cases holds
  | ok x =>
    rw [known] at holds
    have facts : (decide (x.category = .configuration) &&
        (lenient.settings.extraction.gate x a).accepted && inPercent x.complexity &&
        inPercent x.score) = true := holds
    simp only [Bool.and_eq_true, decide_eq_true_iff] at facts
    exact ⟨x, rfl, facts.1.1.1, facts.1.1.2, facts.1.2, facts.2⟩

theorem shared_rival {a : Artifact} (among : a ∈ rivals) : lenient.shared rivals a = lenient.own a := by
  have leaders : ∀ a ∈ rivals, Plan.leader (lenient.admitted rivals) a = a := by decide +kernel
  rw [Batch.shared, Plan.shared, leaders a among]
  rfl

theorem plan_rival {a : Artifact} (among : a ∈ rivals) :
    lenient.own a ∈ lenient.plans rivalry.supply rivals := by
  have analysed : lenient.Analysed rivalry.supply rivals := fun _ _ => rfl
  exact analysed.mem_plans.2 ⟨a, among, shared_rival among, rfl⟩

theorem commit?_rival {a : Artifact} (among : a ∈ rivals) (k : Nat) :
    ∃ c, lenient.commit? (.identity "production") rivalry.supply (lenient.own a) k = some c ∧
      c.made.template.usage = 0 ∧ c.key = rivalKey ∧ c.made.rendering.content = a.content ∧
      c.made.rendering.environment = "production" := by
  let e : Environment := .identity "production"
  obtain ⟨x, known, category, accepted, complexity, score⟩ := analyze_rival among
  have plan : lenient.own a = ⟨a, x.category, .ok x⟩ := Batch.own_of_ok known
  have named : ∀ a ∈ rivals, Text.allBlank a.stem.toList = false ∧ a.kind = .config .env := by
    decide +kernel
  have config : a.kind = .script → Extraction.QuotedLiterals a.content.toList := fun script => by
    rw [(named a among).2] at script
    cases script
  let id := rivalry.supply.templateId k
  let now := rivalry.supply.time k
  obtain ⟨valid, rendering, rendered, content⟩ := Extraction.render_made id now (e := e)
    (named a among).1 complexity score config rfl
  have regenerated : lenient.regenerate e x a id now =
      .ok (some ⟨Extraction.made x a id now, rendering, rendering.validate a.kind⟩) := by
    rw [Batch.regenerate_eq, if_pos accepted, valid, rendered]
    rfl
  refine ⟨⟨⟨Extraction.made x a id now, rendering, rendering.validate a.kind⟩, a.path,
    rivalry.supply.recordId k, now⟩, ?_, rfl, made_rival among x id now category, content,
    (Template.of_render rendered).2.1⟩
  have timely : lenient.Timely rivalry.supply k := ⟨rfl, rfl⟩
  unfold Batch.commit?
  simp only [plan, timely.early, Bool.false_eq_true, if_false, Batch.work_eq timely]
  rw [regenerated]

theorem commit_rival {a : Artifact} (among : a ∈ rivals) :
    ∃ c ∈ history [rivalry] {}, c.key = rivalKey ∧ c.made.rendering.content = a.content ∧
      c.made.rendering.environment = "production" := by
  obtain ⟨k, committed⟩ : ∃ k, ∀ c,
      lenient.commit? (.identity "production") rivalry.supply (lenient.own a) k = some c →
      c ∈ lenient.commits (.identity "production") rivalry.supply (lenient.plans rivalry.supply rivals) 0 :=
    Batch.exists_mem_commits (plan_rival among) 0
  obtain ⟨c, made, -, facts⟩ := commit?_rival among k
  have whole : history [rivalry] {} = rivalry.commits {} := List.append_nil _
  rw [whole]
  exact ⟨c, committed c made, facts⟩

/-- The catalog after the batch over the two files. -/
def afterRivalry : Supervised Memory := runAll [rivalry] { inner := {} }

theorem length_plans_rivals : (lenient.plans rivalry.supply rivals).length ≤ 2 :=
  lenient.length_plans_le rivalry.supply rivals

theorem ids_rivalry : (([rivalry].flatMap Launch.ids).map Prod.fst).Nodup ∧
    (([rivalry].flatMap Launch.ids).map Prod.snd).Nodup := by
  have fresh : ((List.range 2).map Identifier.fresh).Nodup := by decide
  have ids : ((List.range (lenient.plans rivalry.supply rivals).length).map Identifier.fresh).Nodup :=
    fresh.sublist ((List.range_sublist.2 length_plans_rivals).map _)
  have whole : [rivalry].flatMap Launch.ids =
      (List.range (lenient.plans rivalry.supply rivals).length).map fun k =>
        (Identifier.fresh k, Identifier.fresh k) := List.append_nil _
  rw [whole, List.map_map, List.map_map]
  exact ⟨ids, ids⟩

theorem clean_afterRivalry : afterRivalry.Clean :=
  clean_runAll_memory ids_rivalry.1 ids_rivalry.2

theorem represents_afterRivalry :
    Memory.Represents (Ledger.commitAll {} (history [rivalry] {})) afterRivalry.inner := by
  have admits : Ledger.Admits {} (history [rivalry] {}) := by
    have ids := (ids_history [rivalry] {}).map Prod.fst
    rw [List.map_map] at ids
    exact ids_rivalry.1.sublist ids
  exact represents_runAll (σ := Memory) (s := { inner := {} }) Memory.represents_empty admits
    clean_afterRivalry

theorem record_rival :
    ∃ rs id, (perform (.records {}) default afterRivalry.inner).1 = .ok rs ∧
      (∃ stored, perform (.get id) default afterRivalry.inner = (.ok stored, afterRivalry.inner)) ∧
      ∀ a ∈ rivals, ∃ r ∈ rs, r.template = id ∧ r.content = a.content ∧
        r.environment = "production" := by
  let l := Ledger.commitAll {} (history [rivalry] {})
  have kept : ∀ {a}, a ∈ rivals → ∃ t, l.holder? rivalKey = some t ∧ ∃ r ∈ l.records,
      r.template = t.id ∧ r.content = a.content ∧ r.environment = "production" := by
    intro a among
    obtain ⟨c, committed, key, content, environment⟩ := commit_rival among
    obtain ⟨t, held, recorded⟩ := Ledger.exists_record (l := {}) committed
    exact ⟨t, key ▸ held, c.record t.id, recorded, rfl, content, environment⟩
  obtain ⟨t, held, -⟩ := kept (a := environmentFile "a/x.env" "P=a/b\n") List.mem_cons_self
  obtain ⟨stored, got, -⟩ :=
    represents_afterRivalry.exists_get (Ledger.holder?_eq_some_iff.1 held).1
  refine ⟨_, t.id, rfl, ⟨stored, got⟩, fun a among => ?_⟩
  obtain ⟨t', held', r, recorded, template, rest⟩ := kept among
  obtain rfl : t = t' := Option.some.inj (held.symm.trans held')
  have stands : r ∈ afterRivalry.inner.history := by
    rw [represents_afterRivalry.records]
    exact recorded
  exact ⟨r, mem_chronicle.2 (List.mem_filter.2 ⟨stands, rfl⟩), template, rest⟩

/-- Both files are rendered without failure under one template, and one of the two records does not come out
of it: as its default the template has the value of the other file. -/
theorem rivalry_not_reproducible :
    afterRivalry.Clean ∧ (([rivalry].flatMap Launch.ids).map Prod.fst).Nodup ∧
      ∃ rs, (perform (.records {}) default afterRivalry.inner).1 = .ok rs ∧
        ∃ r ∈ rs, (perform (.environment r.environment) default afterRivalry.inner).1 = .ok none ∧
          ∃ stored, (perform (.get r.template) default afterRivalry.inner).1 = .ok stored ∧
            (stored.render (.identity r.environment)).map (·.content) ≠ .ok r.content := by
  obtain ⟨rs, id, answered, ⟨stored, got⟩, records⟩ := record_rival
  refine ⟨clean_afterRivalry, ids_rivalry.1, rs, answered, ?_⟩
  have none : ∀ name, (perform (.environment name) default afterRivalry.inner).1 = .ok none := by
    intro name
    show Except.ok (afterRivalry.inner.environments.get? name) = _
    rw [represents_afterRivalry.environments, Ledger.environment?, Ledger.environments_commitAll]
    rfl
  have other : ∀ a ∈ rivals,
      (stored.render (.identity "production")).map (·.content) ≠ .ok a.content →
        ∃ r ∈ rs, (perform (.environment r.environment) default afterRivalry.inner).1 = .ok .none ∧
          ∃ stored, (perform (.get r.template) default afterRivalry.inner).1 = .ok stored ∧
            (stored.render (.identity r.environment)).map (·.content) ≠ .ok r.content := by
    intro a among differs
    obtain ⟨r, recorded, template, content, environment⟩ := records a among
    refine ⟨r, recorded, none _, stored, ?_, ?_⟩
    · rw [template, got]
    · rw [environment, content]
      exact differs
  -- Whatever comes out of the one template, it is not the content of both.
  by_cases first : (stored.render (.identity "production")).map (·.content) = .ok "P=a/b\n"
  · refine other (environmentFile "b/x.env" "P=c/d\n") (List.mem_cons_of_mem _ List.mem_cons_self) ?_
    rw [first]
    exact fun same => absurd (Except.ok.inj same) (by decide)
  · exact other (environmentFile "a/x.env" "P=a/b\n") List.mem_cons_self first

/-- The records of the two files are among those that have a first commit to come out of. -/
theorem record_reproducible_rivalry :
    ∃ rs, (perform (.records {}) default afterRivalry.inner).1 = .ok rs ∧ ∃ r ∈ rs,
      ∃ c first stored e,
        Traced (σ := Memory) (history [rivalry] (.ofEnvironments [])) afterRivalry.inner default r c
          first stored e ∧
        (stored.Reproduces e r.content c.made.template.kind ↔
          first.made.template.Reproduces e r.content c.made.template.kind) ∧
        (first.made.template.Interchangeable c.made.template →
          stored.Reproduces e r.content c.made.template.kind) := by
  obtain ⟨rs, id, answered, -, records⟩ := record_rival
  obtain ⟨r, recorded, -⟩ := records (environmentFile "a/x.env" "P=a/b\n") List.mem_cons_self
  have loaded : loadEnvironments default [] ({ inner := {} } : Supervised Memory) =
      (.ok (), { inner := {} }) := rfl
  exact ⟨rs, answered, r, recorded,
    record_reproducible .memory loaded clean_afterRivalry ids_rivalry.1 answered recorded⟩

end Stencil
