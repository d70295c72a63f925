import Mathlib.Data.List.Nodup
import Stencil.Batch.Commit
import Stencil.Proofs.Catalog.Documents

/-!
# What a catalog was told

A ledger says what environments, renderings and records a catalog was given. Of all templates with one
key it has the first only. A backend `Keeps` its ledgers: what it answers is what its ledger says.
-/

namespace Stencil

/-- A rendering with what it is committed with. -/
structure Commit where
  made : Regenerated
  path : Path
  recordId : Identifier
  time : Instant

namespace Commit

def key (c : Commit) : Template.Key := c.made.template.key

def record (c : Commit) (id : Identifier) : Record := c.made.record c.path id c.recordId c.time

/-- The calls of a commit whose template is stored under an identifier and gets a score. -/
def calls (c : Commit) (id : Identifier) (score : Float) : List Catalog.Call :=
  [.put c.made.template, .recordUsage id, .appendRecord (c.record id), .get id,
    .updateEffectiveness id score]

end Commit

namespace Catalog

/-- Environments, the latest first, templates, and records. -/
structure Ledger where
  environments : List Environment := []
  templates : List Template := []
  records : List Record := []
  unique : (templates.map Template.key).Nodup := by exact List.nodup_nil

namespace Ledger

def environment? (l : Ledger) (name : String) : Option Environment :=
  l.environments.find? fun e => e.name == name

def holder? (l : Ledger) (key : Template.Key) : Option Template :=
  l.templates.find? fun t => t.key == key

theorem holder?_eq_some_iff {l : Ledger} {key : Template.Key} {t : Template} :
    l.holder? key = some t ↔ t ∈ l.templates ∧ t.key = key := by
  constructor
  · intro found
    exact ⟨List.mem_of_find?_eq_some found, by simpa using List.find?_some found⟩
  · rintro ⟨among, same⟩
    cases found : l.holder? key with
    | none => exact absurd same (by simpa using List.find?_eq_none.1 found t among)
    | some u =>
      have same' : u.key = key := by simpa using List.find?_some found
      have among' := List.mem_of_find?_eq_some found
      rw [List.inj_on_of_nodup_map l.unique among among' (same.trans same'.symm)]

theorem ne_of_holder?_eq_none {l : Ledger} {key : Template.Key} (h : l.holder? key = none)
    {t : Template} (among : t ∈ l.templates) : t.key ≠ key := by
  simpa using List.find?_eq_none.1 h t among

def putEnvironment (l : Ledger) (e : Environment) : Ledger :=
  { l with environments := e :: l.environments }

/-- Adds a template whose key is new. -/
def addTemplate (l : Ledger) (t : Template) (new : l.holder? t.key = none) : Ledger where
  environments := l.environments
  templates := l.templates ++ [t]
  records := l.records
  unique := by
    rw [List.map_append, List.map_singleton, List.nodup_append]
    refine ⟨l.unique, List.nodup_singleton _, ?_⟩
    intro key among key' last
    obtain ⟨u, held, rfl⟩ := List.mem_map.1 among
    rw [List.mem_singleton.1 last]
    exact ne_of_holder?_eq_none new held

/-- Puts a template, unless its key is there. -/
def putTemplate (l : Ledger) (t : Template) : Ledger :=
  match held : l.holder? t.key with
  | some _ => l
  | none => l.addTemplate t held

/-- The identifier that a template is put under. -/
def slot (l : Ledger) (t : Template) : Identifier := ((l.holder? t.key).getD t).id

theorem putTemplate_of_held {l : Ledger} {t u : Template} (held : l.holder? t.key = some u) :
    l.putTemplate t = l ∧ l.slot t = u.id := by
  refine ⟨?_, by rw [slot, held, Option.getD_some]⟩
  unfold putTemplate
  split
  · rfl
  · next new =>
    rw [held] at new
    cases new

theorem putTemplate_of_new {l : Ledger} {t : Template} (new : l.holder? t.key = none) :
    l.putTemplate t = l.addTemplate t new ∧ l.slot t = t.id := by
  refine ⟨?_, by rw [slot, new, Option.getD_none]⟩
  unfold putTemplate
  split
  · next u held =>
    rw [new] at held
    cases held
  · rfl

/-- A key has the template that has it, or else the one that is put with it. -/
theorem holder?_putTemplate (l : Ledger) (t : Template) (key : Template.Key) :
    (l.putTemplate t).holder? key = (l.holder? key).or (if t.key = key then some t else none) := by
  cases held : l.holder? t.key with
  | some u =>
    rw [(putTemplate_of_held held).1]
    split
    · next same => rw [← same, held, Option.some_or]
    · rw [Option.or_none]
  | none =>
    rw [(putTemplate_of_new held).1]
    show (l.templates ++ [t]).find? (fun t => t.key == key) = _
    rw [List.find?_append]
    congr 1
    by_cases same : t.key = key
    · rw [if_pos same, List.find?_cons_of_pos (by simpa using same)]
    · rw [if_neg same, List.find?_cons_of_neg (by simpa using same)]
      rfl

theorem holder?_slot (l : Ledger) (t : Template) :
    ((l.putTemplate t).holder? t.key).map (·.id) = some (l.slot t) := by
  rw [holder?_putTemplate, if_pos rfl, slot]
  cases l.holder? t.key <;> rfl

theorem exists_slot (l : Ledger) (t : Template) :
    ∃ u ∈ (l.putTemplate t).templates, u.id = l.slot t := by
  obtain ⟨u, held, named⟩ := Option.map_eq_some_iff.1 (l.holder?_slot t)
  exact ⟨u, (holder?_eq_some_iff.1 held).1, named⟩

@[simp] theorem environments_putTemplate (l : Ledger) (t : Template) :
    (l.putTemplate t).environments = l.environments := by
  unfold putTemplate
  split <;> rfl

@[simp] theorem records_putTemplate (l : Ledger) (t : Template) :
    (l.putTemplate t).records = l.records := by
  unfold putTemplate
  split <;> rfl

def addRecord (l : Ledger) (r : Record) : Ledger := { l with records := l.records ++ [r] }

def commit (l : Ledger) (c : Commit) : Ledger :=
  (l.putTemplate c.made.template).addRecord (c.record (l.slot c.made.template))

def commitAll (l : Ledger) (cs : List Commit) : Ledger := cs.foldl commit l

@[simp] theorem environments_commitAll (l : Ledger) (cs : List Commit) :
    (l.commitAll cs).environments = l.environments := by
  induction cs generalizing l with
  | nil => rfl
  | cons c cs ih => exact (ih (l.commit c)).trans (l.environments_putTemplate c.made.template)

/-- A key has the template that has it, or else the one of the first commit with it. -/
theorem holder?_commitAll (l : Ledger) (cs : List Commit) (key : Template.Key) :
    (l.commitAll cs).holder? key =
      (l.holder? key).or ((cs.find? fun c => c.key == key).map (·.made.template)) := by
  induction cs generalizing l with
  | nil => exact Option.or_none.symm
  | cons c cs ih =>
    have first : (l.commit c).holder? key =
        (l.holder? key).or (if c.key = key then some c.made.template else none) :=
      l.holder?_putTemplate c.made.template key
    refine (ih (l.commit c)).trans ?_
    rw [first, Option.or_assoc]
    congr 1
    by_cases same : c.key = key
    · rw [if_pos same, List.find?_cons_of_pos (by simpa using same)]
      rfl
    · rw [if_neg same, List.find?_cons_of_neg (by simpa using same), Option.none_or]

theorem of_mem_records {l : Ledger} {cs : List Commit} {r : Record}
    (h : r ∈ (l.commitAll cs).records) :
    r ∈ l.records ∨ ∃ c ∈ cs, ∃ t, (l.commitAll cs).holder? c.key = some t ∧ r = c.record t.id := by
  induction cs generalizing l with
  | nil => exact .inl h
  | cons c cs ih =>
    rcases ih h with old | ⟨c', among, t, held, rfl⟩
    -- What comes later does not take the key away from the template of this commit.
    · have old : r ∈ (l.putTemplate c.made.template).records ++
          [c.record (l.slot c.made.template)] := old
      rw [records_putTemplate] at old
      rcases List.mem_append.1 old with old | new
      · exact .inl old
      · obtain ⟨t, held, named⟩ := Option.map_eq_some_iff.1 (l.holder?_slot c.made.template)
        have later : (l.commitAll (c :: cs)).holder? c.key = some t := by
          show ((l.commit c).commitAll cs).holder? c.key = some t
          have first : (l.commit c).holder? c.key = some t := held
          rw [holder?_commitAll, first, Option.some_or]
        exact .inr ⟨c, List.mem_cons_self, t, later, named ▸ List.mem_singleton.1 new⟩
    · exact .inr ⟨c', List.mem_cons_of_mem c among, t, held, rfl⟩

theorem mem_records_commitAll {l : Ledger} {r : Record} (old : r ∈ l.records) (cs : List Commit) :
    r ∈ (l.commitAll cs).records := by
  induction cs generalizing l with
  | nil => exact old
  | cons c cs ih =>
    refine ih (List.mem_append_left _ ?_)
    rwa [records_putTemplate]

theorem exists_record {l : Ledger} {cs : List Commit} {c : Commit} (h : c ∈ cs) :
    ∃ t, (l.commitAll cs).holder? c.key = some t ∧ c.record t.id ∈ (l.commitAll cs).records := by
  induction cs generalizing l with
  | nil => cases h
  | cons d cs ih =>
    rcases List.mem_cons.1 h with rfl | later
    · obtain ⟨t, held, named⟩ := Option.map_eq_some_iff.1 (l.holder?_slot c.made.template)
      have first : (l.commit c).holder? c.key = some t := held
      refine ⟨t, ?_, mem_records_commitAll (l := l.commit c) (List.mem_append_right _ ?_) cs⟩
      · show ((l.commit c).commitAll cs).holder? c.key = some t
        rw [holder?_commitAll, first, Option.some_or]
      · rw [named]
        exact List.mem_cons_self
    · exact ih later

/-- Renderings can be committed when no two templates have the same identifier. -/
def Admits (l : Ledger) (cs : List Commit) : Prop :=
  (l.templates.map (·.id) ++ cs.map (·.made.template.id)).Nodup

theorem Admits.fresh {l : Ledger} {c : Commit} {cs : List Commit} (h : l.Admits (c :: cs)) :
    ∀ t ∈ l.templates, t.id ≠ c.made.template.id := fun t among =>
  (List.nodup_append.1 h).2.2 t.id (List.mem_map_of_mem among) c.made.template.id List.mem_cons_self

theorem Admits.commit {l : Ledger} {c : Commit} {cs : List Commit} (h : l.Admits (c :: cs)) :
    (l.commit c).Admits cs := by
  show ((l.putTemplate c.made.template).templates.map (·.id) ++ _).Nodup
  cases held : l.holder? c.made.template.key with
  | some t =>
    rw [(putTemplate_of_held held).1]
    exact h.sublist ((List.Sublist.refl _).append (List.sublist_cons_self _ _))
  | none =>
    rw [(putTemplate_of_new held).1]
    show ((l.templates ++ [c.made.template]).map (·.id) ++ _).Nodup
    rw [List.map_append, List.append_assoc]
    exact h

theorem Admits.commitAll {l : Ledger} {cs cs' : List Commit} (h : l.Admits (cs ++ cs')) :
    (l.commitAll cs).Admits cs' := by
  induction cs generalizing l with
  | nil => exact h
  | cons c cs ih => exact ih h.commit

theorem commitAll_append (l : Ledger) (cs cs' : List Commit) :
    l.commitAll (cs ++ cs') = (l.commitAll cs).commitAll cs' := List.foldl_append

/-- The environment of a batch: that of the name, or the one that changes nothing. -/
def environment (l : Ledger) (name : String) : Environment :=
  (l.environment? name).getD (.identity name)

theorem name_environment (l : Ledger) (name : String) : (l.environment name).name = name := by
  unfold environment
  cases found : l.environment? name with
  | none => rfl
  | some e => simpa using List.find?_some found

theorem environment_commitAll (l : Ledger) (cs : List Commit) (name : String) :
    (l.commitAll cs).environment name = l.environment name := by
  simp only [environment, environment?, environments_commitAll]

end Ledger

/-! ### Backends that keep their ledgers -/

variable {σ : Type} [Backend σ]

/-- The calls of a commit, none of which fails. -/
inductive Committed (c : Commit) (s : σ) : Identifier → σ → Prop where
  | calls {id : Identifier} {s₁ s₂ s₃ s₄ s₅ : σ} {stored : Template} {score : Float}
      (put : perform (.put c.made.template) c.time s = (.ok id, s₁))
      (counted : perform (.recordUsage id) c.time s₁ = (.ok (), s₂))
      (appended : perform (.appendRecord (c.record id)) c.time s₂ = (.ok (), s₃))
      (got : perform (.get id) c.time s₃ = (.ok stored, s₄))
      (updated : perform (.updateEffectiveness id score) c.time s₄ = (.ok (), s₅)) :
      Committed c s id s₅

/-- The same, with the score that the template gets. -/
inductive Rated (c : Commit) (s : σ) : Identifier → Float → σ → Prop where
  | calls {id : Identifier} {s₁ s₂ s₃ s₄ s₅ : σ} {stored : Template}
      (put : perform (.put c.made.template) c.time s = (.ok id, s₁))
      (counted : perform (.recordUsage id) c.time s₁ = (.ok (), s₂))
      (appended : perform (.appendRecord (c.record id)) c.time s₂ = (.ok (), s₃))
      (got : perform (.get id) c.time s₃ = (.ok stored, s₄))
      (updated : perform (.updateEffectiveness id
        (blend stored.effectiveness stored.usage.toFloat c.made.observed)) c.time s₄ = (.ok (), s₅)) :
      Rated c s id (blend stored.effectiveness stored.usage.toFloat c.made.observed) s₅

theorem Rated.committed {c : Commit} {s s' : σ} {id : Identifier} {score : Float}
    (h : Rated c s id score s') : Committed c s id s' := by
  obtain ⟨put, counted, appended, got, updated⟩ := h
  exact .calls put counted appended got updated

/-- A backend whose states stand for ledgers, and that answers what its ledger says. -/
class Keeps (σ : Type) [Backend σ] where
  Represents : Ledger → σ → Prop
  putEnvironment {l : Ledger} {s s' : σ} {e : Environment} {now : Instant} (h : Represents l s)
    (put : perform (.putEnvironment e) now s = (.ok (), s')) : Represents (l.putEnvironment e) s'
  commit {l : Ledger} {s s' : σ} {c : Commit} {id : Identifier} (h : Represents l s)
    (new : ∀ t ∈ l.templates, t.id ≠ c.made.template.id) (committed : Committed c s id s') :
    Represents (l.commit c) s'
  environment {l : Ledger} {s : σ} (h : Represents l s) (name : String) (now : Instant) :
    perform (.environment name) now s = (.ok (l.environment? name), s)
  get {l : Ledger} {s : σ} (h : Represents l s) {t : Template} (among : t ∈ l.templates)
    (now : Instant) : ∃ t', perform (.get t.id) now s = (.ok t', s) ∧ t'.Alike t
  records {l : Ledger} {s : σ} (h : Represents l s) {q : RecordQuery} {now : Instant}
    {rs : List Record} (answered : (perform (.records q) now s).1 = .ok rs) {r : Record}
    (among : r ∈ rs) : ∃ r' ∈ l.records, r.Alike r'

end Catalog

end Stencil
