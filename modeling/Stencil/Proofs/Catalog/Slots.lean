import Stencil.Proofs.Catalog.Ledger

/-!
# Where commits go

A commit goes to the template that has its key. Once a key has a template it keeps it, so all commits with one
key go to the same place, and commits whose keys are there already add nothing but their records.
-/

namespace Stencil

/-- A template with other identifiers and times of its making. -/
def Template.Renamed (t t' : Template) : Prop :=
  t' = { t with id := t'.id, createdAt := t'.createdAt, updatedAt := t'.updatedAt }

/-- Commits that differ in their identifiers and their time only. -/
structure Commit.Same (c c' : Commit) : Prop where
  template : c.made.template.Renamed c'.made.template
  environment : c.made.rendering.environment = c'.made.rendering.environment
  path : c.path = c'.path
  content : c.made.rendering.content = c'.made.rendering.content
  outcome : c.made.outcome = c'.made.outcome

theorem Commit.Same.key {c c' : Commit} (h : c.Same c') : c.key = c'.key := by
  rw [Commit.key, Commit.key, h.template]
  rfl

theorem Commit.Same.alike {c c' : Commit} (h : c.Same c') (id : Identifier) :
    (c.record id).Alike (c'.record id) :=
  ⟨rfl, h.environment, h.path, h.content, h.outcome⟩

namespace Catalog.Ledger

variable {l l' : Ledger} {c c' : Commit} {cs cs' : List Commit}

/-! ### Places that stay -/

theorem slot_of_held {t u : Template} (held : l.holder? t.key = some u) : l.slot t = u.id :=
  (putTemplate_of_held held).2

/-- What is committed later leaves a key with the template that it had then. -/
theorem exists_holder?_commitAll (l : Ledger) (c : Commit) (cs : List Commit) :
    ∃ t, ((l.commit c).commitAll cs).holder? c.key = some t ∧ t.id = l.slot c.made.template := by
  obtain ⟨t, held, named⟩ := Option.map_eq_some_iff.1 (l.holder?_slot c.made.template)
  have first : (l.commit c).holder? c.key = some t := held
  exact ⟨t, by rw [holder?_commitAll, first, Option.some_or], named⟩

/-- What is committed later leaves a commit where it is. -/
theorem slot_commitAll (l : Ledger) (c : Commit) (cs : List Commit) :
    ((l.commit c).commitAll cs).slot c.made.template = l.slot c.made.template := by
  obtain ⟨t, later, named⟩ := l.exists_holder?_commitAll c cs
  rw [slot_of_held later, named]

theorem records_commit (l : Ledger) (c : Commit) :
    (l.commit c).records = l.records ++ [c.record (l.slot c.made.template)] := by
  rw [commit, addRecord, records_putTemplate]

theorem records_commitAll (l : Ledger) (cs : List Commit) :
    (l.commitAll cs).records =
      l.records ++ cs.map fun c => c.record ((l.commitAll cs).slot c.made.template) := by
  induction cs generalizing l with
  | nil => exact (List.append_nil _).symm
  | cons c cs ih =>
    show ((l.commit c).commitAll cs).records =
      _ ++ (c :: cs).map fun d => d.record (((l.commit c).commitAll cs).slot d.made.template)
    rw [ih, records_commit, List.map_cons, slot_commitAll, List.append_assoc, List.singleton_append]

theorem mem_putTemplate {t u : Template} (held : u ∈ l.templates) : u ∈ (l.putTemplate t).templates := by
  cases found : l.holder? t.key with
  | some _ => rwa [(putTemplate_of_held found).1]
  | none =>
    rw [(putTemplate_of_new found).1]
    exact List.mem_append_left _ held

theorem of_mem_putTemplate {t u : Template} (among : u ∈ (l.putTemplate t).templates) :
    u ∈ l.templates ∨ u.id = l.slot t := by
  cases found : l.holder? t.key with
  | some _ =>
    rw [(putTemplate_of_held found).1] at among
    exact .inl among
  | none =>
    obtain ⟨added, slot⟩ := putTemplate_of_new found
    rw [added] at among
    exact (List.mem_append.1 among).imp id fun last => by rw [List.mem_singleton.1 last, slot]

theorem Admits.left (h : l.Admits (cs ++ cs')) : l.Admits cs := by
  refine h.sublist ((List.Sublist.refl _).append ?_)
  rw [List.map_append]
  exact List.sublist_append_left _ _

theorem ids_commitAll (l : Ledger) (cs : List Commit) :
    ((l.commitAll cs).templates.map (·.id)).Sublist
      (l.templates.map (·.id) ++ cs.map (·.made.template.id)) := by
  induction cs generalizing l with
  | nil =>
    rw [List.map_nil, List.append_nil]
    exact List.Sublist.refl _
  | cons c cs ih =>
    have first : ((l.commit c).templates.map (·.id)).Sublist
        (l.templates.map (·.id) ++ [c.made.template.id]) := by
      show ((l.putTemplate c.made.template).templates.map (·.id)).Sublist _
      cases held : l.holder? c.made.template.key with
      | some t =>
        rw [(putTemplate_of_held held).1]
        exact List.sublist_append_left _ _
      | none =>
        rw [(putTemplate_of_new held).1, addTemplate, List.map_append]
        exact List.Sublist.refl _
    have rest := (ih (l.commit c)).trans (first.append (List.Sublist.refl _))
    rwa [List.append_assoc] at rest

/-! ### Commits that come again -/

theorem holder?_congr (templates : l'.templates = l.templates) (key : Template.Key) :
    l'.holder? key = l.holder? key := by rw [holder?, holder?, templates]

/-- Commits with the keys of others, all of which are there, leave the templates alone, and their records are
alike to those of the others. -/
theorem commitAll_of_held (same : List.Forall₂ Commit.Same cs cs')
    (held : ∀ c ∈ cs, ∃ t, l.holder? c.key = some t) :
    (l.commitAll cs').templates = l.templates ∧
      ∃ new, (l.commitAll cs').records = l.records ++ new ∧
        List.Forall₂ Record.Alike (cs.map fun c => c.record (l.slot c.made.template)) new := by
  induction same generalizing l with
  | nil => exact ⟨rfl, [], (List.append_nil _).symm, .nil⟩
  | @cons c c' cs cs' first others ih =>
    obtain ⟨t, found⟩ := held c List.mem_cons_self
    have found' : l.holder? c'.key = some t := first.key ▸ found
    obtain ⟨unchanged, slot'⟩ := putTemplate_of_held found'
    -- Only a record is added, so all the others still go to where they would have gone before.
    have committed : l.commit c' = l.addRecord (c'.record t.id) := by
      rw [commit, unchanged, slot']
    have templates : (l.commit c').templates = l.templates := by rw [committed]; rfl
    have slots : ∀ u, (l.commit c').slot u = l.slot u := fun u => by
      rw [slot, slot, holder?_congr templates]
    obtain ⟨same, new, records, alike⟩ := ih (l := l.commit c') fun d among => by
      rw [holder?_congr templates]
      exact held d (List.mem_cons_of_mem c among)
    refine ⟨same.trans templates, c'.record t.id :: new, ?_, ?_⟩
    · refine records.trans ?_
      rw [committed]
      exact List.append_assoc ..
    · simp only [slots] at alike
      rw [List.map_cons, slot_of_held found]
      exact .cons (first.alike t.id) alike

/-- Commits that are made twice go to the same places, and the second time they only add their records. -/
theorem commitAll_again (l : Ledger) (same : List.Forall₂ Commit.Same cs cs') :
    ((l.commitAll cs).commitAll cs').templates = (l.commitAll cs).templates ∧
      ∃ new new', (l.commitAll cs).records = l.records ++ new ∧
        ((l.commitAll cs).commitAll cs').records = l.records ++ new ++ new' ∧
        List.Forall₂ Record.Alike new new' := by
  obtain ⟨templates, new', records, alike⟩ :=
    commitAll_of_held (l := l.commitAll cs) same fun c among => (exists_record among).imp fun _ h => h.1
  have first := records_commitAll l cs
  exact ⟨templates, _, new', first, records.trans (congrArg (· ++ new') first), alike⟩

theorem slot_of_same {c c' : Commit} (same : c.Same c') (templates : l'.templates = l.templates)
    {t : Template} (held : l.holder? c.key = some t) :
    l'.slot c'.made.template = l.slot c.made.template := by
  have held' : l'.holder? c'.key = some t := by rw [holder?_congr templates, ← same.key, held]
  exact (slot_of_held held').trans (slot_of_held held).symm

/-! ### Records for templates -/

def uses (l : Ledger) (id : Identifier) : Nat := l.records.countP (·.template == id)

theorem uses_commit (l : Ledger) (c : Commit) (id : Identifier) :
    (l.commit c).uses id = l.uses id + if l.slot c.made.template = id then 1 else 0 := by
  rw [uses, records_commit, List.countP_append, List.countP_singleton]
  simp only [beq_iff_eq]
  rfl

/-- Every record names a template, and every template has a record. -/
structure Balanced (l : Ledger) : Prop where
  named : ∀ r ∈ l.records, ∃ t ∈ l.templates, t.id = r.template
  used : ∀ t ∈ l.templates, 0 < l.uses t.id

theorem Balanced.uses_eq_zero (h : l.Balanced) {id : Identifier}
    (missing : ∀ t ∈ l.templates, t.id ≠ id) : l.uses id = 0 := by
  refine List.countP_eq_zero.2 fun r among same => ?_
  obtain ⟨t, held, named⟩ := h.named r among
  exact missing t held (named.trans (beq_iff_eq.1 same))

theorem Balanced.commit (h : l.Balanced) (c : Commit) : (l.commit c).Balanced where
  named r among := by
    rw [records_commit] at among
    rcases List.mem_append.1 among with old | new
    · obtain ⟨t, held, named⟩ := h.named r old
      exact ⟨t, mem_putTemplate held, named⟩
    · rw [List.mem_singleton.1 new]
      exact l.exists_slot c.made.template
  used t among := by
    rw [uses_commit]
    rcases of_mem_putTemplate among with old | slot
    · exact Nat.add_pos_left (h.used t old) _
    · rw [if_pos slot.symm]
      exact Nat.succ_pos _

end Catalog.Ledger

end Stencil
