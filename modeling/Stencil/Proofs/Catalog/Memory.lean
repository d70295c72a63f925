import Stencil.Catalog.Memory
import Stencil.Proofs.Catalog.Ledger

/-!
# A catalog in memory keeps its ledgers
-/

namespace Stencil.Catalog.Memory

/-- What is stored is what the ledger says, up to the use of templates. -/
structure Represents (l : Ledger) (m : Memory) : Prop where
  environments : ∀ name, m.environments.get? name = l.environment? name
  held : ∀ t ∈ l.templates, ∃ t', m.templates.get? t.id = some t' ∧ t'.Alike t
  known : ∀ {id t'}, m.templates.get? id = some t' → ∃ t ∈ l.templates, t.id = id ∧ t'.Alike t
  records : m.history = l.records
  ids : ∀ id, m.recordIds.contains id = true ↔ ∃ r ∈ l.records, r.id = id

variable {l : Ledger} {m m' : Memory}

theorem represents_empty : Represents {} {} where
  environments _ := rfl
  held _ among := by cases among
  known found := by cases found
  records := rfl
  ids _ := by
    constructor
    · intro h
      cases h
    · rintro ⟨r, among, -⟩
      cases among

/-! ### Templates -/

theorem Represents.holder? (h : Represents l m) (key : Template.Key) :
    (m.holder? key).map (·.id) = (l.holder? key).map (·.id) := by
  cases stored : m.holder? key with
  | some old =>
    obtain ⟨id, found⟩ := SortedMap.mem_values (List.mem_of_find?_eq_some stored)
    obtain ⟨t, among, -, alike⟩ := h.known found
    have same : old.key = key := by simpa using List.find?_some stored
    rw [Ledger.holder?_eq_some_iff.2 ⟨among, alike.key.symm.trans same⟩, Option.map_some,
      Option.map_some, alike.id]
  | none =>
    cases held : l.holder? key with
    | none => rfl
    | some t =>
      obtain ⟨among, same⟩ := Ledger.holder?_eq_some_iff.1 held
      obtain ⟨t', found, alike⟩ := h.held t among
      have other := List.find?_eq_none.1 stored t' (SortedMap.mem_values_of_get? found)
      exact absurd (alike.key.trans same) (by simpa using other)

/-- Templates that only change in their use are still the ones of the ledger. -/
theorem Represents.of_alike (h : Represents l m) {templates : SortedMap Identifier Template}
    (alike : ∀ id, templates.get? id = m.templates.get? id ∨
      ∃ t t', m.templates.get? id = some t ∧ templates.get? id = some t' ∧ t'.Alike t) :
    Represents l { m with templates } where
  environments := h.environments
  held t among := by
    obtain ⟨t', found, same⟩ := h.held t among
    rcases alike t.id with unchanged | ⟨u, u', before, after, changed⟩
    · exact ⟨t', unchanged.trans found, same⟩
    · rw [found] at before
      obtain rfl := Option.some.inj before
      exact ⟨u', after, changed.trans same⟩
  known {id t'} found := by
    have found : templates.get? id = some t' := found
    rcases alike id with unchanged | ⟨u, u', before, after, changed⟩
    · exact h.known (unchanged.symm.trans found)
    · obtain ⟨t, among, named, same⟩ := h.known before
      rw [found] at after
      obtain rfl := Option.some.inj after
      exact ⟨t, among, named, changed.trans same⟩
  records := h.records
  ids := h.ids

theorem Represents.change (h : Represents l m) {id : Identifier} {f : Template → Template}
    (changed : change id f m = (.ok (), m')) (alike : ∀ t, (f t).Alike t) : Represents l m' := by
  unfold Memory.change at changed
  split at changed
  · next t found =>
    obtain ⟨-, rfl⟩ := Prod.mk.inj changed
    refine h.of_alike fun id' => ?_
    rw [SortedMap.get?_insert]
    split
    · next same => exact .inr ⟨t, f t, same ▸ found, rfl, alike t⟩
    · exact .inl rfl
  · cases (Prod.mk.inj changed).1

theorem Represents.recordUsage (h : Represents l m) {id : Identifier} {now : Instant}
    (counted : recordUsage id now m = (.ok (), m')) : Represents l m' :=
  h.change counted fun _ => ⟨rfl, rfl, rfl, rfl, rfl⟩

theorem Represents.updateEffectiveness (h : Represents l m) {id : Identifier} {score : Float}
    {now : Instant} (updated : updateEffectiveness id score now m = (.ok (), m')) : Represents l m' :=
  h.change updated fun _ => ⟨rfl, rfl, rfl, rfl, rfl⟩

theorem Represents.addTemplate (h : Represents l m) {t : Template} (new : l.holder? t.key = none)
    (fresh : ∀ u ∈ l.templates, u.id ≠ t.id) :
    Represents (l.addTemplate t new) { m with templates := m.templates.insert t.id t } where
  environments := h.environments
  held u among := by
    rw [SortedMap.get?_insert]
    rcases List.mem_append.1 among with among | last
    · rw [if_neg (fresh u among).symm]
      exact h.held u among
    · rw [List.mem_singleton.1 last, if_pos rfl]
      exact ⟨t, rfl, .refl t⟩
  known {id t'} found := by
    rw [SortedMap.get?_insert] at found
    split at found
    · next same =>
      obtain rfl := Option.some.inj found
      exact ⟨t, List.mem_append_right _ List.mem_cons_self, same, .refl t⟩
    · obtain ⟨u, among, named, alike⟩ := h.known found
      exact ⟨u, List.mem_append_left _ among, named, alike⟩
  records := h.records
  ids := h.ids

theorem Represents.put (h : Represents l m) {t : Template} {now : Instant} {id : Identifier}
    (fresh : ∀ u ∈ l.templates, u.id ≠ t.id) (stored : put t now m = (.ok id, m')) :
    id = l.slot t ∧ Represents (l.putTemplate t) m' := by
  have same := h.holder? t.key
  unfold Memory.put at stored
  split at stored
  · cases (Prod.mk.inj stored).1
  split at stored
  · next old found =>
    obtain ⟨answer, rfl⟩ := Prod.mk.inj stored
    rw [found] at same
    obtain ⟨u, held, named⟩ := Option.map_eq_some_iff.1 same.symm
    obtain ⟨unchanged, slot⟩ := Ledger.putTemplate_of_held held
    rw [unchanged, slot]
    refine ⟨(Except.ok.inj answer).symm.trans named.symm, h.of_alike fun id' => ?_⟩
    rw [SortedMap.get?_modify]
    split
    · cases here : m.templates.get? id' with
      | none => exact .inl rfl
      | some v => exact .inr ⟨v, _, rfl, rfl, ⟨rfl, rfl, rfl, rfl, rfl⟩⟩
    · exact .inl rfl
  · next missing =>
    obtain ⟨answer, rfl⟩ := Prod.mk.inj stored
    rw [missing] at same
    have new := Option.map_eq_none_iff.1 same.symm
    obtain ⟨added, slot⟩ := Ledger.putTemplate_of_new new
    rw [added, slot]
    exact ⟨(Except.ok.inj answer).symm, h.addTemplate new fresh⟩

/-! ### Records and environments -/

theorem Represents.appendRecord (h : Represents l m) {r : Record}
    (appended : appendRecord r m = (.ok (), m')) : Represents (l.addRecord r) m' := by
  unfold Memory.appendRecord at appended
  split at appended
  · cases (Prod.mk.inj appended).1
  · obtain ⟨-, rfl⟩ := Prod.mk.inj appended
    exact {
      environments := h.environments
      held := h.held
      known := h.known
      records := congrArg (· ++ [r]) h.records
      ids := SortedMap.contains_insert_iff h.ids r () }

theorem Represents.putEnvironment (h : Represents l m) {e : Environment}
    (put : putEnvironment e m = (.ok (), m')) : Represents (l.putEnvironment e) m' := by
  unfold Memory.putEnvironment at put
  split at put
  · cases (Prod.mk.inj put).1
  · obtain ⟨-, rfl⟩ := Prod.mk.inj put
    refine { h with environments := fun name => ?_ }
    show (m.environments.insert e.name e).get? name = (e :: l.environments).find? _
    rw [SortedMap.get?_insert]
    split
    · next same => rw [List.find?_cons_of_pos (by simpa using same)]
    · next other =>
      rw [List.find?_cons_of_neg (by simpa using other)]
      exact h.environments name

theorem eq_of_get {id : Identifier} {t : Template} (got : get id m = (.ok t, m')) : m = m' := by
  unfold Memory.get at got
  split at got
  · exact (Prod.mk.inj got).2
  · cases (Prod.mk.inj got).1

/-! ### Calls that are answered -/

theorem exists_put {t : Template} (valid : t.validate = .ok ()) (now : Instant) :
    ∃ id m', put t now m = (.ok id, m') := by
  unfold put
  rw [valid]
  cases m.holder? t.key with
  | none => exact ⟨_, _, rfl⟩
  | some old => exact ⟨_, _, rfl⟩

theorem Represents.exists_change (h : Represents l m) {t : Template} (among : t ∈ l.templates)
    (f : Template → Template) : ∃ m', Memory.change t.id f m = (.ok (), m') := by
  obtain ⟨t', found, -⟩ := h.held t among
  unfold Memory.change
  rw [found]
  exact ⟨_, rfl⟩

theorem Represents.exists_get (h : Represents l m) {t : Template} (among : t ∈ l.templates) :
    ∃ t', Memory.get t.id m = (.ok t', m) ∧ t'.Alike t := by
  obtain ⟨t', found, alike⟩ := h.held t among
  unfold Memory.get
  rw [found]
  exact ⟨t', rfl, alike⟩

theorem Represents.exists_appendRecord (h : Represents l m) {r : Record}
    (new : ∀ r' ∈ l.records, r'.id ≠ r.id) : ∃ m', Memory.appendRecord r m = (.ok (), m') := by
  unfold Memory.appendRecord
  split
  · next known =>
    obtain ⟨r', old, same⟩ := (h.ids r.id).1 known
    exact absurd same (new r' old)
  · exact ⟨_, rfl⟩

/-! ### Commits -/

theorem Represents.commit {c : Commit} {id : Identifier} (h : Represents l m)
    (fresh : ∀ t ∈ l.templates, t.id ≠ c.made.template.id) (committed : Committed c m id m') :
    Represents (l.commit c) m' := by
  obtain ⟨put, counted, appended, got, updated⟩ := committed
  obtain ⟨rfl, stored⟩ := h.put fresh put
  have counted := stored.recordUsage counted
  have appended := counted.appendRecord appended
  obtain rfl := eq_of_get got
  exact appended.updateEffectiveness updated

instance : Keeps Memory where
  Represents := Represents
  putEnvironment h put := h.putEnvironment put
  commit h fresh committed := h.commit fresh committed
  environment h name now := by
    show (Except.ok _, _) = (Except.ok _, _)
    rw [h.environments]
  get {l s} h {t} among now := h.exists_get among
  records {l s} h {q now rs} answered {r} among := by
    obtain rfl := Except.ok.inj answered
    have stored := List.mem_filter.1 (mem_chronicle.1 among)
    exact ⟨r, h.records ▸ stored.1, .refl r⟩

end Stencil.Catalog.Memory
