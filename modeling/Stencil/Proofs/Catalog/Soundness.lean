import Mathlib.Data.List.Nodup
import Stencil.Proofs.Catalog.Changes
import Stencil.Proofs.Decimal.Order
import Stencil.Proofs.Template

/-!
# A catalog in memory stays sound

In a sound catalog every template is valid and lies under its own identifier, no two have the same key,
every environment is valid and lies under its own name, and the identifiers of the records are known and all
different. `sound_run` says that calls whose scores are numbers leave an empty catalog sound.
-/

namespace Stencil.Catalog.Memory

variable {m m' : Memory} {now : Instant}

structure Sound (m : Memory) : Prop extends Keyed m where
  valid : ∀ {id t}, m.templates.get? id = some t → t.validate = .ok ()
  environments : ∀ {name e}, m.environments.get? name = some e → e.name = name ∧ e.validate = .ok ()
  recorded : ∀ id, m.recordIds.contains id = true ↔ ∃ r ∈ m.history, r.id = id
  once : (m.history.map (·.id)).Nodup

theorem sound_empty : Sound {} where
  toKeyed := keyed_empty
  valid found := by cases found
  environments found := by cases found
  recorded id := by
    refine ⟨fun known => ?_, fun ⟨r, among, _⟩ => ?_⟩
    · cases known
    · cases among
  once := List.nodup_nil

theorem Sound.of_templates (h : Sound m) {templates : SortedMap Identifier Template}
    (keyed : Keyed { m with templates })
    (valid : ∀ {id t}, templates.get? id = some t → t.validate = .ok ()) :
    Sound { m with templates } where
  toKeyed := keyed
  valid := valid
  environments := h.environments
  recorded := h.recorded
  once := h.once

theorem Sound.insert (h : Sound m) {id : Identifier} {t : Template}
    (keyed : Keyed { m with templates := m.templates.insert id t }) (valid : t.validate = .ok ()) :
    Sound { m with templates := m.templates.insert id t } := by
  refine h.of_templates keyed fun {id' u} found => ?_
  rw [SortedMap.get?_insert] at found
  split at found
  · exact Option.some.inj found ▸ valid
  · exact h.valid found

theorem Sound.touch (h : Sound m) (id : Identifier)
    (keyed : Keyed { m with templates := m.templates.modify id fun t => { t with updatedAt := now } }) :
    Sound { m with templates := m.templates.modify id fun t => { t with updatedAt := now } } := by
  refine h.of_templates keyed fun {id' u} found => ?_
  rw [SortedMap.get?_modify] at found
  split at found
  · obtain ⟨t, before, rfl⟩ := Option.map_eq_some_iff.1 found
    have checked := h.valid before
    exact checked
  · exact h.valid found

theorem Sound.putEnvironment (h : Sound m) {e : Environment} (valid : e.validate = .ok ()) :
    Sound { m with environments := m.environments.insert e.name e } where
  own := h.own
  unique := h.unique
  valid := h.valid
  environments {name e'} found := by
    rw [SortedMap.get?_insert] at found
    split at found
    · next same => exact Option.some.inj found ▸ ⟨same, valid⟩
    · exact h.environments found
  recorded := h.recorded
  once := h.once

theorem Sound.record (h : Sound m) {r : Record} (new : m.recordIds.contains r.id = false) :
    Sound { m with history := m.history ++ [r], recordIds := m.recordIds.insert r.id () } where
  own := h.own
  unique := h.unique
  valid := h.valid
  environments := h.environments
  recorded := SortedMap.contains_insert_iff h.recorded r ()
  once := by
    show ((m.history ++ [r]).map (·.id)).Nodup
    rw [List.map_append, List.map_singleton, ← List.concat_eq_append]
    refine List.Nodup.concat (fun among => ?_) h.once
    obtain ⟨r', held, same⟩ := List.mem_map.1 among
    have known := (h.recorded r.id).2 ⟨r', held, same⟩
    rw [new] at known
    cases known

theorem Sound.change (h : Sound m) {call : Call} {reply : Except Error call.Answer}
    (number : ∀ id score, call = .updateEffectiveness id score → score.isNaN = false)
    (change : Change m now call reply m') : Sound m' := by
  have keyed := h.toKeyed.change change
  cases change with
  | refused e => exact h
  | asked call asks answer => exact h
  | touched valid held => exact h.touch _ keyed
  | stored valid new => exact h.insert keyed valid
  | used found =>
    -- Nothing that is checked depends on the count or the time of use.
    have checked := h.valid found
    exact h.insert keyed checked
  | @rescored id score t found =>
    have inside := inPercent_clamp (number id score rfl)
    exact h.insert keyed (Template.validate_rescored (h.valid found) inside now)
  | environment valid => exact h.putEnvironment valid
  | recorded new => exact h.record new

/-- Whatever calls were performed, an empty catalog is sound afterwards. -/
theorem sound_run {xs : List (Call × Instant)}
    (numbers : ∀ id score now, (.updateEffectiveness id score, now) ∈ xs → score.isNaN = false) :
    Sound (run xs ({} : Memory)).2 := by
  refine of_run (fun {m m' call now reply} among h change => ?_) sound_empty
  refine h.change (fun id score same => ?_) change
  exact numbers id score now (same ▸ among)

/-- A template is put and scored, and a record comes twice. -/
def session : List (Call × Instant) :=
  [(.put (.blank default "a"), default), (.updateEffectiveness default 150, default),
    (.appendRecord default, default), (.appendRecord default, default)]

theorem sound_run_session :
    (∀ id score now, (.updateEffectiveness id score, now) ∈ session → score.isNaN = false) ∧
      Sound (run session ({} : Memory)).2 := by
  have numbers : ∀ id score now,
      (.updateEffectiveness id score, now) ∈ session → score.isNaN = false := by
    intro id score now among
    simp only [session, List.mem_cons, Prod.mk.injEq, Call.updateEffectiveness.injEq, reduceCtorEq,
      false_and, false_or, List.not_mem_nil, or_false] at among
    rw [among.1.2]
    decide
  exact ⟨numbers, sound_run numbers⟩

end Stencil.Catalog.Memory
