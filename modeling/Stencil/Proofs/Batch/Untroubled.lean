import Stencil.Proofs.Batch.Launches
import Stencil.Proofs.Catalog.Memory

/-!
# Batches over a catalog in memory

A catalog in memory fails no call of a batch by itself, when new identifiers are new.
-/

namespace Stencil

open Catalog

namespace Catalog

/-- Renderings can be committed when no identifier is there twice. -/
structure Ledger.Accepts (l : Ledger) (cs : List Commit) : Prop where
  templates : l.Admits cs
  records : (l.records.map (·.id) ++ cs.map (·.recordId)).Nodup

namespace Ledger.Accepts

variable {l : Ledger} {c : Commit} {cs cs' : List Commit}

theorem new (h : l.Accepts (c :: cs)) : ∀ r ∈ l.records, r.id ≠ c.recordId := fun r among =>
  (List.nodup_append.1 h.records).2.2 r.id (List.mem_map_of_mem among) c.recordId
    List.mem_cons_self

theorem commit (h : l.Accepts (c :: cs)) : (l.commit c).Accepts cs where
  templates := h.templates.commit
  records := by
    show (((l.putTemplate c.made.template).records ++ [_]).map Record.id ++ _).Nodup
    rw [records_putTemplate, List.map_append, List.append_assoc]
    exact h.records

theorem commitAll (h : l.Accepts (cs ++ cs')) : (l.commitAll cs).Accepts cs' := by
  induction cs generalizing l with
  | nil => exact h
  | cons c cs ih => exact ih h.commit

end Ledger.Accepts

namespace Memory

/-- A commit of a valid template with new identifiers goes through. -/
theorem smooth_commit {c : Commit} (valid : c.made.template.validate = .ok ()) {l : Ledger}
    {cs : List Commit} (accepts : l.Accepts (c :: cs)) :
    Smooth (Represents l) (c.made.commit c.path c.recordId c.time : Action (Supervised Memory) Identifier)
      fun _ => Represents (l.commit c) := by
  obtain ⟨t, among, named⟩ := l.exists_slot c.made.template
  let stored := l.putTemplate c.made.template
  let recorded := stored.addRecord (c.record t.id)
  have put : Smooth (Represents l) (Catalog.perform (.put c.made.template) c.time)
      fun id m => id = t.id ∧ Represents stored m := .call fun m h => by
    obtain ⟨id, m', put⟩ := exists_put valid c.time
    obtain ⟨slot, h'⟩ := h.put accepts.templates.fresh put
    exact ⟨id, m', put, slot.trans named.symm, h'⟩
  have counted : Smooth (Represents stored) (Catalog.perform (.recordUsage t.id) c.time)
      fun _ => Represents stored := .call fun m h => by
    obtain ⟨m', counted⟩ := h.exists_change among _
    exact ⟨(), m', counted, h.recordUsage counted⟩
  have appended : Smooth (Represents stored)
      (Catalog.perform (.appendRecord (c.record t.id)) c.time) fun _ => Represents recorded :=
    .call fun m h => by
      have new : ∀ r ∈ stored.records, r.id ≠ (c.record t.id).id := by
        rw [Ledger.records_putTemplate]
        exact accepts.new
      obtain ⟨m', appended⟩ := h.exists_appendRecord new
      exact ⟨(), m', appended, h.appendRecord appended⟩
  have got : Smooth (Represents recorded) (Catalog.perform (.get t.id) c.time)
      fun _ => Represents recorded := .call fun m h => by
    obtain ⟨t', got, -⟩ := h.exists_get (t := t) among
    exact ⟨t', m, got, h⟩
  have updated : ∀ score, Smooth (Represents recorded)
      (Catalog.perform (.updateEffectiveness t.id score) c.time) fun _ => Represents recorded :=
    fun score => .call fun m h => by
      obtain ⟨m', updated⟩ := h.exists_change (t := t) among _
      exact ⟨(), m', updated, h.updateEffectiveness updated⟩
  have whole : l.commit c = recorded := by rw [Ledger.commit, ← named]
  rw [whole]
  unfold Regenerated.commit
  refine put.bind fun id => ?_
  rintro s calm ⟨rfl, h⟩
  have last : Smooth (Represents recorded) (Pure.pure t.id : Action (Supervised Memory) Identifier)
      fun _ => Represents recorded := .pure fun m h => h
  exact (counted.bind fun _ => appended.bind fun _ => got.bind fun u => (updated _).bind fun _ => last)
    s calm h

end Memory

end Catalog

variable [Libraries]

namespace Batch

theorem smooth_process (b : Batch) (e : Environment) (supply : Supply) (p : Plan) (k : Nat)
    {l : Ledger} {cs : List Commit} (accepts : l.Accepts ((b.commit? e supply p k).toList ++ cs)) :
    Smooth (Memory.Represents l) (b.process e supply p k : Action (Supervised Memory) Result)
      fun _ => Memory.Represents (l.commitAll (b.commit? e supply p k).toList) := by
  rcases process_cases (σ := Supervised Memory) b e supply p k with
    ⟨r, none, process, -⟩ | ⟨c, some, process⟩
  · rw [none, process]
    exact .pure fun m h => h
  · rw [some] at accepts ⊢
    rw [process]
    have valid := (of_commit? some).2.2.valid
    exact Smooth.tryCatch ((Memory.smooth_commit valid accepts).bind fun id => .pure fun m h => h)

theorem smooth_processAll (b : Batch) (e : Environment) (supply : Supply) (ps : List Plan) (k : Nat)
    {l : Ledger} {cs : List Commit} (accepts : l.Accepts (b.commits e supply ps k ++ cs)) :
    Smooth (Memory.Represents l) (b.processAll e supply ps k : Action (Supervised Memory) (List Result))
      fun _ => Memory.Represents (l.commitAll (b.commits e supply ps k)) := by
  induction ps generalizing k l with
  | nil => exact .pure fun m h => h
  | cons p ps ih =>
    have split : b.commits e supply (p :: ps) k =
        (b.commit? e supply p k).toList ++ b.commits e supply ps (k + 1) := rfl
    rw [split, List.append_assoc] at accepts
    unfold processAll
    rw [split, Ledger.commitAll_append]
    exact (b.smooth_process e supply p k accepts).bind fun r =>
      (ih (k + 1) accepts.commitAll).bind fun rs => .pure fun m h => h

end Batch

theorem Launch.smooth_run (x : Launch) {l : Ledger} {cs : List Commit}
    (accepts : l.Accepts (x.commits l ++ cs)) :
    Smooth (Memory.Represents l) (x.run : Action (Supervised Memory) (List Batch.Result))
      fun _ => Memory.Represents (l.commitAll (x.commits l)) := by
  have environment : Smooth (Memory.Represents l)
      (x.batch.environment (x.supply.time 0) : Action (Supervised Memory) Environment)
      fun e m => e = l.environment x.batch.settings.environment ∧ Memory.Represents l m := by
    have found : Smooth (Memory.Represents l)
        (perform (.environment x.batch.settings.environment) (x.supply.time 0))
        fun found m => found = l.environment? x.batch.settings.environment ∧ Memory.Represents l m :=
      .call fun m h => ⟨_, m, Keeps.environment (σ := Memory) h _ _, rfl, h⟩
    refine found.bind fun e => .pure ?_
    rintro m ⟨rfl, h⟩
    exact ⟨rfl, h⟩
  refine environment.bind fun e => ?_
  rintro s calm ⟨rfl, h⟩
  exact x.batch.smooth_processAll _ x.supply _ 0 accepts s calm h

theorem untroubled_runAll {xs : List Launch} {l : Ledger} {s : Supervised Memory}
    (calm : s.Untroubled) (represents : Memory.Represents l s.inner)
    (accepts : l.Accepts (history xs l)) : (runAll xs s).Untroubled := by
  induction xs generalizing l s with
  | nil => exact calm
  | cons x xs ih =>
    obtain ⟨rs, s', ran, calm', represents'⟩ := x.smooth_run accepts s calm represents
    have same : history xs (l.commitAll (x.commits l)) = history xs l :=
      List.flatMap_congr fun y _ => y.commits_commitAll l _
    have rest : (l.commitAll (x.commits l)).Accepts (history xs l) := accepts.commitAll
    have after : (x.run s).2 = s' := congrArg Prod.snd ran
    show (runAll xs (x.run s).2).Untroubled
    rw [after]
    exact ih calm' represents' (same.symm ▸ rest)

/-- Launches over an empty catalog in memory fail no call when all their identifiers are different. -/
theorem clean_runAll_memory {xs : List Launch} (templates : ((xs.flatMap Launch.ids).map Prod.fst).Nodup)
    (records : ((xs.flatMap Launch.ids).map Prod.snd).Nodup) :
    (runAll xs ({ inner := {} } : Supervised Memory)).Clean := by
  have ids := ids_history xs {}
  have accepts : Ledger.Accepts {} (history xs {}) := by
    constructor
    · have sub := ids.map Prod.fst
      rw [List.map_map] at sub
      exact templates.sublist sub
    · have sub := ids.map Prod.snd
      rw [List.map_map] at sub
      exact records.sublist sub
  exact (untroubled_runAll ⟨rfl, fun _ among => by cases among⟩ Memory.represents_empty accepts).clean

end Stencil
