import Stencil.Proofs.Catalog.Logs
import Stencil.Proofs.Catalog.Roundtrip

/-!
# Failures change nothing, and the history only grows

Of a catalog in memory and of one in tables the same is shown (`history_appendOnly`). A call that fails leaves the
state as it was. A run of calls leaves all that was in the history in place, and adds the records of the calls
that append one and succeed. So a query is answered with those of the appended records that it accepts.
-/

namespace Stencil

/-- A record whose numbers are words and whose time is one of the calendar. -/
structure Record.IsStorable (r : Record) : Prop where
  words : ∀ d ∈ r.outcome.diagnostics, d.InWords
  time : r.time.IsTime

theorem Record.IsStorable.kept {r : Record} (storable : r.IsStorable) : r.Kept :=
  ⟨storable.words, Instant.ofText?_text storable.time⟩

namespace Catalog

def recorded (replies : List Reply) : List Record := replies.filterMap Reply.record?

theorem recorded_cons (reply : Reply) (replies : List Reply) :
    recorded (reply :: replies) = reply.record?.toList ++ recorded replies := by
  unfold recorded
  rw [List.filterMap_cons]
  cases reply.record? <;> rfl

section

variable {σ : Type} [Backend σ] {P : σ → List Record → Prop} {s : σ} {rs : List Record}

/-- What every call keeps of a state and the records appended so far, a run keeps. -/
theorem of_recorded
    (step : ∀ {s rs} (call : Call) (now : Instant), P s rs →
      P (perform call now s).2 (rs ++ (Reply.record? ⟨call, (perform call now s).1⟩).toList))
    (holds : P s rs) (xs : List (Call × Instant)) : P (run xs s).2 (rs ++ recorded (run xs s).1) := by
  induction xs generalizing s rs with
  | nil => exact (List.append_nil rs).symm ▸ holds
  | cons x xs ih =>
    have after := ih (step x.1 x.2 holds)
    rw [List.append_assoc, ← recorded_cons] at after
    exact after

end

theorem nodup_append_id {rs : List Record} (nodup : (rs.map (·.id)).Nodup) {r : Record}
    (new : ∀ old ∈ rs, old.id ≠ r.id) : ((rs ++ [r]).map (·.id)).Nodup := by
  rw [List.map_append, List.map_singleton, ← List.concat_eq_append]
  refine List.Nodup.concat (fun among => ?_) nodup
  obtain ⟨old, held, same⟩ := List.mem_map.1 among
  exact new old held same

/-- The answer to a query, when a history holds records with distinct identifiers. -/
theorem chronicle_filter {rs : List Record} (nodup : (rs.map (·.id)).Nodup) (q : RecordQuery) :
    (chronicle (rs.filter q.accepts)).Perm (rs.filter q.accepts) ∧
      ((chronicle (rs.filter q.accepts)).map (·.id)).Nodup ∧
      (chronicle (rs.filter q.accepts)).Pairwise fun a b => a.order b = .lt := by
  have perm : (chronicle (rs.filter q.accepts)).Perm (rs.filter q.accepts) := List.mergeSort_perm ..
  have ids : ((chronicle (rs.filter q.accepts)).map (·.id)).Perm ((rs.filter q.accepts).map (·.id)) :=
    perm.map (·.id)
  have distinct : ((rs.filter q.accepts).map (·.id)).Nodup := nodup.sublist (List.filter_sublist.map _)
  exact ⟨perm, ids.nodup_iff.2 distinct, pairwise_chronicle distinct⟩

/-! ### In memory -/

namespace Memory

variable {m m' : Memory} {now : Instant} {rs : List Record}

theorem eq_of_failed {call : Call} {e : Error} (failed : perform call now m = (.error e, m')) : m' = m := by
  cases change_of_perform failed
  rfl

theorem history_run (xs : List (Call × Instant)) (m : Memory) :
    (run xs m).2.history = m.history ++ recorded (run xs m).1 := by
  refine of_recorded (P := fun (s : Memory) rs => s.history = m.history ++ rs) (fun {s rs} call now holds => ?_)
    (List.append_nil _).symm xs
  rw [(change_perform call now s).history, holds, List.append_assoc]

/-- The history holds records with distinct identifiers, and these are the known ones. -/
structure Indexed (m : Memory) (rs : List Record) : Prop where
  history : m.history = rs
  nodup : (rs.map (·.id)).Nodup
  known : ∀ id, m.recordIds.contains id = true ↔ ∃ r ∈ rs, r.id = id

theorem indexed_empty : Indexed {} [] where
  history := rfl
  nodup := List.nodup_nil
  known id := by
    refine ⟨fun known => ?_, fun ⟨record, among, _⟩ => ?_⟩
    · cases known
    · cases among

theorem Indexed.change {call : Call} {reply : Except Error call.Answer} (h : m.Indexed rs)
    (change : Change m now call reply m') : m'.Indexed (rs ++ (Reply.record? ⟨call, reply⟩).toList) := by
  have grown := change.history
  cases change with
  | @recorded r new =>
    refine ⟨?_, nodup_append_id h.nodup fun old held same => ?_, SortedMap.contains_insert_iff h.known r ()⟩
    · exact congrArg (· ++ [r]) h.history
    · rw [(h.known r.id).2 ⟨old, held, same⟩] at new
      cases new
  | _ =>
    rw [List.self_eq_append_right.1 grown, List.append_nil]
    exact ⟨h.history, h.nodup, h.known⟩

theorem Indexed.run (h : m.Indexed rs) (xs : List (Call × Instant)) :
    (run xs m).2.Indexed (rs ++ recorded (run xs m).1) :=
  of_recorded (fun call now h => h.change (change_perform call now _)) h xs

end Memory

/-! ### In tables -/

namespace Relational

variable {r r' : Relational} {now : Instant} {rs : List Record}

theorem eq_of_failed {call : Call} {e : Error} (failed : perform call now r = (.error e, r')) : r' = r := by
  cases change_of_perform failed
  rfl

/-- The history, each row of it as one that a record has. -/
def rows (r : Relational) : List (Except Error RecordRow) := r.history.map .ok

theorem history_run (xs : List (Call × Instant)) (r : Relational) :
    (run xs r).2.rows = r.rows ++ (recorded (run xs r).1).map RecordRow.of := by
  have start : r.rows = r.rows ++ ([] : List Record).map RecordRow.of := (List.append_nil _).symm
  refine of_recorded (P := fun (s : Relational) rs => s.rows = r.rows ++ rs.map RecordRow.of)
    (fun {s rs} call now holds => ?_) start xs
  obtain ⟨rows, grown, kept⟩ := rows_perform call now s
  rw [Relational.rows, grown, List.map_append, kept, List.map_append, ← List.append_assoc]
  exact congrArg (· ++ _) holds

/-- The history holds the rows of records with distinct identifiers. -/
structure Indexed (r : Relational) (rs : List Record) : Prop where
  history : r.history.map .ok = rs.map RecordRow.of
  nodup : (rs.map (·.id)).Nodup

theorem indexed_empty : Indexed {} [] := ⟨rfl, List.nodup_nil⟩

theorem Indexed.change {call : Call} {reply : Except Error call.Answer} (h : r.Indexed rs)
    (change : Change r now call reply r') : r'.Indexed (rs ++ (Reply.record? ⟨call, reply⟩).toList) where
  history := by
    obtain ⟨rows, grown, kept⟩ := change.history
    rw [grown, List.map_append, h.history, kept, List.map_append]
  nodup := by
    obtain ⟨rows, grown, kept⟩ := change.history
    cases change with
    | @recorded record row _ new =>
      refine nodup_append_id h.nodup fun old held same => ?_
      obtain ⟨row, among, id⟩ := exists_recordRow h.history held
      exact List.any_eq_false.1 new row among (beq_iff_eq.2 (id.trans same))
    | _ =>
      rw [List.self_eq_append_right.1 grown] at kept
      rw [List.map_eq_nil_iff.1 kept.symm, List.append_nil]
      exact h.nodup

theorem Indexed.run (h : r.Indexed rs) (xs : List (Call × Instant)) :
    (run xs r).2.Indexed (rs ++ recorded (run xs r).1) :=
  of_recorded (fun call now h => h.change (change_perform call now _)) h xs

end Relational

/-! ### Both -/

/-- A backend that keeps its history: what fails changes nothing, what succeeds takes nothing away, and begun at
`start` it answers queries with what was appended since. -/
structure AppendOnly (σ : Type) [Backend σ] {ε : Type} (history : σ → List ε) (entry : Record → ε)
    (start : σ) (Storable : Record → Prop) : Prop where
  failed : ∀ {call : Call} {now : Instant} {s s' : σ} {e : Error},
    perform call now s = (.error e, s') → s' = s
  grown : ∀ (xs : List (Call × Instant)) (s : σ),
    history (run xs s).2 = history s ++ (recorded (run xs s).1).map entry
  answered : ∀ (xs : List (Call × Instant)) (q : RecordQuery) (now : Instant),
    (∀ r ∈ recorded (run xs start).1, Storable r) →
    ∃ rs, perform (.records q) now (run xs start).2 = (.ok rs, (run xs start).2) ∧
      rs.Perm ((recorded (run xs start).1).filter q.accepts) ∧ (rs.map (·.id)).Nodup ∧
      rs.Pairwise fun a b => a.order b = .lt

/-- Both catalogs keep their histories, the one in tables those of all records that can be stored. -/
theorem history_appendOnly :
    AppendOnly Memory Memory.history id {} (fun _ => True) ∧
      AppendOnly Relational Relational.rows RecordRow.of {} Record.IsStorable := by
  refine ⟨⟨Memory.eq_of_failed, fun xs m => ?_, fun xs q now _ => ?_⟩,
    ⟨Relational.eq_of_failed, Relational.history_run, fun xs q now storable => ?_⟩⟩
  · rw [List.map_id]
    exact Memory.history_run xs m
  · have indexed := Memory.indexed_empty.run xs
    have answer : perform (.records q) now (run xs ({} : Memory)).2 =
        (.ok (chronicle ((recorded (run xs ({} : Memory)).1).filter q.accepts)), (run xs ({} : Memory)).2) := by
      show Memory.records q _ = _
      rw [Memory.records, indexed.history, List.nil_append]
    exact ⟨_, answer, chronicle_filter indexed.nodup q⟩
  · have indexed := Relational.indexed_empty.run xs
    have readable : ∀ r ∈ recorded (run xs ({} : Relational)).1, ∀ row, RecordRow.of r = .ok row →
        Record.ofJson? row.body = some r := by
      intro r among row kept
      obtain ⟨j, written, rfl⟩ := RecordRow.exists_of kept
      exact Record.ofJson?_back Json.faithful_reread (storable r among).kept written
    have answer := Relational.records_of_history indexed.history readable q
    exact ⟨_, answer, chronicle_filter indexed.nodup q⟩

/-- A record that is older than `winterRecord`. -/
def olderRecord : Record := { winterRecord with id := .fresh 3, time := ⟨1000000000, 0⟩ }

/-- Two records, the older one last, and two calls that fail. -/
def repeatedCalls : List (Call × Instant) :=
  [(.appendRecord winterRecord, default), (.appendRecord olderRecord, default),
    (.appendRecord winterRecord, default), (.recordUsage (.fresh 9), default)]

theorem history_appendOnly_repeatedCalls :
    recorded (run repeatedCalls ({} : Relational)).1 = [winterRecord, olderRecord] ∧
      winterRecord.IsStorable ∧ olderRecord.IsStorable ∧
      perform (.appendRecord winterRecord) default (run repeatedCalls ({} : Relational)).2 =
        (.error (repeated winterRecord.id), (run repeatedCalls ({} : Relational)).2) ∧
      ∃ rs, perform (.records {}) default (run repeatedCalls ({} : Relational)).2 =
          (.ok rs, (run repeatedCalls ({} : Relational)).2) ∧
        rs.Perm [winterRecord, olderRecord] ∧ rs.Pairwise fun a b => a.order b = .lt := by
  have appended : recorded (run repeatedCalls ({} : Relational)).1 = [winterRecord, olderRecord] := by
    decide +kernel
  have winterStorable : winterRecord.IsStorable := ⟨by decide +kernel, by decide +kernel, by decide +kernel⟩
  have olderStorable : olderRecord.IsStorable := ⟨by decide +kernel, by decide +kernel, by decide +kernel⟩
  have refusal : (perform (.appendRecord winterRecord) default (run repeatedCalls ({} : Relational)).2).1 =
      .error (repeated winterRecord.id) := by
    decide +kernel
  have same := history_appendOnly.2.failed (Prod.ext refusal rfl)
  have storable : ∀ r ∈ recorded (run repeatedCalls ({} : Relational)).1, r.IsStorable := by
    rw [appended]
    simp only [List.forall_mem_cons]
    exact ⟨winterStorable, olderStorable, nofun⟩
  obtain ⟨rs, answer, perm, -, sorted⟩ := history_appendOnly.2.answered repeatedCalls {} default storable
  rw [appended] at perm
  exact ⟨appended, winterStorable, olderStorable, Prod.ext refusal same, rs, answer, perm, sorted⟩

end Catalog

end Stencil
