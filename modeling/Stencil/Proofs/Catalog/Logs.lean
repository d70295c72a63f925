import Stencil.Proofs.Catalog.Faultless
import Stencil.Proofs.Catalog.Mirrors

/-!
# What an action writes down

A supervised catalog writes down its calls with their errors. `Logged` is a rule of inference for actions:
an action adds a part to the log, the history grows by the records of that part, and a postcondition holds of
the result and the part. Nothing is assumed of the state, so the rules hold for every schedule of failures.
-/

namespace Stencil.Catalog

abbrev Log : Type := List (Call × Option Error)

def successes (method : Method) (log : Log) : Nat :=
  log.countP fun entry => entry.1.method == method && entry.2.isNone

def failures (method : Method) (log : Log) : Nat :=
  log.countP fun entry => entry.1.method == method && entry.2.isSome

theorem successes_append (method : Method) (xs ys : Log) :
    successes method (xs ++ ys) = successes method xs + successes method ys := List.countP_append

theorem failures_append (method : Method) (xs ys : Log) :
    failures method (xs ++ ys) = failures method xs + failures method ys := List.countP_append

/-- The record that went into the history with a call. -/
def appended? : Call × Option Error → Option Identifier
  | (.appendRecord r, none) => some r.id
  | _ => none

theorem length_appended (log : Log) :
    (log.filterMap appended?).length = successes .appendRecord log := by
  induction log with
  | nil => rfl
  | cons entry log ih =>
    have rest : successes .appendRecord (entry :: log) =
        successes .appendRecord log + successes .appendRecord [entry] := by
      rw [← List.singleton_append, successes_append, Nat.add_comm]
    obtain ⟨call, error⟩ := entry
    rw [rest, ← ih]
    cases call <;> cases error <;> rfl

/-- No error in a log concerns more than one artifact. -/
def Tame (log : Log) : Prop := ∀ entry ∈ log, ∀ x, entry.2 = some x → x.isFatal = false

theorem tame_append {xs ys : Log} : Tame (xs ++ ys) ↔ Tame xs ∧ Tame ys := List.forall_mem_append

/-- The record that a reply says was appended. -/
def Reply.record? : Reply → Option Record
  | ⟨.appendRecord r, .ok _⟩ => some r
  | _ => none

theorem Reply.record?_error (call : Call) (e : Error) : record? ⟨call, .error e⟩ = none := by
  cases call <;> rfl

theorem Reply.record?_of_asks {call : Call} (asks : call.asks = true) (reply : Except Error call.Answer) :
    record? ⟨call, reply⟩ = none := by
  cases call with
  | appendRecord r => cases asks
  | _ => rfl

theorem appended?_eq (call : Call) (reply : Except Error call.Answer) :
    (appended? (call, Supervised.error? reply)).toList = (Reply.record? ⟨call, reply⟩).toList.map (·.id) := by
  cases call <;> cases reply <;> rfl

/-- A backend whose history grows by what is appended, and by nothing else. -/
class Archive (σ : Type) [Backend σ] where
  recordIds : σ → List Identifier
  recordIds_perform : ∀ (call : Call) (now : Instant) (s : σ),
    recordIds (perform call now s).2 =
      recordIds s ++ (appended? (call, Supervised.error? (perform call now s).1)).toList

theorem Memory.Change.history {m m' : Memory} {now : Instant} {call : Call}
    {reply : Except Error call.Answer} (change : Change m now call reply m') :
    m'.history = m.history ++ (Reply.record? ⟨call, reply⟩).toList := by
  cases change with
  | refused e =>
    rw [Reply.record?_error]
    exact (List.append_nil _).symm
  | asked call asks answer =>
    rw [Reply.record?_of_asks asks]
    exact (List.append_nil _).symm
  | recorded new => rfl
  | _ => exact (List.append_nil _).symm

instance : Archive Memory where
  recordIds m := m.history.map (·.id)
  recordIds_perform call now m := by
    rw [(Memory.change_perform call now m).history, List.map_append, appended?_eq]

namespace Relational

theorem Change.history {r r' : Relational} {now : Instant} {call : Call}
    {reply : Except Error call.Answer} (change : Change r now call reply r') :
    ∃ rows, r'.history = r.history ++ rows ∧
      rows.map .ok = (Reply.record? ⟨call, reply⟩).toList.map RecordRow.of := by
  cases change with
  | refused e =>
    rw [Reply.record?_error]
    exact ⟨[], (List.append_nil _).symm, rfl⟩
  | asked call asks answer =>
    rw [Reply.record?_of_asks asks]
    exact ⟨[], (List.append_nil _).symm, rfl⟩
  | @recorded record row kept new => exact ⟨[row], rfl, congrArg (fun row => [row]) kept.symm⟩
  | _ => exact ⟨[], (List.append_nil _).symm, rfl⟩

/-- The rows of the history grow by those of the records that are appended. -/
theorem rows_perform (call : Call) (now : Instant) (r : Relational) :
    ∃ rows, (perform call now r).2.history = r.history ++ rows ∧
      rows.map .ok = (Reply.record? ⟨call, (perform call now r).1⟩).toList.map RecordRow.of :=
  (change_perform call now r).history

end Relational

instance : Archive Relational where
  recordIds r := r.history.map (·.id)
  recordIds_perform call now r := by
    obtain ⟨rows, grown, kept⟩ := Relational.rows_perform call now r
    rw [grown, List.map_append, recordRow_ids kept, appended?_eq]

/-! ### Rules -/

variable {σ α β : Type} [Backend σ] [Archive σ]

/-- An action adds to the log what a postcondition says of it and of the result, and to the history the
records of this part. -/
def Logged (act : Action (Supervised σ) α) (after : Except Error α → Log → Prop) : Prop :=
  ∀ s, ∃ part, (act s).2.log = s.log ++ part ∧
    Archive.recordIds (act s).2.inner = Archive.recordIds s.inner ++ part.filterMap appended? ∧
    after (act s).1 part

namespace Logged

variable {after after' : Except Error α → Log → Prop}

theorem pure {a : α} (h : after (.ok a) []) :
    Logged (Pure.pure a : Action (Supervised σ) α) after :=
  fun _ => ⟨[], (List.append_nil _).symm, (List.append_nil _).symm, h⟩

theorem bind {x : Action (Supervised σ) α} {f : α → Action (Supervised σ) β}
    {between : Except Error α → Log → Prop} {after : Except Error β → Log → Prop}
    (first : Logged x between) (fails : ∀ e part, between (.error e) part → after (.error e) part)
    (next : ∀ a part, between (.ok a) part →
      Logged (f a) fun reply rest => after reply (part ++ rest)) : Logged (x >>= f) after := by
  intro s
  obtain ⟨part, log, ids, holds⟩ := first s
  cases ran : x s with
  | mk result s' =>
    rw [ran] at log ids holds
    cases result with
    | error e =>
      rw [Faultless.bind_error ran]
      exact ⟨part, log, ids, fails e part holds⟩
    | ok a =>
      obtain ⟨rest, log', ids', holds'⟩ := next a part holds s'
      rw [Faultless.bind_ok ran]
      refine ⟨part ++ rest, ?_, ?_, holds'⟩
      · rw [log', log, List.append_assoc]
      · rw [ids', ids, List.filterMap_append, List.append_assoc]

theorem call {call : Call} {now : Instant} :
    Logged (Catalog.perform call now : Action (Supervised σ) call.Answer) fun reply part =>
      part = [(call, Supervised.error? reply)] := by
  intro s
  cases scheduled : s.scheduled? call with
  | some e =>
    rw [Faultless.perform_scheduled scheduled now]
    refine ⟨[(call, some e)], rfl, ?_, rfl⟩
    cases call <;> exact (List.append_nil _).symm
  | none =>
    have grown := Archive.recordIds_perform call now s.inner
    cases ran : Catalog.perform call now s.inner with
    | mk reply inner =>
      rw [Faultless.perform_unscheduled scheduled ran]
      rw [ran] at grown
      refine ⟨[(call, Supervised.error? reply)], rfl, ?_, rfl⟩
      show Archive.recordIds inner = _
      rw [grown, List.filterMap_cons, List.filterMap_nil]
      cases appended? (call, Supervised.error? reply) <;> rfl

theorem step {call : Call} {now : Instant} {f : call.Answer → Action (Supervised σ) α}
    (fails : ∀ e, after (.error e) [(call, some e)])
    (next : ∀ a, Logged (f a) fun reply rest => after reply ((call, none) :: rest)) :
    Logged (Catalog.perform call now >>= f) after := by
  refine Logged.call.bind ?_ ?_
  · rintro e part rfl
    exact fails e
  · rintro a part rfl
    exact next a

theorem tryCatch {act : Action (Supervised σ) α} {handler : Error → Action (Supervised σ) α}
    (h : Logged act after) (handled : Error → Except Error α)
    (handles : ∀ e s, handler e s = (handled e, s))
    (fails : ∀ e part, after (.error e) part → after' (handled e) part)
    (answers : ∀ a part, after (.ok a) part → after' (.ok a) part) :
    Logged (MonadExcept.tryCatch act handler : Action (Supervised σ) α) after' := by
  intro s
  obtain ⟨part, log, ids, holds⟩ := h s
  refine ⟨part, ?_⟩
  cases ran : act s with
  | mk result s' =>
    rw [ran] at log ids holds
    cases result with
    | ok a =>
      rw [Faultless.tryCatch_ok ran]
      exact ⟨log, ids, answers a part holds⟩
    | error e =>
      rw [Faultless.tryCatch_error ran, handles]
      exact ⟨log, ids, fails e part holds⟩

end Logged

end Stencil.Catalog
