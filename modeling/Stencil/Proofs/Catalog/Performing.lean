import Stencil.Proofs.Catalog.Faultless

/-!
# Actions as runs of calls

All that an action does to a catalog is to perform calls. `Performs` is a rule of inference for actions: an
action leads where a run of calls leads, and a postcondition holds of its result and of the replies. Nothing
is assumed of the backend, so the rules hold whatever its calls do and however they fail.
-/

namespace Stencil.Catalog

variable {σ α β : Type} [Backend σ]

/-- An action performs calls one after the other, and a postcondition holds of its result and their replies. -/
def Performs (act : Action σ α) (after : Except Error α → List Reply → Prop) : Prop :=
  ∀ s, ∃ xs : List (Call × Instant), (act s).2 = (run xs s).2 ∧ after (act s).1 (run xs s).1

namespace Performs

variable {after after' : Except Error α → List Reply → Prop}

theorem pure {a : α} (h : after (.ok a) []) : Performs (Pure.pure a : Action σ α) after :=
  fun _ => ⟨[], rfl, h⟩

theorem bind {x : Action σ α} {f : α → Action σ β} {between : Except Error α → List Reply → Prop}
    {after : Except Error β → List Reply → Prop} (first : Performs x between)
    (fails : ∀ e part, between (.error e) part → after (.error e) part)
    (next : ∀ a part, between (.ok a) part →
      Performs (f a) fun result rest => after result (part ++ rest)) : Performs (x >>= f) after := by
  intro s
  obtain ⟨xs, state, holds⟩ := first s
  cases ran : x s with
  | mk result s' =>
    rw [ran] at state holds
    have state : s' = (run xs s).2 := state
    cases result with
    | error e =>
      rw [Faultless.bind_error ran]
      exact ⟨xs, state, fails e _ holds⟩
    | ok a =>
      obtain ⟨ys, state', holds'⟩ := next a _ holds s'
      rw [Faultless.bind_ok ran]
      refine ⟨xs ++ ys, ?_⟩
      rw [run_append, ← state]
      exact ⟨state', holds'⟩

theorem call {call : Call} {now : Instant} :
    Performs (Catalog.perform call now : Action σ call.Answer) fun result replies =>
      replies = [⟨call, result⟩] := fun _ => ⟨[(call, now)], rfl, rfl⟩

theorem step {call : Call} {now : Instant} {f : call.Answer → Action σ α}
    (fails : ∀ e, after (.error e) [⟨call, .error e⟩])
    (next : ∀ a, Performs (f a) fun result rest => after result (⟨call, .ok a⟩ :: rest)) :
    Performs (Catalog.perform call now >>= f) after := by
  refine Performs.call.bind ?_ ?_
  · rintro e part rfl
    exact fails e
  · rintro a part rfl
    exact next a

theorem tryCatch {act : Action σ α} {handler : Error → Action σ α} (h : Performs act after)
    (handled : Error → Except Error α) (handles : ∀ e s, handler e s = (handled e, s))
    (fails : ∀ e part, after (.error e) part → after' (handled e) part)
    (answers : ∀ a part, after (.ok a) part → after' (.ok a) part) :
    Performs (MonadExcept.tryCatch act handler : Action σ α) after' := by
  intro s
  obtain ⟨xs, state, holds⟩ := h s
  refine ⟨xs, ?_⟩
  cases ran : act s with
  | mk result s' =>
    rw [ran] at state holds
    cases result with
    | ok a =>
      rw [Faultless.tryCatch_ok ran]
      exact ⟨state, answers a _ holds⟩
    | error e =>
      rw [Faultless.tryCatch_error ran, handles]
      exact ⟨state, fails e _ holds⟩

end Performs

/-! ### What is written down -/

/-- A call with the error that it was answered with. -/
def Reply.entry (reply : Reply) : Call × Option Error := (reply.1, Supervised.error? reply.2)

theorem log_run (xs : List (Call × Instant)) (s : Supervised σ) :
    (run xs s).2.log = s.log ++ (run xs s).1.map Reply.entry := by
  induction xs generalizing s with
  | nil => exact (List.append_nil _).symm
  | cons x xs ih =>
    have written : (perform x.1 x.2 s).2.log =
        s.log ++ [Reply.entry ⟨x.1, (perform x.1 x.2 s).1⟩] := by
      rcases Faultless.perform_cases x.1 x.2 s with ⟨e, s', failed, log⟩ | ⟨answer, inner, -, answered⟩
      · rw [failed]
        exact log
      · rw [answered]
        rfl
    show (run xs (perform x.1 x.2 s).2).2.log = _
    rw [ih, written, List.append_assoc]
    rfl

end Stencil.Catalog
