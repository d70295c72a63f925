import Stencil.Catalog.Supervised

/-!
# Actions without faults

The log of a supervised catalog says of every call whether it failed. `Faultless` is a rule of
inference for actions: from a state with a precondition, an action after which no call has failed answers
without error, and a postcondition holds. The log only grows, so a log without failures at the end says
that there were none on the way. `Flawless` is the same rule with conditions that also see the log.
-/

namespace Stencil.Catalog

variable {σ α β : Type}

/-- No call failed. -/
def Supervised.Clean (s : Supervised σ) : Prop := ∀ entry ∈ s.log, entry.2 = none

/-- An action that no failed call disturbs leads from a precondition to an answer with a postcondition. -/
structure Flawless (before : Supervised σ → Prop) (act : Action (Supervised σ) α)
    (after : α → Supervised σ → Prop) : Prop where
  /-- A failure that was there before is there afterwards. -/
  back : ∀ {s}, (act s).2.Clean → s.Clean
  answers : ∀ {s}, before s → (act s).2.Clean → ∃ a s', act s = (.ok a, s') ∧ after a s'

/-- An action that no failed call disturbs leads from a precondition on the catalog to an answer with a
postcondition. -/
structure Faultless (before : σ → Prop) (act : Action (Supervised σ) α) (after : α → σ → Prop) :
    Prop where
  /-- A failure that was there before is there afterwards. -/
  back : ∀ {s}, (act s).2.Clean → s.Clean
  answers : ∀ {s}, before s.inner → (act s).2.Clean → ∃ a s', act s = (.ok a, s') ∧ after a s'.inner

namespace Faultless

theorem bind_ok {x : Action σ α} {f : α → Action σ β} {s s' : σ} {a : α}
    (first : x s = (.ok a, s')) : (x >>= f) s = f a s' := by
  show ExceptT.bindCont f (x s).1 (x s).2 = f a s'
  rw [first]
  rfl

theorem bind_error {x : Action σ α} {f : α → Action σ β} {s s' : σ} {e : Error}
    (first : x s = (.error e, s')) : (x >>= f) s = (.error e, s') := by
  show ExceptT.bindCont f (x s).1 (x s).2 = (.error e, s')
  rw [first]
  rfl

theorem tryCatch_ok {x : Action σ α} {handler : Error → Action σ α} {s s' : σ} {a : α}
    (first : x s = (.ok a, s')) : (MonadExcept.tryCatch x handler : Action σ α) s = (.ok a, s') := by
  simp only [MonadExcept.tryCatch, tryCatchThe, MonadExceptOf.tryCatch, ExceptT.tryCatch,
    ExceptT.mk, Bind.bind, StateT.bind]
  rw [first]
  rfl

theorem tryCatch_error {x : Action σ α} {handler : Error → Action σ α} {s s' : σ} {e : Error}
    (first : x s = (.error e, s')) :
    (MonadExcept.tryCatch x handler : Action σ α) s = handler e s' := by
  simp only [MonadExcept.tryCatch, tryCatchThe, MonadExceptOf.tryCatch, ExceptT.tryCatch,
    ExceptT.mk, Bind.bind, StateT.bind]
  rw [first]

theorem exists_of_bind_eq_ok {x : Action σ α} {f : α → Action σ β} {s s' : σ} {b : β}
    (done : (x >>= f) s = (.ok b, s')) : ∃ a between, x s = (.ok a, between) ∧ f a between = (.ok b, s') := by
  cases ran : x s with
  | mk answer between =>
    cases answer with
    | ok a =>
      rw [bind_ok ran] at done
      exact ⟨a, between, rfl, done⟩
    | error e =>
      rw [bind_error ran] at done
      cases (Prod.mk.inj done).1

theorem bind_pure_snd (x : Action σ α) (f : α → β) (s : σ) :
    ((x >>= fun a => pure (f a) : Action σ β) s).2 = (x s).2 := by
  cases ran : x s with
  | mk answer s' =>
    cases answer with
    | ok a =>
      rw [bind_ok ran]
      rfl
    | error e => rw [bind_error ran]

/-- What both halves of an action keep, it keeps. -/
theorem keeps_bind {Kept : σ → Prop} {x : Action σ α} {f : α → Action σ β}
    (first : ∀ s, Kept s → Kept (x s).2) (next : ∀ a s, Kept s → Kept (f a s).2) (s : σ) (h : Kept s) :
    Kept ((x >>= f) s).2 := by
  have after := first s h
  cases ran : x s with
  | mk answer s' =>
    rw [ran] at after
    cases answer with
    | ok a =>
      rw [bind_ok ran]
      exact next a s' after
    | error e =>
      rw [bind_error ran]
      exact after

variable [Backend σ]

theorem perform_scheduled {call : Call} {s : Supervised σ} {e : Error}
    (scheduled : s.scheduled? call = some e) (now : Instant) :
    Catalog.perform call now s = (.error e, { s with log := s.log ++ [(call, some e)] }) := by
  simp only [Catalog.perform, scheduled]

theorem perform_unscheduled {call : Call} {s : Supervised σ} {reply : Except Error call.Answer}
    {inner : σ} {now : Instant} (free : s.scheduled? call = none)
    (ran : Catalog.perform call now s.inner = (reply, inner)) :
    Catalog.perform call now s =
      (reply, { s with inner, log := s.log ++ [(call, Supervised.error? reply)] }) := by
  simp only [Catalog.perform] at ran ⊢
  simp only [free, ran]

/-- A call that fails is in the log with its error, and one that does not with its answer's effect. -/
theorem perform_cases (call : Call) (now : Instant) (s : Supervised σ) :
    (∃ e s', Catalog.perform call now s = (.error e, s') ∧ s'.log = s.log ++ [(call, some e)]) ∨
      ∃ answer inner, Catalog.perform call now s.inner = (.ok answer, inner) ∧
        Catalog.perform call now s =
          (.ok answer, { s with inner, log := s.log ++ [(call, none)] }) := by
  cases scheduled : s.scheduled? call with
  | some e => exact .inl ⟨e, _, perform_scheduled scheduled now, rfl⟩
  | none =>
    cases ran : Catalog.perform call now s.inner with
    | mk result inner =>
      have done := perform_unscheduled scheduled ran
      cases result with
      | ok answer => exact .inr ⟨answer, inner, rfl, done⟩
      | error e => exact .inl ⟨e, _, done, rfl⟩

theorem inner_of_perform {call : Call} {now : Instant} {s s' : Supervised σ} {answer : call.Answer}
    (ran : Catalog.perform call now s = (.ok answer, s')) :
    Catalog.perform call now s.inner = (.ok answer, s'.inner) := by
  rcases perform_cases call now s with ⟨e, _, failed, -⟩ | ⟨answer', inner, answered, ran'⟩
  · rw [failed] at ran
    cases (Prod.mk.inj ran).1
  · obtain ⟨same, rfl⟩ := Prod.mk.inj (ran'.symm.trans ran)
    rw [answered, same]

end Faultless

namespace Flawless

variable {before : Supervised σ → Prop}

theorem pure {a : α} {after : α → Supervised σ → Prop} (h : ∀ s, before s → after a s) :
    Flawless before (Pure.pure a : Action (Supervised σ) α) after where
  back := id
  answers := fun {s} holds _ => ⟨a, s, rfl, h s holds⟩

theorem bind {x : Action (Supervised σ) α} {f : α → Action (Supervised σ) β}
    {between : α → Supervised σ → Prop} {after : β → Supervised σ → Prop}
    (first : Flawless before x between) (next : ∀ a, Flawless (between a) (f a) after) :
    Flawless before (x >>= f) after where
  back := by
    intro s clean
    cases ran : x s with
    | mk result s' =>
      cases result with
      | ok a =>
        rw [Faultless.bind_ok ran] at clean
        exact first.back (ran ▸ (next a).back clean)
      | error e =>
        rw [Faultless.bind_error ran] at clean
        exact first.back (ran ▸ clean)
  answers := by
    intro s holds clean
    cases ran : x s with
    | mk result s' =>
      cases result with
      | ok a =>
        rw [Faultless.bind_ok ran] at clean ⊢
        obtain ⟨a', s'', ran', holds'⟩ := first.answers holds (ran ▸ (next a).back clean)
        obtain ⟨same, rfl⟩ := Prod.mk.inj (ran.symm.trans ran')
        obtain rfl := Except.ok.inj same
        exact (next a).answers holds' clean
      | error e =>
        rw [Faultless.bind_error ran] at clean
        obtain ⟨a, s'', ran', -⟩ := first.answers holds (ran ▸ clean)
        cases (Prod.mk.inj (ran.symm.trans ran')).1

theorem mono {before' : Supervised σ → Prop} {act : Action (Supervised σ) α}
    {after after' : α → Supervised σ → Prop} (h : Flawless before act after)
    (weaker : ∀ s, before' s → before s) (stronger : ∀ a s, after a s → after' a s) :
    Flawless before' act after' where
  back := h.back
  answers := by
    intro s holds clean
    obtain ⟨a, s', ran, after⟩ := h.answers (weaker s holds) clean
    exact ⟨a, s', ran, stronger a s' after⟩

theorem keep {act : Action (Supervised σ) α} {after : α → Supervised σ → Prop} (fact : Prop)
    (h : Flawless before act after) :
    Flawless (fun s => fact ∧ before s) act fun a s => fact ∧ after a s where
  back := h.back
  answers := by
    intro s holds clean
    obtain ⟨a, s', ran, after⟩ := h.answers holds.2 clean
    exact ⟨a, s', ran, holds.1, after⟩

theorem tryCatch {act : Action (Supervised σ) α} {after : α → Supervised σ → Prop}
    {handler : Error → Action (Supervised σ) α} (keeps : ∀ e s, (handler e s).2 = s)
    (h : Flawless before act after) :
    Flawless before (MonadExcept.tryCatch act handler : Action (Supervised σ) α) after := by
  have final : ∀ s, ((MonadExcept.tryCatch act handler : Action (Supervised σ) α) s).2 = (act s).2 := by
    intro s
    cases ran : act s with
    | mk result s' =>
      cases result with
      | ok a => rw [Faultless.tryCatch_ok ran]
      | error e => rw [Faultless.tryCatch_error ran, keeps]
  refine ⟨fun {s} clean => h.back (final s ▸ clean), fun {s} holds clean => ?_⟩
  obtain ⟨a, s', ran, after⟩ := h.answers holds (final s ▸ clean)
  exact ⟨a, s', Faultless.tryCatch_ok ran, after⟩

variable [Backend σ]

theorem call {call : Call} {now : Instant} :
    Flawless before (Catalog.perform call now) fun answer s' =>
      ∃ s, before s ∧ Catalog.perform call now s.inner = (.ok answer, s'.inner) ∧
        s'.log = s.log ++ [(call, none)] where
  back := by
    intro s clean entry among
    rcases Faultless.perform_cases call now s with ⟨e, s', ran, log⟩ | ⟨answer, inner, -, ran⟩
    · rw [ran] at clean
      exact clean entry (log ▸ List.mem_append_left _ among)
    · rw [ran] at clean
      exact clean entry (List.mem_append_left _ among)
  answers := by
    intro s holds clean
    rcases Faultless.perform_cases call now s with ⟨e, s', ran, log⟩ | ⟨answer, inner, answered, ran⟩
    · rw [ran] at clean
      have failed := clean (call, some e) (log ▸ List.mem_append_right _ List.mem_cons_self)
      cases failed
    · exact ⟨answer, _, ran, s, holds, answered, rfl⟩

end Flawless

namespace Faultless

variable {before : σ → Prop}

theorem flawless {act : Action (Supervised σ) α} {after : α → σ → Prop} (h : Faultless before act after) :
    Flawless (fun s => before s.inner) act fun a s => after a s.inner := ⟨h.back, h.answers⟩

theorem of_flawless {act : Action (Supervised σ) α} {after : α → σ → Prop}
    (h : Flawless (fun s => before s.inner) act fun a s => after a s.inner) :
    Faultless before act after := ⟨h.back, h.answers⟩

theorem pure {a : α} {after : α → σ → Prop} (h : ∀ s, before s → after a s) :
    Faultless before (Pure.pure a : Action (Supervised σ) α) after :=
  of_flawless (.pure fun s => h s.inner)

theorem bind {x : Action (Supervised σ) α} {f : α → Action (Supervised σ) β}
    {between : α → σ → Prop} {after : β → σ → Prop}
    (first : Faultless before x between) (next : ∀ a, Faultless (between a) (f a) after) :
    Faultless before (x >>= f) after :=
  of_flawless (first.flawless.bind fun a => (next a).flawless)

theorem mono {before' : σ → Prop} {act : Action (Supervised σ) α} {after after' : α → σ → Prop}
    (h : Faultless before act after)
    (weaker : ∀ s, before' s → before s) (stronger : ∀ a s, after a s → after' a s) :
    Faultless before' act after' :=
  of_flawless (h.flawless.mono (fun s => weaker s.inner) fun a s => stronger a s.inner)

theorem keep {act : Action (Supervised σ) α} {after : α → σ → Prop} (fact : Prop)
    (h : Faultless before act after) :
    Faultless (fun s => fact ∧ before s) act fun a s => fact ∧ after a s :=
  of_flawless (h.flawless.keep fact)

theorem call [Backend σ] {call : Call} {now : Instant} :
    Faultless before (Catalog.perform call now) fun answer s' =>
      ∃ s, before s ∧ Catalog.perform call now s = (.ok answer, s') := by
  refine of_flawless (Flawless.call.mono (fun _ => id) ?_)
  rintro answer s' ⟨s, holds, answered, -⟩
  exact ⟨s.inner, holds, answered⟩

end Faultless

/-! ### Actions that fail no call -/

/-- No call failed, and none will be made to fail. -/
structure Supervised.Untroubled (s : Supervised σ) : Prop where
  calm : s.schedule = .calm
  clean : s.Clean

/-- An action that fails no call of its own. -/
def Smooth (before : σ → Prop) (act : Action (Supervised σ) α) (after : α → σ → Prop) : Prop :=
  ∀ s, s.Untroubled → before s.inner →
    ∃ a s', act s = (.ok a, s') ∧ s'.Untroubled ∧ after a s'.inner

namespace Smooth

variable {before : σ → Prop}

theorem pure {a : α} {after : α → σ → Prop} (h : ∀ s, before s → after a s) :
    Smooth before (Pure.pure a : Action (Supervised σ) α) after :=
  fun s calm holds => ⟨a, s, rfl, calm, h s.inner holds⟩

theorem bind {x : Action (Supervised σ) α} {f : α → Action (Supervised σ) β}
    {between : α → σ → Prop} {after : β → σ → Prop} (first : Smooth before x between)
    (next : ∀ a, Smooth (between a) (f a) after) : Smooth before (x >>= f) after := by
  intro s calm holds
  obtain ⟨a, s', ran, calm', holds'⟩ := first s calm holds
  rw [Faultless.bind_ok ran]
  exact next a s' calm' holds'

theorem tryCatch {act : Action (Supervised σ) α} {after : α → σ → Prop}
    {handler : Error → Action (Supervised σ) α} (h : Smooth before act after) :
    Smooth before (MonadExcept.tryCatch act handler : Action (Supervised σ) α) after := by
  intro s calm holds
  obtain ⟨a, s', ran, calm', after⟩ := h s calm holds
  exact ⟨a, s', Faultless.tryCatch_ok ran, calm', after⟩

theorem call [Backend σ] {call : Call} {now : Instant} {after : call.Answer → σ → Prop}
    (h : ∀ s, before s → ∃ answer s', Catalog.perform call now s = (.ok answer, s') ∧ after answer s') :
    Smooth before (Catalog.perform call now) after := by
  rintro ⟨s, schedule, log⟩ ⟨rfl, clean⟩ holds
  obtain ⟨answer, s', answered, holds'⟩ := h s holds
  refine ⟨answer, _, Faultless.perform_unscheduled rfl answered, ⟨rfl, ?_⟩, holds'⟩
  intro entry among
  rcases List.mem_append.1 among with old | new
  · exact clean entry old
  · rw [List.mem_singleton.1 new]
    rfl

end Smooth

end Stencil.Catalog
