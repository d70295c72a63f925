import Stencil.Proofs.Batch.Commits
import Stencil.Proofs.Catalog.Contents

/-!
# What a batch answers where no call fails

Whatever ties a catalog to its ledger through every commit does so through every batch. What becomes of an
artifact that is committed depends on the ledger only through the template that has its key, which no later
commit changes, so the results of a batch can be read off the ledger after it.
-/

namespace Stencil

open Catalog

variable {σ : Type} [Catalog.Backend σ] [Keeps σ]

/-- What ties a catalog to a ledger, and does so again after the commit of a template that was not used. -/
structure Catalog.Ties (Tied : Ledger → σ → Prop) : Prop where
  represents {l : Ledger} {s : σ} (tied : Tied l s) : Keeps.Represents l s
  commit {l : Ledger} {s s' : σ} {c : Commit} {id : Identifier} (tied : Tied l s)
    (fresh : ∀ t ∈ l.templates, t.id ≠ c.made.template.id) (unused : c.made.template.usage = 0)
    (committed : Committed c s id s') : Tied (l.commit c) s'

/-- What ties a supervised catalog to a value that goes on with every commit, and has a ledger. -/
structure Catalog.Carries {ι : Type} (ledger : ι → Ledger) (onward : ι → Commit → ι)
    (Tied : ι → Supervised σ → Prop) : Prop where
  ledger_onward (i : ι) (c : Commit) : ledger (onward i c) = (ledger i).commit c
  represents {i : ι} {s : Supervised σ} (tied : Tied i s) : Keeps.Represents (ledger i) s.inner
  commit {i : ι} {s s' : Supervised σ} {c : Commit} {id : Identifier} {score : Float} (tied : Tied i s)
    (fresh : ∀ t ∈ (ledger i).templates, t.id ≠ c.made.template.id) (unused : c.made.template.usage = 0)
    (slot : id = (ledger i).slot c.made.template) (rated : Rated c s.inner id score s'.inner)
    (log : s'.log = s.log ++ (c.calls id score).map (·, none)) : Tied (onward i c) s'

theorem Catalog.Carries.ledger_foldl {ι : Type} {ledger : ι → Ledger} {onward : ι → Commit → ι}
    {Tied : ι → Supervised σ → Prop} (carries : Carries ledger onward Tied) (cs : List Commit) (i : ι) :
    ledger (cs.foldl onward i) = (ledger i).commitAll cs := by
  induction cs generalizing i with
  | nil => rfl
  | cons c cs ih =>
    rw [List.foldl_cons, ih, carries.ledger_onward]
    rfl

theorem Catalog.Ties.carries {Tied : Ledger → σ → Prop} (ties : Ties Tied) :
    Carries id Ledger.commit fun l (s : Supervised σ) => Tied l s.inner where
  ledger_onward _ _ := rfl
  represents tied := ties.represents tied
  commit tied fresh unused _ rated _ := ties.commit tied fresh unused rated.committed

theorem Catalog.ties_represents : Ties (Keeps.Represents : Ledger → σ → Prop) where
  represents tied := tied
  commit tied fresh _ committed := Keeps.commit tied fresh committed

namespace Batch

/-! ### Results in a ledger -/

/-- What becomes of an artifact that is prepared, where templates lie as a ledger says. -/
def resultIn (l : Ledger) (p : Plan) : Except Error (Option Commit) → Result
  | .error x => failed p x
  | .ok none => { item := item p .belowGate }
  | .ok (some c) => rendered p c.made.outcome (l.slot c.made.template)

def resultsIn [Libraries] (b : Batch) (e : Environment) (supply : Supply) (l : Ledger) :
    List Plan → Nat → List Result
  | [], _ => []
  | p :: ps, k => resultIn l p (b.prepare e supply p k) :: b.resultsIn e supply l ps (k + 1)

theorem resultIn_commitAll (l : Ledger) (p : Plan) (prepared : Except Error (Option Commit))
    (cs : List Commit) :
    resultIn ((l.commitAll prepared.toOption.join.toList).commitAll cs) p prepared =
      resultIn (l.commitAll prepared.toOption.join.toList) p prepared := by
  match prepared with
  | .error _ => rfl
  | .ok none => rfl
  | .ok (some c) =>
    have later : ((l.commit c).commitAll cs).slot c.made.template = l.slot c.made.template :=
      l.slot_commitAll c cs
    have first : (l.commit c).slot c.made.template = l.slot c.made.template := l.slot_commitAll c []
    show rendered p c.made.outcome _ = rendered p c.made.outcome _
    exact congrArg _ (later.trans first.symm)

/-! ### Processing -/

section Carrying

variable [Shows σ] {ι : Type} {ledger : ι → Ledger} {onward : ι → Commit → ι} {Tied : ι → Supervised σ → Prop}

theorem flawless_commit (carries : Carries ledger onward Tied) {c : Commit}
    (unused : c.made.template.usage = 0) (i : ι) (cs : List Commit) :
    Flawless (fun s : Supervised σ => (ledger i).Admits (c :: cs) ∧ Tied i s)
      (c.made.commit c.path c.recordId c.time : Action (Supervised σ) Identifier)
      fun id s => id = (ledger i).slot c.made.template ∧ Tied (onward i c) s where
  back {s} := (flawless_calls c s).back
  answers {s} := by
    rintro ⟨admits, tied⟩ clean
    obtain ⟨id, s', ran, score, rated, log⟩ := (flawless_calls c s).answers rfl clean
    have slot := Shows.slot (carries.represents tied) admits.fresh rated.committed
    exact ⟨id, s', ran, slot, carries.commit tied admits.fresh unused slot rated log⟩

theorem flawless_settle (carries : Carries ledger onward Tied) (p : Plan)
    {prepared : Except Error (Option Commit)}
    (unused : ∀ c, prepared = .ok (some c) → c.made.template.usage = 0) (i : ι) (cs : List Commit) :
    Flawless (fun s : Supervised σ => (ledger i).Admits (prepared.toOption.join.toList ++ cs) ∧ Tied i s)
      (settle p prepared : Action (Supervised σ) Result)
      fun r s => r = resultIn ((ledger i).commitAll prepared.toOption.join.toList) p prepared ∧
        Tied (prepared.toOption.join.toList.foldl onward i) s := by
  match prepared with
  | .error _ => exact .pure fun s h => ⟨rfl, h.2⟩
  | .ok none => exact .pure fun s h => ⟨rfl, h.2⟩
  | .ok (some c) =>
    have slot : ((ledger i).commit c).slot c.made.template = (ledger i).slot c.made.template :=
      (ledger i).slot_commitAll c []
    refine flawless_unlessFatal ((flawless_commit carries (unused c rfl) i cs).bind fun id => .pure ?_)
    rintro s ⟨rfl, tied⟩
    exact ⟨congrArg (rendered p c.made.outcome) slot.symm, tied⟩

/-- Processing artifacts carries the catalog on by their commits, and their results are in its ledger. -/
theorem flawless_processAll [Libraries] (carries : Carries ledger onward Tied) (b : Batch) (e : Environment)
    (supply : Supply) (ps : List Plan) (k : Nat) (i : ι) (cs : List Commit) :
    Flawless (fun s : Supervised σ => (ledger i).Admits (b.commits e supply ps k ++ cs) ∧ Tied i s)
      (b.processAll e supply ps k : Action (Supervised σ) (List Result))
      fun rs s => rs = b.resultsIn e supply ((ledger i).commitAll (b.commits e supply ps k)) ps k ∧
        Tied ((b.commits e supply ps k).foldl onward i) s := by
  induction ps generalizing k i with
  | nil => exact .pure fun s h => ⟨rfl, h.2⟩
  | cons p ps ih =>
    let prepared := b.prepare e supply p k
    let first := prepared.toOption.join.toList
    let rest := b.commits e supply ps (k + 1)
    have split : b.commits e supply (p :: ps) k = first ++ rest := by
      rw [commits, commit?_eq]
    have unused : ∀ c, b.prepare e supply p k = .ok (some c) → c.made.template.usage = 0 := fun c made => by
      have committed : b.commit? e supply p k = some c := by
        rw [commit?_eq, made]
        rfl
      exact usage_of_commit? committed
    have settled := (flawless_settle carries p unused i (rest ++ cs)).keep
      ((ledger i).Admits (first ++ (rest ++ cs)))
    unfold processAll
    rw [split, List.append_assoc, Ledger.commitAll_append, List.foldl_append, process_eq]
    refine Flawless.mono (settled.bind fun r => ?_) (fun s h => ⟨h.1, h⟩) fun _ _ => id
    have others := (ih (k + 1) (first.foldl onward i)).keep
      (r = resultIn ((ledger i).commitAll first) p prepared)
    rw [carries.ledger_foldl] at others
    refine Flawless.mono (others.bind fun rs => .pure ?_)
      (fun s h => ⟨h.2.1, h.1.commitAll, h.2.2⟩) fun _ _ => id
    rintro s ⟨rfl, rfl, tied⟩
    -- What became of the first artifact is the same in the ledger with the others.
    refine ⟨?_, tied⟩
    rw [resultsIn, resultIn_commitAll]

end Carrying

variable {Tied : Ledger → σ → Prop}

/-- Processing artifacts ties the catalog to the ledger with their commits, and their results are in it. -/
theorem ties_processAll [Libraries] [Shows σ] (ties : Ties Tied) (b : Batch) (e : Environment) (supply : Supply)
    (ps : List Plan) (k : Nat) (l : Ledger) (cs : List Commit) :
    Faultless (fun s : σ => l.Admits (b.commits e supply ps k ++ cs) ∧ Tied l s)
      (b.processAll e supply ps k : Action (Supervised σ) (List Result))
      fun rs s => rs = b.resultsIn e supply (l.commitAll (b.commits e supply ps k)) ps k ∧
        Tied (l.commitAll (b.commits e supply ps k)) s :=
  .of_flawless (flawless_processAll ties.carries b e supply ps k l cs)

theorem flawless_environment (b : Batch) (now : Instant) (l : Ledger) {before : Supervised σ → Prop}
    (represents : ∀ s, before s → Keeps.Represents l s.inner) :
    Flawless before (b.environment now : Action (Supervised σ) Environment)
      fun e s => e = l.environment b.settings.environment ∧ ∃ s₀, before s₀ ∧ s.inner = s₀.inner ∧
        s.log = s₀.log ++ [(.environment b.settings.environment, none)] := by
  unfold environment
  refine Flawless.call.bind fun found => .pure ?_
  rintro s' ⟨s, holds, answered, log⟩
  rw [Keeps.environment (represents s holds)] at answered
  obtain ⟨answer, inner⟩ := Prod.mk.inj answered
  exact ⟨by rw [← Except.ok.inj answer]; rfl, s, holds, inner.symm, log⟩

theorem ties_environment (ties : Ties Tied) (b : Batch) (now : Instant) (l : Ledger) :
    Faultless (fun s : σ => Tied l s) (b.environment now : Action (Supervised σ) Environment)
      fun e s => e = l.environment b.settings.environment ∧ Tied l s := by
  refine .of_flawless ((b.flawless_environment now l fun s => ties.represents).mono (fun _ => id) ?_)
  rintro e s ⟨found, s₀, tied, inner, -⟩
  exact ⟨found, inner ▸ tied⟩

end Batch

end Stencil
