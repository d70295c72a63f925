import Stencil.Proofs.Batch.Launches
import Stencil.Proofs.Catalog.Rates

/-!
# What a batch writes down

Where no call fails, the calls of a batch follow from its commits, from the ledger of the catalog and from where
its templates stand: `Launch.flawless_run` says which calls they are, with the identifiers and the scores in
them.
-/

namespace Stencil

open Catalog

variable (σ : Type) [Catalog.Backend σ] [Keeps σ] [Rates σ]

/-- The ledger of a catalog, and where its templates stand. -/
structure Catalog.Books where
  ledger : Ledger
  standing : Template.Key → Option (Rates.Standing σ)

variable {σ}

namespace Catalog.Books

/-- The score of a commit, and where its template stands then. -/
def rate (x : Books σ) (c : Commit) : Float × Rates.Standing σ :=
  let old := (x.standing c.key).getD (Rates.initial c.made.template.effectiveness c.made.template.usage)
  Rates.rate old c.made.observed

def commit (x : Books σ) (c : Commit) : Books σ where
  ledger := x.ledger.commit c
  standing := Function.update x.standing c.key (some (x.rate c).2)

def calls (x : Books σ) (c : Commit) : List Call := c.calls (x.ledger.slot c.made.template) (x.rate c).1

def transcript : Books σ → List Commit → List Call
  | _, [] => []
  | x, c :: cs => x.calls c ++ (x.commit c).transcript cs

structure Describe (x : Books σ) (s : σ) : Prop where
  represents : Keeps.Represents x.ledger s
  standing : Rates.standing s = x.standing

/-- The books after commits, and what was written down by then. -/
def onward (i : Books σ × List (Call × Option Error)) (c : Commit) : Books σ × List (Call × Option Error) :=
  (i.1.commit c, i.2 ++ (i.1.calls c).map (·, none))

theorem carries_onward : Carries (σ := σ) (fun i => i.1.ledger) onward
    fun (i : Books σ × List (Call × Option Error)) s => i.1.Describe s.inner ∧ s.log = i.2 where
  ledger_onward _ _ := rfl
  represents tied := tied.1.represents
  commit {i s s' c id score} tied fresh unused slot rated log := by
    obtain ⟨⟨represents, standing⟩, written⟩ := tied
    obtain ⟨rates, standing'⟩ := Rates.rated represents fresh rated
    rw [standing] at rates standing'
    refine ⟨⟨Keeps.commit represents fresh rated.committed, standing'⟩, ?_⟩
    rw [log, written, slot, rates]
    rfl

theorem foldl_onward (x : Books σ) (log : List (Call × Option Error)) (cs : List Commit) :
    (cs.foldl onward (x, log)).2 = log ++ (x.transcript cs).map (·, none) := by
  induction cs generalizing x log with
  | nil => exact (List.append_nil log).symm
  | cons c cs ih =>
    rw [List.foldl_cons, onward, ih, transcript, List.map_append, List.append_assoc]

end Catalog.Books

/-! ### Transcripts of the same commits -/

/-- A record with other identifiers and another time. -/
def Record.Renamed (r r' : Record) : Prop :=
  r' = { r with id := r'.id, template := r'.template, time := r'.time }

/-- The calls of a batch, with other identifiers and times. Those of stored templates correspond. -/
inductive Catalog.Call.Same (names : Identifier → Identifier → Prop) : Call → Call → Prop where
  | environment (name : String) : Same names (.environment name) (.environment name)
  | put {t t' : Template} (renamed : t.Renamed t') : Same names (.put t) (.put t')
  | recordUsage {id id' : Identifier} (named : names id id') : Same names (.recordUsage id) (.recordUsage id')
  | appendRecord {r r' : Record} (named : names r.template r'.template) (renamed : r.Renamed r') :
    Same names (.appendRecord r) (.appendRecord r')
  | get {id id' : Identifier} (named : names id id') : Same names (.get id) (.get id')
  | updateEffectiveness {id id' : Identifier} (named : names id id') (score : Float) :
    Same names (.updateEffectiveness id score) (.updateEffectiveness id' score)

theorem Catalog.Call.Same.mono {names names' : Identifier → Identifier → Prop} {x y : Call}
    (h : Same names x y) (le : ∀ id id', names id id' → names' id id') : Same names' x y := by
  cases h with
  | environment name => exact .environment name
  | put renamed => exact .put renamed
  | recordUsage named => exact .recordUsage (le _ _ named)
  | appendRecord named renamed => exact .appendRecord (le _ _ named) renamed
  | get named => exact .get (le _ _ named)
  | updateEffectiveness named score => exact .updateEffectiveness (le _ _ named) score

/-- The identifiers of templates that have the same key in two ledgers. -/
def Catalog.Ledger.Namesakes (l l' : Ledger) (id id' : Identifier) : Prop :=
  ∃ key t t', l.holder? key = some t ∧ l'.holder? key = some t' ∧ t.id = id ∧ t'.id = id'

theorem Commit.Same.calls {c c' : Commit} (h : c.Same c') {names : Identifier → Identifier → Prop}
    {id id' : Identifier} (named : names id id') (score : Float) :
    List.Forall₂ (Call.Same names) (c.calls id score) (c'.calls id' score) := by
  have renamed : (c.record id).Renamed (c'.record id') := by
    rw [Record.Renamed, Commit.record, Commit.record, Regenerated.record, Regenerated.record, h.environment,
      h.path, h.content, h.outcome]
  exact .cons (.put h.template) <| .cons (.recordUsage named) <| .cons (.appendRecord named renamed) <|
    .cons (.get named) <| .cons (.updateEffectiveness named score) .nil

namespace Catalog.Books

theorem rate_of_same {x x' : Books σ} {c c' : Commit} (standing : x.standing = x'.standing) (same : c.Same c') :
    x.rate c = x'.rate c' := by
  have effectiveness : c'.made.template.effectiveness = c.made.template.effectiveness := by rw [same.template]
  have usage : c'.made.template.usage = c.made.template.usage := by rw [same.template]
  have observed : c'.made.observed = c.made.observed := by
    rw [Regenerated.observed, Regenerated.observed, same.outcome]
  rw [rate, rate, standing, same.key, effectiveness, usage, observed]

/-- Commits that are the same make the same calls, whatever identifiers and times they have. -/
theorem transcript_of_same (x x' : Books σ) {cs cs' : List Commit} (same : List.Forall₂ Commit.Same cs cs')
    (standing : x.standing = x'.standing) :
    List.Forall₂ (Call.Same ((x.ledger.commitAll cs).Namesakes (x'.ledger.commitAll cs')))
      (x.transcript cs) (x'.transcript cs') := by
  induction same generalizing x x' with
  | nil => exact .nil
  | @cons c c' cs cs' first others ih =>
    have rates := rate_of_same standing first
    have standing' : (x.commit c).standing = (x'.commit c').standing := by
      rw [commit, commit, standing, rates, first.key]
    -- What comes later does not move the template of this commit.
    obtain ⟨t, held, named⟩ := x.ledger.exists_holder?_commitAll c cs
    obtain ⟨t', held', named'⟩ := x'.ledger.exists_holder?_commitAll c' cs'
    have here : (x.ledger.commitAll (c :: cs)).Namesakes (x'.ledger.commitAll (c' :: cs'))
        (x.ledger.slot c.made.template) (x'.ledger.slot c'.made.template) :=
      ⟨c.key, t, t', held, first.key ▸ held', named, named'⟩
    rw [transcript, transcript, calls, calls, rates]
    exact List.rel_append (first.calls here _) (ih _ _ standing')

end Catalog.Books

/-! ### Launches -/

/-- Where no call fails, a launch writes down that it asks for its environment, and then the calls of its
commits. -/
theorem Launch.flawless_run [Libraries] [Shows σ] (x : Launch) (books : Books σ)
    (log : List (Call × Option Error)) :
    Flawless (fun s : Supervised σ => books.ledger.Admits (x.commits books.ledger) ∧
        books.Describe s.inner ∧ s.log = log)
      (x.run : Action (Supervised σ) (List Batch.Result))
      fun rs s => rs = x.results (books.ledger.commitAll (x.commits books.ledger)) ∧
        Keeps.Represents (books.ledger.commitAll (x.commits books.ledger)) s.inner ∧
        s.log = log ++ (.environment x.batch.settings.environment ::
          books.transcript (x.commits books.ledger)).map (·, none) := by
  let asked := log ++ [(Call.environment x.batch.settings.environment, none)]
  have carries := Books.carries_onward (σ := σ)
  refine (x.batch.flawless_environment (x.supply.time 0) books.ledger fun s h => h.2.1.represents).bind
    fun found => ?_
  have processed := (Batch.flawless_processAll carries x.batch found x.supply (x.batch.plans x.supply x.artifacts) 0
    (books, asked) []).keep (found = books.ledger.environment x.batch.settings.environment)
  refine processed.mono ?_ ?_
  · rintro s ⟨rfl, s₀, ⟨admits, describes, rfl⟩, inner, written⟩
    rw [List.append_nil]
    exact ⟨rfl, admits, inner ▸ describes, written⟩
  · rintro rs s ⟨rfl, rfl, describes, written⟩
    have ledger := carries.ledger_foldl (x.commits books.ledger) (books, asked)
    refine ⟨?_, ledger ▸ describes.represents, ?_⟩
    · rw [results, Ledger.environment_commitAll]
      rfl
    · refine written.trans ?_
      rw [Books.foldl_onward, List.append_assoc]
      rfl

end Stencil
