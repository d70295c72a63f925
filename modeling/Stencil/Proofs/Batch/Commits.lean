import Stencil.Proofs.Batch.Results
import Stencil.Proofs.Catalog.Ledger

/-!
# The commits of a batch

Which renderings a batch commits follows from its plans and the environment, and a commit that no failed call
disturbs makes its calls one after the other. Before the first call for an artifact it is decided what is to be
committed for it, if anything: `process_eq` cuts the processing of an artifact in two there.
-/

namespace Stencil

variable [Libraries]

/-- A valid template with what it was rendered to in an environment. -/
structure Regenerated.For (made : Regenerated) (e : Environment) : Prop where
  valid : made.template.validate = .ok ()
  content : made.template.render e = .ok made.rendering
  outcome : made.outcome = made.rendering.validate made.template.kind

namespace Batch

/-! ### What is committed -/

def commit? (b : Batch) (e : Environment) (supply : Supply) (p : Plan) (k : Nat) : Option Commit :=
  match p.analysis with
  | .error _ => none
  | .ok analysis =>
    if b.isLate supply k then none
    else match b.work e supply k analysis p.artifact with
      | .ok (some made) => some ⟨made, p.artifact.path, supply.recordId k, supply.time k⟩
      | _ => none

def commits (b : Batch) (e : Environment) (supply : Supply) : List Plan → Nat → List Commit
  | [], _ => []
  | p :: ps, k => (b.commit? e supply p k).toList ++ b.commits e supply ps (k + 1)

theorem of_regenerate {b : Batch} {e : Environment} {analysis : Analysis} {a : Artifact}
    {newId : Identifier} {now : Instant} {made : Regenerated}
    (h : b.regenerate e analysis a newId now = .ok (some made)) :
    made.template = Extraction.made analysis a newId now ∧ made.For e := by
  rw [regenerate_eq] at h
  split at h
  · cases valid : (Extraction.made analysis a newId now).validate with
    | error x =>
      rw [valid] at h
      cases h
    | ok _ =>
      cases rendered : (Extraction.made analysis a newId now).render e with
      | error x =>
        rw [valid, rendered] at h
        cases h
      | ok rendering =>
        rw [valid, rendered] at h
        obtain rfl := Option.some.inj (Except.ok.inj h)
        exact ⟨rfl, valid, rendered, rfl⟩
  · cases h

/-- A commit is made of a plan with an analysis, out of what the artifact is regenerated to when it is taken up
in time and its worker is not interrupted. -/
theorem exists_of_commit? {b : Batch} {e : Environment} {supply : Supply} {p : Plan} {k : Nat} {c : Commit}
    (h : b.commit? e supply p k = some c) :
    ∃ analysis made, p.analysis = .ok analysis ∧ b.Timely supply k ∧
      b.regenerate e analysis p.artifact (supply.templateId k) (supply.time k) = .ok (some made) ∧
      c = ⟨made, p.artifact.path, supply.recordId k, supply.time k⟩ := by
  unfold commit? at h
  split at h
  · cases h
  · next analysis analysed =>
    split at h
    · cases h
    · next early =>
      split at h
      · next made worked =>
        obtain ⟨works, regenerated⟩ := of_bounded worked
        exact ⟨analysis, made, analysed, ⟨Bool.eq_false_iff.2 early, works⟩, regenerated,
          (Option.some.inj h).symm⟩
      · cases h

theorem of_commit? {b : Batch} {e : Environment} {supply : Supply} {p : Plan} {k : Nat} {c : Commit}
    (h : b.commit? e supply p k = some c) :
    c.made.template.id = supply.templateId k ∧ c.recordId = supply.recordId k ∧ c.made.For e := by
  obtain ⟨analysis, made, -, -, regenerated, rfl⟩ := exists_of_commit? h
  obtain ⟨template, rendered⟩ := of_regenerate regenerated
  exact ⟨congrArg Template.id template, rfl, rendered⟩

theorem usage_of_commit? {b : Batch} {e : Environment} {supply : Supply} {p : Plan} {k : Nat} {c : Commit}
    (h : b.commit? e supply p k = some c) : c.made.template.usage = 0 := by
  obtain ⟨analysis, made, -, -, regenerated, rfl⟩ := exists_of_commit? h
  exact congrArg Template.usage (of_regenerate regenerated).1

theorem for_of_mem_commits {b : Batch} {e : Environment} {supply : Supply} {ps : List Plan}
    {k : Nat} {c : Commit} (h : c ∈ b.commits e supply ps k) : c.made.For e := by
  induction ps generalizing k with
  | nil => cases h
  | cons p ps ih =>
    rcases List.mem_append.1 h with first | rest
    · exact (of_commit? (Option.mem_toList.1 first)).2.2
    · exact ih rest

theorem exists_mem_commits {b : Batch} {e : Environment} {supply : Supply} {ps : List Plan}
    {p : Plan} (among : p ∈ ps) (k : Nat) :
    ∃ j, ∀ c, b.commit? e supply p j = some c → c ∈ b.commits e supply ps k := by
  induction ps generalizing k with
  | nil => cases among
  | cons q ps ih =>
    rcases List.mem_cons.1 among with rfl | later
    · exact ⟨k, fun c made => List.mem_append_left _ (Option.mem_toList.2 made)⟩
    · obtain ⟨j, made⟩ := ih later (k + 1)
      exact ⟨j, fun c found => List.mem_append_right _ (made c found)⟩

theorem ids_commits (b : Batch) (e : Environment) (supply : Supply) (ps : List Plan) (k : Nat) :
    ((b.commits e supply ps k).map fun c => (c.made.template.id, c.recordId)).Sublist
      ((List.range' k ps.length).map fun j => (supply.templateId j, supply.recordId j)) := by
  induction ps generalizing k with
  | nil => exact .slnil
  | cons p ps ih =>
    rw [commits, List.map_append, List.length_cons, List.range'_succ, List.map_cons]
    cases first : b.commit? e supply p k with
    | none => exact .cons _ (ih (k + 1))
    | some c =>
      obtain ⟨templateId, recordId, -⟩ := of_commit? first
      rw [← templateId, ← recordId]
      exact .cons_cons _ (ih (k + 1))

/-! ### Calls -/

open Catalog

variable {σ : Type} [Catalog.Backend σ]

/-- An artifact is processed without a call and not rendered, or committed. -/
theorem process_cases (b : Batch) (e : Environment) (supply : Supply) (p : Plan) (k : Nat) :
    (∃ r, b.commit? e supply p k = none ∧ (b.process e supply p k : Action σ Result) = pure r ∧
      r.item.fate.isRendered = false) ∨
      ∃ c, b.commit? e supply p k = some c ∧ (b.process e supply p k : Action σ Result) =
        unlessFatal p (c.made.commit c.path c.recordId c.time >>= fun id =>
          pure (rendered p c.made.outcome id)) := by
  unfold process commit?
  cases p.analysis with
  | error x => exact .inl ⟨_, rfl, rfl, rfl⟩
  | ok analysis =>
    cases b.isLate supply k with
    | true => exact .inl ⟨_, rfl, rfl, rfl⟩
    | false =>
      simp only [Bool.false_eq_true, if_false]
      have harmless := b.harmless_work e supply k analysis p.artifact
      cases made : b.work e supply k analysis p.artifact with
      | error x => exact .inl ⟨_, rfl, unlessFatal_error (harmless x made) _, rfl⟩
      | ok result =>
        cases result with
        | none => exact .inl ⟨_, rfl, rfl, rfl⟩
        | some r => exact .inr ⟨_, rfl, rfl⟩

omit [Libraries] in
/-- A commit that no failed call disturbs makes its calls one after the other and writes them down. -/
theorem flawless_calls (c : Commit) (s : Supervised σ) :
    Flawless (· = s) (c.made.commit c.path c.recordId c.time : Action (Supervised σ) Identifier)
      fun id s' => ∃ score, Rated c s.inner id score s'.inner ∧
        s'.log = s.log ++ (c.calls id score).map (·, none) := by
  unfold Regenerated.commit
  refine Flawless.call.bind fun id => Flawless.call.bind fun _ => Flawless.call.bind fun _ =>
    Flawless.call.bind fun stored => Flawless.call.bind fun _ => .pure ?_
  rintro s₅ ⟨s₄, ⟨s₃, ⟨s₂, ⟨s₁, ⟨s₀, rfl, put, log₁⟩, counted, log₂⟩, appended, log₃⟩, got, log₄⟩,
    updated, log₅⟩
  refine ⟨_, .calls put counted appended got updated, ?_⟩
  rw [log₅, log₄, log₃, log₂, log₁]
  simp only [List.append_assoc]
  rfl

/-! ### What comes before a commit -/

/-- What is to be committed for the artifact at place `k`, if anything, or the error that it fails with before
any call. -/
def prepare (b : Batch) (e : Environment) (supply : Supply) (p : Plan) (k : Nat) :
    Except Error (Option Commit) :=
  match p.analysis with
  | .error x => .error x
  | .ok analysis =>
    if b.isLate supply k then .error .batchTimeout
    else (b.work e supply k analysis p.artifact).map
      (·.map (⟨·, p.artifact.path, supply.recordId k, supply.time k⟩))

theorem commit?_eq (b : Batch) (e : Environment) (supply : Supply) (p : Plan) (k : Nat) :
    b.commit? e supply p k = (b.prepare e supply p k).toOption.join := by
  unfold commit? prepare
  cases p.analysis with
  | error x => rfl
  | ok analysis =>
    cases b.isLate supply k with
    | true => rfl
    | false =>
      simp only [Bool.false_eq_true, if_false]
      cases b.work e supply k analysis p.artifact with
      | error x => rfl
      | ok made => cases made <;> rfl

/-- What becomes of an artifact that is prepared. -/
def settle (p : Plan) : Except Error (Option Commit) → Action σ Result
  | .error x => pure (failed p x)
  | .ok none => pure { item := item p .belowGate }
  | .ok (some c) => unlessFatal p do
    let id ← c.made.commit c.path c.recordId c.time
    return rendered p c.made.outcome id

/-- An artifact is prepared without a call, and then settled. -/
theorem process_eq (b : Batch) (e : Environment) (supply : Supply) (p : Plan) (k : Nat) :
    (b.process e supply p k : Action σ Result) = settle p (b.prepare e supply p k) := by
  unfold process prepare
  cases p.analysis with
  | error x => rfl
  | ok analysis =>
    cases b.isLate supply k with
    | true => rfl
    | false =>
      simp only [Bool.false_eq_true, if_false]
      have harmless := b.harmless_work e supply k analysis p.artifact
      cases made : b.work e supply k analysis p.artifact with
      | error x => exact unlessFatal_error (harmless x made) _
      | ok found =>
        cases found with
        | none => rfl
        | some r => rfl

end Batch

end Stencil
