import Stencil.Proofs.Batch.Permuted

/-!
# Batches for one category, or up to a priority

A batch leaves artifacts out by priority before it plans and by category afterwards. Either way its calm runs
answer what is left of the answer of the batch that leaves nothing out (`run_filtered`). For priorities this
needs different contents, since an artifact that is left out does not lead others any more.
-/

namespace Stencil

open Std Catalog

namespace Batch

/-- The batch with other filters. -/
def filtered (b : Batch) (lastPriority : Option UInt8) (category : Option Category) : Batch :=
  { b with lastPriority, category }

/-! ### Plans -/

theorem filter_sorted (keep : Plan → Bool) (ps : List Plan) :
    (Plan.sorted ps).filter keep = Plan.sorted (ps.filter keep) := filter_mergeSort keep ps

/-- The category filter comes after planning. -/
theorem plans_category [Libraries] (b : Batch) (supply : Supply) (as : List Artifact) (n : Option UInt8)
    (c : Category) :
    (b.filtered n (some c)).plans supply as =
      ((b.filtered n none).plans supply as).filter (·.category == c) := by
  have all : (b.filtered n none).plans supply as =
      Plan.sorted (Plan.all (b.analyze supply) ((b.filtered n none).admitted as)) :=
    congrArg Plan.sorted (List.filter_eq_self.2 fun _ _ => rfl)
  rw [all, filter_sorted]
  rfl

/-- The priority filter comes before planning, which makes no difference where every artifact has the analysis
of its own. -/
theorem plans_priority [Libraries] (b : Batch) (supply : Supply) {as : List Artifact}
    (contents : (as.map (·.content)).Nodup)
    (faithful : ¬Collides as) (n : UInt8) (c : Option Category) :
    (b.filtered (some n) c).plans supply as =
      ((b.filtered none c).plans supply as).filter (·.artifact.priority.value ≤ n) := by
  have everyone : (b.filtered none c).admitted as = as := List.filter_eq_self.2 fun _ _ => rfl
  have front : (b.filtered (some n) c).admitted as = as.filter (·.priority.value ≤ n) := rfl
  have planned : (as.filter (·.priority.value ≤ n)).map (Plan.own (b.analyze supply)) =
      (as.map (Plan.own (b.analyze supply))).filter (·.artifact.priority.value ≤ n) := by
    rw [List.filter_map]
    congr 2
    funext a
    rw [Function.comp_apply, Plan.artifact_own]
  rw [plans_eq_sorted_own _ supply contents faithful, plans_eq_sorted_own _ supply contents faithful,
    filter_sorted, front, everyone]
  show Plan.sorted ((List.map (Plan.own (b.analyze supply)) _).filter _) =
    Plan.sorted (((List.map (Plan.own (b.analyze supply)) as).filter _).filter _)
  rw [planned, List.filter_filter, List.filter_filter]
  congr 2
  funext p
  exact Bool.and_comm _ _

/-! ### Results -/

/-- Results are the others with the items that are kept, in the same order and but for the identifiers of
templates. -/
structure Restricts (keep : Item → Bool) (rs rs' : List Result) : Prop where
  results : rs'.map Result.anonymous = (rs.filter fun r => keep r.item).map Result.anonymous
  failures : rs'.filterMap (·.failure) = (rs.filter fun r => keep r.item).filterMap (·.failure)

/-- A catalog answers the same environment at any time. -/
theorem environment_anytime (medium : Medium) (name : String) (now later : Instant) (m : medium.State) :
    (perform (.environment name) now m).1 = (perform (.environment name) later m).1 := by
  cases medium <;> rfl

/-- Calm runs of batches with the same settings, where the plans of one are those of the other that are kept. -/
theorem restricts_of_plans [Libraries] {b : Batch} {n n' : Option UInt8} {c c' : Option Category} {as : List Artifact}
    {keep : Item → Bool} {keeps : Plan → Bool} (blind : ∀ r : Result, keep r.anonymous.item = keep r.item)
    (kept : ∀ e p, keep (b.expected e p).item = keeps p)
    {supply supply' : Supply}
    (plans : (b.filtered n' c').plans supply' as = ((b.filtered n c).plans supply as).filter keeps)
    {medium : Medium} {s s' : Supervised medium.State} (same : s.inner = s'.inner)
    (calm : Calm (b.filtered n c) as supply s) (calm' : Calm (b.filtered n' c') as supply' s') :
    ∃ rs rs', ((b.filtered n c).run as supply s).1 = .ok rs ∧
      ((b.filtered n' c').run as supply' s').1 = .ok rs' ∧ Restricts keep rs rs' := by
  obtain ⟨rs, found, ran, answered, results⟩ := calm.results_stored
  obtain ⟨rs', found', ran', answered', results'⟩ := calm'.results_stored
  have environment : found = found' := by
    rw [same, environment_anytime medium _ _ (supply'.time 0)] at answered
    exact Except.ok.inj (answered.symm.trans answered')
  subst environment
  let e := found.getD (.identity b.settings.environment)
  have whole : rs.map Result.anonymous = ((b.filtered n c).plans supply as).map (b.expected e) := results
  have anonymous : (rs.filter fun r => keep r.item).map Result.anonymous =
      (rs.map Result.anonymous).filter fun r => keep r.item := by
    rw [List.filter_map]
    exact congrArg _ (List.filter_congr fun r _ => (blind r).symm)
  have part : rs'.map Result.anonymous = (rs.filter fun r => keep r.item).map Result.anonymous := calc
    rs'.map Result.anonymous = (((b.filtered n c).plans supply as).filter keeps).map (b.expected e) :=
      plans ▸ results'
    _ = (((b.filtered n c).plans supply as).map (b.expected e)).filter fun r => keep r.item := by
      rw [List.filter_map]
      exact congrArg _ (List.filter_congr fun p _ => (kept e p).symm)
    _ = (rs.filter fun r => keep r.item).map Result.anonymous := by rw [anonymous, whole]
  exact ⟨rs, rs', ran, ran', part, failures_eq_of_anonymous part⟩

/-- Over any list of artifacts and from any state of a catalog, a calm run for one category answers what a calm
run for all of them answers with that category. Where all contents are different, a calm run up to a priority
answers what one without a last priority answers up to it; otherwise two of the contents have one digest. -/
theorem run_filtered [Libraries] (b : Batch) (as : List Artifact) (medium : Medium) :
    (∀ (n : Option UInt8) (c : Category) {supply supply' : Supply} {s s' : Supervised medium.State},
      s.inner = s'.inner → Calm (b.filtered n none) as supply s →
      Calm (b.filtered n (some c)) as supply' s' →
      ∃ rs rs', ((b.filtered n none).run as supply s).1 = .ok rs ∧
        ((b.filtered n (some c)).run as supply' s').1 = .ok rs' ∧ Restricts (·.category == c) rs rs') ∧
    ((as.map (·.content)).Nodup → Collides as ∨
      ∀ (n : UInt8) (c : Option Category) {supply supply' : Supply} {s s' : Supervised medium.State},
        s.inner = s'.inner → Calm (b.filtered none c) as supply s →
        Calm (b.filtered (some n) c) as supply' s' →
        ∃ rs rs', ((b.filtered none c).run as supply s).1 = .ok rs ∧
          ((b.filtered (some n) c).run as supply' s').1 = .ok rs' ∧
          Restricts (·.priority.value ≤ n) rs rs') := by
  refine ⟨fun n c supply supply' _ _ same calm calm' => ?_, fun contents => ?_⟩
  · have plans : (b.filtered n none).plans supply' as = (b.filtered n none).plans supply as :=
      Analysed.plans_congr calm'.analysed calm.analysed
    refine restricts_of_plans (fun _ => rfl) (fun e p => ?_) (plans ▸ b.plans_category supply' as n c) same calm
      calm'
    rw [(b.item_expected e p).1]
  by_cases collide : Collides as
  · exact .inl collide
  · refine .inr fun n c supply supply' _ _ same calm calm' => ?_
    have analysed : (b.filtered (some n) c).Analysed supply as := fun a among =>
      calm.analysed a (List.mem_filter.2 ⟨(List.mem_filter.1 among).1, rfl⟩)
    have plans : (b.filtered (some n) c).plans supply' as = (b.filtered (some n) c).plans supply as :=
      calm'.analysed.plans_congr analysed
    refine restricts_of_plans (fun _ => rfl) (fun e p => ?_)
      (plans.trans (b.plans_priority supply contents collide n c)) same calm calm'
    have priority : (b.expected e p).item.priority = p.artifact.priority :=
      congrArg Place.priority (b.place_expected e p)
    rw [priority]

/-! ### Files of two categories -/

open Readers

/-- The two rival files, and one of another category that comes first. -/
def assorted : List Artifact :=
  { environmentFile "c/db.env" "Q=e/f\n" with priority := .highest } :: rivals

theorem calm_assorted (n : Option UInt8) (c : Option Category) :
    Calm (lenient.filtered n c) assorted rivalry.supply (⟨{}, .calm, []⟩ : Supervised Memory) := by
  have all : ((List.range 3).map Identifier.fresh).Nodup := by decide
  have ids :
      ((List.range ((lenient.filtered n c).plans rivalry.supply assorted).length).map Identifier.fresh).Nodup :=
    all.sublist ((List.range_sublist.2 (length_plans_le _ rivalry.supply assorted)).map _)
  exact calm_memory ids ids (fun _ _ => rfl) fun _ => ⟨rfl, rfl⟩

/-- Of the three files the batch for settings answers what it answers for them without a category, and the
batch up to the first priority what it answers for that one without a last priority. -/
theorem run_filtered_assorted :
    ∃ rs settings first, ((lenient.filtered none none).run assorted rivalry.supply
        (⟨{}, .calm, []⟩ : Supervised Memory)).1 = .ok rs ∧
      ((lenient.filtered none (some .configuration)).run assorted rivalry.supply
        (⟨{}, .calm, []⟩ : Supervised Memory)).1 = .ok settings ∧
      ((lenient.filtered (some 1) none).run assorted rivalry.supply
        (⟨{}, .calm, []⟩ : Supervised Memory)).1 = .ok first ∧
      Restricts (·.category == .configuration) rs settings ∧ Restricts (·.priority.value ≤ 1) rs first := by
  obtain ⟨category, priority⟩ := run_filtered lenient assorted .memory
  have contents : (assorted.map (·.content)).Nodup := by decide +kernel
  have faithful : ¬Collides assorted := by decide +kernel
  obtain ⟨rs, settings, ran, ran', restricts⟩ :=
    category none .configuration rfl (calm_assorted none none) (calm_assorted none _)
  obtain ⟨rs₀, first, ran₀, ran₁, restricts'⟩ :=
    (priority contents).resolve_left faithful 1 none rfl (calm_assorted none none) (calm_assorted _ none)
  obtain rfl := Except.ok.inj (ran.symm.trans ran₀)
  exact ⟨rs, settings, first, ran, ran', ran₁, restricts, restricts'⟩

end Batch

end Stencil
