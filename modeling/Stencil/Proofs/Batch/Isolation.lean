import Stencil.Catalog.Memory
import Stencil.Proofs.Batch.Results

/-!
# What an artifact owes to the others of its batch

Artifacts of a batch only influence each other through shared analyses. `run_isolated` compares the result
of an artifact in a batch with its result alone: they are the same exactly when its plan leads to the same
result with the analysis of its leader as with its own, and that is so when the leader agrees with it.
-/

namespace Stencil.Batch

open Catalog

def wants (b : Batch) (p : Plan) : Bool := b.category.all (p.category == ·)

theorem eq_of_mem_zip {α β γ : Type} {f : α → γ} {g : β → γ} {x : α} {y : β} :
    ∀ {l : List α} {m : List β}, m.map g = l.map f → (x, y) ∈ l.zip m → g y = f x
  | [], _, _, among => by simp at among
  | _ :: _, [], _, among => by simp at among
  | a :: l, c :: m, same, among => by
    simp only [List.map_cons, List.cons.injEq] at same
    rw [List.zip_cons_cons] at among
    rcases List.mem_cons.1 among with first | later
    · obtain ⟨rfl, rfl⟩ := Prod.mk.inj first
      exact same.1
    · exact eq_of_mem_zip same.2 later

theorem exists_mem_zip {α β : Type} {x : α} :
    ∀ {l : List α} {m : List β}, m.length = l.length → x ∈ l → ∃ y, (x, y) ∈ l.zip m
  | [], _, _, among => by simp at among
  | _ :: _, [], same, _ => by simp at same
  | a :: l, c :: m, same, among => by
    rw [List.zip_cons_cons]
    rcases List.mem_cons.1 among with rfl | later
    · exact ⟨c, List.mem_cons_self⟩
    · obtain ⟨y, found⟩ := exists_mem_zip (by simpa using same) later
      exact ⟨y, List.mem_cons_of_mem _ found⟩

section

variable [Libraries]

/-- A result that a run has for an artifact. -/
def Reported (b : Batch) (as : List Artifact) (supply : Supply) (rs : List Result) (a : Artifact) (r : Result) :
    Prop :=
  ∃ p, (p, r) ∈ (b.plans supply as).zip rs ∧ p.artifact = a

/-- What an artifact owes to itself alone. -/
def own (b : Batch) (a : Artifact) : Plan := Plan.own (Inspection.analyze b.settings.weights) a

/-- What an artifact gets among others. -/
def shared (b : Batch) (as : List Artifact) (a : Artifact) : Plan :=
  Plan.shared (Inspection.analyze b.settings.weights) (b.admitted as) a

/-! ### Plans and results -/

/-- Where no analysis is interrupted, an artifact gets what its leader is analysed to. -/
theorem Analysed.all_eq {b : Batch} {supply : Supply} {as : List Artifact} (h : b.Analysed supply as) :
    Plan.all (b.analyze supply) (b.admitted as) = (b.admitted as).map (b.shared as) := by
  rw [Plan.all_eq]
  refine List.map_congr_left fun a among => ?_
  have leads := h _ (Plan.leader_mem among)
  show Plan.of a (b.bounded "analysis" _ _) = _
  rw [leads]
  rfl

theorem Analysed.plans_eq {b : Batch} {supply : Supply} {as : List Artifact} (h : b.Analysed supply as) :
    b.plans supply as = Plan.sorted (((b.admitted as).map (b.shared as)).filter b.wants) := by
  unfold plans
  rw [h.all_eq]
  rfl

omit [Libraries] in
theorem Analysed.of_perm {b : Batch} {supply : Supply} {as as' : List Artifact} (h : b.Analysed supply as)
    (perm : as.Perm as') : b.Analysed supply as' := fun a among => h a ((perm.filter _).mem_iff.2 among)

/-- What does not interrupt an analysis leads to the same plans. -/
theorem Analysed.plans_congr {b : Batch} {supply supply' : Supply} {as : List Artifact}
    (h : b.Analysed supply as) (h' : b.Analysed supply' as) : b.plans supply as = b.plans supply' as := by
  rw [h.plans_eq, h'.plans_eq]

theorem Analysed.mem_plans {b : Batch} {supply : Supply} {as : List Artifact} (h : b.Analysed supply as)
    {p : Plan} : p ∈ b.plans supply as ↔ ∃ a ∈ b.admitted as, b.shared as a = p ∧ b.wants p = true := by
  rw [h.plans_eq, Plan.mem_sorted, List.mem_filter, List.mem_map]
  constructor
  · rintro ⟨⟨a, among, rfl⟩, wanted⟩
    exact ⟨a, among, rfl, wanted⟩
  · rintro ⟨a, among, rfl, wanted⟩
    exact ⟨⟨a, among, rfl⟩, wanted⟩

@[simp] theorem artifact_shared (b : Batch) (as : List Artifact) (a : Artifact) :
    (b.shared as a).artifact = a := Plan.artifact_of ..

@[simp] theorem artifact_own (b : Batch) (a : Artifact) : (b.own a).artifact = a := Plan.artifact_own ..

theorem length_plans_le (b : Batch) (supply : Supply) (as : List Artifact) :
    (b.plans supply as).length ≤ as.length := by
  show (List.mergeSort _ _).length ≤ as.length
  rw [List.length_mergeSort]
  refine (List.length_filter_le _ _).trans ?_
  rw [Plan.all, List.length_map]
  exact List.length_filter_le _ _

theorem Analysed.eq_shared {b : Batch} {supply : Supply} {as : List Artifact} (h : b.Analysed supply as)
    {p : Plan} (planned : p ∈ b.plans supply as) : p = b.shared as p.artifact := by
  obtain ⟨a, -, rfl, -⟩ := h.mem_plans.1 planned
  rw [artifact_shared]

variable {σ : Type} [Catalog.Backend σ]

/-- A calm run reports every artifact that it is about, with what follows from the artifact's plan. -/
theorem Calm.reports {b : Batch} {as : List Artifact} {supply : Supply} {s : Supervised σ}
    (h : Calm b as supply s) {e : Environment}
    (environment : (b.environment (supply.time 0) s).1 = .ok e) {a : Artifact}
    (among : a ∈ b.admitted as) (wanted : b.wants (b.shared as a) = true) :
    ∃ rs, (b.run as supply s).1 = .ok rs ∧ (∃ r, Reported b as supply rs a r) ∧
      ∀ r, Reported b as supply rs a r → r.anonymous = b.expected e (b.shared as a) := by
  obtain ⟨rs, ran, same⟩ := h.results environment
  have planned : b.shared as a ∈ b.plans supply as := h.analysed.mem_plans.2 ⟨a, among, rfl, wanted⟩
  have lengths : rs.length = (b.plans supply as).length := by
    simpa using congrArg List.length same
  obtain ⟨r, found⟩ := exists_mem_zip lengths planned
  refine ⟨rs, ran, ⟨r, b.shared as a, found, artifact_shared b as a⟩, ?_⟩
  rintro r' ⟨p, zipped, rfl⟩
  have result := eq_of_mem_zip same zipped
  rwa [h.analysed.eq_shared (List.of_mem_zip zipped).1] at result

theorem shared_alone {b : Batch} {as : List Artifact} {a : Artifact} (among : a ∈ b.admitted as) :
    b.admitted [a] = [a] ∧ b.shared [a] a = b.own a := by
  have admits : b.admitted [a] = [a] := by
    have passes := (List.mem_filter.1 among).2
    exact List.filter_cons_of_pos passes
  exact ⟨admits, by rw [shared, admits, Plan.shared_singleton, own]⟩

/-! ### The assessment of one artifact -/

/-- What a result says agrees with the assessment of its artifact. -/
def Matches (b : Batch) (a : Artifact) (r : Result) : Prop :=
  match b.assess a with
  | .error x => r.anonymous = failed (b.own a) x
  | .ok (analysis, verdict) =>
    r.item.category = analysis.category ∧ r.item.score = some analysis.score ∧
      (r.item.fate = .belowGate ↔ verdict.accepted = false)

theorem own_of_ok {w : Weights} {a : Artifact} {x : Analysis} (h : Inspection.analyze w a = .ok x) :
    Plan.own (Inspection.analyze w) a = ⟨a, x.category, .ok x⟩ := by
  rw [Plan.own, h]
  unfold Inspection.analyze at h
  split at h
  · obtain rfl := Except.ok.inj h
    rfl
  · cases h

theorem item_expected (b : Batch) (e : Environment) (p : Plan) :
    (b.expected e p).item.category = p.category ∧
      (b.expected e p).item.score = p.analysis.toOption.map (·.score) := by
  unfold expected
  split
  · exact ⟨rfl, rfl⟩
  · split
    · exact ⟨rfl, rfl⟩
    · exact ⟨rfl, rfl⟩
    · unfold rendered
      split <;> exact ⟨rfl, rfl⟩

theorem belowGate_expected (b : Batch) (e : Environment) {p : Plan} {x : Analysis}
    (known : p.analysis = .ok x) :
    (b.expected e p).item.fate = .belowGate ↔
      (b.settings.extraction.gate x p.artifact).accepted = false := by
  have made := b.regenerate_eq e x p.artifact default default
  unfold expected
  simp only [known]
  cases accepted : (b.settings.extraction.gate x p.artifact).accepted with
  | false =>
    rw [accepted] at made
    rw [made]
    exact ⟨fun _ => rfl, fun _ => rfl⟩
  | true =>
    rw [accepted, if_pos rfl] at made
    refine ⟨fun below => ?_, fun refused => by cases refused⟩
    split at below
    · cases below
    · next none =>
      rw [none] at made
      cases valid : (Extraction.made x p.artifact default default).validate with
      | error y =>
        rw [valid] at made
        cases made
      | ok _ =>
        rw [valid] at made
        cases rendering : (Extraction.made x p.artifact default default).render e with
        | error y =>
          rw [rendering] at made
          cases made
        | ok _ =>
          rw [rendering] at made
          cases made
    · unfold rendered at below
      split at below <;> cases below

theorem matches_of_expected {b : Batch} {e : Environment} {a : Artifact} {r : Result}
    (h : r.anonymous = b.expected e (b.own a)) : b.Matches a r := by
  have category : r.item.category = r.anonymous.item.category := rfl
  have score : r.item.score = r.anonymous.item.score := rfl
  have fate : r.item.fate = r.anonymous.item.fate := rfl
  unfold Matches assess
  cases known : Inspection.analyze b.settings.weights a with
  | error x =>
    show r.anonymous = failed (b.own a) x
    rw [h, own, Plan.own, known]
    rfl
  | ok x =>
    have plan : b.own a = ⟨a, x.category, .ok x⟩ := own_of_ok known
    show r.item.category = x.category ∧ r.item.score = some x.score ∧
      (r.item.fate = .belowGate ↔ (b.settings.extraction.gate x a).accepted = false)
    rw [category, score, fate, h, plan]
    obtain ⟨sameCategory, sameScore⟩ := b.item_expected e ⟨a, x.category, .ok x⟩
    exact ⟨sameCategory, sameScore, b.belowGate_expected e rfl⟩

/-! ### The comparison -/

variable {τ : Type} [Catalog.Backend τ]

/-- The result of an artifact in a calm run of a batch is the same as in a calm run for it alone exactly
when its plan leads to the same with the analysis of its leader as with its own. It is the same when the
leader agrees with the artifact, and alone it agrees with the assessment. -/
theorem run_isolated (b : Batch) {as : List Artifact} {a : Artifact} (among : a ∈ b.admitted as)
    {supply supply' : Supply} {s : Supervised σ} {s' : Supervised τ} (whole : Calm b as supply s)
    (alone : Calm b [a] supply' s') {e : Environment}
    (environment : (b.environment (supply.time 0) s).1 = .ok e)
    (environment' : (b.environment (supply'.time 0) s').1 = .ok e)
    (wanted : b.wants (b.shared as a) = true) (wanted' : b.wants (b.own a) = true) :
    ∃ rs rs', (b.run as supply s).1 = .ok rs ∧ (b.run [a] supply' s').1 = .ok rs' ∧
      (∃ r, Reported b as supply rs a r) ∧ (∃ r', Reported b [a] supply' rs' a r') ∧
      ∀ r r', Reported b as supply rs a r → Reported b [a] supply' rs' a r' →
        (r.anonymous = r'.anonymous ↔ b.expected e (b.shared as a) = b.expected e (b.own a)) ∧
        (Plan.Agrees (Plan.leader (b.admitted as) a) a b.settings.weights →
          r.anonymous = r'.anonymous) ∧
        b.Matches a r' := by
  obtain ⟨admits, plan⟩ := shared_alone among
  have among' : a ∈ b.admitted [a] := by
    rw [admits]
    exact List.mem_cons_self
  obtain ⟨rs, ran, reported, results⟩ := whole.reports environment among wanted
  obtain ⟨rs', ran', reported', results'⟩ :=
    alone.reports environment' among' (by rw [plan]; exact wanted')
  refine ⟨rs, rs', ran, ran', reported, reported', fun r r' report report' => ?_⟩
  have first := results r report
  have second := results' r' report'
  rw [plan] at second
  refine ⟨by rw [first, second], fun agrees => ?_, matches_of_expected second⟩
  have same : b.shared as a = b.own a := Plan.of_analyze_congr agrees
  rw [first, second, same]

end

/-! ### A text that two grammars read -/

/-- Settings as they are without any configuration. -/
def usual : Batch := { settings := {}, lastPriority := none, category := none, valid := rfl }

/-- A supply with the clock standing still. -/
def still : Supply where
  templateId _ := default
  recordId _ := default
  time _ := default
  elapsed _ := ⟨0⟩

def vacant : Supervised Memory := { inner := {} }

def assigning (path : String) (format : Format) : Artifact :=
  { path := ⟨path⟩, content := "A=1\n", kind := .config format }

/-- The same text at two paths: no document of the first format, but one of the second. -/
def twins : List Artifact := [assigning "x.json" .json, assigning "y.env" .env]

theorem leader_twins {a : Artifact} (among : a ∈ twins) :
    Plan.leader (usual.admitted twins) a = assigning "x.json" .json := by
  have digest : (assigning "x.json" .json).digest.text == a.digest.text := by
    rcases List.mem_cons.1 among with rfl | among
    · exact beq_self_eq_true _
    · obtain rfl := List.mem_singleton.1 among
      exact beq_self_eq_true (assigning "x.json" .json).digest.text
  have first : (twins.find? fun l => l.digest.text == a.digest.text) =
      some (assigning "x.json" .json) := List.find?_cons_of_pos digest
  show ((twins.find? fun l => l.digest.text == a.digest.text).getD a) = _
  rw [first, Option.getD_some]

open Readers

theorem analyze_json : ∃ x, Inspection.analyze {} (assigning "x.json" .json) = .error x := by
  have missing : (Inspection.analyze {} (assigning "x.json" .json)).toOption.isNone = true := by
    decide +kernel
  cases known : Inspection.analyze {} (assigning "x.json" .json) with
  | error x => exact ⟨x, rfl⟩
  | ok x =>
    rw [known] at missing
    cases missing

theorem analyze_env : ∃ x, Inspection.analyze {} (assigning "y.env" .env) = .ok x ∧
    (usual.settings.extraction.gate x (assigning "y.env" .env)).accepted = false := by
  have checks : ((Inspection.analyze {} (assigning "y.env" .env)).toOption.any fun x =>
      !decide (4 ≤ Requirement.all.countP fun r => r.passes x (assigning "y.env" .env))) = true := by
    decide +kernel
  cases known : Inspection.analyze {} (assigning "y.env" .env) with
  | error x =>
    rw [known] at checks
    cases checks
  | ok x =>
    rw [known] at checks
    refine ⟨x, rfl, ?_⟩
    have few : ¬ 4 ≤ Requirement.all.countP fun r => r.passes x (assigning "y.env" .env) := by
      have refused : (!decide (4 ≤ Requirement.all.countP fun r =>
        r.passes x (assigning "y.env" .env))) = true := checks
      simpa using refused
    have accepted : (usual.settings.extraction.gate x (assigning "y.env" .env)).accepted =
        (decide ((70 : Float) ≤ x.score) && decide (4 ≤ ((Requirement.all.map fun r =>
          (r, r.passes x (assigning "y.env" .env))).countP (·.2)))) := rfl
    have count : ((Requirement.all.map fun r => (r, r.passes x (assigning "y.env" .env))).countP
        (·.2)) = Requirement.all.countP fun r => r.passes x (assigning "y.env" .env) := by
      rw [List.countP_map]
      rfl
    rw [accepted, count, decide_eq_false few, Bool.and_false]

theorem environment_vacant (supply : Supply) :
    usual.environment (supply.time 0) vacant = (.ok (.identity "production"),
      { vacant with log := [(.environment "production", none)] }) := rfl

theorem clean_environment : ({ vacant with log := [(.environment "production", none)] } :
    Supervised Memory).Clean := by
  intro entry among
  obtain rfl := List.mem_singleton.1 among
  rfl

theorem shared_twins {a : Artifact} (among : a ∈ twins) :
    ∃ x, usual.shared twins a = Plan.ofError a x := by
  obtain ⟨x, refused⟩ := analyze_json
  have weights : Inspection.analyze usual.settings.weights (assigning "x.json" .json) = .error x :=
    refused
  exact ⟨x, by rw [shared, Plan.shared, leader_twins among, weights]; rfl⟩

theorem analysed_still (b : Batch) (as : List Artifact) : b.Analysed still as := fun _ _ => rfl

theorem calm_twins : Calm usual twins still vacant := by
  refine calm_of_unrendered (environment_vacant still) clean_environment (analysed_still _ _)
    (fun _ => ⟨rfl, rfl⟩) ?_
  intro p planned analysis known
  obtain ⟨a, among, rfl, -⟩ := (analysed_still _ _).mem_plans.1 planned
  obtain ⟨x, refused⟩ := shared_twins (List.mem_of_mem_filter among)
  rw [refused] at known
  cases known

theorem own_env : ∃ x, usual.own (assigning "y.env" .env) =
    ⟨assigning "y.env" .env, x.category, .ok x⟩ ∧
      (usual.settings.extraction.gate x (assigning "y.env" .env)).accepted = false := by
  obtain ⟨x, known, refused⟩ := analyze_env
  exact ⟨x, own_of_ok known, refused⟩

theorem calm_env : Calm usual [assigning "y.env" .env] still vacant := by
  refine calm_of_unrendered (environment_vacant still) clean_environment (analysed_still _ _)
    (fun _ => ⟨rfl, rfl⟩) ?_
  intro p planned analysis known
  obtain ⟨a, among, rfl, -⟩ := (analysed_still _ _).mem_plans.1 planned
  obtain rfl := List.mem_singleton.1 (List.mem_of_mem_filter among)
  obtain ⟨x, plan, refused⟩ := own_env
  rw [(shared_alone among).2, plan] at known
  obtain rfl := Except.ok.inj known
  rw [artifact_shared]
  exact refused

theorem env_among_twins : assigning "y.env" .env ∈ usual.admitted twins := by
  refine List.mem_filter.2 ⟨?_, rfl⟩
  exact List.mem_cons_of_mem _ List.mem_cons_self

theorem fate_env : (usual.expected (.identity "production") (usual.own (assigning "y.env" .env))).item.fate =
    .belowGate := by
  obtain ⟨x, plan, refused⟩ := own_env
  rw [plan]
  exact (usual.belowGate_expected _ rfl).2 refused

theorem fate_twin : ∃ kind, (usual.expected (.identity "production")
    (usual.shared twins (assigning "y.env" .env))).item.fate = .failed kind := by
  obtain ⟨x, refused⟩ := shared_twins (List.mem_filter.1 env_among_twins).1
  rw [refused]
  exact ⟨_, rfl⟩

/-- Together with its twin the second text fails with the error of the first, and alone it does not
fail. -/
theorem twins_not_isolated :
    Calm usual twins still vacant ∧ Calm usual [assigning "y.env" .env] still vacant ∧
      ∃ rs rs' r r', (usual.run twins still vacant).1 = .ok rs ∧
        (usual.run [assigning "y.env" .env] still vacant).1 = .ok rs' ∧
        Reported usual twins still rs (assigning "y.env" .env) r ∧
        Reported usual [assigning "y.env" .env] still rs' (assigning "y.env" .env) r' ∧
        (∃ kind, r.item.fate = .failed kind) ∧ r'.item.fate = .belowGate := by
  obtain ⟨admits, plan⟩ := shared_alone env_among_twins
  have alone : assigning "y.env" .env ∈ usual.admitted [assigning "y.env" .env] := by
    rw [admits]
    exact List.mem_cons_self
  obtain ⟨rs, ran, ⟨r, report⟩, results⟩ :=
    calm_twins.reports (congrArg Prod.fst (environment_vacant still)) env_among_twins rfl
  obtain ⟨rs', ran', ⟨r', report'⟩, results'⟩ :=
    calm_env.reports (congrArg Prod.fst (environment_vacant still)) alone rfl
  refine ⟨calm_twins, calm_env, rs, rs', r, r', ran, ran', report, report', ?_, ?_⟩
  · obtain ⟨kind, failed⟩ := fate_twin
    refine ⟨kind, ?_⟩
    show r.anonymous.item.fate = _
    rw [results r report, failed]
  · show r'.anonymous.item.fate = _
    rw [results' r' report', plan, fate_env]

theorem run_isolated_twins :
    ∃ rs rs', (usual.run twins still vacant).1 = .ok rs ∧
      (usual.run [assigning "y.env" .env] still vacant).1 = .ok rs' ∧
      (∃ r, Reported usual twins still rs (assigning "y.env" .env) r) ∧
      (∃ r', Reported usual [assigning "y.env" .env] still rs' (assigning "y.env" .env) r') ∧
      ∀ r r', Reported usual twins still rs (assigning "y.env" .env) r →
        Reported usual [assigning "y.env" .env] still rs' (assigning "y.env" .env) r' →
        (r.anonymous = r'.anonymous ↔
          usual.expected (.identity "production") (usual.shared twins (assigning "y.env" .env)) =
            usual.expected (.identity "production") (usual.own (assigning "y.env" .env))) ∧
        (Plan.Agrees (Plan.leader (usual.admitted twins) (assigning "y.env" .env))
          (assigning "y.env" .env) usual.settings.weights → r.anonymous = r'.anonymous) ∧
        usual.Matches (assigning "y.env" .env) r' :=
  run_isolated usual env_among_twins calm_twins calm_env
    (congrArg Prod.fst (environment_vacant still)) (congrArg Prod.fst (environment_vacant still)) rfl rfl

end Stencil.Batch
