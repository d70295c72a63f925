import Stencil.Batch
import Stencil.Proofs.Catalog.Faultless
import Stencil.Proofs.Extraction.Substitution
import Stencil.Proofs.SortedMap

/-!
# What a batch makes of its plans

Artifacts of one digest share the analysis of the first of them, their leader. A plan is the artifact's own when
the leader agrees with it: in content and kind, and in the path when there is no analysis, since the error of a
text says the path.

Where no call of the catalog fails and nothing is late, what becomes of an artifact follows from its plan and the
environment alone (`expected`): new identifiers and the clock only show in the identifier of the template, and an
error of one artifact never ends the batch.
-/

namespace Stencil.Plan

/-- The first artifact with the digest of an artifact. -/
def leader (as : List Artifact) (a : Artifact) : Artifact :=
  (as.find? fun l => l.digest.text == a.digest.text).getD a

def own (analyze : Artifact → Except Error Analysis) (a : Artifact) : Plan := of a (analyze a)

def shared (analyze : Artifact → Except Error Analysis) (as : List Artifact) (a : Artifact) : Plan :=
  of a (analyze (leader as a))

@[simp] theorem artifact_of (a : Artifact) (analysis : Except Error Analysis) : (of a analysis).artifact = a := by
  cases analysis <;> rfl

@[simp] theorem artifact_own (analyze : Artifact → Except Error Analysis) (a : Artifact) :
    (own analyze a).artifact = a := artifact_of ..

/-! ### Shared analyses -/

theorem get?_foldl_analyses (analyze : Artifact → Except Error Analysis) (as : List Artifact) (digest : String)
    (m : SortedMap String (Except Error Analysis)) :
    (as.foldl (fun m a => if m.contains a.digest.text then m
        else m.insert a.digest.text (analyze a)) m).get? digest =
      (m.get? digest).or ((as.find? fun l => l.digest.text == digest).map analyze) := by
  induction as generalizing m with
  | nil => simp
  | cons a as ih =>
    rw [List.foldl_cons, ih]
    by_cases same : a.digest.text = digest
    · rw [List.find?_cons_of_pos (by simpa using same), Option.map_some]
      split
      · next known =>
        obtain ⟨known', found⟩ := Option.isSome_iff_exists.1 known
        rw [← same, found, Option.some_or, Option.some_or]
      · next new =>
        have missing : m.get? digest = none := by
          simpa [SortedMap.contains, same] using new
        rw [SortedMap.get?_insert, if_pos same, missing, Option.some_or, Option.none_or]
    · rw [List.find?_cons_of_neg (by simpa using same)]
      split
      · rfl
      · rw [SortedMap.get?_insert, if_neg same]

theorem exists_leader {as : List Artifact} {a : Artifact} (among : a ∈ as) :
    (as.find? fun l => l.digest.text == a.digest.text) = some (leader as a) := by
  have found : (as.find? fun l => l.digest.text == a.digest.text).isSome := by
    rw [List.find?_isSome]
    exact ⟨a, among, by simp⟩
  obtain ⟨l, first⟩ := Option.isSome_iff_exists.1 found
  rw [leader, first, Option.getD_some]

theorem leader_mem {as : List Artifact} {a : Artifact} (among : a ∈ as) : leader as a ∈ as :=
  List.mem_of_find?_eq_some (exists_leader among)

/-- The plans of artifacts are made from the analyses of their leaders. -/
theorem all_eq (analyze : Artifact → Except Error Analysis) (as : List Artifact) :
    all analyze as = as.map (shared analyze as) := by
  refine List.map_congr_left fun a among => ?_
  have known := get?_foldl_analyses analyze as a.digest.text .empty
  rw [SortedMap.get?_empty, Option.none_or, exists_leader among] at known
  show of a (((analyses analyze as).get? a.digest.text).getD _) = shared analyze as a
  rw [analyses, known]
  rfl

/-! ### Agreement -/

section

variable [Libraries]

/-- An artifact that another one may share its analysis with. -/
structure Agrees (l a : Artifact) (w : Weights) : Prop where
  kind : l.kind = a.kind
  content : l.content = a.content
  path : l.path = a.path ∨ ∃ analysis, Inspection.analyze w a = .ok analysis

theorem profile_congr {l a : Artifact} (kind : l.kind = a.kind) (content : l.content = a.content) :
    Inspection.profile l = Inspection.profile a := by
  simp only [Inspection.profile, kind, content]

/-- The analysis of an artifact that agrees makes the same plan. -/
theorem of_analyze_congr {l a : Artifact} {w : Weights} (h : Agrees l a w) :
    of a (Inspection.analyze w l) = own (Inspection.analyze w) a := by
  have profile := profile_congr h.kind h.content
  unfold own Inspection.analyze
  rw [profile]
  cases known : Inspection.profile a with
  | ok p =>
    simp only [of, ofAnalysis, Inspection.assess, Analysis.atPath, Artifact.digest,
      Artifact.lineCount, h.kind, h.content]
  | error issue =>
    rcases h.path with path | ⟨analysis, analysed⟩
    · simp only [of, ofError, h.kind, path]
    · simp only [Inspection.analyze, known] at analysed
      cases analysed

end

theorem leader_singleton (a : Artifact) : leader [a] a = a := by
  simp [leader]

theorem shared_singleton (analyze : Artifact → Except Error Analysis) (a : Artifact) :
    shared analyze [a] a = own analyze a := by
  rw [shared, leader_singleton, own]

end Stencil.Plan

namespace Stencil

/-! ### Errors of one artifact -/

/-- Every error here concerns one artifact only. -/
def Harmless {α : Type} (r : Except Error α) : Prop := ∀ x, r = .error x → x.isFatal = false

namespace Harmless

variable {α β : Type}

theorem ok (a : α) : Harmless (.ok a : Except Error α) := fun _ h => by cases h

theorem error {x : Error} (h : x.isFatal = false) : Harmless (.error x : Except Error α) :=
  fun _ same => Except.error.inj same ▸ h

theorem bind {r : Except Error α} {f : α → Except Error β} (first : Harmless r)
    (next : ∀ a, Harmless (f a)) : Harmless (r >>= f) := by
  cases r with
  | ok a => exact next a
  | error x => exact .error (first x rfl)

theorem check {c : Prop} [Decidable c] {x : Error} {rest : PUnit → Except Error α}
    (h : x.isFatal = false) (next : ∀ u, Harmless (rest u)) :
    Harmless (if c then throw x >>= rest else rest ⟨⟩) := by
  split
  · exact .error h
  · exact next _

end Harmless

namespace Template

theorem harmless_checkDeclared (t : Template) : Harmless t.checkDeclared := by
  unfold checkDeclared
  split
  · exact .error rfl
  · exact .ok _

theorem harmless_validate (t : Template) : Harmless t.validate := by
  have scores : Harmless (do
      t.checkDeclared
      if t.digest ≠ .of t.content then throw (.invalidTemplate .staleDigest)
      if !inPercent t.complexity then
        throw (.invalidTemplate (.scoreOutside "complexity_score" t.complexity))
      if !inPercent t.effectiveness then
        throw (.invalidTemplate (.scoreOutside "effectiveness_score" t.effectiveness))) := by
    refine (harmless_checkDeclared t).bind fun _ => .check rfl fun _ => .check rfl fun _ => ?_
    split
    · exact .error rfl
    · exact .ok _
  unfold validate
  refine .check rfl fun _ => ?_
  dsimp only
  split
  · exact .error rfl
  · exact scores

theorem harmless_value (t : Template) (e : Environment) (name : String) :
    Harmless (t.value e name) := by
  unfold Template.value
  split
  · exact .ok _
  · unfold fallback
    split
    · exact .error rfl
    · split
      · exact .ok _
      · exact .error rfl
      · exact .ok _

theorem harmless_substitute (t : Template) (e : Environment) (segs : List Placeholder.Segment) :
    Harmless (t.substitute e segs) := by
  induction segs with
  | nil => exact .ok _
  | cons s segs ih =>
    cases s with
    | literal text => exact ih.bind fun _ => .ok _
    | escape => exact ih.bind fun _ => .ok _
    | placeholder name => exact (harmless_value t e _).bind fun _ => ih.bind fun _ => .ok _

theorem harmless_fillLeftovers (t : Template) (d : MarkedText) : Harmless (t.fillLeftovers d) := by
  rcases t.fillLeftovers_spec d with ⟨cs, filled, -⟩ | ⟨name, refused, -⟩
  · rw [filled]
    exact .ok _
  · rw [refused]
    exact .error rfl

theorem harmless_render (t : Template) (e : Environment) : Harmless (t.render e) :=
  (harmless_checkDeclared t).bind fun _ => (harmless_substitute t e _).bind fun _ =>
    (harmless_fillLeftovers t _).bind fun _ => .ok _

end Template

namespace Batch

open Catalog

variable {σ : Type} [Catalog.Backend σ]

/-! ### Workers -/

/-- The artifact at place `k` is taken up in time, and nothing interrupts its worker. -/
structure Timely (b : Batch) (supply : Supply) (k : Nat) : Prop where
  early : b.isLate supply k = false
  works : supply.regeneration k = none

/-- No analysis of a content is interrupted. -/
def Analysed (b : Batch) (supply : Supply) (as : List Artifact) : Prop :=
  ∀ a ∈ b.admitted as, supply.analysis a.digest = none

theorem harmless_bounded {α : Type} (b : Batch) (stage : String) (i : Option Interruption)
    {work : Except Error α} (h : Harmless work) : Harmless (b.bounded stage i work) := by
  match i with
  | none => exact h
  | some .late => exact .error rfl
  | some (.lost reason) => exact .error rfl

/-- Work that has a result was not interrupted. -/
theorem of_bounded {α : Type} {b : Batch} {stage : String} {i : Option Interruption} {work : Except Error α}
    {x : α} (h : b.bounded stage i work = .ok x) : i = none ∧ work = .ok x := by
  match i with
  | none => exact ⟨rfl, h⟩
  | some .late => cases h
  | some (.lost reason) => cases h

/-! ### Commits without failures -/

theorem faultless_commit (r : Regenerated) (path : Path) (recordId : Identifier) (now : Instant) :
    Faultless (fun _ => True) (r.commit path recordId now : Action (Supervised σ) Identifier)
      fun _ _ => True := by
  have call : ∀ call : Call, Faultless (σ := σ) (fun _ => True) (Catalog.perform call now)
      fun _ _ => True := fun _ => Faultless.call.mono (fun _ => id) fun _ _ _ => trivial
  unfold Regenerated.commit
  exact (call _).bind fun _ => (call _).bind fun _ => (call _).bind fun _ => (call _).bind fun _ =>
    (call _).bind fun _ => .pure fun _ _ => trivial

omit [Catalog.Backend σ] in
theorem flawless_unlessFatal {p : Plan} {act : Action (Supervised σ) Result}
    {before : Supervised σ → Prop} {after : Result → Supervised σ → Prop}
    (h : Flawless before act after) : Flawless before (unlessFatal p act) after := by
  refine h.tryCatch fun x s => ?_
  split <;> rfl

omit [Catalog.Backend σ] in
theorem faultless_unlessFatal {p : Plan} {act : Action (Supervised σ) Result}
    {before : σ → Prop} {after : Result → σ → Prop}
    (h : Faultless before act after) : Faultless before (unlessFatal p act) after :=
  .of_flawless (flawless_unlessFatal h.flawless)

omit [Catalog.Backend σ] in
theorem unlessFatal_error {α : Type} {p : Plan} {x : Error} (harmless : x.isFatal = false)
    (next : α → Action σ Result) :
    unlessFatal p ((liftM (.error x : Except Error α) : Action σ α) >>= next) =
      (pure (failed p x) : Action σ Result) := by
  funext s
  have raised : ((liftM (.error x : Except Error α) : Action σ α) >>= next) s = (.error x, s) :=
    Faultless.bind_error rfl
  unfold unlessFatal
  rw [Faultless.tryCatch_error raised, harmless]
  rfl

/-! ### What follows from a plan -/

/-- A result without the identifier of its template. -/
def Result.anonymous (r : Result) : Result := { r with item := { r.item with template := none } }

theorem anonymous_rendered (p : Plan) (outcome : Outcome) (id id' : Identifier) :
    (rendered p outcome id).anonymous = (rendered p outcome id').anonymous := by
  unfold rendered
  split <;> rfl

variable [Libraries]

def expected (b : Batch) (e : Environment) (p : Plan) : Result :=
  match p.analysis with
  | .error x => failed p x
  | .ok analysis =>
    match b.regenerate e analysis p.artifact default default with
    | .error x => failed p x
    | .ok none => { item := item p .belowGate }
    | .ok (some r) => (rendered p r.outcome default).anonymous

theorem regenerate_eq (b : Batch) (e : Environment) (analysis : Analysis) (a : Artifact)
    (newId : Identifier) (now : Instant) :
    b.regenerate e analysis a newId now =
      if (b.settings.extraction.gate analysis a).accepted then do
        (Extraction.made analysis a newId now).validate
        let rendering ← (Extraction.made analysis a newId now).render e
        return some ⟨Extraction.made analysis a newId now, rendering, rendering.validate a.kind⟩
      else .ok none := by
  unfold regenerate
  rw [Extraction.extract_eq]
  split
  · cases (Extraction.made analysis a newId now).validate with
    | error x => rfl
    | ok _ => rfl
  · rfl

theorem harmless_regenerate (b : Batch) (e : Environment) (analysis : Analysis) (a : Artifact)
    (newId : Identifier) (now : Instant) : Harmless (b.regenerate e analysis a newId now) := by
  rw [regenerate_eq]
  split
  · exact (Template.harmless_validate _).bind fun _ =>
      (Template.harmless_render _ e).bind fun _ => .ok _
  · exact .ok _

/-- Whatever the identifier and the time, an artifact becomes the same: an error, nothing, or a rendering with the
same outcome. -/
theorem regenerate_alike (b : Batch) (e : Environment) (analysis : Analysis) (a : Artifact)
    (newId newId' : Identifier) (now now' : Instant) :
    (∃ x, b.regenerate e analysis a newId now = .error x ∧ b.regenerate e analysis a newId' now' = .error x) ∨
    (b.regenerate e analysis a newId now = .ok none ∧ b.regenerate e analysis a newId' now' = .ok none) ∨
    ∃ r r', b.regenerate e analysis a newId now = .ok (some r) ∧
      b.regenerate e analysis a newId' now' = .ok (some r') ∧ r.outcome = r'.outcome := by
  have rendered := @Template.render_congr (Extraction.made analysis a newId now)
    (Extraction.made analysis a newId' now') rfl rfl e
  have valid : (Extraction.made analysis a newId' now').validate =
      (Extraction.made analysis a newId now).validate := rfl
  rw [regenerate_eq, regenerate_eq, rendered, valid]
  split
  · cases (Extraction.made analysis a newId now).validate with
    | error x => exact .inl ⟨x, rfl, rfl⟩
    | ok _ =>
      cases (Extraction.made analysis a newId now).render e with
      | error x => exact .inl ⟨x, rfl, rfl⟩
      | ok _ => exact .inr (.inr ⟨_, _, rfl, rfl, rfl⟩)
  · exact .inr (.inl ⟨rfl, rfl⟩)

theorem harmless_work (b : Batch) (e : Environment) (supply : Supply) (k : Nat) (analysis : Analysis)
    (a : Artifact) : Harmless (b.work e supply k analysis a) :=
  b.harmless_bounded _ _ (b.harmless_regenerate e analysis a _ _)

theorem work_eq {b : Batch} {supply : Supply} {k : Nat} (timely : b.Timely supply k) (e : Environment)
    (analysis : Analysis) (a : Artifact) :
    b.work e supply k analysis a = b.regenerate e analysis a (supply.templateId k) (supply.time k) := by
  unfold work
  rw [timely.works]
  rfl

/-! ### Processing -/

theorem faultless_process (b : Batch) (e : Environment) (supply : Supply) (p : Plan) {k : Nat}
    (timely : b.Timely supply k) :
    Faultless (fun _ => True) (b.process e supply p k : Action (Supervised σ) Result)
      fun r _ => r.anonymous = b.expected e p := by
  unfold process expected
  cases p.analysis with
  | error x => exact .pure fun _ _ => rfl
  | ok analysis =>
    simp only [timely.early, Bool.false_eq_true, if_false, work_eq timely]
    -- The identifiers and the clock of `expected` lead to the same case.
    rcases b.regenerate_alike e analysis p.artifact (supply.templateId k) default (supply.time k) default with
      ⟨x, made, made'⟩ | ⟨made, made'⟩ | ⟨r, r', made, made', outcome⟩
    · rw [made, made', unlessFatal_error (b.harmless_regenerate e analysis p.artifact _ _ x made)]
      exact .pure fun _ _ => rfl
    · rw [made, made']
      exact faultless_unlessFatal (.pure fun _ _ => rfl)
    · rw [made, made']
      refine faultless_unlessFatal ?_
      refine (faultless_commit r p.artifact.path (supply.recordId k) (supply.time k)).bind
        fun id => .pure fun _ _ => ?_
      rw [outcome]
      exact anonymous_rendered p r'.outcome id default

theorem faultless_processAll (b : Batch) (e : Environment) (supply : Supply) {ps : List Plan} {k : Nat}
    (timely : ∀ j < ps.length, b.Timely supply (k + j)) :
    Faultless (fun _ => True) (b.processAll e supply ps k : Action (Supervised σ) (List Result))
      fun rs _ => rs.map Result.anonymous = ps.map (b.expected e) := by
  induction ps generalizing k with
  | nil => exact .pure fun _ _ => rfl
  | cons p ps ih =>
    have first : b.Timely supply k := timely 0 (by simp)
    have later : ∀ j < ps.length, b.Timely supply (k + 1 + j) := by
      intro j inside
      rw [Nat.add_assoc, Nat.add_comm 1 j]
      exact timely (j + 1) (by simpa using inside)
    unfold processAll
    refine (faultless_process b e supply p first).bind fun r => ?_
    have rest := (ih later).keep (r.anonymous = b.expected e p)
    refine (rest.mono (fun s same => ⟨same, trivial⟩) fun _ _ => id).bind fun rs => .pure ?_
    rintro s ⟨same, results⟩
    rw [List.map_cons, List.map_cons, same, results]

/-- A run of a batch in which no call fails, nothing is late and no worker is interrupted. -/
structure Calm (b : Batch) (as : List Artifact) (supply : Supply) (s : Supervised σ) : Prop where
  clean : (b.run as supply s).2.Clean
  analysed : b.Analysed supply as
  timely : ∀ k < (b.plans supply as).length, b.Timely supply k

theorem Calm.inTime {b : Batch} {as : List Artifact} {supply : Supply} {s : Supervised σ}
    (h : Calm b as supply s) : ∀ j < (b.plans supply as).length, b.Timely supply (0 + j) := fun j inside => by
  rw [Nat.zero_add]
  exact h.timely j inside

/-- The results of a calm run follow from the plans and the environment. -/
theorem Calm.results {b : Batch} {as : List Artifact} {supply : Supply} {s : Supervised σ}
    (h : Calm b as supply s) {e : Environment}
    (environment : (b.environment (supply.time 0) s).1 = .ok e) :
    ∃ rs, (b.run as supply s).1 = .ok rs ∧
      rs.map Result.anonymous = (b.plans supply as).map (b.expected e) := by
  have clean := h.clean
  have found : b.environment (supply.time 0) s = (.ok e, (b.environment (supply.time 0) s).2) :=
    Prod.ext environment rfl
  unfold run at clean ⊢
  rw [Faultless.bind_ok found] at clean ⊢
  obtain ⟨rs, s', ran, results⟩ := (faultless_processAll b e supply h.inTime).answers trivial clean
  exact ⟨rs, by rw [ran], results⟩

/-- A calm run answers results, and they follow from the plans and the environment that the catalog has. -/
theorem Calm.results_stored {b : Batch} {as : List Artifact} {supply : Supply} {s : Supervised σ}
    (h : Calm b as supply s) :
    ∃ rs found, (b.run as supply s).1 = .ok rs ∧
      (perform (.environment b.settings.environment) (supply.time 0) s.inner).1 = .ok found ∧
      rs.map Result.anonymous =
        (b.plans supply as).map (b.expected (found.getD (.identity b.settings.environment))) := by
  let stored (e : Environment) : Prop := ∃ found,
    (perform (.environment b.settings.environment) (supply.time 0) s.inner).1 = .ok found ∧
      e = found.getD (.identity b.settings.environment)
  have environment : Faultless (· = s.inner)
      (b.environment (supply.time 0) : Action (Supervised σ) Environment) fun e _ => stored e := by
    refine Faultless.call.bind fun found => .pure ?_
    rintro s' ⟨_, rfl, answered⟩
    exact ⟨found, congrArg Prod.fst answered, rfl⟩
  have run : Faultless (· = s.inner) (b.run as supply : Action (Supervised σ) (List Result))
      fun rs _ => ∃ e, stored e ∧ rs.map Result.anonymous = (b.plans supply as).map (b.expected e) := by
    refine environment.bind fun e => ?_
    refine ((faultless_processAll b e supply h.inTime).keep (stored e)).mono (fun _ known => ⟨known, trivial⟩) ?_
    rintro rs s' ⟨known, same⟩
    exact ⟨e, known, same⟩
  obtain ⟨rs, s', ran, -, ⟨found, answered, rfl⟩, same⟩ := run.answers rfl h.clean
  exact ⟨rs, found, by rw [ran], answered, same⟩

/-- A calm run answers results, and they follow from the plans and an environment. -/
theorem Calm.exists_results {b : Batch} {as : List Artifact} {supply : Supply} {s : Supervised σ}
    (h : Calm b as supply s) :
    ∃ rs e, (b.run as supply s).1 = .ok rs ∧
      rs.map Result.anonymous = (b.plans supply as).map (b.expected e) := by
  obtain ⟨rs, found, ran, -, same⟩ := h.results_stored
  exact ⟨rs, _, ran, same⟩

/-! ### Runs that render nothing -/

/-- A plan that has no analysis, or stays below the gate. -/
def Unrendered (b : Batch) (p : Plan) : Prop :=
  ∀ x, p.analysis = .ok x → (b.settings.extraction.gate x p.artifact).accepted = false

theorem exists_process_eq {b : Batch} {supply : Supply} {p : Plan} {k : Nat} (e : Environment)
    (timely : b.Timely supply k) (below : b.Unrendered p) :
    ∃ r, (b.process e supply p k : Action σ Result) = pure r := by
  unfold process
  cases known : p.analysis with
  | error x => exact ⟨_, rfl⟩
  | ok x =>
    have none : b.regenerate e x p.artifact (supply.templateId k) (supply.time k) = .ok none := by
      rw [regenerate_eq, below x known]
      rfl
    refine ⟨{ item := item p .belowGate }, ?_⟩
    simp only [timely.early, Bool.false_eq_true, if_false, work_eq timely, none]
    rfl

theorem exists_processAll_eq {b : Batch} {supply : Supply} {ps : List Plan} (e : Environment)
    (timely : ∀ k, b.Timely supply k) (below : ∀ p ∈ ps, b.Unrendered p) (k : Nat) :
    ∃ rs, (b.processAll e supply ps k : Action σ (List Result)) = pure rs := by
  induction ps generalizing k with
  | nil => exact ⟨[], rfl⟩
  | cons p ps ih =>
    obtain ⟨r, first⟩ := exists_process_eq (σ := σ) e (timely k) (below p List.mem_cons_self)
    obtain ⟨rs, rest⟩ := ih (fun q among => below q (List.mem_cons_of_mem p among)) (k + 1)
    exact ⟨r :: rs, by rw [processAll, first, pure_bind, rest, pure_bind]⟩

theorem calm_of_unrendered {b : Batch} {as : List Artifact} {supply : Supply} {s s' : Supervised σ}
    {e : Environment} (environment : b.environment (supply.time 0) s = (.ok e, s'))
    (clean : s'.Clean) (analysed : b.Analysed supply as) (timely : ∀ k, b.Timely supply k)
    (below : ∀ p ∈ b.plans supply as, b.Unrendered p) : Calm b as supply s := by
  refine ⟨?_, analysed, fun k _ => timely k⟩
  obtain ⟨rs, ran⟩ := exists_processAll_eq (σ := Supervised σ) e timely below 0
  unfold run
  rw [Faultless.bind_ok environment, ran]
  exact clean

end Batch

end Stencil
