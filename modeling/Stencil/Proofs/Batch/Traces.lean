import Stencil.Proofs.Batch.History
import Stencil.Proofs.Catalog.Logs

/-!
# What a failed artifact leaves behind

An artifact is committed by five calls. An error of one of them makes the artifact fail, and the calls before
it stay done: `run_leaves` says what every artifact of a batch leaves in the log and how much more than the
rendered ones went into the catalog.
-/

namespace Stencil

open Catalog

/-- What a commit writes down: all its calls, or those up to the first error. -/
inductive Commit.Writes (c : Commit) : Except Error Identifier → Log → Prop where
  | whole (id : Identifier) (score : Float) :
      c.Writes (.ok id) ((c.calls id score).map (·, none))
  | broken {id : Identifier} {score : Float} {done : List Call} {call : Call} {rest : List Call}
      (split : c.calls id score = done ++ call :: rest) (x : Error) :
      c.Writes (.error x) (done.map (·, none) ++ [(call, some x)])

namespace Batch

/-- What an artifact leaves in the log, with its result. -/
inductive Leaves : Result → Log → Prop where
  | nothing {r : Result} (unrendered : r.item.fate.isRendered = false) : Leaves r []
  | whole {r : Result} {c : Commit} (rendered : r.item.fate.isRendered = true)
      (own : c.path = r.item.path) (id : Identifier) (score : Float) :
      Leaves r ((c.calls id score).map (·, none))
  | broken {r : Result} {c : Commit} {x : Error} (failed : r.item.fate = .failed (.of x))
      (own : c.path = r.item.path) {id : Identifier} {score : Float} {done : List Call} {call : Call}
      {rest : List Call} (split : c.calls id score = done ++ call :: rest) :
      Leaves r (done.map (·, none) ++ [(call, some x)])

/-- No use and no record is left. -/
def Traceless (part : Log) : Prop :=
  successes .recordUsage part = 0 ∧ successes .appendRecord part = 0

/-- The errors that come after a record. -/
def afterRecord (log : Log) : Nat := failures .get log + failures .updateEffectiveness log

/-- The errors that come after a use. -/
def afterUse (log : Log) : Nat := failures .appendRecord log + afterRecord log

/-! ### Counting -/

theorem Leaves.counts {r : Result} {part : Log} (h : Leaves r part) :
    successes .appendRecord part = (if r.item.fate.isRendered then 1 else 0) + afterRecord part ∧
      successes .recordUsage part = (if r.item.fate.isRendered then 1 else 0) + afterUse part := by
  cases h with
  | nothing unrendered =>
    rw [unrendered]
    exact ⟨rfl, rfl⟩
  | whole rendered =>
    rw [rendered]
    exact ⟨rfl, rfl⟩
  | @broken c x failed own id score done call rest split =>
    rw [failed]
    unfold Commit.calls at split
    -- One case for each place of the error.
    rcases done with _ | ⟨_, _ | ⟨_, _ | ⟨_, _ | ⟨_, _ | ⟨_, done⟩⟩⟩⟩⟩
    rotate_right
    · simp at split
    all_goals
      cases split
      exact ⟨rfl, rfl⟩

theorem Leaves.traceless_iff {r : Result} {part : Log} (h : Leaves r part) :
    (Summary.isFailed r.item.fate = true → Traceless part) ↔ afterUse part = 0 := by
  obtain ⟨records, uses⟩ := h.counts
  have later : afterUse part = 0 → afterRecord part = 0 := fun none => (Nat.add_eq_zero_iff.1 none).2
  cases failed : Summary.isFailed r.item.fate with
  | true =>
    have unrendered : r.item.fate.isRendered = false := by
      cases known : r.item.fate <;> rw [known] at failed <;> first | rfl | cases failed
    rw [unrendered, if_neg Bool.false_ne_true, Nat.zero_add] at records uses
    unfold Traceless
    rw [records, uses]
    exact ⟨fun none => (none rfl).1, fun none _ => ⟨none, later none⟩⟩
  | false =>
    have none : afterUse part = 0 := by
      cases h with
      | nothing => rfl
      | whole => rfl
      | broken broke =>
        rw [broke] at failed
        cases failed
    exact ⟨fun _ => none, fun _ absurd => by cases absurd⟩

theorem afterUse_append (xs ys : Log) : afterUse (xs ++ ys) = afterUse xs + afterUse ys := by
  simp only [afterUse, afterRecord, failures_append]
  omega

theorem counts_flatten {rs : List Result} {parts : List Log} (h : List.Forall₂ Leaves rs parts) :
    successes .appendRecord parts.flatten =
        rs.countP (·.item.fate.isRendered) + afterRecord parts.flatten ∧
      successes .recordUsage parts.flatten =
        rs.countP (·.item.fate.isRendered) + afterUse parts.flatten := by
  induction h with
  | nil => exact ⟨rfl, rfl⟩
  | cons first _ ih =>
    obtain ⟨records, uses⟩ := first.counts
    simp only [afterUse, afterRecord] at records uses ih
    rw [List.countP_cons, List.flatten_cons]
    simp only [afterUse, afterRecord, successes_append, failures_append]
    omega

theorem traceless_flatten {rs : List Result} {parts : List Log} (h : List.Forall₂ Leaves rs parts) :
    List.Forall₂ (fun r part => Summary.isFailed r.item.fate = true → Traceless part) rs parts ↔
      afterUse parts.flatten = 0 := by
  induction h with
  | nil => exact ⟨fun _ => rfl, fun _ => .nil⟩
  | cons first _ ih =>
    rw [List.forall₂_cons, ih, first.traceless_iff, List.flatten_cons, afterUse_append,
      Nat.add_eq_zero_iff]

theorem succeeded_summary (rs : List Result) (duration : Duration) :
    (summary rs duration).succeeded = rs.countP (·.item.fate.isRendered) := by
  show Summary.count _ _ + Summary.count _ _ = _
  unfold Summary.count
  rw [List.countP_map, List.countP_map]
  induction rs with
  | nil => rfl
  | cons r rs ih =>
    rw [List.countP_cons, List.countP_cons, List.countP_cons, ← ih]
    cases known : r.item.fate <;> simp [known, Fate.isRendered] <;> omega

/-! ### What is written down -/

variable {σ : Type} [Backend σ] [Archive σ]

theorem logged_commit (c : Commit) :
    Logged (c.made.commit c.path c.recordId c.time : Action (Supervised σ) Identifier) c.Writes := by
  have broken : ∀ {call rest} (id : Identifier) (score : Float) (done : List Call) (x : Error),
      c.calls id score = done ++ call :: rest →
        c.Writes (.error x) (done.map (·, none) ++ [(call, some x)]) :=
    fun _ _ _ x split => .broken split x
  unfold Regenerated.commit
  refine .step (fun x => broken default 0 [] x rfl) fun id => .step (fun x => ?_) fun _ =>
    .step (fun x => ?_) fun _ => .step (fun x => ?_) fun stored => .step (fun x => ?_) fun _ =>
      .pure (.whole id _)
  · exact broken id 0 [_] x rfl
  · exact broken id 0 [_, _] x rfl
  · exact broken id 0 [_, _, _] x rfl
  · exact broken id _ [_, _, _, _] x rfl

theorem isRendered_rendered (p : Plan) (outcome : Outcome) (id : Identifier) :
    (rendered p outcome id).item.fate.isRendered = true ∧
      (rendered p outcome id).item.path = p.artifact.path := by
  unfold rendered
  split <;> exact ⟨rfl, rfl⟩

theorem path_of_commit? [Libraries] {b : Batch} {e : Environment} {supply : Supply} {p : Plan} {k : Nat}
    {c : Commit} (h : b.commit? e supply p k = some c) : c.path = p.artifact.path := by
  obtain ⟨analysis, made, -, -, -, rfl⟩ := exists_of_commit? h
  rfl

theorem logged_process [Libraries] (b : Batch) (e : Environment) (supply : Supply) (p : Plan) (k : Nat) :
    Logged (b.process e supply p k : Action (Supervised σ) Result) fun reply part =>
      Tame part → ∃ r, reply = .ok r ∧ Leaves r part := by
  rcases process_cases (σ := Supervised σ) b e supply p k with
    ⟨r, -, process, unrendered⟩ | ⟨c, some, process⟩
  · rw [process]
    exact .pure fun _ => ⟨r, rfl, .nothing unrendered⟩
  · rw [process]
    have own := path_of_commit? some
    have committed : Logged (c.made.commit c.path c.recordId c.time >>= fun id =>
        Pure.pure (rendered p c.made.outcome id) : Action (Supervised σ) Result)
        fun reply part => ∃ written, c.Writes written part ∧
          reply = written.map (rendered p c.made.outcome) := by
      refine (logged_commit c).bind (fun x part writes => ⟨.error x, writes, rfl⟩) ?_
      intro id part writes
      refine .pure ⟨.ok id, ?_, rfl⟩
      rwa [List.append_nil]
    -- The handler makes no call, so the calls before the error are all that is written.
    refine committed.tryCatch (fun x => if x.isFatal then .error x else .ok (failed p x)) ?_ ?_ ?_
    · intro x s
      split <;> rfl
    · rintro x part ⟨written, writes, reply⟩ tame
      cases writes with
      | whole id score => cases reply
      | broken split y =>
        obtain rfl := Except.error.inj reply
        have harmless : x.isFatal = false :=
          (tame_append.1 tame).2 _ List.mem_cons_self x rfl
        rw [harmless]
        exact ⟨failed p x, rfl, .broken rfl own split⟩
    · rintro r part ⟨written, writes, reply⟩ -
      cases writes with
      | whole id score =>
        obtain rfl := Except.ok.inj reply
        obtain ⟨whole, path⟩ := isRendered_rendered p c.made.outcome id
        exact ⟨_, rfl, .whole whole (own.trans path.symm) id score⟩
      | broken split y => cases reply

theorem logged_processAll [Libraries] (b : Batch) (e : Environment) (supply : Supply) (ps : List Plan) (k : Nat) :
    Logged (b.processAll e supply ps k : Action (Supervised σ) (List Result)) fun reply part =>
      Tame part → ∃ rs parts, reply = .ok rs ∧ part = parts.flatten ∧ List.Forall₂ Leaves rs parts := by
  induction ps generalizing k with
  | nil => exact .pure fun _ => ⟨[], [], rfl, rfl, .nil⟩
  | cons p ps ih =>
    unfold processAll
    refine (b.logged_process e supply p k).bind ?_ fun r part first => ?_
    -- An error of the first artifact or of a later one would not be tame.
    · intro x part first tame
      obtain ⟨r, same, -⟩ := first tame
      cases same
    refine (ih (k + 1)).bind ?_ fun rs rest later => .pure fun tame => ?_
    · intro x rest later tame
      obtain ⟨rs, -, same, -⟩ := later (tame_append.1 tame).2
      cases same
    · rw [List.append_nil] at tame ⊢
      obtain ⟨tame, tame'⟩ := tame_append.1 tame
      obtain ⟨r', same, leaves⟩ := first tame
      obtain ⟨rs', parts, same', rfl, leaves'⟩ := later tame'
      obtain rfl := Except.ok.inj same
      obtain rfl := Except.ok.inj same'
      exact ⟨r :: rs, part :: parts, rfl, rfl, .cons leaves leaves'⟩

theorem logged_environment (b : Batch) (now : Instant) :
    Logged (b.environment now : Action (Supervised σ) Environment) fun reply part =>
      ∀ e, reply = .ok e → part = [(.environment b.settings.environment, none)] := by
  unfold environment
  exact .step (fun x e same => by cases same) fun found => .pure fun e _ => rfl

/-- Where the environment is found and no error ends the batch, every artifact has a result and leaves what
goes with it. One more record than there are rendered artifacts is left for each error after a record, and one
more use for each error after a use; only without these the failed artifacts leave no trace. -/
theorem run_leaves [Libraries] (b : Batch) (as : List Artifact) (supply : Supply) {s : Supervised σ}
    {e : Environment} (environment : (b.environment (supply.time 0) s).1 = .ok e) :
    ∃ log, (b.run as supply s).2.log = s.log ++ log ∧
      Archive.recordIds (b.run as supply s).2.inner =
        Archive.recordIds s.inner ++ log.filterMap appended? ∧
      (Tame log → ∃ rs parts, (b.run as supply s).1 = .ok rs ∧
        log = (.environment b.settings.environment, none) :: parts.flatten ∧
        List.Forall₂ Leaves rs parts ∧
        (List.Forall₂ (fun r part => Summary.isFailed r.item.fate = true → Traceless part) rs parts ↔
          afterUse log = 0) ∧
        ∀ duration,
          (log.filterMap appended?).length = (summary rs duration).succeeded + afterRecord log ∧
          successes .recordUsage log = (summary rs duration).succeeded + afterUse log) := by
  have found : b.environment (supply.time 0) s = (.ok e, (b.environment (supply.time 0) s).2) :=
    Prod.ext environment rfl
  obtain ⟨_, asked, ids, only⟩ := b.logged_environment (supply.time 0) s
  obtain rfl := only e environment
  obtain ⟨part, log, ids', leaves⟩ := b.logged_processAll e supply (b.plans supply as) 0
    (b.environment (supply.time 0) s).2
  unfold run
  rw [Faultless.bind_ok found]
  refine ⟨(.environment b.settings.environment, none) :: part, ?_, ?_, fun tame => ?_⟩
  · rw [log, asked, List.append_assoc]
    rfl
  · rw [ids', ids, List.append_assoc]
    rfl
  · have rest : Tame part := fun entry among => tame entry (List.mem_cons_of_mem _ among)
    obtain ⟨rs, parts, ran, rfl, each⟩ := leaves rest
    refine ⟨rs, parts, ran, rfl, each, traceless_flatten each, fun duration => ?_⟩
    obtain ⟨records, uses⟩ := counts_flatten each
    rw [succeeded_summary, length_appended]
    exact ⟨records, uses⟩

/-! ### A failed artifact with a record -/

def gone : Error := .notFound "template" "gone"

/-- An empty catalog whose first question for a template will fail. -/
def interrupted : Supervised Memory where
  inner := {}
  schedule
    | .get, 1 => some gone
    | _, _ => none

def loneFile : Artifact := environmentFile "a/x.env" "P=a/b\n"

/-- What is left of a commit in the catalog that was interrupted. -/
def remnant (c : Commit) : Memory where
  templates :=
    let stored := SortedMap.empty.insert c.made.template.id c.made.template
    stored.insert c.made.template.id
      { c.made.template with usage := c.made.template.usage + 1, lastUsed := some c.time }
  history := [c.record c.made.template.id]
  recordIds := SortedMap.empty.insert c.recordId ()

def interruptedLog (c : Commit) : Log :=
  [(.environment "production", none), (.put c.made.template, none),
    (.recordUsage c.made.template.id, none), (.appendRecord (c.record c.made.template.id), none),
    (.get c.made.template.id, some gone)]

theorem commit_interrupted {c : Commit} (valid : c.made.template.validate = .ok ()) :
    c.made.commit c.path c.recordId c.time
        { interrupted with log := [(.environment "production", none)] } =
      (.error gone, { interrupted with inner := remnant c, log := interruptedLog c }) := by
  let t := c.made.template
  let stored : Memory := { templates := SortedMap.empty.insert t.id t }
  have put : perform (.put t) c.time ({} : Memory) = (.ok t.id, stored) := by
    show Memory.put t c.time {} = _
    rw [Memory.put, valid]
    rfl
  have counted : perform (.recordUsage t.id) c.time stored =
      (.ok (), { stored with templates := (remnant c).templates }) := by
    show Memory.change t.id _ stored = _
    have found : stored.templates.get? t.id = some t := by
      rw [SortedMap.get?_insert, if_pos rfl]
    rw [Memory.change, found]
    rfl
  have appended : perform (.appendRecord (c.record t.id)) c.time
      { stored with templates := (remnant c).templates } = (.ok (), remnant c) := rfl
  unfold Regenerated.commit
  rw [Faultless.bind_ok (Faultless.perform_unscheduled rfl put),
    Faultless.bind_ok (Faultless.perform_unscheduled rfl counted),
    Faultless.bind_ok (Faultless.perform_unscheduled rfl appended),
    Faultless.bind_error (Faultless.perform_scheduled rfl c.time)]
  rfl

theorem plans_singleton [Libraries] {b : Batch} {supply : Supply} {a : Artifact}
    (analysed : b.Analysed supply [a]) (admitted : a ∈ b.admitted [a]) (wanted : b.wants (b.own a) = true) :
    b.plans supply [a] = [b.own a] := by
  obtain ⟨admits, same⟩ := shared_alone admitted
  have kept : [b.own a].filter b.wants = [b.own a] := List.filter_cons_of_pos wanted
  rw [analysed.plans_eq, admits, List.map_singleton, same, kept, Plan.sorted, List.mergeSort_singleton]

open Readers

theorem run_interrupted : ∃ c, c.made.template.usage = 0 ∧
    lenient.run [loneFile] rivalry.supply interrupted =
      (.ok [failed (lenient.own loneFile) gone],
        { interrupted with inner := remnant c, log := interruptedLog c }) := by
  let e : Environment := .identity "production"
  obtain ⟨c, made, unused, -⟩ := commit?_rival (a := loneFile) List.mem_cons_self 0
  have plans : lenient.plans rivalry.supply [loneFile] = [lenient.own loneFile] :=
    plans_singleton (fun _ _ => rfl) List.mem_cons_self rfl
  have environment : lenient.environment (rivalry.supply.time 0) interrupted =
      (.ok e, { interrupted with log := [(.environment "production", none)] }) := rfl
  refine ⟨c, unused, ?_⟩
  rw [run, Faultless.bind_ok environment, plans]
  rcases process_cases (σ := Supervised Memory) lenient e rivalry.supply (lenient.own loneFile) 0 with
    ⟨r, none, -⟩ | ⟨c', made', process⟩
  · rw [made] at none
    cases none
  · obtain rfl := Option.some.inj (made.symm.trans made')
    have committed := commit_interrupted (of_commit? made).2.2.valid
    rw [processAll, process, unlessFatal, Faultless.bind_ok]
    · rfl
    · rw [Faultless.tryCatch_error (Faultless.bind_error committed)]
      rfl

theorem environment_interrupted :
    (lenient.environment (rivalry.supply.time 0) interrupted).1 = .ok (.identity "production") := rfl

theorem tame_interruptedLog (c : Commit) : Tame (interruptedLog c) := by
  intro entry among x failed
  simp only [interruptedLog, List.mem_cons, List.not_mem_nil, or_false] at among
  rcases among with rfl | rfl | rfl | rfl | rfl
  all_goals
    cases failed
  rfl

/-- The one file fails, nothing is counted as a success, and its use and its record are in the catalog. -/
theorem failed_leaves_record :
    ∃ r s, lenient.run [loneFile] rivalry.supply interrupted = (.ok [r], s) ∧ Tame s.log ∧
      Summary.isFailed r.item.fate = true ∧ (∀ duration, (summary [r] duration).succeeded = 0) ∧
      interrupted.inner.history = [] ∧
      ∃ t, s.inner.templates.get? t.id = some t ∧ t.usage = 1 ∧
        s.inner.history.map (·.template) = [t.id] := by
  obtain ⟨c, unused, ran⟩ := run_interrupted
  refine ⟨_, _, ran, tame_interruptedLog c, rfl, fun _ => rfl, rfl,
    { c.made.template with usage := c.made.template.usage + 1, lastUsed := some c.time }, ?_, ?_, rfl⟩
  · show (SortedMap.insert _ _ _).get? _ = _
    rw [SortedMap.get?_insert, if_pos rfl]
  · show c.made.template.usage + 1 = 1
    rw [unused]
    rfl

theorem run_leaves_interrupted :
    (lenient.environment (rivalry.supply.time 0) interrupted).1 = .ok (.identity "production") ∧
      ∃ log, (lenient.run [loneFile] rivalry.supply interrupted).2.log = interrupted.log ++ log ∧
        Archive.recordIds (lenient.run [loneFile] rivalry.supply interrupted).2.inner =
          Archive.recordIds interrupted.inner ++ log.filterMap appended? ∧
        Tame log ∧ ∃ rs parts,
          (lenient.run [loneFile] rivalry.supply interrupted).1 = .ok rs ∧
          log = (.environment "production", none) :: parts.flatten ∧ List.Forall₂ Leaves rs parts ∧
          (List.Forall₂ (fun r part => Summary.isFailed r.item.fate = true → Traceless part) rs parts ↔
            afterUse log = 0) ∧
          ∀ duration,
            (log.filterMap appended?).length = (summary rs duration).succeeded + afterRecord log ∧
            successes .recordUsage log = (summary rs duration).succeeded + afterUse log := by
  obtain ⟨log, grown, ids, leaves⟩ := run_leaves lenient [loneFile] rivalry.supply environment_interrupted
  obtain ⟨c, -, ran⟩ := run_interrupted
  have tame : Tame log := by
    rw [ran] at grown
    have same : log = interruptedLog c := grown.symm
    exact same ▸ tame_interruptedLog c
  exact ⟨environment_interrupted, log, grown, ids, tame, leaves tame⟩

end Batch

end Stencil
