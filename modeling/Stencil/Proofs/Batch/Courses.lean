import Stencil.Proofs.Batch.Commits
import Stencil.Proofs.Catalog.Performing

/-!
# The course of a batch

A batch commits its artifacts in order. An error of a call spoils the artifact that the call is for, unless it
is fatal: then it is the answer of the batch, and no call comes after it. `run_conducts` says so for every
catalog and every schedule of failures, and which calls there were.
-/

namespace Stencil

open Catalog

/-- The replies to a commit none of whose calls fails, for the identifier and the template that are answered. -/
def Commit.replies (c : Commit) (id : Identifier) (stored : Template) : List Reply :=
  [⟨.put c.made.template, .ok id⟩, ⟨.recordUsage id, .ok ()⟩, ⟨.appendRecord (c.record id), .ok ()⟩,
    ⟨.get id, .ok stored⟩,
    ⟨.updateEffectiveness id (blend stored.effectiveness stored.usage.toFloat c.made.observed), .ok ()⟩]

/-- The replies to a commit: those to all its calls, or those up to the first error. -/
inductive Commit.Answered (c : Commit) : Except Error Identifier → List Reply → Prop where
  | whole (id : Identifier) (stored : Template) : c.Answered (.ok id) (c.replies id stored)
  | broken {id : Identifier} {stored : Template} {done : List Reply} {call : Call}
      {reply : Except Error call.Answer} {rest : List Reply}
      (split : c.replies id stored = done ++ ⟨call, reply⟩ :: rest) (x : Error) :
      c.Answered (.error x) (done ++ [⟨call, .error x⟩])

namespace Batch

/-! ### Courses -/

/-- What becomes of an artifact that is prepared, and the replies to the calls for it. -/
inductive Settles (p : Plan) :
    Except Error (Option Commit) → Except Error Result → List Reply → Prop where
  /-- It has failed before any call. -/
  | refused (x : Error) : Settles p (.error x) (.ok (failed p x)) []
  | below : Settles p (.ok none) (.ok { item := item p .belowGate }) []
  | committed {c : Commit} {id : Identifier} {part : List Reply} (whole : c.Answered (.ok id) part) :
      Settles p (.ok (some c)) (.ok (rendered p c.made.outcome id)) part
  /-- A call has failed, with an error that is the artifact's own. -/
  | spoiled {c : Commit} {x : Error} {part : List Reply} (broken : c.Answered (.error x) part)
      (own : x.isFatal = false) : Settles p (.ok (some c)) (.ok (failed p x)) part
  /-- A call has failed, with an error that ends the batch. -/
  | stopped {c : Commit} {x : Error} {part : List Reply} (broken : c.Answered (.error x) part)
      (fatal : x.isFatal = true) : Settles p (.ok (some c)) (.error x) part

/-- How artifacts are processed, the first of them at place `k`: one after the other to the last, or to the
first one that is stopped. -/
inductive Course [Libraries] (b : Batch) (e : Environment) (supply : Supply) :
    List Plan → Nat → Except Error (List Result) → List Reply → Prop where
  | finished (k : Nat) : Course b e supply [] k (.ok []) []
  | next {p : Plan} {ps : List Plan} {k : Nat} {r : Result} {result : Except Error (List Result)}
      {part rest : List Reply} (first : Settles p (b.prepare e supply p k) (.ok r) part)
      (later : Course b e supply ps (k + 1) result rest) :
      Course b e supply (p :: ps) k (result.map (r :: ·)) (part ++ rest)
  | stopped {p : Plan} {ps : List Plan} {k : Nat} {x : Error} {part : List Reply}
      (first : Settles p (b.prepare e supply p k) (.error x) part) :
      Course b e supply (p :: ps) k (.error x) part

/-- How a batch is run: its environment is asked for, and when that is answered the plans take their course. -/
inductive Conducts [Libraries] (b : Batch) (as : List Artifact) (supply : Supply) :
    Except Error (List Result) → List Reply → Prop where
  | lost (x : Error) : Conducts b as supply (.error x) [⟨.environment b.settings.environment, .error x⟩]
  | found {stored : Option Environment} {result : Except Error (List Result)} {replies : List Reply}
      (course : Course b (stored.getD (.identity b.settings.environment)) supply (b.plans supply as) 0 result
        replies) :
      Conducts b as supply result (⟨.environment b.settings.environment, .ok stored⟩ :: replies)

variable {σ : Type} [Catalog.Backend σ]

theorem performs_commit (c : Commit) :
    Performs (c.made.commit c.path c.recordId c.time : Action σ Identifier) c.Answered := by
  have broken : ∀ {call} (id : Identifier) (stored : Template) (done : List Reply)
      (reply : Except Error call.Answer) (rest : List Reply) (x : Error),
      c.replies id stored = done ++ ⟨call, reply⟩ :: rest →
        c.Answered (.error x) (done ++ [⟨call, .error x⟩]) :=
    fun _ _ _ _ _ x split => .broken split x
  unfold Regenerated.commit
  refine .step (fun x => broken default default [] (.ok default) _ x rfl) fun id =>
    .step (fun x => ?_) fun _ => .step (fun x => ?_) fun _ => .step (fun x => ?_) fun stored =>
      .step (fun x => ?_) fun _ => .pure (.whole id stored)
  · exact broken id default [_] (.ok ()) _ x rfl
  · exact broken id default [_, _] (.ok ()) _ x rfl
  · exact broken id default [_, _, _] (.ok default) _ x rfl
  · exact broken id stored [_, _, _, _] (.ok ()) _ x rfl

theorem performs_settle (p : Plan) (prepared : Except Error (Option Commit)) :
    Performs (settle p prepared : Action σ Result) (Settles p prepared) := by
  match prepared with
  | .error x => exact .pure (.refused x)
  | .ok none => exact .pure .below
  | .ok (some c) =>
    have whole : Performs (c.made.commit c.path c.recordId c.time >>= fun id =>
        Pure.pure (rendered p c.made.outcome id) : Action σ Result)
        fun result part => ∃ answer, c.Answered answer part ∧
          result = answer.map (rendered p c.made.outcome) := by
      refine (performs_commit c).bind (fun x part answered => ⟨.error x, answered, rfl⟩) ?_
      intro id part answered
      refine .pure ⟨.ok id, ?_, rfl⟩
      rwa [List.append_nil]
    -- The handler makes no call, so the replies up to the error are all there are.
    refine whole.tryCatch (fun x => if x.isFatal then .error x else .ok (failed p x)) ?_ ?_ ?_
    · intro x s
      split <;> rfl
    · rintro x part ⟨answer, answered, result⟩
      cases answer with
      | ok id => cases result
      | error y =>
        obtain rfl := Except.error.inj result
        split
        · next fatal => exact .stopped answered fatal
        · next own => exact .spoiled answered (Bool.eq_false_of_not_eq_true own)
    · rintro r part ⟨answer, answered, result⟩
      cases answer with
      | ok id =>
        obtain rfl := Except.ok.inj result
        exact .committed answered
      | error y => cases result

theorem performs_processAll [Libraries] (b : Batch) (e : Environment) (supply : Supply) (ps : List Plan) (k : Nat) :
    Performs (b.processAll e supply ps k : Action σ (List Result)) (b.Course e supply ps k) := by
  induction ps generalizing k with
  | nil => exact .pure (.finished k)
  | cons p ps ih =>
    unfold processAll
    rw [process_eq]
    refine (performs_settle p _).bind (fun x part first => .stopped first) fun r part first => ?_
    refine (ih (k + 1)).bind (fun x rest later => .next first later) fun rs rest later => .pure ?_
    rw [List.append_nil]
    exact .next first later

theorem performs_run [Libraries] (b : Batch) (as : List Artifact) (supply : Supply) :
    Performs (b.run as supply : Action σ (List Result)) (b.Conducts as supply) := by
  have environment : Performs (b.environment (supply.time 0) : Action σ Environment)
      fun result part => (∃ x, result = .error x ∧
          part = [⟨.environment b.settings.environment, .error x⟩]) ∨
        ∃ stored, result = .ok (stored.getD (.identity b.settings.environment)) ∧
          part = [⟨.environment b.settings.environment, .ok stored⟩] :=
    .step (fun x => .inl ⟨x, rfl, rfl⟩) fun stored => .pure (.inr ⟨stored, rfl, rfl⟩)
  unfold run
  refine environment.bind ?_ ?_
  · rintro x part (⟨y, same, rfl⟩ | ⟨stored, same, -⟩)
    · obtain rfl := Except.error.inj same
      exact .lost x
    · cases same
  · rintro e part (⟨y, same, -⟩ | ⟨stored, same, rfl⟩)
    · cases same
    · obtain rfl := Except.ok.inj same
      intro s
      obtain ⟨xs, state, course⟩ := b.performs_processAll _ supply (b.plans supply as) 0 s
      exact ⟨xs, state, .found course⟩

/-! ### Errors that end a batch -/

/-- A reply that ends a batch: the environment cannot be told, or the error is fatal. -/
def Ends (reply : Reply) (x : Error) : Prop :=
  Supervised.error? reply.2 = some x ∧ (reply.1.method = .environment ∨ x.isFatal = true)

/-- What ends a batch is the last of its replies, and its answer. -/
inductive Closes {α : Type} : Except Error α → List Reply → Prop where
  | ok (a : α) {replies : List Reply} (spared : ∀ reply ∈ replies, ∀ x, ¬Ends reply x) :
      Closes (.ok a) replies
  | error {before : List Reply} {last : Reply} {x : Error}
      (spared : ∀ reply ∈ before, ∀ y, ¬Ends reply y) (ends : Ends last x) :
      Closes (.error x) (before ++ [last])

namespace Closes

variable {α β : Type} {result : Except Error α} {replies : List Reply}

theorem after {part : List Reply} (spared : ∀ reply ∈ part, ∀ x, ¬Ends reply x)
    (h : Closes result replies) (f : α → β) : Closes (result.map f) (part ++ replies) := by
  cases h with
  | ok a rest => exact .ok (f a) (List.forall_mem_append.2 ⟨spared, rest⟩)
  | error rest ends =>
    rw [← List.append_assoc]
    exact .error (List.forall_mem_append.2 ⟨spared, rest⟩) ends

theorem error_iff (h : Closes result replies) (x : Error) :
    result = .error x ↔ ∃ reply ∈ replies, Ends reply x := by
  cases h with
  | ok a spared =>
    constructor
    · intro failed
      cases failed
    · rintro ⟨reply, among, ends⟩
      exact absurd ends (spared reply among x)
  | @error before last y spared ends =>
    constructor
    · intro failed
      obtain rfl := Except.error.inj failed
      exact ⟨last, List.mem_append_right _ List.mem_cons_self, ends⟩
    · rintro ⟨reply, among, ends'⟩
      rcases List.mem_append.1 among with earlier | final
      · exact absurd ends' (spared reply earlier x)
      · obtain rfl := List.mem_singleton.1 final
        rw [Option.some.inj (ends.1.symm.trans ends'.1)]

theorem eq_nil_of_ends (h : Closes result replies) {before after : List Reply} {reply : Reply}
    {x : Error} (split : replies = before ++ reply :: after) (ends : Ends reply x) : after = [] := by
  cases h with
  | ok a spared =>
    rw [split] at spared
    exact absurd ends (spared reply (List.mem_append_right _ List.mem_cons_self) x)
  | @error before' last y spared ends' =>
    -- If anything came after the reply, it would stand before the last one.
    rcases List.eq_nil_or_concat after with rfl | ⟨others, final, rfl⟩
    · rfl
    · rw [List.concat_eq_append, ← List.cons_append, ← List.append_assoc] at split
      have same := List.append_inj_left' split rfl
      rw [same] at spared
      exact absurd ends (spared reply (List.mem_append_right _ List.mem_cons_self) x)

end Closes

theorem mem_replies {c : Commit} {id : Identifier} {stored : Template} {reply : Reply}
    (among : reply ∈ c.replies id stored) :
    Supervised.error? reply.2 = none ∧ reply.1.method ≠ .environment := by
  simp only [Commit.replies, List.mem_cons, List.not_mem_nil, or_false] at among
  rcases among with rfl | rfl | rfl | rfl | rfl
  all_goals exact ⟨rfl, fun same => by cases same⟩

theorem not_ends_of_mem_replies {c : Commit} {id : Identifier} {stored : Template} {reply : Reply}
    (among : reply ∈ c.replies id stored) (x : Error) : ¬Ends reply x := by
  rintro ⟨failed, -⟩
  rw [(mem_replies among).1] at failed
  cases failed

theorem not_ends_of_answered {c : Commit} {id : Identifier} {part : List Reply}
    (h : c.Answered (.ok id) part) : ∀ reply ∈ part, ∀ x, ¬Ends reply x := by
  cases h with
  | whole id stored => exact fun reply among => not_ends_of_mem_replies among

/-- A commit that breaks off does so with a last reply, which ends the batch when its error is fatal. -/
theorem exists_last_of_answered {c : Commit} {x : Error} {part : List Reply}
    (h : c.Answered (.error x) part) : ∃ before last, part = before ++ [last] ∧
      (∀ reply ∈ before, ∀ y, ¬Ends reply y) ∧ ∀ y, Ends last y ↔ y = x ∧ x.isFatal = true := by
  cases h with
  | @broken id stored done call reply rest split =>
    have whole : ∀ made ∈ done ++ ⟨call, reply⟩ :: rest, made ∈ c.replies id stored :=
      fun made among => split ▸ among
    refine ⟨done, _, rfl, fun made among => ?_, fun y => ?_⟩
    · exact not_ends_of_mem_replies (whole made (List.mem_append_left _ among))
    · have other : call.method ≠ .environment :=
        (mem_replies (whole ⟨call, reply⟩ (List.mem_append_right _ List.mem_cons_self))).2
      constructor
      · rintro ⟨same, asked | fatal⟩
        · exact absurd asked other
        · obtain rfl := Option.some.inj same
          exact ⟨rfl, fatal⟩
      · rintro ⟨rfl, fatal⟩
        exact ⟨rfl, .inr fatal⟩

theorem Settles.closes {p : Plan} {prepared : Except Error (Option Commit)} {result : Except Error Result}
    {part : List Reply} (h : Settles p prepared result part) : Closes result part := by
  cases h with
  | refused x => exact .ok _ fun reply among => by cases among
  | below => exact .ok _ fun reply among => by cases among
  | committed whole => exact .ok _ (not_ends_of_answered whole)
  | spoiled broken own =>
    obtain ⟨before, last, rfl, spared, ends⟩ := exists_last_of_answered broken
    refine .ok _ (List.forall_mem_append.2 ⟨spared, fun reply final y => ?_⟩)
    obtain rfl := List.mem_singleton.1 final
    rw [ends, own]
    exact fun absurd => by cases absurd.2
  | stopped broken fatal =>
    obtain ⟨before, last, rfl, spared, ends⟩ := exists_last_of_answered broken
    exact .error spared ((ends _).2 ⟨rfl, fatal⟩)

theorem Course.closes [Libraries] {b : Batch} {e : Environment} {supply : Supply} {ps : List Plan} {k : Nat}
    {result : Except Error (List Result)} {replies : List Reply}
    (h : b.Course e supply ps k result replies) : Closes result replies := by
  induction h with
  | finished k => exact .ok [] fun reply among => by cases among
  | @next p ps k r result part rest first later ih =>
    cases first.closes with
    | ok _ spared => exact ih.after spared _
  | stopped first =>
    cases first.closes with
    | error spared ends => exact .error spared ends

theorem Conducts.closes [Libraries] {b : Batch} {as : List Artifact} {supply : Supply}
    {result : Except Error (List Result)} {replies : List Reply}
    (h : b.Conducts as supply result replies) : Closes result replies := by
  cases h with
  | lost x =>
    have none : ∀ reply ∈ ([] : List Reply), ∀ y, ¬Ends reply y := fun reply among => by cases among
    exact .error none ⟨rfl, .inl rfl⟩
  | @found stored result replies course =>
    have asked : ∀ reply ∈ [(⟨.environment b.settings.environment, .ok stored⟩ : Reply)],
        ∀ x, ¬Ends reply x := by
      rintro reply among x ⟨failed, -⟩
      obtain rfl := List.mem_singleton.1 among
      cases failed
    have closes := course.closes.after asked id
    rwa [Except.map_id] at closes

/-- Whatever its catalog does, a batch makes the calls of its course and no others, and each of them is written
down. Its answer is an error exactly when the environment cannot be told or a call of a commit fails with a
fatal error; it is that error, and no call comes after it. -/
theorem run_conducts [Libraries] (b : Batch) (as : List Artifact) (supply : Supply) (s : Supervised σ) :
    ∃ xs, (b.run as supply s).2 = (Catalog.run xs s).2 ∧
      (b.run as supply s).2.log = s.log ++ (Catalog.run xs s).1.map Reply.entry ∧
      b.Conducts as supply (b.run as supply s).1 (Catalog.run xs s).1 ∧
      (∀ x, (b.run as supply s).1 = .error x ↔ ∃ reply ∈ (Catalog.run xs s).1, Ends reply x) ∧
      ∀ before reply after x, (Catalog.run xs s).1 = before ++ reply :: after → Ends reply x →
        after = [] := by
  obtain ⟨xs, state, conducts⟩ := b.performs_run as supply s
  refine ⟨xs, state, ?_, conducts, conducts.closes.error_iff, fun before reply after x => ?_⟩
  · rw [state, log_run]
  · exact conducts.closes.eq_nil_of_ends

end Batch

end Stencil
