import Stencil.Proofs.Catalog.Mirrors
import Stencil.Proofs.Template

/-!
# Catalogs in memory and in tables agree

Performed on an empty catalog in memory and on an empty one in tables, calls give the same replies, up to
the times of the last change and the last use of a template, until one is to be stored whose path is no text, or
a template is put whose last use has a stamp that cannot be read back. `agree_iff` says that nothing else tells
them apart.
-/

namespace Stencil.Catalog

def Reply.untimed (reply : Reply) : Reply := ⟨reply.1, reply.2.map reply.1.untimed⟩

/-- What is asked of a call: no template with a new key under an identifier in use, counts within 63 bits,
scores that are numbers and not negative zero, and documents that can be read back. -/
def Fits (m : Memory) : Call → Prop
  | .put t => t.validate = .ok () → m.holder? t.key = none →
    m.templates.get? t.id = none ∧ TemplateRow.Keeps t
  | .recordUsage id => ∀ t, m.templates.get? id = some t → t.usage.toNat + 1 < 2 ^ 63
  | .updateEffectiveness _ score => score.isNaN = false ∧ score ≠ -0
  | .appendRecord r => ∀ row, RecordRow.of r = .ok row → Record.ofJson? row.body = some r
  | _ => True

/-- A call that stores only what can be written, and no template with a last use that cannot be read back. -/
def Readable (m : Memory) : Call → Prop
  | .put t => t.validate = .ok () →
    t.path.IsText ∧ (m.holder? t.key = none → ∀ time, t.lastUsed = some time → time.Legible)
  | .appendRecord r => r.path.IsText
  | _ => True

theorem fits_of_asks {call : Call} (asks : call.asks = true) (m : Memory) : Fits m call := by
  cases call <;> trivial

theorem readable_of_asks {call : Call} (asks : call.asks = true) (m : Memory) : Readable m call := by
  cases call <;> trivial

/-- A call, and when each of the two catalogs performs it. -/
structure Round where
  call : Call
  memoryTime : Instant
  tablesTime : Instant

def Round.inMemory (x : Round) : Call × Instant := (x.call, x.memoryTime)

def Round.inTables (x : Round) : Call × Instant := (x.call, x.tablesTime)

theorem Relational.Mirrors.round {r : Relational} {m : Memory} (h : r.Mirrors m) {x : Round}
    (fits : Fits m x.call) (readable : Readable m x.call) (legible : x.tablesTime.Legible) :
    Matched x.call (perform x.call x.memoryTime m) (perform x.call x.tablesTime r) := by
  obtain ⟨call, memoryTime, tablesTime⟩ := x
  cases call with
  | put t => exact h.put (fun valid => (readable valid).1) fits (fun valid => (readable valid).2) legible
  | get id => exact h.get id
  | find q => exact h.find q
  | recordUsage id => exact h.recordUsage fits legible
  | updateEffectiveness id score => exact h.updateEffectiveness fits.1 fits.2 legible
  | putEnvironment e => exact h.putEnvironment e
  | environment name => exact h.environment name
  | appendRecord record => exact h.appendRecord readable fits
  | records q => exact h.records q

theorem Relational.Mirrors.rounds {r : Relational} {m : Memory} {xs : List Round} (h : r.Mirrors m)
    (fits : Throughout Fits (xs.map Round.inMemory) m)
    (readable : Throughout Readable (xs.map Round.inMemory) m)
    (legible : ∀ x ∈ xs, x.tablesTime.Legible) :
    (run (xs.map Round.inMemory) m).1.map Reply.untimed =
        (run (xs.map Round.inTables) r).1.map Reply.untimed ∧
      (run (xs.map Round.inTables) r).2.Mirrors (run (xs.map Round.inMemory) m).2 := by
  induction xs generalizing m r with
  | nil => exact ⟨rfl, h⟩
  | cons x xs ih =>
    obtain ⟨reply, states⟩ := h.round fits.1 readable.1 (legible x List.mem_cons_self)
    obtain ⟨replies, last⟩ :=
      ih states fits.2 readable.2 fun y among => legible y (List.mem_cons_of_mem x among)
    refine ⟨?_, last⟩
    have first : Reply.untimed ⟨x.call, (perform x.call x.memoryTime m).1⟩ =
        Reply.untimed ⟨x.call, (perform x.call x.tablesTime r).1⟩ := congrArg (Sigma.mk x.call) reply
    exact congrArg₂ List.cons first replies

/-- Both catalogs, empty at first, give the same replies. -/
def Agree (xs : List Round) : Prop :=
  (run (xs.map Round.inMemory) ({} : Memory)).1.map Reply.untimed =
    (run (xs.map Round.inTables) ({} : Relational)).1.map Reply.untimed

theorem Agree.last {zs : List Round} {ask : Round} (h : Agree (zs ++ [ask])) :
    (perform ask.call ask.memoryTime (run (zs.map Round.inMemory) ({} : Memory)).2).1.map
        ask.call.untimed =
      (perform ask.call ask.tablesTime (run (zs.map Round.inTables) ({} : Relational)).2).1.map
        ask.call.untimed := by
  unfold Agree at h
  rw [List.map_append, List.map_append, run_append, run_append, List.map_append, List.map_append] at h
  have replies := List.append_inj_right' h rfl
  have reply := (List.cons.inj replies).1
  exact eq_of_heq (Sigma.mk.inj reply).2

theorem Relational.get_unreadable {r : Relational} {id : Identifier} {row : TemplateRow} {text : String}
    (found : (r.templates.find? fun row => row.id == id) = some row) (used : row.lastUsed = some text)
    (unreadable : Instant.ofStamp? text = none) : ∃ e, (get id r).1 = .error e := by
  unfold Relational.get
  simp only [found]
  cases counted : row.usage.usage? with
  | none => exact ⟨_, rfl⟩
  | some n =>
    cases read : row.template n with
    | error e => exact ⟨e, by simp only [read]⟩
    | ok t => exact absurd unreadable ((TemplateRow.legible_of_template counted read).lastUsed text used)

theorem Relational.Mirrors.get_stored {r : Relational} {m : Memory} (h : r.Mirrors m) {t : Template}
    {time : Instant} (now now' : Instant) (valid : t.validate = .ok ()) (spelled : t.path.IsText)
    (new : m.holder? t.key = none) (free : m.templates.get? t.id = none) (used : t.lastUsed = some time) (unreadable : ¬time.Legible) :
    (Memory.get t.id (Memory.put t now m).2).1 = .ok t ∧
      ∃ e, (Relational.get t.id (Relational.put t now' r).2).1 = .error e := by
  constructor
  · unfold Memory.put
    rw [valid, new]
    show (Memory.get t.id { m with templates := m.templates.insert t.id t }).1 = .ok t
    unfold Memory.get
    simp only [SortedMap.get?_insert, if_true]
  · have absent : (r.templates.any fun row => row.id == t.id) = false := by
      rw [h.any_id, free]
      rfl
    obtain ⟨body, kept⟩ := exists_encode spelled
    have stored : (Relational.put t now' r).2 = { r with templates := r.templates ++ [.of t body now'] } := by
      unfold Relational.put
      simp only [templateDocument_eq valid, kept, h.find?_key_eq_none new, absent]
      rfl
    have found : ((r.templates ++ [TemplateRow.of t body now']).find? fun row => row.id == t.id) =
        some (.of t body now') := by
      rw [List.find?_append, h.find?_id_eq_none free, Option.none_or]
      exact List.find?_cons_of_pos (beq_self_eq_true t.id)
    have last : (TemplateRow.of t body now').lastUsed = some time.stamp :=
      congrArg (Option.map Instant.stamp) used
    rw [stored]
    exact Relational.get_unreadable found last (not_not.1 unreadable)

theorem not_agree_get {ws : List Round} {t : Template} (memoryTime tablesTime : Instant)
    (states : (run (ws.map Round.inTables) ({} : Relational)).2.Mirrors
      (run (ws.map Round.inMemory) ({} : Memory)).2)
    (valid : t.validate = .ok ()) (spelled : t.path.IsText)
    (new : (run (ws.map Round.inMemory) ({} : Memory)).2.holder? t.key = none)
    (free : (run (ws.map Round.inMemory) ({} : Memory)).2.templates.get? t.id = none) {time : Instant}
    (used : t.lastUsed = some time) (unreadable : ¬time.Legible) :
    ¬Agree (ws ++ [⟨.put t, memoryTime, tablesTime⟩] ++ [⟨.get t.id, memoryTime, tablesTime⟩]) := by
  intro agree
  obtain ⟨answered, e, failed⟩ := states.get_stored memoryTime tablesTime valid spelled new free used unreadable
  have replies := agree.last
  rw [List.map_append, List.map_append, run_append, run_append] at replies
  have same : (Memory.get t.id (Memory.put t memoryTime _).2).1.map Template.untimed =
      (Relational.get t.id (Relational.put t tablesTime _).2).1.map Template.untimed := replies
  rw [answered, failed] at same
  cases same

/-- A template without a document is put in memory only. -/
theorem not_agree_put {ws : List Round} {t : Template} (memoryTime tablesTime : Instant)
    (valid : t.validate = .ok ()) (other : ¬t.path.IsText) :
    ¬Agree (ws ++ [⟨.put t, memoryTime, tablesTime⟩]) := by
  intro agree
  have replies : (Memory.put t memoryTime _).1.map _ = (Relational.put t tablesTime _).1.map _ := agree.last
  rw [Relational.put_of_not_isText valid other, Memory.put, valid] at replies
  dsimp only at replies
  split at replies <;> cases replies

theorem not_agree_appendRecord {ws : List Round} {record : Record} (memoryTime tablesTime : Instant)
    (other : ¬record.path.IsText) : ¬Agree (ws ++ [⟨.appendRecord record, memoryTime, tablesTime⟩]) := by
  intro agree
  have replies : (Memory.appendRecord record _).1.map _ = (Relational.appendRecord record _).1.map _ := agree.last
  rw [Relational.appendRecord_of_not_isText other, Memory.appendRecord] at replies
  split at replies <;> cases replies

/-- A call that is not readable tells the catalogs apart, by its own reply or by that of a question after it. -/
theorem not_agree_of_not_readable {ws : List Round} {x : Round}
    (states : (run (ws.map Round.inTables) ({} : Relational)).2.Mirrors
      (run (ws.map Round.inMemory) ({} : Memory)).2)
    (fits : Fits (run (ws.map Round.inMemory) ({} : Memory)).2 x.call)
    (unreadable : ¬Readable (run (ws.map Round.inMemory) ({} : Memory)).2 x.call) :
    ¬Agree (ws ++ [x]) ∨
      ∃ ask : Round, ask.call.asks = true ∧ ask.tablesTime = x.tablesTime ∧ ¬Agree (ws ++ [x] ++ [ask]) := by
  obtain ⟨call, memoryTime, tablesTime⟩ := x
  cases call with
  | put t =>
    by_cases spelled : t.path.IsText
    · simp only [Readable, spelled, true_and, not_forall] at unreadable
      obtain ⟨valid, new, time, used, unreadable⟩ := unreadable
      exact .inr ⟨⟨.get t.id, memoryTime, tablesTime⟩, rfl, rfl,
        not_agree_get memoryTime tablesTime states valid spelled new (fits valid new).1 used unreadable⟩
    · have valid : t.validate = .ok () := by
        by_contra invalid
        exact unreadable fun valid => absurd valid invalid
      exact .inl (not_agree_put memoryTime tablesTime valid spelled)
  | appendRecord record => exact .inl (not_agree_appendRecord memoryTime tablesTime unreadable)
  | _ => exact absurd trivial unreadable

/-- Calls that fit get the same replies, and so does any call after them that only asks, iff nothing is stored
whose path is no text and no template is put whose last use cannot be read back. -/
theorem agree_iff {xs : List Round} (fits : Throughout Fits (xs.map Round.inMemory) ({} : Memory))
    (legible : ∀ x ∈ xs, x.tablesTime.Legible) :
    (∀ zs, zs <+: xs → Agree zs ∧
        ∀ ask : Round, ask.call.asks = true → ask.tablesTime.Legible → Agree (zs ++ [ask])) ↔
      Throughout Readable (xs.map Round.inMemory) ({} : Memory) := by
  constructor
  · intro agree
    -- Up to the first call that is not readable the catalogs mirror each other.
    by_contra broken
    obtain ⟨before, call, now, rest, split, readable, unreadable⟩ := exists_of_not_throughout broken
    obtain ⟨ws, others, rfl, rfl, tail⟩ := List.map_eq_append_iff.1 split
    obtain ⟨x, ys, rfl, last, rfl⟩ := List.map_eq_cons_iff.1 tail
    obtain ⟨rfl, rfl⟩ := Prod.mk.inj last
    rw [List.map_append, throughout_append] at fits
    obtain ⟨-, states⟩ := Relational.mirrors_empty.rounds fits.1 readable fun y among =>
      legible y (List.mem_append_left _ among)
    obtain ⟨same, asked⟩ := agree (ws ++ [x]) ⟨ys, by simp⟩
    rcases not_agree_of_not_readable states fits.2.1 unreadable with differ | ⟨ask, asks, time, differ⟩
    · exact differ same
    · refine differ (asked ask asks ?_)
      exact time ▸ legible x (List.mem_append_right _ List.mem_cons_self)
  · rintro readable zs ⟨rest, rfl⟩
    rw [List.map_append, throughout_append] at fits readable
    have early : ∀ x ∈ zs, x.tablesTime.Legible := fun x among => legible x (List.mem_append_left _ among)
    refine ⟨(Relational.mirrors_empty.rounds fits.1 readable.1 early).1, fun ask asks read => ?_⟩
    refine (Relational.mirrors_empty.rounds ?_ ?_ ?_).1
    · rw [List.map_append, throughout_append]
      exact ⟨fits.1, fits_of_asks asks _, trivial⟩
    · rw [List.map_append, throughout_append]
      exact ⟨readable.1, readable_of_asks asks _, trivial⟩
    · intro x among
      rcases List.mem_append.1 among with old | last
      · exact early x old
      · exact List.mem_singleton.1 last ▸ read

/-! ### A template that is put unreadable -/

/-- A template that was last used at the beginning of the year 10000. -/
def farFuture : Template := { Template.blank default "a" with lastUsed := some ⟨253402300800, 0⟩ }

def storing : List Round := [⟨.put farFuture, default, default⟩]

theorem fits_storing : Throughout Fits (storing.map Round.inMemory) ({} : Memory) := by
  have bounded : farFuture.usage.toNat < 2 ^ 63 := by decide
  have positive : farFuture.effectiveness ≠ -0 := by
    show (0 : Float) ≠ -0
    decide
  have document : encode farFuture.toJson? = .ok ((farFuture.jsonAt (.str "")).reread) := rfl
  have body : Template.ofJson? (farFuture.jsonAt (.str "")).reread = some farFuture := by decide +kernel
  refine ⟨fun _ _ => ⟨rfl, bounded, positive, fun kept same => ?_⟩, trivial⟩
  rw [document] at same
  exact Except.ok.inj same ▸ body

theorem legible_storing : ∀ x ∈ storing, x.tablesTime.Legible := by
  intro x among
  obtain rfl := List.mem_singleton.1 among
  have year : (default : Instant).year = 1970 := by decide
  refine (Instant.legible_iff (by decide)).2 ?_
  show 0 ≤ (default : Instant).year ∧ (default : Instant).year ≤ 9999
  omega

/-- A catalog in memory answers the template, one in tables does not. -/
theorem not_agree_farFuture :
    Throughout Fits (storing.map Round.inMemory) ({} : Memory) ∧ (∀ x ∈ storing, x.tablesTime.Legible) ∧
      ¬Agree (storing ++ [⟨.get default, default, default⟩]) := by
  refine ⟨fits_storing, legible_storing, ?_⟩
  have start : (run (([] : List Round).map Round.inTables) ({} : Relational)).2.Mirrors
      (run (([] : List Round).map Round.inMemory) ({} : Memory)).2 := Relational.mirrors_empty
  have unreadable : ¬(⟨253402300800, 0⟩ : Instant).Legible := fun legible =>
    absurd ((Instant.legible_iff (by decide)).1 legible) (by decide)
  exact not_agree_get default default start (Template.validate_blank default (by decide)) ⟨"", rfl⟩ rfl rfl rfl
    unreadable

theorem agree_iff_storing :
    Throughout Fits (storing.map Round.inMemory) ({} : Memory) ∧ (∀ x ∈ storing, x.tablesTime.Legible) ∧
      ((∀ zs, zs <+: storing → Agree zs ∧
          ∀ ask : Round, ask.call.asks = true → ask.tablesTime.Legible → Agree (zs ++ [ask])) ↔
        Throughout Readable (storing.map Round.inMemory) ({} : Memory)) :=
  ⟨fits_storing, legible_storing, agree_iff fits_storing legible_storing⟩

end Stencil.Catalog
