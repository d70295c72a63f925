import Stencil.Catalog.Memory
import Stencil.Catalog.Relational
import Stencil.Proofs.SortedMap

/-!
# What calls do to a catalog

`Change` lists all that a call can do to a catalog, in memory and in tables, with the reply that goes with it, and
`change_perform` says that the list is complete. `of_run` turns what every change keeps into what a whole
run keeps.
-/

namespace Stencil.Catalog

/-- Whether every call of a run meets a condition on it and the state in which it is performed. -/
def Throughout {σ : Type} [Backend σ] (P : σ → Call → Prop) : List (Call × Instant) → σ → Prop
  | [], _ => True
  | (call, now) :: rest, s => P s call ∧ Throughout P rest (perform call now s).2

section

variable {σ : Type} [Backend σ] {P : σ → Call → Prop}

theorem throughout_append (xs ys : List (Call × Instant)) (s : σ) :
    Throughout P (xs ++ ys) s ↔ Throughout P xs s ∧ Throughout P ys (run xs s).2 := by
  induction xs generalizing s with
  | nil => exact (iff_of_eq (true_and _)).symm
  | cons x xs ih =>
    show _ ∧ Throughout P (xs ++ ys) _ ↔ (_ ∧ Throughout P xs _) ∧ _
    rw [ih, and_assoc]
    rfl

theorem exists_of_not_throughout {ys : List (Call × Instant)} {s : σ} (h : ¬Throughout P ys s) :
    ∃ ws call now rest, ys = ws ++ (call, now) :: rest ∧ Throughout P ws s ∧
      ¬P (run ws s).2 call := by
  induction ys generalizing s with
  | nil => exact absurd trivial h
  | cons y ys ih =>
    by_cases first : P s y.1
    · obtain ⟨ws, call, now, rest, rfl, before, broken⟩ := ih fun later => h ⟨first, later⟩
      exact ⟨y :: ws, call, now, rest, rfl, ⟨first, before⟩, broken⟩
    · exact ⟨[], y.1, y.2, ys, rfl, trivial, first⟩

end

/-- A call that only asks. -/
def Call.asks : Call → Bool
  | .get _ | .find _ | .environment _ | .records _ => true
  | _ => false

namespace Memory

variable {m m' : Memory} {now : Instant}

inductive Change (m : Memory) (now : Instant) :
    (call : Call) → Except Error call.Answer → Memory → Prop where
  | refused {call : Call} (e : Error) : Change m now call (.error e) m
  | asked (call : Call) (asks : call.asks = true) (answer : call.Answer) :
      Change m now call (.ok answer) m
  /-- The key of a put template is stored already. -/
  | touched {t old : Template} (valid : t.validate = .ok ()) (held : m.holder? t.key = some old) :
      Change m now (.put t) (.ok old.id)
        { m with templates := m.templates.modify old.id fun t => { t with updatedAt := now } }
  | stored {t : Template} (valid : t.validate = .ok ()) (new : m.holder? t.key = none) :
      Change m now (.put t) (.ok t.id) { m with templates := m.templates.insert t.id t }
  | used {id : Identifier} {t : Template} (found : m.templates.get? id = some t) :
      Change m now (.recordUsage id) (.ok ())
        { m with
          templates := m.templates.insert id { t with usage := t.usage + 1, lastUsed := some now } }
  | rescored {id : Identifier} {score : Float} {t : Template}
      (found : m.templates.get? id = some t) :
      Change m now (.updateEffectiveness id score) (.ok ())
        { m with
          templates := m.templates.insert id
            { t with effectiveness := clamp score, updatedAt := now } }
  | environment {e : Environment} (valid : e.validate = .ok ()) :
      Change m now (.putEnvironment e) (.ok ())
        { m with environments := m.environments.insert e.name e }
  | recorded {r : Record} (new : m.recordIds.contains r.id = false) :
      Change m now (.appendRecord r) (.ok ())
        { m with history := m.history ++ [r], recordIds := m.recordIds.insert r.id () }

theorem change_put (t : Template) (m : Memory) (now : Instant) :
    Change m now (.put t) (put t now m).1 (put t now m).2 := by
  unfold put
  cases valid : t.validate with
  | error e => exact .refused e
  | ok _ =>
    cases held : m.holder? t.key with
    | some old => exact .touched valid held
    | none => exact .stored valid held

theorem change_perform (call : Call) (now : Instant) (m : Memory) :
    Change m now call (perform call now m).1 (perform call now m).2 := by
  cases call with
  | put t => exact change_put t m now
  | get id =>
    show Change m now (.get id) (get id m).1 (get id m).2
    unfold get
    cases m.templates.get? id with
    | none => exact .refused _
    | some t => exact .asked (.get id) rfl t
  | find q => exact .asked _ rfl _
  | recordUsage id =>
    show Change m now (.recordUsage id) (recordUsage id now m).1 (recordUsage id now m).2
    unfold recordUsage change
    cases found : m.templates.get? id with
    | none => exact .refused _
    | some t => exact .used found
  | updateEffectiveness id score =>
    show Change m now (.updateEffectiveness id score) (updateEffectiveness id score now m).1
      (updateEffectiveness id score now m).2
    unfold updateEffectiveness change
    cases found : m.templates.get? id with
    | none => exact .refused _
    | some t => exact .rescored found
  | putEnvironment e =>
    show Change m now (.putEnvironment e) (putEnvironment e m).1 (putEnvironment e m).2
    unfold putEnvironment
    cases valid : e.validate with
    | error e => exact .refused e
    | ok _ => exact .environment valid
  | environment name => exact .asked _ rfl _
  | appendRecord r =>
    show Change m now (.appendRecord r) (appendRecord r m).1 (appendRecord r m).2
    unfold appendRecord
    cases known : m.recordIds.contains r.id with
    | true => exact .refused _
    | false => exact .recorded known
  | records q => exact .asked _ rfl _

theorem change_of_perform {call : Call} {reply : Except Error call.Answer}
    (done : perform call now m = (reply, m')) : Change m now call reply m' := by
  have change := change_perform call now m
  rwa [done] at change

/-- What every change keeps, a run keeps. -/
theorem of_run {Kept : Memory → Prop} {xs : List (Call × Instant)}
    (step : ∀ {m m' call now reply}, (call, now) ∈ xs → Kept m → Change m now call reply m' → Kept m')
    (kept : Kept m) : Kept (run xs m).2 := by
  induction xs generalizing m with
  | nil => exact kept
  | cons x xs ih =>
    refine ih (fun among => step (List.mem_cons_of_mem x among)) ?_
    exact step List.mem_cons_self kept (change_perform x.1 x.2 m)

/-! ### Keys and identifiers -/

theorem mem_of_holder? {key : Template.Key} {t : Template} (held : m.holder? key = some t) :
    t.key = key ∧ ∃ id, m.templates.get? id = some t :=
  ⟨by simpa using List.find?_some held, SortedMap.mem_values (List.mem_of_find?_eq_some held)⟩

theorem key_ne_of_holder? {key : Template.Key} (new : m.holder? key = none) {id : Identifier}
    {t : Template} (found : m.templates.get? id = some t) : t.key ≠ key := by
  simpa using List.find?_eq_none.1 new t (SortedMap.mem_values_of_get? found)

/-- Every template lies under its own identifier, and no two have the same key. -/
structure Keyed (m : Memory) : Prop where
  own : ∀ {id t}, m.templates.get? id = some t → t.id = id
  unique : ∀ {id id' t t'}, m.templates.get? id = some t → m.templates.get? id' = some t' →
    t.key = t'.key → id = id'

theorem keyed_empty : Keyed {} where
  own found := by cases found
  unique found := by cases found

theorem Keyed.of_same (h : Keyed m) {templates : SortedMap Identifier Template}
    (same : ∀ {id t'}, templates.get? id = some t' →
      ∃ t, m.templates.get? id = some t ∧ t'.id = t.id ∧ t'.key = t.key) :
    Keyed { m with templates } where
  own {id t'} found := by
    obtain ⟨t, before, ids, -⟩ := same found
    exact ids.trans (h.own before)
  unique {id id' t t'} first second keys := by
    obtain ⟨u, before, -, key⟩ := same first
    obtain ⟨u', before', -, key'⟩ := same second
    exact h.unique before before' (key.symm.trans (keys.trans key'))

theorem Keyed.replace (h : Keyed m) {id : Identifier} {t t' : Template}
    (found : m.templates.get? id = some t) (ids : t'.id = t.id) (key : t'.key = t.key) :
    Keyed { m with templates := m.templates.insert id t' } := by
  refine h.of_same fun {id' u} after => ?_
  rw [SortedMap.get?_insert] at after
  split at after
  · next same =>
    obtain rfl := Option.some.inj after
    exact ⟨t, same ▸ found, ids, key⟩
  · exact ⟨u, after, rfl, rfl⟩

theorem Keyed.store (h : Keyed m) {t : Template} (new : m.holder? t.key = none) :
    Keyed { m with templates := m.templates.insert t.id t } where
  own {id t'} found := by
    rw [SortedMap.get?_insert] at found
    split at found
    · next same => exact Option.some.inj found ▸ same
    · exact h.own found
  unique {id id' u u'} first second keys := by
    rw [SortedMap.get?_insert] at first second
    split at first
    · next same =>
      split at second
      · next same' => exact same.symm.trans same'
      · exact absurd (Option.some.inj first ▸ keys.symm) (key_ne_of_holder? new second)
    · split at second
      · exact absurd (Option.some.inj second ▸ keys) (key_ne_of_holder? new first)
      · exact h.unique first second keys

theorem Keyed.change {call : Call} {reply : Except Error call.Answer} (h : Keyed m)
    (change : Change m now call reply m') : Keyed m' := by
  cases change with
  | refused e => exact h
  | asked call asks answer => exact h
  | touched valid held =>
    refine h.of_same fun {id u} after => ?_
    rw [SortedMap.get?_modify] at after
    split at after
    · obtain ⟨t, before, rfl⟩ := Option.map_eq_some_iff.1 after
      exact ⟨t, before, rfl, rfl⟩
    · exact ⟨u, after, rfl, rfl⟩
  | stored valid new => exact h.store new
  | used found => exact h.replace found rfl rfl
  | rescored found => exact h.replace found rfl rfl
  | environment valid => exact ⟨h.own, h.unique⟩
  | recorded new => exact ⟨h.own, h.unique⟩

theorem keyed_run (xs : List (Call × Instant)) : Keyed (run xs ({} : Memory)).2 :=
  of_run (fun _ h change => h.change change) keyed_empty

theorem Keyed.get?_of_holder? (h : Keyed m) {key : Template.Key} {t : Template}
    (held : m.holder? key = some t) : m.templates.get? t.id = some t := by
  obtain ⟨-, id, found⟩ := mem_of_holder? held
  rwa [h.own found]

theorem Keyed.nodup_ids (h : Keyed m) : (m.templates.values.map (·.id)).Nodup := by
  have ids : m.templates.values.map (·.id) = m.templates.keys := by
    rw [SortedMap.values, SortedMap.keys, List.map_map]
    exact List.map_congr_left fun e among => h.own (SortedMap.get?_eq_some_iff.2 among)
  rw [ids]
  exact m.templates.nodup_keys

end Memory

/-! ### In tables -/

namespace Relational

variable {r r' : Relational} {now : Instant}

inductive Change (r : Relational) (now : Instant) :
    (call : Call) → Except Error call.Answer → Relational → Prop where
  | refused {call : Call} (e : Error) : Change r now call (.error e) r
  | asked (call : Call) (asks : call.asks = true) (answer : call.Answer) :
      Change r now call (.ok answer) r
  /-- The key of a put template is stored already. -/
  | touched {t : Template} {body : Json} {old : TemplateRow} (kept : templateDocument t = .ok body)
      (held : (r.templates.find? fun row => row.key == t.key) = some old) :
      Change r now (.put t) (.ok old.id)
        { r with
          templates := r.templates.map fun row =>
            if row.key = t.key then { row with updatedAt := now.stamp } else row }
  | stored {t : Template} {body : Json} (kept : templateDocument t = .ok body)
      (new : (r.templates.find? fun row => row.key == t.key) = none)
      (free : (r.templates.any fun row => row.id == t.id) = false) :
      Change r now (.put t) (.ok t.id) { r with templates := r.templates ++ [.of t body now] }
  | used {id : Identifier} (held : (r.templates.any fun row => row.id == id) = true) :
      Change r now (.recordUsage id) (.ok ())
        { r with
          templates := r.templates.map fun row =>
            if row.id = id then { row with usage := row.usage.next, lastUsed := some now.stamp } else row }
  | rescored {id : Identifier} {score : Float} (number : score.isNaN = false)
      (held : (r.templates.any fun row => row.id == id) = true) :
      Change r now (.updateEffectiveness id score) (.ok ())
        { r with
          templates := r.templates.map fun row =>
            if row.id = id then
              { row with effectiveness := storedScore (clamp score), updatedAt := now.stamp }
            else row }
  | environment {e : Environment} (valid : e.validate = .ok ()) :
      Change r now (.putEnvironment e) (.ok ())
        { r with
          environments :=
            (r.environments.filter fun row => row.name ≠ e.name) ++ [⟨e.name, e.toJson.reread⟩] }
  | recorded {record : Record} {row : RecordRow} (kept : RecordRow.of record = .ok row)
      (new : (r.history.any fun row => row.id == record.id) = false) :
      Change r now (.appendRecord record) (.ok ())
        { r with history := r.history ++ [row] }

theorem Change.of_asks {call : Call} (asks : call.asks = true) (reply : Except Error call.Answer) :
    Change r now call reply r := by
  cases reply with
  | error e => exact .refused e
  | ok answer => exact .asked call asks answer

theorem change_put (t : Template) (r : Relational) (now : Instant) :
    Change r now (.put t) (put t now r).1 (put t now r).2 := by
  unfold put
  cases kept : templateDocument t with
  | error e => exact .refused e
  | ok body =>
    cases held : r.templates.find? fun row => row.key == t.key with
    | some old => exact .touched kept held
    | none =>
      dsimp only
      cases taken : r.templates.any fun row => row.id == t.id with
      | true => exact .refused _
      | false => exact .stored kept held taken

theorem get_snd (id : Identifier) (r : Relational) : (get id r).2 = r := by
  unfold get
  cases r.templates.find? fun row => row.id == id with
  | none => rfl
  | some row =>
    dsimp only
    cases row.usage.usage? <;> rfl

theorem find_snd (q : Query) (r : Relational) : (find q r).2 = r := by
  unfold find
  dsimp only
  split
  · rfl
  · split <;> rfl

theorem environment_snd (name : String) (r : Relational) : (environment name r).2 = r := by
  unfold environment
  cases r.environments.find? fun row => row.name == name <;> rfl

theorem change_perform (call : Call) (now : Instant) (r : Relational) :
    Change r now call (perform call now r).1 (perform call now r).2 := by
  cases call with
  | put t => exact change_put t r now
  | get id =>
    have same : (perform (.get id) now r).2 = r := get_snd id r
    exact same.symm ▸ .of_asks rfl _
  | find q =>
    have same : (perform (.find q) now r).2 = r := find_snd q r
    exact same.symm ▸ .of_asks rfl _
  | recordUsage id =>
    show Change r now (.recordUsage id) (recordUsage id now r).1 (recordUsage id now r).2
    unfold recordUsage change
    cases held : r.templates.any fun row => row.id == id with
    | true => exact .used held
    | false => exact .refused _
  | updateEffectiveness id score =>
    show Change r now (.updateEffectiveness id score) (updateEffectiveness id score now r).1
      (updateEffectiveness id score now r).2
    unfold updateEffectiveness change
    cases held : r.templates.any fun row => row.id == id with
    | false =>
      rw [Bool.and_false]
      exact .refused _
    | true =>
      rw [Bool.and_true]
      cases number : score.isNaN with
      | true => exact .refused _
      | false => exact .rescored number held
  | putEnvironment e =>
    show Change r now (.putEnvironment e) (putEnvironment e r).1 (putEnvironment e r).2
    unfold putEnvironment
    cases valid : e.validate with
    | error e => exact .refused e
    | ok _ => exact .environment valid
  | environment name =>
    have same : (perform (.environment name) now r).2 = r := environment_snd name r
    exact same.symm ▸ .of_asks rfl _
  | appendRecord record =>
    show Change r now (.appendRecord record) (appendRecord record r).1 (appendRecord record r).2
    unfold appendRecord
    cases kept : RecordRow.of record with
    | error e => exact .refused e
    | ok row =>
      cases known : r.history.any fun row => row.id == record.id with
      | true => exact .refused _
      | false => exact .recorded kept known
  | records q => exact .of_asks rfl _

theorem change_of_perform {call : Call} {reply : Except Error call.Answer}
    (done : perform call now r = (reply, r')) : Change r now call reply r' := by
  have change := change_perform call now r
  rwa [done] at change

end Relational

end Stencil.Catalog
