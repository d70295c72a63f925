import Mathlib.Data.List.Nodup
import Stencil.Proofs.Catalog.Logs
import Stencil.Proofs.Catalog.Memory
import Stencil.Proofs.Catalog.Mirrors
import Stencil.Proofs.Catalog.Slots
import Stencil.Proofs.Catalog.Soundness

/-!
# What lies in a catalog

A backend `Shows` its states: whether a state is sound, which records are in its history, in the order in
which they came, and how often its templates are counted. A commit adds its record at the end and counts the
template that it goes to once more.
-/

namespace Stencil

namespace SortedMap

variable {κ α : Type} [Ord κ] [Std.LawfulEqOrd κ] [DecidableEq κ]

/-- A map whose values know their keys answers with the value that has the key. -/
theorem find?_values {m : SortedMap κ α} {key : α → κ}
    (own : ∀ {k v}, m.get? k = some v → key v = k) (k : κ) :
    (m.values.find? fun v => key v == k) = m.get? k := by
  cases found : m.values.find? fun v => key v == k with
  | some v =>
    obtain ⟨k', held⟩ := mem_values (List.mem_of_find?_eq_some found)
    have same : key v = k := by simpa using List.find?_some found
    rw [← same, own held, held]
  | none =>
    cases held : m.get? k with
    | none => rfl
    | some v =>
      have other := List.find?_eq_none.1 found v (mem_values_of_get? held)
      exact absurd (own held) (by simpa using other)

end SortedMap

namespace Catalog

/-- A backend of whose states it can be said what lies in them. -/
class Shows (σ : Type) [Backend σ] [Keeps σ] where
  Sound : σ → Prop
  /-- The records of the history are these, in the order in which they came. -/
  Holds : List Record → σ → Prop
  /-- Every template is counted as often as it says for its identifier. -/
  Counts : (Identifier → Nat) → σ → Prop
  exists_holds {s : σ} (sound : Sound s) : ∃ rs, Holds rs s
  exists_ledger {s : σ} {rs : List Record} (sound : Sound s) (holds : Holds rs s) :
    ∃ l, Keeps.Represents l s ∧ l.records = rs ∧ (l.templates.map (·.id)).Nodup
  slot {l : Ledger} {s s' : σ} {c : Commit} {id : Identifier} (h : Keeps.Represents l s)
    (fresh : ∀ t ∈ l.templates, t.id ≠ c.made.template.id) (committed : Committed c s id s') :
    id = l.slot c.made.template
  holds_commit {rs : List Record} {s s' : σ} {c : Commit} {id : Identifier} (holds : Holds rs s)
    (committed : Committed c s id s') : Holds (rs ++ [c.record id]) s'
  counts_commit {l : Ledger} {n : Identifier → Nat} {s s' : σ} {c : Commit} {id : Identifier}
    (h : Keeps.Represents l s) (fresh : ∀ t ∈ l.templates, t.id ≠ c.made.template.id)
    (unused : c.made.template.usage = 0) (none : n c.made.template.id = 0) (counts : Counts n s)
    (committed : Committed c s id s') : Counts (Function.update n id (n id + 1)) s'
  holds_putEnvironment {rs : List Record} {s s' : σ} {e : Environment} {now : Instant}
    (holds : Holds rs s) (put : perform (.putEnvironment e) now s = (.ok (), s')) : Holds rs s'
  counts_putEnvironment {n : Identifier → Nat} {s s' : σ} {e : Environment} {now : Instant}
    (counts : Counts n s) (put : perform (.putEnvironment e) now s = (.ok (), s')) : Counts n s'
  counts_of_vacant {l : Ledger} {s : σ} (h : Keeps.Represents l s) (vacant : l.templates = [])
    (n : Identifier → Nat) : Counts n s
  get_missing {l : Ledger} {s : σ} (h : Keeps.Represents l s) {id : Identifier}
    (other : ∀ t ∈ l.templates, t.id ≠ id) (now : Instant) :
    perform (.get id) now s = (.error (missing id), s)
  usage {n : Identifier → Nat} {s : σ} {id : Identifier} {now : Instant} {t : Template}
    (counts : Counts n s) (got : (perform (.get id) now s).1 = .ok t) : t.usage = .ofNat (n id)

/-! ### In memory -/

namespace Memory

variable {l : Ledger} {m m' : Memory} {c : Commit} {id : Identifier} {now : Instant}
  {n : Identifier → Nat}

theorem Sound.exists_ledger (h : Sound m) :
    ∃ l, Represents l m ∧ l.records = m.history ∧ (l.templates.map (·.id)).Nodup := by
  have keys : (m.templates.values.map Template.key).Nodup := by
    refine List.Nodup.map_on (fun t among t' among' same => ?_) h.nodup_ids.of_map
    obtain ⟨id, found⟩ := SortedMap.mem_values among
    obtain ⟨id', found'⟩ := SortedMap.mem_values among'
    obtain rfl := h.unique found found' same
    exact Option.some.inj (found.symm.trans found')
  let l : Ledger := ⟨m.environments.values, m.templates.values, m.history, keys⟩
  refine ⟨l, ?_, rfl, h.nodup_ids⟩
  exact {
    environments := fun name => (SortedMap.find?_values (fun found => (h.environments found).1) name).symm
    held := fun t among => by
      obtain ⟨id, found⟩ := SortedMap.mem_values among
      exact ⟨t, h.own found ▸ found, .refl t⟩
    known := fun {id t} found =>
      ⟨t, SortedMap.mem_values_of_get? found, h.own found, .refl t⟩
    records := rfl
    ids := h.recorded }

def Counts (n : Identifier → Nat) (m : Memory) : Prop :=
  ∀ id t, m.templates.get? id = some t → t.usage = .ofNat (n id)

/-- A template takes the place of an identifier, with the count that it has. -/
theorem Counts.insert {t : Template} {k : Nat} (h : Counts n m) (usage : t.usage = .ofNat k) (id : Identifier) :
    Counts (Function.update n id k) { m with templates := m.templates.insert id t } := by
  intro id' u found
  rw [SortedMap.get?_insert] at found
  split at found
  · next same =>
    obtain rfl := Option.some.inj found
    rw [← same, Function.update_self, usage]
  · next other =>
    rw [Function.update_of_ne (Ne.symm other)]
    exact h id' u found

theorem Counts.put {t : Template} (h : Counts n m) (unused : t.usage = 0) (none : n t.id = 0)
    (stored : Memory.put t now m = (.ok id, m')) : Counts n m' := by
  have change : Change m now (.put t) (.ok id) m' := change_of_perform stored
  cases change with
  | asked _ asks => cases asks
  | @touched _ old valid held =>
    intro id u found
    rw [SortedMap.get?_modify] at found
    split at found
    · obtain ⟨v, before, rfl⟩ := Option.map_eq_some_iff.1 found
      exact h id v before
    · exact h id u found
  | stored valid new =>
    have usage : t.usage = .ofNat (n t.id) := by
      rw [unused, none]
      rfl
    exact Function.update_eq_self t.id n ▸ h.insert usage t.id

theorem Counts.change {call : Call} {reply : Except Error call.Answer} (h : Counts n m)
    (change : Change m now call reply m') (puts : call.method ≠ .put)
    (counts : call.method ≠ .recordUsage) : Counts n m' := by
  cases change with
  | refused e => exact h
  | asked call asks answer => exact h
  | touched valid held => exact absurd rfl puts
  | stored valid new => exact absurd rfl puts
  | used found => exact absurd rfl counts
  | @rescored id score t found =>
    let rescored : Template := { t with effectiveness := clamp score, updatedAt := now }
    have usage : rescored.usage = .ofNat (n id) := h id t found
    exact Function.update_eq_self id n ▸ h.insert usage id
  | environment valid => exact h
  | recorded new => exact h

theorem Counts.use (h : Counts n m) (counted : Memory.recordUsage id now m = (.ok (), m')) :
    Counts (Function.update n id (n id + 1)) m' := by
  unfold Memory.recordUsage Memory.change at counted
  split at counted
  · next t found =>
    obtain ⟨-, rfl⟩ := Prod.mk.inj counted
    have usage : t.usage + 1 = .ofNat (n id + 1) := by
      rw [h id t found, UInt64.ofNat_add]
      rfl
    exact h.insert usage id
  · cases (Prod.mk.inj counted).1

theorem Counts.commit (h : Counts n m) (unused : c.made.template.usage = 0)
    (none : n c.made.template.id = 0) (committed : Committed c m id m') :
    Counts (Function.update n id (n id + 1)) m' := by
  obtain ⟨put, counted, appended, got, updated⟩ := committed
  have used := (h.put unused none put).use counted
  have kept := used.change (change_of_perform appended) nofun nofun
  have asked := kept.change (change_of_perform got) nofun nofun
  exact asked.change (change_of_perform updated) nofun nofun

theorem history_change {call : Call} {reply : Except Error call.Answer}
    (change : Change m now call reply m') (other : call.method ≠ .appendRecord) :
    m'.history = m.history := by
  cases change with
  | recorded new => exact absurd rfl other
  | _ => rfl

theorem history_commit (committed : Committed c m id m') : m'.history = m.history ++ [c.record id] := by
  obtain ⟨put, counted, appended, got, updated⟩ := committed
  have kept : ∀ {m m' : Memory} {call : Call} {reply : Except Error call.Answer},
      perform call c.time m = (reply, m') → call.method ≠ .appendRecord → m'.history = m.history :=
    fun done other => history_change (change_of_perform done) other
  rw [kept updated nofun, kept got nofun, ← kept put nofun, ← kept counted nofun]
  cases change_of_perform appended with
  | asked _ asks => cases asks
  | recorded new => rfl

instance : Shows Memory where
  Sound := Sound
  Holds rs m := m.history = rs
  Counts := Counts
  exists_holds _ := ⟨_, rfl⟩
  exists_ledger sound holds := by
    subst holds
    exact sound.exists_ledger
  slot h fresh committed := by
    obtain ⟨put, -⟩ := committed
    exact (h.put fresh put).1
  holds_commit holds committed := by rw [history_commit committed, holds]
  counts_commit _ _ unused none counts committed := counts.commit unused none committed
  holds_putEnvironment holds put := (history_change (change_of_perform put) nofun).trans holds
  counts_putEnvironment counts put := counts.change (change_of_perform put) nofun nofun
  counts_of_vacant h vacant n id t found := by
    obtain ⟨u, among, -⟩ := Represents.known h found
    rw [vacant] at among
    cases among
  get_missing {l s} h {id} other now := by
    show Memory.get id s = _
    unfold Memory.get
    cases found : s.templates.get? id with
    | none => rfl
    | some t =>
      obtain ⟨u, among, named, -⟩ := Represents.known h found
      exact absurd named (other u among)
  usage {n s id now t} counts got := by
    have got : (Memory.get id s).1 = .ok t := got
    unfold Memory.get at got
    split at got
    · next u found =>
      obtain rfl := Except.ok.inj got
      exact counts id u found
    · cases got

end Memory

/-! ### In tables -/

theorem Counter.next_eq_of_usage? {n : Nat} (counts : (word n).next.usage? ≠ none) :
    (word n).next = word (n + 1 : Nat) := by
  have next_eq : (word n).next =
      if Decimal.isSignedWord 64 (n + 1) then word (n + 1 : Nat) else outgrown := rfl
  rw [next_eq] at counts ⊢
  split at counts
  · next fits => rw [if_pos fits]
  · exact absurd rfl counts

/-- What is read back from a row has the score of its column, and the count that it is read with. -/
theorem TemplateRow.columns_of_template {row : TemplateRow} {usage : UInt64} {t : Template}
    (read : row.template usage = .ok t) : t.effectiveness = row.effectiveness ∧ t.usage = usage := by
  obtain ⟨u, updatedAt, lastUsed, -, -, -, rfl⟩ := template_eq_ok_iff.1 read
  exact ⟨rfl, rfl⟩

namespace Relational

variable {l : Ledger} {r r' : Relational} {c : Commit} {id : Identifier} {now : Instant}
  {n : Identifier → Nat}

/-- Every row is the written form of something, and can be read back. -/
structure Sound (r : Relational) : Prop where
  templates : ∃ ts : List Template, r.templates.map TemplateRow.face = ts.map rowFace
  ids : (r.templates.map (·.id)).Nodup
  keys : (r.templates.map (·.key)).Nodup
  legible : ∀ row ∈ r.templates, row.Legible
  environments : ∃ es : List Environment, r.environments = es.map fun e => ⟨e.name, e.toJson.reread⟩
  history : ∃ rs : List Record, r.history.map .ok = rs.map RecordRow.of

theorem Sound.exists_ledger (h : Sound r) {rs : List Record} (holds : r.history.map .ok = rs.map RecordRow.of) :
    ∃ l, Represents l r ∧ l.records = rs ∧ (l.templates.map (·.id)).Nodup := by
  obtain ⟨ts, faces⟩ := h.templates
  obtain ⟨es, environments⟩ := h.environments
  have ids : ts.map (·.id) = r.templates.map (·.id) := by
    have mapped := congrArg (List.map Prod.fst) faces
    rwa [List.map_map, List.map_map, eq_comm] at mapped
  have keys : ts.map Template.key = r.templates.map (·.key) := by
    have mapped := congrArg (List.map fun face => face.2.1) faces
    rwa [List.map_map, List.map_map, eq_comm] at mapped
  let l : Ledger := ⟨es, ts, rs, keys ▸ h.keys⟩
  have nodup : (l.templates.map (·.id)).Nodup := ids ▸ h.ids
  refine ⟨l, ⟨⟨faces, nodup, fun name => ?_, holds⟩, h.legible⟩, rfl, nodup⟩
  rw [environments, List.find?_map, Option.map_map]
  rfl

def Counts (n : Identifier → Nat) (r : Relational) : Prop :=
  ∀ row ∈ r.templates, row.usage = .word (n row.id)

theorem Counts.put (h : Counts n r) {t : Template} (unused : t.usage = 0) (none : n t.id = 0)
    (stored : put t now r = (.ok id, r')) : Counts n r' := by
  have stored : perform (.put t) now r = (.ok id, r') := stored
  cases change_of_perform stored with
  | asked _ asks => cases asks
  | touched valid held =>
    intro row' among
    obtain ⟨row, held, rfl⟩ := List.mem_map.1 among
    have counted := h row held
    split
    · exact counted
    · exact counted
  | stored valid new free =>
    intro row among
    rcases List.mem_append.1 among with old | new
    · exact h row old
    · rw [List.mem_singleton.1 new]
      show Counter.ofUsage t.usage = .word (n t.id)
      rw [unused, none]
      rfl

/-- A counter that can be read back did not outgrow its word. -/
theorem Counts.use (h : Counts n r) (counted : recordUsage id now r = (.ok (), r'))
    (legible : ∀ row ∈ r'.templates, row.id = id → row.Legible) :
    Counts (Function.update n id (n id + 1)) r' := by
  have counted : perform (.recordUsage id) now r = (.ok (), r') := counted
  cases change_of_perform counted with
  | asked _ asks => cases asks
  | used held =>
    intro row' among
    have read := legible row' among
    obtain ⟨row, held, rfl⟩ := List.mem_map.1 among
    by_cases named : row.id = id
    · simp only [named, if_true] at read ⊢
      have usage := (read trivial).usage
      rw [h row held, named] at usage ⊢
      rw [Function.update_self]
      exact Counter.next_eq_of_usage? usage
    · simp only [named, if_false]
      rw [Function.update_of_ne named]
      exact h row held

theorem Counts.updateEffectiveness (h : Counts n r) {score : Float}
    (updated : updateEffectiveness id score now r = (.ok (), r')) : Counts n r' := by
  have updated : perform (.updateEffectiveness id score) now r = (.ok (), r') := updated
  cases change_of_perform updated with
  | asked _ asks => cases asks
  | rescored number held =>
    intro row' among
    obtain ⟨row, held, rfl⟩ := List.mem_map.1 among
    by_cases named : row.id = id
    · simp only [named, if_true]
      exact named ▸ h row held
    · simp only [named, if_false]
      exact h row held

theorem Counts.commit (h : Counts n r) (represents : Represents l r)
    (fresh : ∀ t ∈ l.templates, t.id ≠ c.made.template.id) (unused : c.made.template.usage = 0)
    (none : n c.made.template.id = 0) (committed : Committed c r id r') :
    Counts (Function.update n id (n id + 1)) r' := by
  obtain ⟨put, counted, appended, got, updated⟩ := committed
  obtain ⟨-, stores, -⟩ := represents.stores.put represents.legible fresh put
  obtain ⟨stores, -⟩ := stores.change counted fun _ => rfl
  obtain ⟨stores, same⟩ := stores.appendRecord appended
  -- Only the call that reads the template says that its counter is still one.
  obtain ⟨rfl, read⟩ := stores.of_get got
  have used := (h.put unused none put).use counted (same ▸ read)
  have kept : Counts (Function.update n id (n id + 1)) _ := fun row among => used row (same ▸ among)
  exact kept.updateEffectiveness updated

theorem history_change {call : Call} {reply : Except Error call.Answer}
    (change : Change r now call reply r') (other : call.method ≠ .appendRecord) :
    r'.history = r.history := by
  cases change with
  | recorded new => exact absurd rfl other
  | _ => rfl

theorem history_commit (committed : Committed c r id r') :
    ∃ row, RecordRow.of (c.record id) = .ok row ∧ r'.history = r.history ++ [row] := by
  obtain ⟨put, counted, appended, got, updated⟩ := committed
  have kept : ∀ {r r' : Relational} {call : Call} {reply : Except Error call.Answer},
      perform call c.time r = (reply, r') → call.method ≠ .appendRecord → r'.history = r.history :=
    fun done other => history_change (change_of_perform done) other
  rw [kept updated nofun, kept got nofun, ← kept put nofun, ← kept counted nofun]
  cases change_of_perform appended with
  | asked _ asks => cases asks
  | recorded kept new => exact ⟨_, kept, rfl⟩

instance : Shows Relational where
  Sound := Sound
  Holds rs r := r.history.map .ok = rs.map RecordRow.of
  Counts := Counts
  exists_holds sound := sound.history
  exists_ledger sound holds := sound.exists_ledger holds
  slot h fresh committed := by
    obtain ⟨put, -⟩ := committed
    exact (h.stores.put h.legible fresh put).1
  holds_commit holds committed := by
    obtain ⟨row, kept, grown⟩ := history_commit committed
    rw [grown, List.map_append, holds, List.map_append, List.map_singleton, List.map_singleton, kept]
  counts_commit h fresh unused none counts committed := counts.commit h fresh unused none committed
  holds_putEnvironment holds put := history_change (change_of_perform put) nofun ▸ holds
  counts_putEnvironment counts put := by
    cases change_of_perform put with
    | asked _ asks => cases asks
    | environment valid => exact counts
  counts_of_vacant {l s} h vacant n row among := by
    obtain ⟨t, held, -⟩ := Stores.mem (Represents.stores h) among
    rw [vacant] at held
    cases held
  get_missing {l s} h {id} other now := by
    show Relational.get id s = _
    unfold Relational.get
    cases found : s.templates.find? fun row => row.id == id with
    | none => rfl
    | some row =>
      obtain ⟨t, held, face⟩ := Stores.mem (Represents.stores h) (List.mem_of_find?_eq_some found)
      have named : row.id = id := by simpa using List.find?_some found
      exact absurd ((congrArg Prod.fst face).symm.trans named) (other t held)
  usage {n s id now t} counts got := by
    have got : (Relational.get id s).1 = .ok t := got
    unfold Relational.get at got
    split at got
    · cases got
    · next row found =>
      split at got
      · cases got
      · next usage counted =>
        have named : row.id = id := by simpa using List.find?_some found
        rw [counts row (List.mem_of_find?_eq_some found), Counter.usage?, Int.toNat_natCast] at counted
        rw [(TemplateRow.columns_of_template got).2, ← Option.some.inj counted, named]

end Relational

end Catalog

end Stencil
