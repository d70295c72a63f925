import Mathlib.Logic.Function.Basic
import Stencil.Proofs.Catalog.Contents
import Stencil.Proofs.Catalog.Rows

/-!
# Cards

A catalog has a card for each template that it stores, and under each key at most one. A call that fails leaves
the cards as they are; one that is answered puts, uses or scores one of them, or none (`Cards.turn`). So a
commit leaves every card but that of its own key, whatever becomes of it.
-/

namespace Stencil.Catalog

/-- What a catalog has of a template: columns that change, and what it is read as. -/
class Card (ε : Type) where
  id : ε → Identifier
  effectiveness : ε → Float
  /-- A card says that its template was used that often. -/
  Counts : ε → Nat → Prop
  read? : ε → Option Template
  keep : Float → Float
  store : Template → Instant → ε
  touch : Instant → ε → ε
  use : Instant → ε → ε
  rescore : Float → Instant → ε → ε
  id_store (t : Template) (now : Instant) : id (store t now) = t.id
  id_touch (now : Instant) (x : ε) : id (touch now x) = id x
  id_use (now : Instant) (x : ε) : id (use now x) = id x
  id_rescore (score : Float) (now : Instant) (x : ε) : id (rescore score now x) = id x
  effectiveness_store (t : Template) (now : Instant) : effectiveness (store t now) = keep t.effectiveness
  effectiveness_touch (now : Instant) (x : ε) : effectiveness (touch now x) = effectiveness x
  effectiveness_use (now : Instant) (x : ε) : effectiveness (use now x) = effectiveness x
  effectiveness_rescore (score : Float) (now : Instant) (x : ε) :
    effectiveness (rescore score now x) = keep (clamp score)
  counts_store {t : Template} (unused : t.usage = 0) (now : Instant) : Counts (store t now) 0
  counts_touch {x : ε} {n : Nat} (h : Counts x n) (now : Instant) : Counts (touch now x) n
  /-- A card that counts past its numbers is not read again. -/
  counts_use {x : ε} {n : Nat} {now : Instant} (h : Counts x n) (legible : read? (use now x) ≠ none) :
    Counts (use now x) (n + 1)
  counts_rescore {x : ε} {n : Nat} (h : Counts x n) (score : Float) (now : Instant) :
    Counts (rescore score now x) n
  effectiveness_read {x : ε} {t : Template} (read : read? x = some t) : t.effectiveness = effectiveness x
  usage_read {x : ε} {n : Nat} {t : Template} (h : Counts x n) (read : read? x = some t) : t.usage = .ofNat n
  /-- The time of the score is one that is read already, as that of the use. -/
  legible_rescore {x : ε} {now : Instant} (legible : read? (use now x) ≠ none) (score : Float) :
    read? (rescore score now (use now x)) ≠ none

def Card.put {ε : Type} [Card ε] (t : Template) (now : Instant) (x? : Option ε) : ε :=
  x?.elim (store t now) (touch now)

/-- A call that writes to cards. -/
def Call.marks : Call → Bool
  | .put _ | .recordUsage _ | .updateEffectiveness .. => true
  | _ => false

section

variable {ε : Type} [Card ε]

/-- What a call does to cards, with its reply. -/
inductive Turn (cards : Template.Key → Option ε) (now : Instant) :
    (call : Call) → Except Error call.Answer → (Template.Key → Option ε) → Prop where
  | refused {call : Call} (e : Error) : Turn cards now call (.error e) cards
  | aside (call : Call) (other : call.marks = false) (answer : call.Answer) :
      Turn cards now call (.ok answer) cards
  | put (t : Template) :
      Turn cards now (.put t) (.ok (Card.id (Card.put t now (cards t.key))))
        (Function.update cards t.key (some (Card.put t now (cards t.key))))
  | used {key : Template.Key} {x : ε} (held : cards key = some x) :
      Turn cards now (.recordUsage (Card.id x)) (.ok ())
        (Function.update cards key (some (Card.use now x)))
  | rescored {key : Template.Key} {x : ε} {score : Float} (held : cards key = some x) :
      Turn cards now (.updateEffectiveness (Card.id x) score) (.ok ())
        (Function.update cards key (some (Card.rescore score now x)))

/-- No card has an identifier. -/
def Unclaimed (cards : Template.Key → Option ε) (id : Identifier) : Prop :=
  ∀ key x, cards key = some x → Card.id x ≠ id

end

/-- A backend with a card for each template. -/
class Cards (σ : Type) (ε : outParam Type) [Backend σ] [Card ε] where
  /-- The identifiers and the keys of templates are kept apart. -/
  Sound : σ → Prop
  card? : σ → Template.Key → Option ε
  eq_of_id {s : σ} {key key' : Template.Key} {x x' : ε} (h : Sound s) (held : card? s key = some x)
    (held' : card? s key' = some x') (same : Card.id x = Card.id x') : key = key'
  read_of_get {s s' : σ} {key : Template.Key} {x : ε} {now : Instant} {t : Template} (h : Sound s)
    (held : card? s key = some x) (got : perform (.get (Card.id x)) now s = (.ok t, s')) :
    Card.read? x = some t
  turn {s s' : σ} {call : Call} {now : Instant} {reply : Except Error call.Answer} (h : Sound s)
    (unused : ∀ t, call = .put t → Unclaimed (card? s) t.id) (done : perform call now s = (reply, s')) :
    Sound s' ∧ Turn (card? s) now call reply (card? s')

/-! ### In memory -/

namespace Memory

variable {m : Memory} {t : Template} {id : Identifier}

instance : Card Template where
  id := Template.id
  effectiveness := Template.effectiveness
  Counts t n := t.usage = .ofNat n
  read? := some
  keep score := score
  store t _ := t
  touch now t := { t with updatedAt := now }
  use now t := { t with usage := t.usage + 1, lastUsed := some now }
  rescore score now t := { t with effectiveness := clamp score, updatedAt := now }
  id_store _ _ := rfl
  id_touch _ _ := rfl
  id_use _ _ := rfl
  id_rescore _ _ _ := rfl
  effectiveness_store _ _ := rfl
  effectiveness_touch _ _ := rfl
  effectiveness_use _ _ := rfl
  effectiveness_rescore _ _ _ := rfl
  counts_store unused _ := unused
  counts_touch h _ := h
  counts_use {t n now} h _ := by
    show t.usage + 1 = .ofNat (n + 1)
    rw [h, UInt64.ofNat_add]
    rfl
  counts_rescore h _ _ := h
  effectiveness_read read := Option.some.inj read ▸ rfl
  usage_read h read := Option.some.inj read ▸ h
  legible_rescore _ _ := nofun

theorem Keyed.holder?_eq_some_iff (h : Keyed m) {key : Template.Key} :
    m.holder? key = some t ↔ m.templates.get? t.id = some t ∧ t.key = key := by
  constructor
  · intro held
    exact ⟨h.get?_of_holder? held, (mem_of_holder? held).1⟩
  · rintro ⟨found, rfl⟩
    cases held : m.holder? t.key with
    | none => exact absurd rfl (key_ne_of_holder? held found)
    | some u =>
      have same := h.unique (h.get?_of_holder? held) found (mem_of_holder? held).1
      have found' := h.get?_of_holder? held
      rw [same, found] at found'
      exact found'.symm

/-- A template that is stored, where at most one with its own key is replaced. -/
theorem Keyed.holder?_insert (h : Keyed m) (after : Keyed { m with templates := m.templates.insert t.id t })
    (only : ∀ u, m.templates.get? t.id = some u → u.key = t.key) :
    holder? { m with templates := m.templates.insert t.id t } = Function.update m.holder? t.key (some t) := by
  funext key
  by_cases same : key = t.key
  · rw [same, Function.update_self, after.holder?_eq_some_iff, SortedMap.get?_insert, if_pos rfl]
    exact ⟨rfl, rfl⟩
  · rw [Function.update_of_ne same]
    refine Option.ext fun u => ?_
    rw [after.holder?_eq_some_iff, h.holder?_eq_some_iff, SortedMap.get?_insert]
    split
    · next own =>
      constructor
      · rintro ⟨stored, key'⟩
        obtain rfl := Option.some.inj stored
        exact absurd key'.symm same
      · rintro ⟨found, key'⟩
        exact absurd (key'.symm.trans (only u (own ▸ found))) same
    · rfl

theorem Keyed.holder?_replace (h : Keyed m) (found : m.templates.get? id = some t) (t' : Template)
    (ids : t'.id = t.id) (key : t'.key = t.key) :
    holder? { m with templates := m.templates.insert id t' } = Function.update m.holder? t.key (some t') := by
  have own : t'.id = id := ids.trans (h.own found)
  subst own
  rw [h.holder?_insert (h.replace found ids key) ?_, key]
  intro u before
  rw [found] at before
  rw [← Option.some.inj before, key]

theorem Keyed.turn (h : Keyed m) {m' : Memory} {now : Instant} {call : Call} {reply : Except Error call.Answer}
    (unused : ∀ t, call = .put t → Unclaimed m.holder? t.id) (change : Change m now call reply m') :
    Turn m.holder? now call reply m'.holder? := by
  have held : ∀ {id t}, m.templates.get? id = some t → t.id = id ∧ m.holder? t.key = some t := by
    intro id t found
    have own := h.own found
    exact ⟨own, h.holder?_eq_some_iff.2 ⟨own.symm ▸ found, rfl⟩⟩
  cases change with
  | refused e => exact .refused e
  | asked call asks answer =>
    refine .aside call ?_ answer
    cases call <;> first | rfl | cases asks
  | @touched t old valid stored =>
    have key := (mem_of_holder? stored).1
    have found := h.get?_of_holder? stored
    have moved : m.templates.modify old.id (fun t => { t with updatedAt := now }) =
        m.templates.insert old.id (Card.touch now old) := by
      rw [SortedMap.modify, found]
      rfl
    have turn : Turn m.holder? now (.put t) _ _ := .put t
    rw [stored] at turn
    rw [moved, h.holder?_replace found (Card.touch now old) rfl rfl, key]
    exact turn
  | @stored t valid new =>
    have turn : Turn m.holder? now (.put t) _ _ := .put t
    rw [new] at turn
    rw [h.holder?_insert (h.store new) fun u found => ?_]
    · exact turn
    · exact absurd (held found).1 (unused t rfl u.key u (held found).2)
  | used found =>
    obtain ⟨rfl, stored⟩ := held found
    exact h.holder?_replace found (Card.use now _) rfl rfl ▸ .used stored
  | rescored found =>
    obtain ⟨rfl, stored⟩ := held found
    exact h.holder?_replace found (Card.rescore _ now _) rfl rfl ▸ .rescored stored
  | environment valid => exact .aside (.putEnvironment _) rfl ()
  | recorded new => exact .aside (.appendRecord _) rfl ()

instance : Cards Memory Template where
  Sound := Keyed
  card? := holder?
  eq_of_id {m key key' t t'} h held held' same := by
    obtain ⟨found, rfl⟩ := (Keyed.holder?_eq_some_iff h).1 held
    obtain ⟨found', rfl⟩ := (Keyed.holder?_eq_some_iff h).1 held'
    have ids : t.id = t'.id := same
    rw [ids, found'] at found
    rw [Option.some.inj found]
  read_of_get {m m' key t now t'} h held got := by
    have got : get t.id m = (.ok t', m') := got
    have found := Keyed.get?_of_holder? h held
    rw [get, found] at got
    exact congrArg some (Except.ok.inj (Prod.mk.inj got).1)
  turn h unused done :=
    have change := change_of_perform done
    ⟨Keyed.change h change, Keyed.turn h unused change⟩

end Memory

/-! ### In tables -/

namespace Relational

variable {r : Relational} {row : TemplateRow} {now : Instant}

def row? (r : Relational) (key : Template.Key) : Option TemplateRow :=
  r.templates.find? fun row => row.key == key

/-- The times of a row that can be read are read again, wherever they stand. -/
theorem legible_rescored
    (legible : TemplateRow.read? { row with usage := row.usage.next, lastUsed := some now.stamp } ≠ none)
    (score : Float) :
    TemplateRow.read? { row with
      usage := row.usage.next, lastUsed := some now.stamp, effectiveness := storedScore (clamp score),
      updatedAt := now.stamp } ≠ none := by
  obtain ⟨t, read⟩ := Option.ne_none_iff_exists'.1 legible
  obtain ⟨usage, counted, read⟩ := TemplateRow.read?_eq_some_iff.1 read
  obtain ⟨u, updatedAt, lastUsed, body, -, used, -⟩ := TemplateRow.template_eq_ok_iff.1 read
  obtain ⟨time, stamped⟩ : ∃ time, Instant.ofStamp? now.stamp = some time := by
    cases lastUsed with
    | none => cases used
    | some time => exact ⟨time, Option.some.inj used⟩
  let row' : TemplateRow :=
    { row with
      usage := row.usage.next, lastUsed := some now.stamp, effectiveness := storedScore (clamp score),
      updatedAt := now.stamp }
  have reread : row'.template usage = .ok _ :=
    TemplateRow.template_eq_ok_iff.2 ⟨u, time, lastUsed, body, stamped, used, rfl⟩
  exact Option.ne_none_iff_exists'.2 ⟨_, TemplateRow.read?_eq_some_iff.2 ⟨usage, counted, reread⟩⟩

/-- The row of a template whose document is written. -/
def writtenRow (t : Template) (now : Instant) : TemplateRow :=
  .of t ((encode t.toJson?).toOption.getD .null) now

theorem writtenRow_eq {t : Template} {body : Json} (kept : encode t.toJson? = .ok body) (now : Instant) :
    writtenRow t now = .of t body now := by
  rw [writtenRow, kept]
  rfl

instance : Card TemplateRow where
  id := TemplateRow.id
  effectiveness := TemplateRow.effectiveness
  Counts row n := row.usage = .word n
  read? := TemplateRow.read?
  keep := storedScore
  store := writtenRow
  touch now row := { row with updatedAt := now.stamp }
  use now row := { row with usage := row.usage.next, lastUsed := some now.stamp }
  rescore score now row := { row with effectiveness := storedScore (clamp score), updatedAt := now.stamp }
  id_store _ _ := rfl
  id_touch _ _ := rfl
  id_use _ _ := rfl
  id_rescore _ _ _ := rfl
  effectiveness_store _ _ := rfl
  effectiveness_touch _ _ := rfl
  effectiveness_use _ _ := rfl
  effectiveness_rescore _ _ _ := rfl
  counts_store {t} unused _ := by
    show Counter.ofUsage t.usage = .word 0
    rw [unused]
    rfl
  counts_touch h _ := h
  counts_use {row n now} h legible := by
    show row.usage.next = .word (n + 1 : Nat)
    rw [h]
    refine Counter.next_eq_of_usage? fun outgrown => legible ?_
    show Option.bind row.usage.next.usage? _ = none
    rw [h, outgrown]
    rfl
  counts_rescore h _ _ := h
  effectiveness_read {row t} read := by
    obtain ⟨usage, -, read⟩ := TemplateRow.read?_eq_some_iff.1 read
    exact (TemplateRow.columns_of_template read).1
  usage_read {row n t} h read := by
    obtain ⟨usage, counted, read⟩ := TemplateRow.read?_eq_some_iff.1 read
    have counts : row.usage.usage? = some (.ofNat n) := by
      rw [h]
      rfl
    rw [(TemplateRow.columns_of_template read).2]
    exact Option.some.inj (counted.symm.trans counts)
  legible_rescore legible score := legible_rescored legible score

theorem Filed.row?_eq_some_iff (h : Filed r) {key : Template.Key} :
    r.row? key = some row ↔ row ∈ r.templates ∧ row.key = key := find?_eq_some_iff_of_nodup h.keys

/-- One row is changed, and keeps its key. -/
theorem Filed.row?_map (h : Filed r) (among : row ∈ r.templates) {f : TemplateRow → TemplateRow}
    (keys : ∀ row, (f row).key = row.key) {only : TemplateRow → Prop} [DecidablePred only]
    (unique : ∀ other ∈ r.templates, only other ↔ other = row) :
    row? { r with templates := r.templates.map fun row => if only row then f row else row } =
      Function.update r.row? row.key (some (f row)) := by
  have found : ∀ key, row? { r with templates := r.templates.map fun row => if only row then f row else row } key =
      (r.row? key).map fun row => if only row then f row else row := by
    intro key
    have same : (fun row : TemplateRow => row.key == key) ∘ (fun row => if only row then f row else row) =
        fun row => row.key == key := by
      funext row
      rw [Function.comp_apply]
      split
      · rw [keys]
      · rfl
    rw [row?, List.find?_map, same]
    rfl
  funext key
  rw [found]
  by_cases own : key = row.key
  · rw [own, Function.update_self, h.row?_eq_some_iff.2 ⟨among, rfl⟩, Option.map_some,
      if_pos ((unique row among).2 rfl)]
  · rw [Function.update_of_ne own]
    refine (Option.map_congr fun other held => ?_).trans Option.map_id'
    obtain ⟨stored, named⟩ := h.row?_eq_some_iff.1 held
    exact if_neg fun changed => own (by rw [← named, (unique other stored).1 changed])

theorem Filed.row?_append {t : Template} {body : Json}
    (filed : Filed { r with templates := r.templates ++ [.of t body now] }) :
    row? { r with templates := r.templates ++ [.of t body now] } =
      Function.update r.row? t.key (some (.of t body now)) := by
  funext key
  by_cases same : key = t.key
  · rw [same, Function.update_self, filed.row?_eq_some_iff]
    exact ⟨List.mem_append_right _ List.mem_cons_self, rfl⟩
  · have other : [TemplateRow.of t body now].find? (fun row => row.key == key) = none :=
      List.find?_cons_of_neg (by simpa [TemplateRow.of] using Ne.symm same)
    rw [Function.update_of_ne same, row?, row?, List.find?_append, other, Option.or_none]

theorem Filed.turn (h : Filed r) {r' : Relational} {call : Call} {reply : Except Error call.Answer}
    (change : Change r now call reply r') : Turn r.row? now call reply r'.row? := by
  have named : ∀ {id}, (r.templates.any fun row => row.id == id) = true → ∃ row ∈ r.templates, row.id = id ∧
      ∀ other ∈ r.templates, other.id = id ↔ other = row := by
    intro id any
    obtain ⟨row, among, same⟩ := List.any_eq_true.1 any
    obtain rfl := beq_iff_eq.1 same
    exact ⟨row, among, rfl, fun other held =>
      ⟨fun ids => List.inj_on_of_nodup_map h.ids held among ids, fun same => same ▸ rfl⟩⟩
  cases change with
  | refused e => exact .refused e
  | asked call asks answer =>
    refine .aside call ?_ answer
    cases call <;> first | rfl | cases asks
  | @touched t body old kept held =>
    obtain ⟨among, key⟩ := h.row?_eq_some_iff.1 held
    have stored : r.row? t.key = some old := held
    have turn : Turn r.row? now (.put t) _ _ := .put t
    rw [stored] at turn
    have unique : ∀ other ∈ r.templates, other.key = t.key ↔ other = old := fun other held =>
      ⟨fun same => List.inj_on_of_nodup_map h.keys held among (same.trans key.symm), fun same => same ▸ key⟩
    have moved := h.row?_map among (f := Card.touch now) (fun _ => rfl) unique
    rw [key] at moved
    exact moved ▸ turn
  | @stored t body kept new free =>
    have written := (of_templateDocument kept).2
    have absent : r.row? t.key = none := new
    have row : Card.put t now none = TemplateRow.of t body now := writtenRow_eq written now
    have turn : Turn r.row? now (.put t) _ _ := .put t
    rw [absent, row] at turn
    rw [(h.store written new free).row?_append]
    exact turn
  | used held =>
    obtain ⟨row, among, rfl, unique⟩ := named held
    have moved := h.row?_map among (f := Card.use now) (fun _ => rfl) unique
    exact moved ▸ .used (h.row?_eq_some_iff.2 ⟨among, rfl⟩)
  | @rescored id score number held =>
    obtain ⟨row, among, rfl, unique⟩ := named held
    have moved := h.row?_map among (f := Card.rescore score now) (fun _ => rfl) unique
    exact moved ▸ .rescored (h.row?_eq_some_iff.2 ⟨among, rfl⟩)
  | environment valid => exact .aside (.putEnvironment _) rfl ()
  | recorded kept new => exact .aside (.appendRecord _) rfl ()

instance : Cards Relational TemplateRow where
  Sound := Filed
  card? := row?
  eq_of_id {r key key' row row'} h held held' same := by
    obtain ⟨among, rfl⟩ := (Filed.row?_eq_some_iff h).1 held
    obtain ⟨among', rfl⟩ := (Filed.row?_eq_some_iff h).1 held'
    rw [List.inj_on_of_nodup_map (Filed.ids h) among among' same]
  read_of_get {r r' key row now t} h held got := by
    obtain ⟨among, -⟩ := (Filed.row?_eq_some_iff h).1 held
    have got : (get row.id r).1 = .ok t := congrArg Prod.fst got
    obtain ⟨other, found, read⟩ := get_eq_ok_iff.1 got
    obtain ⟨among', same⟩ := (find?_eq_some_iff_of_nodup (Filed.ids h)).1 found
    rwa [← List.inj_on_of_nodup_map (Filed.ids h) among' among same]
  turn h _ done :=
    have change := change_of_perform done
    ⟨Filed.change h change, Filed.turn h change⟩

end Relational

/-! ### Commits -/

section

variable {σ ε : Type} [Backend σ] [Card ε] [Cards σ ε] {s s' : σ} {c : Commit} {id : Identifier} {now : Instant}

open Cards (card?)

/-- A catalog whose calls are made to fail has the cards of the catalog itself. -/
instance : Cards (Supervised σ) ε where
  Sound s := Cards.Sound s.inner
  card? s := Cards.card? s.inner
  eq_of_id := Cards.eq_of_id
  read_of_get h held got := Cards.read_of_get h held (Faultless.inner_of_perform got)
  turn {s s' call now reply} h unused done := by
    cases scheduled : s.scheduled? call with
    | some e =>
      rw [Faultless.perform_scheduled scheduled] at done
      obtain ⟨rfl, rfl⟩ := Prod.mk.inj done
      exact ⟨h, .refused e⟩
    | none =>
      cases ran : perform call now s.inner with
      | mk answer inner =>
        rw [Faultless.perform_unscheduled scheduled ran] at done
        obtain ⟨rfl, rfl⟩ := Prod.mk.inj done
        exact Cards.turn h unused ran

theorem Turn.of_put {cards cards' : Template.Key → Option ε} {t : Template}
    (turn : Turn cards now (.put t) (.ok id) cards') :
    id = Card.id (Card.put t now (cards t.key)) ∧
      cards' = Function.update cards t.key (some (Card.put t now (cards t.key))) := by
  cases turn with
  | aside _ other => cases other
  | put => exact ⟨rfl, rfl⟩

theorem Turn.of_refused {cards cards' : Template.Key → Option ε} {call : Call} {e : Error}
    (turn : Turn cards now call (.error e) cards') : cards' = cards := by
  cases turn
  rfl

theorem Turn.of_aside {cards cards' : Template.Key → Option ε} {call : Call}
    {reply : Except Error call.Answer} (turn : Turn cards now call reply cards') (other : call.marks = false) :
    cards' = cards := by
  cases turn with
  | refused => rfl
  | aside => rfl
  | put => cases other
  | used => cases other
  | rescored => cases other

theorem Turn.of_used {cards cards' : Template.Key → Option ε}
    (turn : Turn cards now (.recordUsage id) (.ok ()) cards') :
    ∃ key x, cards key = some x ∧ Card.id x = id ∧
      cards' = Function.update cards key (some (Card.use now x)) := by
  cases turn with
  | aside _ other => cases other
  | used held => exact ⟨_, _, held, rfl, rfl⟩

theorem Turn.of_rescored {cards cards' : Template.Key → Option ε} {score : Float}
    (turn : Turn cards now (.updateEffectiveness id score) (.ok ()) cards') :
    ∃ key x, cards key = some x ∧ Card.id x = id ∧
      cards' = Function.update cards key (some (Card.rescore score now x)) := by
  cases turn with
  | aside _ other => cases other
  | rescored held => exact ⟨_, _, held, rfl, rfl⟩

/-- Cards after a call that does not put, and so uses no new identifier. -/
theorem turn_of_ne_put {call : Call} {reply : Except Error call.Answer} (h : Cards.Sound s)
    (other : (call.method == .put) = false) (done : perform call now s = (reply, s')) :
    Cards.Sound s' ∧ Turn (card? s) now call reply (card? s') := by
  refine Cards.turn h (fun t same => ?_) done
  rw [same] at other
  cases other

theorem update_of_named (h : Cards.Sound s) {key : Template.Key} {x : ε} (held : card? s key = some x)
    {cards : Template.Key → Option ε} {f : ε → ε}
    (changed : ∃ key x', card? s key = some x' ∧ Card.id x' = Card.id x ∧
      cards = Function.update (card? s) key (some (f x'))) :
    cards = Function.update (card? s) key (some (f x)) := by
  obtain ⟨key', x', held', named, update⟩ := changed
  obtain rfl := Cards.eq_of_id h held held' named.symm
  obtain rfl := Option.some.inj (held'.symm.trans held)
  exact update

theorem cards_of_used (h : Cards.Sound s) {key : Template.Key} {x : ε} (held : card? s key = some x)
    (counted : perform (.recordUsage (Card.id x)) now s = (.ok (), s')) :
    Cards.Sound s' ∧ card? s' = Function.update (card? s) key (some (Card.use now x)) := by
  obtain ⟨sound, turn⟩ := turn_of_ne_put h rfl counted
  exact ⟨sound, update_of_named h held turn.of_used⟩

theorem cards_of_rescored (h : Cards.Sound s) {key : Template.Key} {x : ε} {score : Float}
    (held : card? s key = some x)
    (updated : perform (.updateEffectiveness (Card.id x) score) now s = (.ok (), s')) :
    Cards.Sound s' ∧ card? s' = Function.update (card? s) key (some (Card.rescore score now x)) := by
  obtain ⟨sound, turn⟩ := turn_of_ne_put h rfl updated
  exact ⟨sound, update_of_named h held turn.of_rescored⟩

/-- A commit that is answered puts, uses and scores one card. -/
theorem cards_of_rated {score : Float} (h : Cards.Sound s) (unused : Unclaimed (card? s) c.made.template.id)
    (rated : Rated c s id score s') :
    let x : ε := Card.put c.made.template c.time (card? s c.key)
    Cards.Sound s' ∧ id = Card.id x ∧
      (∃ t, Card.read? (Card.use c.time x) = some t ∧
        score = blend t.effectiveness t.usage.toFloat c.made.observed) ∧
      card? s' = Function.update (card? s) c.key
        (some (Card.rescore score c.time (Card.use c.time x))) := by
  intro x
  cases rated with
  | @calls s₁ s₂ s₃ s₄ _ t put counted appended got updated =>
    obtain ⟨sound₁, turn⟩ := Cards.turn h (fun t same => Call.put.inj same ▸ unused) put
    obtain ⟨rfl, cards₁⟩ := turn.of_put
    have held₁ : card? s₁ c.key = some x := (congrFun cards₁ c.key).trans (Function.update_self ..)
    obtain ⟨sound₂, cards₂⟩ := cards_of_used sound₁ held₁ counted
    obtain ⟨sound₃, turn⟩ := turn_of_ne_put sound₂ rfl appended
    have cards₃ := turn.of_aside rfl
    have held₃ : card? s₃ c.key = some (Card.use c.time x) := by
      rw [cards₃, cards₂, Function.update_self]
    have own : Card.id (Card.use c.time x) = Card.id x := Card.id_use ..
    have read := Cards.read_of_get sound₃ held₃ (own.symm ▸ got)
    obtain ⟨sound₄, turn⟩ := turn_of_ne_put sound₃ rfl got
    have cards₄ := turn.of_aside rfl
    obtain ⟨sound₅, cards₅⟩ := cards_of_rescored sound₄ (cards₄ ▸ held₃) (own.symm ▸ updated)
    refine ⟨sound₅, rfl, ⟨t, read, rfl⟩, ?_⟩
    rw [cards₅, cards₄, cards₃, cards₂, cards₁, Function.update_idem]
    exact Function.update_idem ..

end

end Stencil.Catalog
