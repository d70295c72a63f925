import Stencil.Proofs.Catalog.Changes
import Stencil.Proofs.Catalog.Listing
import Stencil.Proofs.Catalog.Rows
import Stencil.Proofs.Decimal.Order
import Stencil.Proofs.Instant

/-!
# A catalog in tables mirrors one in memory

A row mirrors a template when it reads as that template, but perhaps for the times of its last change and
its last use. Catalogs in tables and in memory that mirror each other stay so through every call that fits,
and give the same reply; there is one lemma for each call.
-/

namespace Stencil

namespace Template

/-- A template without all that its columns hold. -/
def bare (t : Template) : Template :=
  { t with effectiveness := 0, usage := 0, updatedAt := default, lastUsed := none }

theorem untimed_eq_of_bare {u t : Template} (same : u.bare = t.bare) {lastUsed : Option Instant}
    (used : lastUsed.isSome = t.lastUsed.isSome) (updatedAt : Instant) :
    { u with effectiveness := t.effectiveness, usage := t.usage, updatedAt, lastUsed }.untimed =
      t.untimed := by
  have times : (lastUsed.map fun _ => default) = t.lastUsed.map fun _ => (default : Instant) := by
    cases lastUsed <;> cases last : t.lastUsed <;> simp_all
  calc { u with effectiveness := t.effectiveness, usage := t.usage, updatedAt, lastUsed }.untimed
      = { u.bare with
          effectiveness := t.effectiveness, usage := t.usage
          lastUsed := lastUsed.map fun _ => default } := rfl
    _ = { t.bare with
          effectiveness := t.effectiveness, usage := t.usage
          lastUsed := t.lastUsed.map fun _ => default } := by rw [same, times]
    _ = t.untimed := rfl

end Template

namespace Catalog

theorem storedScore_of_ne {score : Float} (h : score ≠ -0) : storedScore score = score := by
  unfold storedScore
  split
  · next zero =>
    rcases Decimal.eq_or_eq_of_beq_zero zero with rfl | negative
    · rfl
    · exact absurd negative h
  · rfl

theorem clamp_ne {score : Float} (h : score ≠ -0) : clamp score ≠ -0 := by
  unfold clamp
  split
  · decide
  split
  · decide
  · exact h

theorem Counter.ofUsage_of_lt {n : UInt64} (h : n.toNat < 2 ^ 63) : ofUsage n = word n.toNat := by
  have half : 2 * n.toBitVec.toNat < 2 ^ 64 := by
    show 2 * n.toNat < 2 ^ 64
    omega
  rw [ofUsage, BitVec.toInt_eq_toNat_of_lt half]
  rfl

theorem Counter.next_of_lt {n : UInt64} (h : n.toNat + 1 < 2 ^ 63) :
    next (word n.toNat) = word (n + 1).toNat := by
  have sum : (n + 1).toNat = n.toNat + 1 := by
    rw [UInt64.toNat_add, UInt64.toNat_one]
    exact Nat.mod_eq_of_lt (by omega)
  have fits : Decimal.isSignedWord 64 ((n.toNat : Int) + 1) = true := by
    refine Decimal.isSignedWord_of_isWord ?_
    exact_mod_cast Decimal.isWord_natCast.2 h
  rw [next, if_pos fits, sum]
  rfl

/-! ### Rows -/

namespace TemplateRow

variable {row : TemplateRow} {t : Template}

structure Mirrors (row : TemplateRow) (t : Template) : Prop where
  id : row.id = t.id
  key : row.key = t.key
  effectiveness : row.effectiveness = t.effectiveness
  usage : row.usage = .word t.usage.toNat
  body : ∃ u, Template.ofJson? row.body = some u ∧ u.bare = t.bare
  updatedAt : Instant.ofStamp? row.updatedAt ≠ none
  used : row.lastUsed.isSome = t.lastUsed.isSome
  lastUsed : ∀ text, row.lastUsed = some text → Instant.ofStamp? text ≠ none

theorem Mirrors.usage? (h : row.Mirrors t) : row.usage.usage? = some t.usage := by
  rw [h.usage, Counter.usage?, Int.toNat_natCast, UInt64.ofNat_toNat]

theorem Mirrors.read? (h : row.Mirrors t) : ∃ t', row.read? = some t' ∧ t'.untimed = t.untimed := by
  obtain ⟨u, body, same⟩ := h.body
  obtain ⟨updatedAt, updated⟩ := Option.ne_none_iff_exists'.1 h.updatedAt
  obtain ⟨lastUsed, used⟩ := exists_stamp h.lastUsed
  have isSome : lastUsed.isSome = t.lastUsed.isSome := by
    have mapped := congrArg Option.isSome used
    rw [Option.isSome_map, Option.isSome_map] at mapped
    rw [← mapped, h.used]
  refine ⟨_, read?_eq_some_iff.2 ⟨t.usage, h.usage?, template_eq_ok_iff.2
    ⟨u, updatedAt, lastUsed, body, updated, used, rfl⟩⟩, ?_⟩
  rw [h.effectiveness]
  exact Template.untimed_eq_of_bare same isSome updatedAt

theorem Mirrors.touch (h : row.Mirrors t) {text : String} (legible : Instant.ofStamp? text ≠ none)
    (time : Instant) : { row with updatedAt := text }.Mirrors { t with updatedAt := time } :=
  { h with updatedAt := legible }

theorem Mirrors.use (h : row.Mirrors t) (bounded : t.usage.toNat + 1 < 2 ^ 63) {text : String}
    (legible : Instant.ofStamp? text ≠ none) (time : Instant) :
    { row with usage := row.usage.next, lastUsed := some text }.Mirrors
      { t with usage := t.usage + 1, lastUsed := some time } where
  id := h.id
  key := h.key
  effectiveness := h.effectiveness
  usage := by rw [h.usage, Counter.next_of_lt bounded]
  body := h.body
  updatedAt := h.updatedAt
  used := rfl
  lastUsed _ same := Option.some.inj same ▸ legible

theorem Mirrors.rescore (h : row.Mirrors t) {score : Float} (positive : score ≠ -0) {text : String}
    (legible : Instant.ofStamp? text ≠ none) (time : Instant) :
    { row with effectiveness := storedScore (clamp score), updatedAt := text }.Mirrors
      { t with effectiveness := clamp score, updatedAt := time } :=
  { h with effectiveness := storedScore_of_ne (clamp_ne positive), updatedAt := legible }

/-- A template whose row can be read back. -/
structure Keeps (t : Template) : Prop where
  bounded : t.usage.toNat < 2 ^ 63
  positive : t.effectiveness ≠ -0
  body : ∀ body, encode t.toJson? = .ok body → Template.ofJson? body = some t

theorem mirrors_of (h : Keeps t) {body : Json} (kept : encode t.toJson? = .ok body)
    (used : ∀ time, t.lastUsed = some time → time.Legible) {now : Instant} (legible : now.Legible) :
    (TemplateRow.of t body now).Mirrors t where
  id := rfl
  key := rfl
  effectiveness := storedScore_of_ne h.positive
  usage := Counter.ofUsage_of_lt h.bounded
  body := ⟨t, h.body body kept, rfl⟩
  updatedAt := legible
  used := Option.isSome_map
  lastUsed text same := by
    obtain ⟨time, last, rfl⟩ := Option.map_eq_some_iff.1 same
    exact used time last

end TemplateRow

/-! ### Catalogs -/

/-- An answer without the times of the templates in it. -/
def Call.untimed : (call : Call) → call.Answer → call.Answer
  | .get _, t => t.untimed
  | .find _, ts => ts.map Template.untimed
  | _, answer => answer

namespace Relational

variable {r : Relational} {m : Memory} {now now' : Instant}

structure Mirrors (r : Relational) (m : Memory) : Prop where
  keyed : m.Keyed
  rows : ∀ row ∈ r.templates, ∃ t, m.templates.get? row.id = some t ∧ row.Mirrors t
  held : ∀ {id t}, m.templates.get? id = some t → ∃ row ∈ r.templates, row.id = id
  nodup : (r.templates.map (·.id)).Nodup
  environments : ∀ name, (r.environments.find? fun row => row.name == name).map (·.body) =
    (m.environments.get? name).map (·.toJson.reread)
  history : r.history.map .ok = m.history.map RecordRow.of
  readable : ∀ record ∈ m.history, ∀ row, RecordRow.of record = .ok row →
    Record.ofJson? row.body = some record
  ids : ∀ id, m.recordIds.contains id = true ↔ ∃ record ∈ m.history, record.id = id

/-- Two performances of a call that give the same reply and leave catalogs that mirror each other. -/
structure Matched (call : Call) (x : Except Error call.Answer × Memory)
    (y : Except Error call.Answer × Relational) : Prop where
  reply : x.1.map call.untimed = y.1.map call.untimed
  states : y.2.Mirrors x.2

theorem mirrors_empty : Mirrors {} {} where
  keyed := Memory.keyed_empty
  rows _ among := by cases among
  held found := by cases found
  nodup := List.nodup_nil
  environments _ := rfl
  history := rfl
  readable _ among := by cases among
  ids id := by
    refine ⟨fun known => ?_, fun ⟨record, among, _⟩ => ?_⟩
    · cases known
    · cases among

theorem Mirrors.exists_row (h : r.Mirrors m) {id : Identifier} {t : Template}
    (found : m.templates.get? id = some t) :
    ∃ row, (r.templates.find? fun row => row.id == id) = some row ∧ row.Mirrors t := by
  obtain ⟨row, among, named⟩ := h.held found
  cases first : r.templates.find? fun row => row.id == id with
  | none => exact absurd named (by simpa using List.find?_eq_none.1 first row among)
  | some row' =>
    have named' : row'.id = id := by simpa using List.find?_some first
    obtain ⟨t', found', mirrors⟩ := h.rows row' (List.mem_of_find?_eq_some first)
    rw [named', found] at found'
    obtain rfl := Option.some.inj found'
    exact ⟨row', rfl, mirrors⟩

theorem Mirrors.find?_id_eq_none (h : r.Mirrors m) {id : Identifier}
    (missing : m.templates.get? id = none) : (r.templates.find? fun row => row.id == id) = none := by
  refine List.find?_eq_none.2 fun row among named => ?_
  obtain ⟨t, found, -⟩ := h.rows row among
  rw [beq_iff_eq.1 named, missing] at found
  cases found

theorem Mirrors.any_id (h : r.Mirrors m) (id : Identifier) :
    (r.templates.any fun row => row.id == id) = (m.templates.get? id).isSome := by
  rw [← List.isSome_find?]
  cases found : m.templates.get? id with
  | none => rw [h.find?_id_eq_none found]; rfl
  | some t =>
    obtain ⟨row, first, -⟩ := h.exists_row found
    rw [first]
    rfl

theorem Mirrors.key_iff (h : r.Mirrors m) {key : Template.Key} {old : Template}
    (held : m.holder? key = some old) {row : TemplateRow} (among : row ∈ r.templates) :
    row.key = key ↔ row.id = old.id := by
  obtain ⟨t, found, mirrors⟩ := h.rows row among
  have stored := h.keyed.get?_of_holder? held
  have same : old.key = key := (Memory.mem_of_holder? held).1
  constructor
  · intro key'
    exact h.keyed.unique found stored (mirrors.key.symm.trans (key'.trans same.symm))
  · intro named
    rw [named, stored] at found
    rw [mirrors.key, ← Option.some.inj found, same]

theorem Mirrors.exists_holder (h : r.Mirrors m) {key : Template.Key} {old : Template}
    (held : m.holder? key = some old) :
    ∃ row, (r.templates.find? fun row => row.key == key) = some row ∧ row.id = old.id := by
  obtain ⟨row, among, named⟩ := h.held (h.keyed.get?_of_holder? held)
  have same := (h.key_iff held among).2 named
  cases first : r.templates.find? fun row => row.key == key with
  | none => exact absurd same (by simpa using List.find?_eq_none.1 first row among)
  | some row' =>
    have key' : row'.key = key := by simpa using List.find?_some first
    exact ⟨row', rfl, (h.key_iff held (List.mem_of_find?_eq_some first)).1 key'⟩

theorem Mirrors.find?_key_eq_none (h : r.Mirrors m) {key : Template.Key}
    (new : m.holder? key = none) : (r.templates.find? fun row => row.key == key) = none := by
  refine List.find?_eq_none.2 fun row among same => ?_
  obtain ⟨t, found, mirrors⟩ := h.rows row among
  exact Memory.key_ne_of_holder? new found (mirrors.key.symm.trans (beq_iff_eq.1 same))

/-! ### Templates -/

theorem Mirrors.map (h : r.Mirrors m) {f : TemplateRow → TemplateRow}
    {templates : SortedMap Identifier Template} (keyed : Memory.Keyed { m with templates })
    (ids : ∀ row, (f row).id = row.id)
    (known : ∀ {id t'}, templates.get? id = some t' → ∃ t, m.templates.get? id = some t)
    (mirrors : ∀ row ∈ r.templates, ∀ {t}, m.templates.get? row.id = some t → row.Mirrors t →
      ∃ t', templates.get? row.id = some t' ∧ (f row).Mirrors t') :
    Mirrors { r with templates := r.templates.map f } { m with templates } where
  keyed := keyed
  rows row' among := by
    obtain ⟨row, held, rfl⟩ := List.mem_map.1 among
    obtain ⟨t, found, same⟩ := h.rows row held
    rw [ids]
    exact mirrors row held found same
  held {id t'} found := by
    obtain ⟨t, before⟩ := known found
    obtain ⟨row, among, named⟩ := h.held before
    exact ⟨f row, List.mem_map_of_mem among, (ids row).trans named⟩
  nodup := by
    rw [List.map_map]
    exact (List.map_congr_left fun row _ => ids row).symm ▸ h.nodup
  environments := h.environments
  history := h.history
  readable := h.readable
  ids := h.ids

theorem Mirrors.store (h : r.Mirrors m) {t : Template} (new : m.holder? t.key = none)
    (free : m.templates.get? t.id = none) {row : TemplateRow} (mirrors : row.Mirrors t) :
    Mirrors { r with templates := r.templates ++ [row] }
      { m with templates := m.templates.insert t.id t } where
  keyed := h.keyed.store new
  rows row among := by
    rw [SortedMap.get?_insert]
    rcases List.mem_append.1 among with old | last
    · obtain ⟨u, found, same⟩ := h.rows row old
      have other : t.id ≠ row.id := by
        intro named
        rw [← named, free] at found
        cases found
      exact ⟨u, by rw [if_neg other, found], same⟩
    · obtain rfl := List.mem_singleton.1 last
      exact ⟨t, if_pos mirrors.id.symm, mirrors⟩
  held {id u} found := by
    rw [SortedMap.get?_insert] at found
    split at found
    · next named => exact ⟨_, List.mem_append_right _ List.mem_cons_self, mirrors.id.trans named⟩
    · obtain ⟨row, among, named⟩ := h.held found
      exact ⟨row, List.mem_append_left _ among, named⟩
  nodup := by
    rw [List.map_append, List.map_singleton, ← List.concat_eq_append]
    refine List.Nodup.concat (fun among => ?_) h.nodup
    obtain ⟨old, held, named⟩ := List.mem_map.1 among
    obtain ⟨u, found, -⟩ := h.rows old held
    rw [named, mirrors.id, free] at found
    cases found
  environments := h.environments
  history := h.history
  readable := h.readable
  ids := h.ids

theorem Mirrors.put (h : r.Mirrors m) {t : Template} (spelled : t.validate = .ok () → t.path.IsText)
    (fits : t.validate = .ok () → m.holder? t.key = none →
      m.templates.get? t.id = none ∧ TemplateRow.Keeps t)
    (used : t.validate = .ok () → m.holder? t.key = none → ∀ time, t.lastUsed = some time → time.Legible)
    (legible : now'.Legible) : Matched (.put t) (Memory.put t now m) (put t now' r) := by
  have keyed := h.keyed.change (Memory.change_put t m now)
  unfold Memory.put at keyed ⊢
  unfold Relational.put
  cases valid : t.validate with
  | error e =>
    rw [templateDocument_of_validate valid]
    exact ⟨rfl, h⟩
  | ok _ =>
    obtain ⟨body, kept⟩ := exists_encode (spelled valid)
    rw [templateDocument_eq valid, kept]
    rw [valid] at keyed
    cases held : m.holder? t.key with
    | none =>
      obtain ⟨free, keeps⟩ := fits valid held
      have absent : (r.templates.any fun row => row.id == t.id) = false := by rw [h.any_id, free]; rfl
      simp only [h.find?_key_eq_none held, absent]
      exact ⟨rfl, h.store held free (TemplateRow.mirrors_of keeps kept (used valid held) legible)⟩
    | some old =>
      simp only [held] at keyed
      obtain ⟨row, first, named⟩ := h.exists_holder held
      simp only [first, named]
      refine ⟨rfl, h.map keyed (fun row => ?_) (fun {id t'} found => ?_) fun row among u found mirrors => ?_⟩
      · split <;> rfl
      · rw [SortedMap.get?_modify] at found
        split at found
        · obtain ⟨u, before, -⟩ := Option.map_eq_some_iff.1 found
          exact ⟨u, before⟩
        · exact ⟨t', found⟩
      · rw [SortedMap.get?_modify, found]
        by_cases touched : row.key = t.key
        · rw [if_pos ((h.key_iff held among).1 touched).symm, if_pos touched]
          exact ⟨_, rfl, mirrors.touch legible now⟩
        · rw [if_neg fun named => touched ((h.key_iff held among).2 named.symm), if_neg touched]
          exact ⟨u, rfl, mirrors⟩

theorem Mirrors.change (h : r.Mirrors m) {id : Identifier} {f : Template → Template}
    {g : TemplateRow → TemplateRow} (keyed : Memory.Keyed (Memory.change id f m).2)
    (ids : ∀ row, (g row).id = row.id)
    (mirrors : ∀ {row t}, m.templates.get? id = some t → row.Mirrors t → (g row).Mirrors (f t)) :
    (Memory.change id f m).1 = (change id g r).1 ∧ (change id g r).2.Mirrors (Memory.change id f m).2 := by
  unfold Memory.change at keyed ⊢
  unfold Relational.change
  rw [h.any_id]
  cases found : m.templates.get? id with
  | none => exact ⟨rfl, h⟩
  | some t =>
    rw [found] at keyed
    refine ⟨rfl, h.map keyed (fun row => ?_) (fun {id' t'} after => ?_) fun row among u before same => ?_⟩
    · split
      · exact ids row
      · rfl
    · rw [SortedMap.get?_insert] at after
      split at after
      · next here => exact ⟨t, here ▸ found⟩
      · exact ⟨t', after⟩
    · rw [SortedMap.get?_insert]
      by_cases here : row.id = id
      · rw [here, found] at before
        obtain rfl := Option.some.inj before
        rw [if_pos here.symm, if_pos here]
        exact ⟨f t, rfl, mirrors found same⟩
      · rw [if_neg (Ne.symm here), if_neg here]
        exact ⟨u, before, same⟩

theorem Mirrors.recordUsage (h : r.Mirrors m) {id : Identifier}
    (bounded : ∀ t, m.templates.get? id = some t → t.usage.toNat + 1 < 2 ^ 63)
    (legible : now'.Legible) :
    Matched (.recordUsage id) (Memory.recordUsage id now m) (recordUsage id now' r) := by
  have keyed := h.keyed.change (Memory.change_perform (.recordUsage id) now m)
  obtain ⟨reply, states⟩ := h.change keyed (g := fun row =>
    { row with usage := row.usage.next, lastUsed := some now'.stamp }) (fun _ => rfl)
    fun found mirrors => mirrors.use (bounded _ found) legible now
  exact ⟨congrArg _ reply, states⟩

theorem Mirrors.updateEffectiveness (h : r.Mirrors m) {id : Identifier} {score : Float}
    (number : score.isNaN = false) (positive : score ≠ -0) (legible : now'.Legible) :
    Matched (.updateEffectiveness id score) (Memory.updateEffectiveness id score now m)
      (updateEffectiveness id score now' r) := by
  have keyed := h.keyed.change (Memory.change_perform (.updateEffectiveness id score) now m)
  obtain ⟨reply, states⟩ := h.change keyed (g := fun row =>
    { row with effectiveness := storedScore (clamp score), updatedAt := now'.stamp }) (fun _ => rfl)
    fun _ mirrors => mirrors.rescore positive legible now
  have same : Relational.updateEffectiveness id score now' r = Relational.change id (fun row =>
      { row with effectiveness := storedScore (clamp score), updatedAt := now'.stamp }) r := by
    rw [Relational.updateEffectiveness, number]
    rfl
  rw [same]
  exact ⟨congrArg _ reply, states⟩

theorem Mirrors.get (h : r.Mirrors m) (id : Identifier) :
    Matched (.get id) (Memory.get id m) (get id r) := by
  cases found : m.templates.get? id with
  | none =>
    unfold Memory.get Relational.get
    rw [found, h.find?_id_eq_none found]
    exact ⟨rfl, h⟩
  | some t =>
    obtain ⟨row, first, mirrors⟩ := h.exists_row found
    obtain ⟨t', read, same⟩ := mirrors.read?
    have answered : Relational.get id r = (.ok t', r) :=
      Prod.ext (get_eq_ok_iff.2 ⟨row, first, read⟩) (get_snd id r)
    unfold Memory.get
    rw [answered, found]
    exact ⟨congrArg Except.ok same.symm, h⟩

theorem nodup_ids_untimed (keyed : m.Keyed) (p : Template → Bool) :
    (((m.templates.values.filter p).map Template.untimed).map (·.id)).Nodup := by
  rw [List.map_map]
  exact keyed.nodup_ids.sublist (List.filter_sublist.map _)

theorem Mirrors.perm (h : r.Mirrors m) (q : Query) {value : TemplateRow → Template}
    (reads : ∀ row ∈ r.templates, ∃ t, m.templates.get? row.id = some t ∧ row.Mirrors t ∧
      (value row).untimed = t.untimed) :
    ((((r.templates.filter fun row => q.category.all (row.key.category == ·)).map value).filter
      q.accepts).map Template.untimed).Perm ((m.templates.values.filter q.accepts).map Template.untimed) := by
  have ids : r.templates.map (Template.id ∘ value) = r.templates.map (·.id) := by
    refine List.map_congr_left fun row among => ?_
    obtain ⟨t, -, mirrors, same⟩ := reads row among
    exact (congrArg Template.id same).trans mirrors.id.symm
  refine (List.perm_ext_iff_of_nodup ?_ ?_).2 fun u => ⟨fun among => ?_, fun among => ?_⟩
  · refine List.Nodup.of_map Template.id ?_
    rw [List.map_map]
    refine List.Nodup.sublist (List.filter_sublist.map _) ?_
    show ((List.map value _).map Template.id).Nodup
    rw [List.map_map]
    exact (ids ▸ h.nodup).sublist (List.filter_sublist.map _)
  · exact List.Nodup.of_map Template.id (nodup_ids_untimed h.keyed q.accepts)
  · obtain ⟨t', chosen, rfl⟩ := List.mem_map.1 among
    obtain ⟨read, accepted⟩ := List.mem_filter.1 chosen
    obtain ⟨row, held, rfl⟩ := List.mem_map.1 read
    obtain ⟨t, found, -, same⟩ := reads row (List.mem_of_mem_filter held)
    rw [← accepts_untimed, same, accepts_untimed] at accepted
    rw [same]
    exact List.mem_map_of_mem (List.mem_filter.2 ⟨SortedMap.mem_values_of_get? found, accepted⟩)
  · obtain ⟨t, chosen, rfl⟩ := List.mem_map.1 among
    obtain ⟨stored, accepted⟩ := List.mem_filter.1 chosen
    obtain ⟨id, found⟩ := SortedMap.mem_values stored
    obtain ⟨row, held, rfl⟩ := h.held found
    obtain ⟨t', found', mirrors, same⟩ := reads row held
    rw [found] at found'
    obtain rfl := Option.some.inj found'
    -- The column is the category that the query asks for.
    have wanted : q.category.all (row.key.category == ·) = true := by
      rw [mirrors.key]
      exact (Bool.and_eq_true_iff.1 (Bool.and_eq_true_iff.1 accepted).1).1
    rw [← same]
    refine List.mem_map_of_mem (List.mem_filter.2 ⟨?_, ?_⟩)
    · exact List.mem_map_of_mem (List.mem_filter.2 ⟨held, wanted⟩)
    · rw [← accepts_untimed, same, accepts_untimed, accepted]

theorem Mirrors.find (h : r.Mirrors m) (q : Query) :
    Matched (.find q) (Memory.find q m) (find q r) := by
  have readable : ∀ row ∈ r.templates, ∃ t', row.read? = some t' ∧
      ∃ t, m.templates.get? row.id = some t ∧ row.Mirrors t ∧ t'.untimed = t.untimed := by
    intro row among
    obtain ⟨t, found, mirrors⟩ := h.rows row among
    obtain ⟨t', read, same⟩ := mirrors.read?
    exact ⟨t', read, t, found, mirrors, same⟩
  choose! value reads mirrored using readable
  let rows := r.templates.filter fun row => q.category.all (row.key.category == ·)
  have templates : rows.map TemplateRow.read? = (rows.map value).map some := by
    rw [List.map_map]
    exact List.map_congr_left fun row held => reads row (List.mem_of_mem_filter held)
  have answered : Relational.find q r = (.ok (listed ((rows.map value).filter q.accepts)), r) :=
    Prod.ext (find_eq_ok_iff.2 ⟨rows.map value, templates, rfl⟩) (find_snd q r)
  refine ⟨?_, by rw [answered]; exact h⟩
  have perm := h.perm q mirrored
  have nodup := nodup_ids_untimed h.keyed q.accepts
  rw [answered]
  show Except.ok (List.map Template.untimed (listed _)) = Except.ok (List.map Template.untimed (listed _))
  rw [map_untimed_listed, map_untimed_listed, listed_eq_of_perm perm.symm nodup]

/-! ### Environments and records -/

theorem Mirrors.putEnvironment (h : r.Mirrors m) (e : Environment) :
    Matched (.putEnvironment e) (Memory.putEnvironment e m) (putEnvironment e r) := by
  unfold Memory.putEnvironment Relational.putEnvironment
  cases valid : e.validate with
  | error err => exact ⟨rfl, h⟩
  | ok _ =>
    refine ⟨rfl, { h with keyed := ⟨h.keyed.own, h.keyed.unique⟩, environments := fun name => ?_ }⟩
    show ((_ ++ [_]).find? _).map _ = ((m.environments.insert e.name e).get? name).map _
    rw [find?_replaced r.environments ⟨e.name, e.toJson.reread⟩ name, SortedMap.get?_insert]
    split
    · rfl
    · exact h.environments name

theorem Mirrors.environment (h : r.Mirrors m) (name : String) :
    Matched (.environment name) (.ok (m.environments.get? name), m) (environment name r) := by
  rw [environment_of_body (h.environments name)]
  exact ⟨rfl, h⟩

theorem Mirrors.appendRecord (h : r.Mirrors m) {record : Record} (spelled : record.path.IsText)
    (readable : ∀ row, RecordRow.of record = .ok row → Record.ofJson? row.body = some record) :
    Matched (.appendRecord record) (Memory.appendRecord record m) (appendRecord record r) := by
  have repeats : (r.history.any fun row => row.id == record.id) = m.recordIds.contains record.id := by
    rw [Bool.eq_iff_iff, List.any_eq_true, h.ids]
    constructor
    · rintro ⟨row, among, same⟩
      obtain ⟨old, held, kept⟩ := exists_record h.history among
      exact ⟨old, held, (RecordRow.id_of kept).symm.trans (beq_iff_eq.1 same)⟩
    · rintro ⟨old, held, same⟩
      obtain ⟨row, among, id⟩ := exists_recordRow h.history held
      exact ⟨row, among, beq_iff_eq.2 (id.trans same)⟩
  obtain ⟨row, kept⟩ := RecordRow.exists_of_isText spelled
  unfold Memory.appendRecord Relational.appendRecord
  simp only [kept]
  rw [repeats]
  split
  · exact ⟨rfl, h⟩
  · refine ⟨rfl, { h with
      keyed := ⟨h.keyed.own, h.keyed.unique⟩, history := ?_, readable := ?_, ids := ?_ }⟩
    · show (r.history ++ [row]).map .ok = (m.history ++ [record]).map RecordRow.of
      rw [List.map_append, List.map_append, h.history, List.map_singleton, List.map_singleton, kept]
    · intro old among
      rcases List.mem_append.1 among with held | last
      · exact h.readable old held
      · exact List.mem_singleton.1 last ▸ readable
    · exact SortedMap.contains_insert_iff h.ids record ()

theorem map_decode_filter {rows : List RecordRow} {rs : List Record} (history : rows.map .ok = rs.map RecordRow.of)
    (readable : ∀ record ∈ rs, ∀ row, RecordRow.of record = .ok row → Record.ofJson? row.body = some record)
    (q : RecordQuery) :
    (rows.filter fun row =>
        q.template.all (row.template == ·) && q.environment.all (row.environment == ·)).map
        (fun row => decode Record.ofJson? row.body) =
      (rs.filter q.accepts).map .ok := by
  induction rs generalizing rows with
  | nil =>
    obtain rfl := List.map_eq_nil_iff.1 history
    rfl
  | cons record rs ih =>
    obtain ⟨row, rows, rfl, kept, others⟩ := List.map_eq_cons_iff.1 history
    have read := decode_eq_ok_iff.2 (readable record List.mem_cons_self row kept.symm)
    have later := ih others fun old among => readable old (List.mem_cons_of_mem record among)
    have columns : (q.template.all (row.template == ·) && q.environment.all (row.environment == ·)) =
        q.accepts record := by
      obtain ⟨j, -, rfl⟩ := RecordRow.exists_of kept.symm
      rfl
    rw [List.filter_cons, List.filter_cons, columns]
    split
    · rw [List.map_cons, List.map_cons, read, later]
    · exact later

/-- Records that can be read back are found in their rows. -/
theorem records_of_history {rs : List Record} (history : r.history.map .ok = rs.map RecordRow.of)
    (readable : ∀ record ∈ rs, ∀ row, RecordRow.of record = .ok row → Record.ofJson? row.body = some record)
    (q : RecordQuery) : records q r = (.ok (chronicle (rs.filter q.accepts)), r) := by
  have read := mapM_eq_ok_iff.2 (map_decode_filter history readable q)
  unfold records
  simp only [read, Except.map]

theorem Mirrors.records (h : r.Mirrors m) (q : RecordQuery) :
    Matched (.records q) (Memory.records q m) (records q r) := by
  rw [records_of_history h.history h.readable q]
  exact ⟨rfl, h⟩

end Relational

end Catalog

end Stencil
