import Stencil.Proofs.Catalog.Cards

/-!
# How catalogs rate templates

The score that a commit gives to its template is a mean over the effectiveness and the count that the catalog
answers. A backend `Rates` its templates: the next score of a template and where it stands afterwards depend on
where it stands and on the rendering alone, and no commit touches where the others stand.
-/

namespace Stencil.Catalog

class Rates (σ : Type) [Backend σ] [Keeps σ] where
  /-- What the scores of a template depend on. -/
  Standing : Type
  standing : σ → Template.Key → Option Standing
  /-- Where a template of a given effectiveness and count stands when it is stored. -/
  initial : Float → UInt64 → Standing
  /-- The score that a template gets for a rendering, and where it stands then. -/
  rate : Standing → Float → Float × Standing
  rated {l : Ledger} {s s' : σ} {c : Commit} {id : Identifier} {score : Float}
    (h : Keeps.Represents l s) (fresh : ∀ t ∈ l.templates, t.id ≠ c.made.template.id)
    (rated : Rated c s id score s') :
    let old := (standing s c.key).getD (initial c.made.template.effectiveness c.made.template.usage)
    score = (rate old c.made.observed).1 ∧
      standing s' = Function.update (standing s) c.key (some (rate old c.made.observed).2)

section

variable {σ ε Standing : Type} [Backend σ] [Card ε] [Cards σ ε] {s s' : σ} {c : Commit} {id : Identifier}
  {score : Float}

open Cards (card?)

/-- Where cards stand after a commit that is answered. -/
theorem standing_of_rated (rank : ε → Standing) (initial : Standing) (sound : Cards.Sound s)
    (unused : Unclaimed (card? s) c.made.template.id)
    (stored : ∀ now, rank (Card.store c.made.template now) = initial)
    (touched : ∀ now x, rank (Card.touch now x) = rank x) (rated : Rated c s id score s') :
    ∃ x t, rank x = ((card? s c.key).map rank).getD initial ∧ Card.read? (Card.use c.time x) = some t ∧
      score = blend t.effectiveness t.usage.toFloat c.made.observed ∧
      (fun key => (card? s' key).map rank) = Function.update (fun key => (card? s key).map rank) c.key
        (some (rank (Card.rescore score c.time (Card.use c.time x)))) := by
  obtain ⟨-, -, ⟨t, read, same⟩, cards⟩ := cards_of_rated sound unused rated
  refine ⟨_, t, ?_, read, same, ?_⟩
  · cases card? s c.key with
    | none => exact stored c.time
    | some x => exact touched c.time x
  · rw [cards]
    exact funext fun key => Function.apply_update (fun _ => Option.map rank) ..

end

/-! ### In memory -/

namespace Memory

variable {l : Ledger} {m : Memory}

def rank (t : Template) : Float × UInt64 := (t.effectiveness, t.usage)

def standing (m : Memory) (key : Template.Key) : Option (Float × UInt64) := (m.holder? key).map rank

theorem Represents.keyed (h : Represents l m) : Keyed m where
  own found := by
    obtain ⟨u, -, named, alike⟩ := h.known found
    exact alike.id.trans named
  unique found found' same := by
    obtain ⟨u, among, named, alike⟩ := h.known found
    obtain ⟨u', among', named', alike'⟩ := h.known found'
    have keys : u.key = u'.key := alike.key.symm.trans (same.trans alike'.key)
    rw [← named, ← named', List.inj_on_of_nodup_map l.unique among among' keys]

theorem Represents.unused (h : Represents l m) {id : Identifier} (fresh : ∀ t ∈ l.templates, t.id ≠ id) :
    Unclaimed m.holder? id := by
  intro key t held same
  obtain ⟨u, among, named, -⟩ := h.known (h.keyed.get?_of_holder? held)
  exact fresh u among (named.trans same)

instance : Rates Memory where
  Standing := Float × UInt64
  standing := standing
  initial effectiveness usage := (effectiveness, usage)
  rate old observed :=
    let score := blend old.1 (old.2 + 1).toFloat observed
    (score, clamp score, old.2 + 1)
  rated {l m m' c id score} h fresh rated := by
    obtain ⟨t, u, stands, read, rfl, standing'⟩ := standing_of_rated rank (rank c.made.template)
      (Represents.keyed h) (Represents.unused h fresh) (fun _ => rfl) (fun _ _ => rfl) rated
    obtain rfl := Option.some.inj read
    intro old
    have same : old = rank t := stands.symm
    rw [same]
    exact ⟨rfl, standing'⟩

end Memory

/-! ### In tables -/

namespace Relational

variable {l : Ledger} {r : Relational}

def rank (row : TemplateRow) : Float × Counter := (row.effectiveness, row.usage)

def standing (r : Relational) (key : Template.Key) : Option (Float × Counter) :=
  (r.templates.find? fun row => row.key == key).map rank

theorem Stores.filed (h : Stores l r) : Filed r where
  written row among := by
    obtain ⟨t, -, face⟩ := h.mem among
    exact ⟨t, face⟩
  ids := h.nodup_ids
  keys := by
    refine List.Nodup.map_on (fun row held row' held' same => ?_) (List.Nodup.of_map _ h.nodup_ids)
    exact h.eq_of_id held held' (h.id_eq_of_key held held' same)

theorem Stores.unused (h : Stores l r) {id : Identifier} (fresh : ∀ t ∈ l.templates, t.id ≠ id) :
    Unclaimed r.row? id := by
  intro key row held same
  obtain ⟨t, among, face⟩ := h.mem (h.filed.row?_eq_some_iff.1 held).1
  exact fresh t among ((congrArg Prod.fst face).symm.trans same)

instance : Rates Relational where
  Standing := Float × Counter
  standing := standing
  initial effectiveness usage := (storedScore effectiveness, .ofUsage usage)
  rate old observed :=
    let score := blend old.1 ((old.2.next.usage?).getD 0).toFloat observed
    (score, storedScore (clamp score), old.2.next)
  rated {l r r' c id score} h fresh rated := by
    have stores := Represents.stores h
    obtain ⟨row, t, stands, read, rfl, standing'⟩ := standing_of_rated rank
      (storedScore c.made.template.effectiveness, .ofUsage c.made.template.usage) (Stores.filed stores)
      (Stores.unused stores fresh) (fun _ => rfl) (fun _ _ => rfl) rated
    obtain ⟨usage, counted, read⟩ := TemplateRow.read?_eq_some_iff.1 read
    obtain ⟨effectiveness, used⟩ := TemplateRow.columns_of_template read
    have counts : row.usage.next.usage?.getD 0 = t.usage := by
      rw [used]
      exact congrArg (Option.getD · 0) counted
    intro old
    have same : old = rank row := stands.symm
    have score : blend t.effectiveness t.usage.toFloat c.made.observed =
        blend row.effectiveness ((row.usage.next.usage?).getD 0).toFloat c.made.observed := by
      rw [counts, effectiveness]
      rfl
    rw [same]
    exact ⟨score, score ▸ standing'⟩

end Relational

end Stencil.Catalog
