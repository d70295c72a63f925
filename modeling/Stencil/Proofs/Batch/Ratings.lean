import Stencil.Proofs.Batch.Deeds
import Stencil.Proofs.Batch.Means
import Stencil.Proofs.Decimal.Exact

/-!
# How launches rate templates

A template that a launch stores has no uses yet. From then on each commit under its key counts one use and makes
the new score of the one before, and other commits leave it alone, also those that fail (`Follows.stands`). So what
the catalog answers is the rating over the renderings of the template, whichever launches they belong to.
-/

namespace Stencil

open Catalog
open Cards (card?)

section

variable {σ ε : Type} [Catalog.Backend σ] [Card ε] [Cards σ ε] {s s' : σ} {ds : List Deed} {key : Template.Key}
  {id : Identifier} {rating : Float × UInt64}

/-- The identifiers of the templates in deeds to come are new. -/
structure Awaits (s : σ) (ds : List Deed) : Prop where
  sound : Cards.Sound s
  unused : ∀ d ∈ ds, Unclaimed (card? s) d.commit.made.template.id
  distinct : (ds.map (·.commit.made.template.id)).Nodup

theorem Awaits.asked (h : Awaits s ds) (name : String) (now : Instant) :
    Awaits (perform (.environment name) now s).2 ds ∧ card? (perform (.environment name) now s).2 = card? s := by
  obtain ⟨sound, turn⟩ := turn_of_ne_put h.sound rfl (rfl : perform (.environment name) now s = (_, _))
  have same := turn.of_aside rfl
  exact ⟨⟨sound, same ▸ h.unused, h.distinct⟩, same⟩

theorem Awaits.did {c : Commit} (h : Awaits s (c.deed s :: ds)) :
    Awaits (c.act s).2 ds ∧ ∀ key, c.key ≠ key → card? (c.act s).2 key = card? s key := by
  have fresh : Unclaimed (card? s) c.made.template.id := h.unused _ List.mem_cons_self
  obtain ⟨new, distinct⟩ := List.nodup_cons.1 h.distinct
  have unused : ∀ d ∈ ds, Unclaimed (card? s) d.commit.made.template.id := fun d among =>
    h.unused d (List.mem_cons_of_mem _ among)
  obtain ⟨sound, same⟩ | holds := c.act_leaves h.sound fresh
  · exact ⟨⟨sound, same ▸ unused, distinct⟩, fun key _ => congrFun same key⟩
  · refine ⟨⟨holds.sound, fun d among key x held => ?_, distinct⟩, fun key other => holds.others key other.symm⟩
    by_cases own : key = c.key
    · obtain ⟨y, held', named⟩ := holds.held
      rw [own, held'] at held
      rw [← Option.some.inj held, named]
      cases stored : card? s c.key with
      | none =>
        have first : Card.id (Card.put c.made.template c.time (none : Option ε)) = c.made.template.id :=
          Card.id_store ..
        rw [first]
        exact fun same => new (List.mem_map.2 ⟨d, among, same.symm⟩)
      | some z =>
        have touched : Card.id (Card.put c.made.template c.time (some z)) = Card.id z := Card.id_touch ..
        rw [touched]
        exact unused d among c.key z stored
    · rw [holds.others key own] at held
      exact unused d among key x held

/-- Under a key there is a template with a rating, and it can be read. -/
inductive Stands (s : σ) (key : Template.Key) : Identifier → Float × UInt64 → Prop where
  | card {x : ε} {n : Nat} (held : card? s key = some x) (counts : Card.Counts x n)
      (legible : Card.read? x ≠ none) : Stands s key (Card.id x) (Card.effectiveness x, .ofNat n)

/-- The rating over some more renderings. -/
def Card.rates (ε : Type) [Card ε] (rating : Float × UInt64) (passes : List Bool) : Float × UInt64 :=
  passes.foldl (rate (fun score => Card.keep ε (clamp score)) UInt64.toFloat) rating

/-- A commit that is answered rates the card of its key, which is there then. -/
theorem stands_of_act {c : Commit} (sound : Cards.Sound s) (unused : Unclaimed (card? s) c.made.template.id)
    (done : (c.act s).1 = .ok id) {x : ε} (put : Card.put c.made.template c.time (card? s c.key) = x) {n : Nat}
    (counts : Card.Counts x n) :
    id = Card.id x ∧ Stands (c.act s).2 c.key id
      (Card.rates ε (Card.effectiveness x, .ofNat n) [c.made.outcome.passed]) := by
  obtain ⟨score, rated⟩ := Commit.rated_of_act (Prod.ext done rfl : c.act s = (.ok id, (c.act s).2))
  obtain ⟨-, rfl, ⟨t, read, same⟩, update⟩ := cards_of_rated sound unused rated
  rw [put] at read update
  have legible : Card.read? (Card.use c.time x) ≠ none := Option.ne_none_iff_exists'.2 ⟨t, read⟩
  have counted := Card.counts_use counts legible
  have score : score =
      blend (Card.effectiveness x) (UInt64.ofNat n + 1).toFloat (worth c.made.outcome.passed) := by
    rw [same, Card.effectiveness_read read, Card.usage_read counted read, Card.effectiveness_use, UInt64.ofNat_add]
    rfl
  have held := (congrFun update c.key).trans (Function.update_self ..)
  have stands := Stands.card held (Card.counts_rescore counted ..) (Card.legible_rescore legible _)
  rw [Card.id_rescore, Card.id_use, Card.effectiveness_rescore, score, UInt64.ofNat_add] at stands
  exact ⟨congrArg Card.id put, put ▸ stands⟩

/-- The deeds for templates of one key. -/
def deedsOf (key : Template.Key) (ds : List Deed) : List Deed := ds.filter (·.commit.key == key)

theorem deedsOf_own {c : Commit} (own : c.key = key) (s : σ) :
    deedsOf key (c.deed s :: ds) = c.deed s :: deedsOf key ds := List.filter_cons_of_pos (beq_iff_eq.2 own)

theorem deedsOf_other {c : Commit} (other : c.key ≠ key) (s : σ) : deedsOf key (c.deed s :: ds) = deedsOf key ds :=
  List.filter_cons_of_neg (fun own => other (beq_iff_eq.1 own))

theorem mem_deedsOf {d : Deed} : d ∈ deedsOf key ds ↔ d ∈ ds ∧ d.commit.key = key :=
  List.mem_filter.trans (and_congr_right fun _ => beq_iff_eq)

def Deed.passed (d : Deed) : Bool := d.commit.made.outcome.passed

/-- From where a template stands, deeds lead to its rating over the renderings of its own. -/
theorem Follows.stands (h : Follows s ds s') (awaits : Awaits s ds) (stands : Stands s key id rating)
    (answered : ∀ d ∈ deedsOf key ds, ∃ id, d.answer = .ok id) :
    Stands s' key id (Card.rates ε rating ((deedsOf key ds).map Deed.passed)) ∧
      ∀ d ∈ deedsOf key ds, d.answer = .ok id := by
  induction h generalizing rating with
  | done => exact ⟨stands, fun d among => by cases among⟩
  | asked name now _ ih =>
    obtain ⟨awaits, same⟩ := awaits.asked name now
    refine ih awaits ?_ answered
    cases stands with
    | card held counts legible => exact .card ((congrFun same key).trans held) counts legible
  | @did s s' ds c _ ih =>
    obtain ⟨later, others⟩ := awaits.did
    by_cases own : c.key = key
    · rw [deedsOf_own own] at answered ⊢
      obtain ⟨⟨id', done⟩, rest⟩ := List.forall_mem_cons.1 answered
      cases stands with
      | @card x n held counts legible =>
        have put : Card.put c.made.template c.time (card? s c.key) = Card.touch c.time x := by
          rw [own, held]
          rfl
        obtain ⟨rfl, stands⟩ := stands_of_act awaits.sound (awaits.unused _ List.mem_cons_self) done put
          (Card.counts_touch counts c.time)
        rw [Card.id_touch] at done stands
        rw [Card.effectiveness_touch] at stands
        obtain ⟨stands, same⟩ := ih later (own ▸ stands) rest
        exact ⟨stands, List.forall_mem_cons.2 ⟨done, same⟩⟩
    · rw [deedsOf_other own] at answered ⊢
      refine ih later ?_ answered
      cases stands with
      | card held counts legible => exact .card ((others key own).trans held) counts legible

/-- The first commit that is answered with an identifier of its own has stored its template, and from there on the
deeds lead to the rating over all renderings under its key. -/
theorem Follows.stands_of_stored (h : Follows s ds s') (awaits : Awaits s ds) {first : Deed} {later : List Deed}
    (own : deedsOf key ds = first :: later) (stored : first.answer = .ok first.commit.made.template.id)
    (blank : first.commit.made.template.usage = 0) (answered : ∀ d ∈ later, ∃ id, d.answer = .ok id) :
    Stands s' key first.commit.made.template.id
        (Card.rates ε (Card.keep ε first.commit.made.template.effectiveness, 0)
          ((first :: later).map Deed.passed)) ∧
      ∀ d ∈ later, d.answer = .ok first.commit.made.template.id := by
  induction h with
  | done => cases own
  | asked name now _ ih => exact ih (awaits.asked name now).1 own
  | @did s s' ds c after ih =>
    obtain ⟨awaits', -⟩ := awaits.did
    by_cases named : c.key = key
    · rw [deedsOf_own named] at own
      obtain ⟨rfl, rfl⟩ := List.cons.inj own
      have unused : Unclaimed (card? s) c.made.template.id := awaits.unused _ List.mem_cons_self
      -- A card that had been there would have given the answer its own identifier.
      have absent : card? s c.key = none := by
        cases held : card? s c.key with
        | none => rfl
        | some x =>
          obtain ⟨score, rated⟩ := Commit.rated_of_act (Prod.ext stored rfl : c.act s = (_, (c.act s).2))
          have same := (cards_of_rated awaits.sound unused rated).2.1
          rw [held] at same
          exact absurd ((Card.id_touch c.time x).symm.trans same.symm) (unused c.key x held)
      have put : Card.put c.made.template c.time (card? s c.key) = Card.store c.made.template c.time := by
        rw [absent]
        rfl
      obtain ⟨-, stands⟩ := stands_of_act awaits.sound unused stored put (Card.counts_store blank c.time)
      rw [Card.effectiveness_store] at stands
      exact after.stands awaits' (named ▸ stands) answered
    · rw [deedsOf_other named] at own
      exact ih awaits' own

theorem Follows.sound (h : Follows s ds s') (awaits : Awaits s ds) : Cards.Sound s' := by
  induction h with
  | done => exact awaits.sound
  | asked name now _ ih => exact ih (awaits.asked name now).1
  | did c _ ih => exact ih awaits.did.1

theorem Stands.inner {s : Supervised σ} (h : Stands s key id rating) : Stands s.inner key id rating := by
  cases h with
  | card held counts legible => exact .card held counts legible

end

/-! ### The two backends -/

namespace Catalog

theorem Memory.exists_get {m : Memory} {key : Template.Key} {id : Identifier} {rating : Float × UInt64}
    (sound : Keyed m) (stands : Stands m key id rating) (now : Instant) :
    ∃ t, (perform (.get id) now m).1 = .ok t ∧ t.key = key ∧ (t.effectiveness, t.usage) = rating := by
  cases stands with
  | @card t n held counts legible =>
    obtain ⟨found, key⟩ := sound.holder?_eq_some_iff.1 held
    have usage : t.usage = .ofNat n := counts
    refine ⟨t, ?_, key, Prod.ext rfl usage⟩
    show (get t.id m).1 = _
    rw [get, found]

theorem Memory.unused_of_missing {m : Memory} {id : Identifier} {now : Instant} (sound : Keyed m)
    (lost : (perform (.get id) now m).1 = .error (missing id)) : Unclaimed m.holder? id := by
  rintro key t held rfl
  have lost : (get t.id m).1 = .error (missing t.id) := lost
  rw [get, sound.get?_of_holder? held] at lost
  cases lost

theorem Relational.exists_get {r : Relational} {key : Template.Key} {id : Identifier} {rating : Float × UInt64}
    (sound : Filed r) (stands : Stands r key id rating) (now : Instant) :
    ∃ t, (perform (.get id) now r).1 = .ok t ∧ t.key = key ∧ (t.effectiveness, t.usage) = rating := by
  cases stands with
  | @card row n held counts legible =>
    obtain ⟨among, named⟩ := sound.row?_eq_some_iff.1 held
    obtain ⟨t, read⟩ := Option.ne_none_iff_exists'.1 legible
    have got : (get row.id r).1 = .ok t :=
      get_eq_ok_iff.2 ⟨row, (find?_eq_some_iff_of_nodup sound.ids).2 ⟨among, rfl⟩, read⟩
    refine ⟨t, got, (sound.of_read? among read).2.trans named, ?_⟩
    rw [Card.effectiveness_read read, Card.usage_read counts read]

theorem TemplateRow.template_ne_missing {row : TemplateRow} {usage : UInt64} {id : Identifier} :
    row.template usage ≠ .error (missing id) := by
  unfold TemplateRow.template decode readStamp unavailable
  cases Template.ofJson? row.body with
  | none => exact nofun
  | some u =>
    cases Instant.ofStamp? row.updatedAt with
    | none => exact nofun
    | some updatedAt =>
      cases row.lastUsed with
      | none => exact nofun
      | some text =>
        dsimp only
        cases Instant.ofStamp? text <;> exact nofun

theorem Relational.unused_of_missing {r : Relational} {id : Identifier} {now : Instant} (sound : Filed r)
    (lost : (perform (.get id) now r).1 = .error (missing id)) : Unclaimed r.row? id := by
  rintro key row held rfl
  have found := (find?_eq_some_iff_of_nodup sound.ids).2 ⟨(sound.row?_eq_some_iff.1 held).1, rfl⟩
  have lost : (get row.id r).1 = .error (missing row.id) := lost
  rw [get, found] at lost
  dsimp only at lost
  cases counted : row.usage.usage? with
  | none =>
    rw [counted] at lost
    cases lost
  | some usage =>
    rw [counted] at lost
    exact TemplateRow.template_ne_missing lost

end Catalog

namespace Medium

/-- What a medium has of a template. -/
def Sheet : Medium → Type
  | memory => Template
  | relational => TemplateRow

instance (medium : Medium) : Card medium.Sheet :=
  match medium with
  | memory => inferInstanceAs (Card Template)
  | relational => inferInstanceAs (Card TemplateRow)

instance (medium : Medium) : Cards medium.State medium.Sheet :=
  match medium with
  | memory => inferInstanceAs (Cards Memory Template)
  | relational => inferInstanceAs (Cards Relational TemplateRow)

variable (medium : Medium)

theorem sound_reached (calls : List (Call × Instant)) : Cards.Sound (Catalog.run calls medium.vacant).2 := by
  cases medium with
  | memory => exact Memory.keyed_run calls
  | relational => exact Relational.filed_run calls

theorem unused_of_missing {m : medium.State} {id : Identifier} {now : Instant} (sound : Cards.Sound m)
    (lost : (perform (.get id) now m).1 = .error (missing id)) : Unclaimed (card? m) id := by
  cases medium with
  | memory => exact Memory.unused_of_missing sound lost
  | relational => exact Relational.unused_of_missing sound lost

theorem exists_get {m : medium.State} {key : Template.Key} {id : Identifier} {rating : Float × UInt64}
    (sound : Cards.Sound m) (stands : Stands m key id rating) (now : Instant) :
    ∃ t, (perform (.get id) now m).1 = .ok t ∧ t.key = key ∧ (t.effectiveness, t.usage) = rating := by
  cases medium with
  | memory => exact Memory.exists_get sound stands now
  | relational => exact Relational.exists_get sound stands now

theorem rates_eq (effectiveness : Float) (passes : List Bool) :
    Card.rates medium.Sheet (Card.keep medium.Sheet effectiveness, 0) passes =
      medium.rating UInt64.toFloat effectiveness passes := by
  cases medium <;> rfl

end Medium

/-- Start from a catalog that any calls have led to, and run launches with new identifiers, whatever calls fail.
Let the first commit of a key be answered with the identifier of its own template, which so is stored, and the
later ones be answered too. Then they are all for that template, and what the catalog answers for it is the rating
over its renderings, from the effectiveness that it was extracted with. In exact numbers this is the mean of that
effectiveness and the scores of the renderings. -/
theorem runAll_rates [Libraries] (medium : Medium) {calls : List (Call × Instant)} {s : Supervised medium.State}
    (reached : s.inner = (Catalog.run calls medium.vacant).2) {xs : List Launch}
    (distinct : ((xs.flatMap Launch.ids).map Prod.fst).Nodup)
    (unknown : ∀ id ∈ (xs.flatMap Launch.ids).map Prod.fst, ∀ now,
      (perform (.get id) now s.inner).1 = .error (missing id))
    {key : Template.Key} {first : Deed} {later : List Deed} (own : deedsOf key (deedsAll xs s) = first :: later)
    (stored : first.answer = .ok first.commit.made.template.id)
    (answered : ∀ d ∈ later, ∃ id, d.answer = .ok id) (now : Instant) :
    let t := first.commit.made.template
    let passes := (first :: later).map Deed.passed
    (∀ d ∈ later, d.answer = .ok t.id) ∧
      (∃ t', (perform (.get t.id) now (runAll xs s).inner).1 = .ok t' ∧ t'.key = key ∧
        (t'.effectiveness, t'.usage) = medium.rating UInt64.toFloat t.effectiveness passes) ∧
      (passes.length < 2 ^ 64 → medium.RunsExactly (Decimal.exact t.effectiveness) passes) := by
  intro t passes
  have ids := ids_deedsAll xs s
  have sound : Cards.Sound s.inner := reached ▸ medium.sound_reached calls
  have unused : ∀ d ∈ deedsAll xs s, Unclaimed (card? s) d.commit.made.template.id := fun d among =>
    medium.unused_of_missing sound (unknown _ (ids.subset (List.mem_map_of_mem among)) now)
  have awaits : Awaits s (deedsAll xs s) := ⟨sound, unused, distinct.sublist ids⟩
  have among : first ∈ deedsAll xs s := (mem_deedsOf.1 (own ▸ List.mem_cons_self)).1
  obtain ⟨x, -, e, p, k, made⟩ := exists_commit?_of_mem_deedsAll among
  have follows := follows_runAll xs s
  obtain ⟨stands, same⟩ := follows.stands_of_stored awaits own stored (Batch.usage_of_commit? made) answered
  obtain ⟨t', got, named, rating⟩ := medium.exists_get (follows.sound awaits) stands.inner now
  have valid := Template.valid_of_validate (Batch.of_commit? made).2.2.valid
  obtain ⟨low, high⟩ := Decimal.exact_of_inPercent valid.effectiveness
  rw [medium.rates_eq] at rating
  exact ⟨same, ⟨t', got, named, rating⟩, fun short => medium.runsExactly low high short⟩

/-- Where no call has failed, every deed is answered. -/
theorem Follows.answered {σ : Type} [Catalog.Backend σ] {s s' : Supervised σ} {ds : List Deed}
    (h : Follows s ds s') (clean : s'.Clean) : s.Clean ∧ ∀ d ∈ ds, ∃ id, d.answer = .ok id := by
  induction h with
  | done => exact ⟨clean, fun d among => by cases among⟩
  | asked name now _ ih =>
    obtain ⟨between, answered⟩ := ih clean
    have call : Flawless (fun _ => True) (perform (.environment name) now : Action (Supervised σ) _) _ := .call
    exact ⟨call.back between, answered⟩
  | @did s s' ds c _ ih =>
    obtain ⟨between, answered⟩ := ih clean
    have flawless := Batch.flawless_calls c s
    obtain ⟨id, after, done, -⟩ := flawless.answers rfl between
    exact ⟨flawless.back between, List.forall_mem_cons.2 ⟨⟨id, congrArg Prod.fst done⟩, answered⟩⟩

open Readers

theorem exists_plans_rivals :
    ∃ a ps, a ∈ rivals ∧ lenient.plans rivalry.supply rivals = lenient.own a :: ps := by
  cases plans : lenient.plans rivalry.supply rivals with
  | nil =>
    have among := plan_rival (a := environmentFile "a/x.env" "P=a/b\n") List.mem_cons_self
    rw [plans] at among
    cases among
  | cons p ps =>
    have analysed : lenient.Analysed rivalry.supply rivals := fun _ _ => rfl
    have planned : p ∈ lenient.plans rivalry.supply rivals := plans ▸ List.mem_cons_self
    obtain ⟨a, admitted, rfl, -⟩ := analysed.mem_plans.1 planned
    have among : a ∈ rivals := List.mem_of_mem_filter admitted
    exact ⟨a, ps, among, by rw [shared_rival among]⟩

/-- Both files are committed under one key, and the first commit stores the template. -/
theorem runAll_rates_rivalry : ∃ first later,
    deedsOf rivalKey (deedsAll [rivalry] { inner := ({} : Memory) }) = first :: later ∧
      first.answer = .ok first.commit.made.template.id ∧
      (∀ d ∈ later, d.answer = .ok first.commit.made.template.id) ∧
      (∃ t, (perform (.get first.commit.made.template.id) default afterRivalry.inner).1 = .ok t ∧
        t.key = rivalKey ∧ (t.effectiveness, t.usage) =
          Medium.memory.rating UInt64.toFloat first.commit.made.template.effectiveness
            ((first :: later).map Deed.passed)) ∧
      Medium.memory.RunsExactly (Decimal.exact first.commit.made.template.effectiveness)
        ((first :: later).map Deed.passed) := by
  let s : Supervised Memory := { inner := {} }
  let s₁ : Supervised Memory := (perform (.environment "production") (rivalry.supply.time 0) s).2
  obtain ⟨a, ps, among, plans⟩ := exists_plans_rivals
  obtain ⟨c, made, blank, key, -⟩ := commit?_rival among 0
  obtain ⟨rest, deeds⟩ : ∃ rest, deedsAll [rivalry] s = c.deed s₁ :: rest := by
    have launch : deedsAll [rivalry] s =
        lenient.deeds (.identity "production") rivalry.supply (lenient.plans rivalry.supply rivals) 0 s₁ :=
      List.append_nil _
    rw [launch, plans, Batch.deeds, made]
    exact ⟨_, rfl⟩
  have own : deedsOf rivalKey (deedsAll [rivalry] s) = c.deed s₁ :: deedsOf rivalKey rest := by
    rw [deeds, deedsOf_own key]
  have answered := ((follows_runAll [rivalry] s).answered clean_afterRivalry).2
  obtain ⟨id, done⟩ := answered (c.deed s₁) (deeds ▸ List.mem_cons_self)
  have vacant : ∀ key, card? s₁ key = none := fun _ => rfl
  have unused : Unclaimed (card? s₁) c.made.template.id := fun key x held => by
    rw [vacant] at held
    cases held
  have put : Card.put c.made.template c.time (card? s₁ c.key) = Card.store c.made.template c.time := by
    rw [vacant]
    rfl
  have stored : (c.deed s₁).answer = .ok c.made.template.id := by
    rw [done, (stands_of_act Memory.keyed_empty unused done put (Card.counts_store blank c.time)).1]
    rfl
  have later : ∀ d ∈ deedsOf rivalKey rest, ∃ id, d.answer = .ok id := fun d held =>
    answered d (deeds ▸ List.mem_cons_of_mem _ (mem_deedsOf.1 held).1)
  have few : (deedsAll [rivalry] s).length ≤ 2 := by
    have ids := (ids_deedsAll [rivalry] s).length_le
    have whole : [rivalry].flatMap Launch.ids = rivalry.ids := List.append_nil _
    rw [List.length_map, List.length_map, whole, Launch.ids, List.length_map, List.length_range] at ids
    exact ids.trans length_plans_rivals
  have short : ((c.deed s₁ :: deedsOf rivalKey rest).map Deed.passed).length < 2 ^ 64 := by
    rw [List.length_map, ← own]
    exact ((List.length_filter_le _ _).trans few).trans_lt (by decide)
  have reached : s.inner = (Catalog.run [] Medium.memory.vacant).2 := rfl
  obtain ⟨same, got, exactly⟩ :=
    runAll_rates .memory reached ids_rivalry.1 (fun _ _ _ => rfl) own stored later default
  exact ⟨_, _, own, stored, same, got, exactly short⟩

end Stencil
