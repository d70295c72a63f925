import Stencil.Proofs.Batch.Launches
import Stencil.Proofs.Catalog.Cards

/-!
# What launches do to templates

A batch tries one commit after the other, whatever becomes of them, up to a fatal error. These are its deeds, and
nothing else of what it does concerns the templates of its catalog (`follows_runAll`). A commit that fails on its
way leaves no more than its own card changed.
-/

namespace Stencil

open Catalog

/-- A commit that was tried, with its answer. -/
structure Deed where
  commit : Commit
  answer : Except Error Identifier

/-- Whether an answer ends the batch. -/
def Deed.ends (d : Deed) : Bool :=
  match d.answer with
  | .ok _ => false
  | .error x => x.isFatal

section

variable {σ : Type} [Catalog.Backend σ]

def Commit.act (c : Commit) : Action σ Identifier := c.made.commit c.path c.recordId c.time

def Commit.deed (c : Commit) (s : σ) : Deed := ⟨c, (c.act s).1⟩

def Batch.deeds [Libraries] (b : Batch) (e : Environment) (supply : Supply) : List Plan → Nat → σ → List Deed
  | [], _, _ => []
  | p :: ps, k, s =>
    match b.commit? e supply p k with
    | none => b.deeds e supply ps (k + 1) s
    | some c =>
      c.deed s :: if (c.deed s).ends then [] else b.deeds e supply ps (k + 1) (c.act s).2

/-- The deeds of a launch; there are none when its environment cannot be told. -/
def Launch.deeds [Libraries] (x : Launch) (s : σ) : List Deed :=
  match x.batch.environment (x.supply.time 0) s with
  | (.error _, _) => []
  | (.ok e, s') => x.batch.deeds e x.supply (x.batch.plans x.supply x.artifacts) 0 s'

def deedsAll [Libraries] : List Launch → Supervised σ → List Deed
  | [], _ => []
  | x :: xs, s => x.deeds s ++ deedsAll xs (x.run s).2

/-- Deeds lead from one state to another, with nothing between them but questions for environments. -/
inductive Follows : σ → List Deed → σ → Prop where
  | done (s : σ) : Follows s [] s
  | asked {s s' : σ} {ds : List Deed} (name : String) (now : Instant)
      (later : Follows (perform (.environment name) now s).2 ds s') : Follows s ds s'
  | did {s s' : σ} {ds : List Deed} (c : Commit) (later : Follows (c.act s).2 ds s') :
      Follows s (c.deed s :: ds) s'

theorem Follows.append {s s' s'' : σ} {ds ds' : List Deed} (first : Follows s ds s') (next : Follows s' ds' s'') :
    Follows s (ds ++ ds') s'' := by
  induction first with
  | done => exact next
  | asked name now _ ih => exact .asked name now (ih next)
  | did c _ ih => exact .did c (ih next)

/-! ### Cards -/

variable {ε : Type} [Card ε] [Cards σ ε] {cards : Template.Key → Option ε} {key : Template.Key}
  {id : Identifier} {s s' : σ}

open Cards (card?)

/-- The card of a key has an identifier, and the others are given. -/
structure Holds (cards : Template.Key → Option ε) (key : Template.Key) (id : Identifier) (s : σ) : Prop where
  sound : Cards.Sound s
  held : ∃ x, card? s key = some x ∧ Card.id x = id
  others : ∀ other, other ≠ key → card? s other = cards other

theorem Holds.of_update (h : Holds cards key id s) (sound : Cards.Sound s') {x : ε} (named : Card.id x = id)
    (update : card? s' = Function.update (card? s) key (some x)) : Holds cards key id s' where
  sound := sound
  held := ⟨x, by rw [update, Function.update_self], named⟩
  others other ne := by rw [update, Function.update_of_ne ne, h.others other ne]

theorem Holds.aside (h : Holds cards key id s) {call : Call} (now : Instant) (other : call.marks = false)
    (unput : (call.method == .put) = false) : Holds cards key id (perform call now s).2 := by
  obtain ⟨sound, turn⟩ := turn_of_ne_put h.sound unput (rfl : perform call now s = (_, _))
  have same := turn.of_aside other
  exact ⟨sound, same ▸ h.held, same ▸ h.others⟩

/-- A call that changes the card, or fails. -/
theorem Holds.changed (h : Holds cards key id s) {call : Call} (now : Instant) (unput : (call.method == .put) = false)
    (answered : ∀ {answer s'}, perform call now s = (.ok answer, s') →
      ∃ x, Card.id x = id ∧ card? s' = Function.update (card? s) key (some x)) :
    Holds cards key id (perform call now s).2 := by
  cases done : perform call now s with
  | mk reply s' =>
    obtain ⟨sound, turn⟩ := turn_of_ne_put h.sound unput done
    cases reply with
    | ok _ =>
      obtain ⟨x, named, update⟩ := answered done
      exact h.of_update sound named update
    | error e =>
      have same := turn.of_refused
      exact ⟨sound, same ▸ h.held, same ▸ h.others⟩

theorem Holds.used (h : Holds cards key id s) (now : Instant) :
    Holds cards key id (perform (.recordUsage id) now s).2 := by
  obtain ⟨x, held, rfl⟩ := h.held
  exact h.changed now rfl fun counted => ⟨_, Card.id_use now x, (cards_of_used h.sound held counted).2⟩

theorem Holds.rescored (h : Holds cards key id s) (score : Float) (now : Instant) :
    Holds cards key id (perform (.updateEffectiveness id score) now s).2 := by
  obtain ⟨x, held, rfl⟩ := h.held
  exact h.changed now rfl fun updated => ⟨_, Card.id_rescore score now x, (cards_of_rescored h.sound held updated).2⟩

/-- Whatever becomes of a commit, it leaves the cards as they are or changes the one of its key. -/
theorem Commit.act_leaves (c : Commit) (sound : Cards.Sound s) (unused : Unclaimed (card? s) c.made.template.id) :
    (Cards.Sound (c.act s).2 ∧ card? (c.act s).2 = card? s) ∨
      Holds (card? s) c.key (Card.id (Card.put c.made.template c.time (card? s c.key))) (c.act s).2 := by
  unfold Commit.act Regenerated.commit
  cases put : perform (.put c.made.template) c.time s with
  | mk reply s₁ =>
    obtain ⟨sound₁, turn⟩ := Cards.turn sound (fun t same => Call.put.inj same ▸ unused) put
    cases reply with
    | error e =>
      rw [Faultless.bind_error put]
      exact .inl ⟨sound₁, turn.of_refused⟩
    | ok id =>
      obtain ⟨rfl, update⟩ := turn.of_put
      have holds : Holds (card? s) c.key _ s₁ :=
        ⟨sound₁, ⟨_, (congrFun update _).trans (Function.update_self ..), rfl⟩, fun other ne =>
          (congrFun update other).trans (Function.update_of_ne ne ..)⟩
      rw [Faultless.bind_ok put]
      refine .inr (Faultless.keeps_bind (fun s h => h.used c.time) (fun _ => ?_) s₁ holds)
      refine Faultless.keeps_bind (fun s h => h.aside c.time rfl rfl) fun _ => ?_
      refine Faultless.keeps_bind (fun s h => h.aside c.time rfl rfl) fun _ => ?_
      exact Faultless.keeps_bind (fun s h => h.rescored _ c.time) fun _ s h => h

/-- A commit that is answered has made all its calls. -/
theorem Commit.rated_of_act {c : Commit} (done : c.act s = (.ok id, s')) : ∃ score, Rated c s id score s' := by
  unfold Commit.act Regenerated.commit at done
  obtain ⟨id', s₁, put, done⟩ := Faultless.exists_of_bind_eq_ok done
  obtain ⟨_, s₂, counted, done⟩ := Faultless.exists_of_bind_eq_ok done
  obtain ⟨_, s₃, appended, done⟩ := Faultless.exists_of_bind_eq_ok done
  obtain ⟨t, s₄, got, done⟩ := Faultless.exists_of_bind_eq_ok done
  obtain ⟨_, s₅, updated, done⟩ := Faultless.exists_of_bind_eq_ok done
  obtain ⟨same, rfl⟩ := Prod.mk.inj done
  obtain rfl := Except.ok.inj same
  exact ⟨_, .calls put counted appended got updated⟩

/-! ### Batches -/

variable [Libraries]

namespace Batch

/-- What an artifact does to the catalog is its commit, and the batch goes on unless that ends it. -/
theorem process_of_commit? {b : Batch} {e : Environment} {supply : Supply} {p : Plan} {k : Nat} {c : Commit}
    (h : b.commit? e supply p k = some c) (s : σ) : ∃ result, b.process e supply p k s = (result, (c.act s).2) ∧
      ((c.deed s).ends = true ↔ ∃ x, result = .error x) := by
  obtain ⟨r, none, -⟩ | ⟨c', made, process⟩ := b.process_cases (σ := σ) e supply p k
  · rw [h] at none
    cases none
  obtain rfl := Option.some.inj (made.symm.trans h)
  rw [process]
  unfold Commit.deed Deed.ends
  show ∃ result, unlessFatal p (c'.act >>= _) s = _ ∧ _
  cases ran : (c'.act : Action σ Identifier) s with
  | mk answer s' =>
    cases answer with
    | ok id =>
      refine ⟨_, Faultless.tryCatch_ok (Faultless.bind_ok ran), ?_⟩
      exact ⟨nofun, nofun⟩
    | error x =>
      unfold unlessFatal
      rw [Faultless.tryCatch_error (Faultless.bind_error ran)]
      dsimp only
      cases x.isFatal with
      | true => exact ⟨_, rfl, fun _ => ⟨x, rfl⟩, fun _ => rfl⟩
      | false => exact ⟨_, rfl, nofun, nofun⟩

theorem follows_processAll (b : Batch) (e : Environment) (supply : Supply) (ps : List Plan) (k : Nat) (s : σ) :
    Follows s (b.deeds e supply ps k s) (b.processAll e supply ps k s).2 := by
  induction ps generalizing k s with
  | nil => exact .done s
  | cons p ps ih =>
    unfold processAll deeds
    cases made : b.commit? e supply p k with
    | none =>
      obtain ⟨r, -, process, -⟩ | ⟨c, made', -⟩ := b.process_cases (σ := σ) e supply p k
      · have ran : b.process e supply p k s = (.ok r, s) := by
          rw [process]
          rfl
        rw [Faultless.bind_ok ran, Faultless.bind_pure_snd]
        exact ih (k + 1) s
      · rw [made] at made'
        cases made'
    | some c =>
      obtain ⟨result, ran, ends⟩ := process_of_commit? made s
      refine .did c ?_
      cases result with
      | ok r =>
        have goes : (c.deed s).ends = false := Bool.eq_false_of_not_eq_true fun h => by
          obtain ⟨x, same⟩ := ends.1 h
          cases same
        rw [Faultless.bind_ok ran, Faultless.bind_pure_snd, goes]
        exact ih (k + 1) _
      | error x =>
        rw [Faultless.bind_error ran, ends.2 ⟨x, rfl⟩]
        exact .done _

/-- Every deed is for the commit of an artifact, and different ones are for different artifacts. -/
theorem ids_deeds (b : Batch) (e : Environment) (supply : Supply) (ps : List Plan) (k : Nat) (s : σ) :
    ((b.deeds e supply ps k s).map (·.commit.made.template.id)).Sublist
      ((List.range' k ps.length).map supply.templateId) := by
  induction ps generalizing k s with
  | nil => exact .slnil
  | cons p ps ih =>
    rw [deeds, List.length_cons, List.range'_succ, List.map_cons]
    cases made : b.commit? e supply p k with
    | none => exact .cons _ (ih (k + 1) s)
    | some c =>
      dsimp only
      rw [List.map_cons, ← (of_commit? made).1]
      refine .cons_cons _ ?_
      split
      · exact List.nil_sublist _
      · exact ih (k + 1) _

theorem exists_commit?_of_mem_deeds {b : Batch} {e : Environment} {supply : Supply} {ps : List Plan} {k : Nat}
    {s : σ} {d : Deed} (h : d ∈ b.deeds e supply ps k s) : ∃ p j, b.commit? e supply p j = some d.commit := by
  induction ps generalizing k s with
  | nil => cases h
  | cons p ps ih =>
    rw [deeds] at h
    cases made : b.commit? e supply p k with
    | none =>
      rw [made] at h
      exact ih h
    | some c =>
      rw [made] at h
      rcases List.mem_cons.1 h with rfl | later
      · exact ⟨p, k, made⟩
      · split at later
        · cases later
        · exact ih later

end Batch

/-! ### Launches -/

theorem Launch.follows_run (x : Launch) (s : σ) : Follows s (x.deeds s) (x.run s).2 := by
  unfold Launch.run Batch.run Launch.deeds
  cases told : (x.batch.environment (x.supply.time 0) : Action σ Environment) s with
  | mk answer s' =>
    have asked : s' = (perform (.environment x.batch.settings.environment) (x.supply.time 0) s).2 :=
      (congrArg Prod.snd told).symm.trans (Faultless.bind_pure_snd _ _ s)
    cases answer with
    | error e =>
      rw [Faultless.bind_error told, asked]
      exact .asked _ _ (.done _)
    | ok e =>
      rw [Faultless.bind_ok told, asked]
      exact .asked _ _ (x.batch.follows_processAll ..)

theorem Launch.ids_deeds (x : Launch) (s : σ) :
    ((x.deeds s).map (·.commit.made.template.id)).Sublist (x.ids.map Prod.fst) := by
  have ids : x.ids.map Prod.fst =
      (List.range' 0 (x.batch.plans x.supply x.artifacts).length).map x.supply.templateId := by
    rw [Launch.ids, List.map_map, List.range_eq_range']
    rfl
  rw [ids, Launch.deeds]
  split
  · exact List.nil_sublist _
  · exact x.batch.ids_deeds ..

theorem Launch.exists_commit?_of_mem_deeds {x : Launch} {s : σ} {d : Deed} (h : d ∈ x.deeds s) :
    ∃ e p j, x.batch.commit? e x.supply p j = some d.commit := by
  unfold Launch.deeds at h
  split at h
  · cases h
  · exact ⟨_, Batch.exists_commit?_of_mem_deeds h⟩

/-- What launches do to the templates of a catalog is their deeds. -/
theorem follows_runAll (xs : List Launch) (s : Supervised σ) : Follows s (deedsAll xs s) (runAll xs s) := by
  induction xs generalizing s with
  | nil => exact .done s
  | cons x xs ih => exact (x.follows_run s).append (ih _)

theorem ids_deedsAll (xs : List Launch) (s : Supervised σ) :
    ((deedsAll xs s).map (·.commit.made.template.id)).Sublist ((xs.flatMap Launch.ids).map Prod.fst) := by
  induction xs generalizing s with
  | nil => exact .slnil
  | cons x xs ih =>
    rw [deedsAll, List.flatMap_cons, List.map_append, List.map_append]
    exact (x.ids_deeds s).append (ih _)

theorem exists_commit?_of_mem_deedsAll {xs : List Launch} {s : Supervised σ} {d : Deed} (h : d ∈ deedsAll xs s) :
    ∃ x ∈ xs, ∃ e p j, x.batch.commit? e x.supply p j = some d.commit := by
  induction xs generalizing s with
  | nil => cases h
  | cons x xs ih =>
    rcases List.mem_append.1 h with first | later
    · exact ⟨x, List.mem_cons_self, Launch.exists_commit?_of_mem_deeds first⟩
    · obtain ⟨y, among, made⟩ := ih later
      exact ⟨y, List.mem_cons_of_mem x among, made⟩

end

end Stencil
