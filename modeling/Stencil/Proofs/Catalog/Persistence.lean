import Stencil.Proofs.Catalog.Changes
import Stencil.Proofs.Catalog.Documents
import Stencil.Proofs.Template

/-!
# What a catalog in memory does not lose

A template that was put stays under its identifier and counts its uses, until a template with a new key is
put under the same identifier or the count outgrows its word. `put_persists_iff` says that nothing else
loses it.
-/

namespace Stencil.Catalog

/-- Whether a reply says that a use of a template was counted. -/
def Reply.counts (id : Identifier) : Reply → Bool
  | ⟨.recordUsage id', .ok _⟩ => id' == id
  | _ => false

def uses (id : Identifier) (replies : List Reply) : Nat := replies.countP (Reply.counts id)

theorem uses_append (id : Identifier) (xs ys : List Reply) :
    uses id (xs ++ ys) = uses id xs + uses id ys := List.countP_append

theorem uses_cons (id : Identifier) (reply : Reply) (replies : List Reply) :
    uses id (reply :: replies) = uses id replies + if reply.counts id then 1 else 0 :=
  List.countP_cons

namespace Memory

variable {m m' : Memory} {now : Instant} {id : Identifier} {t : Template}

/-- A call that puts a template with a new key under an identifier. -/
def Displaces (m : Memory) (id : Identifier) : Call → Prop
  | .put t => t.validate = .ok () ∧ m.holder? t.key = none ∧ t.id = id
  | _ => False

/-- Whether no call of a run displaces what lies under an identifier. -/
def Undisturbed (id : Identifier) : List (Call × Instant) → Memory → Prop :=
  Throughout fun m call => ¬m.Displaces id call

/-! ### One call -/

theorem Change.keeps {call : Call} {reply : Except Error call.Answer}
    (change : Change m now call reply m') (undisturbed : ¬m.Displaces id call)
    (found : m.templates.get? id = some t) :
    ∃ t', m'.templates.get? id = some t' ∧ t'.Alike t ∧
      t'.usage = t.usage + if Reply.counts id ⟨call, reply⟩ then 1 else 0 := by
  have same : ∃ t', m.templates.get? id = some t' ∧ t'.Alike t ∧ t'.usage = t.usage + 0 :=
    ⟨t, found, .refl t, (UInt64.add_zero _).symm⟩
  cases change with
  | refused e => cases call <;> exact same
  | asked call asks answer =>
    cases call
    case recordUsage => cases asks
    all_goals exact same
  | @touched u old valid held =>
    rw [SortedMap.get?_modify, found]
    split
    · exact ⟨_, rfl, ⟨rfl, rfl, rfl, rfl, rfl⟩, (UInt64.add_zero _).symm⟩
    · exact ⟨t, rfl, .refl t, (UInt64.add_zero _).symm⟩
  | @stored u valid new =>
    have other : u.id ≠ id := fun same => undisturbed ⟨valid, new, same⟩
    rw [SortedMap.get?_insert, if_neg other]
    exact same
  | @used id' u before =>
    rw [SortedMap.get?_insert]
    by_cases counted : id' = id
    · obtain rfl : u = t := Option.some.inj (before.symm.trans (counted ▸ found))
      refine ⟨_, if_pos counted, ⟨rfl, rfl, rfl, rfl, rfl⟩, ?_⟩
      rw [Reply.counts, if_pos (beq_iff_eq.2 counted)]
    · rw [if_neg counted, Reply.counts, if_neg (fun h => counted (beq_iff_eq.1 h))]
      exact same
  | @rescored id' score u before =>
    rw [SortedMap.get?_insert]
    split
    · next here =>
      obtain rfl : u = t := Option.some.inj (before.symm.trans (here ▸ found))
      exact ⟨_, rfl, ⟨rfl, rfl, rfl, rfl, rfl⟩, (UInt64.add_zero _).symm⟩
    · exact same
  | environment valid => exact same
  | recorded new => exact same

theorem key_ne_of_displaces {call : Call} (now : Instant) (displaces : m.Displaces id call)
    (found : m.templates.get? id = some t) :
    ∃ t', (perform call now m).2.templates.get? id = some t' ∧ t'.key ≠ t.key := by
  cases call
  case put u =>
    obtain ⟨valid, new, rfl⟩ := displaces
    refine ⟨u, ?_, (key_ne_of_holder? new found).symm⟩
    show (put u now m).2.templates.get? u.id = some u
    rw [put, valid, new]
    show (m.templates.insert u.id u).get? u.id = some u
    rw [SortedMap.get?_insert, if_pos rfl]
  all_goals cases displaces

theorem Keyed.get?_put (h : Keyed m) (stored : perform (.put t) now m = (.ok id, m')) :
    ∃ first, m'.templates.get? id = some first ∧ first.key = t.key ∧
      (m.holder? t.key = none → first = t) := by
  generalize done : (Except.ok id : Except Error Identifier) = reply at stored
  cases change_of_perform stored with
  | refused e => cases done
  | asked call asks answer => cases asks
  | @touched _ old valid held =>
    obtain rfl := Except.ok.inj done
    refine ⟨{ old with updatedAt := now }, ?_, (mem_of_holder? held).1, fun new => ?_⟩
    · rw [SortedMap.get?_modify, if_pos rfl, h.get?_of_holder? held]
      rfl
    · rw [held] at new
      cases new
  | stored valid new =>
    obtain rfl := Except.ok.inj done
    exact ⟨t, by rw [SortedMap.get?_insert, if_pos rfl], rfl, fun _ => rfl⟩

/-! ### Runs -/

theorem get?_run {ys : List (Call × Instant)} (undisturbed : Undisturbed id ys m)
    (found : m.templates.get? id = some t) :
    ∃ t', (run ys m).2.templates.get? id = some t' ∧ t'.Alike t ∧
      t'.usage = t.usage + UInt64.ofNat (uses id (run ys m).1) := by
  induction ys generalizing m t with
  | nil => exact ⟨t, found, .refl t, (UInt64.add_zero _).symm⟩
  | cons y ys ih =>
    obtain ⟨first, later⟩ := undisturbed
    obtain ⟨u, after, alike, count⟩ := (change_perform y.1 y.2 m).keeps first found
    obtain ⟨t', kept, alike', count'⟩ := ih later after
    refine ⟨t', kept, alike'.trans alike, ?_⟩
    show t'.usage = t.usage + UInt64.ofNat (uses id (⟨y.1, (perform y.1 y.2 m).1⟩ :: _))
    rw [count', count, uses_cons, UInt64.ofNat_add, UInt64.add_assoc]
    congr 1
    rw [UInt64.add_comm]
    congr 1
    split <;> rfl

/-- A template is answered as it was first, with the uses that were counted since. -/
def Persists (id : Identifier) (first : Template) (replies : List Reply) (m : Memory) : Prop :=
  ∃ t, get id m = (.ok t, m) ∧ t.Alike first ∧ t.usage.toNat = first.usage.toNat + uses id replies

theorem get_eq_ok_iff : get id m = (.ok t, m) ↔ m.templates.get? id = some t := by
  unfold get
  constructor
  · intro answered
    split at answered
    · next u found => rw [found, Except.ok.inj (Prod.mk.inj answered).1]
    · cases (Prod.mk.inj answered).1
  · intro found
    rw [found]

/-- A template that was put persists through a run iff no call displaces it and its count does not outgrow
its word. -/
theorem put_persists_iff {xs : List (Call × Instant)}
    (stored : perform (.put t) now (run xs ({} : Memory)).2 = (.ok id, m)) :
    ∃ first, get id m = (.ok first, m) ∧ first.key = t.key ∧
      ((run xs ({} : Memory)).2.holder? t.key = none → first = t) ∧
      ∀ ys, (∀ zs, zs <+: ys → Persists id first (run zs m).1 (run zs m).2) ↔
        Undisturbed id ys m ∧ first.usage.toNat + uses id (run ys m).1 < 2 ^ 64 := by
  obtain ⟨first, found, key, fresh⟩ := (keyed_run xs).get?_put stored
  refine ⟨first, get_eq_ok_iff.2 found, key, fresh, fun ys => ⟨fun persists => ⟨?_, ?_⟩, ?_⟩⟩
  · by_contra disturbed
    -- Before the first call that displaces it the template is there, and after it one with another key.
    obtain ⟨ws, call, now', rest, rfl, -, displaces⟩ := exists_of_not_throughout disturbed
    rw [not_not] at displaces
    obtain ⟨u, before, alike, -⟩ := persists ws (List.prefix_append ..)
    obtain ⟨u', after, alike', -⟩ := persists (ws ++ [(call, now')]) ⟨rest, by simp⟩
    obtain ⟨v, replaced, other⟩ :=
      key_ne_of_displaces now' displaces (get_eq_ok_iff.1 before)
    rw [run_append, get_eq_ok_iff] at after
    obtain rfl : v = u' := Option.some.inj (replaced.symm.trans after)
    exact other (alike'.key.trans alike.key.symm)
  · obtain ⟨u, -, -, count⟩ := persists ys List.prefix_rfl
    exact count ▸ u.usage.toNat_lt
  · rintro ⟨undisturbed, bounded⟩ zs ⟨rest, rfl⟩
    have part : Undisturbed id zs m := ((throughout_append ..).1 undisturbed).1
    rw [run_append, uses_append] at bounded
    obtain ⟨u, kept, alike, count⟩ := get?_run part found
    refine ⟨u, get_eq_ok_iff.2 kept, alike, ?_⟩
    rw [count, UInt64.toNat_add, UInt64.toNat_ofNat', Nat.add_mod_mod]
    exact Nat.mod_eq_of_lt (by omega)

/-! ### A template that is displaced -/

def lone : Memory := { templates := SortedMap.empty.insert default (.blank default "a") }

/-- The same identifier with another name, and so with another key. -/
def newcomer : Template := .blank default "b"

theorem put_lone : perform (.put (.blank default "a")) default (run [] ({} : Memory)).2 =
    (.ok default, lone) := by
  have valid : (Template.blank default "a").validate = .ok () :=
    Template.validate_blank default (by decide)
  show put (.blank default "a") default {} = _
  rw [put, valid]
  rfl

theorem displaces_newcomer : lone.Displaces default (.put newcomer) := by
  refine ⟨Template.validate_blank default (by decide), ?_, rfl⟩
  refine List.find?_eq_none.2 fun t among => ?_
  obtain rfl := List.mem_singleton.1 among
  decide

/-- Both puts answer the same identifier, and what was put first is not there any more. -/
theorem put_displaces :
    perform (.put (.blank default "a")) default ({} : Memory) = (.ok default, lone) ∧
      ∃ m, perform (.put newcomer) default lone = (.ok default, m) ∧
        ∃ t, get default m = (.ok t, m) ∧ t.key ≠ (Template.blank default "a").key := by
  obtain ⟨valid, new, -⟩ := displaces_newcomer
  have answered : perform (.put newcomer) default lone =
      (.ok default, { lone with templates := lone.templates.insert default newcomer }) := by
    show put newcomer default lone = _
    rw [put, valid, new]
    rfl
  obtain ⟨t, found, other⟩ := key_ne_of_displaces default displaces_newcomer
    (show lone.templates.get? default = some (.blank default "a") from rfl)
  rw [answered] at found
  exact ⟨put_lone, _, answered, t, get_eq_ok_iff.2 found, other⟩

theorem put_persists_iff_lone :
    perform (.put (.blank default "a")) default (run [] ({} : Memory)).2 = (.ok default, lone) ∧
      ∃ first, get default lone = (.ok first, lone) ∧ first.key = (Template.blank default "a").key ∧
        ((run [] ({} : Memory)).2.holder? (Template.blank default "a").key = none →
          first = .blank default "a") ∧
        ∀ ys, (∀ zs, zs <+: ys → Persists default first (run zs lone).1 (run zs lone).2) ↔
          Undisturbed default ys lone ∧
            first.usage.toNat + uses default (run ys lone).1 < 2 ^ 64 :=
  ⟨put_lone, put_persists_iff put_lone⟩

end Memory

end Stencil.Catalog
