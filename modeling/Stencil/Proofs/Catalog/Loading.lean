import Mathlib.Logic.Function.Basic
import Stencil.Catalog
import Stencil.Proofs.Catalog.Faultless
import Stencil.Proofs.Catalog.Relational

/-!
# Loading environments

Environments are validated and stored one after the other, so the ones in front of the first invalid one stay
stored when the loading is refused. `load_atomic_iff` says what a catalog answers afterwards, and exactly when
that is what it answered before.
-/

namespace Stencil

theorem Environment.exists_of_validate {e : Environment} {x : Error} (h : e.validate = .error x) :
    ∃ why, x = .invalidEnvironment why := by
  unfold validate at h
  cases blank : Text.allBlank e.name.toList with
  | true =>
    rw [blank] at h
    exact ⟨_, (Except.error.inj h).symm⟩
  | false =>
    rw [blank] at h
    cases found : e.bindings.keys.find? fun n => !Placeholder.isName n.toList with
    | some name =>
      rw [found] at h
      exact ⟨_, (Except.error.inj h).symm⟩
    | none =>
      rw [found] at h
      cases h

namespace Catalog

/-- A backend that answers for the name of an environment what was stored last under it. -/
class Remembers (σ : Type) [Backend σ] where
  known : σ → String → Except Error (Option Environment)
  perform_environment : ∀ (name : String) (now : Instant) (s : σ),
    perform (.environment name) now s = (known s name, s)
  perform_put : ∀ {e : Environment} (now : Instant) (s : σ), e.validate = .ok () →
    ∃ s', perform (.putEnvironment e) now s = (.ok (), s') ∧
      known s' = Function.update (known s) e.name (.ok (some e))

instance : Remembers Memory where
  known m name := .ok (m.environments.get? name)
  perform_environment name now m := rfl
  perform_put := by
    intro e now m valid
    refine ⟨{ m with environments := m.environments.insert e.name e }, ?_, ?_⟩
    · show Memory.putEnvironment e m = _
      unfold Memory.putEnvironment
      rw [valid]
    · funext name
      show Except.ok ((m.environments.insert e.name e).get? name) = _
      rw [SortedMap.get?_insert]
      by_cases same : e.name = name
      · rw [if_pos same, same, Function.update_self]
      · rw [if_neg same, Function.update_of_ne (Ne.symm same)]

instance : Remembers Relational where
  known r name := (Relational.environment name r).1
  perform_environment := by
    intro name now r
    show Relational.environment name r = _
    unfold Relational.environment
    split <;> rfl
  perform_put := by
    intro e now r valid
    let others := r.environments.filter fun row => row.name ≠ e.name
    refine ⟨{ r with environments := others ++ [⟨e.name, e.toJson.reread⟩] }, ?_, ?_⟩
    · show Relational.putEnvironment e r = _
      unfold Relational.putEnvironment
      rw [valid]
    · funext name
      unfold Relational.environment
      dsimp only
      rw [Relational.find?_replaced r.environments ⟨e.name, e.toJson.reread⟩ name]
      by_cases same : e.name = name
      · have read : decode Environment.ofJson? e.toJson.reread = .ok e :=
          decode_eq_ok_iff.2 (Environment.ofJson?_reread e)
        rw [if_pos same, same, Function.update_self]
        dsimp only
        rw [read]
        rfl
      · rw [if_neg same, Function.update_of_ne (Ne.symm same)]
        split <;> rfl

variable {σ : Type} [Backend σ] [Remembers σ]

open Remembers (known)

def lastNamed? (es : List Environment) (name : String) : Option Environment :=
  (es.filter fun e => e.name == name).getLast?

theorem lastNamed?_cons (e : Environment) (es : List Environment) (name : String) :
    lastNamed? (e :: es) name =
      (lastNamed? es name).or (if e.name = name then some e else none) := by
  unfold lastNamed?
  by_cases same : e.name = name
  · rw [List.filter_cons_of_pos (by simpa using same), if_pos same]
    cases es.filter fun e => e.name == name with
    | nil => rfl
    | cons d ds =>
      rw [List.getLast?_cons_cons, List.getLast?_cons]
      rfl
  · rw [List.filter_cons_of_neg (by simpa using same), if_neg same, Option.or_none]

/-- The environments in front of the first invalid one. -/
def storable (es : List Environment) : List Environment := es.takeWhile fun e => e.validate.isOk

theorem storable_of_valid {e : Environment} {es : List Environment} (valid : e.validate = .ok ()) :
    storable (e :: es) = e :: storable es := by
  unfold storable
  rw [List.takeWhile_cons, valid]
  rfl

theorem storable_of_invalid {e : Environment} {es : List Environment} {x : Error}
    (invalid : e.validate = .error x) : storable (e :: es) = [] := by
  unfold storable
  rw [List.takeWhile_cons, invalid]
  rfl

/-- The first environment is refused, and nothing was done, or it is stored and the others are loaded. -/
theorem load_cons (now : Instant) (e : Environment) (es : List Environment) (s : σ) :
    (∃ x, e.validate = .error x ∧ loadEnvironments now (e :: es) s = (.error x, s)) ∨
    ∃ s', e.validate = .ok () ∧ known s' = Function.update (known s) e.name (.ok (some e)) ∧
      loadEnvironments now (e :: es) s = loadEnvironments now es s' := by
  cases valid : e.validate with
  | error x =>
    refine .inl ⟨x, rfl, ?_⟩
    unfold loadEnvironments
    rw [valid]
    rfl
  | ok _ =>
    obtain ⟨s', put, stored⟩ := Remembers.perform_put now s valid
    refine .inr ⟨s', rfl, stored, ?_⟩
    have unfolded : loadEnvironments now (e :: es) s =
        (perform (.putEnvironment e) now >>= fun _ => loadEnvironments now es) s := by
      rw [loadEnvironments, valid]
    rw [unfolded, Faultless.bind_ok put]

theorem loaded_or_refused (now : Instant) (es : List Environment) (s : σ) :
    (storable es = es ∧ (loadEnvironments now es s).1 = .ok ()) ∨
    ∃ e rest flaw, es = storable es ++ e :: rest ∧
      e.validate = .error (.invalidEnvironment flaw) ∧
      (loadEnvironments now es s).1 = .error (.invalidEnvironment flaw) := by
  induction es generalizing s with
  | nil => exact .inl ⟨rfl, rfl⟩
  | cons e es ih =>
    rcases load_cons now e es s with ⟨x, invalid, refused⟩ | ⟨s', valid, -, loaded⟩
    · obtain ⟨flaw, rfl⟩ := Environment.exists_of_validate invalid
      refine .inr ⟨e, es, flaw, ?_, invalid, by rw [refused]⟩
      rw [storable_of_invalid invalid, List.nil_append]
    · rw [storable_of_valid valid, loaded]
      rcases ih s' with ⟨all, ok⟩ | ⟨e', rest, flaw, split, invalid, refused⟩
      · exact .inl ⟨by rw [all], ok⟩
      · exact .inr ⟨e', rest, flaw, by rw [List.cons_append, ← split], invalid, refused⟩

theorem known_load (now : Instant) (es : List Environment) (s : σ) (name : String) :
    known (loadEnvironments now es s).2 name =
      ((lastNamed? (storable es) name).map fun e => .ok (some e)).getD (known s name) := by
  induction es generalizing s with
  | nil => rfl
  | cons e es ih =>
    rcases load_cons now e es s with ⟨x, invalid, refused⟩ | ⟨s', valid, stored, loaded⟩
    · rw [refused, storable_of_invalid invalid]
      rfl
    · rw [loaded, ih s', storable_of_valid valid, lastNamed?_cons, stored]
      -- what the rest stores under the name wins over the head, and the head over what was there
      cases lastNamed? (storable es) name with
      | some e' => rfl
      | none =>
        by_cases same : e.name = name
        · rw [if_pos same, ← same, Function.update_self]
          rfl
        · rw [if_neg same, Function.update_of_ne (Ne.symm same)]
          rfl

/-- What a list of environments does to a catalog. The environments in front of the first invalid one are
stored, whether or not there is one: so a refused list leaves every answer as it was exactly if each name
already had the environment that the list stores last under it. -/
theorem load_atomic_iff (now later : Instant) (es : List Environment) (s : σ) :
    let loaded := loadEnvironments now es s
    let stored := storable es
    let answer (s : σ) (name : String) := perform (.environment name) later s
    ((stored = es ∧ loaded.1 = .ok ()) ∨
      ∃ e rest flaw, es = stored ++ e :: rest ∧ e.validate = .error (.invalidEnvironment flaw) ∧
        loaded.1 = .error (.invalidEnvironment flaw)) ∧
    (∀ name, answer loaded.2 name =
      (((lastNamed? stored name).map fun e => .ok (some e)).getD (answer s name).1, loaded.2)) ∧
    ((∀ name, (answer loaded.2 name).1 = (answer s name).1) ↔
      ∀ name e, lastNamed? stored name = some e → (answer s name).1 = .ok (some e)) := by
  intro loaded stored answer
  have answered (s : σ) (name : String) : answer s name = (known s name, s) :=
    Remembers.perform_environment name later s
  simp only [answered]
  refine ⟨loaded_or_refused now es s, fun name => ?_, ?_⟩
  · rw [known_load now es s name]
  · constructor
    · intro same name e last
      rw [← same name, known_load now es s name, last]
      rfl
    · intro already name
      rw [known_load now es s name]
      cases last : lastNamed? (storable es) name with
      | none => rfl
      | some e => exact (already name e last).symm

def halfValid : List Environment := [.identity "staging", .identity ""]

theorem load_halfValid_not_atomic :
    let loaded := loadEnvironments default halfValid ({} : Memory)
    loaded.1 = .error (.invalidEnvironment .nameEmpty) ∧
      (perform (.environment "staging") default ({} : Memory)).1 = .ok none ∧
      (perform (.environment "staging") default loaded.2).1 = .ok (some (.identity "staging")) :=
  ⟨rfl, rfl, rfl⟩

end Catalog

end Stencil
