import Mathlib.Data.List.Nodup
import Mathlib.Data.List.Perm.Basic
import Stencil.Json.Fields
import Stencil.Json.Reread
import Stencil.Proofs.Json.Written
import Stencil.Proofs.SortedMap

/-!
# Fields of values that come back

A value can come back with the members of its objects in another order. What is asked of a document then gives
the same answers (`Faithful.required`, `Faithful.asMap?`), whichever way it came back: read from its text
(`faithful_settled`), or kept as the row of a table keeps it (`faithful_reread`).
-/

namespace Stencil.Json

/-- A way for values to come back that changes the order of members at most, and no number that its text gives
back. -/
structure Faithful (back : Json → Json) : Prop where
  null : back .null = .null
  bool : ∀ b, back (.bool b) = .bool b
  num : ∀ n : Number, n.Kept → back (.num n) = .num n
  str : ∀ s, back (.str s) = .str s
  arr : ∀ xs, back (.arr xs) = .arr (xs.map back)
  obj : ∀ ms : List (String × Json), (ms.map (·.1)).Nodup →
    ∃ ms', back (.obj ms) = .obj ms' ∧ ms'.Perm (ms.map fun m => (m.1, back m.2))

/-! ### The ways to come back -/

theorem reread_obj (members : List (String × Json)) :
    reread (.obj members) = .obj (members.map fun m => (m.1, reread m.2)) := by
  rw [reread, rereadMembers_eq_map]

theorem reread_arr (items : List Json) : reread (.arr items) = .arr (items.map reread) := by
  rw [reread, rereadItems_eq_map]

theorem faithful_reread : Faithful reread where
  null := by rw [reread]
  bool _ := by rw [reread]
  num n kept := by
    cases n with
    | int i => exact reread_int i
    | float x =>
      have back : parse (Number.float x).write = .ok (.num (.float x)) := kept
      rw [reread, Number.reread, back]
  str := reread_str
  arr := reread_arr
  obj ms _ := ⟨_, reread_obj ms, .refl _⟩

/-- An object whose keys are distinct. -/
def IsRecord (j : Json) : Prop := ∃ ms, j = .obj ms ∧ (ms.map (·.1)).Nodup

theorem get?_eq_some_iff {ms : List (String × Json)} (distinct : (ms.map (·.1)).Nodup) {key : String} {v : Json} :
    (Json.obj ms).get? key = some v ↔ (key, v) ∈ ms := by
  simp only [get?, Option.map_eq_some_iff]
  constructor
  · rintro ⟨m, found, rfl⟩
    obtain rfl : m.1 = key := by simpa using List.find?_some found
    exact List.mem_of_find?_eq_some found
  · intro among
    cases found : ms.find? fun m => m.1 == key with
    | none => simpa using List.find?_eq_none.1 found (key, v) among
    | some m =>
      have same : m.1 = key := by simpa using List.find?_some found
      have one : m = (key, v) := List.inj_on_of_nodup_map distinct (List.mem_of_find?_eq_some found) among same
      exact ⟨m, rfl, congrArg Prod.snd one⟩

theorem asOption?_of_read {α : Type} {read : Json → Option α} {j : Json} {a : α} (found : read j = some a)
    (other : j ≠ .null) : asOption? read j = some (some a) := by
  cases j with
  | null => exact absurd rfl other
  | _ => exact congrArg (Option.map some) found

namespace Faithful

variable {α : Type} {back : Json → Json} (faithful : Faithful back)

include faithful

/-! ### Objects -/

section

variable {j : Json} (record : j.IsRecord)

include record

theorem exists_obj : ∃ ms, back j = .obj ms := by
  obtain ⟨ms, rfl, distinct⟩ := record
  obtain ⟨ms', same, -⟩ := faithful.obj ms distinct
  exact ⟨ms', same⟩

theorem asRecord? (fields : List String) : (back j).asRecord? fields = some (back j) := by
  obtain ⟨ms, same⟩ := faithful.exists_obj record
  rw [same]
  rfl

theorem get? (key : String) : (back j).get? key = (j.get? key).map back := by
  obtain ⟨ms, rfl, distinct⟩ := record
  obtain ⟨ms', same, perm⟩ := faithful.obj ms distinct
  have keys : (ms'.map (·.1)).Nodup := by
    rw [(perm.map (·.1)).nodup_iff, List.map_map]
    exact distinct
  rw [same]
  refine Option.ext fun v => ?_
  rw [get?_eq_some_iff keys, perm.mem_iff, Option.map_eq_some_iff]
  simp only [get?_eq_some_iff distinct, List.mem_map]
  constructor
  · rintro ⟨⟨k, w⟩, among, ⟨⟩⟩
    exact ⟨w, among, rfl⟩
  · rintro ⟨w, among, rfl⟩
    exact ⟨(key, w), among, rfl⟩

variable {key : String} {v : Json} {read : Json → Option α} {a : α}

theorem required (found : j.get? key = some v) (inverse : read (back v) = some a) :
    (back j).required key read = some a := by
  rw [Json.required, faithful.get? record, found]
  exact inverse

theorem defaulted {value : α} (found : j.get? key = some v) (inverse : read (back v) = some a) :
    (back j).defaulted key value read = some a := by
  rw [Json.defaulted, faithful.get? record, found]
  exact inverse

theorem optional {o : Option α} (found : j.get? key = some v) (inverse : asOption? read (back v) = some o) :
    (back j).optional key read = some o := by
  rw [Json.optional, faithful.get? record, found]
  exact inverse

theorem absent (missing : j.get? key = none) : (back j).optional key read = some none := by
  rw [Json.optional, faithful.get? record, missing]
  rfl

end

/-! ### Other values -/

theorem asString? (s : String) : Json.asString? (back (.str s)) = some s := by
  rw [faithful.str]
  rfl

theorem asBool? (b : Bool) : Json.asBool? (back (.bool b)) = some b := by
  rw [faithful.bool]
  rfl

theorem asNat? {n : Nat} (small : n < 2 ^ 64) : Json.asNat? 64 (back (.nat n)) = some n := by
  rw [nat, faithful.num _ (kept_nat small)]
  exact if_pos (Decimal.isWord_natCast.2 small)

theorem asFloat? {x : Float} (kept : (Number.float x).Kept) : Json.asFloat? (back (.float x)) = some x := by
  rw [float, faithful.num _ kept]
  rfl

variable {read : Json → Option α} {write : α → Json}

theorem ne_null {s : String} : back (.str s) ≠ .null := by
  rw [faithful.str]
  exact nofun

theorem asList? {as : List α} (inverse : ∀ a ∈ as, read (back (write a)) = some a) :
    Json.asList? read (back (.arr (as.map write))) = some as := by
  rw [faithful.arr, List.map_map]
  exact mapM_map inverse

theorem asMap? {m : SortedMap String α} (inverse : ∀ a, read (back (write a)) = some a) :
    Json.asMap? read (back (.ofMap write m)) = some m := by
  have distinct : ((m.entries.map fun e => (e.1, write e.2)).map (·.1)).Nodup := by
    rw [List.map_map]
    exact m.nodup_keys
  obtain ⟨ms, same, perm⟩ := faithful.obj _ distinct
  rw [List.map_map] at perm
  obtain ⟨es, rfl, entries⟩ : ∃ es : List (String × α), ms = es.map (fun e => (e.1, back (write e.2))) ∧
      es.Perm m.entries := by
    have composed := List.eq_map_comp_perm fun e : String × α => (e.1, back (write e.2))
    exact (congrFun (congrFun composed ms) m.entries).mpr perm
  rw [ofMap, same, Json.asMap?, mapM_map fun e _ => ?_, Option.map_some, SortedMap.ofList_of_perm entries]
  dsimp only
  rw [inverse, Option.map_some]

end Faithful

end Stencil.Json
