import Stencil.Grammar.Structured
import Stencil.Proofs.Grammar.Lines

/-!
# Values with other strings

Two values that differ in strings only, never in keys, are documents of the same shape
(`Reworded.sameShape`).
-/

namespace Stencil

namespace Json

mutual

/-- The second value is the first one with other strings in it, as `new` allows. -/
inductive Reworded (new : List Char → List Char → Prop) : Json → Json → Prop where
  | same (j : Json) : Reworded new j j
  | text {s s' : String} : new s.toList s'.toList → Reworded new (.str s) (.str s')
  | list {xs xs' : List Json} : RewordedItems new xs xs' → Reworded new (.arr xs) (.arr xs')
  | object {ms ms' : List (String × Json)} : RewordedMembers new ms ms' →
      Reworded new (.obj ms) (.obj ms')

inductive RewordedItems (new : List Char → List Char → Prop) : List Json → List Json → Prop where
  | nil : RewordedItems new [] []
  | cons {x x' : Json} {xs xs' : List Json} : Reworded new x x' → RewordedItems new xs xs' →
      RewordedItems new (x :: xs) (x' :: xs')

inductive RewordedMembers (new : List Char → List Char → Prop) :
    List (String × Json) → List (String × Json) → Prop where
  | nil : RewordedMembers new [] []
  | cons {k : String} {v v' : Json} {ms ms' : List (String × Json)} : Reworded new v v' →
      RewordedMembers new ms ms' → RewordedMembers new ((k, v) :: ms) ((k, v') :: ms')

end

variable {new : List Char → List Char → Prop}

theorem RewordedMembers.insert {ms ms' : List (String × Json)} (h : RewordedMembers new ms ms')
    (k : String) {v v' : Json} (value : Reworded new v v') :
    RewordedMembers new (insertMember k v ms) (insertMember k v' ms') := by
  cases h with
  | nil => exact .cons value .nil
  | @cons k' w w' rest rest' held others =>
    rw [insertMember, insertMember]
    split
    · exact .cons value (.cons held others)
    · split
      · exact .cons value others
      · exact .cons held (others.insert k value)

theorem RewordedMembers.sorted {ms ms' : List (String × Json)} (h : RewordedMembers new ms ms') :
    Reworded new (.sorted ms) (.sorted ms') := by
  suffices all : ∀ {acc acc'}, RewordedMembers new acc acc' →
      RewordedMembers new (ms.foldl (fun acc m => insertMember m.1 m.2 acc) acc)
        (ms'.foldl (fun acc m => insertMember m.1 m.2 acc) acc') from .object (all .nil)
  intro acc acc' before
  induction ms generalizing ms' acc acc' with
  | nil =>
    cases h
    exact before
  | cons m ms ih =>
    cases h with
    | cons value others => exact ih others (before.insert _ value)

/-! ### The shape of documents -/

end Json

/-- Entries under the same keys, and the same depth. -/
structure Flat.Alike (f f' : Flat) : Prop where
  keys : f'.out.map (·.key) = f.out.map (·.key)
  depth : f'.depth = f.depth

structure Flats.Alike (f f' : Flats) : Prop where
  keys : f'.out.map (·.key) = f.out.map (·.key)
  deepest : f'.deepest = f.deepest

theorem Flat.Alike.leaf {out out' : Array Entry} (keys : out'.map (·.key) = out.map (·.key))
    (front text text' : String) (depth : Nat) :
    (Flat.leaf front text depth out).Alike (.leaf front text' depth out') :=
  ⟨by simp [Flat.leaf, keys], rfl⟩

namespace Flats.Alike

variable {f f' : Flats}

theorem within (h : f.Alike f') (depth : Nat) : (f.within depth).Alike (f'.within depth) :=
  ⟨h.keys, congrArg (·.getD depth) h.deepest⟩

theorem behind (h : f.Alike f') {first first' : Flat} (same : first.Alike first') :
    (f.behind first.depth).Alike (f'.behind first'.depth) :=
  ⟨h.keys, by rw [Flats.behind, Flats.behind, same.depth, h.deepest]⟩

end Flats.Alike

namespace Json

variable {new : List Char → List Char → Prop}

mutual

/-- What a value adds does not depend on the entries before. -/
theorem flatten_alike {out out' : Array Entry} (keys : out'.map (·.key) = out.map (·.key)) (front : String)
    (depth : Nat) : (j : Json) → (j.flatten front depth out).Alike (j.flatten front depth out')
  | obj ms => (flattenMembers_alike keys front depth ms).within depth
  | arr xs => (flattenItems_alike keys front depth 0 xs).within depth
  | str _ | null | bool _ | num _ => .leaf keys ..

theorem flattenMembers_alike {out out' : Array Entry} (keys : out'.map (·.key) = out.map (·.key)) (front : String)
    (depth : Nat) : (ms : List (String × Json)) →
      (flattenMembers front depth out ms).Alike (flattenMembers front depth out' ms)
  | [] => ⟨keys, rfl⟩
  | (k, v) :: rest =>
    have first := flatten_alike keys (joinKey front k) (depth + 1) v
    (flattenMembers_alike first.keys front depth rest).behind first

theorem flattenItems_alike {out out' : Array Entry} (keys : out'.map (·.key) = out.map (·.key)) (front : String)
    (depth n : Nat) : (xs : List Json) →
      (flattenItems front depth n out xs).Alike (flattenItems front depth n out' xs)
  | [] => ⟨keys, rfl⟩
  | v :: rest =>
    have first := flatten_alike keys (joinKey front (toString n)) (depth + 1) v
    (flattenItems_alike first.keys front depth (n + 1) rest).behind first

end

mutual

theorem Reworded.alike {out out' : Array Entry} (keys : out'.map (·.key) = out.map (·.key)) (front : String)
    (depth : Nat) {j j' : Json} : Reworded new j j' →
      (j.flatten front depth out).Alike (j'.flatten front depth out')
  | .same j => flatten_alike keys front depth j
  | .text _ => .leaf keys ..
  | .list items => (items.alike keys front depth 0).within depth
  | .object members => (members.alike keys front depth).within depth

theorem RewordedItems.alike {out out' : Array Entry} (keys : out'.map (·.key) = out.map (·.key)) (front : String)
    (depth n : Nat) {xs xs' : List Json} : RewordedItems new xs xs' →
      (flattenItems front depth n out xs).Alike (flattenItems front depth n out' xs')
  | .nil => ⟨keys, rfl⟩
  | .cons value others =>
    have first := value.alike keys (joinKey front (toString n)) (depth + 1)
    (others.alike first.keys front depth (n + 1)).behind first

theorem RewordedMembers.alike {out out' : Array Entry} (keys : out'.map (·.key) = out.map (·.key)) (front : String)
    (depth : Nat) {ms ms' : List (String × Json)} : RewordedMembers new ms ms' →
      (flattenMembers front depth out ms).Alike (flattenMembers front depth out' ms')
  | .nil => ⟨keys, rfl⟩
  | .cons (k := k) value others =>
    have first := value.alike keys (joinKey front k) (depth + 1)
    (others.alike first.keys front depth).behind first

end

theorem Reworded.isObject {j j' : Json} (h : Reworded new j j') : j'.isObject = j.isObject := by
  cases h <;> rfl

theorem Reworded.sections {j j' : Json} (h : Reworded new j j') : j'.sections = j.sections := by
  cases h with
  | @object ms ms' members =>
    show ms'.countP _ = ms.countP _
    induction ms generalizing ms' with
    | nil =>
      cases members
      rfl
    | cons m rest ih =>
      cases members with
      | cons value others => rw [List.countP_cons, List.countP_cons, ih others, value.isObject]
  | _ => rfl

/-- Values with other strings are documents with the same keys, of the same shape. -/
theorem Reworded.sameShape {j j' : Json} (h : Reworded new j j') : j.documentOf.SameShape j'.documentOf := by
  have none : (#[] : Array Entry).map (·.key) = (#[] : Array Entry).map (·.key) := rfl
  have flat := h.alike none "" 0
  refine ⟨?_, h.sections, flat.depth, rfl, rfl⟩
  have keys := congrArg Array.toList flat.keys
  rwa [Array.toList_map, Array.toList_map] at keys

end Json

end Stencil
