/-!
# Sorted maps

A map is a list of keys and values in ascending order of the keys, so two maps with the same values
under the same keys are equal. `get?_insert` says what a map answers after an insertion.
-/

namespace Stencil

variable {κ α β : Type} [Ord κ]

/-- Keys and values, the keys strictly ascending. -/
structure SortedMap (κ α : Type) [Ord κ] where
  entries : List (κ × α)
  ascending : entries.Pairwise fun a b => compare a.1 b.1 = .lt

namespace SortedMap

instance [Repr κ] [Repr α] : Repr (SortedMap κ α) := ⟨fun m n => reprPrec m.entries n⟩

theorem ext {m n : SortedMap κ α} (h : m.entries = n.entries) : m = n := by
  cases m
  cases n
  simpa using h

instance [DecidableEq κ] [DecidableEq α] : DecidableEq (SortedMap κ α) := fun m n =>
  decidable_of_iff (m.entries = n.entries) ⟨ext, fun h => h ▸ rfl⟩

def empty : SortedMap κ α := ⟨[], List.Pairwise.nil⟩

instance : Inhabited (SortedMap κ α) := ⟨empty⟩

/-! ### Insertion into a list -/

/-- Puts a value under a key of an ascending list, in place of the one there. -/
def insertEntry (k : κ) (v : α) : List (κ × α) → List (κ × α)
  | [] => [(k, v)]
  | e :: rest =>
    match compare k e.1 with
    | .lt => (k, v) :: e :: rest
    | .eq => (k, v) :: rest
    | .gt => e :: insertEntry k v rest

theorem mem_insertEntry {k : κ} {v : α} {l : List (κ × α)} {e : κ × α}
    (h : e ∈ insertEntry k v l) : e = (k, v) ∨ e ∈ l := by
  induction l with
  | nil => simpa [insertEntry] using h
  | cons d l ih =>
    simp only [insertEntry] at h
    split at h
    · simpa using h
    · rcases List.mem_cons.1 h with h | h
      · exact .inl h
      · exact .inr (List.mem_cons_of_mem _ h)
    · rcases List.mem_cons.1 h with h | h
      · exact .inr (h ▸ List.mem_cons_self)
      · exact (ih h).imp id (List.mem_cons_of_mem _)

theorem ascending_insertEntry [Std.TransOrd κ] [Std.LawfulEqOrd κ] (k : κ) (v : α) {l : List (κ × α)}
    (h : l.Pairwise fun a b => compare a.1 b.1 = .lt) :
    (insertEntry k v l).Pairwise fun a b => compare a.1 b.1 = .lt := by
  induction l with
  | nil => simp [insertEntry]
  | cons d l ih =>
    have below := List.pairwise_cons.1 h
    simp only [insertEntry]
    split
    · next lt =>
      refine List.pairwise_cons.2 ⟨fun e he => ?_, h⟩
      rcases List.mem_cons.1 he with rfl | he
      · exact lt
      · exact Std.TransCmp.lt_trans lt (below.1 e he)
    · next eq =>
      have eq := Std.LawfulEqOrd.eq_of_compare eq
      exact List.pairwise_cons.2 ⟨fun e he => eq ▸ below.1 e he, below.2⟩
    · next gt =>
      refine List.pairwise_cons.2 ⟨fun e he => ?_, ih below.2⟩
      rcases mem_insertEntry he with rfl | he
      · exact Std.OrientedCmp.lt_of_gt gt
      · exact below.1 e he

/-! ### Operations -/

def get? (m : SortedMap κ α) (k : κ) : Option α :=
  (m.entries.find? fun e => compare e.1 k == .eq).map (·.2)

def contains (m : SortedMap κ α) (k : κ) : Bool := (m.get? k).isSome

def keys (m : SortedMap κ α) : List κ := m.entries.map (·.1)

def values (m : SortedMap κ α) : List α := m.entries.map (·.2)

def isEmpty (m : SortedMap κ α) : Bool := m.entries.isEmpty

def mapValues (f : α → β) (m : SortedMap κ α) : SortedMap κ β :=
  ⟨m.entries.map fun e => (e.1, f e.2), List.pairwise_map.2 m.ascending⟩

@[simp] theorem get?_empty (k : κ) : (empty : SortedMap κ α).get? k = none := rfl

def erase (m : SortedMap κ α) (k : κ) : SortedMap κ α :=
  ⟨m.entries.filter fun e => compare e.1 k != .eq, m.ascending.filter _⟩

variable [Std.TransOrd κ] [Std.LawfulEqOrd κ]

def insert (m : SortedMap κ α) (k : κ) (v : α) : SortedMap κ α :=
  ⟨insertEntry k v m.entries, ascending_insertEntry k v m.ascending⟩

/-- The map of a list; of equal keys the last one counts. -/
def ofList (l : List (κ × α)) : SortedMap κ α := l.foldl (fun m e => m.insert e.1 e.2) empty

/-- The map with the value under a key changed, when there is one. -/
def modify (m : SortedMap κ α) (k : κ) (f : α → α) : SortedMap κ α :=
  match m.get? k with
  | some v => m.insert k (f v)
  | none => m

theorem find?_insertEntry [DecidableEq κ] (k k' : κ) (v : α) (l : List (κ × α)) :
    (insertEntry k v l).find? (fun e => compare e.1 k' == .eq) =
      if k = k' then some (k, v) else l.find? fun e => compare e.1 k' == .eq := by
  induction l with
  | nil => by_cases h : k = k' <;> simp [insertEntry, h]
  | cons d l ih =>
    simp only [insertEntry]
    split
    · by_cases h : k = k' <;> simp [h]
    · next eq =>
      have eq := Std.LawfulEqOrd.eq_of_compare eq
      by_cases h : k = k'
      · simp [h]
      · have : d.1 ≠ k' := eq ▸ h
        simp [h, this]
    · next gt =>
      rw [List.find?_cons, ih]
      by_cases h : k = k'
      · subst h
        simp [Std.OrientedCmp.lt_of_gt gt]
      · simp [h, List.find?_cons]

/-- An inserted value is found under its key, and other keys answer as before. -/
theorem get?_insert [DecidableEq κ] (m : SortedMap κ α) (k k' : κ) (v : α) :
    (m.insert k v).get? k' = if k = k' then some v else m.get? k' := by
  simp only [get?, insert, find?_insertEntry]
  split <;> rfl

end SortedMap

abbrev SortedSet (κ : Type) [Ord κ] := SortedMap κ Unit

def SortedSet.ofList [Std.TransOrd κ] [Std.LawfulEqOrd κ] (l : List κ) : SortedSet κ :=
  SortedMap.ofList (l.map (·, ()))

end Stencil
