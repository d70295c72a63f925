import Stencil.SortedMap

/-!
# What sorted maps hold

`get?_eq_some_iff` ties the answers of a map to its entries, and `ofList_entries` says that a map is
made up of its entries.
-/

namespace Stencil.SortedMap

variable {κ α : Type} [Ord κ] [Std.LawfulEqOrd κ]

theorem find?_of_mem {l : List (κ × α)} (ascending : l.Pairwise fun a b => compare a.1 b.1 = .lt)
    {e : κ × α} (h : e ∈ l) : l.find? (fun d => compare d.1 e.1 == .eq) = some e := by
  induction l with
  | nil => simp at h
  | cons d l ih =>
    have below := List.pairwise_cons.1 ascending
    rcases List.mem_cons.1 h with rfl | h
    · simp
    · have lt := below.1 e h
      rw [List.find?_cons_of_neg (by simp [lt]), ih below.2 h]

theorem get?_eq_some_iff {m : SortedMap κ α} {k : κ} {v : α} :
    m.get? k = some v ↔ (k, v) ∈ m.entries := by
  constructor
  · intro h
    simp only [get?, Option.map_eq_some_iff] at h
    obtain ⟨e, found, rfl⟩ := h
    have same := List.find?_some found
    have key : e.1 = k := Std.LawfulEqOrd.eq_of_compare (by simpa using same)
    exact key ▸ List.mem_of_find?_eq_some found
  · intro h
    have found := find?_of_mem m.ascending h
    simp only [get?, found, Option.map_some]

theorem contains_iff_mem_keys {m : SortedMap κ α} {k : κ} : m.contains k = true ↔ k ∈ m.keys := by
  simp only [contains, Option.isSome_iff_exists, get?_eq_some_iff, keys, List.mem_map]
  constructor
  · rintro ⟨v, h⟩
    exact ⟨(k, v), h, rfl⟩
  · rintro ⟨⟨_, v⟩, h, rfl⟩
    exact ⟨v, h⟩

omit [Std.LawfulEqOrd κ] in
theorem nodup_keys [Std.ReflOrd κ] (m : SortedMap κ α) : m.keys.Nodup := by
  refine List.pairwise_map.2 (m.ascending.imp fun {a b} below same => ?_)
  rw [same, Std.ReflOrd.compare_self] at below
  cases below

theorem mem_values {m : SortedMap κ α} {v : α} (h : v ∈ m.values) : ∃ k, m.get? k = some v := by
  obtain ⟨e, entry, rfl⟩ := List.mem_map.1 h
  exact ⟨e.1, get?_eq_some_iff.2 entry⟩

theorem mem_values_of_get? {m : SortedMap κ α} {k : κ} {v : α} (h : m.get? k = some v) :
    v ∈ m.values := List.mem_map.2 ⟨(k, v), get?_eq_some_iff.1 h, rfl⟩

variable [Std.TransOrd κ]

theorem contains_insert [DecidableEq κ] (m : SortedMap κ α) (k k' : κ) (v : α) :
    (m.insert k v).contains k' = (decide (k = k') || m.contains k') := by
  simp only [contains, get?_insert]
  split <;> simp_all

theorem contains_insert_iff [DecidableEq κ] {β : Type} {m : SortedMap κ α} {key : β → κ} {xs : List β}
    (keys : ∀ k, m.contains k = true ↔ ∃ x ∈ xs, key x = k) (x : β) (v : α) (k : κ) :
    (m.insert (key x) v).contains k = true ↔ ∃ y ∈ xs ++ [x], key y = k := by
  rw [contains_insert, Bool.or_eq_true, decide_eq_true_iff, keys]
  simp only [List.mem_append, List.mem_singleton, or_and_right, exists_or, exists_eq_left]
  exact or_comm

theorem mem_keys_foldl_insert [DecidableEq κ] (l : List (κ × α)) (m : SortedMap κ α) (k : κ) :
    k ∈ (l.foldl (fun m e => m.insert e.1 e.2) m).keys ↔ k ∈ m.keys ∨ k ∈ l.map (·.1) := by
  induction l generalizing m with
  | nil => simp
  | cons d l ih =>
    rw [List.foldl_cons, ih, ← contains_iff_mem_keys, contains_insert, Bool.or_eq_true,
      decide_eq_true_iff, contains_iff_mem_keys, List.map_cons, List.mem_cons]
    grind

theorem mem_keys_ofList [DecidableEq κ] {l : List (κ × α)} {k : κ} :
    k ∈ (ofList l).keys ↔ k ∈ l.map (·.1) := by
  rw [ofList, mem_keys_foldl_insert]
  simp [keys, empty]

theorem get?_modify [DecidableEq κ] (m : SortedMap κ α) (k k' : κ) (f : α → α) :
    (m.modify k f).get? k' = if k = k' then (m.get? k').map f else m.get? k' := by
  unfold modify
  split
  · next v found =>
    rw [get?_insert]
    split
    · next same => rw [← same, found, Option.map_some]
    · rfl
  · next missing =>
    split
    · next same => rw [← same, missing, Option.map_none]
    · rfl

/-! ### Maps from their entries -/

omit [Std.LawfulEqOrd κ] in
theorem insertEntry_of_above {k : κ} {v : α} {l : List (κ × α)}
    (above : ∀ e ∈ l, compare e.1 k = .lt) : insertEntry k v l = l ++ [(k, v)] := by
  induction l with
  | nil => rfl
  | cons d l ih =>
    have gt : compare k d.1 = .gt := Std.OrientedCmp.gt_of_lt (above d List.mem_cons_self)
    simp only [insertEntry, gt, List.cons_append]
    rw [ih fun e h => above e (List.mem_cons_of_mem _ h)]

theorem entries_foldl_insert {l : List (κ × α)} {m : SortedMap κ α}
    (ascending : (m.entries ++ l).Pairwise fun a b => compare a.1 b.1 = .lt) :
    (l.foldl (fun m e => m.insert e.1 e.2) m).entries = m.entries ++ l := by
  induction l generalizing m with
  | nil => simp
  | cons d l ih =>
    have above : ∀ e ∈ m.entries, compare e.1 d.1 = .lt := fun e h =>
      (List.pairwise_append.1 ascending).2.2 e h d List.mem_cons_self
    have step : (m.insert d.1 d.2).entries = m.entries ++ [d] := insertEntry_of_above above
    rw [List.foldl_cons, ih (by rw [step]; simpa using ascending), step]
    simp

theorem ofList_entries (m : SortedMap κ α) : ofList m.entries = m :=
  ext (entries_foldl_insert (m := empty) m.ascending)

omit [Std.TransOrd κ] in
theorem perm_insertEntry {k : κ} {v : α} {l : List (κ × α)} (fresh : ∀ e ∈ l, e.1 ≠ k) :
    (insertEntry k v l).Perm ((k, v) :: l) := by
  induction l with
  | nil => rfl
  | cons d l ih =>
    obtain ⟨other, others⟩ := List.forall_mem_cons.1 fresh
    rw [insertEntry]
    split
    · rfl
    · next same => exact absurd (Std.LawfulEqOrd.eq_of_compare same).symm other
    · exact ((ih others).cons d).trans (.swap ..)

theorem perm_foldl_insert {l : List (κ × α)} {m : SortedMap κ α}
    (distinct : ((m.entries ++ l).map (·.1)).Nodup) :
    (l.foldl (fun m e => m.insert e.1 e.2) m).entries.Perm (m.entries ++ l) := by
  induction l generalizing m with
  | nil => rw [List.append_nil, List.foldl_nil]
  | cons d l ih =>
    have fresh : ∀ e ∈ m.entries, e.1 ≠ d.1 := by
      rw [List.map_append, List.nodup_append] at distinct
      exact fun e among => distinct.2.2 e.1 (List.mem_map_of_mem among) d.1 List.mem_cons_self
    have step : ((m.insert d.1 d.2).entries ++ l).Perm (m.entries ++ d :: l) :=
      ((perm_insertEntry fresh).append_right l).trans List.perm_middle.symm
    exact (ih ((step.map (·.1)).nodup_iff.2 distinct)).trans step

theorem perm_ofList {l : List (κ × α)} (distinct : (l.map (·.1)).Nodup) : (ofList l).entries.Perm l :=
  perm_foldl_insert (m := empty) distinct

/-- A map is made up of its entries in any order. -/
theorem ofList_of_perm {m : SortedMap κ α} {l : List (κ × α)} (perm : l.Perm m.entries) : ofList l = m := by
  have keys : (l.map (·.1)).Perm m.keys := perm.map (·.1)
  have distinct := keys.nodup_iff.2 m.nodup_keys
  refine ext (((perm_ofList distinct).trans perm).eq_of_pairwise (fun a b _ _ below above => ?_)
    (ofList l).ascending m.ascending)
  rw [Std.OrientedCmp.gt_of_lt below] at above
  cases above

end Stencil.SortedMap
