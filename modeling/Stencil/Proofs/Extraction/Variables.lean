import Mathlib.Data.List.Nodup
import Stencil.Extraction.Parameters
import Stencil.Proofs.SortedMap

/-!
# Variables of an extraction

The variables that an extraction collects stay sound: every value has one name, that name is declared
with the value as its default, and it can name a placeholder. A new variable never takes a name that
is declared already, so declarations are never lost (`nameOf_spec`).
-/

namespace Stencil.Extraction.Variables

/-! ### Names that are free -/

theorem numbered_injective (base : String) {m n : Nat} (h : numbered base m = numbered base n) :
    m = n := by
  have lists := congrArg String.toList h
  simp only [numbered, String.toList_append, List.append_cancel_left_eq] at lists
  have digits : Nat.toDigits 10 m = Nat.toDigits 10 n := by simpa [Nat.toString_eq_ofList_toDigits] using lists
  have values := congrArg (Nat.ofDigitChars 10 · 0) digits
  simpa using values

/-- Among more numbered names than there are declarations one is free. -/
theorem exists_numbered_free (schema : Schema) (base : String) :
    ∃ n ∈ (List.range (schema.keys.length + 1)).map (· + 2),
      schema.contains (numbered base n) = false := by
  by_contra taken
  simp only [not_exists, not_and, Bool.not_eq_false] at taken
  let numbers := (List.range (schema.keys.length + 1)).map (· + 2)
  have distinct : (numbers.map (numbered base)).Nodup := by
    refine List.Nodup.map (fun _ _ => numbered_injective base) ?_
    exact List.Nodup.map (fun _ _ h => Nat.add_right_cancel h) List.nodup_range
  have declared : numbers.map (numbered base) ⊆ schema.keys := by
    intro name member
    obtain ⟨n, among, rfl⟩ := List.mem_map.1 member
    exact SortedMap.contains_iff_mem_keys.1 (taken n among)
  have bound := List.Nodup.length_le_of_subset distinct declared
  have longer : (numbers.map (numbered base)).length = schema.keys.length + 1 := by simp [numbers]
  omega

theorem contains_freeName (schema : Schema) (base : String) :
    schema.contains (freeName schema base) = false := by
  unfold freeName
  split
  · dsimp only
    split
    · next n found => simpa using List.find?_some found
    · next missing =>
      obtain ⟨n, among, free⟩ := exists_numbered_free schema base
      have taken := List.find?_eq_none.1 missing n among
      simp [free] at taken
  · next free => simpa using free

/-! ### Names that placeholders take -/

theorem isName_append {name more : List Char} (valid : Placeholder.isName name = true)
    (chars : more.all Placeholder.isNameChar = true) : Placeholder.isName (name ++ more) = true := by
  cases name with
  | nil => simp [Placeholder.isName] at valid
  | cons c cs =>
    simp only [Placeholder.isName, Bool.and_eq_true, List.cons_append, List.all_append] at valid ⊢
    exact ⟨valid.1, valid.2, chars⟩

theorem isName_baseName (c : Candidate) : Placeholder.isName (baseName c).toList = true := by
  unfold baseName
  split
  · next name found =>
    obtain ⟨binding, _, snake⟩ := Option.bind_eq_some_iff.1 found
    rw [String.toList_ofList]
    exact isName_of_snakeCase snake
  · cases c.type <;> decide

theorem isName_numbered {base : String} (valid : Placeholder.isName base.toList = true) (n : Nat) :
    Placeholder.isName (numbered base n).toList = true := by
  have digits : ∀ d ∈ (toString n).toList, Placeholder.isNameChar d = true := by
    intro d among
    rw [Nat.toString_eq_ofList_toDigits, String.toList_ofList] at among
    have digit : d.isDigit = true := Nat.isDigit_of_mem_toDigits (by decide) (by decide) among
    simp [Placeholder.isNameChar, Char.isAlphanum, digit]
  have chars : ("_".toList ++ (toString n).toList).all Placeholder.isNameChar = true := by
    rw [List.all_append, List.all_eq_true.2 digits]
    decide
  unfold numbered
  rw [String.toList_append, String.toList_append, List.append_assoc]
  exact isName_append valid chars

theorem isName_freeName (schema : Schema) {base : String}
    (valid : Placeholder.isName base.toList = true) :
    Placeholder.isName (freeName schema base).toList = true := by
  unfold freeName
  split
  · dsimp only
    split
    · exact isName_numbered valid _
    · exact valid
  · exact valid

/-! ### Soundness -/

/-- Every value that was met is the default of its variable, and declared names can be marked. -/
structure Sound (vs : Variables) : Prop where
  declared : ∀ e ∈ vs.names, ∃ type, vs.schema.get? e.2 = some (.optional type (String.ofList e.1))
  named : ∀ name ∈ vs.schema.keys, Placeholder.isName name.toList = true

theorem sound_empty : Sound {} where
  declared := by simp
  named := by simp [SortedMap.keys, SortedMap.empty]

/-- The second schema declares at least what the first one does. -/
def Extends (schema schema' : Schema) : Prop :=
  ∀ name v, schema.get? name = some v → schema'.get? name = some v

theorem Extends.refl (schema : Schema) : Extends schema schema := fun _ _ h => h

theorem Extends.trans {a b c : Schema} (ab : Extends a b) (bc : Extends b c) : Extends a c :=
  fun name v h => bc name v (ab name v h)

theorem extends_insert {schema : Schema} {name : String} (free : schema.contains name = false)
    (v : Variable) : Extends schema (schema.insert name v) := by
  intro name' v' found
  have apart : name ≠ name' := by
    rintro rfl
    simp [SortedMap.contains, found] at free
  rw [SortedMap.get?_insert, if_neg apart, found]

/-- A candidate gets a variable with its value as the default; nothing is declared anew that was
declared before. -/
theorem nameOf_spec {vs : Variables} (sound : vs.Sound) (c : Candidate) :
    (vs.nameOf c).2.Sound ∧ Extends vs.schema (vs.nameOf c).2.schema ∧
      ∃ type, (vs.nameOf c).2.schema.get? (vs.nameOf c).1 =
        some (.optional type (String.ofList c.value)) := by
  unfold nameOf
  split
  · next e found =>
    have value : e.1 = c.value := by simpa using List.find?_some found
    obtain ⟨type, declared⟩ := sound.declared e (List.mem_of_find?_eq_some found)
    exact ⟨sound, .refl _, type, value ▸ declared⟩
  · dsimp only
    have free := contains_freeName vs.schema (baseName c)
    have valid := isName_freeName vs.schema (isName_baseName c)
    generalize freeName vs.schema (baseName c) = name at free valid ⊢
    have grown := extends_insert free (.optional c.type (String.ofList c.value))
    have new : (vs.schema.insert name (.optional c.type (String.ofList c.value))).get? name =
        some (.optional c.type (String.ofList c.value)) := by
      rw [SortedMap.get?_insert, if_pos rfl]
    refine ⟨⟨?_, ?_⟩, grown, c.type, new⟩
    · intro e among
      rcases List.mem_cons.1 among with rfl | among
      · exact ⟨c.type, new⟩
      · obtain ⟨type, declared⟩ := sound.declared e among
        exact ⟨type, grown _ _ declared⟩
    · intro name' key
      rw [← SortedMap.contains_iff_mem_keys, SortedMap.contains_insert] at key
      rcases Bool.or_eq_true_iff.1 key with same | old
      · have same : name = name' := by simpa using same
        exact same ▸ valid
      · exact sound.named name' (SortedMap.contains_iff_mem_keys.1 old)

theorem isName_nameOf {vs : Variables} (sound : vs.Sound) (c : Candidate) :
    Placeholder.isName (vs.nameOf c).1.toList = true := by
  obtain ⟨grown, -, type, declared⟩ := nameOf_spec sound c
  refine grown.named _ (SortedMap.contains_iff_mem_keys.1 ?_)
  simp [SortedMap.contains, declared]

end Stencil.Extraction.Variables
