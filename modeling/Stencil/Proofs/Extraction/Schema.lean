import Stencil.Proofs.Extraction.Validity

/-!
# The schema of a template

Values and names of an extraction belong together one to one, every declaration is that of a value that was
met, and the content marks the names of the candidates that are replaced, in their order. So the schema of a
template says exactly what its content marks (`schema_of_extract`).
-/

namespace Stencil

theorem Placeholder.nodup_names (cs : List Char) : (Placeholder.names cs).Nodup := by
  have folded : ∀ ns seen : List (List Char), seen.Nodup →
      (ns.foldl (fun seen n => if seen.contains n then seen else seen ++ [n]) seen).Nodup := by
    intro ns
    induction ns with
    | nil => exact fun seen distinct => distinct
    | cons n ns ih =>
      intro seen distinct
      rw [List.foldl_cons]
      apply ih
      split
      · exact distinct
      · next new =>
        rw [← List.concat_eq_append]
        exact distinct.concat (by simpa using new)
  exact folded _ [] List.nodup_nil

namespace Extraction

/-! ### Types of candidates -/

theorem classify_of_candidate? {start : Nat} {value : List Char} {binding : Option (List Char)}
    {c : Candidate} (h : candidate? start value binding = some c) : classify c.value = some c.type := by
  obtain ⟨type, found, rfl⟩ := Option.map_eq_some_iff.1 h
  exact found

theorem classify_of_lineCandidate? {format : Format} {start : Nat} {p : Pair} {c : Candidate}
    (h : lineCandidate? format start p = some c) : classify c.value = some c.type := by
  have bare : (if format = .toml || isMarked p.value then none
      else candidate? (start + p.offset) p.value p.key) = some c → classify c.value = some c.type := by
    intro found
    split at found
    · cases found
    · exact classify_of_candidate? found
  unfold lineCandidate? at h
  dsimp only at h
  split at h
  · split at h
    · exact classify_of_candidate? h
    · exact bare h
  · exact bare h

theorem classify_of_mem_candidatesOfLine {format : Format} {start : Nat} {line : List Char} {c : Candidate}
    (h : c ∈ candidatesOfLine format start line) : classify c.value = some c.type := by
  have ofLine : ∀ {pair : Option Pair}, c ∈ (pair.bind (lineCandidate? format start)).toList →
      classify c.value = some c.type := by
    intro pair among
    obtain ⟨p, -, found⟩ := Option.bind_eq_some_iff.1 (Option.mem_toList.1 among)
    exact classify_of_lineCandidate? found
  unfold candidatesOfLine at h
  dsimp only at h
  split at h
  · cases h
  · cases format with
    | json =>
      obtain ⟨p, -, found⟩ := List.mem_filterMap.1 h
      exact classify_of_candidate? found
    | _ => exact ofLine h

theorem classify_of_mem_candidates [Libraries] {kind : Kind} {cs : List Char} {c : Candidate}
    (h : c ∈ candidates kind cs) : classify c.value = some c.type := by
  cases kind with
  | script =>
    unfold candidates scriptCandidates at h
    dsimp only at h
    split at h
    · cases h
    · obtain ⟨l, -, found⟩ := List.mem_filterMap.1 h
      exact classify_of_candidate? found
  | config format =>
    obtain ⟨before, line, after, -, found⟩ := exists_line_of_mem_candidatesOfLines [] h
    exact classify_of_mem_candidatesOfLine found

/-! ### Names of values -/

namespace Variables

/-- A free name is the base itself, or carries the least number from two on that makes it free. -/
theorem freeName_spec (schema : Schema) (base : String) :
    schema.contains (freeName schema base) = false ∧
      (schema.contains base = false → freeName schema base = base) ∧
      (schema.contains base = true → ∃ n, 2 ≤ n ∧ freeName schema base = numbered base n ∧
        ∀ m, 2 ≤ m → m < n → schema.contains (numbered base m) = true) := by
  refine ⟨contains_freeName schema base, ?_, ?_⟩
  · intro free
    unfold freeName
    rw [free]
    rfl
  · intro taken
    unfold freeName
    rw [if_pos taken]
    dsimp only
    rw [List.find?_map]
    cases found : (List.range (schema.keys.length + 1)).find?
        ((fun n => !schema.contains (numbered base n)) ∘ (· + 2)) with
    | none =>
      obtain ⟨n, among, free⟩ := exists_numbered_free schema base
      obtain ⟨k, inRange, rfl⟩ := List.mem_map.1 among
      have refused := List.find?_eq_none.1 found k inRange
      simp [free] at refused
    | some k =>
      refine ⟨k + 2, by omega, rfl, ?_⟩
      intro m least below
      have earlier := (List.find?_range_eq_some.1 found).2.2 (m - 2) (by omega)
      have same : m - 2 + 2 = m := by omega
      simpa [same] using earlier

/-- Values and names go together one to one, and every declaration is that of a value with its type. -/
structure Exact (vs : Variables) : Prop where
  values : (vs.names.map (·.1)).Nodup
  names : (vs.names.map (·.2)).Nodup
  declares : ∀ name v, vs.schema.get? name = some v → ∃ value type, (value, name) ∈ vs.names ∧
    v = .optional type (String.ofList value) ∧ classify value = some type

theorem exact_empty : Exact {} where
  values := List.nodup_nil
  names := List.nodup_nil
  declares := by
    intro name v found
    cases found

theorem nameOf_cases (vs : Variables) (c : Candidate) :
    (∃ name, (c.value, name) ∈ vs.names ∧ vs.nameOf c = (name, vs)) ∨
    ∃ name, (∀ e ∈ vs.names, e.1 ≠ c.value) ∧ vs.schema.contains name = false ∧
      vs.nameOf c = (name, ⟨(c.value, name) :: vs.names,
        vs.schema.insert name (.optional c.type (String.ofList c.value))⟩) := by
  unfold nameOf
  cases found : vs.names.find? fun e => e.1 == c.value with
  | some e =>
    have value : e.1 = c.value := by simpa using List.find?_some found
    exact .inl ⟨e.2, value ▸ List.mem_of_find?_eq_some found, rfl⟩
  | none =>
    refine .inr ⟨freeName vs.schema (baseName c), ?_, contains_freeName _ _, rfl⟩
    intro e among
    simpa using List.find?_eq_none.1 found e among

theorem mem_names_nameOf (vs : Variables) (c : Candidate) :
    (c.value, (vs.nameOf c).1) ∈ (vs.nameOf c).2.names := by
  rcases vs.nameOf_cases c with ⟨name, known, same⟩ | ⟨name, -, -, new⟩
  · rw [same]
    exact known
  · rw [new]
    exact List.mem_cons_self

theorem Exact.nameOf {vs : Variables} (sound : vs.Sound) (exact : vs.Exact) {c : Candidate}
    (classified : classify c.value = some c.type) : (vs.nameOf c).2.Exact := by
  rcases vs.nameOf_cases c with ⟨name, -, same⟩ | ⟨name, unmet, free, new⟩
  · rw [same]
    exact exact
  · rw [new]
    refine ⟨?_, ?_, ?_⟩
    · refine List.nodup_cons.2 ⟨?_, exact.values⟩
      intro among
      obtain ⟨e, known, same⟩ := List.mem_map.1 among
      exact unmet e known same
    · refine List.nodup_cons.2 ⟨?_, exact.names⟩
      intro among
      obtain ⟨e, known, (same : e.2 = name)⟩ := List.mem_map.1 among
      obtain ⟨type, declared⟩ := sound.declared e known
      rw [SortedMap.contains, ← same, declared] at free
      cases free
    · intro name' v found
      rw [SortedMap.get?_insert] at found
      split at found
      · next same =>
        subst same
        exact ⟨c.value, c.type, List.mem_cons_self, (Option.some.inj found).symm, classified⟩
      · obtain ⟨value, type, known, made, class'⟩ := exact.declares name' v found
        exact ⟨value, type, List.mem_cons_of_mem _ known, made, class'⟩

theorem Exact.name_eq_iff {vs : Variables} (exact : vs.Exact) {value value' : List Char} {name name' : String}
    (h : (value, name) ∈ vs.names) (h' : (value', name') ∈ vs.names) : name = name' ↔ value = value' := by
  constructor
  · rintro rfl
    exact congrArg Prod.fst (List.inj_on_of_nodup_map exact.names h h' rfl)
  · rintro rfl
    exact congrArg Prod.snd (List.inj_on_of_nodup_map exact.values h h' rfl)

structure Collects (vs : Variables) (found : List Candidate) (vs' : Variables) : Prop where
  sound : vs'.Sound
  exact : vs'.Exact
  keeps : ∀ e ∈ vs.names, e ∈ vs'.names
  names : ∀ c ∈ found, (c.value, (vs'.nameOf c).1) ∈ vs'.names
  source : ∀ e ∈ vs'.names, e ∈ vs.names ∨ ∃ c ∈ found, c.value = e.1

theorem Exact.nameOf_eq {vs : Variables} (exact : vs.Exact) {c : Candidate} {name : String}
    (known : (c.value, name) ∈ vs.names) : vs.nameOf c = (name, vs) := by
  rcases vs.nameOf_cases c with ⟨name', known', same⟩ | ⟨name', unmet, -, -⟩
  · rw [same, (exact.name_eq_iff known' known).2 rfl]
  · exact absurd rfl (unmet _ known)

theorem collects_nil {vs : Variables} (sound : vs.Sound) (exact : vs.Exact) : Collects vs [] vs where
  sound := sound
  exact := exact
  keeps := fun _ known => known
  names := by simp
  source := fun _ known => .inl known

theorem Collects.cons {vs vs' : Variables} {c : Candidate} {found : List Candidate}
    (h : Collects (vs.nameOf c).2 found vs') :
    Collects vs (c :: found) vs' ∧ (vs'.nameOf c).1 = (vs.nameOf c).1 := by
  have here := h.keeps _ (vs.mem_names_nameOf c)
  have name : (vs'.nameOf c).1 = (vs.nameOf c).1 := by rw [h.exact.nameOf_eq here]
  refine ⟨⟨h.sound, h.exact, ?_, ?_, ?_⟩, name⟩
  · intro e known
    apply h.keeps
    rcases vs.nameOf_cases c with ⟨_, -, same⟩ | ⟨_, -, -, new⟩
    · rw [same]
      exact known
    · rw [new]
      exact List.mem_cons_of_mem _ known
  · intro c' among
    rcases List.mem_cons.1 among with rfl | later
    · rw [name]
      exact here
    · exact h.names c' later
  · intro e known
    rcases h.source e known with before | ⟨c', later, value⟩
    · rcases vs.nameOf_cases c with ⟨_, -, same⟩ | ⟨_, -, -, new⟩
      · rw [same] at before
        exact .inl before
      · rw [new] at before
        rcases List.mem_cons.1 before with rfl | before
        · exact .inr ⟨c, List.mem_cons_self, rfl⟩
        · exact .inl before
    · exact .inr ⟨c', List.mem_cons_of_mem c later, value⟩

end Variables

/-! ### Placeholders of candidates -/

/-- The candidates that are not skipped in a text of `size` bytes: they begin at or behind the offset and
behind the candidates before them, and end in the text. -/
def unskipped (size offset : Nat) : List Candidate → List Candidate
  | [] => []
  | c :: found =>
    if c.start < offset ∨ size < c.stop then unskipped size offset found
    else c :: unskipped size c.stop found

def replaced [Libraries] (kind : Kind) (cs : List Char) : List Candidate :=
  unskipped (Text.byteSize cs) 0 (inOrder (candidates kind cs))

open Placeholder (segments marked)

/-- The content marks the names of the candidates that are not skipped, in their order. -/
theorem marked_parameterize {cs : List Char} {found : List Candidate}
    (stands : ∀ c ∈ found, Stands cs c.start c.value)
    (classified : ∀ c ∈ found, classify c.value = some c.type)
    {done rest : List Char} (split : cs = done ++ rest) {vs : Variables} (sound : vs.Sound)
    (exact : vs.Exact) :
    let made := parameterize (Text.byteSize done) rest vs found
    let left := unskipped (Text.byteSize cs) (Text.byteSize done) found
    Variables.Collects vs left made.2 ∧
      marked (segments made.1) = left.map fun c => (made.2.nameOf c).1.toList := by
  -- the text behind the last placeholder and the variables met so far change with each candidate
  induction found generalizing done rest vs with
  | nil =>
    refine ⟨Variables.collects_nil sound exact, ?_⟩
    exact Placeholder.marked_segments_escape rest
  | cons c found ih =>
    obtain ⟨here, later⟩ := List.forall_mem_cons.1 stands
    obtain ⟨type, types⟩ := List.forall_mem_cons.1 classified
    rcases parameterize_cons here split vs found with ⟨before, skipped⟩ | ⟨gap, after, rfl, plain, start, stop, made⟩
    · rw [skipped, unskipped, if_pos (.inl before)]
      exact ih later types split sound exact
    · have split' : cs = (done ++ (gap ++ c.value)) ++ after := by
        rw [split]
        simp
      have reached : ¬(c.start < Text.byteSize done ∨ Text.byteSize cs < c.stop) := by
        rw [start, stop, split']
        simp only [Text.byteSize_append]
        omega
      obtain ⟨collects, marks⟩ := ih later types split' (Variables.nameOf_spec sound c).1
        (exact.nameOf sound type)
      obtain ⟨collects, name⟩ := collects.cons
      rw [← stop] at collects marks name
      rw [made, unskipped, if_neg reached]
      refine ⟨collects, ?_⟩
      dsimp only
      rw [segments_replaced plain (Variables.isName_nameOf sound c), Placeholder.marked_pushText,
        Placeholder.marked_placeholder, marks, List.map_cons, name]

theorem collects_candidates [Libraries] {kind : Kind} {cs : List Char}
    (quoted : kind = .script → QuotedLiterals cs) :
    let made := parameterize 0 cs {} (inOrder (candidates kind cs))
    Variables.Collects {} (replaced kind cs) made.2 ∧
      marked (segments made.1) = (replaced kind cs).map fun c => (made.2.nameOf c).1.toList :=
  marked_parameterize (fun _ among => stands_of_mem_candidates quoted (mem_inOrder.1 among))
    (fun _ among => classify_of_mem_candidates (mem_inOrder.1 among)) (List.nil_append cs).symm
    Variables.sound_empty Variables.exact_empty

/-- A schema declares exactly what the content marks: for the candidates that become placeholders, one
optional variable for each of their values, marked as often as the value is there. -/
structure DeclaresExactly (t : Template) (found : List Candidate) : Prop where
  keys : t.schema.keys.Perm ((Placeholder.names t.content.toList).map String.ofList)
  named : ∀ name ∈ t.schema.keys, Placeholder.isName name.toList = true
  optional : ∀ name v, t.schema.get? name = some v →
    ∃ type default, v = .optional type default ∧ classify default.toList = some type
  apart : ∀ name name' v v', t.schema.get? name = some v → t.schema.get? name' = some v' →
    v.default = v'.default → name = name'
  counted : ∀ name v default, t.schema.get? name = some v → v.default = some default →
    (marked (segments t.content.toList)).count name.toList =
      found.countP fun c => c.value == default.toList

theorem declaresExactly_of_collects {t : Template} {found : List Candidate} {vs : Variables}
    (h : Variables.Collects {} found vs) (schema : t.schema = vs.schema)
    (marks : marked (segments t.content.toList) = found.map fun c => (vs.nameOf c).1.toList) :
    DeclaresExactly t found := by
  have declared : ∀ value name, (value, name) ∈ vs.names →
      ∃ type, t.schema.get? name = some (.optional type (String.ofList value)) := by
    intro value name known
    obtain ⟨type, held⟩ := h.sound.declared (value, name) known
    exact ⟨type, schema ▸ held⟩
  have entry : ∀ name v, t.schema.get? name = some v → ∃ value type, (value, name) ∈ vs.names ∧
      v = .optional type (String.ofList value) ∧ classify value = some type := by
    rw [schema]
    exact h.exact.declares
  refine ⟨?_, ?_, ?_, ?_, ?_⟩
  · have distinct := (Placeholder.nodup_names t.content.toList).map fun a b => String.ofList_inj.1
    refine (List.perm_ext_iff_of_nodup t.schema.nodup_keys distinct).2 fun name => ?_
    rw [← SortedMap.contains_iff_mem_keys, List.mem_map]
    constructor
    · intro held
      obtain ⟨v, found'⟩ := Option.isSome_iff_exists.1 held
      obtain ⟨value, type, known, -, -⟩ := entry name v found'
      rcases h.source _ known with none | ⟨c, among, rfl⟩
      · cases none
      · have same : (vs.nameOf c).1 = name := by rw [h.exact.nameOf_eq known]
        refine ⟨name.toList, Placeholder.mem_names.2 ?_, String.ofList_toList⟩
        rw [marks, ← same]
        exact List.mem_map_of_mem among
    · rintro ⟨chars, among, rfl⟩
      rw [Placeholder.mem_names, marks] at among
      obtain ⟨c, here, rfl⟩ := List.mem_map.1 among
      obtain ⟨type, held⟩ := declared _ _ (h.names c here)
      rw [String.ofList_toList, SortedMap.contains, held]
      rfl
  · rw [schema]
    exact h.sound.named
  · intro name v held
    obtain ⟨value, type, -, same, class'⟩ := entry name v held
    exact ⟨type, _, same, by rw [String.toList_ofList, class']⟩
  · intro name name' v v' held held' same
    obtain ⟨value, type, known, rfl, -⟩ := entry name v held
    obtain ⟨value', type', known', rfl, -⟩ := entry name' v' held'
    have values : value = value' := String.ofList_inj.1 (Option.some.inj same)
    exact (h.exact.name_eq_iff known known').2 values
  · intro name v default held hasDefault
    obtain ⟨value, type, known, rfl, -⟩ := entry name v held
    obtain rfl : String.ofList value = default := Option.some.inj hasDefault
    rw [marks, List.count, List.countP_map, String.toList_ofList]
    refine List.countP_congr fun c among => ?_
    have iff := h.exact.name_eq_iff (h.names c among) known
    simpa [String.toList_inj] using iff

/-- The schema of a template that was extracted declares exactly what its content marks, and wherever a name
is looked for, one is found that is not declared yet. -/
theorem schema_of_extract [Libraries] {p : Policy} {a : Analysis} {artifact : Artifact} {newId : Identifier}
    {now : Instant} {t : Template} (extracted : extract p a artifact newId now = .ok (some t))
    (quoted : artifact.kind = .script → QuotedLiterals artifact.content.toList) :
    DeclaresExactly t (replaced artifact.kind artifact.content.toList) ∧
      ∀ schema base, schema.contains (Variables.freeName schema base) = false ∧
        (schema.contains base = false → Variables.freeName schema base = base) ∧
        (schema.contains base = true → ∃ n, 2 ≤ n ∧
          Variables.freeName schema base = Variables.numbered base n ∧
          ∀ m, 2 ≤ m → m < n → schema.contains (Variables.numbered base m) = true) := by
  refine ⟨?_, Variables.freeName_spec⟩
  obtain ⟨collects, marks⟩ := collects_candidates quoted
  rw [eq_made_of_extract extracted]
  refine declaresExactly_of_collects collects rfl ?_
  have content : (made a artifact newId now).content.toList = (parameterize 0 artifact.content.toList {}
      (inOrder (candidates artifact.kind artifact.content.toList))).1 := String.toList_ofList
  rw [content]
  exact marks

open Readers

/-- A file with a value that is there twice, and with a key whose name is taken by a numbered one. -/
def pathsFile : Artifact :=
  { path := ⟨"paths.env"⟩, content := "path=/a/b\npath_2=c/d\nPATH=e/f\npath=/a/b\n", kind := .config .env }

theorem schema_of_extract_pathsFile :
    ∃ a t, extract { threshold := 0, checks := 0 } a pathsFile default default = .ok (some t) ∧
      t.schema.keys = ["path", "path_2", "path_3"] ∧
      t.content = "path=${path}\npath_2=${path_2}\nPATH=${path_3}\npath=${path}\n" ∧
      DeclaresExactly t (replaced pathsFile.kind pathsFile.content.toList) := by
  obtain ⟨a, -, extracted⟩ := exists_extract {} { threshold := 0, checks := 0 } pathsFile default
    default (by decide +kernel) (by decide +kernel) fun c among => stands_of_config among
  have sorted : inOrder (candidates pathsFile.kind pathsFile.content.toList) =
      candidates pathsFile.kind pathsFile.content.toList := List.mergeSort_of_pairwise (by decide +kernel)
  refine ⟨a, _, extracted, ?_, ?_, (schema_of_extract extracted (by simp [pathsFile])).1⟩
  · show (parameterize 0 pathsFile.content.toList {} (inOrder _)).2.schema.keys = _
    rw [sorted]
    decide +kernel
  · show String.ofList (parameterize 0 pathsFile.content.toList {} (inOrder _)).1 = _
    rw [sorted]
    decide +kernel

end Extraction

end Stencil
