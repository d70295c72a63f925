import Stencil.Environment
import Stencil.Proofs.Instant
import Stencil.Proofs.Json.Faithful
import Stencil.Proofs.Path
import Stencil.Record

/-!
# Documents that say what was written

The documents of environments, records and templates hold all that these are made of. Whichever way a document
comes back, what is read from it is what was written: `Environment.ofJson?_back`, `Record.ofJson?_back` and
`Template.ofJson?_back`. Scores come back where their texts give them back, and times where theirs do.
-/

namespace Stencil

open Json (Faithful Legible)

theorem Json.isRecord_present {ms : List (String × Option Json)} (distinct : (ms.map (·.1)).Nodup) :
    (Json.obj (present ms)).IsRecord := by
  have keys : ((present ms).map (·.1)).Sublist (ms.map (·.1)) := by
    induction ms with
    | nil => exact .slnil
    | cons m ms ih =>
      have rest := ih (List.nodup_cons.1 distinct).2
      obtain ⟨key, _ | value⟩ := m
      · exact rest.cons key
      · exact rest.cons_cons key
  exact ⟨_, rfl, distinct.sublist keys⟩

theorem SortedSet.ofList_keys (s : SortedSet String) : SortedSet.ofList s.keys = s := by
  rw [ofList, SortedMap.keys, List.map_map]
  exact (congrArg SortedMap.ofList (List.map_id s.entries)).trans (SortedMap.ofList_entries s)

theorem Record.exists_toJson? {r : Record} (h : r.path.IsText) : ∃ j, r.toJson? = some j := by
  obtain ⟨source, spelled⟩ := Path.exists_toJson? h
  exact ⟨r.jsonAt source, congrArg (Option.map r.jsonAt) spelled⟩

theorem Record.toJson?_eq_none {r : Record} (h : ¬ r.path.IsText) : r.toJson? = none :=
  congrArg (Option.map r.jsonAt) (Path.toJson?_eq_none h)

theorem Template.exists_toJson? {t : Template} (h : t.path.IsText) : ∃ j, t.toJson? = some j := by
  obtain ⟨source, spelled⟩ := Path.exists_toJson? h
  exact ⟨t.jsonAt source, congrArg (Option.map t.jsonAt) spelled⟩

theorem Template.toJson?_eq_none {t : Template} (h : ¬ t.path.IsText) : t.toJson? = none :=
  congrArg (Option.map t.jsonAt) (Path.toJson?_eq_none h)

def Instant.Kept (t : Instant) : Prop := ofText? t.text = some t

instance (t : Instant) : Decidable t.Kept := inferInstanceAs (Decidable (Instant.ofText? t.text = some t))

/-- A finding whose line and column are words of 64 bits. -/
structure Diagnostic.InWords (d : Diagnostic) : Prop where
  line : ∀ n, d.line = some n → n < 2 ^ 64
  column : ∀ n, d.column = some n → n < 2 ^ 64

instance (d : Diagnostic) : Decidable d.InWords :=
  decidable_of_iff ((∀ n ∈ d.line, n < 2 ^ 64) ∧ ∀ n ∈ d.column, n < 2 ^ 64)
    ⟨fun words => ⟨words.1, words.2⟩, fun words => ⟨words.line, words.column⟩⟩

/-- A record with nothing that its document does not keep. -/
structure Record.Kept (r : Record) : Prop where
  words : ∀ d ∈ r.outcome.diagnostics, d.InWords
  time : r.time.Kept

/-- A template with nothing that its document does not keep. -/
structure Template.Kept (t : Template) : Prop where
  complexity : (Json.Number.float t.complexity).Kept
  effectiveness : (Json.Number.float t.effectiveness).Kept
  createdAt : t.createdAt.Kept
  updatedAt : t.updatedAt.Kept
  lastUsed : ∀ time, t.lastUsed = some time → time.Kept

section

variable {back : Json → Json} (faithful : Faithful back)

include faithful

/-! ### Names and numbers -/

theorem Identifier.ofJson?_back (i : Identifier) : ofJson? (back i.toJson) = some i := by
  rw [toJson, ofJson?, faithful.asString?, Option.bind_some, ofText?_text]

theorem Category.ofJson?_back (c : Category) : ofJson? (back c.toJson) = some c := by
  rw [toJson, faithful.str]
  exact ofJson?_toJson c

theorem Digest.ofJson?_back (d : Digest) : ofJson? (back d.toJson) = some d := by
  rw [toJson, ofJson?, faithful.asString?, Option.map_some]

theorem Path.ofJson?_back {p : Path} {j : Json} (spelled : p.toJson? = some j) : ofJson? (back j) = some p := by
  obtain ⟨text, known, rfl⟩ := Option.map_eq_some_iff.1 spelled
  rw [ofJson?, faithful.asString?, Option.map_some, ← OsText.text?_eq_some_iff.1 known]

theorem VariableType.ofJson?_back (t : VariableType) : ofJson? (back t.toJson) = some t := by
  rw [toJson, faithful.str]
  exact ofName?_name t

theorem Instant.ofJson?_back {t : Instant} (kept : t.Kept) : ofJson? (back t.toJson) = some t := by
  rw [toJson, ofJson?, faithful.asString?, Option.bind_some, kept]

theorem Kind.ofJson?_back (k : Kind) : ofJson? (back k.toJson) = some k := by
  cases k with
  | script =>
    rw [toJson, faithful.str]
    exact ofJson?_toJson .script
  | config f =>
    obtain ⟨ms, same, perm⟩ := faithful.obj [("config", f.toJson)] (List.nodup_singleton _)
    have one : ms = [("config", back f.toJson)] := List.perm_singleton.1 perm
    rw [toJson, same, one, Format.toJson, faithful.str]
    exact ofJson?_toJson (.config f)

theorem Json.Faithful.asStrings? (xs : List String) :
    Json.asList? Json.asString? (back (.strs xs)) = some xs :=
  faithful.asList? fun s _ => faithful.asString? s

theorem Json.Faithful.asSet? (s : SortedSet String) : Json.asSet? (back (.ofSet s)) = some s := by
  rw [Json.asSet?, Json.ofSet, asStrings? faithful, Option.map_some, SortedSet.ofList_keys]

/-! ### Environments -/

theorem Rule.ofJson?_back (r : Rule) : ofJson? (back r.toJson) = some r := by
  have record : r.toJson.IsRecord := by cases r <;> exact ⟨_, rfl, by simp⟩
  have text : ∀ {key s}, r.toJson.get? key = some (.str s) →
      (back r.toJson).required key Json.asString? = some s := fun found =>
    faithful.required record found (faithful.asString? _)
  have operation : ∀ {op}, r.toJson.get? "op" = some (.str op) → (back r.toJson).get? "op" = some (.str op) := by
    intro op found
    rw [faithful.get? record, found, Option.map_some, faithful.str]
  obtain ⟨ms, same⟩ := faithful.exists_obj record
  rw [same] at text operation ⊢
  unfold ofJson?
  cases r with
  | replace old new =>
    have op : (Json.obj ms).get? "op" = some (.str "replace") := operation rfl
    have front : (Json.obj ms).required "from" Json.asString? = some old := text rfl
    have behind : (Json.obj ms).required "to" Json.asString? = some new := text rfl
    simp only [op, Option.map_some, Option.bind_eq_bind, Option.bind_some, front, behind]
    rfl
  | prepend added =>
    have op : (Json.obj ms).get? "op" = some (.str "prepend") := operation rfl
    have added : (Json.obj ms).required "text" Json.asString? = some added := text rfl
    simp only [op, Option.map_some, Option.bind_eq_bind, Option.bind_some, added]
    rfl
  | append added =>
    have op : (Json.obj ms).get? "op" = some (.str "append") := operation rfl
    have added : (Json.obj ms).required "text" Json.asString? = some added := text rfl
    simp only [op, Option.map_some, Option.bind_eq_bind, Option.bind_some, added]
    rfl

theorem Environment.ofJson?_back (e : Environment) : ofJson? (back e.toJson) = some e := by
  have record : e.toJson.IsRecord := ⟨_, rfl, by simp⟩
  have name : (back e.toJson).required "environment_name" Json.asString? = some e.name :=
    faithful.required record rfl (faithful.asString? e.name)
  have bindings : (back e.toJson).defaulted "variable_bindings" .empty (Json.asMap? Json.asString?) =
      some e.bindings :=
    faithful.defaulted record rfl (faithful.asMap? faithful.asString?)
  have rules : (back e.toJson).defaulted "transform_rules" [] (Json.asList? Rule.ofJson?) = some e.rules :=
    faithful.defaulted record rfl (faithful.asList? fun r _ => Rule.ofJson?_back faithful r)
  exact bind_of (faithful.asRecord? record _) <| bind_of name <| bind_of bindings <| bind_of rules rfl

/-! ### Records -/

theorem Diagnostic.ofJson?_back {d : Diagnostic} (words : d.InWords) : ofJson? (back d.toJson) = some d := by
  have record : d.toJson.IsRecord := Json.isRecord_present (by simp)
  have word : ∀ {n : Nat}, n < 2 ^ 64 → Json.asOption? (Json.asNat? 64) (back (.nat n)) = some (some n) := by
    intro n small
    refine Json.asOption?_of_read (faithful.asNat? small) ?_
    rw [Json.nat, faithful.num _ (Json.kept_nat small)]
    simp
  have line : (back d.toJson).optional "line" (Json.asNat? 64) = some d.line := by
    obtain ⟨_ | n, _ | _, message⟩ := d
    · exact faithful.absent record rfl
    · exact faithful.absent record rfl
    · exact faithful.optional record rfl (word (words.line n rfl))
    · exact faithful.optional record rfl (word (words.line n rfl))
  have column : (back d.toJson).optional "column" (Json.asNat? 64) = some d.column := by
    obtain ⟨_ | _, _ | n, message⟩ := d
    · exact faithful.absent record rfl
    · exact faithful.optional record rfl (word (words.column n rfl))
    · exact faithful.absent record rfl
    · exact faithful.optional record rfl (word (words.column n rfl))
  have message : (back d.toJson).required "message" Json.asString? = some d.message := by
    refine faithful.required record ?_ (faithful.asString? d.message)
    obtain ⟨_ | _, _ | _, message⟩ := d <;> rfl
  exact bind_of (faithful.asRecord? record _) <| bind_of line <| bind_of column <| bind_of message rfl

theorem Outcome.ofJson?_back {o : Outcome} (words : ∀ d ∈ o.diagnostics, d.InWords) :
    ofJson? (back o.toJson) = some o := by
  have record : o.toJson.IsRecord := ⟨_, rfl, by simp⟩
  have passed : (back o.toJson).required "passed" Json.asBool? = some o.passed :=
    faithful.required record rfl (faithful.asBool? o.passed)
  have diagnostics : (back o.toJson).required "diagnostics" (Json.asList? Diagnostic.ofJson?) =
      some o.diagnostics :=
    faithful.required record rfl (faithful.asList? fun d among => Diagnostic.ofJson?_back faithful (words d among))
  exact bind_of (faithful.asRecord? record _) <| bind_of passed <| bind_of diagnostics rfl

theorem Record.ofJson?_back {r : Record} (kept : r.Kept) {j : Json} (written : r.toJson? = some j) :
    ofJson? (back j) = some r := by
  obtain ⟨source, spelled, rfl⟩ := Option.map_eq_some_iff.1 written
  have record : (r.jsonAt source).IsRecord := ⟨_, rfl, by simp⟩
  have id : (back (r.jsonAt source)).required "generation_id" Identifier.ofJson? = some r.id :=
    faithful.required record rfl (r.id.ofJson?_back faithful)
  have template : (back (r.jsonAt source)).required "template_id" Identifier.ofJson? = some r.template :=
    faithful.required record rfl (r.template.ofJson?_back faithful)
  have environment : (back (r.jsonAt source)).required "environment_name" Json.asString? = some r.environment :=
    faithful.required record rfl (faithful.asString? r.environment)
  have path : (back (r.jsonAt source)).required "source_path" Path.ofJson? = some r.path :=
    faithful.required record rfl (Path.ofJson?_back faithful spelled)
  have content : (back (r.jsonAt source)).required "rendered_content" Json.asString? = some r.content :=
    faithful.required record rfl (faithful.asString? r.content)
  have outcome : (back (r.jsonAt source)).required "validation_outcome" Outcome.ofJson? = some r.outcome :=
    faithful.required record rfl (Outcome.ofJson?_back faithful kept.words)
  have time : (back (r.jsonAt source)).required "generated_at" Instant.ofJson? = some r.time :=
    faithful.required record rfl (Instant.ofJson?_back faithful kept.time)
  exact bind_of (faithful.asRecord? record _) <| bind_of id <| bind_of template <| bind_of environment <|
    bind_of path <| bind_of content <| bind_of outcome <| bind_of time rfl

/-! ### Templates -/

theorem Variable.ofJson?_back (v : Variable) : ofJson? (back v.toJson) = some v := by
  have record : v.toJson.IsRecord := Json.isRecord_present (by simp)
  have type : (back v.toJson).required "type" VariableType.ofJson? = some v.type :=
    faithful.required record rfl (v.type.ofJson?_back faithful)
  have required : (back v.toJson).required "required" Json.asBool? = some v.required :=
    faithful.required record rfl (faithful.asBool? v.required)
  have default : (back v.toJson).optional "default" Json.asString? = some v.default := by
    obtain ⟨type, required, _ | text⟩ := v
    · exact faithful.absent record rfl
    · exact faithful.optional record rfl (Json.asOption?_of_read (faithful.asString? text) faithful.ne_null)
  exact bind_of (faithful.asRecord? record _) <| bind_of type <| bind_of required <| bind_of default rfl

/-- What the document of a template says of it, but for its scores, its count and its times. -/
structure Template.Said (j : Json) (t : Template) : Prop where
  id : j.required "id" Identifier.ofJson? = some t.id
  name : j.required "name" Json.asString? = some t.name
  category : j.required "category" Category.ofJson? = some t.category
  kind : j.required "kind" Kind.ofJson? = some t.kind
  content : j.required "parameterized_content" Json.asString? = some t.content
  digest : j.required "content_hash" Digest.ofJson? = some t.digest
  schema : j.required "variable_schema" (Json.asMap? Variable.ofJson?) = some t.schema
  tags : j.required "pattern_tags" (Json.asList? Json.asString?) = some t.tags
  dependencies : j.required "dependencies" (Json.asList? Json.asString?) = some t.dependencies
  environments : j.required "environments" Json.asSet? = some t.environments
  path : j.required "source_path" Path.ofJson? = some t.path

theorem Template.said_back {t : Template} {source : Json} (spelled : t.path.toJson? = some source) :
    Said (back (t.jsonAt source)) t where
  id := faithful.required ⟨_, rfl, by simp⟩ rfl (t.id.ofJson?_back faithful)
  name := faithful.required ⟨_, rfl, by simp⟩ rfl (faithful.asString? t.name)
  category := faithful.required ⟨_, rfl, by simp⟩ rfl (t.category.ofJson?_back faithful)
  kind := faithful.required ⟨_, rfl, by simp⟩ rfl (t.kind.ofJson?_back faithful)
  content := faithful.required ⟨_, rfl, by simp⟩ rfl (faithful.asString? t.content)
  digest := faithful.required ⟨_, rfl, by simp⟩ rfl (t.digest.ofJson?_back faithful)
  schema := faithful.required ⟨_, rfl, by simp⟩ rfl (faithful.asMap? fun v => v.ofJson?_back faithful)
  tags := faithful.required ⟨_, rfl, by simp⟩ rfl (faithful.asStrings? t.tags)
  dependencies := faithful.required ⟨_, rfl, by simp⟩ rfl (faithful.asStrings? t.dependencies)
  environments := faithful.required ⟨_, rfl, by simp⟩ rfl (faithful.asSet? t.environments)
  path := faithful.required ⟨_, rfl, by simp⟩ rfl (Path.ofJson?_back faithful spelled)

theorem Template.ofJson?_back {t : Template} (kept : t.Kept) {j : Json} (written : t.toJson? = some j) :
    ofJson? (back j) = some t := by
  obtain ⟨source, spelled, rfl⟩ := Option.map_eq_some_iff.1 written
  have record : (t.jsonAt source).IsRecord := ⟨_, rfl, by simp⟩
  have said : Said (back (t.jsonAt source)) t := said_back faithful spelled
  have complexity : (back (t.jsonAt source)).required "complexity_score" Json.asFloat? = some t.complexity :=
    faithful.required record rfl (faithful.asFloat? kept.complexity)
  have effectiveness : (back (t.jsonAt source)).required "effectiveness_score" Json.asFloat? = some t.effectiveness :=
    faithful.required record rfl (faithful.asFloat? kept.effectiveness)
  have usage : ((back (t.jsonAt source)).required "usage_count" fun v => (v.asNat? 64).map UInt64.ofNat) =
      some t.usage := by
    refine faithful.required record rfl ?_
    rw [faithful.asNat? t.usage.toNat_lt, Option.map_some, UInt64.ofNat_toNat]
  have createdAt : (back (t.jsonAt source)).required "created_at" Instant.ofJson? = some t.createdAt :=
    faithful.required record rfl (Instant.ofJson?_back faithful kept.createdAt)
  have updatedAt : (back (t.jsonAt source)).required "updated_at" Instant.ofJson? = some t.updatedAt :=
    faithful.required record rfl (Instant.ofJson?_back faithful kept.updatedAt)
  have lastUsed : (back (t.jsonAt source)).optional "last_used" Instant.ofJson? = some t.lastUsed := by
    refine faithful.optional record rfl ?_
    cases last : t.lastUsed with
    | none => exact congrArg (Json.asOption? Instant.ofJson?) faithful.null
    | some time =>
      have found := Instant.ofJson?_back faithful (kept.lastUsed time last)
      exact Json.asOption?_of_read found faithful.ne_null
  exact bind_of (faithful.asRecord? record _) <| bind_of said.id <| bind_of said.name <| bind_of said.category <|
    bind_of said.kind <| bind_of said.content <| bind_of said.digest <| bind_of said.schema <|
    bind_of said.tags <| bind_of said.dependencies <| bind_of complexity <| bind_of effectiveness <|
    bind_of usage <| bind_of said.environments <| bind_of said.path <| bind_of createdAt <|
    bind_of updatedAt <| bind_of lastUsed rfl

end

end Stencil
