import Stencil.Proofs.Catalog.Encoded

/-!
# What documents give back

A catalog in tables stores documents. What is read from the document of a template or a record is alike to
what was written, and an environment comes back as it was.
-/

namespace Stencil

/-- Templates that say the same, whatever their use. -/
structure Template.Alike (t t' : Template) : Prop where
  id : t.id = t'.id
  key : t.key = t'.key
  content : t.content = t'.content
  schema : t.schema = t'.schema
  kind : t.kind = t'.kind

/-- Records that say the same of a rendering. -/
structure Record.Alike (r r' : Record) : Prop where
  template : r.template = r'.template
  environment : r.environment = r'.environment
  path : r.path = r'.path
  content : r.content = r'.content
  outcome : r.outcome = r'.outcome

theorem Template.Alike.refl (t : Template) : t.Alike t := ⟨rfl, rfl, rfl, rfl, rfl⟩

theorem Template.Alike.trans {a b c : Template} (ab : a.Alike b) (bc : b.Alike c) : a.Alike c :=
  ⟨ab.id.trans bc.id, ab.key.trans bc.key, ab.content.trans bc.content, ab.schema.trans bc.schema,
    ab.kind.trans bc.kind⟩

theorem Record.Alike.refl (r : Record) : r.Alike r := ⟨rfl, rfl, rfl, rfl, rfl⟩

namespace Json

theorem of_required {α : Type} {j v : Json} {key : String} {read : Json → Option α} {a : α}
    (found : j.get? key = some v) (h : j.required key read = some a) : read v = some a := by
  rwa [required, found, Option.bind_some] at h

theorem eq_of_mapM {α β : Type} {read : β → Option α} {write : α → β}
    (sound : ∀ a b, read (write a) = some b → b = a) :
    ∀ {as bs : List α}, (as.map write).mapM read = some bs → bs = as
  | [], bs, h => by simpa using h.symm
  | a :: as, bs, h => by
    rw [List.map_cons, List.mapM_cons] at h
    simp only [Option.bind_eq_bind, Option.bind_eq_some_iff, Option.pure_def, Option.some.injEq] at h
    obtain ⟨b, first, rest, others, rfl⟩ := h
    rw [sound a b first, eq_of_mapM sound others]

end Json

theorem Identifier.ofJson?_reread (i : Identifier) : ofJson? i.toJson.reread = some i :=
  i.ofJson?_back Json.faithful_reread

theorem Environment.ofJson?_reread (e : Environment) : ofJson? e.toJson.reread = some e :=
  e.ofJson?_back Json.faithful_reread

namespace Template

theorem said_of_ofJson? {members : List (String × Json)} {t : Template}
    (h : ofJson? (.obj members) = some t) : Said (.obj members) t := by
  obtain ⟨id, hid, h⟩ := Option.bind_eq_some_iff.1 h
  obtain ⟨name, hname, h⟩ := Option.bind_eq_some_iff.1 h
  obtain ⟨category, hcategory, h⟩ := Option.bind_eq_some_iff.1 h
  obtain ⟨kind, hkind, h⟩ := Option.bind_eq_some_iff.1 h
  obtain ⟨content, hcontent, h⟩ := Option.bind_eq_some_iff.1 h
  obtain ⟨digest, hdigest, h⟩ := Option.bind_eq_some_iff.1 h
  obtain ⟨schema, hschema, h⟩ := Option.bind_eq_some_iff.1 h
  obtain ⟨tags, htags, h⟩ := Option.bind_eq_some_iff.1 h
  obtain ⟨dependencies, hdependencies, h⟩ := Option.bind_eq_some_iff.1 h
  iterate 3 obtain ⟨_, -, h⟩ := Option.bind_eq_some_iff.1 h
  obtain ⟨environments, henvironments, h⟩ := Option.bind_eq_some_iff.1 h
  obtain ⟨path, hpath, h⟩ := Option.bind_eq_some_iff.1 h
  iterate 3 obtain ⟨_, -, h⟩ := Option.bind_eq_some_iff.1 h
  obtain rfl := Option.some.inj h
  exact ⟨hid, hname, hcategory, hkind, hcontent, hdigest, hschema, htags, hdependencies, henvironments, hpath⟩

/-- A template without its scores, its count and its times. -/
def plain (t : Template) : Template :=
  { t with
    complexity := 0, effectiveness := 0, usage := 0
    createdAt := default, updatedAt := default, lastUsed := none }

theorem Said.eq {j : Json} {t t' : Template} (h : Said j t) (h' : Said j t') : t.plain = t'.plain := by
  have id := Option.some.inj (h.id.symm.trans h'.id)
  have name := Option.some.inj (h.name.symm.trans h'.name)
  have category := Option.some.inj (h.category.symm.trans h'.category)
  have kind := Option.some.inj (h.kind.symm.trans h'.kind)
  have content := Option.some.inj (h.content.symm.trans h'.content)
  have digest := Option.some.inj (h.digest.symm.trans h'.digest)
  have schema := Option.some.inj (h.schema.symm.trans h'.schema)
  have tags := Option.some.inj (h.tags.symm.trans h'.tags)
  have dependencies := Option.some.inj (h.dependencies.symm.trans h'.dependencies)
  have environments := Option.some.inj (h.environments.symm.trans h'.environments)
  have path := Option.some.inj (h.path.symm.trans h'.path)
  simp only [plain, id, name, category, kind, content, digest, schema, tags, dependencies, environments, path]

theorem plain_eq_of_reread {t t' : Template} {j : Json} (written : t.toJson? = some j)
    (h : ofJson? j.reread = some t') : t'.plain = t.plain := by
  obtain ⟨source, spelled, rfl⟩ := Option.map_eq_some_iff.1 written
  have said : Said (t.jsonAt source).reread t := said_back Json.faithful_reread spelled
  rw [jsonAt, Json.reread_obj] at h said
  exact (said_of_ofJson? h).eq said

theorem alike_of_reread {t t' : Template} {j : Json} (written : t.toJson? = some j)
    (h : ofJson? j.reread = some t') : t'.Alike t := by
  have same : t'.plain = t.plain := plain_eq_of_reread written h
  have id : t'.plain.id = t.plain.id := by rw [same]
  have key : t'.plain.key = t.plain.key := by rw [same]
  have content : t'.plain.content = t.plain.content := by rw [same]
  have schema : t'.plain.schema = t.plain.schema := by rw [same]
  have kind : t'.plain.kind = t.plain.kind := by rw [same]
  exact ⟨id, key, content, schema, kind⟩

end Template

namespace Diagnostic

theorem eq_of_asNat? {n m : Nat} (h : Json.asNat? 64 (.nat n) = some m) : n = m := by
  have read : (if Decimal.isWord 64 (n : Int) then some (n : Int).toNat else none) = some m := h
  split at read
  · exact Option.some.inj read
  · cases read

theorem eq_of_asOption? {n : Nat} {found : Option Nat}
    (h : Json.asOption? (Json.asNat? 64) (.nat n) = some found) : some n = found := by
  obtain ⟨m, read, rfl⟩ := Option.map_eq_some_iff.1 h
  rw [eq_of_asNat? read]

theorem fields_of_ofJson? {members : List (String × Json)} {d : Diagnostic}
    (h : ofJson? (.obj members) = some d) :
    (Json.obj members).optional "line" (Json.asNat? 64) = some d.line ∧
      (Json.obj members).optional "column" (Json.asNat? 64) = some d.column ∧
      (Json.obj members).required "message" Json.asString? = some d.message := by
  obtain ⟨line, hline, h⟩ := Option.bind_eq_some_iff.1 h
  obtain ⟨column, hcolumn, h⟩ := Option.bind_eq_some_iff.1 h
  obtain ⟨message, hmessage, h⟩ := Option.bind_eq_some_iff.1 h
  obtain rfl := Option.some.inj h
  exact ⟨hline, hcolumn, hmessage⟩

theorem eq_of_reread {d d' : Diagnostic} (h : ofJson? d.toJson.reread = some d') : d' = d := by
  rw [toJson, Json.reread_obj] at h
  obtain ⟨hline, hcolumn, hmessage⟩ := fields_of_ofJson? h
  obtain ⟨line, column, message⟩ := d
  obtain ⟨line', column', message'⟩ := d'
  have same : line = line' ∧ column = column' ∧ message = message' := by
    cases line with
    | none =>
      cases column with
      | none => exact ⟨Option.some.inj hline, Option.some.inj hcolumn, Option.some.inj hmessage⟩
      | some c => exact ⟨Option.some.inj hline, eq_of_asOption? hcolumn, Option.some.inj hmessage⟩
    | some l =>
      cases column with
      | none => exact ⟨eq_of_asOption? hline, Option.some.inj hcolumn, Option.some.inj hmessage⟩
      | some c => exact ⟨eq_of_asOption? hline, eq_of_asOption? hcolumn, Option.some.inj hmessage⟩
  obtain ⟨rfl, rfl, rfl⟩ := same
  rfl

end Diagnostic

namespace Outcome

theorem fields_of_ofJson? {members : List (String × Json)} {o : Outcome}
    (h : ofJson? (.obj members) = some o) :
    (Json.obj members).required "passed" Json.asBool? = some o.passed ∧
      (Json.obj members).required "diagnostics" (Json.asList? Diagnostic.ofJson?) =
        some o.diagnostics := by
  obtain ⟨passed, hpassed, h⟩ := Option.bind_eq_some_iff.1 h
  obtain ⟨diagnostics, hdiagnostics, h⟩ := Option.bind_eq_some_iff.1 h
  obtain rfl := Option.some.inj h
  exact ⟨hpassed, hdiagnostics⟩

theorem eq_of_reread {o o' : Outcome} (h : ofJson? o.toJson.reread = some o') : o' = o := by
  rw [toJson, Json.reread_obj] at h
  obtain ⟨hpassed, hdiagnostics⟩ := fields_of_ofJson? h
  have passed : o.passed = o'.passed := Option.some.inj hpassed
  have diagnostics : o'.diagnostics = o.diagnostics := by
    have read : Json.asList? Diagnostic.ofJson? (Json.arr (o.diagnostics.map Diagnostic.toJson)).reread =
        some o'.diagnostics := hdiagnostics
    rw [Json.reread_arr, List.map_map] at read
    exact Json.eq_of_mapM (fun d d' found => Diagnostic.eq_of_reread found) read
  cases o
  cases o'
  simp_all

end Outcome

namespace Record

theorem fields_of_ofJson? {members : List (String × Json)} {r : Record}
    (h : ofJson? (.obj members) = some r) :
    (Json.obj members).required "template_id" Identifier.ofJson? = some r.template ∧
      (Json.obj members).required "environment_name" Json.asString? = some r.environment ∧
      (Json.obj members).required "source_path" Path.ofJson? = some r.path ∧
      (Json.obj members).required "rendered_content" Json.asString? = some r.content ∧
      (Json.obj members).required "validation_outcome" Outcome.ofJson? = some r.outcome := by
  obtain ⟨_, -, h⟩ := Option.bind_eq_some_iff.1 h
  obtain ⟨template, htemplate, h⟩ := Option.bind_eq_some_iff.1 h
  obtain ⟨environment, henvironment, h⟩ := Option.bind_eq_some_iff.1 h
  obtain ⟨path, hpath, h⟩ := Option.bind_eq_some_iff.1 h
  obtain ⟨content, hcontent, h⟩ := Option.bind_eq_some_iff.1 h
  obtain ⟨outcome, houtcome, h⟩ := Option.bind_eq_some_iff.1 h
  obtain ⟨_, -, h⟩ := Option.bind_eq_some_iff.1 h
  obtain rfl := Option.some.inj h
  exact ⟨htemplate, henvironment, hpath, hcontent, houtcome⟩

theorem alike_of_reread {r r' : Record} {j : Json} (written : r.toJson? = some j)
    (h : ofJson? j.reread = some r') : r'.Alike r := by
  obtain ⟨source, spelled, rfl⟩ := Option.map_eq_some_iff.1 written
  rw [jsonAt, Json.reread_obj] at h
  obtain ⟨htemplate, henvironment, hpath, hcontent, houtcome⟩ := fields_of_ofJson? h
  have template : r.template = r'.template := by
    have read := Json.of_required (v := r.template.toJson.reread) rfl htemplate
    rw [Identifier.ofJson?_reread] at read
    exact Option.some.inj read
  have environment : r.environment = r'.environment := Option.some.inj henvironment
  have path : r.path = r'.path := by
    have read := Json.of_required (v := source.reread) rfl hpath
    rw [Path.ofJson?_back Json.faithful_reread spelled] at read
    exact Option.some.inj read
  have content : r.content = r'.content := Option.some.inj hcontent
  have outcome := Json.of_required (v := r.outcome.toJson.reread) rfl houtcome
  exact ⟨template.symm, environment.symm, path.symm, content.symm, Outcome.eq_of_reread outcome⟩

end Record

end Stencil
