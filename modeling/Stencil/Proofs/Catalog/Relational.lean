import Stencil.Catalog.Relational
import Stencil.Proofs.Catalog.Ledger

/-!
# A catalog in tables keeps its ledgers

A row is legible when it can be read back. Between the calls of a commit the row of its template need not be;
the call that reads it in the middle makes sure that it is at the end.
-/

namespace Stencil.Catalog

/-! ### Actions with a value -/

theorem bind_eq_ok_iff {ε α β : Type} {x : Except ε α} {f : α → Except ε β} {b : β} :
    x >>= f = .ok b ↔ ∃ a, x = .ok a ∧ f a = .ok b := by
  cases x with
  | error e => exact ⟨nofun, fun ⟨_, first, _⟩ => nomatch first⟩
  | ok a => exact ⟨fun rest => ⟨a, rfl, rest⟩, fun ⟨_, first, rest⟩ => Except.ok.inj first ▸ rest⟩

/-- Where an action has a value iff its parts have one, so has a list of actions. -/
theorem mapM_eq_pure_iff {f : Type → Type} [Monad f] [LawfulMonad f]
    (inj : ∀ {α : Type} {a b : α}, (pure a : f α) = pure b ↔ a = b)
    (parts : ∀ {α β : Type} {x : f α} {g : α → f β} {b : β},
      x >>= g = pure b ↔ ∃ a, x = pure a ∧ g a = pure b)
    {α β : Type} {act : α → f β} {as : List α} {bs : List β} :
    as.mapM act = pure bs ↔ as.map act = bs.map pure := by
  induction as generalizing bs with
  | nil => rw [List.mapM_nil, inj, List.map_nil, List.nil_eq, List.nil_eq, List.map_eq_nil_iff]
  | cons a as ih =>
    simp only [List.mapM_cons, parts, inj, ih, List.map_cons]
    cases bs with
    | nil => simp
    | cons b bs =>
      simp only [List.map_cons, List.cons.injEq]
      constructor
      · rintro ⟨b', first, bs', rest, rfl, rfl⟩
        exact ⟨first, rest⟩
      · rintro ⟨first, rest⟩
        exact ⟨b, first, bs, rest, rfl, rfl⟩

theorem mapM_eq_some_iff {α β : Type} {act : α → Option β} {as : List α} {bs : List β} :
    as.mapM act = some bs ↔ as.map act = bs.map some :=
  mapM_eq_pure_iff Option.some_inj Option.bind_eq_some_iff

theorem mapM_eq_ok_iff {ε α β : Type} {act : α → Except ε β} {as : List α} {bs : List β} :
    as.mapM act = .ok bs ↔ as.map act = bs.map .ok :=
  mapM_eq_pure_iff (iff_of_eq (Except.ok.injEq _ _)) bind_eq_ok_iff

/-! ### Documents -/

theorem exists_encode {t : Template} (spelled : t.path.IsText) : ∃ body, encode t.toJson? = .ok body := by
  obtain ⟨j, written⟩ := Template.exists_toJson? spelled
  exact ⟨j.reread, congrArg encode written⟩

theorem encode_of_not_isText {t : Template} (other : ¬ t.path.IsText) : encode t.toJson? = .error unwritable :=
  congrArg encode (Template.toJson?_eq_none other)

theorem RecordRow.exists_of_isText {r : Record} (spelled : r.path.IsText) : ∃ row, RecordRow.of r = .ok row := by
  obtain ⟨j, written⟩ := Record.exists_toJson? spelled
  exact ⟨_, congrArg (fun written => (encode written).map _) written⟩

theorem RecordRow.of_not_isText {r : Record} (other : ¬ r.path.IsText) : RecordRow.of r = .error unwritable :=
  congrArg (fun written => (encode written).map _) (Record.toJson?_eq_none other)

section

variable {rows : List RecordRow} {rs : List Record} (history : rows.map .ok = rs.map RecordRow.of)

include history

theorem exists_record {row : RecordRow} (among : row ∈ rows) : ∃ r ∈ rs, RecordRow.of r = .ok row := by
  have kept : (.ok row : Except Error RecordRow) ∈ rows.map .ok := List.mem_map_of_mem among
  exact List.mem_map.1 (history ▸ kept)

theorem exists_recordRow {r : Record} (among : r ∈ rs) : ∃ row ∈ rows, row.id = r.id := by
  have mapped : RecordRow.of r ∈ rs.map RecordRow.of := List.mem_map_of_mem among
  obtain ⟨row, held, kept⟩ := List.mem_map.1 (history.symm ▸ mapped)
  exact ⟨row, held, RecordRow.id_of kept.symm⟩

theorem recordRow_ids : rows.map (·.id) = rs.map (·.id) := by
  induction rs generalizing rows with
  | nil =>
    obtain rfl := List.map_eq_nil_iff.1 history
    rfl
  | cons r rs ih =>
    obtain ⟨row, rows, rfl, kept, others⟩ := List.map_eq_cons_iff.1 history
    rw [List.map_cons, List.map_cons, RecordRow.id_of kept.symm, ih others]

end

namespace Relational

variable {t : Template}

theorem templateDocument_of_validate {e : Error} (invalid : t.validate = .error e) :
    templateDocument t = .error e := by
  rw [templateDocument, invalid]
  rfl

theorem templateDocument_eq (valid : t.validate = .ok ()) : templateDocument t = encode t.toJson? := by
  rw [templateDocument, valid]
  rfl

theorem put_of_not_isText (valid : t.validate = .ok ()) (other : ¬ t.path.IsText) (now : Instant)
    (r : Relational) : put t now r = (.error unwritable, r) := by
  rw [put, templateDocument_eq valid, encode_of_not_isText other]

theorem appendRecord_of_not_isText {record : Record} (other : ¬ record.path.IsText) (r : Relational) :
    appendRecord record r = (.error unwritable, r) := by
  rw [appendRecord, RecordRow.of_not_isText other]

end Relational

/-! ### Rows -/

/-- What a row keeps for good. -/
def TemplateRow.face (row : TemplateRow) : Identifier × Template.Key × Except Error Json :=
  (row.id, row.key, .ok row.body)

def rowFace (t : Template) : Identifier × Template.Key × Except Error Json :=
  (t.id, t.key, encode t.toJson?)

theorem TemplateRow.face_of {t : Template} {body : Json} {now : Instant} (kept : encode t.toJson? = .ok body) :
    (TemplateRow.of t body now).face = rowFace t := congrArg (fun kept => (t.id, t.key, kept)) kept.symm

/-- A row that can be read back. -/
structure TemplateRow.Legible (row : TemplateRow) : Prop where
  usage : row.usage.usage? ≠ none
  body : Template.ofJson? row.body ≠ none
  updatedAt : Instant.ofStamp? row.updatedAt ≠ none
  lastUsed : ∀ text, row.lastUsed = some text → Instant.ofStamp? text ≠ none

theorem decode_eq_ok_iff {α : Type} {read : Json → Option α} {body : Json} {a : α} :
    decode read body = .ok a ↔ read body = some a := by
  unfold decode
  cases read body with
  | none => simp [unavailable]
  | some b => simp

theorem readStamp_eq_ok_iff {text : String} {t : Instant} :
    readStamp text = .ok t ↔ Instant.ofStamp? text = some t := by
  unfold readStamp
  cases Instant.ofStamp? text with
  | none => simp [unavailable]
  | some t => simp

/-- A column with a text that can be read, if it has one. -/
theorem exists_stamp {text? : Option String} (legible : ∀ text, text? = some text → Instant.ofStamp? text ≠ none) :
    ∃ time? : Option Instant, text?.map Instant.ofStamp? = time?.map some := by
  cases text? with
  | none => exact ⟨none, rfl⟩
  | some text =>
    obtain ⟨time, known⟩ := Option.ne_none_iff_exists'.1 (legible text rfl)
    exact ⟨some time, congrArg some known⟩

namespace TemplateRow

variable {row : TemplateRow} {usage : UInt64} {t : Template}

/-- What a row is read as: its document, with what its columns say. -/
theorem template_eq_ok_iff : row.template usage = .ok t ↔ ∃ u updatedAt lastUsed,
    Template.ofJson? row.body = some u ∧ Instant.ofStamp? row.updatedAt = some updatedAt ∧
      row.lastUsed.map Instant.ofStamp? = lastUsed.map some ∧
      t = { u with effectiveness := row.effectiveness, usage, updatedAt, lastUsed } := by
  unfold TemplateRow.template
  cases row.lastUsed with
  | none =>
    constructor
    · intro read
      obtain ⟨u, body, read⟩ := bind_eq_ok_iff.1 read
      obtain ⟨updatedAt, updated, read⟩ := bind_eq_ok_iff.1 read
      exact ⟨u, updatedAt, none, decode_eq_ok_iff.1 body, readStamp_eq_ok_iff.1 updated, rfl,
        (Except.ok.inj read).symm⟩
    · rintro ⟨u, updatedAt, _ | _, body, updated, used, rfl⟩
      · rw [decode_eq_ok_iff.2 body, readStamp_eq_ok_iff.2 updated]
        rfl
      · cases used
  | some text =>
    constructor
    · intro read
      obtain ⟨u, body, read⟩ := bind_eq_ok_iff.1 read
      obtain ⟨updatedAt, updated, read⟩ := bind_eq_ok_iff.1 read
      obtain ⟨lastUsed, used, read⟩ := bind_eq_ok_iff.1 read
      cases known : readStamp text with
      | error e =>
        rw [known] at used
        cases used
      | ok stamp =>
        rw [known] at used
        obtain rfl := Except.ok.inj used
        exact ⟨u, updatedAt, some stamp, decode_eq_ok_iff.1 body, readStamp_eq_ok_iff.1 updated,
          congrArg some (readStamp_eq_ok_iff.1 known), (Except.ok.inj read).symm⟩
    · rintro ⟨u, updatedAt, _ | stamp, body, updated, used, rfl⟩
      · cases used
      · rw [decode_eq_ok_iff.2 body, readStamp_eq_ok_iff.2 updated]
        show ((readStamp text).map some >>= _) = _
        rw [readStamp_eq_ok_iff.2 (Option.some.inj used)]
        rfl

/-- A legible row gives back the template whose face it has. -/
theorem Legible.template (h : row.Legible) (face : row.face = rowFace t) :
    ∃ usage t', row.usage.usage? = some usage ∧ row.template usage = .ok t' ∧ t'.Alike t := by
  obtain ⟨usage, counted⟩ := Option.ne_none_iff_exists'.1 h.usage
  obtain ⟨u, read⟩ := Option.ne_none_iff_exists'.1 h.body
  obtain ⟨updatedAt, updated⟩ := Option.ne_none_iff_exists'.1 h.updatedAt
  obtain ⟨lastUsed, used⟩ := exists_stamp h.lastUsed
  have kept : .ok row.body = encode t.toJson? := congrArg (·.2.2) face
  obtain ⟨j, written, body⟩ := exists_of_encode kept.symm
  have alike : u.Alike t := Template.alike_of_reread written (body ▸ read)
  exact ⟨usage, _, counted, template_eq_ok_iff.2 ⟨u, updatedAt, lastUsed, read, updated, used, rfl⟩,
    alike.id, alike.key, alike.content, alike.schema, alike.kind⟩

theorem legible_of_template (counted : row.usage.usage? = some usage) (read : row.template usage = .ok t) :
    row.Legible := by
  obtain ⟨u, updatedAt, lastUsed, body, updated, used, -⟩ := template_eq_ok_iff.1 read
  refine ⟨by simp [counted], by simp [body], by simp [updated], fun text last lost => ?_⟩
  rw [last, Option.map_some, lost] at used
  cases lastUsed <;> cases used

end TemplateRow

namespace Relational

/-- What is stored is what the ledger says, up to the use of templates. -/
structure Stores (l : Ledger) (r : Relational) : Prop where
  templates : r.templates.map TemplateRow.face = l.templates.map rowFace
  ids : (l.templates.map (·.id)).Nodup
  environments : ∀ name, (r.environments.find? fun row => row.name == name).map (·.body) =
    (l.environment? name).map (·.toJson.reread)
  records : r.history.map .ok = l.records.map RecordRow.of

/-- Every row is legible, except perhaps the one of an identifier. -/
def LegibleBut (id : Identifier) (r : Relational) : Prop :=
  ∀ row ∈ r.templates, row.id ≠ id → row.Legible

variable {l : Ledger} {r r' : Relational}

theorem find?_map_eq {α β γ : Type} {f : α → γ} {g : β → γ} {as : List α} {bs : List β}
    (same : as.map f = bs.map g) (p : γ → Bool) :
    (as.find? (p ∘ f)).map f = (bs.find? (p ∘ g)).map g := by
  rw [← List.find?_map, ← List.find?_map, same]

theorem Stores.find?_key (h : Stores l r) (key : Template.Key) :
    (r.templates.find? fun row => row.key == key).map TemplateRow.face =
      (l.holder? key).map rowFace :=
  find?_map_eq h.templates fun face => face.2.1 == key

theorem Stores.mem (h : Stores l r) {row : TemplateRow} (among : row ∈ r.templates) :
    ∃ t ∈ l.templates, row.face = rowFace t := by
  have mapped : row.face ∈ l.templates.map rowFace := h.templates ▸ List.mem_map_of_mem among
  obtain ⟨t, among, same⟩ := List.mem_map.1 mapped
  exact ⟨t, among, same.symm⟩

theorem Stores.nodup_ids (h : Stores l r) : (r.templates.map (·.id)).Nodup := by
  have same : r.templates.map (·.id) = l.templates.map (·.id) := by
    have mapped := congrArg (List.map Prod.fst) h.templates
    rwa [List.map_map, List.map_map] at mapped
  exact same ▸ h.ids

theorem Stores.eq_of_id (h : Stores l r) {row row' : TemplateRow} (among : row ∈ r.templates)
    (among' : row' ∈ r.templates) (same : row.id = row'.id) : row = row' :=
  List.inj_on_of_nodup_map h.nodup_ids among among' same

theorem Stores.id_eq_of_key (h : Stores l r) {row row' : TemplateRow} (among : row ∈ r.templates)
    (among' : row' ∈ r.templates) (same : row.key = row'.key) : row.id = row'.id := by
  obtain ⟨t, held, face⟩ := h.mem among
  obtain ⟨t', held', face'⟩ := h.mem among'
  have keys : t.key = t'.key := by
    have first : row.key = t.key := congrArg (·.2.1) face
    have second : row'.key = t'.key := congrArg (·.2.1) face'
    rw [← first, ← second, same]
  have first := Ledger.holder?_eq_some_iff.2 ⟨held, keys⟩
  rw [Ledger.holder?_eq_some_iff.2 ⟨held', rfl⟩] at first
  obtain rfl := Option.some.inj first
  exact (congrArg Prod.fst face).trans (congrArg Prod.fst face').symm

theorem Stores.map (h : Stores l r) {f : TemplateRow → TemplateRow} (same : ∀ row, (f row).face = row.face) :
    Stores l { r with templates := r.templates.map f } where
  templates := by
    rw [List.map_map, ← h.templates]
    exact List.map_congr_left fun row _ => same row
  ids := h.ids
  environments := h.environments
  records := h.records

/-! ### Templates -/

theorem Stores.addTemplate (h : Stores l r) {t : Template} {body : Json} {now : Instant}
    (kept : encode t.toJson? = .ok body) (new : l.holder? t.key = none)
    (fresh : ∀ u ∈ l.templates, u.id ≠ t.id) :
    Stores (l.addTemplate t new) { r with templates := r.templates ++ [.of t body now] } where
  templates := by
    show (r.templates ++ [TemplateRow.of t body now]).map TemplateRow.face = (l.templates ++ [t]).map rowFace
    rw [List.map_append, List.map_append, h.templates, List.map_singleton, List.map_singleton,
      TemplateRow.face_of kept]
  ids := by
    show ((l.templates ++ [t]).map (·.id)).Nodup
    rw [List.map_append, List.map_singleton, List.nodup_append]
    refine ⟨h.ids, List.nodup_singleton _, ?_⟩
    intro id among id' last
    obtain ⟨u, held, rfl⟩ := List.mem_map.1 among
    rw [List.mem_singleton.1 last]
    exact fresh u held
  environments := h.environments
  records := h.records

/-- A put touches no other row than that of its template. -/
theorem Stores.put (h : Stores l r) (legible : ∀ row ∈ r.templates, row.Legible) {t : Template}
    {now : Instant} {id : Identifier} (fresh : ∀ u ∈ l.templates, u.id ≠ t.id)
    (stored : put t now r = (.ok id, r')) :
    id = l.slot t ∧ Stores (l.putTemplate t) r' ∧ LegibleBut id r' := by
  have same := h.find?_key t.key
  unfold Relational.put at stored
  split at stored
  · cases (Prod.mk.inj stored).1
  next body document =>
  split at stored
  · next old found =>
    obtain ⟨answer, rfl⟩ := Prod.mk.inj stored
    obtain rfl := Except.ok.inj answer
    rw [found] at same
    obtain ⟨u, held, face⟩ := Option.map_eq_some_iff.1 same.symm
    obtain ⟨unchanged, slot⟩ := Ledger.putTemplate_of_held held
    rw [unchanged, slot]
    refine ⟨(congrArg Prod.fst face).symm, h.map fun row => ?_, ?_⟩
    · split <;> rfl
    intro row' among other
    obtain ⟨row, held, rfl⟩ := List.mem_map.1 among
    -- The touched row is the one that is answered.
    have key : row.key ≠ t.key := by
      intro touched
      rw [if_pos touched] at other
      have oldKey : old.key = t.key := by simpa using List.find?_some found
      have same : row.id = old.id :=
        h.id_eq_of_key held (List.mem_of_find?_eq_some found) (touched.trans oldKey.symm)
      exact other same
    rw [if_neg key] at other ⊢
    exact legible row held
  · next missing =>
    split at stored
    · cases (Prod.mk.inj stored).1
    · obtain ⟨answer, rfl⟩ := Prod.mk.inj stored
      obtain rfl := Except.ok.inj answer
      rw [missing] at same
      have new := Option.map_eq_none_iff.1 same.symm
      obtain ⟨added, slot⟩ := Ledger.putTemplate_of_new new
      rw [added, slot]
      refine ⟨rfl, h.addTemplate (of_templateDocument document).2 new fresh, fun row among other => ?_⟩
      rcases List.mem_append.1 among with among | last
      · exact legible row among
      · exact absurd (congrArg TemplateRow.id (List.mem_singleton.1 last)) other

/-- A row is changed in its use only, and no other row is. -/
theorem Stores.change (h : Stores l r) {id : Identifier} {f : TemplateRow → TemplateRow}
    (changed : change id f r = (.ok (), r')) (same : ∀ row, (f row).face = row.face) :
    Stores l r' ∧ (∀ row' ∈ r'.templates, ∃ row ∈ r.templates, row'.id = row.id ∧
      row' = if row.id = id then f row else row) := by
  unfold Relational.change at changed
  split at changed
  · obtain ⟨-, rfl⟩ := Prod.mk.inj changed
    have faces : ∀ row : TemplateRow, (if row.id = id then f row else row).face = row.face := by
      intro row
      split
      · exact same row
      · rfl
    refine ⟨h.map faces, fun row' among => ?_⟩
    obtain ⟨row, held, rfl⟩ := List.mem_map.1 among
    exact ⟨row, held, congrArg Prod.fst (faces row), rfl⟩
  · cases (Prod.mk.inj changed).1

theorem Stores.recordUsage (h : Stores l r) {id : Identifier} {now : Instant}
    (legible : LegibleBut id r) (counted : recordUsage id now r = (.ok (), r')) :
    Stores l r' ∧ LegibleBut id r' ∧
      ∀ row ∈ r'.templates, row.id = id → row.lastUsed = some now.stamp := by
  obtain ⟨stores, rows⟩ := h.change counted fun _ => rfl
  refine ⟨stores, fun row' among other => ?_, fun row' among same => ?_⟩
  · obtain ⟨row, held, ids, rfl⟩ := rows row' among
    rw [ids] at other
    rw [if_neg other]
    exact legible row held other
  · obtain ⟨row, held, ids, rfl⟩ := rows row' among
    rw [ids] at same
    rw [if_pos same]

/-- A row that a call answers is legible. -/
theorem Stores.of_get (h : Stores l r) {id : Identifier} {t : Template}
    (got : get id r = (.ok t, r')) :
    r = r' ∧ ∀ row ∈ r.templates, row.id = id → row.Legible := by
  unfold Relational.get at got
  split at got
  · cases (Prod.mk.inj got).1
  · next row found =>
    split at got
    · cases (Prod.mk.inj got).1
    · next usage counted =>
      obtain ⟨read, same⟩ := Prod.mk.inj got
      refine ⟨same, fun row' among named => ?_⟩
      have id' : row.id = id := by simpa using List.find?_some found
      rw [h.eq_of_id among (List.mem_of_find?_eq_some found) (named.trans id'.symm)]
      exact TemplateRow.legible_of_template counted read

theorem Stores.updateEffectiveness (h : Stores l r) {id : Identifier} {score : Float}
    {now : Instant} (legible : LegibleBut id r)
    (used : ∀ row ∈ r.templates, row.id = id → row.Legible ∧ row.lastUsed = some now.stamp)
    (updated : updateEffectiveness id score now r = (.ok (), r')) :
    Stores l r' ∧ ∀ row ∈ r'.templates, row.Legible := by
  unfold Relational.updateEffectiveness at updated
  split at updated
  · cases (Prod.mk.inj updated).1
  obtain ⟨stores, rows⟩ := h.change updated fun _ => rfl
  refine ⟨stores, fun row' among => ?_⟩
  obtain ⟨row, held, ids, rfl⟩ := rows row' among
  split
  · next same =>
    obtain ⟨read, last⟩ := used row held same
    exact ⟨read.usage, read.body, read.lastUsed _ last, read.lastUsed⟩
  · next other => exact legible row held other

/-! ### Records and environments -/

theorem Stores.appendRecord (h : Stores l r) {record : Record}
    (appended : appendRecord record r = (.ok (), r')) :
    Stores (l.addRecord record) r' ∧ r'.templates = r.templates := by
  unfold Relational.appendRecord at appended
  split at appended
  · cases (Prod.mk.inj appended).1
  next row kept =>
  split at appended
  · cases (Prod.mk.inj appended).1
  · obtain ⟨-, rfl⟩ := Prod.mk.inj appended
    refine ⟨{ h with records := ?_ }, rfl⟩
    show (r.history ++ [row]).map .ok = (l.records ++ [record]).map RecordRow.of
    rw [List.map_append, List.map_append, h.records, List.map_singleton, List.map_singleton, kept]

theorem find?_replaced (rows : List EnvironmentRow) (new : EnvironmentRow) (name : String) :
    ((rows.filter fun row => row.name ≠ new.name) ++ [new]).find? (fun row => row.name == name) =
      if new.name = name then some new else rows.find? fun row => row.name == name := by
  rw [List.find?_append, List.find?_filter]
  split
  · next same =>
    rw [List.find?_eq_none.2 fun row _ => by simp [← same], Option.none_or,
      List.find?_cons_of_pos (by simpa using same)]
  · next other =>
    rw [List.find?_cons_of_neg (by simpa using other), List.find?_nil, Option.or_none]
    congr 1
    funext row
    by_cases found : row.name = name
    · simp [found, Ne.symm other]
    · simp [found]

theorem Stores.putEnvironment (h : Stores l r) {e : Environment}
    (put : putEnvironment e r = (.ok (), r')) :
    Stores (l.putEnvironment e) r' ∧ r'.templates = r.templates := by
  unfold Relational.putEnvironment at put
  split at put
  · cases (Prod.mk.inj put).1
  · obtain ⟨-, rfl⟩ := Prod.mk.inj put
    refine ⟨{ h with environments := fun name => ?_ }, rfl⟩
    refine (congrArg _ (find?_replaced r.environments ⟨e.name, e.toJson.reread⟩ name)).trans ?_
    show _ = ((e :: l.environments).find? fun e => e.name == name).map (·.toJson.reread)
    split
    · next same =>
      rw [List.find?_cons_of_pos (by simpa using same)]
      rfl
    · next other =>
      rw [List.find?_cons_of_neg (by simpa using other)]
      exact h.environments name

theorem environment_of_body {name : String} {known? : Option Environment}
    (same : (r.environments.find? fun row => row.name == name).map (·.body) =
      known?.map (·.toJson.reread)) : environment name r = (.ok known?, r) := by
  unfold Relational.environment
  cases found : r.environments.find? fun row => row.name == name with
  | none =>
    rw [found] at same
    rw [Option.map_eq_none_iff.1 same.symm]
  | some row =>
    rw [found] at same
    obtain ⟨e, known, body⟩ := Option.map_eq_some_iff.1 same.symm
    have body : row.body = e.toJson.reread := body.symm
    have read : decode Environment.ofJson? row.body = .ok e :=
      decode_eq_ok_iff.2 (body ▸ Environment.ofJson?_reread e)
    simp only [read, known]
    rfl

theorem Stores.environment (h : Stores l r) (name : String) :
    environment name r = (.ok (l.environment? name), r) := environment_of_body (h.environments name)

theorem mem_of_mapM_ok {α β : Type} {f : α → Except Error β} {as : List α} {bs : List β}
    (h : as.mapM f = .ok bs) {b : β} (among : b ∈ bs) : ∃ a ∈ as, f a = .ok b := by
  have mapped : Except.ok b ∈ as.map f := mapM_eq_ok_iff.1 h ▸ List.mem_map_of_mem among
  exact List.mem_map.1 mapped

theorem Stores.of_records (h : Stores l r) {q : RecordQuery} {rs : List Record}
    (answered : (Relational.records q r).1 = .ok rs) {record : Record} (among : record ∈ rs) :
    ∃ record' ∈ l.records, record.Alike record' := by
  let rows := r.history.filter fun row =>
    q.template.all (row.template == ·) && q.environment.all (row.environment == ·)
  have answered : (rows.mapM fun row => decode Record.ofJson? row.body).map chronicle = .ok rs :=
    answered
  cases decoded : rows.mapM fun row => decode Record.ofJson? row.body with
  | error e =>
    rw [decoded] at answered
    cases answered
  | ok read =>
    rw [decoded] at answered
    obtain rfl := Except.ok.inj answered
    obtain ⟨row, held, same⟩ := mem_of_mapM_ok decoded (mem_chronicle.1 among)
    have kept : (.ok row : Except Error RecordRow) ∈ r.history.map .ok :=
      List.mem_map_of_mem (List.mem_filter.1 held).1
    rw [h.records] at kept
    obtain ⟨record', known, encoded⟩ := List.mem_map.1 kept
    obtain ⟨j, written, rfl⟩ := RecordRow.exists_of encoded
    rw [decode_eq_ok_iff] at same
    exact ⟨record', known, Record.alike_of_reread written same⟩

/-! ### Commits -/

/-- What is stored is what the ledger says, and can be read back. -/
structure Represents (l : Ledger) (r : Relational) : Prop where
  stores : Stores l r
  legible : ∀ row ∈ r.templates, row.Legible

theorem represents_empty : Represents {} {} where
  stores := ⟨rfl, List.nodup_nil, fun _ => rfl, rfl⟩
  legible _ among := by cases among

theorem Represents.commit {c : Commit} {id : Identifier} (h : Represents l r)
    (fresh : ∀ t ∈ l.templates, t.id ≠ c.made.template.id) (committed : Committed c r id r') :
    Represents (l.commit c) r' := by
  obtain ⟨put, counted, appended, got, updated⟩ := committed
  -- From here on the row of the template need not be legible, until the call that reads it.
  obtain ⟨rfl, stores, legible⟩ := h.stores.put h.legible fresh put
  obtain ⟨stores, legible, used⟩ := stores.recordUsage legible counted
  obtain ⟨stores, same⟩ := stores.appendRecord appended
  rw [LegibleBut, ← same] at legible
  rw [← same] at used
  obtain ⟨rfl, read⟩ := stores.of_get got
  obtain ⟨stores, legible⟩ := stores.updateEffectiveness legible
    (fun row among named => ⟨read row among named, used row among named⟩) updated
  exact ⟨stores, legible⟩

theorem Represents.get (h : Represents l r) {t : Template} (among : t ∈ l.templates) :
    ∃ t', get t.id r = (.ok t', r) ∧ t'.Alike t := by
  obtain ⟨row, held, face⟩ : ∃ row ∈ r.templates, row.face = rowFace t :=
    List.mem_map.1 (h.stores.templates ▸ List.mem_map_of_mem among)
  have named : row.id = t.id := congrArg Prod.fst face
  obtain ⟨usage, t', counted, read, alike⟩ := (h.legible row held).template face
  refine ⟨t', ?_, alike⟩
  cases found : r.templates.find? fun row => row.id == t.id with
  | none => exact absurd named (by simpa using List.find?_eq_none.1 found row held)
  | some row' =>
    have same : row'.id = t.id := by simpa using List.find?_some found
    have unique := h.stores.eq_of_id (List.mem_of_find?_eq_some found) held (same.trans named.symm)
    simp only [Relational.get, found, unique, counted, read]

instance : Keeps Relational where
  Represents := Represents
  putEnvironment {l s s' e now} h put := by
    obtain ⟨stores, same⟩ := h.stores.putEnvironment put
    exact ⟨stores, fun row among => h.legible row (same ▸ among)⟩
  commit h fresh committed := h.commit fresh committed
  environment {l s} h name now := h.stores.environment name
  get {l s} h {t} among now := h.get among
  records {l s} h {q now rs} answered {r} among := h.stores.of_records answered among

end Relational

end Stencil.Catalog
