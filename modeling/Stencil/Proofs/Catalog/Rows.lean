import Stencil.Proofs.Catalog.Changes
import Stencil.Proofs.Catalog.Relational

/-!
# The rows of templates

In tables no two rows have the same identifier or the same key, and each holds the document of a template with
its own identifier and key. Every change keeps this, also one that leaves a row that cannot be read back.
`find_eq_ok_iff` says which templates a query is answered with.
-/

namespace Stencil.Catalog

/-- Of things with different keys only one has a given key. -/
theorem find?_eq_some_iff_of_nodup {α κ : Type} [DecidableEq κ] {key : α → κ} {as : List α}
    (nodup : (as.map key).Nodup) {k : κ} {a : α} :
    as.find? (fun b => key b == k) = some a ↔ a ∈ as ∧ key a = k := by
  constructor
  · intro found
    exact ⟨List.mem_of_find?_eq_some found, by simpa using List.find?_some found⟩
  · rintro ⟨among, rfl⟩
    cases found : as.find? fun b => key b == key a with
    | none => exact absurd (beq_self_eq_true _) (List.find?_eq_none.1 found a among)
    | some b =>
      have same : key b = key a := by simpa using List.find?_some found
      rw [List.inj_on_of_nodup_map nodup (List.mem_of_find?_eq_some found) among same]

/-! ### One row -/

namespace TemplateRow

variable {row : TemplateRow} {t : Template}

def read? (row : TemplateRow) : Option Template :=
  row.usage.usage?.bind fun usage => (row.template usage).toOption

theorem read?_eq_some_iff :
    row.read? = some t ↔ ∃ usage, row.usage.usage? = some usage ∧ row.template usage = .ok t := by
  have toOption : ∀ {x : Except Error Template}, x.toOption = some t ↔ x = .ok t := by
    rintro (e | u)
    · exact ⟨nofun, nofun⟩
    · exact ⟨fun same => congrArg _ (Option.some.inj same), fun same => congrArg _ (Except.ok.inj same)⟩
  rw [read?, Option.bind_eq_some_iff]
  exact exists_congr fun usage => and_congr_right fun _ => toOption

theorem legible_iff (face : row.face = rowFace t) : row.Legible ↔ ∃ u, row.read? = some u := by
  constructor
  · intro legible
    obtain ⟨usage, u, counted, read, -⟩ := legible.template face
    exact ⟨u, read?_eq_some_iff.2 ⟨usage, counted, read⟩⟩
  · rintro ⟨u, read⟩
    obtain ⟨usage, counted, read⟩ := read?_eq_some_iff.1 read
    exact legible_of_template counted read

theorem alike_of_read? (face : row.face = rowFace t) {u : Template} (read : row.read? = some u) : u.Alike t := by
  obtain ⟨usage, counted, read⟩ := read?_eq_some_iff.1 read
  obtain ⟨usage', u', counted', read', alike⟩ := (legible_of_template counted read).template face
  obtain rfl := Option.some.inj (counted.symm.trans counted')
  obtain rfl := Except.ok.inj (read.symm.trans read')
  exact alike

end TemplateRow

/-! ### All rows -/

namespace Relational

variable {r r' : Relational} {row : TemplateRow} {t : Template} {now : Instant}

/-- Every row holds the document of a template with its identifier and its key, which no other row has. -/
structure Filed (r : Relational) : Prop where
  written : ∀ row ∈ r.templates, ∃ t, row.face = rowFace t
  ids : (r.templates.map (·.id)).Nodup
  keys : (r.templates.map (·.key)).Nodup

theorem filed_empty : Filed {} where
  written _ among := by cases among
  ids := List.nodup_nil
  keys := List.nodup_nil

theorem Filed.map (h : Filed r) {f : TemplateRow → TemplateRow} (same : ∀ row, (f row).face = row.face) :
    Filed { r with templates := r.templates.map f } where
  written row' among := by
    obtain ⟨row, held, rfl⟩ := List.mem_map.1 among
    exact same row ▸ h.written row held
  ids := by
    have ids : (·.id) ∘ f = TemplateRow.id := funext fun row => congrArg Prod.fst (same row)
    rw [List.map_map, ids]
    exact h.ids
  keys := by
    have keys : (·.key) ∘ f = TemplateRow.key := funext fun row => congrArg (·.2.1) (same row)
    rw [List.map_map, keys]
    exact h.keys

theorem Filed.store (h : Filed r) {body : Json} (kept : encode t.toJson? = .ok body)
    (new : (r.templates.find? fun row => row.key == t.key) = none)
    (free : (r.templates.any fun row => row.id == t.id) = false) :
    Filed { r with templates := r.templates ++ [.of t body now] } where
  written row among := by
    rcases List.mem_append.1 among with old | last
    · exact h.written row old
    · exact ⟨t, List.mem_singleton.1 last ▸ TemplateRow.face_of kept⟩
  ids := by
    rw [List.map_append, List.map_singleton, ← List.concat_eq_append]
    refine List.Nodup.concat (fun among => ?_) h.ids
    obtain ⟨row, held, named⟩ := List.mem_map.1 among
    exact List.any_eq_false.1 free row held (beq_iff_eq.2 named)
  keys := by
    rw [List.map_append, List.map_singleton, ← List.concat_eq_append]
    refine List.Nodup.concat (fun among => ?_) h.keys
    obtain ⟨row, held, same⟩ := List.mem_map.1 among
    exact List.find?_eq_none.1 new row held (beq_iff_eq.2 same)

theorem Filed.change {call : Call} {reply : Except Error call.Answer} (h : Filed r)
    (change : Change r now call reply r') : Filed r' := by
  cases change with
  | refused e => exact h
  | asked call asks answer => exact h
  | touched kept held => exact h.map fun row => by split <;> rfl
  | stored kept new free => exact h.store (of_templateDocument kept).2 new free
  | used held => exact h.map fun row => by split <;> rfl
  | rescored number held => exact h.map fun row => by split <;> rfl
  | environment valid => exact ⟨h.written, h.ids, h.keys⟩
  | recorded kept new => exact ⟨h.written, h.ids, h.keys⟩

theorem Filed.run (h : Filed r) (xs : List (Call × Instant)) : Filed (run xs r).2 := by
  induction xs generalizing r with
  | nil => exact h
  | cons x xs ih => exact ih (h.change (change_perform x.1 x.2 r))

theorem filed_run (xs : List (Call × Instant)) : Filed (Catalog.run xs ({} : Relational)).2 := filed_empty.run xs

theorem Filed.of_read? (h : Filed r) (among : row ∈ r.templates) (read : row.read? = some t) :
    t.id = row.id ∧ t.key = row.key := by
  obtain ⟨u, face⟩ := h.written row among
  have alike := TemplateRow.alike_of_read? face read
  exact ⟨alike.id.trans (congrArg Prod.fst face).symm, alike.key.trans (congrArg (·.2.1) face).symm⟩

/-! ### Reading -/

theorem get_eq_ok_iff {id : Identifier} : (get id r).1 = .ok t ↔
    ∃ row, (r.templates.find? fun row => row.id == id) = some row ∧ row.read? = some t := by
  rw [Relational.get]
  cases r.templates.find? fun row => row.id == id with
  | none =>
    constructor
    · intro got
      cases got
    · rintro ⟨row, found, -⟩
      cases found
  | some row =>
    simp only [Option.some.injEq, exists_eq_left', TemplateRow.read?_eq_some_iff]
    cases row.usage.usage? with
    | none =>
      constructor
      · intro got
        cases got
      · rintro ⟨usage, counted, -⟩
        cases counted
    | some usage => simp only [Option.some.injEq, exists_eq_left']

theorem Filed.get_eq_ok_iff (h : Filed r) {id : Identifier} :
    (get id r).1 = .ok t ↔ ∃ row ∈ r.templates, row.id = id ∧ row.read? = some t := by
  rw [Relational.get_eq_ok_iff]
  refine exists_congr fun row => ?_
  rw [find?_eq_some_iff_of_nodup h.ids, and_assoc]

/-- Rows are counted first and read then, which is to read each of them. -/
theorem exists_counted_iff {rows : List TemplateRow} {us : List Template} :
    (∃ counted : List (TemplateRow × UInt64),
      rows.map (fun row => row.usage.usage?.map (row, ·)) = counted.map some ∧
      counted.map (fun row => row.1.template row.2) = us.map .ok) ↔
      rows.map TemplateRow.read? = us.map some := by
  induction rows generalizing us with
  | nil => cases us <;> simp
  | cons row rows ih =>
    cases us with
    | nil => simp
    | cons u us =>
      simp only [List.map_cons, List.cons.injEq, ← ih, TemplateRow.read?_eq_some_iff]
      constructor
      · rintro ⟨_ | ⟨⟨row', usage⟩, counted⟩, counts, reads⟩
        · cases counts
        · obtain ⟨first, countsLater⟩ := List.cons.inj counts
          obtain ⟨read, readsLater⟩ := List.cons.inj reads
          obtain ⟨usage', known, same⟩ := Option.map_eq_some_iff.1 first
          obtain ⟨rfl, rfl⟩ := Prod.mk.inj same
          exact ⟨⟨usage', known, read⟩, counted, countsLater, readsLater⟩
      · rintro ⟨⟨usage, known, read⟩, counted, counts, reads⟩
        refine ⟨(row, usage) :: counted, ?_, ?_⟩
        · rw [known, counts]
          rfl
        · rw [List.map_cons, read, reads]

/-- A query is answered when every row of its category can be read back. -/
theorem find_eq_ok_iff {q : Query} {ts : List Template} :
    (find q r).1 = .ok ts ↔ ∃ us : List Template,
      (r.templates.filter fun row => q.category.all (row.key.category == ·)).map TemplateRow.read? =
        us.map some ∧ ts = listed (us.filter q.accepts) := by
  let rows := r.templates.filter fun row => q.category.all (row.key.category == ·)
  have answer : (find q r).1 = .ok ts ↔ ∃ counted,
      rows.mapM (fun row => row.usage.usage?.map (row, ·)) = some counted ∧ ∃ us,
        counted.mapM (fun row => row.1.template row.2) = .ok us ∧ ts = listed (us.filter q.accepts) := by
    show (Relational.find q r).1 = .ok ts ↔ _
    unfold Relational.find
    dsimp only
    split
    · next lost => simp [rows, lost]
    · next counted known =>
      simp only [rows, known, Option.some.injEq, exists_eq_left']
      split
      · next failed => simp [failed]
      · next us read => simp [read, eq_comm]
  rw [answer]
  simp only [mapM_eq_some_iff, mapM_eq_ok_iff, ← exists_counted_iff]
  constructor
  · rintro ⟨counted, counts, us, reads, same⟩
    exact ⟨us, ⟨counted, counts, reads⟩, same⟩
  · rintro ⟨us, ⟨counted, counts, reads⟩, same⟩
    exact ⟨counted, counts, us, reads, same⟩

end Relational

end Stencil.Catalog
