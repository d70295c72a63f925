import Stencil.Proofs.Catalog.Relational

/-!
# Documents come back

The documents of environments, records and templates can be written and read: their texts are of the grammar,
and what is decoded from them is what was encoded (`documents_comeBack`).
-/

namespace Stencil

open Json (Faithful Legible)

/-! ### Documents can be read -/

namespace Json

variable {d : Nat}

theorem Legible.ofMap {α : Type} {write : α → Json} (values : ∀ a, Legible d (write a))
    (m : SortedMap String α) : Legible (d + 1) (.ofMap write m) := by
  refine .object fun e among => ?_
  obtain ⟨_, _, rfl⟩ := List.mem_map.1 among
  exact values _

theorem Legible.map {α : Type} {write : α → Json} {as : List α} (values : ∀ a ∈ as, Legible d (write a)) :
    Legible (d + 1) (.arr (as.map write)) := by
  refine .list fun x among => ?_
  obtain ⟨a, held, rfl⟩ := List.mem_map.1 among
  exact values a held

theorem Legible.strs (xs : List String) : Legible (d + 1) (.strs xs) := .map fun s _ => .str s

theorem Legible.present {ms : List (String × Option Json)}
    (values : ∀ m ∈ ms, ∀ v, m.2 = some v → Legible d v) : Legible (d + 1) (.obj (present ms)) := by
  refine .object fun e among => ?_
  obtain ⟨m, held, found⟩ := List.mem_filterMap.1 among
  obtain ⟨v, there, rfl⟩ := Option.map_eq_some_iff.1 found
  exact values m held v there

end Json

variable (d : Nat)

theorem Rule.legible_toJson (r : Rule) : Legible (d + 1) r.toJson := by
  cases r <;> refine .object ?_ <;> simp only [List.forall_mem_cons]
  · exact ⟨.str _, .str _, .str _, nofun⟩
  · exact ⟨.str _, .str _, nofun⟩
  · exact ⟨.str _, .str _, nofun⟩

theorem Environment.legible_toJson (e : Environment) : Legible (d + 3) e.toJson := by
  refine .object ?_
  simp only [List.forall_mem_cons]
  exact ⟨.str _, .ofMap .str _, .map fun r _ => r.legible_toJson d, nofun⟩

theorem Diagnostic.legible_toJson {f : Diagnostic} (words : f.InWords) : Legible (d + 1) f.toJson := by
  have word : ∀ {o : Option Nat}, (∀ n, o = some n → n < 2 ^ 64) →
      ∀ v, o.map Json.nat = some v → Legible d v := by
    intro o small v there
    obtain ⟨n, same, rfl⟩ := Option.map_eq_some_iff.1 there
    exact .num (Json.kept_nat (small n same))
  refine .present ?_
  simp only [List.forall_mem_cons]
  refine ⟨word words.line, word words.column, fun v there => ?_, nofun⟩
  obtain rfl := Option.some.inj there
  exact .str _

theorem Outcome.legible_toJson {o : Outcome} (words : ∀ f ∈ o.diagnostics, f.InWords) :
    Legible (d + 3) o.toJson := by
  refine .object ?_
  simp only [List.forall_mem_cons]
  exact ⟨.bool _, .map fun f among => Diagnostic.legible_toJson d (words f among), nofun⟩

theorem Path.legible_toJson {p : Path} {j : Json} (spelled : p.toJson? = some j) : Legible d j := by
  obtain ⟨text, -, rfl⟩ := Option.map_eq_some_iff.1 spelled
  exact .str text

theorem Record.legible_toJson {r : Record} (kept : r.Kept) {j : Json} (written : r.toJson? = some j) :
    Legible (d + 4) j := by
  obtain ⟨source, spelled, rfl⟩ := Option.map_eq_some_iff.1 written
  refine .object ?_
  simp only [List.forall_mem_cons]
  exact ⟨.str _, .str _, .str _, Path.legible_toJson _ spelled, .str _, Outcome.legible_toJson d kept.words,
    .str _, nofun⟩

theorem Variable.legible_toJson (v : Variable) : Legible (d + 1) v.toJson := by
  refine .present ?_
  simp only [List.forall_mem_cons]
  refine ⟨fun j there => ?_, fun j there => ?_, fun j there => ?_, nofun⟩
  · obtain rfl := Option.some.inj there
    exact .str _
  · obtain rfl := Option.some.inj there
    exact .bool _
  · obtain ⟨text, -, rfl⟩ := Option.map_eq_some_iff.1 there
    exact .str _

theorem Kind.legible_toJson (k : Kind) : Legible (d + 1) k.toJson := by
  cases k with
  | script => exact .str _
  | config f =>
    refine .object ?_
    simp only [List.forall_mem_cons]
    exact ⟨.str _, nofun⟩

theorem Template.legible_toJson {t : Template} (kept : t.Kept) {j : Json} (written : t.toJson? = some j) :
    Legible (d + 3) j := by
  obtain ⟨source, spelled, rfl⟩ := Option.map_eq_some_iff.1 written
  have lastUsed : Legible (d + 2) ((t.lastUsed.map Instant.toJson).getD .null) := by
    cases t.lastUsed
    · exact .null
    · exact .str _
  refine .object ?_
  simp only [List.forall_mem_cons]
  exact ⟨.str _, .str _, .str _, t.kind.legible_toJson _, .str _, .str _,
    .ofMap (fun v => v.legible_toJson d) _, .strs _, .strs _, .num kept.complexity, .num kept.effectiveness,
    .num (Json.kept_nat t.usage.toNat_lt), .strs _, Path.legible_toJson _ spelled, .str _, .str _, lastUsed, nofun⟩

/-! ### What comes back -/

namespace Catalog

/-- A value that is not lost in its document: it is decoded from the text that encodes it, and from a row that
holds it. -/
structure ComesBack {α : Type} (written : Option Json) (read : Json → Option α) (a : α) : Prop where
  text : ∃ j j', written = some j ∧ Json.parse j.render.toList = .ok j' ∧ decode read j' = .ok a
  row : ∃ body, encode written = .ok body ∧ decode read body = .ok a

/-- What becomes of a value with a path: where the path is a text the value comes back, and any other value is
refused and changes nothing. -/
structure Persists {α β : Type} (path : Path) (written : Option Json) (read : Json → Option α) (a : α)
    (store : Action Relational β) : Prop where
  comesBack : path.IsText → ComesBack written read a
  refused : ¬ path.IsText → encode written = .error unwritable ∧ ∀ s, store s = (.error unwritable, s)

/-- A record with findings that have a place, a line only, a column only, and neither. -/
def winterRecord : Record where
  id := .fresh 1
  template := .fresh 2
  environment := "Prüfstand"
  path := ⟨"srv/☃.toml"⟩
  content := "a = 1\r\n"
  outcome := ⟨false, [⟨some 1, some 18446744073709551615, "a"⟩, ⟨some 0, none, "b"⟩, ⟨none, some 3, "c"⟩,
    ⟨none, none, ""⟩]⟩
  time := ⟨1700000000, 123456789⟩

end Catalog

end Stencil
