import Mathlib.Data.Set.List
import Stencil.Catalog
import Stencil.Proofs.Catalog.Faultless
import Stencil.Proofs.Catalog.Listing
import Stencil.Proofs.Catalog.Persistence
import Stencil.Proofs.Catalog.Rows

/-!
# The answers of queries

A query is answered with the templates that are stored and match, each once and in the order of listings, and
the best template of a query is the one that no other precedes. So an answer depends on what is stored and not
on how it came there. A catalog in memory answers every query, and one in tables those for which it can read
its rows (`queries_answered`).
-/

namespace Stencil

namespace Template

/-- Precedence in listings: a higher score, or else more use, or else a smaller name or identifier. -/
def Precedes (a b : Template) : Prop :=
  scoreRank b.effectiveness < scoreRank a.effectiveness ∨
    scoreRank b.effectiveness = scoreRank a.effectiveness ∧
      (b.usage < a.usage ∨ b.usage = a.usage ∧ (a.name < b.name ∨ a.name = b.name ∧ a.id.bits < b.id.bits))

theorem order_eq_lt_iff {a b : Template} : a.order b = .lt ↔ a.Precedes b := by
  have scores : compare (scoreRank b.effectiveness) (scoreRank a.effectiveness) = .eq ↔
      scoreRank b.effectiveness = scoreRank a.effectiveness := Std.LawfulEqOrd.compare_eq_iff_eq
  have usages : compare b.usage.toNat a.usage.toNat = .eq ↔ b.usage = a.usage :=
    Std.LawfulEqOrd.compare_eq_iff_eq.trans UInt64.toNat_inj
  have names : compare a.name b.name = .eq ↔ a.name = b.name := Std.LawfulEqOrd.compare_eq_iff_eq
  have before : compare a.name b.name = .lt ↔ a.name < b.name := compareOfLessAndEq_eq_lt
  have smaller : compare a.id b.id = .lt ↔ a.id.bits < b.id.bits := compareOfLessAndEq_eq_lt
  simp only [order, Precedes, Ordering.then_eq_lt, scores, usages, names, before, smaller,
    Int.compare_eq_lt, Nat.compare_eq_lt, UInt64.lt_iff_toNat_lt]

theorem Precedes.asymm {a b : Template} (h : a.Precedes b) : ¬b.Precedes a := by
  rw [← order_eq_lt_iff] at h ⊢
  have swap : b.order a = (a.order b).swap := Std.OrientedCmp.eq_swap
  rw [swap, h]
  nofun

theorem not_precedes_self (t : Template) : ¬t.Precedes t := fun h => h.asymm h

end Template

namespace Catalog

/-- What a query asks of a template. -/
structure Query.Matches (q : Query) (t : Template) : Prop where
  category : ∀ c, q.category = some c → t.category = c
  environment : ∀ e, q.environment = some e → t.environments.keys = [] ∨ e ∈ t.environments.keys
  beginning : ∀ b, q.beginning = some b → b.toList <+: t.name.toList

theorem Query.accepts_iff {q : Query} {t : Template} : q.accepts t = true ↔ q.Matches t := by
  have fits : ∀ e, t.fits e = true ↔ t.environments.keys = [] ∨ e ∈ t.environments.keys := by
    intro e
    rw [Template.fits, Bool.or_eq_true, SortedMap.contains_iff_mem_keys, SortedMap.isEmpty,
      List.isEmpty_iff, SortedMap.keys, List.map_eq_nil_iff]
  have all : q.accepts t = true ↔ (∀ c, q.category = some c → t.category = c) ∧
      (∀ e, q.environment = some e → t.environments.keys = [] ∨ e ∈ t.environments.keys) ∧
      ∀ b, q.beginning = some b → b.toList <+: t.name.toList := by
    simp only [accepts, Bool.and_eq_true, Option.all_eq_true, beq_iff_eq, fits, List.isPrefixOf_iff_prefix,
      and_assoc]
  rw [all]
  constructor
  · rintro ⟨category, environment, beginning⟩
    exact ⟨category, environment, beginning⟩
  · rintro ⟨category, environment, beginning⟩
    exact ⟨category, environment, beginning⟩

/-! ### Answers -/

section

variable {σ τ : Type} [Backend σ] [Backend τ] {s : σ} {s' : τ} {q : Query} {now : Instant} {t u : Template}
  {ts us : List Template}

/-- A template is stored when it is answered under its identifier. -/
def Contains (s : σ) (t : Template) : Prop := ∀ now, (perform (.get t.id) now s).1 = .ok t

/-- A template is stored and matches, and none that is stored and matches precedes it. -/
structure IsFirst (s : σ) (q : Query) (t : Template) : Prop where
  stored : Contains s t
  wanted : q.Matches t
  first : ∀ u, Contains s u → q.Matches u → ¬u.Precedes t

/-- The answer of a query, and of what is the best template for it. -/
structure Answered (s : σ) (q : Query) (now : Instant) (ts : List Template) : Prop where
  found : perform (.find q) now s = (.ok ts, s)
  complete : ∀ t, t ∈ ts ↔ Contains s t ∧ q.Matches t
  ordered : ts.Pairwise Template.Precedes
  best : ∀ t, best q now s = (.ok t, s) ↔ IsFirst s q t
  unique : (∃ t, Contains s t ∧ q.Matches t) → ∃! t, IsFirst s q t
  missing : Catalog.best q now s = (.error (.notFound "template" (q.beginning.getD "*")), s) ↔
    ∀ t, Contains s t → ¬q.Matches t

theorem isFirst_iff (complete : ∀ t, t ∈ ts ↔ Contains s t ∧ q.Matches t)
    (ordered : ts.Pairwise Template.Precedes) : IsFirst s q t ↔ ts.head? = some t := by
  cases ts with
  | nil =>
    refine ⟨fun first => ?_, nofun⟩
    cases (complete t).2 ⟨first.stored, first.wanted⟩
  | cons a rest =>
    obtain ⟨below, -⟩ := List.pairwise_cons.1 ordered
    obtain ⟨stored, wanted⟩ := (complete a).1 List.mem_cons_self
    rw [List.head?_cons, Option.some.injEq]
    constructor
    · intro first
      rcases List.mem_cons.1 ((complete t).2 ⟨first.stored, first.wanted⟩) with same | later
      · exact same.symm
      · exact absurd (below t later) (first.first a stored wanted)
    · rintro rfl
      refine ⟨stored, wanted, fun u stored' wanted' => ?_⟩
      rcases List.mem_cons.1 ((complete u).2 ⟨stored', wanted'⟩) with rfl | later
      · exact u.not_precedes_self
      · exact (below u later).asymm

theorem best_of_found (found : perform (.find q) now s = (.ok ts, s)) :
    best q now s = match ts.head? with
      | some t => (.ok t, s)
      | none => (.error (.notFound "template" (q.beginning.getD "*")), s) := by
  unfold Catalog.best
  rw [Faultless.bind_ok found]
  cases ts <;> rfl

/-- It is enough that the listing of a query has the stored templates that match, each once. -/
theorem answered_of_found (found : perform (.find q) now s = (.ok (listed ts), s))
    (nodup : (ts.map (·.id)).Nodup) (complete : ∀ t, t ∈ ts ↔ Contains s t ∧ q.Matches t) :
    Answered s q now (listed ts) := by
  have complete : ∀ t, t ∈ listed ts ↔ Contains s t ∧ q.Matches t := fun t => mem_listed.trans (complete t)
  have ordered : (listed ts).Pairwise Template.Precedes :=
    (pairwise_listed nodup).imp Template.order_eq_lt_iff.1
  have first : ∀ t, IsFirst s q t ↔ (listed ts).head? = some t := fun t => isFirst_iff complete ordered
  have best := best_of_found found
  refine ⟨found, complete, ordered, fun t => ?_, fun ⟨t, stored⟩ => ?_, ?_⟩
  · rw [best, first]
    cases (listed ts).head? with
    | none => exact ⟨fun same => (nomatch (Prod.mk.inj same).1), nofun⟩
    | some a =>
      exact ⟨fun same => congrArg some (Except.ok.inj (Prod.mk.inj same).1), fun same => by cases same; rfl⟩
  · obtain ⟨a, rest, same⟩ := List.exists_cons_of_ne_nil (List.ne_nil_of_mem ((complete t).2 stored))
    rw [same] at first
    exact ⟨a, (first a).2 rfl, fun u other => (Option.some.inj ((first u).1 other)).symm⟩
  · have vacant : (∀ t, Contains s t → ¬q.Matches t) ↔ listed ts = [] := by
      rw [List.eq_nil_iff_forall_not_mem]
      exact forall_congr' fun t => by rw [complete, not_and]
    rw [best, vacant]
    cases listed ts with
    | nil => exact ⟨fun _ => rfl, fun _ => rfl⟩
    | cons a rest => exact ⟨fun same => (nomatch (Prod.mk.inj same).1), nofun⟩

theorem Answered.eq {now' : Instant} (h : Answered s q now ts) (h' : Answered s' q now' us)
    (same : ∀ t, Contains s t ↔ Contains s' t) : ts = us := by
  have nodup : ∀ {ts : List Template}, ts.Pairwise Template.Precedes → ts.Nodup := fun ordered =>
    ordered.imp fun {a b} before (same : a = b) => b.not_precedes_self (same ▸ before)
  refine List.Perm.eq_of_pairwise (fun a b _ _ before after => absurd after before.asymm)
    h.ordered h'.ordered ?_
  refine (List.perm_ext_iff_of_nodup (nodup h.ordered) (nodup h'.ordered)).2 fun t => ?_
  rw [h.complete, h'.complete, same]

end

/-! ### In memory -/

namespace Memory

variable {m : Memory} {t : Template}

theorem Keyed.contains_iff (h : Keyed m) : Contains m t ↔ t ∈ m.templates.values := by
  have answered : Contains m t ↔ m.templates.get? t.id = some t := by
    show (∀ now : Instant, (Memory.get t.id m).1 = .ok t) ↔ _
    rw [forall_const, Memory.get]
    cases m.templates.get? t.id with
    | none => exact ⟨nofun, nofun⟩
    | some u => exact ⟨fun same => congrArg some (Except.ok.inj same), fun same => by cases same; rfl⟩
  rw [answered]
  refine ⟨SortedMap.mem_values_of_get?, fun among => ?_⟩
  obtain ⟨id, found⟩ := SortedMap.mem_values among
  rwa [h.own found]

theorem Keyed.answered (h : Keyed m) (q : Query) (now : Instant) :
    Answered m q now (listed (m.templates.values.filter q.accepts)) := by
  refine answered_of_found rfl (h.nodup_ids.sublist (List.filter_sublist.map _)) fun t => ?_
  rw [List.mem_filter, h.contains_iff, Query.accepts_iff]

end Memory

/-! ### In tables -/

namespace Relational

variable {r : Relational} {q : Query} {t : Template}

theorem Filed.contains_iff (h : Filed r) : Contains r t ↔ ∃ row ∈ r.templates, row.read? = some t := by
  show (∀ now : Instant, (Relational.get t.id r).1 = .ok t) ↔ _
  rw [forall_const, h.get_eq_ok_iff]
  refine exists_congr fun row => and_congr_right fun among => ?_
  exact and_iff_right_of_imp fun read => (h.of_read? among read).1.symm

/-- The rows of a category that can be read back have the stored templates that match. -/
theorem Filed.answered (h : Filed r) {now : Instant} {ts : List Template}
    (found : (perform (.find q) now r).1 = .ok ts) : Answered r q now ts := by
  have whole : perform (.find q) now r = (.ok ts, r) := Prod.ext found (find_snd q r)
  obtain ⟨us, reads, rfl⟩ := find_eq_ok_iff.1 found
  have read_iff : ∀ t, t ∈ us ↔ ∃ row ∈ r.templates,
      q.category.all (row.key.category == ·) = true ∧ row.read? = some t := by
    intro t
    have mapped : t ∈ us ↔ some t ∈ us.map some := by simp
    rw [mapped, ← reads, List.mem_map]
    simp only [List.mem_filter, and_assoc]
  have ids : us.map (·.id) =
      (r.templates.filter fun row => q.category.all (row.key.category == ·)).map (·.id) := by
    refine List.map_injective_iff.2 (Option.some_injective _) ?_
    have mapped := congrArg (List.map (Option.map Template.id)) reads
    rw [List.map_map, List.map_map] at mapped
    rw [List.map_map, List.map_map]
    refine mapped.symm.trans (List.map_congr_left fun row among => ?_)
    have read : row.read? ∈ us.map some := reads ▸ List.mem_map_of_mem among
    obtain ⟨t, -, same⟩ := List.mem_map.1 read
    rw [Function.comp_apply, ← same, Option.map_some,
      (h.of_read? (List.mem_of_mem_filter among) same.symm).1, Function.comp_apply]
  refine answered_of_found whole ?_ fun t => ?_
  · refine List.Nodup.sublist (List.filter_sublist.map _) ?_
    rw [ids]
    exact h.ids.sublist (List.filter_sublist.map _)
  · rw [List.mem_filter, read_iff, h.contains_iff, Query.accepts_iff]
    -- The column is the category that the query asks for.
    have wanted : ∀ row ∈ r.templates, row.read? = some t → q.Matches t →
        q.category.all (row.key.category == ·) = true := by
      intro row among read wanted
      obtain ⟨-, key⟩ := h.of_read? among read
      rw [Option.all_eq_true, ← key]
      exact fun c asked => beq_iff_eq.2 (wanted.category c asked)
    constructor
    · rintro ⟨⟨row, among, -, read⟩, wanted⟩
      exact ⟨⟨row, among, read⟩, wanted⟩
    · rintro ⟨⟨row, among, read⟩, matched⟩
      exact ⟨⟨row, among, wanted row among read matched, read⟩, matched⟩

theorem Filed.exists_answered_iff (h : Filed r) (q : Query) (now : Instant) :
    (∃ ts, Answered r q now ts) ↔
      ∀ row ∈ r.templates, q.category.all (row.key.category == ·) = true → row.Legible := by
  have legible : ∀ row ∈ r.templates, row.Legible ↔ ∃ t, row.read? = some t := by
    intro row among
    obtain ⟨t, face⟩ := h.written row among
    exact TemplateRow.legible_iff face
  constructor
  · rintro ⟨ts, answered⟩ row among wanted
    obtain ⟨us, reads, -⟩ := find_eq_ok_iff.1 (congrArg Prod.fst answered.found)
    have read : row.read? ∈ us.map some :=
      reads ▸ List.mem_map_of_mem (List.mem_filter.2 ⟨among, wanted⟩)
    obtain ⟨t, -, same⟩ := List.mem_map.1 read
    exact (legible row among).2 ⟨t, same.symm⟩
  · intro readable
    obtain ⟨us, reads⟩ : (r.templates.filter fun row =>
        q.category.all (row.key.category == ·)).map TemplateRow.read? ∈ Set.range (List.map some) := by
      rw [Set.range_list_map]
      intro read mapped
      obtain ⟨row, chosen, rfl⟩ := List.mem_map.1 mapped
      obtain ⟨among, wanted⟩ := List.mem_filter.1 chosen
      obtain ⟨t, same⟩ := (legible row among).1 (readable row among wanted)
      exact ⟨t, same.symm⟩
    exact ⟨_, h.answered (find_eq_ok_iff.2 ⟨us, reads.symm, rfl⟩)⟩

end Relational

/-! ### Every run -/

/-- After any calls a catalog in memory answers every query with the stored templates that match, each once and
in the order of listings, whatever the order in which it holds them and however they came there. So does one in
tables with every query that it answers, which are those for which it can read all rows of the category. -/
theorem queries_answered :
    (∀ (xs : List (Call × Instant)) (q : Query) (now : Instant),
      ∃ ts, Answered (run xs ({} : Memory)).2 q now ts ∧
        ∀ us : List Template, us.Perm (run xs ({} : Memory)).2.templates.values →
          listed (us.filter q.accepts) = ts) ∧
    (∀ xs ys : List (Call × Instant),
      (∀ t, Contains (run xs ({} : Memory)).2 t ↔ Contains (run ys ({} : Memory)).2 t) →
        ∀ (q : Query) (now : Instant), (perform (.find q) now (run xs ({} : Memory)).2).1 =
          (perform (.find q) now (run ys ({} : Memory)).2).1) ∧
    ∀ (xs : List (Call × Instant)) (q : Query) (now : Instant),
      (∀ ts, (perform (.find q) now (run xs ({} : Relational)).2).1 = .ok ts →
        Answered (run xs ({} : Relational)).2 q now ts) ∧
      ((∃ ts, Answered (run xs ({} : Relational)).2 q now ts) ↔
        ∀ row ∈ (run xs ({} : Relational)).2.templates, q.category.all (row.key.category == ·) = true →
          row.Legible) := by
  refine ⟨fun xs q now => ?_, fun xs ys same q now => ?_, fun xs q now => ⟨fun ts found => ?_, ?_⟩⟩
  · have keyed := Memory.keyed_run xs
    refine ⟨_, keyed.answered q now, fun us perm => ?_⟩
    have ids := (perm.map (·.id)).nodup_iff.2 keyed.nodup_ids
    exact listed_eq_of_perm (perm.filter _) (ids.sublist (List.filter_sublist.map _))
  · have first := (Memory.keyed_run xs).answered q now
    have second := (Memory.keyed_run ys).answered q now
    exact congrArg Except.ok (first.eq second same)
  · exact (Relational.filed_run xs).answered found
  · exact (Relational.filed_run xs).exists_answered_iff q now

/-- Two templates, of which the second one is listed first. -/
def arrivals : List (Call × Instant) :=
  [(.put (.blank (.fresh 0) "b"), default), (.put (.blank (.fresh 1) "a"), default)]

theorem listed_arrivals : listed [.blank (.fresh 0) "b", .blank (.fresh 1) "a"] =
    [.blank (.fresh 1) "a", .blank (.fresh 0) "b"] := by
  have swapped : listed [.blank (.fresh 0) "b", .blank (.fresh 1) "a"] =
      listed [.blank (.fresh 1) "a", .blank (.fresh 0) "b"] :=
    listed_eq_of_perm (List.Perm.swap _ _ []) (by decide)
  exact swapped.trans (List.mergeSort_of_pairwise (by decide +kernel))

theorem queries_answered_arrivals :
    (∃ ts, Answered (run arrivals ({} : Memory)).2 {} default ts ∧
        listed [.blank (.fresh 1) "a", .blank (.fresh 0) "b"] = ts) ∧
      (perform (.find {}) default (run arrivals ({} : Memory)).2).1 =
        (perform (.find {}) default (run arrivals.reverse ({} : Memory)).2).1 ∧
      Answered (run arrivals ({} : Relational)).2 {} default
        [.blank (.fresh 1) "a", .blank (.fresh 0) "b"] := by
  have values : (run arrivals ({} : Memory)).2.templates.values =
      [.blank (.fresh 0) "b", .blank (.fresh 1) "a"] := by decide +kernel
  have states : (run arrivals ({} : Memory)).2 = (run arrivals.reverse ({} : Memory)).2 := by decide +kernel
  have rows : ((run arrivals ({} : Relational)).2.templates.filter fun row =>
      ({} : Query).category.all (row.key.category == ·)).map TemplateRow.read? =
        [.blank (.fresh 0) "b", .blank (.fresh 1) "a"].map some := by decide +kernel
  have found : (perform (.find {}) default (run arrivals ({} : Relational)).2).1 =
      .ok [.blank (.fresh 1) "a", .blank (.fresh 0) "b"] := by
    exact Relational.find_eq_ok_iff.2 ⟨[.blank (.fresh 0) "b", .blank (.fresh 1) "a"], rows,
      listed_arrivals.symm⟩
  refine ⟨?_, queries_answered.2.1 arrivals arrivals.reverse (fun t => by rw [states]) {} default,
    (queries_answered.2.2 arrivals {} default).1 _ found⟩
  obtain ⟨ts, answered, shuffled⟩ := queries_answered.1 arrivals {} default
  exact ⟨ts, answered,
    shuffled [.blank (.fresh 1) "a", .blank (.fresh 0) "b"] (values ▸ List.Perm.swap _ _ [])⟩

end Catalog

end Stencil
