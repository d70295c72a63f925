import Mathlib.Data.List.Nodup
import Stencil.Catalog.Query

/-!
# The order of listings

The order of listings tells templates with different identifiers apart, so a listing does not depend on the
order in which a catalog holds its templates (`listed_eq_of_perm`), nor on the times of their use. The order of
the history tells records apart in the same way (`pairwise_chronicle`).
-/

namespace Stencil

open Std

section Sorting

variable {α : Type} {cmp : α → α → Ordering} [TransCmp cmp]

theorem pairwise_mergeSort_isLE (as : List α) :
    (as.mergeSort fun a b => (cmp a b).isLE).Pairwise fun a b => (cmp a b).isLE = true := by
  refine List.pairwise_mergeSort (fun a b c => TransCmp.isLE_trans) (fun a b => ?_) as
  have swap : cmp b a = (cmp a b).swap := OrientedCmp.eq_swap
  rw [swap]
  cases cmp a b <;> rfl

theorem mergeSort_eq_of_perm {as bs : List α} (perm : as.Perm bs)
    (distinct : ∀ a ∈ as, ∀ b ∈ as, cmp a b = .eq → a = b) :
    as.mergeSort (fun a b => (cmp a b).isLE) = bs.mergeSort (fun a b => (cmp a b).isLE) := by
  refine List.Perm.eq_of_pairwise ?_ (pairwise_mergeSort_isLE as) (pairwise_mergeSort_isLE bs) ?_
  · intro a b first second ab ba
    have among := List.mem_mergeSort.1 first
    have among' := perm.mem_iff.2 (List.mem_mergeSort.1 second)
    refine distinct a among b among' ?_
    have swap : cmp b a = (cmp a b).swap := OrientedCmp.eq_swap
    rw [swap] at ba
    cases order : cmp a b
    · rw [order] at ba
      cases ba
    · rfl
    · rw [order] at ab
      cases ab
  · exact (List.mergeSort_perm ..).trans (perm.trans (List.mergeSort_perm ..).symm)

/-- Where ties share a key and no key stands twice, the order of a sorted list is strict. -/
theorem pairwise_mergeSort_lt {κ : Type} (key : α → κ) (ties : ∀ a b, cmp a b = .eq → key a = key b)
    {as : List α} (nodup : (as.map key).Nodup) :
    (as.mergeSort fun a b => (cmp a b).isLE).Pairwise fun a b => cmp a b = .lt := by
  have perm : (as.mergeSort fun a b => (cmp a b).isLE).Perm as := List.mergeSort_perm ..
  have distinct : (as.mergeSort fun a b => (cmp a b).isLE).Pairwise fun a b => key a ≠ key b :=
    List.pairwise_map.1 ((perm.map key).nodup_iff.2 nodup)
  refine ((pairwise_mergeSort_isLE as).and distinct).imp fun {a b} both => ?_
  cases order : cmp a b with
  | lt => rfl
  | eq => exact absurd (ties a b order) both.2
  | gt =>
    rw [order] at both
    cases both.1

/-- A list is cut in one way only when every element knows its side of the cut. -/
theorem append_inj_of_sides (side : α → Bool) {as bs cs ds : List α} (whole : as ++ bs = cs ++ ds)
    (front : ∀ a ∈ as, side a = true) (back : ∀ b ∈ bs, side b = false)
    (front' : ∀ c ∈ cs, side c = true) (back' : ∀ d ∈ ds, side d = false) : as = cs ∧ bs = ds := by
  have cut : ∀ {xs ys : List α}, (∀ x ∈ xs, side x = true) → (∀ y ∈ ys, side y = false) →
      (xs ++ ys).filter side = xs ∧ (xs ++ ys).filter (fun x => !side x) = ys := by
    intro xs ys before behind
    have kept : xs.filter side = xs := List.filter_eq_self.2 before
    have dropped : ys.filter side = [] :=
      List.filter_eq_nil_iff.2 fun y among => by simp [behind y among]
    have dropped' : xs.filter (fun x => !side x) = [] :=
      List.filter_eq_nil_iff.2 fun x among => by simp [before x among]
    have kept' : ys.filter (fun x => !side x) = ys :=
      List.filter_eq_self.2 fun y among => by simp [behind y among]
    rw [List.filter_append, List.filter_append, kept, dropped, dropped', kept']
    exact ⟨List.append_nil _, rfl⟩
  have here := cut front back
  rw [whole, (cut front' back').1, (cut front' back').2] at here
  exact ⟨here.1.symm, here.2.symm⟩

/-- To leave something out before sorting or afterwards is the same, also where the order has ties. -/
theorem filter_mergeSort (keep : α → Bool) (as : List α) :
    (as.mergeSort fun a b => (cmp a b).isLE).filter keep =
      (as.filter keep).mergeSort fun a b => (cmp a b).isLE := by
  have trans : ∀ a b c : α, (cmp a b).isLE = true → (cmp b c).isLE = true → (cmp a c).isLE = true :=
    fun a b c => TransCmp.isLE_trans
  have total : ∀ a b : α, ((cmp a b).isLE || (cmp b a).isLE) = true := fun a b => by
    have swap : cmp b a = (cmp a b).swap := OrientedCmp.eq_swap
    rw [swap]
    cases cmp a b <;> rfl
  induction as with
  | nil => rw [List.mergeSort_nil, List.filter_nil, List.mergeSort_nil]
  | cons a as ih =>
    obtain ⟨before, behind, whole, rest, above⟩ := List.mergeSort_cons trans total a as
    have sorted : ((a :: as).mergeSort fun a b => (cmp a b).isLE).Pairwise
        fun a b => (cmp a b).isLE = true := pairwise_mergeSort_isLE (a :: as)
    rw [whole] at sorted
    rw [rest, List.filter_append] at ih
    rw [whole, List.filter_append]
    by_cases kept : keep a = true
    · obtain ⟨before', behind', whole', rest', above'⟩ :=
        List.mergeSort_cons trans total a (as.filter keep)
      have sorted' : ((a :: as.filter keep).mergeSort fun a b => (cmp a b).isLE).Pairwise
          fun a b => (cmp a b).isLE = true := pairwise_mergeSort_isLE (a :: as.filter keep)
      rw [whole'] at sorted'
      rw [List.filter_cons_of_pos kept, List.filter_cons_of_pos kept, whole']
      -- In both lists the element stands right behind all that it is not below.
      obtain ⟨front, back⟩ := append_inj_of_sides (fun b => !(cmp a b).isLE) (ih.trans rest')
        (fun b among => above b (List.mem_of_mem_filter among))
        (fun b among => congrArg not <|
          (List.pairwise_cons.1 (List.pairwise_append.1 sorted).2.1).1 b
            (List.mem_of_mem_filter among))
        above'
        (fun b among => congrArg not <|
          (List.pairwise_cons.1 (List.pairwise_append.1 sorted').2.1).1 b among)
      rw [front, back]
    · rw [List.filter_cons_of_neg kept, List.filter_cons_of_neg kept, ih]

end Sorting

namespace Template

def byScore (a b : Template) : Ordering := compare (scoreRank b.effectiveness) (scoreRank a.effectiveness)

def byUsage (a b : Template) : Ordering := compare b.usage.toNat a.usage.toNat

instance : TransCmp byScore where
  eq_swap := OrientedOrd.eq_swap
  isLE_trans first second := TransOrd.isLE_trans second first

instance : TransCmp byUsage where
  eq_swap := OrientedOrd.eq_swap
  isLE_trans first second := TransOrd.isLE_trans second first

instance : TransCmp order :=
  inferInstanceAs <| TransCmp <| compareLex byScore <| compareLex byUsage <|
    compareLex (compareOn Template.name) (compareOn Template.id)

theorem id_eq_of_order {a b : Template} (h : a.order b = .eq) : a.id = b.id := by
  simp only [order, Ordering.then_eq_eq] at h
  exact LawfulEqOrd.eq_of_compare h.2.2.2

/-- A template without the times of its last change and its last use. -/
def untimed (t : Template) : Template :=
  { t with updatedAt := default, lastUsed := t.lastUsed.map fun _ => default }

theorem order_untimed (a b : Template) : a.untimed.order b.untimed = a.order b := rfl

end Template

namespace Record

instance : TransCmp order :=
  inferInstanceAs <| TransCmp <| compareLex
    (compareLex (compareOn fun r => r.time.seconds) (compareOn fun r => r.time.nanoseconds)) (compareOn Record.id)

theorem id_eq_of_order {a b : Record} (h : a.order b = .eq) : a.id = b.id := by
  simp only [order, Ordering.then_eq_eq] at h
  exact LawfulEqOrd.eq_of_compare h.2

end Record

namespace Catalog

theorem pairwise_chronicle {rs : List Record} (nodup : (rs.map (·.id)).Nodup) :
    (chronicle rs).Pairwise fun a b => a.order b = .lt :=
  pairwise_mergeSort_lt Record.id (fun _ _ => Record.id_eq_of_order) nodup

theorem pairwise_listed {ts : List Template} (nodup : (ts.map (·.id)).Nodup) :
    (listed ts).Pairwise fun a b => a.order b = .lt :=
  pairwise_mergeSort_lt Template.id (fun _ _ => Template.id_eq_of_order) nodup

theorem listed_eq_of_perm {ts us : List Template} (perm : ts.Perm us) (nodup : (ts.map (·.id)).Nodup) :
    listed ts = listed us := by
  refine mergeSort_eq_of_perm perm fun a among b among' same => ?_
  exact List.inj_on_of_nodup_map nodup among among' (Template.id_eq_of_order same)

theorem map_untimed_listed (ts : List Template) :
    (listed ts).map Template.untimed = listed (ts.map Template.untimed) :=
  List.map_mergeSort fun a _ b _ => by rw [Template.order_untimed]

theorem accepts_untimed (q : Query) (t : Template) : q.accepts t.untimed = q.accepts t := rfl

end Catalog

end Stencil
