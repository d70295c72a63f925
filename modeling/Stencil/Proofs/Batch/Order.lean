import Stencil.Proofs.Batch.Isolation
import Stencil.Proofs.Catalog.Listing
import Stencil.Proofs.Path

/-!
# The order of processing

The plans of a batch are those of the artifacts that it selects, each once, in order. Where all paths and all
contents are different the order has no ties and every artifact has the analysis of its own content, so the
plans do not depend on the order in which the artifacts were found (`plans_eq_of_perm`).
-/

namespace Stencil

open Std

/-! ### Places -/

/-- What decides where an artifact is processed. -/
structure Place where
  priority : Priority
  category : Category
  name : String
  path : Path

namespace Place

def order (x y : Place) : Ordering :=
  (compare x.priority.value.toNat y.priority.value.toNat).then <|
    (compare x.category.name y.category.name).then <|
      (compare x.name y.name).then (x.path.compare y.path)

def byPath (x y : Place) : Ordering := x.path.compare y.path

instance : TransCmp byPath where
  eq_swap {x y} := show x.path.compare y.path = (y.path.compare x.path).swap from OrientedCmp.eq_swap
  isLE_trans {x y z} first second :=
    show (x.path.compare z.path).isLE = true from TransCmp.isLE_trans (b := y.path) first second

instance : TransCmp order :=
  inferInstanceAs <| TransCmp <| compareLex (compareOn fun x : Place => x.priority.value.toNat) <|
    compareLex (compareOn fun x : Place => x.category.name) <| compareLex (compareOn Place.name) byPath

theorem components_eq_of_order {x y : Place} (same : x.order y = .eq) :
    x.path.components = y.path.components := by
  simp only [order, Ordering.then_eq_eq] at same
  exact Path.components_eq_of_compare same.2.2.2

end Place

def Item.place (i : Item) : Place := ⟨i.priority, i.category, i.name, i.path⟩

def Plan.place (p : Plan) : Place := ⟨p.artifact.priority, p.category, p.artifact.name, p.artifact.path⟩

namespace Plan

theorem order_eq (p q : Plan) : p.order q = p.place.order q.place := rfl

instance : TransCmp Plan.order where
  eq_swap {p q} := by
    rw [order_eq, order_eq]
    exact OrientedCmp.eq_swap
  isLE_trans {p q r} first second := by
    rw [order_eq] at first second ⊢
    exact TransCmp.isLE_trans first second

theorem pairwise_sorted (ps : List Plan) :
    ((sorted ps).map place).Pairwise fun x y => (x.order y).isLE = true := by
  have pairwise : (sorted ps).Pairwise fun p q => (p.order q).isLE = true := pairwise_mergeSort_isLE ps
  exact List.pairwise_map.2 pairwise

theorem leader_eq_self {as : List Artifact} {a : Artifact}
    (alone : ∀ l ∈ as, l.digest.text = a.digest.text → l = a) : leader as a = a := by
  unfold leader
  cases found : as.find? fun l => l.digest.text == a.digest.text with
  | none => rfl
  | some l => exact alone l (List.mem_of_find?_eq_some found) (by simpa using List.find?_some found)

end Plan

namespace Batch

/-- Two different contents with one digest. -/
def Collides (as : List Artifact) : Prop :=
  ∃ a ∈ as, ∃ l ∈ as, l.content ≠ a.content ∧ l.digest = a.digest

instance (as : List Artifact) : Decidable (Collides as) :=
  inferInstanceAs (Decidable (∃ a ∈ as, ∃ l ∈ as, l.content ≠ a.content ∧ l.digest = a.digest))

variable [Libraries]

/-- Whether a batch takes an artifact up, among others. -/
def selects (b : Batch) (as : List Artifact) (a : Artifact) : Bool :=
  b.lastPriority.all (a.priority.value ≤ ·) && b.category.all ((b.shared as a).category == ·)

/-- Where an artifact is processed, among others. -/
def place (b : Batch) (as : List Artifact) (a : Artifact) : Place :=
  ⟨a.priority, (b.shared as a).category, a.name, a.path⟩

theorem Analysed.plans_perm {b : Batch} {supply : Supply} {as : List Artifact} (h : b.Analysed supply as) :
    (b.plans supply as).Perm ((as.filter (b.selects as)).map (b.shared as)) := by
  rw [h.plans_eq]
  refine (List.mergeSort_perm _ _).trans (.of_eq ?_)
  rw [List.filter_map, admitted, List.filter_filter]
  congr 2
  funext a
  exact Bool.and_comm _ _

theorem Analysed.places_perm {b : Batch} {supply : Supply} {as : List Artifact} (h : b.Analysed supply as) :
    ((b.plans supply as).map Plan.place).Perm ((as.filter (b.selects as)).map (b.place as)) := by
  have perm := h.plans_perm.map Plan.place
  rw [List.map_map] at perm
  refine perm.trans (.of_eq (List.map_congr_left fun a _ => ?_))
  rw [Function.comp_apply, Plan.place, artifact_shared, place]

/-! ### Lists in another order -/

/-- Where all contents are different, every artifact has the analysis of its own. -/
theorem plans_eq_sorted_own (b : Batch) (supply : Supply) {as : List Artifact}
    (contents : (as.map (·.content)).Nodup) (faithful : ¬Collides as) :
    b.plans supply as = Plan.sorted (((b.admitted as).map (Plan.own (b.analyze supply))).filter b.wants) := by
  have here : ∀ l ∈ b.admitted as, l ∈ as := fun l held => (List.mem_filter.1 held).1
  have own : Plan.all (b.analyze supply) (b.admitted as) = (b.admitted as).map (Plan.own (b.analyze supply)) := by
    rw [Plan.all_eq]
    refine List.map_congr_left fun a among => ?_
    have leads : Plan.leader (b.admitted as) a = a := by
      refine Plan.leader_eq_self fun l held digest => ?_
      by_contra other
      have different : l.content ≠ a.content := fun same =>
        other (List.inj_on_of_nodup_map contents (here l held) (here a among) same)
      exact faithful ⟨a, here a among, l, here l held, different, congrArg Digest.mk digest⟩
    rw [Plan.shared, leads, Plan.own]
  rw [plans, own]
  rfl

/-- The plans of artifacts with different paths and contents do not depend on the order in which they were
found. -/
theorem plans_eq_of_perm (b : Batch) (supply : Supply) {as as' : List Artifact} (perm : as.Perm as')
    (paths : (as.map (·.path.components)).Nodup) (contents : (as.map (·.content)).Nodup)
    (faithful : ¬Collides as) : b.plans supply as = b.plans supply as' := by
  have contents' : (as'.map (·.content)).Nodup := (perm.map _).nodup_iff.1 contents
  have faithful' : ¬Collides as' := fun ⟨a, among, l, held, collide⟩ =>
    faithful ⟨a, perm.mem_iff.2 among, l, perm.mem_iff.2 held, collide⟩
  rw [b.plans_eq_sorted_own supply contents faithful, b.plans_eq_sorted_own supply contents' faithful']
  refine mergeSort_eq_of_perm (((perm.filter _).map _).filter b.wants) ?_
  intro p among q among' tied
  obtain ⟨a, held, rfl⟩ := List.mem_map.1 (List.mem_filter.1 among).1
  obtain ⟨a', held', rfl⟩ := List.mem_map.1 (List.mem_filter.1 among').1
  rw [Plan.order_eq] at tied
  have path : (Plan.own (b.analyze supply) a).artifact.path.components =
      (Plan.own (b.analyze supply) a').artifact.path.components := Place.components_eq_of_order tied
  rw [Plan.artifact_own, Plan.artifact_own] at path
  rw [List.inj_on_of_nodup_map paths (List.mem_filter.1 held).1 (List.mem_filter.1 held').1 path]

end Batch

end Stencil
