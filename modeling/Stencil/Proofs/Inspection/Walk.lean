import Mathlib.Data.List.Basic
import Mathlib.Data.List.Induction
import Mathlib.Order.Bounds.Basic
import Stencil.Inspection
import Stencil.Proofs.SortedMap
import Stencil.Proofs.Text.Cut

/-!
# What a walk gathers

A walk notes the nodes of a tree in preorder, so whatever each node adds to a quantity, the walk adds up over
the tree (`visit_hom`). How deep control statements nest is the one quantity that hangs on the way down to a
node as well. `gather_describes` says of every tree what the walk over it gathers.
-/

namespace Stencil.Script

/-! ### What one node shows -/

def Form.isFunction : Form → Bool
  | functionDefinition _ => true
  | _ => false

def Form.isHandler : Form → Bool
  | exceptClause | exceptGroupClause => true
  | _ => false

def Form.isImport : Form → Bool
  | importStatement | importFromStatement | futureImportStatement => true
  | _ => false

namespace Node

def title? (source : List Char) (p : Form → Bool) (n : Node) : Option String :=
  if p n.form then (n.part? .name).map fun name => String.ofList (name.text source) else none

def parametersOf (n : Node) : List Node :=
  if n.form.isFunction then ((n.part? .parameters).map parts).getD [] else []

/-- The modules that a node imports by their full names. -/
def imported (n : Node) : List Node :=
  match n.form with
  | .importStatement => n.parts.filterMap Walk.importedModule?
  | .importFromStatement => (n.part? .moduleName).toList.filter fun m => m.form == .dottedName
  | _ => []

def bases (source : List Char) (n : Node) : List String :=
  n.imported.map fun m => String.ofList (Walk.baseName (m.text source))

/-- The tags of a node, which may stand under a decorator. -/
def tagsUnder (decorated : Bool) (n : Node) : List String :=
  (if n.form.isComprehension then ["comprehension"] else []) ++
    match n.form with
    | .functionDefinition isAsync =>
      (if isAsync then ["function:async"] else []) ++
        if decorated then ["function:decorated"] else []
    | .classDefinition =>
      if (n.part? .superclasses).any fun s => !s.parts.isEmpty then ["class:inheritance"] else []
    | .tryStatement => ["error_handling:try_except"]
    | .withStatement => ["context_manager:with_statement"]
    | _ => []

/-- The tags that a node shows by itself; a decorator shows that of the function under it. -/
def tags (n : Node) : List String :=
  n.tagsUnder false ++
    if n.form == .decoratedDefinition && n.parts.any (fun p => p.form.isFunction) then ["function:decorated"] else []

theorem mem_tags_iff {n : Node} {t : String} : t ∈ n.tags ↔ t ∈ n.tagsUnder false ∨
    n.form = .decoratedDefinition ∧ (∃ p ∈ n.parts, p.form.isFunction = true) ∧ t = "function:decorated" := by
  unfold tags
  rw [List.mem_append]
  split <;> simp_all

theorem mem_tagsUnder_iff {decorated : Bool} {n : Node} {t : String} :
    t ∈ n.tagsUnder decorated ↔ t ∈ n.tagsUnder false ∨
      decorated = true ∧ n.form.isFunction = true ∧ t = "function:decorated" := by
  cases decorated with
  | false => simp
  | true =>
    unfold tagsUnder
    cases form : n.form
    all_goals simp [Form.isFunction, or_assoc]

end Node

namespace Walk

variable {source : List Char} {decorated : Bool} {depth : Nat} {n : Node} {w : Walk}

/-- A list with one more base name, unless it is empty or there already. -/
def addBase (names : List String) (base : String) : List String :=
  if base.isEmpty || names.contains base then names else names ++ [base]

def withBases (names : List String) (w : Walk) : Walk := { w with profile.dependencies := names }

theorem depend_eq (dotted : List Char) (w : Walk) :
    w.depend dotted =
      w.withBases (addBase w.profile.dependencies (String.ofList (baseName dotted))) := by
  unfold depend addBase
  dsimp only
  split <;> rfl

theorem dependOn_eq (source : List Char) (modules : List Node) (w : Walk) :
    w.dependOn source modules =
      w.withBases ((modules.map fun m => String.ofList (baseName (m.text source))).foldl addBase
        w.profile.dependencies) := by
  unfold dependOn
  induction modules generalizing w with
  | nil => rfl
  | cons m modules ih =>
    rw [List.foldl_cons, ih, depend_eq]
    rfl

theorem noteFunction_eq (source : List Char) (isAsync decorated : Bool) (n : Node) (w : Walk) :
    w.noteFunction source isAsync decorated n =
      { profile := { w.profile with
          tags := w.profile.tags ++ ((if isAsync then ["function:async"] else []) ++
            if decorated then ["function:decorated"] else [])
          functions := w.profile.functions ++
            ((n.part? .name).map fun name => String.ofList (name.text source)).toList }
        untyped := w.untyped + (((n.part? .parameters).map Node.parts).getD []).countP (isUntyped source) } := by
  obtain ⟨⟨tags, dependencies, functions, classes, facts, signals⟩, untyped⟩ := w
  unfold noteFunction
  cases n.part? .name <;> cases n.part? .parameters <;> cases isAsync <;> cases decorated <;> simp [tag]

theorem noteClass_eq (source : List Char) (n : Node) (w : Walk) :
    w.noteClass source n =
      { w with profile := { w.profile with
          tags := w.profile.tags ++
            if (n.part? .superclasses).any fun s => !s.parts.isEmpty then ["class:inheritance"] else []
          classes := w.profile.classes ++
            ((n.part? .name).map fun name => String.ofList (name.text source)).toList } } := by
  obtain ⟨⟨tags, dependencies, functions, classes, facts, signals⟩, untyped⟩ := w
  unfold noteClass
  cases n.part? .name <;> cases (n.part? .superclasses).any fun s => !s.parts.isEmpty <;> simp [tag]

/-- All that is noted of one node. -/
theorem note_eq : w.note source decorated depth n =
    { profile := { w.profile with
        tags := w.profile.tags ++ n.tagsUnder decorated
        dependencies := (n.bases source).foldl addBase w.profile.dependencies
        functions := w.profile.functions ++ (n.title? source Form.isFunction).toList
        classes := w.profile.classes ++ (n.title? source (· == .classDefinition)).toList
        facts := { w.profile.facts with
          nesting := if n.form.isControl then max w.profile.facts.nesting (depth + 1)
            else w.profile.facts.nesting
          handlers := w.profile.facts.handlers + if n.form.isHandler then 1 else 0
          imports := w.profile.facts.imports + if n.form.isImport then 1 else 0
          handlesErrors := w.profile.facts.handlesErrors || n.form = .tryStatement } }
      untyped := w.untyped + n.parametersOf.countP (isUntyped source) } := by
  obtain ⟨⟨tags, dependencies, functions, classes, facts, signals⟩, untyped⟩ := w
  unfold note
  cases form : n.form
  all_goals simp [noteFunction_eq, noteClass_eq, tag, dependOn_eq, withBases, noteImport, form,
    Form.isControl, Form.isComprehension, Form.isHandler, Form.isImport, Form.isFunction, Node.tagsUnder,
    Node.bases, Node.imported, Node.title?, Node.parametersOf]

/-! ### Quantities that nodes add to -/

mutual

/-- A quantity that changes at each node by what the node is changes over a tree by what its nodes are in
preorder. -/
theorem visit_hom {β : Type} (f : Walk → β) (step : β → Node → β)
    (at_note : ∀ decorated depth n w, f (note source decorated depth n w) = step (f w) n) :
    ∀ (decorated : Bool) (depth : Nat) (n : Node) (w : Walk),
      f (visit source decorated depth n w) = n.preorder.foldl step (f w)
  | decorated, depth, .mk form role start stop parts, w => by
    rw [visit, visitAll_hom f step at_note, at_note, Node.preorder, List.foldl_cons]

theorem visitAll_hom {β : Type} (f : Walk → β) (step : β → Node → β)
    (at_note : ∀ decorated depth n w, f (note source decorated depth n w) = step (f w) n) :
    ∀ (decorated : Bool) (depth : Nat) (ns : List Node) (w : Walk),
      f (visitAll source decorated depth ns w) = (Node.preorderAll ns).foldl step (f w)
  | _, _, [], _ => rfl
  | decorated, depth, n :: ns, w => by
    rw [visitAll, visitAll_hom f step at_note, visit_hom f step at_note, Node.preorderAll, List.foldl_append]

end

/-- A list that each node adds a share to. -/
theorem gather_append {β : Type} (f : Walk → List β) {share : Node → List β} (empty : f {} = [])
    (at_note : ∀ decorated depth n w, f (note source decorated depth n w) = f w ++ share n)
    (tree : Node) : f (gather source tree) = tree.preorder.flatMap share := by
  rw [gather, visit_hom f (fun xs n => xs ++ share n) at_note, empty,
    List.foldl_append_eq_append, List.nil_append, List.flatMap_def]

theorem gather_countP (f : Walk → Nat) {share : Node → List Node} {p : Node → Bool} (empty : f {} = 0)
    (at_note : ∀ decorated depth n w, f (note source decorated depth n w) = f w + (share n).countP p)
    (tree : Node) : f (gather source tree) = (tree.preorder.flatMap share).countP p := by
  rw [gather, visit_hom f (fun k n => k + (share n).countP p) at_note, empty]
  suffices ∀ (ns : List Node) (k : Nat),
      ns.foldl (fun k n => k + (share n).countP p) k = k + (ns.flatMap share).countP p by
    simpa using this tree.preorder 0
  intro ns
  induction ns with
  | nil => simp
  | cons n ns ih =>
    intro k
    rw [List.foldl_cons, ih, List.flatMap_cons, List.countP_append, Nat.add_assoc]

theorem gather_count (f : Walk → Nat) {p : Node → Bool} (empty : f {} = 0)
    (at_note : ∀ decorated depth n w, f (note source decorated depth n w) = f w + if p n then 1 else 0)
    (tree : Node) : f (gather source tree) = tree.preorder.countP p := by
  have shares : f (gather source tree) = (tree.preorder.flatMap fun n => [n]).countP p :=
    gather_countP f empty (fun decorated depth n w => by rw [at_note, List.countP_singleton]) tree
  rwa [List.flatMap_singleton'] at shares

end Walk

/-! ### How deep control statements nest -/

namespace Node

/-- The nodes on a way down from a node, itself first. -/
inductive Way : Node → List Node → Prop
  | stay (n : Node) : Way n [n]
  | down {n part : Node} {below : List Node} (among : part ∈ n.parts) (way : Way part below) :
      Way n (n :: below)

def controls (ns : List Node) : Nat := ns.countP fun n => n.form.isControl

mutual

def nesting : Node → Nat
  | mk form _ _ _ parts => (if form.isControl then 1 else 0) + nestingAmong parts

def nestingAmong : List Node → Nat
  | [] => 0
  | n :: ns => max n.nesting (nestingAmong ns)

end

theorem nesting_eq (n : Node) :
    n.nesting = (if n.form.isControl then 1 else 0) + nestingAmong n.parts := by
  cases n
  rfl

theorem controls_cons (n : Node) (below : List Node) :
    controls (n :: below) = (if n.form.isControl then 1 else 0) + controls below := by
  rw [controls, List.countP_cons, Nat.add_comm]
  rfl

theorem nesting_le_nestingAmong {n : Node} {ns : List Node} (among : n ∈ ns) :
    n.nesting ≤ nestingAmong ns := by
  induction ns with
  | nil => cases among
  | cons m ns ih =>
    rw [nestingAmong]
    rcases List.mem_cons.1 among with rfl | later
    · omega
    · have := ih later
      omega

theorem Way.controls_le {n : Node} {ns : List Node} (way : Way n ns) : controls ns ≤ n.nesting := by
  induction way with
  | stay n =>
    rw [controls_cons, nesting_eq]
    exact Nat.add_le_add_left (Nat.zero_le _) _
  | @down n part below among way ih =>
    have deepest := nesting_le_nestingAmong among
    rw [controls_cons, nesting_eq]
    omega

mutual

theorem exists_way : ∀ n : Node, ∃ ns, Way n ns ∧ controls ns = n.nesting
  | mk form role start stop parts => by
    rcases exists_wayAmong parts with none | ⟨part, below, among, way, deepest⟩
    · refine ⟨_, .stay _, ?_⟩
      rw [controls_cons, nesting_eq]
      simp [Node.parts, none, controls]
    · refine ⟨_, .down among way, ?_⟩
      rw [controls_cons, nesting_eq, deepest]
      rfl

theorem exists_wayAmong : ∀ ns : List Node, nestingAmong ns = 0 ∨
    ∃ n below, n ∈ ns ∧ Way n below ∧ controls below = nestingAmong ns
  | [] => .inl rfl
  | n :: ns => by
    obtain ⟨way, down, here⟩ := exists_way n
    rcases exists_wayAmong ns with none | ⟨m, below, among, later, deepest⟩
    · refine .inr ⟨n, way, List.mem_cons_self, down, ?_⟩
      rw [here, nestingAmong, none]
      omega
    · by_cases deeper : nestingAmong ns ≤ n.nesting
      · refine .inr ⟨n, way, List.mem_cons_self, down, ?_⟩
        rw [here, nestingAmong]
        omega
      · refine .inr ⟨m, below, List.mem_cons_of_mem n among, later, ?_⟩
        rw [deepest, nestingAmong]
        omega

end

theorem isGreatest_nesting (n : Node) :
    IsGreatest {k | ∃ ns, Way n ns ∧ controls ns = k} n.nesting := by
  refine ⟨exists_way n, ?_⟩
  rintro k ⟨ns, way, rfl⟩
  exact way.controls_le

end Node

namespace Walk

theorem note_nesting (source : List Char) (decorated : Bool) (depth : Nat) (n : Node) (w : Walk) :
    (note source decorated depth n w).profile.facts.nesting =
      if n.form.isControl then max w.profile.facts.nesting (depth + 1) else w.profile.facts.nesting := by
  rw [note_eq]

mutual

/-- Below `depth` control statements, which are counted already, a walk counts on from there. -/
theorem visit_nesting (source : List Char) :
    ∀ (decorated : Bool) (depth : Nat) (n : Node) (w : Walk), depth ≤ w.profile.facts.nesting →
      (visit source decorated depth n w).profile.facts.nesting =
        max w.profile.facts.nesting (depth + n.nesting)
  | decorated, depth, .mk form role start stop parts, w, counted => by
    have noted : (note source decorated depth (.mk form role start stop parts) w).profile.facts.nesting =
        if form.isControl then max w.profile.facts.nesting (depth + 1) else w.profile.facts.nesting :=
      note_nesting ..
    rw [visit, Node.nesting]
    split at noted
    · next control =>
      rw [if_pos control, if_pos control, visitAll_nesting source _ _ _ _ (by omega)]
      omega
    · next plain =>
      rw [if_neg plain, if_neg plain, visitAll_nesting source _ _ _ _ (by omega)]
      omega

theorem visitAll_nesting (source : List Char) :
    ∀ (decorated : Bool) (depth : Nat) (ns : List Node) (w : Walk), depth ≤ w.profile.facts.nesting →
      (visitAll source decorated depth ns w).profile.facts.nesting =
        max w.profile.facts.nesting (depth + Node.nestingAmong ns)
  | _, depth, [], w, counted => by
    rw [visitAll, Node.nestingAmong]
    omega
  | decorated, depth, n :: ns, w, counted => by
    have first := visit_nesting source decorated depth n w counted
    rw [visitAll, visitAll_nesting source _ _ _ _ (by omega), first, Node.nestingAmong]
    omega

end

/-! ### Tags -/

mutual

theorem mem_tags_visit {t : String} : ∀ (decorated : Bool) (depth : Nat) (n : Node) (w : Walk),
    t ∈ (visit source decorated depth n w).profile.tags ↔ t ∈ w.profile.tags ∨
      (decorated = true ∧ n.form.isFunction = true ∧ t = "function:decorated") ∨
        ∃ m ∈ n.preorder, t ∈ m.tags
  | decorated, depth, .mk form role start stop parts, w => by
    have noted : t ∈ (note source decorated depth (.mk form role start stop parts) w).profile.tags ↔
        t ∈ w.profile.tags ∨ t ∈ (Node.mk form role start stop parts).tagsUnder decorated := by
      rw [note_eq, List.mem_append]
    have shown : t ∈ (Node.mk form role start stop parts).tags ↔
        t ∈ (Node.mk form role start stop parts).tagsUnder false ∨
          form = .decoratedDefinition ∧ (∃ p ∈ parts, p.form.isFunction = true) ∧
            t = "function:decorated" :=
      Node.mem_tags_iff
    rw [visit, mem_tags_visitAll, noted, Node.mem_tagsUnder_iff, Node.preorder]
    rw [List.exists_mem_cons_iff, shown, beq_iff_eq]
    grind

theorem mem_tags_visitAll {t : String} :
    ∀ (decorated : Bool) (depth : Nat) (ns : List Node) (w : Walk),
      t ∈ (visitAll source decorated depth ns w).profile.tags ↔ t ∈ w.profile.tags ∨
        (decorated = true ∧ (∃ n ∈ ns, n.form.isFunction = true) ∧ t = "function:decorated") ∨
          ∃ m ∈ Node.preorderAll ns, t ∈ m.tags
  | _, _, [], _ => by simp [visitAll, Node.preorderAll]
  | decorated, depth, n :: ns, w => by
    rw [visitAll, mem_tags_visitAll, mem_tags_visit, Node.preorderAll]
    simp only [List.mem_cons, List.mem_append, or_and_right, exists_or, exists_eq_left]
    grind

end

end Walk

/-! ### Modules by first appearance -/

/-- The members of a list that are not empty, each once, in the order in which they come first. -/
structure FirstAppearances (names found : List String) : Prop where
  mem : ∀ name, name ∈ found ↔ name ∈ names ∧ name ≠ ""
  nodup : found.Nodup
  order : found.Pairwise fun a b => names.idxOf a < names.idxOf b

theorem firstAppearances_foldl (names : List String) :
    FirstAppearances names (names.foldl Walk.addBase []) := by
  induction names using List.reverseRecOn with
  | nil => exact ⟨by simp, List.nodup_nil, .nil⟩
  | append_singleton names name ih =>
    obtain ⟨mem, nodup, order⟩ := ih
    rw [List.foldl_append, List.foldl_cons, List.foldl_nil]
    generalize names.foldl Walk.addBase [] = found at mem nodup order ⊢
    -- Known names keep their first places when one more name comes.
    have known : found.Pairwise fun a b => (names ++ [name]).idxOf a < (names ++ [name]).idxOf b := by
      refine order.imp_of_mem fun {a b} left right before => ?_
      rw [List.idxOf_append_of_mem ((mem a).1 left).1, List.idxOf_append_of_mem ((mem b).1 right).1]
      exact before
    unfold Walk.addBase
    by_cases old : name = "" ∨ name ∈ found
    · rw [if_pos (by simpa using old)]
      refine ⟨fun other => ?_, nodup, known⟩
      rw [mem, List.mem_append, List.mem_singleton]
      grind
    · rw [not_or] at old
      rw [if_neg (by simpa using old)]
      have fresh : name ∉ names := fun among => old.2 ((mem name).2 ⟨among, old.1⟩)
      refine ⟨fun other => ?_, ?_, ?_⟩
      · rw [List.mem_append, List.mem_singleton, mem, List.mem_append, List.mem_singleton]
        grind
      · rw [List.nodup_append]
        grind
      · rw [List.pairwise_append]
        refine ⟨known, List.pairwise_singleton .., fun a left b right => ?_⟩
        obtain rfl := List.mem_singleton.1 right
        rw [List.idxOf_append_of_mem ((mem a).1 left).1, List.idxOf_append_of_notMem fresh]
        have place := List.idxOf_lt_length_of_mem ((mem a).1 left).1
        omega

/-! ### All that a walk gathers -/

/-- What a syntax tree says about its script. -/
structure Describes (source : List Char) (tree : Node) (w : Walk) : Prop where
  /-- The largest number of control statements on a way down from the root. -/
  nesting : IsGreatest {k | ∃ ns, tree.Way ns ∧ Node.controls ns = k} w.profile.facts.nesting
  handlers : w.profile.facts.handlers = tree.preorder.countP fun n => n.form.isHandler
  imports : w.profile.facts.imports = tree.preorder.countP fun n => n.form.isImport
  handlesErrors : w.profile.facts.handlesErrors = true ↔ ∃ n ∈ tree.preorder, n.form = .tryStatement
  functions : w.profile.functions = tree.preorder.filterMap (Node.title? source Form.isFunction)
  classes : w.profile.classes = tree.preorder.filterMap (Node.title? source (· == .classDefinition))
  dependencies : FirstAppearances (tree.preorder.flatMap (Node.bases source)) w.profile.dependencies
  dotless : ∀ name ∈ w.profile.dependencies, '.' ∉ name.toList
  untyped : w.untyped = (tree.preorder.flatMap Node.parametersOf).countP (Walk.isUntyped source)
  tags : ∀ t, t ∈ w.profile.tags ↔ ∃ n ∈ tree.preorder, t ∈ n.tags

namespace Walk

theorem not_mem_baseName (dotted : List Char) : '.' ∉ baseName dotted := by
  intro among
  have front := List.mem_takeWhile_imp (Text.mem_of_mem_trim among)
  simp at front

theorem gather_describes (source : List Char) (tree : Node) :
    Describes source tree (gather source tree) := by
  have dependencies : FirstAppearances (tree.preorder.flatMap (Node.bases source))
      (gather source tree).profile.dependencies := by
    have gathered := visit_hom (fun w => w.profile.dependencies)
      (fun found n => (n.bases source).foldl addBase found)
      (fun _ _ _ _ => by rw [note_eq]) false 0 tree {}
    rw [gather, gathered, ← List.foldl_flatMap]
    exact firstAppearances_foldl _
  refine ⟨?nesting, ?handlers, ?imports, ?handlesErrors, ?functions, ?classes, dependencies, ?dotless,
    ?untyped, ?tags⟩
  case nesting =>
    have counted := visit_nesting source false 0 tree {} (Nat.zero_le _)
    rw [gather, counted, Nat.zero_add]
    exact (Nat.zero_max _).symm ▸ tree.isGreatest_nesting
  case handlers =>
    exact gather_count (fun w => w.profile.facts.handlers) rfl (fun _ _ _ _ => by rw [note_eq]) tree
  case imports =>
    exact gather_count (fun w => w.profile.facts.imports) rfl (fun _ _ _ _ => by rw [note_eq]) tree
  case handlesErrors =>
    have gathered : (gather source tree).profile.facts.handlesErrors =
        tree.preorder.foldl (fun found n => found || n.form = .tryStatement) false :=
      visit_hom (fun w => w.profile.facts.handlesErrors) _ (fun _ _ _ _ => by rw [note_eq]) false 0 tree {}
    rw [gathered]
    suffices ∀ (ns : List Node) (found : Bool),
        ns.foldl (fun found n => found || n.form = .tryStatement) found = true ↔
          found = true ∨ ∃ n ∈ ns, n.form = .tryStatement by
      simpa using this tree.preorder false
    intro ns
    induction ns with
    | nil => simp
    | cons n ns ih => simp [ih, or_assoc]
  case functions =>
    rw [List.filterMap_eq_flatMap_toList]
    exact gather_append (fun w => w.profile.functions) rfl (fun _ _ _ _ => by rw [note_eq]) tree
  case classes =>
    rw [List.filterMap_eq_flatMap_toList]
    exact gather_append (fun w => w.profile.classes) rfl (fun _ _ _ _ => by rw [note_eq]) tree
  case dotless =>
    intro name among
    obtain ⟨n, -, based⟩ := List.mem_flatMap.1 ((dependencies.mem name).1 among).1
    obtain ⟨m, -, rfl⟩ := List.mem_map.1 based
    rw [String.toList_ofList]
    exact not_mem_baseName _
  case untyped =>
    exact gather_countP (fun w => w.untyped) rfl (fun _ _ _ _ => by rw [note_eq]) tree
  case tags =>
    intro t
    rw [gather, mem_tags_visit]
    simp

end Walk

end Stencil.Script

namespace Stencil.Inspection

open Script

theorem pairwise_allTags (p : Profile) (content : List Char) :
    (p.allTags content).Pairwise (· < ·) := by
  refine List.pairwise_map.2 (List.Pairwise.imp ?_ (SortedMap.ascending _))
  intro a b below
  exact compareOfLessAndEq_eq_lt.1 below

theorem mem_allTags_iff {p : Profile} {content : List Char} {t : String} :
    t ∈ p.allTags content ↔ t ∈ p.tags ∨ t ∈ Profile.domainTags (Text.lower content) := by
  rw [Profile.allTags, SortedSet.ofList, SortedMap.mem_keys_ofList, List.map_map]
  simp

/-- Whatever the tree, the walk over it gathers what the tree says, and the analysis has it from there; its tags
are in strictly ascending order. -/
theorem assess_describes (tree : Node) (w : Weights) (a : Artifact) :
    let source := a.content.toList
    let walk := Walk.gather source tree
    let x := assess w a (scriptProfile tree source)
    Describes source tree walk ∧
      x.facts.nesting = walk.profile.facts.nesting ∧
      x.facts.handlers = walk.profile.facts.handlers ∧
      x.facts.imports = walk.profile.facts.imports ∧
      x.facts.handlesErrors = walk.profile.facts.handlesErrors ∧
      x.functions = walk.profile.functions ∧ x.classes = walk.profile.classes ∧
      x.dependencies = walk.profile.dependencies ∧
      (∀ t, t ∈ x.tags ↔ t ∈ walk.profile.tags ∨ t ∈ Profile.domainTags (Text.lower source)) ∧
      x.tags.Pairwise (· < ·) := by
  intro source walk x
  refine ⟨Walk.gather_describes source tree, rfl, rfl, rfl, rfl, rfl, rfl, rfl, fun t => ?_, ?_⟩
  · exact mem_allTags_iff
  · exact pairwise_allTags _ _

end Stencil.Inspection
