import Stencil.Grammar.Structured

/-!
# Flattened values

A value of texts, integers, truth values, lists and tables can stand in every structured format. Its entries are its
leaves under their dotted paths, and its depth is the length of its longest path. The flatteners of all formats give
them, wherever they start and although the tables of TOML start one deep, and tags in YAML do not show. So documents
of one table have the same entries and the same depth (`Datum.documents_agree`). Only the sections can differ: a YAML
document under a tag has none.
-/

namespace Stencil

/-! ### Values of all formats -/

inductive Scalar where
  | text (s : String)
  | int (i : Int)
  | truth (b : Bool)
  deriving Repr, DecidableEq, Inhabited

def Scalar.write : Scalar → String
  | text s => s
  | int i => toString i
  | truth b => if b then "true" else "false"

/-- A value that can stand in every structured format. -/
inductive Datum where
  | scalar (s : Scalar)
  | list (items : List Datum)
  | table (members : List (String × Datum))
  deriving Repr, Inhabited

/-! ### Paths -/

/-- A leaf, or an empty table or list, with the keys on the way to it. -/
structure End where
  path : List String
  leaf? : Option String
  deriving Repr, DecidableEq, Inhabited

def End.below (key : String) (e : End) : End := ⟨key :: e.path, e.leaf?⟩

/-- The keys of a path with dots between them; empty keys at its front do not show. -/
def dotted (path : List String) : String := ".".intercalate (path.dropWhile String.isEmpty)

/-- The entry of an end below `front`, if it is a leaf. -/
def entryBelow? (front : String) (e : End) : Option Entry :=
  e.leaf?.map fun text => ⟨e.path.foldl joinKey front, text⟩

theorem foldl_joinKey {front : String} (some : front ≠ "") (path : List String) :
    path.foldl joinKey front = ".".intercalate (front :: path) := by
  induction path generalizing front with
  | nil => rfl
  | cons key path ih =>
    have joined : joinKey front key = front ++ "." ++ key := if_neg (by simpa using some)
    rw [List.foldl_cons, joined, ih (by simp)]
    rfl

theorem foldl_joinKey_empty (path : List String) : path.foldl joinKey "" = dotted path := by
  induction path with
  | nil => rfl
  | cons key path ih =>
    have joined : joinKey "" key = key := if_pos rfl
    rw [List.foldl_cons, joined, dotted, List.dropWhile_cons]
    split
    · next empty =>
      obtain rfl : key = "" := by simpa using empty
      exact ih
    · next some => exact foldl_joinKey (by simpa using some) path

/-- A number that is the length of a longest path. -/
structure IsDepth (depth : Nat) (ends : List End) : Prop where
  reached : ∃ e ∈ ends, e.path.length = depth
  bounds : ∀ e ∈ ends, e.path.length ≤ depth

theorem IsDepth.below {depth : Nat} {ends : List End} (h : IsDepth depth ends) (key : String) :
    IsDepth (1 + depth) (ends.map (End.below key)) where
  reached := by
    obtain ⟨e, among, length⟩ := h.reached
    refine ⟨e.below key, List.mem_map_of_mem among, ?_⟩
    rw [End.below, List.length_cons, length, Nat.add_comm]
  bounds e among := by
    obtain ⟨e, inside, rfl⟩ := List.mem_map.1 among
    have bound := h.bounds e inside
    rw [End.below, List.length_cons]
    omega

theorem IsDepth.append {m n : Nat} {a b : List End} (h : IsDepth m a) (h' : IsDepth n b) :
    IsDepth (max m n) (a ++ b) where
  reached := by
    rcases Nat.le_total n m with less | less
    · obtain ⟨e, among, length⟩ := h.reached
      exact ⟨e, List.mem_append_left b among, by omega⟩
    · obtain ⟨e, among, length⟩ := h'.reached
      exact ⟨e, List.mem_append_right a among, by omega⟩
  bounds e among := by
    rcases List.mem_append.1 among with first | second
    · have bound := h.bounds e first
      omega
    · have bound := h'.bounds e second
      omega

theorem isDepth_singleton (leaf? : Option String) : IsDepth 0 [⟨[], leaf?⟩] :=
  ⟨⟨_, List.mem_singleton_self _, rfl⟩, by simp⟩

namespace Datum

mutual

/-- The leaves and the empty tables and lists of a value, in order. -/
def ends : Datum → List End
  | scalar s => [⟨[], some s.write⟩]
  | table [] => [⟨[], none⟩]
  | table members => memberEnds members
  | list [] => [⟨[], none⟩]
  | list items => itemEnds 0 items

def memberEnds : List (String × Datum) → List End
  | [] => []
  | (k, p) :: rest => p.ends.map (End.below k) ++ memberEnds rest

/-- The ends of the items of a list, the first of which has number `n`. -/
def itemEnds (n : Nat) : List Datum → List End
  | [] => []
  | p :: rest => p.ends.map (End.below (toString n)) ++ itemEnds (n + 1) rest

end

def entries (front : String) (p : Datum) : List Entry := p.ends.filterMap (entryBelow? front)

mutual

/-- The number of tables and lists around the deepest leaf; empty ones at the bottom do not count. -/
def height : Datum → Nat
  | scalar _ => 0
  | table [] => 0
  | table members => 1 + memberHeight members
  | list [] => 0
  | list items => 1 + itemHeight items

/-- The greatest height of the members of a table. -/
def memberHeight : List (String × Datum) → Nat
  | [] => 0
  | (_, p) :: rest => max p.height (memberHeight rest)

def itemHeight : List Datum → Nat
  | [] => 0
  | p :: rest => max p.height (itemHeight rest)

end

mutual

theorem isDepth_height : (p : Datum) → IsDepth p.height p.ends
  | .scalar s => by
    rw [height, ends]
    exact isDepth_singleton (some s.write)
  | .table [] => by
    rw [height, ends]
    exact isDepth_singleton none
  | .table (m :: members) => by
    rw [height, ends]
    · exact isDepth_memberHeight (m :: members) (List.cons_ne_nil m members)
    all_goals simp
  | .list [] => by
    rw [height, ends]
    exact isDepth_singleton none
  | .list (t :: items) => by
    rw [height, ends]
    · exact isDepth_itemHeight 0 (t :: items) (List.cons_ne_nil t items)
    all_goals simp

theorem isDepth_memberHeight : (members : List (String × Datum)) → members ≠ [] →
    IsDepth (1 + memberHeight members) (memberEnds members)
  | [], nonempty => absurd rfl nonempty
  | [(k, t)], _ => by
    simpa [memberHeight, memberEnds] using (isDepth_height t).below k
  | (k, t) :: m :: rest, _ => by
    have both := ((isDepth_height t).below k).append (isDepth_memberHeight (m :: rest) (List.cons_ne_nil m rest))
    rw [Nat.add_max_add_left] at both
    rw [memberHeight, memberEnds]
    exact both

theorem isDepth_itemHeight : (n : Nat) → (items : List Datum) → items ≠ [] →
    IsDepth (1 + itemHeight items) (itemEnds n items)
  | _, [], nonempty => absurd rfl nonempty
  | n, [t], _ => by
    simpa [itemHeight, itemEnds] using (isDepth_height t).below (toString n)
  | n, t :: u :: rest, _ => by
    have both := ((isDepth_height t).below (toString n)).append
      (isDepth_itemHeight (n + 1) (u :: rest) (List.cons_ne_nil u rest))
    rw [Nat.add_max_add_left] at both
    rw [itemHeight, itemEnds]
    exact both

end

end Datum

/-! ### Formats -/

/-- How values are made in a format. -/
structure Builder (α : Type) where
  scalar : Scalar → α
  list : List α → α
  table : List (String × α) → α

namespace Builder

def json : Builder Json where
  scalar
    | .text s => .str s
    | .int i => .num (.int i)
    | .truth b => .bool b
  list := .arr
  table := .obj

def yaml : Builder Yaml.Value where
  scalar
    | .text s => .str s
    | .int i => .int i
    | .truth b => .bool b
  list := .seq
  table members := .map (members.map fun m => (.str m.1, m.2))

def toml : Builder Toml.Value where
  scalar
    | .text s => .str s
    | .int i => .int i
    | .truth b => .bool b
  list := .arr
  table := .table

end Builder

namespace Datum

variable {α : Type}

mutual

def build (f : Builder α) : Datum → α
  | scalar s => f.scalar s
  | list items => f.list (buildItems f items)
  | table members => f.table (buildMembers f members)

def buildItems (f : Builder α) : List Datum → List α
  | [] => []
  | p :: rest => p.build f :: buildItems f rest

def buildMembers (f : Builder α) : List (String × Datum) → List (String × α)
  | [] => []
  | (k, p) :: rest => (k, p.build f) :: buildMembers f rest

end

abbrev json (p : Datum) : Json := p.build .json

abbrev yaml (p : Datum) : Yaml.Value := p.build .yaml

abbrev toml (p : Datum) : Toml.Value := p.build .toml

def isTable : Datum → Bool
  | table _ => true
  | _ => false

end Datum

/-! ### Flatteners -/

/-- A way to add the entries of a value below a key and to tell its depth, for a value that stands so deep. -/
abbrev Flattener (α : Type) := (front : String) → (depth : Nat) → Array Entry → α → Flat

namespace Flattener

variable {α : Type}

def members (flatten : Flattener α) (front : String) (depth : Nat) (out : Array Entry) :
    List (String × α) → Flats
  | [] => .none out
  | (k, v) :: rest =>
    let first := flatten (joinKey front k) (depth + 1) out v
    (flatten.members front depth first.out rest).behind first.depth

def items (flatten : Flattener α) (front : String) (depth n : Nat) (out : Array Entry) : List α → Flats
  | [] => .none out
  | v :: rest =>
    let first := flatten (joinKey front (toString n)) (depth + 1) out v
    (flatten.items front depth (n + 1) first.out rest).behind first.depth

/-- A flattener that goes through the values of a format, one case for each way to make them. -/
structure Follows (flatten : Flattener α) (f : Builder α) : Prop where
  scalar : ∀ front depth out s, flatten front depth out (f.scalar s) = .leaf front s.write depth out
  list : ∀ front depth out vs, flatten front depth out (f.list vs) =
    (flatten.items front depth 0 out vs).within depth
  table : ∀ front depth out ms, flatten front depth out (f.table ms) =
    (flatten.members front depth out ms).within depth

end Flattener

namespace Datum

variable {α : Type} {flatten : Flattener α} {f : Builder α}

theorem entries_below (front key : String) (p : Datum) :
    (p.ends.map (End.below key)).filterMap (entryBelow? front) = p.entries (joinKey front key) := by
  rw [List.filterMap_map]
  rfl

/-- The flat form of several values of which the first one is flattened before the others. -/
theorem behind_mk (out : Array Entry) (first others : List Entry) (depth m n : Nat) :
    Flats.behind (depth + 1 + m) ⟨out ++ first.toArray ++ others.toArray, some (depth + (1 + n))⟩ =
      ⟨out ++ (first ++ others).toArray, some (depth + (1 + max m n))⟩ := by
  have deepest : max (depth + 1 + m) (depth + (1 + n)) = depth + (1 + max m n) := by omega
  simp [Flats.behind, deepest]

mutual

/-- Whatever flattens the values of a format adds their entries, and tells how deep the deepest of their ends stands. -/
theorem flatten_build (follows : flatten.Follows f) (front : String) (depth : Nat) (out : Array Entry) :
    (p : Datum) → flatten front depth out (p.build f) = ⟨out ++ (p.entries front).toArray, depth + p.height⟩
  | .scalar s => by
    rw [build, follows.scalar, height, entries, ends]
    simp [Flat.leaf, entryBelow?]
  | .table [] => by
    rw [build, follows.table, height, entries, ends]
    simp [buildMembers, Flattener.members, Flats.none, Flats.within, entryBelow?]
  | .table (m :: members) => by
    rw [build, follows.table, flatten_buildMembers follows front depth out (m :: members) (List.cons_ne_nil _ _),
      height, entries, ends]
    · rfl
    all_goals simp
  | .list [] => by
    rw [build, follows.list, height, entries, ends]
    simp [buildItems, Flattener.items, Flats.none, Flats.within, entryBelow?]
  | .list (p :: items) => by
    rw [build, follows.list, flatten_buildItems follows front depth 0 out (p :: items) (List.cons_ne_nil _ _),
      height, entries, ends]
    · rfl
    all_goals simp

theorem flatten_buildMembers (follows : flatten.Follows f) (front : String) (depth : Nat) (out : Array Entry) :
    (members : List (String × Datum)) → members ≠ [] →
      flatten.members front depth out (buildMembers f members) =
        ⟨out ++ ((memberEnds members).filterMap (entryBelow? front)).toArray,
          some (depth + (1 + memberHeight members))⟩
  | [], nonempty => absurd rfl nonempty
  | [(k, p)], _ => by
    have first := flatten_build follows (joinKey front k) (depth + 1) out p
    simp only [buildMembers, Flattener.members, first, memberEnds, List.append_nil, entries_below, memberHeight,
      Nat.max_zero, Nat.add_assoc]
    rfl
  | (k, p) :: m :: rest, _ => by
    have first := flatten_build follows (joinKey front k) (depth + 1) out p
    have others := flatten_buildMembers follows front depth (out ++ (p.entries (joinKey front k)).toArray) (m :: rest)
      (List.cons_ne_nil _ _)
    have ends : (memberEnds ((k, p) :: m :: rest)).filterMap (entryBelow? front) =
        p.entries (joinKey front k) ++ (memberEnds (m :: rest)).filterMap (entryBelow? front) := by
      rw [memberEnds, List.filterMap_append, entries_below]
    rw [buildMembers, Flattener.members, first]
    dsimp only
    rw [others, behind_mk, ends]
    rfl

theorem flatten_buildItems (follows : flatten.Follows f) (front : String) (depth n : Nat) (out : Array Entry) :
    (items : List Datum) → items ≠ [] →
      flatten.items front depth n out (buildItems f items) =
        ⟨out ++ ((itemEnds n items).filterMap (entryBelow? front)).toArray, some (depth + (1 + itemHeight items))⟩
  | [], nonempty => absurd rfl nonempty
  | [p], _ => by
    have first := flatten_build follows (joinKey front (toString n)) (depth + 1) out p
    simp only [buildItems, Flattener.items, first, itemEnds, List.append_nil, entries_below, itemHeight,
      Nat.max_zero, Nat.add_assoc]
    rfl
  | p :: q :: rest, _ => by
    have first := flatten_build follows (joinKey front (toString n)) (depth + 1) out p
    have others := flatten_buildItems follows front depth (n + 1)
      (out ++ (p.entries (joinKey front (toString n))).toArray) (q :: rest) (List.cons_ne_nil _ _)
    have ends : (itemEnds n (p :: q :: rest)).filterMap (entryBelow? front) =
        p.entries (joinKey front (toString n)) ++ (itemEnds (n + 1) (q :: rest)).filterMap (entryBelow? front) := by
      rw [itemEnds, List.filterMap_append, entries_below]
    rw [buildItems, Flattener.items, first]
    dsimp only
    rw [others, behind_mk, ends]
    rfl

end

end Datum

namespace Json

theorem flattenMembers_eq (front : String) (depth : Nat) (out : Array Entry) (ms : List (String × Json)) :
    flattenMembers front depth out ms = Flattener.members flatten front depth out ms := by
  induction ms generalizing out with
  | nil => rfl
  | cons m rest ih => exact congrArg (Flats.behind _) (ih _)

theorem flattenItems_eq (front : String) (depth n : Nat) (out : Array Entry) (vs : List Json) :
    flattenItems front depth n out vs = Flattener.items flatten front depth n out vs := by
  induction vs generalizing n out with
  | nil => rfl
  | cons v rest ih => exact congrArg (Flats.behind _) (ih _ _)

theorem follows_flatten : Flattener.Follows flatten .json where
  scalar front depth out s := by
    cases s with
    | text s => rfl
    | int i => exact congrArg (Flat.leaf front · depth out) String.ofList_toList
    | truth b => rfl
  list front depth out vs := congrArg (Flats.within depth) (flattenItems_eq front depth 0 out vs)
  table front depth out ms := congrArg (Flats.within depth) (flattenMembers_eq front depth out ms)

end Json

namespace Toml

theorem flattenMembers_eq (front : String) (depth : Nat) (out : Array Entry) (ms : List (String × Value)) :
    flattenMembers front depth out ms = Flattener.members Value.flatten front depth out ms := by
  induction ms generalizing out with
  | nil => rfl
  | cons m rest ih => exact congrArg (Flats.behind _) (ih _)

theorem flattenItems_eq (front : String) (depth n : Nat) (out : Array Entry) (vs : List Value) :
    flattenItems front depth n out vs = Flattener.items Value.flatten front depth n out vs := by
  induction vs generalizing n out with
  | nil => rfl
  | cons v rest ih => exact congrArg (Flats.behind _) (ih _ _)

theorem follows_flatten : Flattener.Follows Value.flatten .toml where
  scalar front depth out s := by cases s <;> rfl
  list front depth out vs := congrArg (Flats.within depth) (flattenItems_eq front depth 0 out vs)
  table front depth out ms := congrArg (Flats.within depth) (flattenMembers_eq front depth out ms)

/-- The loop over the root table does what the flattener does for a table at the top. -/
theorem flattenRoot_eq (out : Array Entry) (ms : List (String × Value)) :
    flattenRoot out ms = flattenMembers "" 0 out ms := by
  induction ms generalizing out with
  | nil => rfl
  | cons m rest ih => exact congrArg (Flats.behind _) (ih _)

end Toml

namespace Yaml

def Value.isTagged : Value → Bool
  | .tagged _ _ => true
  | _ => false

mutual

/-- A value without the tags around it and around its parts; keys stay as they are. -/
def Value.untagged : Value → Value
  | .seq items => .seq (untaggedItems items)
  | .map members => .map (untaggedMembers members)
  | .tagged _ v => v.untagged
  | v => v

def untaggedItems : List Value → List Value
  | [] => []
  | v :: rest => v.untagged :: untaggedItems rest

def untaggedMembers : List (Value × Value) → List (Value × Value)
  | [] => []
  | (k, v) :: rest => (k, v.untagged) :: untaggedMembers rest

end

mutual

theorem flatten_untagged (front : String) (depth : Nat) (out : Array Entry) :
    (v : Value) → v.untagged.flatten front depth out = v.flatten front depth out
  | .null | .bool _ | .int _ | .float _ | .str _ => rfl
  | .seq items => by rw [Value.untagged, Value.flatten, Value.flatten, flattenItems_untagged front depth 0 out items]
  | .map members => by
    rw [Value.untagged, Value.flatten, Value.flatten, flattenMembers_untagged front depth out members]
  | .tagged _ v => by rw [Value.untagged, Value.flatten, flatten_untagged front depth out v]

theorem flattenItems_untagged (front : String) (depth n : Nat) (out : Array Entry) :
    (items : List Value) →
      flattenItems front depth n out (untaggedItems items) = flattenItems front depth n out items
  | [] => rfl
  | v :: rest => by
    rw [untaggedItems, flattenItems, flattenItems, flatten_untagged _ _ out v]
    exact congrArg (Flats.behind _) (flattenItems_untagged front depth (n + 1) _ rest)

theorem flattenMembers_untagged (front : String) (depth : Nat) (out : Array Entry) :
    (members : List (Value × Value)) →
      flattenMembers front depth out (untaggedMembers members) = flattenMembers front depth out members
  | [] => rfl
  | (k, v) :: rest => by
    rw [untaggedMembers, flattenMembers, flattenMembers, flatten_untagged _ _ out v]
    exact congrArg (Flats.behind _) (flattenMembers_untagged front depth _ rest)

end

theorem flattenMembers_eq (front : String) (depth : Nat) (out : Array Entry) (ms : List (String × Value)) :
    flattenMembers front depth out (ms.map fun m => (.str m.1, m.2)) =
      Flattener.members Value.flatten front depth out ms := by
  induction ms generalizing out with
  | nil => rfl
  | cons m rest ih => exact congrArg (Flats.behind _) (ih _)

theorem flattenItems_eq (front : String) (depth n : Nat) (out : Array Entry) (vs : List Value) :
    flattenItems front depth n out vs = Flattener.items Value.flatten front depth n out vs := by
  induction vs generalizing n out with
  | nil => rfl
  | cons v rest ih => exact congrArg (Flats.behind _) (ih _ _)

theorem follows_flatten : Flattener.Follows Value.flatten .yaml where
  scalar front depth out s := by
    cases s with
    | text s => rfl
    | int i => rfl
    | truth b => exact congrArg (Flat.leaf front · depth out) String.ofList_toList
  list front depth out vs := congrArg (Flats.within depth) (flattenItems_eq front depth 0 out vs)
  table front depth out ms := congrArg (Flats.within depth) (flattenMembers_eq front depth out ms)

theorem isMapping_untagged : (v : Value) → v.untagged.isMapping = v.isMapping
  | .null | .bool _ | .int _ | .float _ | .str _ => rfl
  | .seq items => by rw [Value.untagged]; rfl
  | .map members => by rw [Value.untagged]; rfl
  | .tagged _ v => by rw [Value.untagged, isMapping_untagged v]; rfl

theorem countP_untaggedMembers (members : List (Value × Value)) :
    ((untaggedMembers members).countP fun m => m.2.isMapping) = members.countP fun m => m.2.isMapping := by
  induction members with
  | nil => rfl
  | cons m rest ih =>
    obtain ⟨k, v⟩ := m
    rw [untaggedMembers, List.countP_cons, List.countP_cons, ih, isMapping_untagged]

theorem sections_untagged (v : Value) : v.sections = if v.isTagged then 0 else v.untagged.sections := by
  cases v with
  | map members =>
    rw [Value.untagged]
    exact (countP_untaggedMembers members).symm
  | seq items =>
    rw [Value.untagged]
    rfl
  | _ => rfl

end Yaml

namespace Datum

theorem countP_buildMembers {α : Type} {f : Builder α} {marked : α → Bool}
    (tables : ∀ p : Datum, marked (p.build f) = p.isTable) (members : List (String × Datum)) :
    ((buildMembers f members).countP fun m => marked m.2) = members.countP fun m => m.2.isTable := by
  induction members with
  | nil => rfl
  | cons m rest ih =>
    obtain ⟨k, p⟩ := m
    rw [buildMembers, List.countP_cons, List.countP_cons, ih, tables]

theorem sections_json (members : List (String × Datum)) :
    (table members).json.sections = members.countP fun m => m.2.isTable :=
  countP_buildMembers (fun p => by rcases p with (_ | _ | _) | _ | _ <;> rfl) members

theorem sections_yaml (members : List (String × Datum)) :
    (table members).yaml.sections = members.countP fun m => m.2.isTable := by
  have tables : ∀ p : Datum, p.yaml.isMapping = p.isTable := by
    rintro ((_ | _ | _) | _ | _) <;> rfl
  show ((buildMembers .yaml members).map fun m => (Yaml.Value.str m.1, m.2)).countP _ = _
  rw [List.countP_map]
  exact countP_buildMembers tables members

theorem sections_toml (members : List (String × Datum)) :
    ((buildMembers .toml members).countP fun m => m.2.isTable) = members.countP fun m => m.2.isTable :=
  countP_buildMembers (fun p => by rcases p with (_ | _ | _) | _ | _ <;> rfl) members

theorem entries_eq_dotted (p : Datum) :
    p.entries "" = p.ends.filterMap fun e => e.leaf?.map fun text => ⟨dotted e.path, text⟩ := by
  have entry : entryBelow? "" = fun e => e.leaf?.map fun text => ⟨dotted e.path, text⟩ := by
    funext e
    rw [entryBelow?, foldl_joinKey_empty]
  rw [entries, entry]

/-- The flatteners of all formats do the same to a value, wherever they start, tags or not. -/
theorem flatten_agree (p : Datum) {y : Yaml.Value} (same : y.untagged = p.yaml) (front : String) (depth : Nat)
    (out : Array Entry) :
    p.json.flatten front depth out = ⟨out ++ (p.entries front).toArray, depth + p.height⟩ ∧
      y.flatten front depth out = ⟨out ++ (p.entries front).toArray, depth + p.height⟩ ∧
      p.toml.flatten front depth out = ⟨out ++ (p.entries front).toArray, depth + p.height⟩ := by
  refine ⟨flatten_build Json.follows_flatten front depth out p, ?_,
    flatten_build Toml.follows_flatten front depth out p⟩
  rw [← Yaml.flatten_untagged, same]
  exact flatten_build Yaml.follows_flatten front depth out p

/-- The flatteners of JSON and YAML and the loop over the root table of TOML give the same entries for a table, tags
or not: its leaves under their dotted paths, in order. The depth that they give is the length of its longest path.
Its documents have them, and one section for each table in it; but a YAML document under a tag has sections only
where there are none to count. -/
theorem documents_agree (members : List (String × Datum)) (y : Yaml.Value)
    (same : y.untagged = (table members).yaml) :
    let p := table members
    let root := buildMembers .toml members
    let entries := p.ends.filterMap fun e => e.leaf?.map fun text => (⟨dotted e.path, text⟩ : Entry)
    let sections := members.countP fun m => m.2.isTable
    p.toml = .table root ∧ ∃ depth, IsDepth depth p.ends ∧
      p.json.flatten "" 0 #[] = ⟨entries.toArray, depth⟩ ∧
      y.flatten "" 0 #[] = ⟨entries.toArray, depth⟩ ∧
      (Toml.flattenRoot #[] root).within 0 = ⟨entries.toArray, depth⟩ ∧
      p.json.sections = sections ∧ (root.countP fun m => m.2.isTable) = sections ∧
      (y.sections = sections ↔ y.isTagged = false ∨ sections = 0) ∧
      (∀ cs, Json.parse cs = .ok p.json → Json.document cs = .ok { entries, sections, depth }) ∧
      ∀ [Libraries] (cs : List Char),
        (Libraries.toml cs = .ok root →
          Toml.document cs = .ok (Document.withComments { entries, sections, depth } cs)) ∧
        (Libraries.yaml cs = [.ok y] →
          Yaml.document cs = .ok (Document.withComments { entries, sections := y.sections, depth } cs)) := by
  intro p root entries sections
  obtain ⟨json, yaml, toml⟩ := p.flatten_agree same "" 0 #[]
  rw [Array.empty_append, Nat.zero_add, entries_eq_dotted] at json yaml toml
  have loop : (Toml.flattenRoot #[] root).within 0 = ⟨entries.toArray, p.height⟩ := by
    rw [Toml.flattenRoot_eq]
    exact toml
  have count : p.json.sections = sections := sections_json members
  have count' : (root.countP fun m => m.2.isTable) = sections := sections_toml members
  refine ⟨rfl, p.height, p.isDepth_height, json, yaml, loop, count, count', ?_, ?_, fun cs => ⟨?_, ?_⟩⟩
  · have count'' : (table members).yaml.sections = sections := sections_yaml members
    rw [Yaml.sections_untagged, same, count'']
    generalize sections = n
    cases y.isTagged with
    | false => simp
    | true => simpa using eq_comm
  · intro cs read
    rw [Json.document, read]
    simp only [Json.documentOf, json, count]
    rfl
  · intro read
    rw [Toml.document, read]
    simp only [loop, count']
  · intro read
    rw [Yaml.document, read]
    simp only [Yaml.documentOf, yaml, Nat.zero_add, Nat.zero_max]
    rfl

/-- A table below an empty key, and a list with an empty table. -/
def nested : List (String × Datum) :=
  [("", .table [("a", .scalar (.int (-1)))]), ("b", .list [.scalar (.truth true), .table [], .scalar (.text "x")])]

/-- The same values in YAML, with tags around parts. -/
def nestedTagged : Yaml.Value :=
  .map [(.str "", .tagged ['s'] (.map [(.str "a", .tagged ['t'] (.tagged ['u'] (.int (-1))))])),
    (.str "b", .seq [.bool true, .tagged ['t'] (.map []), .str "x"])]

theorem documents_agree_nested :
    nestedTagged.untagged = (table nested).yaml ∧
      (nestedTagged.flatten "" 0 #[]).out = #[⟨"a", "-1"⟩, ⟨"b.0", "true"⟩, ⟨"b.2", "x"⟩] ∧
      nestedTagged.sections = 1 := by
  have same : nestedTagged.untagged = (table nested).yaml := by rfl
  obtain ⟨-, depth, -, -, yaml, -, -, -, count, -⟩ := documents_agree nested nestedTagged same
  refine ⟨same, ?_, count.2 (.inl rfl)⟩
  rw [yaml]
  show (((table nested).ends.filterMap fun e =>
    e.leaf?.map fun text => (⟨dotted e.path, text⟩ : Entry)).toArray) = _
  decide +kernel

open Readers in
/-- Under a tag around the whole document its section is not counted, although its entry is there as in the other
formats. -/
theorem documents_tagged :
    let y : Yaml.Value := .tagged ['t'] (.map [(.str "a", .map [(.str "b", .int 1)])])
    let p := table [("a", .table [("b", .scalar (.int 1))])]
    y.untagged = p.yaml ∧ y.sections = 0 ∧ p.yaml.sections = 1 ∧ p.json.sections = 1 ∧
    (Yaml.document "!t\na:\n  b: 1\n".toList).toOption = some ⟨[⟨"a.b", "1"⟩], 0, 2, 0, false⟩ ∧
    (Json.document "\x7b\"a\":\x7b\"b\":1\x7d\x7d".toList).toOption = some ⟨[⟨"a.b", "1"⟩], 1, 2, 0, false⟩ ∧
    (Toml.document "[a]\nb = 1\n".toList).toOption = some ⟨[⟨"a.b", "1"⟩], 1, 2, 0, false⟩ := by
  refine ⟨rfl, rfl, rfl, rfl, ?_, ?_, ?_⟩
  · decide +kernel
  · decide +kernel
  · decide +kernel

end Datum

end Stencil
