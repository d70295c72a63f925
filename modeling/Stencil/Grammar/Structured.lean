import Stencil.Grammar.Document
import Stencil.Json.Reader
import Stencil.Libraries

/-!
# Structured documents

A value of JSON, YAML or TOML is flattened: each of its scalars is an entry under the dotted path to
it, and its depth is the number of objects and arrays around the deepest one. Tags in YAML do not
show. The tables of a TOML document are one deep from the start, and a YAML stream is flattened
document by document.
-/

namespace Stencil

/-- A key below another; the empty key is the top. -/
def joinKey (front key : String) : String := if front.isEmpty then key else front ++ "." ++ key

/-- The entries so far with those of a value, and its depth. -/
structure Flat where
  out : Array Entry
  depth : Nat

def Flat.leaf (key value : String) (depth : Nat) (out : Array Entry) : Flat := ⟨out.push ⟨key, value⟩, depth⟩

/-- The entries so far with those of several values, and the greatest of their depths. -/
structure Flats where
  out : Array Entry
  deepest : Option Nat

namespace Flats

def none (out : Array Entry) : Flats := ⟨out, .none⟩

/-- Values behind one of the given depth. -/
def behind (depth : Nat) (rest : Flats) : Flats := ⟨rest.out, some (rest.deepest.elim depth (max depth))⟩

/-- The values in a container, which is as deep as it stands when there are none. -/
def within (depth : Nat) (f : Flats) : Flat := ⟨f.out, f.deepest.getD depth⟩

end Flats

/-! ### JSON -/

namespace Json

def isObject : Json → Bool
  | obj _ => true
  | _ => false

mutual

def flatten (front : String) (depth : Nat) (out : Array Entry) : Json → Flat
  | obj members => (flattenMembers front depth out members).within depth
  | arr items => (flattenItems front depth 0 out items).within depth
  | str s => .leaf front s depth out
  | null => .leaf front "" depth out
  | bool b => .leaf front (if b then "true" else "false") depth out
  | num n => .leaf front (String.ofList n.write) depth out

def flattenMembers (front : String) (depth : Nat) (out : Array Entry) : List (String × Json) → Flats
  | [] => .none out
  | (k, v) :: rest =>
    let first := flatten (joinKey front k) (depth + 1) out v
    (flattenMembers front depth first.out rest).behind first.depth

/-- The items of an array from number `n` on. -/
def flattenItems (front : String) (depth n : Nat) (out : Array Entry) : List Json → Flats
  | [] => .none out
  | v :: rest =>
    let first := flatten (joinKey front (toString n)) (depth + 1) out v
    (flattenItems front depth (n + 1) first.out rest).behind first.depth

end

def sections : Json → Nat
  | obj members => members.countP fun m => m.2.isObject
  | _ => 0

def documentOf (v : Json) : Document :=
  let flat := v.flatten "" 0 #[]
  { entries := flat.out.toList, sections := v.sections, depth := flat.depth }

def document (cs : List Char) : Except (List Issue) Document :=
  match parse cs with
  | .ok v => .ok v.documentOf
  | .error e => .error [.ofJson e]

end Json

/-! ### YAML -/

namespace Yaml

/-- Whether a value is a mapping, behind whatever tags. -/
def Value.isMapping : Value → Bool
  | map _ => true
  | tagged _ v => v.isMapping
  | _ => false

mutual

def Value.flatten (front : String) (depth : Nat) (out : Array Entry) : Value → Flat
  | .map members => (flattenMembers front depth out members).within depth
  | .seq items => (flattenItems front depth 0 out items).within depth
  | .tagged _ v => v.flatten front depth out
  | v => .leaf front v.text depth out

def flattenMembers (front : String) (depth : Nat) (out : Array Entry) : List (Value × Value) → Flats
  | [] => .none out
  | (k, v) :: rest =>
    let first := v.flatten (joinKey front k.text) (depth + 1) out
    (flattenMembers front depth first.out rest).behind first.depth

def flattenItems (front : String) (depth n : Nat) (out : Array Entry) : List Value → Flats
  | [] => .none out
  | v :: rest =>
    let first := v.flatten (joinKey front (toString n)) (depth + 1) out
    (flattenItems front depth (n + 1) first.out rest).behind first.depth

end

/-- The number of mappings in a mapping; under a tag there are none. -/
def Value.sections : Value → Nat
  | .map members => members.countP fun m => m.2.isMapping
  | _ => 0

def Report.issue (r : Report) : Issue :=
  let place := r.location.elim .start fun p => ⟨max p.line 1, max p.column 1⟩
  ⟨place, .reported r.message⟩

/-- The documents of a stream, each flattened behind those before it. -/
def documentOf (out : Array Entry) (sections depth : Nat) :
    List (Except Report Value) → Except (List Issue) Document
  | [] => .ok { entries := out.toList, sections, depth }
  | .error r :: _ => .error [r.issue]
  | .ok v :: rest =>
    let flat := v.flatten "" 0 out
    documentOf flat.out (sections + v.sections) (max depth flat.depth) rest

def document [Libraries] (cs : List Char) : Except (List Issue) Document :=
  (documentOf #[] 0 0 (Libraries.yaml cs)).map (·.withComments cs)

end Yaml

/-! ### TOML -/

namespace Toml

def Value.isTable : Value → Bool
  | table _ => true
  | _ => false

mutual

def Value.flatten (front : String) (depth : Nat) (out : Array Entry) : Value → Flat
  | .table members => (flattenMembers front depth out members).within depth
  | .arr items => (flattenItems front depth 0 out items).within depth
  | v => .leaf front v.text depth out

def flattenMembers (front : String) (depth : Nat) (out : Array Entry) : List (String × Value) → Flats
  | [] => .none out
  | (k, v) :: rest =>
    let first := v.flatten (joinKey front k) (depth + 1) out
    (flattenMembers front depth first.out rest).behind first.depth

def flattenItems (front : String) (depth n : Nat) (out : Array Entry) : List Value → Flats
  | [] => .none out
  | v :: rest =>
    let first := v.flatten (joinKey front (toString n)) (depth + 1) out
    (flattenItems front depth (n + 1) first.out rest).behind first.depth

end

/-- The members of the root table, whose keys begin the paths. -/
def flattenRoot (out : Array Entry) : List (String × Value) → Flats
  | [] => .none out
  | (k, v) :: rest =>
    let first := v.flatten k 1 out
    (flattenRoot first.out rest).behind first.depth

def Report.issue (cs : List Char) (r : Report) : Issue :=
  ⟨Text.positionAt cs (r.offset.getD 0), .reported r.message⟩

def document [Libraries] (cs : List Char) : Except (List Issue) Document :=
  match Libraries.toml cs with
  | .ok members =>
    let flat := (flattenRoot #[] members).within 0
    let sections := members.countP fun m => m.2.isTable
    .ok (Document.withComments { entries := flat.out.toList, sections, depth := flat.depth } cs)
  | .error r => .error [r.issue cs]

end Toml

end Stencil
