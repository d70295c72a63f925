import Stencil.FileTree
import Stencil.Setup.Layers
import Stencil.Text.Blank
import Stencil.Text.Lines
import Stencil.Toml.Reader
import Stencil.Yaml.Value
import Stencil.Json.Reader

/-!
# Files of settings

A file of settings is read by the ending of its name. Where a path leads to no file, the endings are
tried one after the other.
-/

namespace Stencil.Setup

/-! ### Values of other formats -/

mutual

def ofToml : Toml.Value → Json
  | .str s => .str s
  | .int i => .num (.int i)
  | .float x => .float x
  | .nan negative => .float (if negative then -(0.0 / 0.0) else 0.0 / 0.0)
  | .bool b => .bool b
  | .moment m => .str (String.ofList m.write)
  | .arr items => .arr (ofTomlItems items)
  | .table members => .obj (ofTomlMembers members)

def ofTomlItems : List Toml.Value → List Json
  | [] => []
  | x :: xs => ofToml x :: ofTomlItems xs

def ofTomlMembers : List (String × Toml.Value) → List (String × Json)
  | [] => []
  | (k, v) :: rest => (k, ofToml v) :: ofTomlMembers rest

end

/-- A value with integers of more than 64 bits with sign taken for doubles. -/
def narrowed : Json.Number → Json.Number
  | .int i => if Decimal.isSignedWord 64 i then .int i else .float (Float.ofInt i)
  | x => x

mutual

def ofJson : Json → Json
  | .num n => .num (narrowed n)
  | .arr items => .arr (ofJsonItems items)
  | .obj members => .obj (ofJsonMembers members)
  | v => v

def ofJsonItems : List Json → List Json
  | [] => []
  | x :: xs => ofJson x :: ofJsonItems xs

def ofJsonMembers : List (String × Json) → List (String × Json)
  | [] => []
  | (k, v) :: rest => (k, ofJson v) :: ofJsonMembers rest

end

mutual

/-- The value of a YAML value; keys are scalars. -/
def ofYaml? : Yaml.Value → Option Json
  | .null => some .null
  | .bool b => some (.bool b)
  | .int i => some (.num (narrowed (.int i)))
  | .float x => some (.float x)
  | .str s => some (.str s)
  | .seq items => (ofYamlItems? items).map .arr
  | .map members => (ofYamlMembers? members).map .obj
  | .tagged _ v => ofYaml? v

def ofYamlItems? : List Yaml.Value → Option (List Json)
  | [] => some []
  | x :: xs => do
    let first ← ofYaml? x
    let rest ← ofYamlItems? xs
    return first :: rest

def ofYamlMembers? : List (Yaml.Value × Yaml.Value) → Option (List (String × Json))
  | [] => some []
  | (k, v) :: rest => do
    let key ← match k with
      | .str s => some s
      | .int i => some (toString i)
      | .bool b => some (if b then "true" else "false")
      | _ => none
    let value ← ofYaml? v
    let others ← ofYamlMembers? rest
    return (key, value) :: others

end

/-! ### Files of lines -/

def unquoted (cs : List Char) : List Char :=
  match cs with
  | q :: rest =>
    if (q = '"' ∨ q = '\'') ∧ rest.contains q then rest.takeWhile (· != q) else cs
  | [] => []

/-- The settings of lines: `[name]` begins the settings under a name, and a key is set by `=` or `:`.
All values are texts. -/
def ofLines? (cs : List Char) : Option (List (String × Json)) :=
  let read (acc : List (String × Json) × List Char) (line : List Char) :
      Option (List (String × Json) × List Char) :=
    match Text.trim line with
    | [] | '#' :: _ | ';' :: _ => some acc
    | '[' :: rest =>
      if rest.contains ']' then some (acc.1, Text.trim (rest.takeWhile (· != ']'))) else none
    | line =>
      let key := Text.trim (line.takeWhile fun c => c != '=' && c != ':')
      match line.dropWhile fun c => c != '=' && c != ':' with
      | [] => none
      | _ :: value =>
        let entry := (String.ofList key, Json.str (String.ofList (unquoted (Text.trim value))))
        if acc.2.isEmpty then some (acc.1 ++ [entry], acc.2)
        else some (acc.1 ++ [(String.ofList acc.2, .obj [entry])], acc.2)
  ((Text.lines cs).foldlM read ([], [])).map (·.1)

/-! ### Formats -/

inductive FileFormat where
  | toml
  | json
  | yaml
  | ini
  /-- A format whose files cannot be read here. -/
  | foreign
  deriving Repr, DecidableEq, Inhabited

/-- The endings of names and their formats, in the order in which they are tried. -/
def endings : List (String × FileFormat) :=
  [("toml", .toml), ("json", .json), ("yaml", .yaml), ("yml", .yaml), ("ini", .ini), ("ron", .foreign),
    ("json5", .json)]

def FileFormat.read (f : FileFormat) (cs : List Char) : Option (List (String × Json)) :=
  let cs := match cs with
    | '\ufeff' :: rest => rest
    | cs => cs
  match f with
  | .toml => (Toml.parse cs).map ofTomlMembers
  | .json =>
    match Json.parse cs with
    | .ok (.obj members) => some (ofJsonMembers members)
    | _ => none
  | .yaml =>
    match Yaml.parse cs with
    | some [.null] => some []
    | some [v] =>
      match ofYaml? v with
      | some (.obj members) => some members
      | _ => none
    | _ => none
  | .ini => ofLines? cs
  | .foreign => none

/-- The paths at which the file of settings that a path stands for is looked for. -/
def candidates (p : Path) : List Path := p :: endings.map fun e => ⟨p.spelling ++ "." ++ e.1⟩

/-- The file of settings that a path stands for, and its format. -/
def findFile (t : FileTree) (p : Path) : Option (File × FileFormat) :=
  match t.file? p with
  | some file =>
    (endings.lookup ((p.extension?.bind OsText.text?).getD "")).map fun format => (file, format)
  | none =>
    endings.findSome? fun (ending, format) =>
      (t.file? ⟨p.spelling ++ "." ++ ending⟩).map fun file => (file, format)

/-- The settings of the file that a path stands for. -/
def fileLayer? (t : FileTree) (p : Path) (isRequired : Bool) : Option (List (String × Json)) :=
  match findFile t p with
  | some (.text content, format) => format.read content.toList
  | some (.binary _, _) => none
  | none => if isRequired then none else some []

end Stencil.Setup
