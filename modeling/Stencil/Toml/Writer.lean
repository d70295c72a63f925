import Stencil.Decimal.Word
import Stencil.Json.Basic
import Stencil.Json.Writer
import Stencil.Toml.Value

/-!
# Writing TOML

The written form of an object. The members of a table that are neither tables nor lists of tables come
first, a line each; the tables follow with headers, in the order in which they are met. A string is
written in the plainest of four ways that needs no escapes, and a list of more than one item takes a
line for each. Integers of more than 64 bits with sign cannot be written.
-/

namespace Stencil.Toml

/-! ### Strings -/

/-- What decides how a string is written. -/
structure Traits where
  /-- Control characters, which have to be escaped. -/
  control : Bool
  backslash : Bool
  newline : Bool
  /-- The longest run of single quotes. -/
  single : Nat
  /-- The longest run of double quotes. -/
  double : Nat
  deriving Repr, DecidableEq

def isControl (c : Char) : Bool := (c.toNat < 0x20 && c != '\t' && c != '\n') || c.toNat == 0x7f

def longestRun (c : Char) (cs : List Char) : Nat :=
  (cs.foldl (fun (best, run) d =>
    let run := if d = c then run + 1 else 0
    (max best run, run)) (0, 0)).1

def Traits.of (cs : List Char) : Traits where
  control := cs.any isControl
  backslash := cs.contains '\\'
  newline := cs.contains '\n'
  single := longestRun '\'' cs
  double := longestRun '"' cs

/-- A character of a string in double quotes; line breaks stand as they are where `lines` holds. -/
def escape (lines : Bool) (c : Char) : List Char :=
  match c with
  | '"' => ['\\', '"']
  | '\\' => ['\\', '\\']
  | '\x08' => ['\\', 'b']
  | '\x0c' => ['\\', 'f']
  | '\r' => ['\\', 'r']
  | '\n' => if lines then ['\n'] else ['\\', 'n']
  | c =>
    if isControl c then
      ['\\', 'u', '0', '0', (Json.hexDigit (c.toNat / 16)).toUpper,
        (Json.hexDigit (c.toNat % 16)).toUpper]
    else [c]

/-- A string between delimiters; a string of several lines begins on a line of its own. -/
def delimited (delimiter cs : List Char) (several : Bool) : List Char :=
  delimiter ++ (if several then ['\n'] else []) ++ cs ++ delimiter

def writeString (cs : List Char) : List Char :=
  let t := Traits.of cs
  let quotes (c : Char) : List Char := [c, c, c]
  if !t.control && !t.backslash && t.double = 0 && !t.newline then delimited ['"'] cs false
  else if !t.control && t.single = 0 && !t.newline then delimited ['\''] cs false
  else if !t.control && !t.backslash && t.double ≤ 2 then delimited (quotes '"') cs t.newline
  else if !t.control && t.single ≤ 2 then delimited (quotes '\'') cs t.newline
  else if t.newline then delimited (quotes '"') (cs.flatMap (escape true)) true
  else delimited ['"'] (cs.flatMap (escape false)) false

def writeKey (key : String) : List Char :=
  let cs := key.toList
  let isBare (c : Char) : Bool := c.isAlphanum || c == '-' || c == '_'
  let t := Traits.of cs
  if !cs.isEmpty && cs.all isBare then cs
  else if !t.control && !t.backslash && t.double = 0 && !t.newline then delimited ['"'] cs false
  else if !t.control && t.single = 0 && !t.newline then delimited ['\''] cs false
  else delimited ['"'] (cs.flatMap (escape false)) false

/-! ### Values -/

mutual

def writeValue : Json → Option (List Char)
  | .null => none
  | .bool b => some (if b then "true" else "false").toList
  | .num (.int i) => if Decimal.isSignedWord 64 i then some (toString i).toList else none
  | .num (.float x) => some (floatStyle.write x)
  | .str s => some (writeString s.toList)
  | .arr items => do
    let written ← writeItems items
    match written with
    | [] => some ['[', ']']
    | [x] => some ('[' :: x ++ [']'])
    | xs => some ('[' :: xs.flatMap (fun x => '\n' :: "    ".toList ++ x ++ [',']) ++ ['\n', ']'])
  | .obj members => do
    let written ← writeMembers members
    match written with
    | [] => some ['{', '}']
    | xs => some ('{' :: ' ' :: [',', ' '].intercalate xs ++ [' ', '}'])

def writeItems : List Json → Option (List (List Char))
  | [] => some []
  | x :: xs => do
    let first ← writeValue x
    let rest ← writeItems xs
    return first :: rest

def writeMembers : List (String × Json) → Option (List (List Char))
  | [] => some []
  | (k, v) :: rest => do
    let value ← writeValue v
    let others ← writeMembers rest
    return (writeKey k ++ " = ".toList ++ value) :: others

end

/-! ### Tables -/

/-- A table with its header as it stands in a document. -/
structure Block where
  path : List String
  /-- Whether it is an item of a list of tables. -/
  isItem : Bool
  /-- The lines of the members that are no tables. -/
  body : List Char
  hasChildren : Bool
  deriving Inhabited

def Block.isNeeded (b : Block) : Bool :=
  if b.path.isEmpty then !b.body.isEmpty else b.isItem || !b.body.isEmpty || !b.hasChildren

def Block.write (b : Block) : List Char :=
  let name := ['.'].intercalate (b.path.map writeKey)
  let header :=
    if b.path.isEmpty then [] else if b.isItem then '[' :: '[' :: name ++ [']', ']', '\n']
    else '[' :: name ++ [']', '\n']
  header ++ b.body

def isTables : Json → Bool
  | .arr items => !items.isEmpty && items.all Json.isObj
  | _ => false

def writeBody : List (String × Json) → Option (List Char)
  | [] => some []
  | (k, v) :: rest =>
    if v.isObj || isTables v then writeBody rest
    else
      match v with
      | .null => writeBody rest
      | v => do
        let value ← writeValue v
        let others ← writeBody rest
        return writeKey k ++ " = ".toList ++ value ++ '\n' :: others

mutual

def memberBlocks (path : List String) : List (String × Json) → Option (List Block)
  | [] => some []
  | (k, .obj members) :: rest => do
    let inner := path ++ [k]
    let body ← writeBody members
    let children ← memberBlocks inner members
    let others ← memberBlocks path rest
    return ⟨inner, false, body, !children.isEmpty⟩ :: children ++ others
  | (k, .arr items) :: rest => do
    let tables ← if isTables (.arr items) then itemBlocks (path ++ [k]) items else some []
    let others ← memberBlocks path rest
    return tables ++ others
  | (_, _) :: rest => memberBlocks path rest

def itemBlocks (path : List String) : List Json → Option (List Block)
  | [] => some []
  | .obj members :: rest => do
    let body ← writeBody members
    let children ← memberBlocks path members
    let others ← itemBlocks path rest
    return ⟨path, true, body, !children.isEmpty⟩ :: children ++ others
  | _ :: rest => itemBlocks path rest

end

def write (members : List (String × Json)) : Option (List Char) := do
  let body ← writeBody members
  let tables ← memberBlocks [] members
  let blocks := (⟨[], false, body, true⟩ :: tables).filter Block.isNeeded
  return ['\n'].intercalate (blocks.map Block.write)

end Stencil.Toml
