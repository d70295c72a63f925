import Stencil.Decimal.Notation
import Stencil.Decimal.Reading
import Stencil.Decimal.Word
import Stencil.Json.Basic
import Stencil.SortedMap
import Stencil.Text.Lower
import Stencil.Text.Search

/-!
# Layers of settings

Settings come in layers, each an object. A layer is laid over the one below: objects are merged member
by member, any other value replaces what was there. A name with dots in it is a way through objects.
Variables of the environment make a layer of their own: what follows the name of the program in the
name of a variable is the name of a setting, with `__` for the dots.
-/

namespace Stencil.Setup

/-! ### Laying over -/

mutual

/-- A value with another laid over it; the value below is its members, when it is an object. -/
def overlay (below : List (String × Json)) : Json → Json
  | .obj members => .obj (overlayMembers below members)
  | v => v

def overlayMembers (below : List (String × Json)) : List (String × Json) → List (String × Json)
  | [] => below
  | (k, v) :: rest =>
    let inner := match below.lookup k with
      | some (.obj old) => old
      | _ => []
    overlayMembers (Json.insertMember k (overlay inner v) below) rest

end

def isStepChar (c : Char) : Bool := c.isAlphanum || c == '_' || c == '-'

/-- The steps of a name; a name that is no way through objects is a step as a whole. -/
def steps (name : String) : List String :=
  let parts := Text.splitBy (· == '.') name.toList
  if parts.all fun part => !part.isEmpty && part.all isStepChar then parts.map String.ofList
  else [name]

def nested (value : Json) : List String → Json
  | [] => value
  | step :: rest => .obj [(step, nested value rest)]

def set (below : List (String × Json)) (name : String) (value : Json) : List (String × Json) :=
  match nested value (steps name) with
  | .obj members => overlayMembers below members
  | _ => below

def setAll (below layer : List (String × Json)) : List (String × Json) :=
  layer.foldl (fun below (name, value) => set below name value) below

/-! ### Variables -/

def variableFront : List Char := "reforge_".toList

def settingOf? (name : String) : Option String :=
  (Text.dropPrefix? variableFront (Text.lower name.toList)).map fun rest =>
    String.ofList (Text.replaceAll ['_', '_'] ['.'] rest)

/-- The value of a variable: a truth value or a number if it reads as one. -/
def valueOf (text : String) : Json :=
  let cs := text.toList
  let small := String.ofList (Text.lower cs)
  if small = "true" then .bool true
  else if small = "false" then .bool false
  else
    match Decimal.intOf? cs with
    | some i =>
      if Decimal.isSignedWord 64 i then .num (.int i)
      else ((Decimal.read? cs).map Json.float).getD (.str text)
    | none => ((Decimal.read? cs).map Json.float).getD (.str text)

def variableLayer (vars : SortedMap String String) : List (String × Json) :=
  vars.entries.filterMap fun (name, text) =>
    (settingOf? name).map fun setting => (setting, valueOf text)

/-! ### Lenient values -/

def truthOf? (text : String) : Option Bool :=
  match String.ofList (Text.lower text.toList) with
  | "true" | "on" | "yes" => some true
  | "false" | "off" | "no" => some false
  | _ => none

/-- A value where a text is wanted: numbers and truth values are written out. -/
def asText : Json → Json
  | .bool b => .str (if b then "true" else "false")
  | .num (.int i) => .str (toString i)
  | .num (.float x) => .str (String.ofList (Decimal.plain.write x))
  | v => v

def asReal : Json → Json
  | .bool b => .float (if b then 1 else 0)
  | .num (.int i) => .float (Float.ofInt i)
  | .str s =>
    match truthOf? s with
    | some b => .float (if b then 1 else 0)
    | none => ((Decimal.read? s.toList).map Json.float).getD (.str s)
  | v => v

/-- A value where a natural number is wanted: a double is rounded, a half away from zero. -/
def asCount : Json → Json
  | .bool b => .nat (if b then 1 else 0)
  | .num (.float x) => .nat (Decimal.nearest x).toUInt64.toNat
  | .str s =>
    match truthOf? s with
    | some b => .nat (if b then 1 else 0)
    | none =>
      match s.toList with
      | '-' :: _ => .str s
      | cs => ((Decimal.intOf? cs).map fun i => .num (.int i)).getD (.str s)
  | v => v

/-- A value where a number of eight bits is wanted: only the last eight bits count. -/
def asByte (v : Json) : Json :=
  match asCount v with
  | .num (.int i) => if 0 ≤ i then .num (.int (i % 256)) else .num (.int i)
  | v => v

def asFlag : Json → Json
  | .num (.int i) => .bool (i != 0)
  | .num (.float x) => .bool (x != 0)
  | .str "1" => .bool true
  | .str "0" => .bool false
  | .str s => ((truthOf? s).map Json.bool).getD (.str s)
  | v => v

/-- An object with its members changed, each in a way that depends on its name. -/
def onMembers (change : String → Json → Json) : Json → Json
  | .obj members => .obj (members.map fun m => (m.1, change m.1 m.2))
  | v => v

def onItems (change : Json → Json) : Json → Json
  | .arr items => .arr (items.map change)
  | v => v

end Stencil.Setup
