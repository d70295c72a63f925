import Stencil.Decimal.Word
import Stencil.Json.Basic
import Stencil.SortedMap

/-!
# Reading typed values out of JSON

Small readers for the shapes that records take. A record is an object, or a list of its fields in
their order. Members that no field asks for are ignored.
-/

namespace Stencil.Json

variable {α : Type}

/-! ### Values -/

def asString? : Json → Option String
  | str s => some s
  | _ => none

def asBool? : Json → Option Bool
  | bool b => some b
  | _ => none

def asNat? (bits : Nat) : Json → Option Nat
  | num (.int i) => if Decimal.isWord bits i then some i.toNat else none
  | _ => none

def asFloat? : Json → Option Float
  | num (.float x) => some x
  | num (.int i) => some (Float.ofInt i)
  | _ => none

def asList? (read : Json → Option α) : Json → Option (List α)
  | arr items => items.mapM read
  | _ => none

def asMap? (read : Json → Option α) : Json → Option (SortedMap String α)
  | obj members => (members.mapM fun m => (read m.2).map (m.1, ·)).map SortedMap.ofList
  | _ => none

/-- A set of strings. -/
def asSet? (j : Json) : Option (SortedSet String) := (asList? asString? j).map SortedSet.ofList

/-- A value that may be missing. -/
def asOption? (read : Json → Option α) : Json → Option (Option α)
  | null => some none
  | j => (read j).map some

/-- The name of a case without content: a string, or an object with the name over nothing. -/
def asCase? : Json → Option String
  | str s => some s
  | obj [(s, null)] => some s
  | _ => none

/-! ### Records -/

/-- The members of a record with the given fields. -/
def asRecord? (fields : List String) : Json → Option Json
  | obj members => some (obj members)
  | arr items => if items.length ≤ fields.length then some (obj (fields.zip items)) else none
  | _ => none

def required (j : Json) (key : String) (read : Json → Option α) : Option α :=
  (j.get? key).bind read

def defaulted (j : Json) (key : String) (value : α) (read : Json → Option α) : Option α :=
  match j.get? key with
  | none => some value
  | some v => read v

def optional (j : Json) (key : String) (read : Json → Option α) : Option (Option α) :=
  match j.get? key with
  | none => some none
  | some v => asOption? read v

/-! ### Writing -/

def ofMap (write : α → Json) (m : SortedMap String α) : Json :=
  obj (m.entries.map fun e => (e.1, write e.2))

def ofSet (s : SortedSet String) : Json := strs s.keys

end Stencil.Json
