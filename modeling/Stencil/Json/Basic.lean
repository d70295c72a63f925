import Stencil.Decimal.Notation

/-!
# JSON values

A number keeps whether it was written as an integer. An object is a list of members; the reader
returns members in ascending order of their keys and each key once, with the value given last.
-/

namespace Stencil

/-- A number: an integer of 64 bits with or without sign, or a double. -/
inductive Json.Number where
  | int (value : Int)
  | float (value : Float)
  deriving Repr, DecidableEq, Inhabited

inductive Json where
  | null
  | bool (value : Bool)
  | num (value : Json.Number)
  | str (value : String)
  | arr (items : List Json)
  | obj (members : List (String × Json))
  deriving Repr, Inhabited

namespace Json

/-- Doubles print without exponent from `1e-5` up to below `1e16`. -/
def Number.style : Decimal.Style := ⟨some (-5, 15), true, true, true, "null", "null"⟩

def Number.write : Number → List Char
  | .int i => (toString i).toList
  | .float x =>
    match Decimal.Class.ofFloat x with
    | .nan | .infinite _ => "null".toList
    | _ => Number.style.write x

def nat (n : Nat) : Json := .num (.int n)

def float (x : Float) : Json := .num (.float x)

def strs (xs : List String) : Json := .arr (xs.map .str)

def get? (key : String) : Json → Option Json
  | obj members => (members.find? fun m => m.1 == key).map (·.2)
  | _ => none

/-- Puts a member into a list sorted by key, in place of one with the same key. -/
def insertMember (key : String) (value : Json) : List (String × Json) → List (String × Json)
  | [] => [(key, value)]
  | (k, v) :: rest =>
    if key < k then (key, value) :: (k, v) :: rest
    else if key = k then (key, value) :: rest
    else (k, v) :: insertMember key value rest

/-- An object with its members in order of their keys; of equal keys the last one counts. -/
def sorted (members : List (String × Json)) : Json :=
  .obj (members.foldl (fun acc m => insertMember m.1 m.2 acc) [])

/-- An object with members put into it; where an old and a new value are both objects, the members of
the new one are put into the old one. -/
def patched (j : Json) : List (String × Json) → Json
  | [] => j
  | (k, v) :: rest =>
    let merged := match j.get? k, v with
      | some (.obj old), .obj new => .obj (new.foldl (fun m e => insertMember e.1 e.2 m) old)
      | _, _ => v
    match j with
    | .obj members => patched (.obj (insertMember k merged members)) rest
    | _ => patched j rest

def present (members : List (String × Option Json)) : List (String × Json) :=
  members.filterMap fun m => m.2.map (m.1, ·)

def isObj : Json → Bool
  | obj _ => true
  | _ => false

end Json

end Stencil
