import Stencil.Json.Reader
import Stencil.Json.Writer
import Stencil.Text.Blank
import Stencil.Text.Search

/-!
# Identifiers

An identifier is a number of 128 bits. It is written as 32 digits of base sixteen in groups of 8, 4,
4, 4 and 12, with lower-case letters. The reader also takes the digits without dashes, in braces, or
after `urn:uuid:`.
-/

namespace Stencil

/-- A number of 128 bits that names a template or a record. -/
structure Identifier where
  bits : BitVec 128
  deriving Repr, DecidableEq, Inhabited

namespace Identifier

instance : Ord Identifier := ⟨fun a b => compare a.bits b.bits⟩

instance : Std.TransOrd Identifier where
  eq_swap {a b} := (Std.OrientedOrd.eq_swap : compare a.bits b.bits = _)
  isLE_trans {a b c} (h : (compare a.bits b.bits).isLE) (h' : (compare b.bits c.bits).isLE) :=
    (Std.TransOrd.isLE_trans h h' : (compare a.bits c.bits).isLE)

instance : Std.LawfulEqOrd Identifier where
  compare_self {a} := (Std.ReflOrd.compare_self : compare a.bits a.bits = .eq)
  eq_of_compare {a b} h := by
    have : a.bits = b.bits := Std.LawfulEqOrd.eq_of_compare h
    cases a
    cases b
    simpa using this

def digits (i : Identifier) : List Char :=
  (List.range 32).map fun k => Json.hexDigit (i.bits.toNat / Nat.pow 16 (31 - k) % 16)

def text (i : Identifier) : String :=
  let d := i.digits
  let group (start size : Nat) := (d.drop start).take size
  String.ofList <| group 0 8 ++ '-' :: group 8 4 ++ '-' :: group 12 4 ++ '-' :: group 16 4 ++
    '-' :: group 20 12

def ofDigits? (cs : List Char) : Option Identifier :=
  if cs.length = 32 then
    (cs.mapM Json.hexValue?).map fun ds => ⟨BitVec.ofNat 128 (ds.foldl (fun n d => 16 * n + d) 0)⟩
  else none

def ofGroups? (cs : List Char) : Option Identifier :=
  let groups := Text.splitBy (· == '-') cs
  if groups.map List.length = [8, 4, 4, 4, 12] then ofDigits? groups.flatten else none

def ofText? (s : String) : Option Identifier :=
  let cs := s.toList
  (ofDigits? cs).or <| (ofGroups? cs).or <|
    match Text.dropPrefix? "urn:uuid:".toList cs with
    | some rest => ofGroups? rest
    | none =>
      match cs with
      | '{' :: rest => if rest.getLast? = some '}' then ofGroups? rest.dropLast else none
      | _ => none

/-- The identifier that a text names between blanks. -/
def read? (s : String) : Option Identifier := ofText? (Text.trimString s)

def fresh (n : Nat) : Identifier := ⟨BitVec.ofNat 128 n⟩

end Identifier

end Stencil
