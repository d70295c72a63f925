import Stencil.Decimal.Shortest

/-!
# Reading doubles

The double of a decimal text: digits with or without a point and an exponent, or a name of infinity or
of no number. Letters may be capitals.
-/

namespace Stencil.Decimal

def natOf? (cs : List Char) : Option Nat :=
  if !cs.isEmpty && cs.all Char.isDigit then
    some (cs.foldl (fun n d => n * 10 + (d.toNat - 48)) 0)
  else none

def signOf : List Char → Bool × List Char
  | '-' :: rest => (true, rest)
  | '+' :: rest => (false, rest)
  | cs => (false, cs)

/-- The integer of decimal digits with or without a sign. -/
def intOf? (cs : List Char) : Option Int :=
  let (negative, ds) := signOf cs
  (natOf? ds).map fun n => if negative then -(n : Int) else n

/-- The double of digits with or without a point and an exponent. -/
def magnitude? (cs : List Char) : Option Float := do
  let whole := cs.takeWhile Char.isDigit
  let rest := cs.dropWhile Char.isDigit
  let (places, rest) := match rest with
    | '.' :: rest => (rest.takeWhile Char.isDigit, rest.dropWhile Char.isDigit)
    | rest => ([], rest)
  let digits ← natOf? (whole ++ places)
  let exponent ← match rest with
    | [] => some 0
    | e :: rest => if e = 'e' ∨ e = 'E' then intOf? rest else none
  return toFloat digits (exponent - places.length)

def read? (cs : List Char) : Option Float :=
  let (negative, body) := signOf cs
  let word := String.ofList (body.map Char.toLower)
  let x :=
    if word = "inf" ∨ word = "infinity" then some (1.0 / 0.0)
    else if word = "nan" then some (0.0 / 0.0)
    else magnitude? body
  x.map fun x => if negative then -x else x

end Stencil.Decimal
