/-!
# Numbers in scripts

The length of the number that a text begins with. Digits may be grouped by underscores.
-/

namespace Stencil.Script.Number

/-- The length of the digits that a text begins with; an underscore may follow a digit. -/
def digits (afterDigit : Bool) : List Char → Nat
  | [] => 0
  | c :: cs =>
    if c.isDigit then digits true cs + 1
    else if c = '_' ∧ afterDigit = true then digits false cs + 1
    else 0

/-- The length of the digits of a prefixed number; an underscore may stand before a digit. -/
def prefixedDigits (isDigit : Char → Bool) : List Char → Nat
  | '_' :: c :: cs => if isDigit c then prefixedDigits isDigit cs + 2 else 0
  | c :: cs => if isDigit c then prefixedDigits isDigit cs + 1 else 0
  | [] => 0

def isHexDigit (c : Char) : Bool := c.isDigit || ('a' ≤ c && c ≤ 'f') || ('A' ≤ c && c ≤ 'F')

def isOctalDigit (c : Char) : Bool := '0' ≤ c && c ≤ '7'

def isBinaryDigit (c : Char) : Bool := c == '0' || c == '1'

/-- One, when a text begins with one of the characters. -/
def suffix (letters : String) (cs : List Char) : Nat :=
  if (cs.head?).any letters.toList.contains then 1 else 0

def based (isDigit : Char → Bool) (cs : List Char) : Nat :=
  match prefixedDigits isDigit cs with
  | 0 => 0
  | n => n + 2 + suffix "lL" (cs.drop n)

def exponent : List Char → Nat
  | e :: cs =>
    let sign := suffix "+-" cs
    let n := digits false (cs.drop sign)
    if (e == 'e' || e == 'E') && n != 0 then 1 + sign + n else 0
  | [] => 0

def ending (cs : List Char) : Nat :=
  let n := exponent cs
  n + suffix "jJ" (cs.drop n)

/-- The length of a number without base. -/
def decimal (cs : List Char) : Nat :=
  let n := digits false cs
  match cs.drop n with
  | '.' :: rest =>
    let m := digits false rest
    if n = 0 ∧ m = 0 then 0 else n + 1 + m + ending (rest.drop m)
  | rest =>
    if n = 0 then 0
    else if exponent rest = 0 then n + suffix "lLjJ" rest
    else n + ending rest

def length (cs : List Char) : Nat :=
  let withBase := match cs with
    | '0' :: b :: rest =>
      if b == 'x' || b == 'X' then based isHexDigit rest
      else if b == 'o' || b == 'O' then based isOctalDigit rest
      else if b == 'b' || b == 'B' then based isBinaryDigit rest
      else 0
    | _ => 0
  if withBase = 0 then decimal cs else withBase

end Stencil.Script.Number
