import Stencil.Decimal.Shortest

/-!
# Written forms of doubles

A style says which doubles are written with all places and which with an exponent, and how the rest
looks. Every style prints the digits of the shortest decimal; `fixed` prints a given number of
places instead, and sends a half to the even neighbour.
-/

namespace Stencil.Decimal

structure Style where
  /-- The exponents of scientific notation that are written positionally, when there is a limit. -/
  positional : Option (Int × Int)
  /-- Whether a positional number without places ends in `.0`. -/
  pointZero : Bool
  plus : Bool
  signedZero : Bool
  nan : String
  infinity : String
  deriving Repr, Inhabited

def digitsOf (n : Nat) : List Char := Nat.toDigits 10 n

/-- Digits with the decimal point after the first `point` of them, filled up with zeros. -/
def placed (digits : List Char) (point : Int) (pointZero : Bool) : List Char :=
  if point ≤ 0 then '0' :: '.' :: List.replicate (-point).toNat '0' ++ digits
  else
    let p := point.toNat
    if digits.length ≤ p then
      digits ++ List.replicate (p - digits.length) '0' ++ if pointZero then ['.', '0'] else []
    else digits.take p ++ '.' :: digits.drop p

def scientific (digits : List Char) (exponent : Int) (plus : Bool) : List Char :=
  let mantissa := match digits with
    | [] => []
    | [d] => [d]
    | d :: ds => d :: '.' :: ds
  let sign := if exponent < 0 then ['-'] else if plus then ['+'] else []
  mantissa ++ 'e' :: sign ++ digitsOf exponent.natAbs

def Style.positive (s : Style) (p : Positive) : List Char :=
  let digits := digitsOf p.digits
  let exponent := (digits.length : Int) + p.exponent - 1
  match s.positional with
  | some (lo, hi) =>
    if lo ≤ exponent ∧ exponent ≤ hi then placed digits (exponent + 1) s.pointZero
    else scientific digits exponent s.plus
  | none => placed digits (exponent + 1) s.pointZero

def Style.write (s : Style) (x : Float) : List Char :=
  let signed (negative : Bool) (cs : List Char) := if negative then '-' :: cs else cs
  match Class.ofFloat x with
  | .nan => s.nan.toList
  | .infinite negative => signed negative s.infinity.toList
  | .zero negative => signed (negative && s.signedZero) (if s.pointZero then ['0', '.', '0'] else ['0'])
  | .finite negative m q narrow =>
    signed negative (s.positive (Interval.ofBinary m q narrow).shortest)

/-- All places, and no `.0`: the form used in messages. -/
def plain : Style := ⟨none, false, false, true, "NaN", "inf"⟩

/-- `num / den` rounded to a natural number, a half to the even neighbour. -/
def roundHalfEven (num den : Nat) : Nat :=
  let q := num / den
  let r := num % den
  if 2 * r > den ∨ (2 * r = den ∧ q % 2 = 1) then q + 1 else q

theorem roundHalfEven_le (num den : Nat) : roundHalfEven num den ≤ num / den + 1 := by
  simp only [roundHalfEven]
  split <;> omega

/-- A double with exactly `places` decimal places. -/
def fixed (places : Nat) (x : Float) : List Char :=
  let body (num den : Nat) :=
    let n := roundHalfEven (num * Nat.pow 10 places) den
    let ds := digitsOf n
    let ds := List.replicate (places + 1 - ds.length) '0' ++ ds
    let whole := ds.take (ds.length - places)
    if places = 0 then whole else whole ++ '.' :: ds.drop (ds.length - places)
  match Class.ofFloat x with
  | .nan => "NaN".toList
  | .infinite negative => if negative then "-inf".toList else "inf".toList
  | .zero negative => (if negative then ['-'] else []) ++ body 0 1
  | .finite negative m q _ =>
    (if negative then ['-'] else []) ++ body (m * Nat.pow 2 q.toNat) (Nat.pow 2 (-q).toNat)

/-- The whole number nearest to a value, a half away from zero. -/
def nearest (x : Float) : Float :=
  -- from 2 ^ 52 on every double is whole, and zero keeps its sign
  if x.abs < 4503599627370496 && x != 0 then
    let whole := x.abs.toUInt64.toFloat
    let n := if 0.5 ≤ x.abs - whole then whole + 1 else whole
    if x < 0 then -n else n
  else x

/-- A value rounded to two places, a half away from zero. -/
def round2 (x : Float) : Float := nearest (x * 100) / 100

end Stencil.Decimal
