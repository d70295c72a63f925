/-!
# The shortest decimal of a double

A finite double is `m · 2 ^ q`. The reals that round to it form an interval around it, which holds
its ends when `m` is even. For one digit, two, and so on, the two neighbours of the double among the
decimals of that many digits are tried; the first count with a neighbour in the interval gives the
shortest decimal, and of two such neighbours the nearer one is taken.
-/

namespace Stencil.Decimal

/-- A positive decimal `digits · 10 ^ exponent`, whose last digit is not zero. -/
structure Positive where
  digits : Nat
  exponent : Int
  deriving Repr, DecidableEq, Inhabited

/-- Number of digits in base ten; zero has one. -/
def digitCount (n : Nat) : Nat := (Nat.toDigits 10 n).length

/-- A positive real `mid / den` and the interval from `lo / den` to `hi / den` around it. -/
structure Interval where
  lo : Nat
  mid : Nat
  hi : Nat
  den : Nat
  closed : Bool
  deriving Repr, DecidableEq, Inhabited

/-- The reals that round to `m · 2 ^ q`; below a power of two the gap to the next double is half as
wide. -/
def Interval.ofBinary (m : Nat) (q : Int) (narrow : Bool) : Interval :=
  let up := Nat.pow 2 q.toNat
  ⟨(4 * m - if narrow then 1 else 2) * up, 4 * m * up, (4 * m + 2) * up, 4 * Nat.pow 2 (-q).toNat,
    m % 2 == 0⟩

/-- The least `k` with `mid / den < 10 ^ k`. -/
def Interval.magnitude (i : Interval) : Int :=
  if i.mid < i.den then
    let j := digitCount (i.den / i.mid) - 1
    if i.mid * Nat.pow 10 j < i.den then -(j : Int) else 1 - j
  else digitCount (i.mid / i.den)

/-- Whether `d · 10 ^ e` lies in the interval. -/
def Interval.holds (i : Interval) (d : Nat) (e : Int) : Bool :=
  let x := d * Nat.pow 10 e.toNat * i.den
  let s := Nat.pow 10 (-e).toNat
  if i.closed then i.lo * s ≤ x && x ≤ i.hi * s else i.lo * s < x && x < i.hi * s

/-- The decimal of exponent `e` next below the middle, or at it. -/
def Interval.below (i : Interval) (e : Int) : Nat :=
  i.mid * Nat.pow 10 (-e).toNat / (Nat.pow 10 e.toNat * i.den)

/-- Of `d · 10 ^ e` and its upper neighbour, the one nearer to the middle; a tie goes to the even
one. -/
def Interval.nearer (i : Interval) (d : Nat) (e : Int) : Nat :=
  let unit := Nat.pow 10 e.toNat * i.den
  let rest := i.mid * Nat.pow 10 (-e).toNat - d * unit
  if 2 * rest < unit ∨ (2 * rest = unit ∧ d % 2 = 0) then d else d + 1

/-- The decimal of exponent `e` in the interval that is nearest to the middle. -/
def Interval.pick? (i : Interval) (e : Int) : Option Nat :=
  let d := i.below e
  match i.holds d e && 0 < d, i.holds (d + 1) e with
  | true, true => some (i.nearer d e)
  | true, false => some d
  | false, true => some (d + 1)
  | false, false => none

def Positive.strip : (fuel : Nat) → Positive → Positive
  | 0, p => p
  | fuel + 1, p =>
    if p.digits ≠ 0 ∧ p.digits % 10 = 0 then strip fuel ⟨p.digits / 10, p.exponent + 1⟩ else p

/-- The shortest decimal of an interval; seventeen digits always suffice for a double. -/
def Interval.shortest (i : Interval) : Positive :=
  let k := i.magnitude
  let found := (List.range 17).findSome? fun n =>
    let e := k - (n + 1 : Nat)
    (i.pick? e).map fun d => (⟨d, e⟩ : Positive)
  let p := found.getD ⟨i.below (k - 17), k - 17⟩
  p.strip (digitCount p.digits)

inductive Class where
  | nan
  | infinite (negative : Bool)
  | zero (negative : Bool)
  | finite (negative : Bool) (mantissa : Nat) (exponent : Int) (narrow : Bool)
  deriving Repr, DecidableEq, Inhabited

/-- The class of a double from its 64 bits. -/
def Class.ofBits (bits : UInt64) : Class :=
  let negative := bits >>> 63 != 0
  let e := ((bits >>> 52) &&& 0x7ff).toNat
  let f := (bits &&& 0xfffffffffffff).toNat
  if e = 0x7ff then (if f = 0 then .infinite negative else .nan)
  else if e = 0 then (if f = 0 then .zero negative else .finite negative f (-1074) false)
  else .finite negative (f + Nat.pow 2 52) ((e : Int) - 1075) (f = 0 && 1 < e)

def Class.ofFloat (x : Float) : Class := .ofBits x.toBits

/-- The double nearest to `digits · 10 ^ exponent`. -/
def toFloat (digits : Nat) (exponent : Int) : Float :=
  if digits = 0 then 0
  else
    let size := (digitCount digits : Int) + exponent
    if size > 310 then 1 / 0
    else if size < -330 then 0
    else if exponent < 0 then Float.ofScientific digits true (-exponent).toNat
    else Float.ofScientific digits false exponent.toNat

end Stencil.Decimal
