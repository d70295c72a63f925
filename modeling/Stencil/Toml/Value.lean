import Stencil.Decimal.Notation
import Stencil.Instant

/-!
# TOML values

A finished TOML value. The members of a table come in the order of their keys. Dates and times keep
their parts; a time without seconds is on the minute.
-/

namespace Stencil.Toml

structure Date where
  year : Nat
  month : Nat
  day : Nat
  deriving Repr, DecidableEq, Inhabited

structure Time where
  hour : Nat
  minute : Nat
  second : Nat
  nanosecond : Nat
  deriving Repr, DecidableEq, Inhabited

/-- An offset from UTC in minutes; none means that `Z` is written. -/
structure Offset where
  minutes : Option Int
  deriving Repr, DecidableEq, Inhabited

inductive Moment where
  | day (date : Date)
  | time (time : Time)
  | both (date : Date) (time : Time) (offset : Option Offset)
  deriving Repr, DecidableEq, Inhabited

inductive Value where
  | str (text : String)
  | int (value : Int)
  | float (value : Float)
  /-- Not a number, with the sign that it was written with. -/
  | nan (negative : Bool)
  | bool (value : Bool)
  | moment (value : Moment)
  | arr (items : List Value)
  | table (members : List (String × Value))
  deriving Repr, Inhabited

/-! ### Texts of scalars -/

/-- Doubles are written with all places. -/
def floatStyle : Decimal.Style := ⟨none, true, false, true, "nan", "inf"⟩

def Date.write (d : Date) : List Char :=
  Instant.padded 4 d.year ++ '-' :: Instant.padded 2 d.month ++ '-' :: Instant.padded 2 d.day

/-- The decimals of a second without zeros at the end. -/
def writeDecimals (n : Nat) : List Char :=
  if n = 0 then []
  else '.' :: ((Instant.padded 9 n).reverse.dropWhile (· == '0')).reverse

def Time.write (t : Time) : List Char :=
  Instant.padded 2 t.hour ++ ':' :: Instant.padded 2 t.minute ++ ':' :: Instant.padded 2 t.second ++
    writeDecimals t.nanosecond

def Offset.write (o : Offset) : List Char :=
  match o.minutes with
  | none => ['Z']
  | some m =>
    (if m < 0 then '-' else '+') :: Instant.padded 2 (m.natAbs / 60) ++
      ':' :: Instant.padded 2 (m.natAbs % 60)

def Moment.write : Moment → List Char
  | day d => d.write
  | time t => t.write
  | both d t o => d.write ++ 'T' :: t.write ++ (o.map Offset.write).getD []

/-- The text of a scalar; tables and arrays are flattened and have none. -/
def Value.text : Value → String
  | .str s => s
  | .int i => toString i
  | .float x => String.ofList (floatStyle.write x)
  | .nan negative => if negative then "-nan" else "nan"
  | .bool b => if b then "true" else "false"
  | .moment m => String.ofList m.write
  | .arr _ | .table _ => ""

end Stencil.Toml
