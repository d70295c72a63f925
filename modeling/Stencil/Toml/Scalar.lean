import Stencil.Decimal.Word
import Stencil.Text.Search
import Stencil.Toml.Value

/-!
# TOML numbers, dates and times

What a word without quotes means. A word is a number, a date, a time or a truth value as a whole, or
it is nothing.
-/

namespace Stencil.Toml

/-! ### Digits -/

/-- Digits with single underscores between them, without the underscores. -/
def digits? (isDigit : Char → Bool) (cs : List Char) : Option (List Char) :=
  let groups := Text.splitBy (· == '_') cs
  if groups.all (fun g => !g.isEmpty && g.all isDigit) then some groups.flatten else none

/-- The value of a digit of any base up to sixteen. -/
def digitValue (c : Char) : Nat :=
  if c.isDigit then c.toNat - 48 else c.toLower.toNat - 87

def numberOf (base : Nat) (ds : List Char) : Nat :=
  ds.foldl (fun n d => n * base + digitValue d) 0

def signed (cs : List Char) : Bool × List Char :=
  match cs with
  | '-' :: rest => (true, rest)
  | '+' :: rest => (false, rest)
  | _ => (false, cs)

/-- Decimal digits that do not begin with a needless zero. -/
def decimalDigits? (cs : List Char) : Option (List Char) :=
  match digits? Char.isDigit cs with
  | some ('0' :: _ :: _) => none
  | ds => ds

/-! ### Numbers -/

def inRange? (i : Int) : Option Value :=
  if Decimal.isSignedWord 64 i then some (.int i) else none

def isHexDigit (c : Char) : Bool := c.isDigit || ('a' ≤ c && c ≤ 'f') || ('A' ≤ c && c ≤ 'F')

def integer? (cs : List Char) : Option Value :=
  match cs with
  | '0' :: 'x' :: rest => (digits? isHexDigit rest).bind fun ds => inRange? (numberOf 16 ds)
  | '0' :: 'o' :: rest =>
    (digits? (fun c => '0' ≤ c && c ≤ '7') rest).bind fun ds => inRange? (numberOf 8 ds)
  | '0' :: 'b' :: rest =>
    (digits? (fun c => c == '0' || c == '1') rest).bind fun ds => inRange? (numberOf 2 ds)
  | _ =>
    let (negative, rest) := signed cs
    (decimalDigits? rest).bind fun ds =>
      let n : Int := numberOf 10 ds
      inRange? (if negative then -n else n)

/-- A power of ten after an `e`; no text means none. -/
def exponent? (cs : List Char) : Option Int :=
  match cs with
  | [] => some 0
  | c :: rest =>
    if c = 'e' ∨ c = 'E' then
      let (negative, rest) := signed rest
      (digits? Char.isDigit rest).map fun ds =>
        if negative then -(numberOf 10 ds : Int) else numberOf 10 ds
    else none

def float? (cs : List Char) : Option Value :=
  let (negative, rest) := signed cs
  let withSign (x : Float) : Value := .float (if negative then -x else x)
  if rest = "inf".toList then some (withSign (1 / 0))
  else if rest = "nan".toList then some (.nan negative)
  else
    let isPart (c : Char) := c.isDigit || c == '_'
    let whole := rest.takeWhile isPart
    let after := rest.dropWhile isPart
    match decimalDigits? whole, after with
    | some ds, '.' :: tail => do
      let places ← digits? Char.isDigit (tail.takeWhile isPart)
      let e ← exponent? (tail.dropWhile isPart)
      finite (withSign (Decimal.toFloat (numberOf 10 (ds ++ places)) (e - places.length)))
    | some ds, _ :: _ => do
      let e ← exponent? after
      finite (withSign (Decimal.toFloat (numberOf 10 ds) e))
    | _, _ => none
where
  /-- A double that is not too large. -/
  finite : Value → Option Value
    | .float x => if x.isInf then none else some (.float x)
    | v => some v

/-! ### Dates and times -/

/-- Exactly `n` digits at the front, and the rest. -/
def fixedNumber? (n : Nat) (cs : List Char) : Option (Nat × List Char) :=
  let ds := cs.take n
  if ds.length = n ∧ ds.all Char.isDigit then some (numberOf 10 ds, cs.drop n) else none

def date? (cs : List Char) : Option (Date × List Char) := do
  let (year, cs) ← fixedNumber? 4 cs
  let cs ← Text.dropPrefix? ['-'] cs
  let (month, cs) ← fixedNumber? 2 cs
  let cs ← Text.dropPrefix? ['-'] cs
  let (day, cs) ← fixedNumber? 2 cs
  guard (1 ≤ month ∧ month ≤ 12 ∧ 1 ≤ day ∧ day ≤ Instant.monthLength year month)
  return (⟨year, month, day⟩, cs)

/-- The seconds of a time, when there are any. -/
def seconds? (cs : List Char) : Option (Nat × Nat × List Char) :=
  match cs with
  | ':' :: rest => do
    let (second, rest) ← fixedNumber? 2 rest
    match rest with
    | '.' :: tail =>
      let ds := tail.takeWhile Char.isDigit
      guard (ds ≠ [])
      let kept := ds.take 9
      return (second, numberOf 10 kept * Nat.pow 10 (9 - kept.length), tail.dropWhile Char.isDigit)
    | _ => return (second, 0, rest)
  | _ => some (0, 0, cs)

def time? (cs : List Char) : Option (Time × List Char) := do
  let (hour, cs) ← fixedNumber? 2 cs
  let cs ← Text.dropPrefix? [':'] cs
  let (minute, cs) ← fixedNumber? 2 cs
  let (second, nanosecond, cs) ← seconds? cs
  guard (hour ≤ 23 ∧ minute ≤ 59 ∧ second ≤ 60)
  return (⟨hour, minute, second, nanosecond⟩, cs)

/-- The offset that a text writes; no text means none. -/
def offset? (cs : List Char) : Option (Option Offset) :=
  match cs with
  | [] => some none
  | ['Z'] | ['z'] => some (some ⟨none⟩)
  | c :: rest => do
    guard (c = '+' ∨ c = '-')
    let (hours, rest) ← fixedNumber? 2 rest
    let rest ← Text.dropPrefix? [':'] rest
    let (minutes, rest) ← fixedNumber? 2 rest
    guard (rest = [] ∧ hours ≤ 23 ∧ minutes ≤ 59)
    let total : Int := hours * 60 + minutes
    return some ⟨some (if c = '-' then -total else total)⟩

def moment? (cs : List Char) : Option Moment :=
  match date? cs with
  | some (date, []) => some (.day date)
  | some (date, c :: rest) => do
    guard (c = 'T' ∨ c = 't' ∨ c = ' ')
    let (time, rest) ← time? rest
    return .both date time (← offset? rest)
  | none => do
    let (time, rest) ← time? cs
    guard (rest = [])
    return .time time

def scalar? (cs : List Char) : Option Value :=
  if cs = "true".toList then some (.bool true)
  else if cs = "false".toList then some (.bool false)
  else (integer? cs).or <| (float? cs).or <| (moment? cs).map .moment

end Stencil.Toml
