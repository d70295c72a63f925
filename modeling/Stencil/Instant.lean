import Stencil.Decimal.Notation
import Stencil.Text.Blank

/-!
# Spans and instants

A span of time is a number of nanoseconds. An instant is a point in time, counted from the start of
1970 in UTC, as RFC 3339 writes it. The reader takes any offset from UTC and answers the same instant;
the printer writes the date and time in UTC and as many groups of three decimals as are needed, at most
three.
-/

namespace Stencil

/-- A whole number of nanoseconds. -/
structure Duration where
  nanoseconds : Nat
  deriving Repr, DecidableEq, Inhabited

namespace Duration

def ofSeconds (n : Nat) : Duration := ⟨n * 1000000000⟩

def ofMilliseconds (n : Nat) : Duration := ⟨n * 1000000⟩

/-- The span of a number of seconds, rounded to the nearest nanosecond, a half to the even neighbour; negative
numbers and numbers of 2^64 seconds or more are no spans. -/
def ofFloat? (x : Float) : Option Duration :=
  match Decimal.Class.ofFloat x with
  | .zero _ => some ⟨0⟩
  | .finite false m q _ =>
    let n := Decimal.roundHalfEven (m * Nat.pow 2 q.toNat * 1000000000) (Nat.pow 2 (-q).toNat)
    if n < Nat.pow 2 64 * 1000000000 then some ⟨n⟩ else none
  | _ => none

/-- The number of seconds: whole seconds and the rest are rounded on their own. -/
def toFloat (d : Duration) : Float :=
  (d.nanoseconds / 1000000000).toUInt64.toFloat + (d.nanoseconds % 1000000000).toUInt64.toFloat / 1e9

end Duration

/-- Seconds since 1970, and nanoseconds in the second; those of a leap second go on counting. -/
structure Instant where
  seconds : Int
  nanoseconds : Nat
  deriving Repr, DecidableEq, Inhabited

namespace Instant

def compare (a b : Instant) : Ordering :=
  (Ord.compare a.seconds b.seconds).then (Ord.compare a.nanoseconds b.nanoseconds)

/-! ### Days -/

def isLeap (year : Int) : Bool := year % 4 == 0 && (year % 100 != 0 || year % 400 == 0)

def monthLength (year : Int) (month : Nat) : Nat :=
  match month with
  | 2 => if isLeap year then 29 else 28
  | 4 | 6 | 9 | 11 => 30
  | _ => 31

/-- Days from the start of 1970 to a date; years are counted from March. -/
def daysOfDate (year : Int) (month day : Nat) : Int :=
  let y := if month ≤ 2 then year - 1 else year
  let era := y.fdiv 400
  let ofEra := y - era * 400
  let ofYear : Int := (153 * ((month : Int) + (if month > 2 then -3 else 9)) + 2) / 5 + day - 1
  era * 146097 + (ofEra * 365 + ofEra / 4 - ofEra / 100 + ofYear) - 719468

def dateOfDays (days : Int) : Int × Nat × Nat :=
  let z := days + 719468
  let era := z.fdiv 146097
  let ofEra := z - era * 146097
  let year := (ofEra - ofEra / 1460 + ofEra / 36524 - ofEra / 146096) / 365
  let ofYear := ofEra - (365 * year + year / 4 - year / 100)
  let m := (5 * ofYear + 2) / 153
  let day := ofYear - (153 * m + 2) / 5 + 1
  let month := if m < 10 then m + 3 else m - 9
  (year + era * 400 + (if month ≤ 2 then 1 else 0), month.toNat, day.toNat)

/-! ### Writing -/

def padded (width n : Nat) : List Char :=
  let ds := Decimal.digitsOf n
  List.replicate (width - ds.length) '0' ++ ds

def decimals (n : Nat) : List Char :=
  if n = 0 then []
  else if n % 1000000 = 0 then '.' :: padded 3 (n / 1000000)
  else if n % 1000 = 0 then '.' :: padded 6 (n / 1000)
  else '.' :: padded 9 n

/-- The written form, in UTC, with the decimals of the second written by `fraction`. -/
def textWith (fraction : Nat → List Char) (t : Instant) : String :=
  let days := t.seconds.fdiv 86400
  let second := (t.seconds - days * 86400).toNat
  let (year, month, day) := dateOfDays days
  let yearText :=
    if 0 ≤ year ∧ year ≤ 9999 then padded 4 year.toNat
    else (if year < 0 then '-' else '+') :: padded 4 year.natAbs
  let leap := t.nanoseconds / 1000000000
  String.ofList <| yearText ++ '-' :: padded 2 month ++ '-' :: padded 2 day ++
    'T' :: padded 2 (second / 3600) ++ ':' :: padded 2 (second / 60 % 60) ++
    ':' :: padded 2 (second % 60 + leap) ++ fraction (t.nanoseconds % 1000000000) ++ ['Z']

def text (t : Instant) : String := t.textWith decimals

/-- The written form to the microsecond; later digits are cut. -/
def stamp (t : Instant) : String := t.textWith fun n => '.' :: padded 6 (n / 1000)

/-! ### Reading -/

/-- The number of up to `width` digits after blanks, and the rest. -/
def number? (width : Nat) (cs : List Char) : Option (Nat × List Char) :=
  let cs := Text.trimStart cs
  let ds := (cs.take width).takeWhile Char.isDigit
  if ds.isEmpty then none
  else some (ds.foldl (fun n d => n * 10 + (d.toNat - 48)) 0, cs.drop ds.length)

/-- A year; a sign allows any number of digits. -/
def year? (cs : List Char) : Option (Int × List Char) :=
  match Text.trimStart cs with
  | '-' :: rest => do
    guard ((rest.head?.map Char.isDigit) = some true)
    let (n, rest) ← number? rest.length rest
    return (-(n : Int), rest)
  | '+' :: rest => do
    guard ((rest.head?.map Char.isDigit) = some true)
    let (n, rest) ← number? rest.length rest
    return ((n : Int), rest)
  | cs => (number? 4 cs).map fun (n, rest) => ((n : Int), rest)

/-- The rest after blanks and a given character. -/
def mark? (c : Char) (cs : List Char) : Option (List Char) :=
  match Text.trimStart cs with
  | d :: rest => if d = c then some rest else none
  | [] => none

/-- The nanoseconds of the decimals of a second, when there are any. -/
def decimals? : List Char → Option (Nat × List Char)
  | '.' :: rest =>
    let ds := rest.takeWhile Char.isDigit
    if ds.isEmpty then none
    else
      let kept := ds.take 9
      let n := kept.foldl (fun n d => n * 10 + (d.toNat - 48)) 0
      some (n * Nat.pow 10 (9 - kept.length), rest.drop ds.length)
  | cs => some (0, cs)

/-- The offset from UTC in seconds. -/
def offset? (cs : List Char) : Option (Int × List Char) :=
  let cs := Text.trimStart cs
  if (cs.take 3).map Char.toUpper = ['U', 'T', 'C'] then some (0, cs.drop 3)
  else match cs with
    | 'Z' :: rest | 'z' :: rest => some (0, rest)
    | sign :: a :: b :: rest => do
      let negative ← match sign with
        | '+' => some false
        | '-' | '\u2212' => some true
        | _ => none
      guard (a.isDigit && b.isDigit)
      let hours := (a.toNat - 48) * 10 + (b.toNat - 48)
      let rest := rest.dropWhile fun c => c == ':' || Text.isBlank c
      match rest with
      | c :: d :: rest => do
        guard (c.isDigit && d.isDigit && c ≤ '5')
        let seconds : Int := hours * 3600 + ((c.toNat - 48) * 10 + (d.toNat - 48)) * 60
        guard (seconds < 86400)
        return (if negative then -seconds else seconds, rest)
      | _ => none
    | _ => none

def ofText? (s : String) : Option Instant := do
  let (year, cs) ← year? s.toList
  let cs ← mark? '-' cs
  let (month, cs) ← number? 2 cs
  let cs ← mark? '-' cs
  let (day, cs) ← number? 2 cs
  let cs ← match cs with
    | 't' :: rest | 'T' :: rest | ' ' :: rest => some rest
    | _ => none
  let (hour, cs) ← number? 2 cs
  let cs ← mark? ':' cs
  let (minute, cs) ← number? 2 cs
  let cs ← mark? ':' cs
  let (second, cs) ← number? 2 cs
  let (nanos, cs) ← decimals? cs
  let (offset, cs) ← offset? cs
  guard (Text.allBlank cs)
  guard (-262143 ≤ year ∧ year ≤ 262142 ∧ 1 ≤ month ∧ month ≤ 12 ∧ 1 ≤ day ∧
    day ≤ monthLength year month ∧ hour ≤ 23 ∧ minute ≤ 59 ∧ second ≤ 60)
  let seconds := daysOfDate year month day * 86400 + (hour * 3600 + minute * 60 + min second 59 : Nat)
  return ⟨seconds - offset, nanos + if second = 60 then 1000000000 else 0⟩

/-- The instant of a stamp. RFC 3339 has years of four digits only, so a stamp whose year has a sign
is refused. -/
def ofStamp? (s : String) : Option Instant :=
  match s.toList with
  | '+' :: _ | '-' :: _ => none
  | _ => ofText? s

end Instant

end Stencil
