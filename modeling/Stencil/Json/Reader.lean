import Stencil.Json.Basic
import Stencil.Text.Bytes

/-!
# Reading JSON

A reader of RFC 8259 that says where it fails: at the character just read, or at the character it
looks at. Columns count bytes. Values may be nested 127 deep. A number with a point, an exponent or
more than 64 bits is a double: its first digits that fit into 64 bits, scaled by one power of ten.
-/

namespace Stencil.Json

/-- What is wrong with a text that is no JSON. -/
inductive Flaw where
  | endInList
  | endInObject
  | endInString
  | endInValue
  | colonExpected
  | commaOrBracketExpected
  | commaOrBraceExpected
  | wordExpected
  | valueExpected
  | badEscape
  | badNumber
  | numberOutOfRange
  | controlCharacter
  | keyExpected
  | loneSurrogate
  | trailingComma
  | trailingText
  | cutSurrogate
  | tooDeep
  deriving Repr, DecidableEq, Inhabited

def Flaw.message : Flaw → String
  | endInList => "EOF while parsing a list"
  | endInObject => "EOF while parsing an object"
  | endInString => "EOF while parsing a string"
  | endInValue => "EOF while parsing a value"
  | colonExpected => "expected `:`"
  | commaOrBracketExpected => "expected `,` or `]`"
  | commaOrBraceExpected => "expected `,` or `\x7d`"
  | wordExpected => "expected ident"
  | valueExpected => "expected value"
  | badEscape => "invalid escape"
  | badNumber => "invalid number"
  | numberOutOfRange => "number out of range"
  | controlCharacter => "control character (\\u0000-\\u001F) found while parsing a string"
  | keyExpected => "key must be a string"
  | loneSurrogate => "lone leading surrogate in hex escape"
  | trailingComma => "trailing comma"
  | trailingText => "trailing characters"
  | cutSurrogate => "unexpected end of hex escape"
  | tooDeep => "recursion limit exceeded"

/-- A flaw and its place: the line, counted from one, and the number of bytes of it that are read. -/
structure Error where
  flaw : Flaw
  line : Nat
  column : Nat
  deriving Repr, DecidableEq, Inhabited

def Error.message (e : Error) : String :=
  e.flaw.message ++ " at line " ++ toString e.line ++ " column " ++ toString e.column

/-- What is left to read, and the place where it begins. -/
structure Cursor where
  rest : List Char
  line : Nat
  column : Nat
  deriving Repr, DecidableEq, Inhabited

namespace Cursor

def pass (cur : Cursor) (c : Char) (rest : List Char) : Cursor :=
  if c = '\n' then ⟨rest, cur.line + 1, 0⟩ else ⟨rest, cur.line, cur.column + c.utf8Size⟩

def step (cur : Cursor) : Cursor :=
  match cur.rest with
  | [] => cur
  | c :: rest => cur.pass c rest

def skip : Nat → Cursor → Cursor
  | 0, cur => cur
  | n + 1, cur => skip n cur.step

def fail {α : Type} (cur : Cursor) (flaw : Flaw) : Except Error α := .error ⟨flaw, cur.line, cur.column⟩

/-- An error at the character looked at: its first byte counts as read. -/
def failAhead {α : Type} (cur : Cursor) (flaw : Flaw) : Except Error α :=
  match cur.rest with
  | [] => cur.fail flaw
  | c :: _ =>
    if c = '\n' then .error ⟨flaw, cur.line + 1, 0⟩ else .error ⟨flaw, cur.line, cur.column + 1⟩

/-- The characters that a value may have around it. -/
def isGap (c : Char) : Bool := c == ' ' || c == '\n' || c == '\t' || c == '\r'

def skipWhile (p : Char → Bool) (cur : Cursor) : Cursor :=
  let n := (cur.rest.takeWhile p).length
  cur.skip n

def skipGap (cur : Cursor) : Cursor := cur.skipWhile isGap

end Cursor

/-! ### Strings -/

def hexValue? (c : Char) : Option Nat :=
  if '0' ≤ c ∧ c ≤ '9' then some (c.toNat - 48)
  else if 'a' ≤ c ∧ c ≤ 'f' then some (c.toNat - 87)
  else if 'A' ≤ c ∧ c ≤ 'F' then some (c.toNat - 55)
  else none

def hexFour? : List Char → Option Nat
  | [a, b, c, d] => do
    let a ← hexValue? a
    let b ← hexValue? b
    let c ← hexValue? c
    let d ← hexValue? d
    return ((a * 16 + b) * 16 + c) * 16 + d
  | _ => none

/-- The number that four digits write. Fewer than four bytes end the text; other bytes are no
escape, and count as read even where they cut a character. -/
def readHex (cur : Cursor) : Except Error (Nat × Cursor) :=
  if Text.byteSize (cur.rest.take 4) < 4 then
    let done := cur.skip (cur.rest.length)
    done.fail .endInString
  else
    match hexFour? (cur.rest.take 4) with
    | some n => .ok (n, cur.skip 4)
    | none =>
      let whole := Text.takeBytes 4 cur.rest
      let after := cur.skip whole.length
      .error ⟨.badEscape, after.line, after.column + (4 - Text.byteSize whole)⟩

/-- The character after `\u`, a pair of surrogates taken together. -/
def readUnicode (cur : Cursor) : Except Error (Char × Cursor) := do
  let (n, cur) ← readHex cur
  if 0xdc00 ≤ n ∧ n ≤ 0xdfff then cur.fail .loneSurrogate
  else if n < 0xd800 ∨ 0xdbff < n then return (Char.ofNat n, cur)
  else
    match cur.rest with
    | [] => cur.fail .endInString
    | '\\' :: _ =>
      let cur := cur.step
      match cur.rest with
      | [] => cur.fail .endInString
      | 'u' :: _ =>
        let (m, cur) ← readHex cur.step
        if m < 0xdc00 ∨ 0xdfff < m then cur.fail .loneSurrogate
        else return (Char.ofNat ((n - 0xd800) * 0x400 + (m - 0xdc00) + 0x10000), cur)
      | _ => cur.failAhead .cutSurrogate
    | _ => cur.failAhead .cutSurrogate

def readEscape (cur : Cursor) : Except Error (Char × Cursor) :=
  match cur.rest with
  | [] => cur.fail .endInString
  | c :: _ =>
    let after := cur.step
    match c with
    | '"' | '\\' | '/' => .ok (c, after)
    | 'b' => .ok ('\x08', after)
    | 'f' => .ok ('\x0c', after)
    | 'n' => .ok ('\n', after)
    | 'r' => .ok ('\r', after)
    | 't' => .ok ('\t', after)
    | 'u' => readUnicode after
    | _ => cur.failAhead .badEscape

/-- The rest of a string whose opening quote is read; `acc` holds its characters backwards. -/
def readString : (fuel : Nat) → List Char → Cursor → Except Error (String × Cursor)
  | 0, _, cur => cur.fail .endInString
  | fuel + 1, acc, cur =>
    match cur.rest with
    | [] => cur.fail .endInString
    | '"' :: _ => .ok (String.ofList acc.reverse, cur.step)
    | '\\' :: _ => do
      let (c, cur) ← readEscape cur.step
      readString fuel (c :: acc) cur
    | c :: _ =>
      if c.toNat < 0x20 then cur.failAhead .controlCharacter
      else readString fuel (c :: acc) cur.step

/-! ### Numbers -/

def maxWord : Nat := Nat.pow 2 64 - 1

/-- Digits taken into `n` while the number fits into 64 bits: the number, how many digits it took,
and the cursor after them. -/
def takeDigits : (fuel : Nat) → Nat → Nat → Cursor → Nat × Nat × Cursor
  | 0, n, k, cur => (n, k, cur)
  | fuel + 1, n, k, cur =>
    match cur.rest with
    | c :: _ =>
      if c.isDigit ∧ n * 10 + (c.toNat - 48) ≤ maxWord then
        takeDigits fuel (n * 10 + (c.toNat - 48)) (k + 1) cur.step
      else (n, k, cur)
    | [] => (n, k, cur)

/-- `n · 10 ^ e` in doubles: `n` is rounded first, and then scaled by a rounded power of ten, in
several steps where one power is too small. -/
def scaled (n : Nat) (e : Int) : Option Float :=
  let x := n.toUInt64.toFloat
  if 308 < e then (if x == 0 then some x else none)
  else if 0 ≤ e then
    let y := x * Decimal.toFloat 1 e
    if y.isInf then none else some y
  else some (shrink 20 x e)
where
  /-- Division by powers of ten of at most 308; twenty steps bring every double to zero. -/
  shrink : Nat → Float → Int → Float
    | 0, _, _ => 0
    | k + 1, x, e =>
      if -308 ≤ e then x / Decimal.toFloat 1 (-e)
      else if x == 0 then x
      else shrink k (x / Decimal.toFloat 1 308) (e + 308)

/-- A double with its sign, or an error when it is too large. -/
def finish (negative : Bool) (n : Nat) (e : Int) (cur : Cursor) :
    Except Error (Number × Cursor) :=
  match scaled n e with
  | some x => .ok (.float (if negative then -x else x), cur)
  | none => cur.fail .numberOutOfRange

/-- The rest of an exponent whose `e` is read, applied to `n · 10 ^ e`. -/
def readExponent (negative : Bool) (n : Nat) (e : Int) (cur : Cursor) :
    Except Error (Number × Cursor) :=
  let (down, cur) := match cur.rest with
    | '+' :: _ => (false, cur.step)
    | '-' :: _ => (true, cur.step)
    | _ => (false, cur)
  match cur.rest with
  | [] => cur.fail .endInValue
  | c :: _ =>
    if !c.isDigit then cur.failAhead .badNumber
    else
      let ds := cur.rest.takeWhile Char.isDigit
      let x : Nat := ds.foldl (fun a d => a * 10 + (d.toNat - 48)) 0
      if Nat.pow 2 31 ≤ x then
        if n ≠ 0 ∧ !down then (cur.skip (overflowAt 0 0 ds)).fail .numberOutOfRange
        else .ok (.float (if negative then -0.0 else 0.0), cur.skip ds.length)
      else finish negative n (if down then e - (x : Int) else e + (x : Int)) (cur.skip ds.length)
where
  /-- How many digits are read when an exponent leaves 32 bits. -/
  overflowAt (x k : Nat) : List Char → Nat
    | [] => k
    | d :: ds =>
      let y := x * 10 + (d.toNat - 48)
      if Nat.pow 2 31 ≤ y then k + 1 else overflowAt y (k + 1) ds

/-- The rest of a number that has a point, applied to `n · 10 ^ e`. -/
def readFraction (negative : Bool) (n : Nat) (e : Int) (cur : Cursor) :
    Except Error (Number × Cursor) :=
  let (n, k, after) := takeDigits cur.rest.length n 0 cur
  let dropped := after.skipWhile Char.isDigit
  if k = 0 ∧ dropped.rest.length = cur.rest.length then
    match cur.rest with
    | [] => cur.fail .endInValue
    | _ => cur.failAhead .badNumber
  else
    match dropped.rest with
    | 'e' :: _ | 'E' :: _ => readExponent negative n (e - k) dropped.step
    | _ => finish negative n (e - k) dropped

def readNumber (negative : Bool) (cur : Cursor) : Except Error (Number × Cursor) :=
  match cur.rest with
  | [] => cur.fail .endInValue
  | '0' :: c :: _ =>
    if c.isDigit then cur.step.failAhead .badNumber else continued 0 0 cur.step
  | c :: _ =>
    if c.isDigit then
      let (n, _, after) := takeDigits cur.rest.length 0 0 cur
      let dropped := after.skipWhile Char.isDigit
      continued n (after.rest.length - dropped.rest.length) dropped
    else cur.failAhead .badNumber
where
  /-- What follows the whole digits `n`, of which `k` more did not fit. -/
  continued (n k : Nat) (cur : Cursor) : Except Error (Number × Cursor) :=
    match cur.rest with
    | '.' :: _ => readFraction negative n k cur.step
    | 'e' :: _ | 'E' :: _ => readExponent negative n k cur.step
    | _ =>
      if k ≠ 0 then finish negative n k cur
      else if !negative then .ok (.int n, cur)
      else if n = 0 ∨ Nat.pow 2 63 < n then .ok (.float (-(n.toUInt64.toFloat)), cur)
      else .ok (.int (-(n : Int)), cur)

/-! ### Values -/

def readWord (value : Json) : List Char → Cursor → Except Error (Json × Cursor)
  | [], cur => .ok (value, cur)
  | w :: ws, cur =>
    match cur.rest with
    | [] => cur.fail .endInValue
    | c :: _ =>
      if c = w then readWord value ws cur.step
      else cur.failAhead .wordExpected

mutual

/-- A value; `depth` values may still be opened inside it. -/
def readValue : (fuel depth : Nat) → Cursor → Except Error (Json × Cursor)
  | 0, _, cur => cur.fail .endInValue
  | fuel + 1, depth, cur =>
    let cur := cur.skipGap
    match cur.rest with
    | [] => cur.fail .endInValue
    | 'n' :: _ => readWord .null ['u', 'l', 'l'] cur.step
    | 't' :: _ => readWord (.bool true) ['r', 'u', 'e'] cur.step
    | 'f' :: _ => readWord (.bool false) ['a', 'l', 's', 'e'] cur.step
    | '-' :: _ => do
      let (n, cur) ← readNumber true cur.step
      return (.num n, cur)
    | '"' :: _ => do
      let (s, cur) ← readString cur.rest.length [] cur.step
      return (.str s, cur)
    | '[' :: _ =>
      match depth with
      | 0 => cur.failAhead .tooDeep
      | depth + 1 => do
        let (items, cur) ← readItems fuel depth true [] cur.step
        return (.arr items, cur)
    | '{' :: _ =>
      match depth with
      | 0 => cur.failAhead .tooDeep
      | depth + 1 => do
        let (members, cur) ← readMembers fuel depth true [] cur.step
        return (.obj members, cur)
    | c :: _ =>
      if c.isDigit then do
        let (n, cur) ← readNumber false cur
        return (.num n, cur)
      else cur.failAhead .valueExpected

/-- The rest of a list; `acc` holds the items before, backwards. -/
def readItems : (fuel depth : Nat) → (first : Bool) → List Json → Cursor →
    Except Error (List Json × Cursor)
  | 0, _, _, _, cur => cur.fail .endInList
  | fuel + 1, depth, first, acc, cur =>
    let cur := cur.skipGap
    match cur.rest with
    | [] => cur.fail .endInList
    | ']' :: _ => .ok (acc.reverse, cur.step)
    | c :: _ =>
      if first then do
        let (item, cur) ← readValue fuel depth cur
        readItems fuel depth false (item :: acc) cur
      else if c = ',' then
        let cur := cur.step.skipGap
        match cur.rest with
        | [] => cur.fail .endInValue
        | ']' :: _ => cur.failAhead .trailingComma
        | _ => do
          let (item, cur) ← readValue fuel depth cur
          readItems fuel depth false (item :: acc) cur
      else cur.failAhead .commaOrBracketExpected

/-- The rest of an object; `acc` holds the members before, in order. -/
def readMembers : (fuel depth : Nat) → (first : Bool) → List (String × Json) → Cursor →
    Except Error (List (String × Json) × Cursor)
  | 0, _, _, _, cur => cur.fail .endInObject
  | fuel + 1, depth, first, acc, cur =>
    let cur := cur.skipGap
    match cur.rest with
    | [] => cur.fail .endInObject
    | '}' :: _ => .ok (acc, cur.step)
    | c :: _ =>
      if first then
        if c = '"' then readMember fuel depth acc cur.step else cur.failAhead .keyExpected
      else if c = ',' then
        let cur := cur.step.skipGap
        match cur.rest with
        | [] => cur.fail .endInValue
        | '"' :: _ => readMember fuel depth acc cur.step
        | '}' :: _ => cur.failAhead .trailingComma
        | _ => cur.failAhead .keyExpected
      else cur.failAhead .commaOrBraceExpected

/-- One member whose opening quote is read, and the rest of its object. -/
def readMember : (fuel depth : Nat) → List (String × Json) → Cursor →
    Except Error (List (String × Json) × Cursor)
  | 0, _, _, cur => cur.fail .endInObject
  | fuel + 1, depth, acc, cur => do
    let (key, cur) ← readString (cur.rest.length + 1) [] cur
    let cur := cur.skipGap
    match cur.rest with
    | [] => cur.fail .endInObject
    | ':' :: _ => do
      let (value, cur) ← readValue fuel depth cur.step
      readMembers fuel depth false (insertMember key value acc) cur
    | _ => cur.failAhead .colonExpected

end

def parse (cs : List Char) : Except Error Json := do
  let (value, cur) ← readValue (3 * cs.length + 3) 127 ⟨cs, 1, 0⟩
  let cur := cur.skipGap
  match cur.rest with
  | [] => return value
  | _ => cur.failAhead .trailingText

end Stencil.Json
