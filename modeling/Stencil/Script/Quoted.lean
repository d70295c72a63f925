import Stencil.Script.Parse
import Stencil.Text.Word

/-!
# Strings in scripts

A string has letters before its quotes that say how it is read: with interpolations, with
backslashes as they stand, or as bytes. Its parts are its opening, its contents, its interpolations
and its end; escapes are parts of the contents.
-/

namespace Stencil.Script

structure Quoting where
  format : Bool
  raw : Bool
  bytes : Bool
  quote : Char
  triple : Bool
  deriving Repr, DecidableEq, Inhabited

namespace Quoting

def ofText? (cs : List Char) : Option (Quoting × Nat) :=
  let letters := cs.takeWhile isStringLetter
  let has (c d : Char) : Bool := letters.any fun x => x == c || x == d
  match cs.drop letters.length with
  | c :: rest =>
    let triple := c != '`' && [c, c].isPrefixOf rest
    if isQuote c then
      some (⟨has 'f' 'F', has 'r' 'R', has 'b' 'B', c, triple⟩,
        letters.length + if triple then 3 else 1)
    else none
  | [] => none

def closes (q : Quoting) (cs : List Char) : Bool :=
  (if q.triple then [q.quote, q.quote, q.quote] else [q.quote]).isPrefixOf cs

def closeLength (q : Quoting) : Nat := if q.triple then 3 else 1

/-- Characters that do not stand for themselves everywhere. -/
def isSpecial (q : Quoting) (c : Char) : Bool :=
  c == q.quote || c == '\\' || c == '\n' || c == '\x7b' || c == '\x7d' || c == '\x00'

end Quoting

/-- Hexadecimal digits of escapes. -/
def isEscapeDigit (c : Char) : Bool := Number.isHexDigit c || Text.isDecimalDigit c

/-- `n`, when a text begins with `n` hexadecimal digits. -/
def hexDigits (n : Nat) (cs : List Char) : Nat :=
  if (cs.take n).length = n ∧ (cs.take n).all isEscapeDigit = true then n else 0

/-- The length of the escape after a backslash, or zero. -/
def escapeLength : List Char → Nat
  | 'u' :: cs => let n := hexDigits 4 cs; if n = 0 then 0 else n + 1
  | 'U' :: cs => let n := hexDigits 8 cs; if n = 0 then 0 else n + 1
  | 'x' :: cs => let n := hexDigits 2 cs; if n = 0 then 0 else n + 1
  | '\n' :: _ => 1
  | '\r' :: '\n' :: _ => 2
  | 'N' :: '\x7b' :: cs =>
    let name := cs.takeWhile (· != '\x7d')
    if name.isEmpty || name.length = cs.length then 0 else name.length + 3
  | c :: cs =>
    if Text.isDecimalDigit c then 1 + ((cs.take 2).takeWhile Text.isDecimalDigit).length
    else if "'\"abfrntv\\".toList.contains c then 1
    else 0
  | [] => 0

/-- The number of characters that a backslash takes with it where backslashes stand as they are. -/
def rawLength (q : Quoting) (cs : List Char) : Nat :=
  let n := if (cs.head?).any (fun c => c == q.quote || c == '\\') then 1 else 0
  match cs.drop n with
  | '\r' :: '\n' :: _ => n + 2
  | '\r' :: _ | '\n' :: _ => n + 1
  | _ => n

namespace Deeper

open Parse

/-- Reads contents up to an interpolation or the end of the string, and gives its escapes. `fresh`
says whether nothing was read since the opening or the last escape: a line may end only there, unless
the quotes are triple. -/
def contents (q : Quoting) : (n : Nat) → (fresh : Bool) → Parse (List Node)
  | 0, _ => failure
  | n + 1, fresh => do
    let cur ← get
    let plain := cur.skipWhile fun c => !q.isSpecial c
    if plain.offset ≠ cur.offset then
      set plain
      contents q n false
    else
      let escape (k : Nat) : Parse (List Node) := do
        take cur k
        let e ← node .escape cur.offset []
        return e :: (← contents q n true)
      match cur.rest with
      | [] | '\x00' :: _ => failure
      | '\n' :: _ =>
        if fresh || q.triple then
          take cur 1
          contents q n false
        else failure
      | '\\' :: rest =>
        if q.raw then
          take cur (1 + rawLength q rest)
          contents q n fresh
        else if q.bytes && (rest.head?).any "NuU".toList.contains then
          take cur 3
          contents q n false
        else
          match escapeLength rest with
          | 0 =>
            take cur 1
            contents q n true
          | k => escape (k + 1)
      | c :: rest =>
        if c = q.quote then
          if q.closes cur.rest then return []
          else
            take cur (if rest.head? = some c then 2 else 1)
            contents q n true
        else if q.format then
          if rest.head? = some c then escape 2
          else if c = '\x7b' then return []
          else failure
        else
          take cur 1
          contents q n false

/-- Reads the parts of a string behind its opening. -/
def stringParts (d : Deeper) (q : Quoting) : (n : Nat) → Parse (List Node)
  | 0 => failure
  | n + 1 => do
    let start ← offset
    let escapes ← contents q d.bound true
    let text ← node .stringContent start escapes
    let here := if start < text.stop then [text] else []
    let cur ← get
    if q.closes cur.rest then
      set { cur.skip q.closeLength with inFormat := false }
      return here ++ [← node .stringEnd cur.offset []]
    else
      let inner ← d.parse .interpolation
      return here ++ inner :: (← d.stringParts q n)

def quoted (d : Deeper) (cur : Cursor) : Parse Node := do
  match Quoting.ofText? cur.rest with
  | none => failure
  | some (q, n) =>
    set { cur.skip n with inFormat := q.format }
    let opening ← node .stringStart cur.offset []
    let parts ← d.stringParts q d.bound
    node .string cur.offset (opening :: parts)

/-- Reads the string at a cursor and the strings right behind it. -/
def strings (d : Deeper) (a : Around) (cur : Cursor) : Parse Node := do
  let first ← d.quoted cur
  let others ← many d.bound do
    match ← ahead { a.expectation with string := true } with
    | .string next => some <$> d.quoted next
    | _ => return none
  if others.isEmpty then return first
  else node .concatenatedString first.start (first :: others)

/-- Reads the specification of a format: texts and interpolations up to a closing brace. -/
def specification (d : Deeper) : (n : Nat) → Parse (List Node)
  | 0 => failure
  | n + 1 => do
    let cur := (← get).skipWhile fun c => c != '\x7b' && c != '\x7d'
    set cur
    match cur.rest with
    | '\x7b' :: _ =>
      let inner ← d.parse .interpolation
      return inner :: (← d.specification n)
    | _ => return []

end Deeper

end Stencil.Script
