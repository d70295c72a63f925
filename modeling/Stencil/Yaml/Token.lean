import Stencil.Yaml.Scalar

/-!
# Tokens of YAML texts

A text falls into tokens, and the indentation of its lines gives tokens of its own. That a scalar is a
key shows only at the colon after it: a place where a key could begin is remembered, and the tokens
that open a key are put in front of it later.
-/

namespace Stencil.Yaml

inductive Token where
  | streamEnd
  | version (major minor : Nat)
  | tagHandle (handle start : List Char)
  | documentStart
  | documentEnd
  | blockSequenceStart
  | blockMappingStart
  | blockEnd
  | flowSequenceStart
  | flowSequenceEnd
  | flowMappingStart
  | flowMappingEnd
  | blockEntry
  | flowEntry
  | key
  | value
  | alias (name : List Char)
  | anchor (name : List Char)
  | tag (handle suffix : List Char)
  | scalar (plain : Bool) (text : List Char)
  deriving Repr, DecidableEq, Inhabited

/-- A place where a key could begin. -/
structure KeyPlace where
  /-- Whether a colon has to follow. -/
  required : Bool
  /-- The number of tokens before it. -/
  number : Nat
  index : Nat
  line : Nat
  column : Nat
  deriving Repr, DecidableEq, Inhabited

/-- What is read so far. -/
structure Scan where
  cur : Cursor
  /-- The number of brackets that are open. -/
  flow : Nat := 0
  /-- The column of the innermost block, -1 at the top. -/
  indent : Int := -1
  outer : List Int := []
  /-- For each open bracket and the top, the place where a key could begin; the innermost first. -/
  places : List (Option KeyPlace) := [none]
  /-- Whether a key may begin here. -/
  keyAllowed : Bool := true
  /-- The tokens so far, the last one first. -/
  tokens : List Token := []
  count : Nat := 0
  deriving Inhabited

namespace Scan

def push (t : Token) (s : Scan) : Scan := { s with tokens := t :: s.tokens, count := s.count + 1 }

/-- Puts a token in front of the token with the given number. -/
def pushAt (number : Nat) (t : Token) (s : Scan) : Scan :=
  let later := s.count - number
  { s with
    tokens := s.tokens.take later ++ t :: s.tokens.drop later
    count := s.count + 1 }

/-! ### Keys -/

/-- Whether a key that begins at a place can no longer end here: it has one line and at most 1024
characters. -/
def isStale (cur : Cursor) (p : KeyPlace) : Bool := p.line < cur.line || p.index + 1024 < cur.index

def dropStale (s : Scan) : Option Scan :=
  if s.places.any (fun p => p.any fun p => isStale s.cur p && p.required) then none
  else some { s with places := s.places.map fun p => p.filter fun p => !isStale s.cur p }

def dropPlace (s : Scan) : Option Scan :=
  match s.places with
  | some p :: rest => if p.required then none else some { s with places := none :: rest }
  | _ => some s

/-- Remembers that a key could begin here. -/
def savePlace (s : Scan) : Option Scan :=
  if s.keyAllowed then do
    let s ← s.dropPlace
    let required := s.flow == 0 && s.indent == s.cur.column
    let p : KeyPlace := ⟨required, s.count, s.cur.index, s.cur.line, s.cur.column⟩
    return { s with places := some p :: s.places.drop 1 }
  else some s

/-! ### Indentation -/

/-- Opens a block at a column, if it lies inside the present one; the token that opens it goes in
front of the token with the given number. -/
def openBlock (column : Nat) (number : Nat) (t : Token) (s : Scan) : Scan :=
  if s.flow == 0 && s.indent < column then
    { s with indent := column, outer := s.indent :: s.outer }.pushAt number t
  else s

/-- Closes the blocks that lie inside a column. -/
def closeBlocks (column : Int) : (fuel : Nat) → Scan → Scan
  | 0, s => s
  | fuel + 1, s =>
    if s.flow == 0 && column < s.indent then
      closeBlocks column fuel
        ({ s with indent := s.outer.headD (-1), outer := s.outer.drop 1 }.push .blockEnd)
    else s

def closeTo (column : Int) (s : Scan) : Scan := closeBlocks column (s.outer.length + 1) s

/-- Passes blanks, comments and line breaks before a token. -/
def skipGaps : (fuel : Nat) → Scan → Scan
  | 0, s => s
  | fuel + 1, s =>
    let blank (c : Char) := c == ' ' || ((s.flow != 0 || !s.keyAllowed) && c == '\t')
    let cur := s.cur.skipWhile blank
    let cur := if cur.at? 0 (· == '#') then cur.skipWhile fun c => !isBreak c else cur
    if cur.at? 0 isBreak then
      skipGaps fuel
        { s with cur := cur.readBreak.2, keyAllowed := s.keyAllowed || s.flow == 0 }
    else { s with cur := cur }

/-! ### Directives -/

/-- A number of at most nine digits. -/
def number? (cur : Cursor) : Option (Nat × Cursor) :=
  let ds := cur.rest.takeWhile Char.isDigit
  if ds.isEmpty ∨ 9 < ds.length then none
  else some (ds.foldl (fun n d => n * 10 + (d.toNat - 48)) 0, cur.skip ds.length)

/-- The byte that an escape of a tag stands for. -/
def escapedByte? (cs : List Char) : Option UInt8 :=
  match cs with
  | '%' :: a :: b :: _ => do
    let a ← Json.hexValue? a
    let b ← Json.hexValue? b
    return UInt8.ofNat (a * 16 + b)
  | _ => none

/-- A character that is escaped byte by byte in a tag, and the number of its bytes. -/
def escapedChar? (cs : List Char) : Option (Char × Nat) := do
  let first ← escapedByte? cs
  let n := if first < 0x80 then 1 else if first < 0xe0 then 2 else if first < 0xf0 then 3 else 4
  let bytes ← (List.range n).mapM fun k => escapedByte? (cs.drop (3 * k))
  match (← String.fromUTF8? (ByteArray.mk bytes.toArray)).toList with
  | [c] => return (c, n)
  | _ => none

/-- Characters of a tag; some marks only count inside angle brackets. -/
def isTagChar (verbatim : Bool) (c : Char) : Bool :=
  isNameChar c || ";/?:@&=+$.%!~*'()".toList.contains c || (verbatim && ",[]".toList.contains c)

def readTagChars (verbatim : Bool) : (fuel : Nat) → List Char → Cursor → Option (List Char × Cursor)
  | 0, acc, cur => some (acc.reverse, cur)
  | fuel + 1, acc, cur =>
    match cur.rest with
    | '%' :: _ => do
      let (c, n) ← escapedChar? cur.rest
      readTagChars verbatim fuel (c :: acc) (cur.skip (3 * n))
    | c :: _ =>
      if isTagChar verbatim c then readTagChars verbatim fuel (c :: acc) (cur.skip 1)
      else some (acc.reverse, cur)
    | [] => some (acc.reverse, cur)

def tagChars? (verbatim : Bool) (cur : Cursor) : Option (List Char × Cursor) :=
  readTagChars verbatim (cur.rest.length + 1) [] cur

/-- The handle of a tag: an exclamation mark, and perhaps a name and another mark. -/
def handle? (cur : Cursor) : Option (List Char × Cursor) :=
  match cur.rest with
  | '!' :: rest =>
    let name := rest.takeWhile isNameChar
    let cur := cur.skip (name.length + 1)
    if cur.at? 0 (· == '!') then some ('!' :: name ++ ['!'], cur.skip 1) else some ('!' :: name, cur)
  | _ => none

def readDirective (cur : Cursor) : Option (Token × Cursor) := do
  let cur := cur.skip 1
  let name := cur.rest.takeWhile isNameChar
  let cur := cur.skip name.length
  guard (name ≠ [] ∧ cur.gapAt 0)
  let (token, cur) ←
    if name = "YAML".toList then do
      let (major, cur) ← number? (cur.skipWhile isBlank)
      guard (cur.at? 0 (· == '.'))
      let (minor, cur) ← number? (cur.skip 1)
      pure (Token.version major minor, cur)
    else if name = "TAG".toList then do
      let (handle, cur) ← handle? (cur.skipWhile isBlank)
      guard (handle = ['!'] ∨ (handle.length > 1 ∧ handle.getLast? = some '!'))
      guard (cur.at? 0 isBlank)
      let (start, cur) ← tagChars? true (cur.skipWhile isBlank)
      guard (start ≠ [] ∧ cur.gapAt 0)
      pure (Token.tagHandle handle start, cur)
    else none
  let cur := cur.skipComment
  guard cur.atLineEnd
  return (token, cur.readBreak.2)

/-! ### Anchors and tags -/

def readAnchor (cur : Cursor) : Option (List Char × Cursor) :=
  let cur := cur.skip 1
  let name := cur.rest.takeWhile isNameChar
  let cur := cur.skip name.length
  if name ≠ [] ∧ (cur.gapAt 0 ∨ cur.at? 0 fun c => "?:,]\x7d%@`".toList.contains c) then some (name, cur)
  else none

def readTag (flow : Bool) (cur : Cursor) : Option (Token × Cursor) := do
  let (token, cur) ←
    if cur.at? 1 (· == '<') then do
      let (suffix, cur) ← tagChars? true (cur.skip 2)
      guard (suffix ≠ [] ∧ cur.at? 0 (· == '>'))
      pure (Token.tag [] suffix, cur.skip 1)
    else do
      let (handle, cur) ← handle? cur
      let (suffix, cur) ← tagChars? false cur
      if handle.length > 1 ∧ handle.getLast? = some '!' then do
        guard (suffix ≠ [])
        pure (Token.tag handle suffix, cur)
      else
        let suffix := handle.drop 1 ++ suffix
        pure (if suffix = [] then Token.tag [] ['!'] else Token.tag ['!'] suffix, cur)
  guard (cur.gapAt 0 ∨ (flow ∧ cur.at? 0 (· == ',')))
  return (token, cur)

/-! ### Single tokens -/

/-- Leaves all blocks, before a directive or the border of a document. -/
def leave (s : Scan) : Option Scan := do
  let s ← (s.closeTo (-1)).dropPlace
  return { s with keyAllowed := false }

/-- A token of one character that closes or parts, after which a key may begin or not. -/
def mark (t : Token) (keyAllowed : Bool) (s : Scan) : Option Scan := do
  let s ← s.dropPlace
  return { s with keyAllowed, cur := s.cur.skip 1 }.push t

def openFlow (t : Token) (s : Scan) : Option Scan := do
  let s ← s.savePlace
  return { s with
    places := none :: s.places, flow := s.flow + 1, keyAllowed := true, cur := s.cur.skip 1 }.push t

def closeFlow (t : Token) (s : Scan) : Option Scan := do
  let s ← s.dropPlace
  let s := if s.flow = 0 then s else { s with flow := s.flow - 1, places := s.places.drop 1 }
  return { s with keyAllowed := false, cur := s.cur.skip 1 }.push t

def entry (s : Scan) : Option Scan :=
  if s.flow = 0 then
    if s.keyAllowed then
      (s.openBlock s.cur.column s.count .blockSequenceStart).mark .blockEntry true
    else none
  else s.mark .blockEntry true

def key (s : Scan) : Option Scan :=
  if s.flow = 0 then
    if s.keyAllowed then (s.openBlock s.cur.column s.count .blockMappingStart).mark .key true
    else none
  else s.mark .key false

def value (s : Scan) : Option Scan :=
  match s.places with
  | some p :: rest =>
    let s := (s.pushAt p.number .key).openBlock p.column p.number .blockMappingStart
    some ({ s with places := none :: rest, keyAllowed := false, cur := s.cur.skip 1 }.push .value)
  | _ =>
    if s.flow = 0 then
      if s.keyAllowed then
        let s := s.openBlock s.cur.column s.count .blockMappingStart
        some ({ s with keyAllowed := true, cur := s.cur.skip 1 }.push .value)
      else none
    else some ({ s with keyAllowed := false, cur := s.cur.skip 1 }.push .value)

/-- A token that a key may begin with. -/
def inKey (read : Cursor → Option (Token × Cursor)) (s : Scan) : Option Scan := do
  let s ← s.savePlace
  let (t, cur) ← read s.cur
  return { s with keyAllowed := false, cur }.push t

/-- A plain scalar; after line breaks a key may begin. -/
def plain (s : Scan) : Option Scan := do
  let s ← s.savePlace
  let (text, broken, cur) ←
    readPlain (s.flow != 0) (s.indent + 1).toNat (s.cur.rest.length + 1) [] {} s.cur
  return { s with keyAllowed := broken, cur }.push (.scalar true text)

def block (literal : Bool) (s : Scan) : Option Scan := do
  let s ← s.dropPlace
  let (text, cur) ← readBlock literal s.indent (s.cur.skip 1)
  return { s with keyAllowed := true, cur }.push (.scalar false text)

/-- Whether a plain scalar may begin here. -/
def startsPlain (s : Scan) : Bool :=
  match s.cur.rest with
  | [] => false
  | c :: _ =>
    (!isBlank c && !isBreak c && !"-?:,[]\x7b\x7d#&*!|>'\"%@`".toList.contains c) ||
      ((c == '-' || (s.flow == 0 && (c == '?' || c == ':'))) && !s.cur.gapAt 1)

/-- The next tokens; at the end of the text nothing is left of it. -/
def next (s : Scan) : Option (Bool × Scan) := do
  let s := s.skipGaps (s.cur.rest.length + 1)
  let s ← s.dropStale
  let s := s.closeTo s.cur.column
  let more (s : Option Scan) : Option (Bool × Scan) := s.map (true, ·)
  match s.cur.rest with
  | [] => do
    let s ← (s.closeTo (-1)).dropPlace
    return (false, s.push .streamEnd)
  | c :: _ =>
    if s.cur.column = 0 ∧ c = '%' then do
      let s ← s.leave
      let (t, cur) ← readDirective s.cur
      return (true, { s with cur }.push t)
    else if s.cur.atMark '-' then do
      let s ← s.leave
      return (true, { s with cur := s.cur.skip 3 }.push .documentStart)
    else if s.cur.atMark '.' then do
      let s ← s.leave
      return (true, { s with cur := s.cur.skip 3 }.push .documentEnd)
    else
      match c with
      | '[' => more (s.openFlow .flowSequenceStart)
      | '{' => more (s.openFlow .flowMappingStart)
      | ']' => more (s.closeFlow .flowSequenceEnd)
      | '}' => more (s.closeFlow .flowMappingEnd)
      | ',' => more (s.mark .flowEntry true)
      | '*' => more (s.inKey fun cur => (readAnchor cur).map fun (n, cur) => (.alias n, cur))
      | '&' => more (s.inKey fun cur => (readAnchor cur).map fun (n, cur) => (.anchor n, cur))
      | '!' => more (s.inKey (readTag (s.flow != 0)))
      | '\'' | '"' =>
        more <| s.inKey fun cur =>
          (readQuoted c (cur.rest.length + 1) [] (cur.skip 1)).map fun (t, cur) => (.scalar false t, cur)
      | _ =>
        let gap := s.cur.gapAt 1
        if c = '-' ∧ gap then more s.entry
        else if c = '?' ∧ (s.flow ≠ 0 ∨ gap) then more s.key
        else if c = ':' ∧ (s.flow ≠ 0 ∨ gap) then more s.value
        else if c = '|' ∧ s.flow = 0 then more (s.block true)
        else if c = '>' ∧ s.flow = 0 then more (s.block false)
        else if s.startsPlain then more s.plain
        else none

def all : (fuel : Nat) → Scan → Option (List Token)
  | 0, _ => none
  | fuel + 1, s => do
    let (more, s) ← s.next
    if more then all fuel s else return s.tokens.reverse

end Scan

/-- The tokens of a text, or nothing when it is malformed. -/
def tokens? (cs : List Char) : Option (List Token) :=
  let cs := match cs with
    | '\ufeff' :: rest => rest
    | cs => cs
  if cs.all isAllowed then Scan.all (cs.length + 2) { cur := ⟨cs, 0, 0, 0⟩ } else none

end Stencil.Yaml
