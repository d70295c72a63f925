import Stencil.Text.Word

/-!
# Layout of scripts

Ends of lines and indentation are tokens only where they may stand. What lies before the next token
is read with a set of expectations: an end of line is skipped where neither an end of statement, nor
a deeper block, nor the end of a block is looked for. A block ends where a line is indented less
than the block, comments at the block's depth still belonging to it.
-/

namespace Stencil.Script

structure Cursor where
  rest : List Char
  /-- The byte offset of `rest`. -/
  offset : Nat := 0
  /-- The depths of the open blocks, the innermost first. -/
  depths : List Nat := []
  /-- Whether the innermost string begun last, and not ended, has interpolations. -/
  inFormat : Bool := false
  deriving Repr, DecidableEq, Inhabited

namespace Cursor

def depth (cur : Cursor) : Nat := cur.depths.headD 0

/-- The characters and the number of bytes after those that satisfy `p`. -/
def dropping (p : Char → Bool) (offset : Nat) : List Char → List Char × Nat
  | [] => ([], offset)
  | c :: cs => if p c then dropping p (offset + c.utf8Size) cs else (c :: cs, offset)

theorem length_dropping_le (p : Char → Bool) (offset : Nat) (cs : List Char) :
    (dropping p offset cs).1.length ≤ cs.length := by
  induction cs generalizing offset with
  | nil => exact Nat.le_refl _
  | cons c cs ih =>
    simp only [dropping]
    split
    · exact Nat.le_succ_of_le (ih _)
    · exact Nat.le_refl _

def skipWhile (p : Char → Bool) (cur : Cursor) : Cursor :=
  let after := dropping p cur.offset cur.rest
  { cur with rest := after.1, offset := after.2 }

theorem length_skipWhile_le (p : Char → Bool) (cur : Cursor) :
    (cur.skipWhile p).rest.length ≤ cur.rest.length := length_dropping_le p _ _

def skip : Nat → Cursor → Cursor
  | 0, cur => cur
  | n + 1, cur =>
    match cur.rest with
    | [] => cur
    | c :: cs => skip n { cur with rest := cs, offset := cur.offset + c.utf8Size }

end Cursor

/-- What may stand at a place, as far as layout depends on it. -/
structure Expectation where
  newline : Bool := false
  indent : Bool := false
  dedent : Bool := false
  /-- A further clause of a `try` statement. -/
  except : Bool := false
  string : Bool := false
  close : Bool := false
  deriving Repr, DecidableEq, Inhabited

/-- Whether comments on lines of their own are passed over in search of the next depth. -/
def Expectation.passesComments (e : Expectation) : Bool :=
  e.newline || e.indent || e.dedent || e.except

structure Gap where
  endsLine : Bool
  /-- The depth of the last line. -/
  depth : Nat
  /-- The depth of the first comment passed over. -/
  comment : Option Nat
  rest : List Char
  offset : Nat
  deriving Repr, DecidableEq, Inhabited

/-- Reads what lies before a token: blanks, ends of lines, joined lines, and perhaps comments. There
is none when a comment ends the line or a backslash joins nothing. -/
def readGap (passes : Bool) (inComment : Bool) (g : Gap) : List Char → Option Gap
  | [] => some { g with endsLine := true, depth := 0, rest := [] }
  | c :: cs =>
    let after (n : Nat) : Gap := { g with depth := n, offset := g.offset + c.utf8Size }
    if inComment then
      readGap passes (c != '\n' && c != '\x00') (after 0) cs
    else if c = '\n' then readGap passes false { after 0 with endsLine := true } cs
    else if c = ' ' then readGap passes false (after (g.depth + 1)) cs
    else if c = '\t' then readGap passes false (after (g.depth + 8)) cs
    else if c = '\r' ∨ c = '\x0c' then readGap passes false (after 0) cs
    else if c = '#' ∧ passes = true then
      if g.endsLine then
        readGap passes true { after g.depth with comment := g.comment <|> some g.depth } cs
      else none
    else if c = '\\' then
      match cs with
      | '\n' :: cs => readGap passes false { g with offset := g.offset + 2 } cs
      | ['\r'] => readGap passes false { g with offset := g.offset + 2 } []
      | '\r' :: '\n' :: cs => readGap passes false { g with offset := g.offset + 3 } cs
      | [] => readGap passes false { g with offset := g.offset + 1 } []
      | _ => none
    else some { g with rest := c :: cs }

/-- Blanks between tokens. -/
def isGapChar (c : Char) : Bool :=
  let n := c.toNat
  (0x09 ≤ n && n ≤ 0x0d) || n == 0x20 || n == 0x85 || n == 0xa0 || n == 0x1680 ||
    (0x2000 ≤ n && n ≤ 0x200b) || n == 0x2028 || n == 0x2029 || n == 0x202f || n == 0x205f ||
    n == 0x2060 || n == 0x3000 || n == 0xfeff

/-- Characters that may stand before the quote of a string. -/
def isStringLetter (c : Char) : Bool := "fFrRbBuU".toList.contains c

def isQuote (c : Char) : Bool := c == '"' || c == '\'' || c == '`'

def opensString (cs : List Char) : Bool := ((cs.dropWhile isStringLetter).head?).any isQuote

/-- What comes next. A token is given by the cursor at its first character. -/
inductive Ahead where
  | newline
  | indent (depth : Nat)
  | dedent
  | string (cur : Cursor)
  | token (cur : Cursor)
  deriving Repr, DecidableEq, Inhabited

/-- Whether a gap ends the innermost block, though the end of a block may not be looked for. -/
def endsBlock (e : Expectation) (cur : Cursor) (g : Gap) : Bool :=
  (e.dedent || (!e.newline && !(e.string && (g.rest.head?).any isQuote) && !e.close)) &&
    g.depth < cur.depth && !cur.inFormat && g.comment.all (· < cur.depth)

/-- The layout token that a gap stands for. -/
def layout? (e : Expectation) (cur : Cursor) (g : Gap) : Option Ahead :=
  if !g.endsLine then none
  else if e.indent && cur.depth < g.depth then some (.indent g.depth)
  else if endsBlock e cur g then some .dedent
  else if e.newline then some .newline
  else none

/-- What the gap before the next token already decides: a layout token, or a string. -/
def decided? (e : Expectation) (cur : Cursor) : Option Ahead := do
  let g ← readGap e.passesComments false ⟨false, 0, none, [], cur.offset⟩ cur.rest
  match layout? e cur g with
  | some ahead => some ahead
  | none =>
    if e.string && g.comment.isNone && opensString g.rest then
      some (.string { cur with rest := g.rest, offset := g.offset })
    else none

/-- What comes next after blanks, comments and joined lines. -/
def Cursor.ahead (e : Expectation) (cur : Cursor) : Ahead :=
  match decided? e cur with
  | some ahead => ahead
  | none =>
    match h : (cur.skipWhile isGapChar).rest with
    | '#' :: rest =>
      have := cur.length_skipWhile_le isGapChar
      have := Cursor.length_dropping_le (· != '\n') ((cur.skipWhile isGapChar).offset + 1) rest
      Cursor.ahead e { cur with
        rest := (Cursor.dropping (· != '\n') ((cur.skipWhile isGapChar).offset + 1) rest).1,
        offset := (Cursor.dropping (· != '\n') ((cur.skipWhile isGapChar).offset + 1) rest).2 }
    | '\\' :: '\n' :: rest =>
      have := cur.length_skipWhile_le isGapChar
      Cursor.ahead e { cur with rest, offset := (cur.skipWhile isGapChar).offset + 2 }
    | '\\' :: '\r' :: '\n' :: rest =>
      have := cur.length_skipWhile_le isGapChar
      Cursor.ahead e { cur with rest, offset := (cur.skipWhile isGapChar).offset + 3 }
    | ['\\'] =>
      have := cur.length_skipWhile_le isGapChar
      Cursor.ahead e { cur with rest := [], offset := (cur.skipWhile isGapChar).offset + 1 }
    | '\\' :: '\x00' :: rest =>
      have := cur.length_skipWhile_le isGapChar
      Cursor.ahead e { cur with rest, offset := (cur.skipWhile isGapChar).offset + 2 }
    | _ => .token (cur.skipWhile isGapChar)
  termination_by cur.rest.length
  decreasing_by all_goals (simp_all; omega)

end Stencil.Script
