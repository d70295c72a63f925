import Stencil.Text.Search

/-!
# Places in a YAML text

What is left to read, with the number of characters before it, its line and its column, all counted
from zero. Five kinds of line breaks count.
-/

namespace Stencil.Yaml

def isBreak (c : Char) : Bool :=
  c == '\n' || c == '\r' || c == '\u0085' || c == '\u2028' || c == '\u2029'

def isBlank (c : Char) : Bool := c == ' ' || c == '\t'

def isNameChar (c : Char) : Bool := c.isAlphanum || c == '_' || c == '-'

/-- Characters that a text may hold at all. -/
def isAllowed (c : Char) : Bool :=
  let n := c.toNat
  n == 0x09 || n == 0x0a || n == 0x0d || (0x20 ≤ n && n ≤ 0x7e) || n == 0x85 ||
    (0xa0 ≤ n && n ≤ 0xd7ff) || (0xe000 ≤ n && n ≤ 0xfffd) || 0x10000 ≤ n

/-- What is left of a text, and where it begins. -/
structure Cursor where
  rest : List Char
  index : Nat := 0
  line : Nat := 0
  column : Nat := 0
  deriving Repr, DecidableEq, Inhabited

namespace Cursor

/-- The cursor after `n` characters of the same line. -/
def skip (n : Nat) (cur : Cursor) : Cursor :=
  let k := min n cur.rest.length
  ⟨cur.rest.drop n, cur.index + k, cur.line, cur.column + k⟩

/-- The cursor after the characters of the same line that satisfy `p`. -/
def skipWhile (p : Char → Bool) (cur : Cursor) : Cursor :=
  cur.skip (cur.rest.takeWhile p).length

/-- The characters that a line break stands for, and the cursor after it. -/
def readBreak (cur : Cursor) : List Char × Cursor :=
  match cur.rest with
  | '\r' :: '\n' :: rest => (['\n'], ⟨rest, cur.index + 2, cur.line + 1, 0⟩)
  | c :: rest =>
    if c == '\u2028' || c == '\u2029' then ([c], ⟨rest, cur.index + 1, cur.line + 1, 0⟩)
    else if isBreak c then (['\n'], ⟨rest, cur.index + 1, cur.line + 1, 0⟩)
    else ([], cur)
  | [] => ([], cur)

/-- Whether the character at offset `n` satisfies `p`. -/
def at? (n : Nat) (p : Char → Bool) (cur : Cursor) : Bool := (cur.rest[n]?).any p

/-- Whether a blank, a line break or the end is at offset `n`. -/
def gapAt (n : Nat) (cur : Cursor) : Bool :=
  match cur.rest[n]? with
  | some c => isBlank c || isBreak c
  | none => true

def atLineEnd (cur : Cursor) : Bool :=
  match cur.rest with
  | c :: _ => isBreak c
  | [] => true

/-- Whether a line begins with three of `mark`, which separate documents. -/
def atMark (mark : Char) (cur : Cursor) : Bool :=
  cur.column == 0 && cur.rest.take 3 == [mark, mark, mark] && cur.gapAt 3

/-- The cursor after blanks and a comment. -/
def skipComment (cur : Cursor) : Cursor :=
  let cur := cur.skipWhile isBlank
  if cur.at? 0 (· == '#') then cur.skipWhile fun c => !isBreak c else cur

end Cursor

end Stencil.Yaml
