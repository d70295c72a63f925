import Stencil.Json.Reader
import Stencil.Yaml.Cursor

/-!
# Scalars of YAML texts

How the characters of a scalar are read. A scalar may go on over several lines: one line break
between two lines stands for a space, and of more breaks the first one is dropped.
-/

namespace Stencil.Yaml

/-! ### Blanks inside a scalar -/

/-- Blanks and line breaks between two parts of a scalar. -/
structure Gap where
  spaces : List Char := []
  /-- The first line break, once there is one. -/
  first : List Char := []
  /-- The line breaks after the first one. -/
  more : List Char := []
  broken : Bool := false
  deriving Repr, DecidableEq, Inhabited

/-- The characters that a gap stands for. -/
def Gap.fold (g : Gap) : List Char :=
  if g.broken then
    if g.first.head? = some '\n' then (if g.more.isEmpty then [' '] else g.more)
    else g.first ++ g.more
  else g.spaces

/-- Reads blanks and line breaks; after a break, a tab left of column `limit` is refused. -/
def readGap (limit : Nat) : (fuel : Nat) → Gap → Cursor → Option (Gap × Cursor)
  | 0, g, cur => some (g, cur)
  | fuel + 1, g, cur =>
    match cur.rest with
    | c :: _ =>
      if isBlank c then
        if g.broken then
          if c = '\t' ∧ cur.column < limit then none else readGap limit fuel g (cur.skip 1)
        else readGap limit fuel { g with spaces := g.spaces ++ [c] } (cur.skip 1)
      else if isBreak c then
        let (text, cur) := cur.readBreak
        if g.broken then readGap limit fuel { g with more := g.more ++ text } cur
        else readGap limit fuel { g with spaces := [], first := text, broken := true } cur
      else some (g, cur)
    | [] => some (g, cur)

/-! ### Plain scalars -/

def isFlowMark (c : Char) : Bool := c == ',' || c == '[' || c == ']' || c == '{' || c == '}'

/-- The characters of a plain scalar up to a blank or an end. Inside brackets a colon may not stand
before a mark of the brackets. -/
def readPlainRun (flow : Bool) : (fuel : Nat) → List Char → Cursor → Option (List Char × Cursor)
  | 0, acc, cur => some (acc.reverse, cur)
  | fuel + 1, acc, cur =>
    match cur.rest with
    | c :: _ =>
      if isBlank c || isBreak c then some (acc.reverse, cur)
      else if flow && c == ':' && cur.at? 1 (fun d => isFlowMark d || d == '?') then none
      else if (c == ':' && cur.gapAt 1) || (flow && isFlowMark c) then some (acc.reverse, cur)
      else readPlainRun flow fuel (c :: acc) (cur.skip 1)
    | [] => some (acc.reverse, cur)

/-- A plain scalar, and whether line breaks follow it. Outside brackets it ends at a line that begins
left of column `limit`. -/
def readPlain (flow : Bool) (limit : Nat) :
    (fuel : Nat) → List Char → Gap → Cursor → Option (List Char × Bool × Cursor)
  | 0, _, _, _ => none
  | fuel + 1, acc, g, cur =>
    if cur.atMark '-' || cur.atMark '.' || cur.at? 0 (· == '#') then some (acc, g.broken, cur)
    else do
      let (run, cur) ← readPlainRun flow (cur.rest.length + 1) [] cur
      let (acc, g) := if run.isEmpty then (acc, g) else (acc ++ g.fold ++ run, {})
      if cur.at? 0 (fun c => isBlank c || isBreak c) then
        let (g, cur) ← readGap limit (cur.rest.length + 1) g cur
        if !flow && cur.column < limit then return (acc, g.broken, cur)
        else readPlain flow limit fuel acc g cur
      else return (acc, g.broken, cur)

/-! ### Quoted scalars -/

/-- The character of `n` digits of base sixteen. -/
def codePoint? (n : Nat) (cs : List Char) : Option Char :=
  let ds := cs.take n
  if ds.length = n then do
    let values ← ds.mapM Json.hexValue?
    let code := values.foldl (fun x d => x * 16 + d) 0
    if (0xd800 ≤ code ∧ code ≤ 0xdfff) ∨ 0x10ffff < code then none else some (Char.ofNat code)
  else none

/-- The character that an escape stands for, and the number of its characters. -/
def escaped? (cs : List Char) : Option (Char × Nat) :=
  match cs with
  | '0' :: _ => some ('\x00', 1)
  | 'a' :: _ => some ('\x07', 1)
  | 'b' :: _ => some ('\x08', 1)
  | 't' :: _ | '\t' :: _ => some ('\t', 1)
  | 'n' :: _ => some ('\n', 1)
  | 'v' :: _ => some ('\x0b', 1)
  | 'f' :: _ => some ('\x0c', 1)
  | 'r' :: _ => some ('\r', 1)
  | 'e' :: _ => some ('\x1b', 1)
  | ' ' :: _ => some (' ', 1)
  | '"' :: _ => some ('"', 1)
  | '/' :: _ => some ('/', 1)
  | '\\' :: _ => some ('\\', 1)
  | 'N' :: _ => some ('\u0085', 1)
  | '_' :: _ => some ('\u00a0', 1)
  | 'L' :: _ => some ('\u2028', 1)
  | 'P' :: _ => some ('\u2029', 1)
  | 'x' :: rest => (codePoint? 2 rest).map (·, 3)
  | 'u' :: rest => (codePoint? 4 rest).map (·, 5)
  | 'U' :: rest => (codePoint? 8 rest).map (·, 9)
  | _ => none

/-- The characters of a quoted scalar up to a blank or the quote; the truth value says whether an
escaped line break ended them. -/
def readQuotedRun (quote : Char) :
    (fuel : Nat) → List Char → Cursor → Option (List Char × Bool × Cursor)
  | 0, _, _ => none
  | fuel + 1, acc, cur =>
    match cur.rest with
    | [] => some (acc.reverse, false, cur)
    | c :: rest =>
      if isBlank c || isBreak c then some (acc.reverse, false, cur)
      else if c = quote then
        if quote = '\'' ∧ rest.head? = some '\'' then readQuotedRun quote fuel ('\'' :: acc) (cur.skip 2)
        else some (acc.reverse, false, cur)
      else if quote = '"' ∧ c = '\\' then
        if rest.head?.any isBreak then some (acc.reverse, true, (cur.skip 1).readBreak.2)
        else do
          let (e, n) ← escaped? rest
          readQuotedRun quote fuel (e :: acc) (cur.skip (n + 1))
      else readQuotedRun quote fuel (c :: acc) (cur.skip 1)

def readQuoted (quote : Char) : (fuel : Nat) → List Char → Cursor → Option (List Char × Cursor)
  | 0, _, _ => none
  | fuel + 1, acc, cur =>
    if cur.atMark '-' || cur.atMark '.' || cur.rest.isEmpty then none
    else do
      let (run, escapedBreak, cur) ← readQuotedRun quote (cur.rest.length + 1) [] cur
      let acc := acc ++ run
      if cur.at? 0 (· == quote) then return (acc, cur.skip 1)
      else
        let (g, cur) ← readGap 0 (cur.rest.length + 1) { broken := escapedBreak } cur
        readQuoted quote fuel (acc ++ g.fold) cur

/-! ### Block scalars -/

/-- What becomes of the line breaks at the end of a block scalar. -/
inductive Chomp where
  | strip
  | clip
  | keep
  deriving Repr, DecidableEq, Inhabited

/-- The sign of a chomping, if one comes next. -/
def readChomp (cur : Cursor) : Option Chomp × Cursor :=
  match cur.rest with
  | '+' :: _ => (some .keep, cur.skip 1)
  | '-' :: _ => (some .strip, cur.skip 1)
  | _ => (none, cur)

/-- The digit of an indentation, if one comes next; zero is refused. -/
def readIncrement (cur : Cursor) : Option (Option Nat × Cursor) :=
  match cur.rest with
  | c :: _ =>
    if c = '0' then none
    else if c.isDigit then some (some (c.toNat - 48), cur.skip 1)
    else some (none, cur)
  | [] => some (none, cur)

/-- The head of a block scalar after its mark: chomping and indentation in either order. -/
def readBlockHead (cur : Cursor) : Option (Chomp × Option Nat × Cursor) := do
  match readChomp cur with
  | (some chomp, cur) =>
    let (increment, cur) ← readIncrement cur
    return (chomp, increment, cur)
  | (none, cur) =>
    match ← readIncrement cur with
    | (some increment, cur) =>
      let (chomp, cur) := readChomp cur
      return (chomp.getD .clip, some increment, cur)
    | (none, cur) => return (.clip, none, cur)

/-- The line breaks before a line of text, with the greatest column of the lines of spaces; up to
`indent` spaces are passed on each line, or all when it is not known. -/
def readBreaks (indent : Option Nat) :
    (fuel : Nat) → (widest : Nat) → List Char → Cursor → Option (Nat × List Char × Cursor)
  | 0, _, _, _ => none
  | fuel + 1, widest, acc, cur =>
    let spaces := (cur.rest.takeWhile (· == ' ')).length
    let cur := cur.skip (match indent with
      | some n => min spaces (n - cur.column)
      | none => spaces)
    let widest := max widest cur.column
    let inside := match indent with
      | some n => cur.column < n
      | none => true
    if inside && cur.at? 0 (· == '\t') then none
    else if cur.at? 0 isBreak then
      let (text, cur) := cur.readBreak
      readBreaks indent fuel widest (acc ++ text) cur
    else some (widest, acc, cur)

/-- The lines of a block scalar. `last` is the line break after the line before, `breaks` are the
breaks after it, and `blank` says whether that line began with a blank. -/
def readBlockLines (literal : Bool) (indent : Nat) (chomp : Chomp) :
    (fuel : Nat) → (acc last breaks : List Char) → (blank : Bool) → Cursor →
      Option (List Char × Cursor)
  | 0, _, _, _, _, _ => none
  | fuel + 1, acc, last, breaks, blank, cur =>
    if cur.column = indent ∧ cur.rest ≠ [] then do
      let blankHere := cur.at? 0 isBlank
      let joint :=
        if !literal && last.head? == some '\n' && !blank && !blankHere then
          (if breaks.isEmpty then [' '] else [])
        else last
      let line := cur.rest.takeWhile fun c => !isBreak c
      let (last', cur) := (cur.skip line.length).readBreak
      let (_, breaks', cur) ← readBreaks (some indent) (cur.rest.length + 1) 0 [] cur
      readBlockLines literal indent chomp fuel (acc ++ joint ++ breaks ++ line) last' breaks' blankHere
        cur
    else
      some (acc ++ (if chomp = .strip then [] else last) ++ (if chomp = .keep then breaks else []), cur)

/-- A block scalar after its mark, in a block that is indented by `parent`, which is -1 at the top. -/
def readBlock (literal : Bool) (parent : Int) (cur : Cursor) : Option (List Char × Cursor) := do
  let (chomp, increment, cur) ← readBlockHead cur
  let cur := cur.skipComment
  if !cur.atLineEnd then none
  else
    let cur := cur.readBreak.2
    let given := increment.map fun n => if 0 ≤ parent then parent.toNat + n else n
    let (widest, breaks, cur) ← readBreaks given (cur.rest.length + 1) 0 [] cur
    let indent := given.getD (max widest (max (parent + 1).toNat 1))
    readBlockLines literal indent chomp (cur.rest.length + 1) [] [] breaks false cur

end Stencil.Yaml
