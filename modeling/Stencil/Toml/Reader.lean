import Stencil.Grammar.Issue
import Stencil.Toml.Scalar
import Stencil.Toml.Table

/-!
# Reading TOML

A reader of TOML 1.1: a text is a sequence of headers and of keys with values, one a line. Arrays and
inline tables may span lines, hold comments and end in a comma, and be nested 80 deep. A text that is
no TOML is only said to be malformed.
-/

namespace Stencil.Toml

/-! ### Gaps -/

def isSpace (c : Char) : Bool := c == ' ' || c == '\t'

def skipSpaces (cs : List Char) : List Char := cs.dropWhile isSpace

/-- The text after a line break. -/
def lineBreak? (cs : List Char) : Option (List Char) :=
  match cs with
  | '\n' :: rest => some rest
  | '\r' :: '\n' :: rest => some rest
  | _ => none

/-- Characters of a comment, and of a string before quotes and escapes count. -/
def isPrintable (c : Char) : Bool := c == '\t' || (0x20 ≤ c.toNat && c.toNat != 0x7f)

/-- The text from the end of the line on, after spaces and perhaps a comment. -/
def skipComment (cs : List Char) : List Char :=
  match skipSpaces cs with
  | '#' :: rest => rest.dropWhile isPrintable
  | rest => rest

/-- The text after the rest of a line that says nothing more. -/
def endLine? (cs : List Char) : Option (List Char) :=
  match skipComment cs with
  | [] => some []
  | rest => lineBreak? rest

/-- The text after spaces, comments and line breaks. -/
def skipGaps : (fuel : Nat) → List Char → List Char
  | 0, cs => cs
  | fuel + 1, cs =>
    match lineBreak? (skipComment cs) with
    | some rest => skipGaps fuel rest
    | none => skipComment cs

def skipAll (cs : List Char) : List Char := skipGaps cs.length cs

/-! ### Strings -/

/-- The character of `n` digits of base sixteen, and the rest. -/
def codePoint? (n : Nat) (cs : List Char) : Option (Char × List Char) :=
  let ds := cs.take n
  let code := numberOf 16 ds
  if ds.length = n ∧ ds.all isHexDigit ∧ (code < 0xd800 ∨ (0xdfff < code ∧ code < 0x110000)) then
    some (Char.ofNat code, cs.drop n)
  else none

/-- The character that an escape after its backslash stands for, and the rest. -/
def escaped? (cs : List Char) : Option (Char × List Char) :=
  match cs with
  | 'b' :: rest => some ('\x08', rest)
  | 't' :: rest => some ('\t', rest)
  | 'n' :: rest => some ('\n', rest)
  | 'f' :: rest => some ('\x0c', rest)
  | 'r' :: rest => some ('\r', rest)
  | 'e' :: rest => some ('\x1b', rest)
  | '"' :: rest => some ('"', rest)
  | '\\' :: rest => some ('\\', rest)
  | 'x' :: rest => codePoint? 2 rest
  | 'u' :: rest => codePoint? 4 rest
  | 'U' :: rest => codePoint? 8 rest
  | _ => none

/-- The rest of a string on one line; `acc` holds its characters so far, backwards. -/
def readBasic : (fuel : Nat) → List Char → List Char → Option (String × List Char)
  | 0, _, _ => none
  | fuel + 1, acc, cs =>
    match cs with
    | '"' :: rest => some (String.ofList acc.reverse, rest)
    | '\\' :: rest => do
      let (c, rest) ← escaped? rest
      readBasic fuel (c :: acc) rest
    | c :: rest => if isPrintable c then readBasic fuel (c :: acc) rest else none
    | [] => none

def readLiteral (cs : List Char) : Option (String × List Char) :=
  match cs.dropWhile (fun c => c != '\'' && isPrintable c) with
  | '\'' :: rest => some (String.ofList (cs.takeWhile (fun c => c != '\'' && isPrintable c)), rest)
  | _ => none

/-- The text after the blanks and line breaks that a backslash at the end of a line takes away; the
first line break has to follow the backslash on its line. -/
def continued? (cs : List Char) : Option (List Char) :=
  (lineBreak? (skipSpaces cs)).map fun rest =>
    rest.dropWhile fun c => isSpace c || c == '\n' || c == '\r'

/-- The rest of a string over several lines that is quoted by three `quote`s; one or two more belong
to the string. `escapes` says whether backslashes count. -/
def readMultiline (quote : Char) (escapes : Bool) :
    (fuel : Nat) → List Char → List Char → Option (String × List Char)
  | 0, _, _ => none
  | fuel + 1, acc, cs =>
    let quotes := (cs.takeWhile (· == quote)).length
    if 3 ≤ quotes then
      let extra := min (quotes - 3) 2
      some (String.ofList (acc.reverse ++ List.replicate extra quote), cs.drop (extra + 3))
    else
      match cs with
      | '\\' :: rest =>
        if escapes then
          match continued? rest with
          | some rest => readMultiline quote escapes fuel acc rest
          | none => do
            let (c, rest) ← escaped? rest
            readMultiline quote escapes fuel (c :: acc) rest
        else readMultiline quote escapes fuel ('\\' :: acc) rest
      | '\n' :: rest => readMultiline quote escapes fuel ('\n' :: acc) rest
      | '\r' :: '\n' :: rest => readMultiline quote escapes fuel ('\n' :: '\r' :: acc) rest
      | c :: rest => if isPrintable c then readMultiline quote escapes fuel (c :: acc) rest else none
      | [] => none

/-- The text without a line break at its front. -/
def dropLineBreak (cs : List Char) : List Char := (lineBreak? cs).getD cs

def string? (cs : List Char) : Option (String × List Char) :=
  match cs with
  | '"' :: '"' :: '"' :: rest => readMultiline '"' true (rest.length + 1) [] (dropLineBreak rest)
  | '"' :: rest => readBasic (rest.length + 1) [] rest
  | '\'' :: '\'' :: '\'' :: rest =>
    readMultiline '\'' false (rest.length + 1) [] (dropLineBreak rest)
  | '\'' :: rest => readLiteral rest
  | _ => none

/-! ### Keys -/

def isBareKeyChar (c : Char) : Bool := c.isAlphanum || c == '-' || c == '_'

def keyPart? (cs : List Char) : Option (String × List Char) :=
  match cs with
  | '"' :: rest => readBasic (rest.length + 1) [] rest
  | '\'' :: rest => readLiteral rest
  | _ =>
    let word := cs.takeWhile isBareKeyChar
    if word.isEmpty then none else some (String.ofList word, cs.dropWhile isBareKeyChar)

/-- A dotted key: the parts before the last one, the last one, and the text after spaces. -/
def key? : (fuel : Nat) → List Char → Option (List String × String × List Char)
  | 0, _ => none
  | fuel + 1, cs => do
    let (part, rest) ← keyPart? (skipSpaces cs)
    match skipSpaces rest with
    | '.' :: rest =>
      let (path, last, rest) ← key? fuel rest
      return (part :: path, last, rest)
    | rest => return ([], part, rest)

def keyed? (cs : List Char) : Option (List String × String × List Char) := do
  let (path, key, rest) ← key? (cs.length + 1) cs
  match rest with
  | '=' :: rest => return (path, key, skipSpaces rest)
  | _ => none

/-! ### Values -/

/-- Characters of a word without quotes. -/
def isWordChar (c : Char) : Bool :=
  c.isAlphanum || c == '_' || c == '+' || c == '-' || c == '.' || c == ':'

/-- A word without quotes; a date may have a time after one space. -/
def word (cs : List Char) : List Char × List Char :=
  let first := cs.takeWhile isWordChar
  let rest := cs.dropWhile isWordChar
  match date? first, rest with
  | some (_, []), ' ' :: more =>
    match more with
    | a :: b :: ':' :: _ =>
      if a.isDigit && b.isDigit then
        (first ++ ' ' :: more.takeWhile isWordChar, more.dropWhile isWordChar)
      else (first, rest)
    | _ => (first, rest)
  | _, _ => (first, rest)

mutual

/-- A value; `depth` arrays and inline tables may still be opened inside it. -/
def readValue : (fuel depth : Nat) → List Char → Option (Value × List Char)
  | 0, _, _ => none
  | fuel + 1, depth, cs =>
    match cs with
    | '[' :: rest =>
      match depth with
      | 0 => none
      | depth + 1 => readItems fuel depth [] (skipAll rest)
    | '{' :: rest =>
      match depth with
      | 0 => none
      | depth + 1 => readMembers fuel depth [] (skipAll rest)
    | '"' :: _ | '\'' :: _ => (string? cs).map fun (s, rest) => (.str s, rest)
    | _ =>
      let (w, rest) := word cs
      (scalar? w).map (·, rest)

/-- The rest of an array; `acc` holds the items so far, backwards. -/
def readItems : (fuel depth : Nat) → List Value → List Char → Option (Value × List Char)
  | 0, _, _, _ => none
  | fuel + 1, depth, acc, cs =>
    match cs with
    | ']' :: rest => some (.arr acc.reverse, rest)
    | _ => do
      let (item, rest) ← readValue fuel depth cs
      match skipAll rest with
      | ',' :: rest => readItems fuel depth (item :: acc) (skipAll rest)
      | ']' :: rest => return (.arr (item :: acc).reverse, rest)
      | _ => none

def readMembers : (fuel depth : Nat) → Members → List Char → Option (Value × List Char)
  | 0, _, _, _ => none
  | fuel + 1, depth, ms, cs =>
    match cs with
    | '}' :: rest => some (.table (finishMembers ms), rest)
    | _ => do
      let (path, key, rest) ← keyed? cs
      let (value, rest) ← readValue fuel depth rest
      let ms ← ms.assign path key value .defined
      match skipAll rest with
      | ',' :: rest => readMembers fuel depth ms (skipAll rest)
      | '}' :: rest => return (.table (finishMembers ms), rest)
      | _ => none

end

/-- The number of arrays and inline tables that may be nested. -/
def maxDepth : Nat := 80

def value? (cs : List Char) : Option (Value × List Char) :=
  readValue (2 * cs.length + 2) maxDepth cs

/-! ### Statements -/

/-- The tables so far, and the header that the next keys stand under. -/
structure State where
  root : Members
  header : List String
  deriving Inhabited

def header? (double : Bool) (st : State) (cs : List Char) : Option (State × List Char) := do
  let (path, key, rest) ← key? (cs.length + 1) cs
  let rest ← Text.dropPrefix? (if double then [']', ']'] else [']']) rest
  let root ← if double then Members.begin path key st.root else Members.define path key st.root
  return (⟨root, path ++ [key]⟩, rest)

/-- One statement at the front, if its line has one. -/
def statement? (st : State) (cs : List Char) : Option (State × List Char) :=
  match cs with
  | '[' :: '[' :: rest => header? true st rest
  | '[' :: rest => header? false st rest
  | '#' :: _ | '\n' :: _ | '\r' :: _ | [] => some (st, cs)
  | _ => do
    let (path, key, rest) ← keyed? cs
    let (value, rest) ← value? rest
    let root ← Members.modify .implied (Members.assign path key value) st.header .defined st.root
    return (⟨root, st.header⟩, rest)

def readStatements : (fuel : Nat) → State → List Char → Option State
  | 0, _, _ => none
  | fuel + 1, st, cs =>
    match skipSpaces cs with
    | [] => some st
    | cs => do
      let (st, rest) ← statement? st cs
      readStatements fuel st (← endLine? rest)

def parse (cs : List Char) : Option (List (String × Value)) :=
  let cs := match cs with
    | '\ufeff' :: rest => rest
    | cs => cs
  (readStatements (cs.length + 1) ⟨[], []⟩ cs).map fun st => finishMembers st.root

end Stencil.Toml
