import Stencil.SortedMap
import Stencil.Text.Blank
import Stencil.Text.Lines
import Stencil.Text.Word

/-!
# Files of assignments

A file of lines `NAME=value` gives values to variables that have none. A quoted value may go on over
several lines. Outside of single quotes, `$NAME` and `${NAME}` stand for the values of variables, those
that are set before the file first. Reading ends at the first line that is wrong; the lines before it
count.
-/

namespace Stencil.Setup.Assignments

/-! ### Lines that belong together -/

/-- Where a line ends, as far as quotes go. -/
inductive Ending where
  | closed
  /-- Behind a blank, where `#` begins a comment. -/
  | blank
  | backslash
  | double
  | doubleBackslash
  | single
  deriving Repr, DecidableEq

/-- The ending after one more character; nothing where a comment begins. -/
def Ending.next (e : Ending) (c : Char) : Option Ending :=
  let opening : Ending :=
    if c = '\\' then backslash else if c = '"' then double else if c = '\'' then single else closed
  match e with
  | blank => if c = '#' then none else some opening
  | backslash => some closed
  | closed => some (if Text.isBlank c && c != '\n' && c != '\r' then blank else opening)
  | double => some (if c = '\\' then doubleBackslash else if c = '"' then closed else double)
  | doubleBackslash => some double
  | single => some (if c = '\'' then closed else single)

/-- The part of a line before a comment, and the ending of the line; no ending after a comment. -/
def Ending.pass : Ending → List Char → List Char × Option Ending
  | e, [] => ([], some e)
  | e, c :: cs =>
    match e.next c with
    | none => ([], none)
    | some e =>
      let rest := e.pass cs
      (c :: rest.1, rest.2)

/-- Lines put together where a quote goes on over the end of a line. A quote without end makes a line
that is wrong. -/
def joined : Ending → (before : List Char) → List (List Char) → List (Option (List Char))
  | e, _, [] => if e = .closed then [] else [none]
  | e, before, line :: rest =>
    let whole := before ++ line
    if (Text.trimStart whole).head? = some '#' then some [] :: joined .closed [] rest
    else
      match e.pass line with
      | (part, none) => some (before ++ part) :: joined .closed [] rest
      | (_, some .closed) => some (Text.dropTerminator whole) :: joined .closed [] rest
      | (_, some e) => joined e whole rest

/-! ### Values -/

/-- What a reader of values is in the middle of. -/
inductive Mode where
  | plain
  | single
  | escape
  /-- A name after a dollar sign, backwards. -/
  | name (letters : List Char)
  /-- A name in braces, backwards. -/
  | braced (letters : List Char)
  /-- The blanks after a value. -/
  | after
  deriving Repr, DecidableEq

/-- The value of a variable, backwards; a variable without value has none. -/
def valueBackwards (value : String → Option String) (letters : List Char) : List Char :=
  ((value (String.ofList letters.reverse)).getD "").toList.reverse

/-- The value that characters write, read with `value` for variables; `double` says whether a double
quote is open, and `out` holds what is read, backwards. -/
def readValue (value : String → Option String) :
    Mode → (double : Bool) → (out : List Char) → List Char → Option (List Char)
  | .plain, double, out, [] => if double then none else some out.reverse
  | .single, _, _, [] | .braced _, _, _, [] => none
  | .escape, double, out, [] | .after, double, out, [] => if double then none else some out.reverse
  | .name letters, double, out, [] =>
    if double then none else some (valueBackwards value letters ++ out).reverse
  | .after, double, out, c :: cs =>
    if c = ' ' ∨ c = '\t' then readValue value .after double out cs
    else if c = '#' then (if double then none else some out.reverse)
    else none
  | .escape, double, out, c :: cs =>
    if ['\\', '\'', '"', '$', ' '].contains c then readValue value .plain double (c :: out) cs
    else if c = 'n' then readValue value .plain double ('\n' :: out) cs
    else none
  | .single, double, out, c :: cs =>
    if c = '\'' then readValue value .plain double out cs
    else readValue value .single double (c :: out) cs
  | .name letters, double, out, c :: cs =>
    if c.isAlphanum || (0x80 ≤ c.toNat && Text.isIdentContinue c) then
      readValue value (.name (c :: letters)) double out cs
    else if c = '{' ∧ letters = [] then readValue value (.braced []) double out cs
    else
      let out := valueBackwards value letters ++ out
      if c = '$' then readValue value (.name []) double out cs
      else readValue value .plain double (c :: out) cs
  | .braced letters, double, out, c :: cs =>
    if c = '}' then readValue value .plain double (valueBackwards value letters ++ out) cs
    else readValue value (.braced (c :: letters)) double out cs
  | .plain, double, out, c :: cs =>
    if c = '$' then readValue value (.name []) double out cs
    else if c = '\\' then readValue value .escape double out cs
    else if double then
      if c = '"' then readValue value .plain false out cs
      else readValue value .plain true (c :: out) cs
    else if c = '\'' then readValue value .single false out cs
    else if c = '"' then readValue value .plain true out cs
    else if c = ' ' ∨ c = '\t' then readValue value .after false out cs
    else readValue value .plain false (c :: out) cs

/-! ### Lines -/

def readName (cs : List Char) : Option (List Char × List Char) :=
  let isPart (c : Char) : Bool := c.isAlphanum || c == '_' || c == '.'
  match cs with
  | c :: _ =>
    if c.isAlpha || c == '_' then some (cs.takeWhile isPart, cs.dropWhile isPart) else none
  | [] => none

/-- The name and the text of the value of a line; `export` may stand before the name. -/
def splitLine (cs : List Char) : Option (List Char × List Char) := do
  let (name, rest) ← readName cs
  match name == "export".toList, Text.trimStart rest with
  | _, '=' :: value => return (name, Text.trimStart value)
  | true, rest =>
    let (name, rest) ← readName rest
    match Text.trimStart rest with
    | '=' :: value => return (name, Text.trimStart value)
    | _ => none
  | false, _ => none

/-- What a line says: nothing, or a variable and its value. -/
def readLine (value : String → Option String) (line : List Char) : Option (Option (String × String)) :=
  match Text.trimStart (Text.trimEnd line) with
  | [] | '#' :: _ => some none
  | cs => do
    let (name, text) ← splitLine cs
    match text with
    | [] | '#' :: _ => return some (String.ofList name, "")
    | text =>
      let v ← readValue value .plain false [] text
      return some (String.ofList name, String.ofList v)

/-- The variables with those of lines; `set` holds what the lines before have said. -/
def readLines (set : SortedMap String String) :
    SortedMap String String → List (Option (List Char)) → SortedMap String String
  | vars, [] => vars
  | vars, line :: rest =>
    match line.bind (readLine fun name => (vars.get? name).or (set.get? name)) with
    | none => vars
    | some none => readLines set vars rest
    | some (some (name, value)) =>
      let vars := if vars.contains name then vars else vars.insert name value
      readLines (set.insert name value) vars rest

def apply (cs : List Char) (vars : SortedMap String String) : SortedMap String String :=
  let cs := match cs with
    | '\ufeff' :: rest => rest
    | cs => cs
  readLines .empty vars (joined .closed [] (Text.terminatedLines cs))

end Stencil.Setup.Assignments
