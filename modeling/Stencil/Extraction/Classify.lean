import Stencil.Text.Blank
import Stencil.Text.Bytes
import Stencil.Text.Lower
import Stencil.Text.Search
import Stencil.Text.Word
import Stencil.Variable

/-!
# Literals that depend on the place of use

A literal becomes a variable when it reads as the name of an environment, as a version, or as a path,
tried in this order and without the blanks around it.
-/

namespace Stencil.Extraction

def environmentNames : List String :=
  ["production", "prod", "development", "dev", "staging", "stage", "testing", "test", "qa", "uat",
    "local"]

def dataExtensions : List String :=
  ["db", "sqlite", "sqlite3", "json", "yaml", "yml", "toml", "ini", "cfg", "conf", "csv", "txt", "log",
    "xml", "parquet", "env", "py", "sql"]

/-! ### Versions -/

def afterDigits? (cs : List Char) : Option (List Char) :=
  match cs with
  | c :: rest => if Text.isDecimalDigit c then some (rest.dropWhile Text.isDecimalDigit) else none
  | [] => none

def isLabelChar (c : Char) : Bool := c.isAlphanum || c == '.' || c == '-'

def isVersionTail : List Char → Bool
  | [] => true
  | c :: label => (c == '-' || c == '+') && !label.isEmpty && label.all isLabelChar

/-- Whether a text is a version: two or three numbers with points between them, perhaps after a `v`
and before a label. -/
def isVersion (cs : List Char) : Bool :=
  let cs := match cs with
    | 'v' :: rest => rest
    | cs => cs
  match afterDigits? cs with
  | some ('.' :: rest) =>
    match afterDigits? rest with
    | some ('.' :: patch) => (afterDigits? patch).any isVersionTail
    | some rest => isVersionTail rest
    | none => false
  | _ => false

/-! ### Paths -/

/-- Characters that no path here holds. -/
def isForeignToPaths (c : Char) : Bool :=
  Text.isBlank c || "\"'[](),;=%<>|*?".toList.contains c

def hasDataExtension (cs : List Char) : Bool :=
  match cs.reverse.dropWhile (· != '.') with
  | _ :: _ :: _ =>
    let ext := (cs.reverse.takeWhile (· != '.')).reverse
    dataExtensions.contains (String.ofList (Text.asciiLower ext))
  | _ => false

/-- Whether a text reads as a path: it has a separator and a letter or digit, or the extension of a
data file. -/
def isPathLike (cs : List Char) : Bool :=
  2 ≤ Text.byteSize cs && !Text.containsString "://" cs && !cs.any isForeignToPaths &&
    ((cs.any (fun c => c == '/' || c == '\\') && cs.any Char.isAlphanum) || hasDataExtension cs)

/-- What a literal is, when it depends on the place of use. -/
def classify (literal : List Char) : Option VariableType :=
  let cs := Text.trim literal
  if cs.isEmpty then none
  else if environmentNames.contains (String.ofList (Text.asciiLower cs)) then some .environment
  else if isVersion cs then some .version
  else if isPathLike cs then some .path
  else none

end Stencil.Extraction
