import Stencil.Grammar.Document
import Stencil.Grammar.Issue
import Stencil.Kind
import Stencil.Text.Search

/-!
# Formats of one setting a line

Settings files have sections in brackets, and a setting may go on in indented lines. Environment files
have no sections, and a setting may begin with `export`. Every line is read by itself, in the context
that the lines before it leave behind.
-/

namespace Stencil.Lines

/-- The two formats of one setting a line. -/
inductive Style where
  | settings
  | environment
  deriving Repr, DecidableEq, Inhabited

inductive Line where
  | blank
  | comment
  | header (name : List Char)
  /-- Goes on with the setting before it. -/
  | continuation
  | setting (key value : List Char)
  /-- Is nothing of these; the column where its text begins. -/
  | offending (column : Nat)
  deriving Repr, DecidableEq, Inhabited

/-- What the lines before a line leave behind. -/
structure Context where
  /-- The section that the line stands in. -/
  heading? : Option (List Char) := none
  /-- Whether the last line of weight is a setting or goes on with one. -/
  inSetting : Bool := false
  deriving Repr, DecidableEq, Inhabited

/-! ### One line -/

def header? (line : List Char) : Option (List Char) :=
  match Text.trim line with
  | '[' :: rest =>
    if rest.getLast? = some ']' ∧ rest.dropLast ≠ [] ∧ rest.dropLast.all (fun c => c != '[' && c != ']')
    then some (Text.trim rest.dropLast)
    else none
  | _ => none

def isKeyChar (c : Char) : Bool := c.isAlphanum || c == '_' || c == '.' || c == '-'

/-- What follows an equals sign, perhaps after blanks. -/
def assigned? (cs : List Char) : Option (List Char) :=
  match Text.trimStart cs with
  | '=' :: value => some value
  | _ => none

/-- Key and value of a setting; the key may hold spaces. -/
def spacedSetting? (line : List Char) : Option (List Char × List Char) :=
  match Text.trimStart line with
  | c :: rest =>
    let inKey (d : Char) := isKeyChar d || d == ' '
    if isKeyChar c then
      (assigned? (rest.dropWhile inKey)).map fun value => (Text.trim (c :: rest.takeWhile inKey), value)
    else none
  | [] => none

/-- Key and value of a setting whose key is one word that begins with a letter or an underscore. -/
def plainSetting? (cs : List Char) : Option (List Char × List Char) :=
  match cs with
  | c :: rest =>
    if c.isAlpha || c == '_' then
      (assigned? (rest.dropWhile isKeyChar)).map fun value => (c :: rest.takeWhile isKeyChar, value)
    else none
  | [] => none

/-- What follows the word `export` and at least one blank. -/
def exported? (cs : List Char) : Option (List Char) :=
  match Text.dropPrefix? "export".toList cs with
  | some (c :: rest) => if Text.isBlank c then some (Text.trimStart rest) else none
  | _ => none

def exportedSetting? (line : List Char) : Option (List Char × List Char) :=
  let cs := Text.trimStart line
  ((exported? cs).bind plainSetting?).or (plainSetting? cs)

def unquote (value : List Char) : List Char :=
  match value with
  | q :: rest =>
    if (q = '"' ∨ q = '\'') ∧ rest.getLast? = some q then rest.dropLast else value
  | [] => []

/-- A setting, or the place where its line offends. -/
def settingOr (line : List Char) (found : Option (List Char × List Char)) : Line :=
  match found with
  | some (key, value) => .setting key (unquote (Text.trim value))
  | none => .offending (Text.byteSize (line.takeWhile Text.isBlank) + 1)

def isIndented : List Char → Bool
  | c :: _ => Text.isBlank c
  | [] => false

def read (style : Style) (ctx : Context) (line : List Char) : Line :=
  if Text.allBlank line then .blank
  else if Document.isComment line then .comment
  else match style with
    | .environment => settingOr line (exportedSetting? line)
    | .settings =>
      match header? line with
      | some name => .header name
      | none =>
        if ctx.inSetting && isIndented line then .continuation
        else settingOr line (spacedSetting? line)

/-! ### All lines -/

def Context.next (ctx : Context) : Line → Context
  | .blank | .comment | .continuation => ctx
  | .header name => ⟨some name, false⟩
  | .setting _ _ => { ctx with inSetting := true }
  | .offending _ => { ctx with inSetting := false }

/-- What each line is, with the section that it stands in. -/
def readAll (style : Style) (ctx : Context) : List (List Char) → List (Option (List Char) × Line)
  | [] => []
  | line :: rest =>
    let l := read style ctx line
    (ctx.heading?, l) :: readAll style (ctx.next l) rest

/-- The entry of a setting: its key stands below the section. -/
def entry? : Option (List Char) × Line → Option Entry
  | (none, .setting key value) => some ⟨String.ofList key, String.ofList value⟩
  | (some name, .setting key value) =>
    some ⟨String.ofList (name ++ '.' :: key), String.ofList value⟩
  | _ => none

def Line.isHeader : Line → Bool
  | .header _ => true
  | _ => false

def Style.fault : Style → Fault
  | .settings => .headerOrAssignmentExpected
  | .environment => .assignmentExpected

/-- The issues of lines, the first of which has number `n`. -/
def issuesFrom (style : Style) (n : Nat) : List (Option (List Char) × Line) → List Issue
  | [] => []
  | (_, .offending column) :: rest => ⟨⟨n, column⟩, style.fault⟩ :: issuesFrom style (n + 1) rest
  | _ :: rest => issuesFrom style (n + 1) rest

def parse (style : Style) (cs : List Char) : Except (List Issue) Document :=
  let found := readAll style {} (Text.lines cs)
  match issuesFrom style 1 found with
  | [] =>
    let headers := found.countP fun l => l.2.isHeader
    .ok (Document.withComments ⟨found.filterMap entry?, headers, min headers 1, 0, false⟩ cs)
  | issues => .error issues

end Stencil.Lines
