import Stencil.Script.Tree
import Stencil.Text.Bytes
import Stencil.Text.Blank
import Stencil.Text.Search

/-!
# Plain string literals

A string literal can be replaced by a placeholder when it has single quotes or single double quotes,
no letters before them, no escapes and no line end. Texts that document and keys of dictionaries
stay. A literal is bound to the name that it is assigned to, given for or stored under.
-/

namespace Stencil.Script

/-- A plain string literal: the text between its quotes, its range of bytes and its binding. -/
structure Literal where
  start : Nat
  stop : Nat
  value : List Char
  binding : Option (List Char)
  deriving Repr, DecidableEq, Inhabited

/-- The text of a node; there is none where its range cuts a character. -/
def Node.text (source : List Char) (n : Node) : List Char :=
  let text := Text.sliceBytes n.start n.stop source
  if Text.byteSize (Text.takeBytes n.start source) = n.start ∧ Text.byteSize text = n.stop - n.start then text
  else []

namespace Literal

/-- The part of a string's parent that names what the string is bound to. -/
def target? (parent string : Node) : Option Node :=
  match parent.form, string.role with
  | .assignment, some .right => parent.part? .left
  | .keywordArgument, some .value | .defaultParameter, some .value
  | .typedDefaultParameter, some .value => parent.part? .name
  | .pair, _ => parent.part? .key
  | _, _ => none

/-- The name that a target gives: its text without quotes around it, from its last point on. -/
def bindingName? (target : List Char) : Option (List Char) :=
  let inner := Text.trimMatches (fun c => c == '"' || c == '\'') target
  let name := (inner.reverse.takeWhile (· != '.')).reverse
  if name.isEmpty then none else some name

/-- Whether a part of a string is an opening or an end of it, or stands for one that is missing. -/
def isDelimiter : Form → Bool
  | .stringStart | .stringEnd => true
  | .missing kind _ => kind == "string_start" || kind == "string_end"
  | _ => false

/-- The only content of a string between quotes without letters. -/
def content? (source : List Char) (string : Node) : Option Node :=
  match string.named with
  | opening :: rest =>
    let mark := opening.text source
    if opening.form == .stringStart && (mark == ['"'] || mark == ['\'']) then
      match rest.filter fun p => !isDelimiter p.form with
      | [content] => if content.form == .stringContent && content.named.isEmpty then content else none
      | _ => none
    else none
  | [] => none

/-- The literal that a string is, when it is plain. -/
def ofString? (source : List Char) (parent string : Node) : Option Literal := do
  guard (parent.form != .expressionStatement)
  guard !(parent.form == .pair && string.role == some .key)
  let content ← content? source string
  let value := content.text source
  guard (!value.isEmpty && !value.contains '\n')
  return ⟨content.start, content.stop, value,
    (target? parent string).bind fun t => bindingName? (t.text source)⟩

end Literal

mutual

/-- The plain literals below a node, in the order of the source. Strings are not searched. -/
def literalsOf (source : List Char) : Node → List Literal
  | .mk form role start stop parts => literalsAmong source (.mk form role start stop parts) parts

def literalsAmong (source : List Char) (parent : Node) : List Node → List Literal
  | [] => []
  | p :: ps =>
    (if p.form == .string then (Literal.ofString? source parent p).toList else literalsOf source p) ++
      literalsAmong source parent ps

end

end Stencil.Script
