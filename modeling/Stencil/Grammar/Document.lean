import Stencil.Text.Blank
import Stencil.Text.Lines

/-!
# Documents

What a configuration says, whatever its format: its values under dotted keys, how many sections it
has and how deep it is nested, and its comments.
-/

namespace Stencil

structure Entry where
  key : String
  value : String
  deriving Repr, DecidableEq, Inhabited

structure Document where
  entries : List Entry
  sections : Nat
  depth : Nat
  commentLines : Nat := 0
  leadingComment : Bool := false
  deriving Repr, DecidableEq, Inhabited

namespace Document

def isComment (line : List Char) : Bool :=
  match Text.trimStart line with
  | '#' :: _ | ';' :: _ => true
  | _ => false

/-- Adds what the lines of the text say about comments. -/
def withComments (d : Document) (cs : List Char) : Document :=
  let lines := Text.lines cs
  { d with
    commentLines := lines.countP isComment
    leadingComment := (lines.find? fun l => !Text.allBlank l).any isComment }

end Document

end Stencil
