import Stencil.Grammar
import Stencil.Outcome
import Stencil.Rendering

/-!
# Validation

A rendered text is checked against its grammar. Everything that is wrong with it is said: that it is
empty, the issues of its grammar, and the placeholders that are left in it, in this order.
-/

namespace Stencil

namespace Diagnostic

def ofIssue (i : Issue) : Diagnostic :=
  ⟨some i.place.line, some i.place.column, i.fault.message⟩

/-- The finding that a placeholder is left in a text. -/
def ofLeftover (cs : List Char) (l : Leftover) : Diagnostic :=
  let place := Text.positionAt cs l.offset
  ⟨some place.line, some place.column,
    "unresolved placeholder " ++ String.ofList (Placeholder.mark l.name.toList)⟩

def empty : Diagnostic := { message := "rendered content is empty" }

end Diagnostic

/-- What is wrong with a text of a kind in which placeholders are left. -/
def Kind.validate [Libraries] (k : Kind) (content : String) (leftovers : List Leftover) : Outcome :=
  let cs := content.toList
  .of ((if Text.allBlank cs then [.empty] else []) ++ (k.issues cs).map .ofIssue ++
    leftovers.map (.ofLeftover cs))

def Rendering.validate [Libraries] (r : Rendering) (k : Kind) : Outcome := k.validate r.content r.unresolved

end Stencil
