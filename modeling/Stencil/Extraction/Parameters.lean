import Stencil.Extraction.Candidate
import Stencil.Extraction.Naming

/-!
# Parameters

A text becomes the content of a template: its candidates are replaced by placeholders, and what lies
between them is escaped. Equal values share a variable, and every variable falls back on the value
that it stands for.
-/

namespace Stencil.Extraction

/-- The variables found so far. -/
structure Variables where
  names : List (List Char × String) := []
  schema : Schema := .empty
  deriving Inhabited

namespace Variables

def baseName (c : Candidate) : String :=
  match c.binding.bind snakeCase with
  | some name => String.ofList name
  | none => c.type.baseName

/-- A name with a number behind it. -/
def numbered (base : String) (n : Nat) : String := base ++ "_" ++ toString n

/-- A name that is not declared yet: the name itself, or the name with the least number from two on
that is free. -/
def freeName (schema : Schema) (base : String) : String :=
  if schema.contains base then
    let numbers := (List.range (schema.keys.length + 1)).map (· + 2)
    match numbers.find? fun n => !schema.contains (numbered base n) with
    | some n => numbered base n
    | none => base
  else base

/-- The name of the variable for a candidate, and the variables with it. -/
def nameOf (vs : Variables) (c : Candidate) : String × Variables :=
  match vs.names.find? fun e => e.1 == c.value with
  | some e => (e.2, vs)
  | none =>
    let name := freeName vs.schema (baseName c)
    (name, {
      names := (c.value, name) :: vs.names
      schema := vs.schema.insert name (.optional c.type (String.ofList c.value)) })

end Variables

def inOrder (found : List Candidate) : List Candidate :=
  found.mergeSort fun a b => decide (a.start ≤ b.start)

theorem mem_inOrder {c : Candidate} {found : List Candidate} : c ∈ inOrder found ↔ c ∈ found :=
  List.mem_mergeSort

/-- The content of a template for the text `rest` that begins at a byte offset, and its variables.
A candidate that begins before the offset or ends behind the text is skipped. -/
def parameterize (offset : Nat) (rest : List Char) (vs : Variables) :
    List Candidate → List Char × Variables
  | [] => (Placeholder.escape rest, vs)
  | c :: cs =>
    if c.start < offset ∨ offset + Text.byteSize rest < c.stop then parameterize offset rest vs cs
    else
      let gap := Text.takeBytes (c.start - offset) rest
      let after := Text.dropBytes (c.stop - offset) rest
      let (name, vs) := vs.nameOf c
      let (content, vs) := parameterize c.stop after vs cs
      (Placeholder.escape gap ++ Placeholder.mark name.toList ++ content, vs)

end Stencil.Extraction
