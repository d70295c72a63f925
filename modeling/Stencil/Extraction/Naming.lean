import Stencil.Placeholder
import Stencil.Text.Blank
import Stencil.Text.Search

/-!
# Names of variables

A variable is named after the key or the identifier that its value is bound to. The name is written
character by character: capitals become small letters, a capital after a small letter or a digit
begins a new part, and whatever is neither an ASCII letter nor a digit separates two parts.
-/

namespace Stencil.Extraction

/-- A name as far as it is written, and whether its last character was a small letter or a digit. -/
structure Naming where
  out : List Char
  prevLower : Bool
deriving DecidableEq, Repr

def Naming.start : Naming := ⟨[], false⟩

def Naming.next (n : Naming) (c : Char) : Naming :=
  if c.isUpper then
    ⟨(if n.prevLower then n.out ++ ['_'] else n.out) ++ [c.toLower], false⟩
  else if c.isAlphanum then
    ⟨n.out ++ [c], c.isLower || c.isDigit⟩
  else
    ⟨if n.out.getLast? != some '_' && !n.out.isEmpty then n.out ++ ['_'] else n.out, false⟩

/-- What is written for a text, without underscores at its ends. -/
def written (cs : List Char) : List Char :=
  Text.trimMatches (· == '_') (cs.foldl Naming.next Naming.start).out

/-- The name of a variable that a text gives, when it gives one. -/
def snakeCase (cs : List Char) : Option (List Char) :=
  let name := written cs
  if Placeholder.isName name then some name else none

theorem isName_of_snakeCase {cs name : List Char} (h : snakeCase cs = some name) :
    Placeholder.isName name = true := by
  simp only [snakeCase] at h
  split at h
  · next valid => exact Option.some.inj h ▸ valid
  · simp at h

end Stencil.Extraction
