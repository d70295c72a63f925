/-!
# Lower case as keywords see it

Keywords are compared in lower case, and every keyword is ASCII. So lower-casing is needed only as
far as it yields ASCII letters: those of A to Z, of the Kelvin sign, and of the capital I with a dot,
whose lower-case form is an i with a combining dot. Every other character has a lower-case form that
lies wholly outside ASCII, and is kept.
-/

namespace Stencil.Text

/-- The lower-case form of one character, as far as it holds ASCII letters. -/
def lowerChar (c : Char) : List Char :=
  if c = '\u212a' then ['k']
  else if c = '\u0130' then ['i', '\u0307']
  else [c.toLower]

/-- The lower-case form of a text, as far as it holds ASCII letters. -/
def lower (cs : List Char) : List Char := cs.flatMap lowerChar

@[simp] theorem lower_nil : lower [] = [] := rfl

@[simp] theorem lower_append (a b : List Char) : lower (a ++ b) = lower a ++ lower b := by
  simp [lower]

def asciiLower (cs : List Char) : List Char := cs.map Char.toLower

/-- `asciiLower` on strings. -/
def asciiLowerString (s : String) : String := String.ofList (asciiLower s.toList)

end Stencil.Text
