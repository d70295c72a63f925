/-!
# Searching, splitting and padding

Plain operations on characters: a text inside another, replacement of every occurrence, splitting at
single characters, and filling up with blanks to a number of characters.
-/

namespace Stencil.Text

def contains (needle : List Char) : List Char → Bool
  | [] => needle.isEmpty
  | c :: cs => needle.isPrefixOf (c :: cs) || contains needle cs

/-- What follows `front`, when a text begins with it. -/
def dropPrefix? : (front : List Char) → List Char → Option (List Char)
  | [], cs => some cs
  | _ :: _, [] => none
  | f :: fs, c :: cs => if f = c then dropPrefix? fs cs else none

theorem eq_append_of_dropPrefix? {front cs rest : List Char}
    (h : dropPrefix? front cs = some rest) : cs = front ++ rest := by
  induction front generalizing cs with
  | nil => simpa [dropPrefix?] using h
  | cons f fs ih =>
    cases cs with
    | nil => simp [dropPrefix?] at h
    | cons c cs =>
      simp only [dropPrefix?] at h
      split at h
      · next e => simp [e, ih h]
      · simp at h

/-- Replaces every occurrence of `old`, from left to right and without overlap; an empty `old`
occurs nowhere. `skip` counts the characters of a replaced occurrence still to be passed. -/
def replaceAfter (old new : List Char) (skip : Nat) : List Char → List Char
  | [] => []
  | c :: cs =>
    match skip with
    | k + 1 => replaceAfter old new k cs
    | 0 =>
      if !old.isEmpty && old.isPrefixOf (c :: cs) then
        new ++ replaceAfter old new (old.length - 1) cs
      else c :: replaceAfter old new 0 cs

def replaceAll (old new cs : List Char) : List Char := replaceAfter old new 0 cs

/-- The parts of a list between elements that satisfy `p`. -/
def splitBy {α : Type} (p : α → Bool) : List α → List (List α)
  | [] => [[]]
  | c :: cs =>
    if p c then [] :: splitBy p cs
    else match splitBy p cs with
      | [] => [[c]]
      | w :: ws => (c :: w) :: ws

theorem splitBy_ne_nil {α : Type} (p : α → Bool) (cs : List α) : splitBy p cs ≠ [] := by
  cases cs with
  | nil => simp [splitBy]
  | cons c cs =>
    simp only [splitBy]
    split
    · simp
    · split <;> simp

/-- The part before the first `sep` and the part after it. -/
def splitOnce (sep : Char) (cs : List Char) : Option (List Char × List Char) :=
  match cs.dropWhile (· != sep) with
  | [] => none
  | _ :: rest => some (cs.takeWhile (· != sep), rest)

def containsString (needle : String) (cs : List Char) : Bool := contains needle.toList cs

def joinWith (sep : String) (parts : List String) : String := sep.intercalate parts

/-! ### Padding -/

/-- The blanks that a text lacks. -/
def gap (width : Nat) (s : String) : String := String.ofList (List.replicate (width - s.length) ' ')

def padEnd (width : Nat) (s : String) : String := s ++ gap width s

def padStart (width : Nat) (s : String) : String := gap width s ++ s

theorem length_padEnd (width : Nat) (s : String) : (padEnd width s).length = max width s.length := by
  simp only [padEnd, gap, String.length_append, String.length_ofList, List.length_replicate]
  omega

end Stencil.Text
