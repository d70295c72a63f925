import Stencil.Json.Reader

/-!
# Values that come back from their text

A value that is written and read again is the same value, except that a double comes back as the
reader finds it in its text. Members come back in their order here, since nothing asks for the order
of the members of an object.
-/

namespace Stencil.Json

/-- The value that the text of a number is read as. -/
def Number.reread : Number → Json
  | .int i => .num (.int i)
  | .float x =>
    match parse (Number.float x).write with
    | .ok j => j
    | .error _ => .null

mutual

/-- The value as it comes back from its text. -/
def reread : Json → Json
  | null => null
  | bool b => bool b
  | num n => n.reread
  | str s => str s
  | arr items => arr (rereadItems items)
  | obj members => obj (rereadMembers members)

def rereadItems : List Json → List Json
  | [] => []
  | x :: xs => reread x :: rereadItems xs

def rereadMembers : List (String × Json) → List (String × Json)
  | [] => []
  | (k, v) :: rest => (k, reread v) :: rereadMembers rest

end

@[simp] theorem reread_str (s : String) : reread (.str s) = .str s := by simp [reread]

@[simp] theorem reread_int (i : Int) : reread (.num (.int i)) = .num (.int i) := by
  simp [reread, Number.reread]

theorem rereadItems_eq_map (items : List Json) : rereadItems items = items.map reread := by
  induction items with
  | nil => simp [rereadItems]
  | cons x xs ih => simp [rereadItems, ih]

theorem rereadMembers_eq_map (members : List (String × Json)) :
    rereadMembers members = members.map fun m => (m.1, reread m.2) := by
  induction members with
  | nil => simp [rereadMembers]
  | cons m rest ih => simp [rereadMembers, ih]

end Stencil.Json
