import Stencil.Text.Bytes

/-!
# Lines and positions

A text falls into pieces that end with a line feed, the last piece perhaps without one.
`flatten_terminatedLines` says that the pieces make up the text. A line is a piece without its
line feed and without one carriage return before it. Positions count from one.
-/

namespace Stencil.Text

/-- The pieces of a text, each with the line feed that ends it. -/
def terminatedLines : List Char → List (List Char)
  | [] => []
  | c :: cs =>
    if c = '\n' then ['\n'] :: terminatedLines cs
    else match terminatedLines cs with
      | [] => [[c]]
      | l :: ls => (c :: l) :: ls

@[simp] theorem flatten_terminatedLines (cs : List Char) : (terminatedLines cs).flatten = cs := by
  induction cs with
  | nil => rfl
  | cons c cs ih =>
    simp only [terminatedLines]
    split
    · simp_all
    · split
      · next h => rw [h] at ih; simp_all
      · next h => rw [h] at ih; simp_all

def dropTerminator (l : List Char) : List Char :=
  match l.reverse with
  | '\n' :: '\r' :: r => r.reverse
  | '\n' :: r => r.reverse
  | _ => l

def lines (cs : List Char) : List (List Char) :=
  (terminatedLines cs).map dropTerminator

/-- A place in a text: line and column, both counted from one. -/
structure Position where
  line : Nat
  column : Nat
  deriving Repr, DecidableEq, Inhabited

namespace Position

def start : Position := ⟨1, 1⟩

def next (p : Position) (c : Char) : Position :=
  if c = '\n' then ⟨p.line + 1, 1⟩ else ⟨p.line, p.column + 1⟩

/-- The place after the characters of a text; columns count characters. -/
def after (cs : List Char) : Position := cs.foldl next start

/-- The place after the characters of a text where columns count bytes. -/
def afterBytes (cs : List Char) : Position :=
  cs.foldl (fun p c => if c = '\n' then ⟨p.line + 1, 1⟩ else ⟨p.line, p.column + c.utf8Size⟩) start

end Position

/-- The place of the byte offset `n`, or of the character boundary before it. -/
def positionAt (cs : List Char) (n : Nat) : Position := Position.after (takeBytes n cs)

end Stencil.Text
