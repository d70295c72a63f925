import Stencil.Script.Layout
import Stencil.Script.Number
import Stencil.Script.Tree

/-!
# Parsers of scripts

A parser moves a cursor or fails. Parsers for the goals that nest are given as a family, one level of
nesting down, so that the whole grammar is tied together in one place.
-/

namespace Stencil.Script

abbrev Parse := StateT Cursor Option

/-- What may follow an expression. -/
structure Around where
  newline : Bool := false
  close : Bool := false
  /-- Whether a following `if` belongs to the expression. -/
  conditional : Bool := true
  deriving Repr, DecidableEq, Inhabited

def Around.bracket : Around := { close := true }

def Around.statement : Around := { newline := true }

def Around.clause : Around := {}

/-- What may stand where an expression could go on. -/
def Around.expectation (a : Around) : Expectation := { newline := a.newline, close := a.close }

inductive Goal where
  /-- An expression; `close` says whether a closing bracket may stand in its place. -/
  | expression (around : Around) (close : Bool)
  /-- An operand of `not`. -/
  | operand (around : Around) (close : Bool)
  /-- An expression without operators. -/
  | primary (around : Around) (close : Bool)
  /-- The right side of an assignment; what may follow it is the end of a statement. -/
  | assigned
  /-- A type; `colon` says whether it may be constrained by another. -/
  | typeOf (around : Around) (colon : Bool)
  | casePattern (close : Bool)
  | entryPattern
  | interpolation
  | suite
  /-- A statement; `nested` says whether it is in a block. -/
  | statement (nested : Bool)
  deriving Repr, DecidableEq, Inhabited

/-- The parsers one level of nesting down, and a bound for repetitions. -/
structure Deeper where
  parse : Goal → Parse Node
  bound : Nat

namespace Parse

variable {α : Type}

def ahead (e : Expectation) : Parse Ahead := fun cur => some (cur.ahead e, cur)

/-- Goes to the next token, unless layout comes first. What comes next stays the same for other
expectations from then on. A string behind blanks that layout does not know is no string. -/
def settle (e : Expectation) : Parse Ahead := do
  let next ← ahead e
  match next with
  | .string cur => set cur
  | .token cur => if opensString cur.rest then failure else set cur
  | _ => pure ()
  return next

/-- Repeats a parser until it gives nothing, at most `n` times. -/
def many : (n : Nat) → Parse (Option α) → Parse (List α)
  | 0, _ => failure
  | n + 1, p => do
    match ← p with
    | none => return []
    | some x => return x :: (← many n p)

def offset : Parse Nat := return (← get).offset

/-- The node that begins at `start` and ends here. -/
def node (form : Form) (start : Nat) (parts : List Node) : Parse Node :=
  return .mk form none start (← offset) parts

end Parse

/-! ### Marks and words -/

/-- Marks of several characters, the longest first. -/
def longMarks : List (List Char) :=
  (["**=", "//=", ">>=", "<<=", "**", "//", ">>", "<<", "<=", ">=", "==", "!=", "<>", "->", "+=", "-=",
    "*=", "/=", "%=", "@=", "&=", "|=", "^="]).map String.toList

def markAt (cs : List Char) : List Char :=
  match longMarks.find? fun m => m.isPrefixOf cs with
  | some m => m
  | none => cs.take 1

def wordAt : List Char → List Char
  | c :: cs => if Text.isIdentStart c then c :: cs.takeWhile Text.isIdentContinue else []
  | [] => []

def isText (s : String) (cs : List Char) : Bool := s.toList == cs

namespace Ahead

def token? : Ahead → Option Cursor
  | token cur => some cur
  | _ => none

def isMark (s : String) : Ahead → Bool
  | token cur => isText s (markAt cur.rest)
  | _ => false

def word : Ahead → List Char
  | token cur => wordAt cur.rest
  | _ => []

def isWord (s : String) (a : Ahead) : Bool := isText s a.word

def isOneOf (words : List String) (a : Ahead) : Bool := words.contains (String.ofList a.word)

end Ahead

namespace Parse

/-- Goes on behind the first `n` characters of a token. -/
def take (cur : Cursor) (n : Nat) : Parse Unit := set (cur.skip n)

def mark (s : String) (e : Expectation) : Parse Nat := do
  let a ← ahead e
  match a with
  | .token cur =>
    if a.isMark s then
      take cur s.length
      return cur.offset
    else failure
  | _ => failure

def mark? (s : String) (e : Expectation) : Parse (Option Nat) := do
  if (← ahead e).isMark s then some <$> mark s e else return none

/-- Reads a word that has to come; gives its offset. -/
def word (s : String) (e : Expectation) : Parse Nat := do
  let a ← ahead e
  match a with
  | .token cur =>
    if a.isWord s then
      take cur s.length
      return cur.offset
    else failure
  | _ => failure

def word? (s : String) (e : Expectation) : Parse (Option Nat) := do
  if (← ahead e).isWord s then some <$> word s e else return none

def name (e : Expectation) : Parse Node := do
  let a ← ahead e
  match a with
  | .token cur =>
    if a.word.isEmpty then failure
    else
      take cur a.word.length
      node .identifier cur.offset []
  | _ => failure

/-- The items behind a first one, with commas before them and perhaps after them; `ends` says
whether the list is over after a comma. The second part says whether there was a comma. -/
def commaTail {α : Type} (e after : Expectation) (ends : Ahead → Bool) (item : Parse α) :
    (n : Nat) → Parse (List α × Bool)
  | 0 => failure
  | n + 1 => do
    match ← mark? "," e with
    | none => return ([], false)
    | some _ =>
      if ends (← ahead after) then return ([], true)
      else
        let x ← item
        let (xs, _) ← commaTail e after ends item n
        return (x :: xs, true)

end Parse

/-! ### What begins an expression -/

def startsPrimary (cs : List Char) : Bool :=
  !(wordAt cs).isEmpty || Number.length cs != 0 || "...".toList.isPrefixOf cs ||
    ["(", "[", "\x7b", "+", "-", "~", "*"].any (isText · (markAt cs))

def Ahead.startsExpression : Ahead → Bool
  | string _ => true
  | token cur => startsPrimary cur.rest
  | _ => false

end Stencil.Script
