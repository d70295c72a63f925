import Stencil.Json.Basic

/-!
# Writing JSON

The compact form on one line, and the form with one member or item a line, indented by two blanks.
Strings escape quotes, backslashes and control characters only.
-/

namespace Stencil.Json

def hexDigit (n : Nat) : Char := (Nat.toDigits 16 n).headD '0'

def writeChar (c : Char) : List Char :=
  match c with
  | '"' => ['\\', '"']
  | '\\' => ['\\', '\\']
  | '\x08' => ['\\', 'b']
  | '\x0c' => ['\\', 'f']
  | '\n' => ['\\', 'n']
  | '\r' => ['\\', 'r']
  | '\t' => ['\\', 't']
  | c =>
    if c.toNat < 0x20 then
      ['\\', 'u', '0', '0', hexDigit (c.toNat / 16), hexDigit (c.toNat % 16)]
    else [c]

def writeString (s : String) : List Char :=
  '"' :: s.toList.flatMap writeChar ++ ['"']

def commas (sep : List Char) : List (List Char) → List Char
  | [] => []
  | [x] => x
  | x :: xs => x ++ ',' :: sep ++ commas sep xs

mutual

def write : Json → List Char
  | null => "null".toList
  | bool b => (if b then "true" else "false").toList
  | num n => n.write
  | str s => writeString s
  | arr items => '[' :: commas [] (writeItems items) ++ [']']
  | obj members => '{' :: commas [] (writeMembers members) ++ ['}']

def writeItems : List Json → List (List Char)
  | [] => []
  | x :: xs => write x :: writeItems xs

def writeMembers : List (String × Json) → List (List Char)
  | [] => []
  | (k, v) :: rest => (writeString k ++ ':' :: write v) :: writeMembers rest

end

def render (j : Json) : String := String.ofList (write j)

/-- A line break and an indentation. -/
def breakLine (depth : Nat) : List Char := '\n' :: List.replicate (2 * depth) ' '

mutual

def writePretty (depth : Nat) : Json → List Char
  | arr [] => ['[', ']']
  | obj [] => ['{', '}']
  | arr items =>
    let gap := breakLine (depth + 1)
    '[' :: gap ++ commas gap (prettyItems (depth + 1) items) ++ breakLine depth ++ [']']
  | obj members =>
    let gap := breakLine (depth + 1)
    '{' :: gap ++ commas gap (prettyMembers (depth + 1) members) ++ breakLine depth ++ ['}']
  | null => "null".toList
  | bool b => (if b then "true" else "false").toList
  | num n => n.write
  | str s => writeString s

def prettyItems (depth : Nat) : List Json → List (List Char)
  | [] => []
  | x :: xs => writePretty depth x :: prettyItems depth xs

def prettyMembers (depth : Nat) : List (String × Json) → List (List Char)
  | [] => []
  | (k, v) :: rest =>
    (writeString k ++ ':' :: ' ' :: writePretty depth v) :: prettyMembers depth rest

end

def pretty (j : Json) : String := String.ofList (writePretty 0 j)

end Stencil.Json
