import Stencil.Extraction.Classify
import Stencil.Grammar.Document
import Stencil.Kind
import Stencil.Libraries
import Stencil.Script.Literals

/-!
# Candidates

The literals of an artifact that could become variables: plain strings of scripts, and values of
configurations, which are looked for line by line.
-/

namespace Stencil.Extraction

/-- A literal that could become a variable. -/
structure Candidate where
  start : Nat
  value : List Char
  /-- The key or name that the literal is bound to. -/
  binding : Option (List Char)
  type : VariableType
  deriving Repr, DecidableEq, Inhabited

def Candidate.stop (c : Candidate) : Nat := c.start + Text.byteSize c.value

/-- The candidate that a literal is, when its value depends on the place of use. -/
def candidate? (start : Nat) (value : List Char) (binding : Option (List Char)) : Option Candidate :=
  (classify value).map fun type => ⟨start, value, binding, type⟩

/-! ### Scripts -/

/-- The candidates of a script, with errors in its tree or without. -/
def scriptCandidates [Libraries] (cs : List Char) : List Candidate :=
  match Libraries.script cs with
  | .error _ => []
  | .ok tree => (Script.literalsOf cs tree).filterMap fun l => candidate? l.start l.value l.binding

/-! ### Lines of configurations -/

/-- A key, the byte offset of its value in the line, and the value. -/
structure Pair where
  key : List Char
  offset : Nat
  value : List Char
  deriving Repr, DecidableEq, Inhabited

def isLineKeyChar (c : Char) : Bool := c.isAlphanum || c == '_' || c == '.' || c == '-'

def isSpaceOrTab (c : Char) : Bool := c == ' ' || c == '\t'

/-- A text without spaces and tabs at its end. -/
def withoutTail (cs : List Char) : List Char := (cs.reverse.dropWhile isSpaceOrTab).reverse

/-- The pair of a key with a mark and a value behind it; `gap` says whether there has to be a space
or tab behind the mark. The offset counts from the key on. -/
def keyed? (mark : Char) (gap : Bool) (cs : List Char) : Option Pair :=
  let key := cs.takeWhile isLineKeyChar
  match Text.trimStart (cs.dropWhile isLineKeyChar) with
  | c :: rest =>
    let value := rest.dropWhile isSpaceOrTab
    if key.isEmpty || c != mark || (gap && value.length == rest.length) then none
    else some ⟨key, Text.byteSize cs - Text.byteSize value, withoutTail value⟩
  | [] => none

/-- The pair of a line behind its blanks, perhaps behind a word that is set off by blanks; the key
may also begin with the word. -/
def pairBehind? (word : List Char) (mark : Char) (gap : Bool) (line : List Char) : Option Pair :=
  let cs := Text.trimStart line
  let shift (rest : List Char) (p : Pair) : Pair :=
    { p with offset := p.offset + (Text.byteSize line - Text.byteSize rest) }
  let behindWord : Option Pair := do
    let rest ← Text.dropPrefix? word cs
    let rest' := Text.trimStart rest
    guard (rest'.length != rest.length)
    (keyed? mark gap rest').map (shift rest')
  behindWord <|> (keyed? mark gap cs).map (shift cs)

def assignment? (line : List Char) : Option Pair := pairBehind? "export".toList '=' false line

def mapping? (line : List Char) : Option Pair := pairBehind? ['-'] ':' true line

/-- The text up to the next quote, when no backslash comes before it, and the text behind it. -/
def quotedText? (cs : List Char) : Option (List Char × List Char) :=
  let inner := cs.takeWhile fun c => c != '"' && c != '\\'
  match cs.drop inner.length with
  | '"' :: rest => some (inner, rest)
  | _ => none

/-- The quoted key and quoted value that a text begins with, and the text behind them. The offset
counts from the text on. -/
def quotedPair? : List Char → Option (Pair × List Char)
  | '"' :: cs => do
    let (key, rest) ← quotedText? cs
    guard !key.isEmpty
    match Text.trimStart rest with
    | ':' :: rest =>
      match Text.trimStart rest with
      | '"' :: rest =>
        let (value, rest') ← quotedText? rest
        return (⟨key, Text.byteSize cs + 1 - Text.byteSize rest, value⟩, rest')
      | _ => none
    | _ => none
  | _ => none

/-- The quoted pairs of a line from left to right, without overlap; `skip` counts the characters of a
pair still to be passed. -/
def quotedPairs (offset skip : Nat) : List Char → List Pair
  | [] => []
  | c :: cs =>
    let after := offset + c.utf8Size
    match skip with
    | k + 1 => quotedPairs after k cs
    | 0 =>
      match quotedPair? (c :: cs) with
      | some (p, rest) =>
        { p with offset := p.offset + offset } :: quotedPairs after (cs.length - rest.length) cs
      | none => quotedPairs after 0 cs

def isMarked (value : List Char) : Bool := (value.head?).any "|>&*\x7b[#!".toList.contains

/-- The candidate of the value of a line: what is between its quotes, or the whole of a plain value
where quotes are not needed. -/
def lineCandidate? (format : Format) (start : Nat) (p : Pair) : Option Candidate :=
  let bare : Option Candidate :=
    if format = .toml || isMarked p.value then none else candidate? (start + p.offset) p.value p.key
  match p.value with
  | q :: inner =>
    if (q == '"' || q == '\'') && inner.getLast? == some q then
      candidate? (start + p.offset + 1) inner.dropLast p.key
    else bare
  | [] => bare

def candidatesOfLine (format : Format) (start : Nat) (line : List Char) : List Candidate :=
  let body := (line.reverse.dropWhile fun c => c == '\n' || c == '\r').reverse
  if Text.allBlank body || (format != .json && Document.isComment body) then []
  else
    match format with
    | .json => (quotedPairs 0 0 body).filterMap fun p => candidate? (start + p.offset) p.value p.key
    | .yaml => ((mapping? body).bind (lineCandidate? format start)).toList
    | .ini | .env | .toml => ((assignment? body).bind (lineCandidate? format start)).toList

def candidatesOfLines (format : Format) (start : Nat) : List (List Char) → List Candidate
  | [] => []
  | line :: lines =>
    candidatesOfLine format start line ++ candidatesOfLines format (start + Text.byteSize line) lines

/-- The candidates of an artifact's text, in its order. -/
def candidates [Libraries] (kind : Kind) (cs : List Char) : List Candidate :=
  match kind with
  | .script => scriptCandidates cs
  | .config format => candidatesOfLines format 0 (Text.terminatedLines cs)

end Stencil.Extraction
