import Stencil.Command.Arguments
import Stencil.Json.Writer

/-!
# Consoles

How lines are printed. A quiet console prints nothing but JSON documents; colours are for people
only.
-/

namespace Stencil.Command

structure Console where
  isQuiet : Bool
  isJson : Bool
  hasColor : Bool
  deriving Repr, Inhabited

/-- A mark in front of a line. -/
inductive Marker where
  | success
  | warning
  | info
  deriving Repr, DecidableEq, Inhabited

def Marker.sign : Marker → String
  | success => "✓"
  | warning => "⚠"
  | info => "ℹ"

def Marker.color : Marker → String
  | success => "32"
  | warning => "33"
  | info => "34"

def painted (on off text : String) : String := "\x1b[" ++ on ++ "m" ++ text ++ "\x1b[" ++ off ++ "m"

def colored (color text : String) : String := painted color "39" text

def bold (text : String) : String := painted "1" "0" text

namespace Console

/-- The console of some options, when the output goes to no terminal. -/
def of (o : Options) (noColor : Bool) : Console where
  isQuiet := o.isQuiet
  isJson := o.format == .json
  hasColor := o.format == .human && !o.noColor && !noColor

def line (c : Console) (text : String) : List String := if c.isQuiet then [] else [text]

def lines (c : Console) (texts : List String) : List String := texts.flatMap c.line

def heading (c : Console) (text : String) : List String :=
  c.line (if c.hasColor then bold (colored "36" text) else text)

def marked (c : Console) (m : Marker) (text : String) : List String :=
  c.line (if c.hasColor then bold (colored m.color m.sign) ++ " " ++ colored m.color text
    else m.sign ++ " " ++ text)

def json (j : Json) : List String := [j.pretty]

theorem lines_of_quiet {c : Console} (h : c.isQuiet = true) (texts : List String) :
    c.lines texts = [] := by
  simp [lines, line, h]

end Console

end Stencil.Command
