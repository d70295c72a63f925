import Stencil.Grammar.Lines
import Stencil.Grammar.Structured
import Stencil.Kind
import Stencil.Script.Tree

/-!
# Grammars

One reader for all formats of configurations, and the issues of a text of any kind. Those of a script
are the errors and the missing tokens in its tree, in the order of the source; nothing is looked for
below them.
-/

namespace Stencil

namespace Script

/-- The place where a node begins; its column counts bytes. -/
def Node.place (source : List Char) (n : Node) : Text.Position :=
  .afterBytes (Text.takeBytes n.start source)

mutual

def Node.collectIssues (source : List Char) : Node → List Issue
  | .mk form role start stop parts =>
    let place := Node.place source (.mk form role start stop parts)
    match form with
    | .missing kind _ => [⟨place, .missing kind⟩]
    | .error => [⟨place, .invalidSyntax⟩]
    | _ => collectIssuesAmong source parts

def collectIssuesAmong (source : List Char) : List Node → List Issue
  | [] => []
  | p :: ps =>
    (if p.hasError || p.form.isMissing then p.collectIssues source else []) ++ collectIssuesAmong source ps

end

def Node.issues (source : List Char) (root : Node) : List Issue :=
  if root.hasError then root.collectIssues source else []

end Script

variable [Libraries]

def Format.document (f : Format) (cs : List Char) : Except (List Issue) Document :=
  match f with
  | .ini => Lines.parse .settings cs
  | .env => Lines.parse .environment cs
  | .json => Json.document cs
  | .yaml => Yaml.document cs
  | .toml => Toml.document cs

/-- Everything that is wrong with a text of a kind. -/
def Kind.issues (k : Kind) (cs : List Char) : List Issue :=
  match k with
  | .script =>
    match Libraries.script cs with
    | .ok tree => tree.issues cs
    | .error issue => [issue]
  | .config format =>
    match format.document cs with
    | .ok _ => []
    | .error issues => issues

end Stencil
