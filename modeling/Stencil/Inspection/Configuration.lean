import Stencil.Inspection.Profile
import Stencil.Grammar
import Stencil.Placeholder

/-!
# Inspection of configurations

The signals of a configuration come from its keys, its comments and its values.
-/

namespace Stencil.Inspection

def keyParts (key : String) : List (List Char) :=
  Text.splitBy (fun c => c == '.' || c == '_' || c == '-') (Text.asciiLower key.toList)

def anyKey (doc : Document) (words : List String) : Bool :=
  doc.entries.any fun e => (keyParts e.key).any fun p => words.any fun w => Text.containsString w p

def isAbsolutePath : List Char → Bool
  | '/' :: c :: _ => c != '/' && !Text.isBlank c
  | '~' :: '/' :: _ => true
  | d :: ':' :: c :: _ => d.isAlpha && (c == '\\' || c == '/')
  | _ => false

def hasReference : List Char → Bool
  | '$' :: '{' :: cs => (Placeholder.closed? cs).isSome || hasReference cs
  | _ :: cs => hasReference cs
  | [] => false

def configurationFacts (doc : Document) : Facts where
  nesting := doc.depth
  documented := doc.commentLines != 0
  logs := anyKey doc ["log"]
  handlesErrors := anyKey doc ["retry", "retries", "timeout", "fallback"]
  guarded := doc.sections != 0

def configurationShows (format : Format) (doc : Document) (content : List Char) : Signal → Bool
  | .logging => (configurationFacts doc).logs
  | .errorHandling => (configurationFacts doc).handlesErrors
  | .docstring => (configurationFacts doc).documented
  | .typeAnnotations => format.isStructured
  | .entryGuard => (configurationFacts doc).guarded
  | .header => doc.leadingComment
  | .externalConfig => hasReference content
  | .persistence =>
    anyKey doc ["database", "db", "sqlite", "dsn", "storage", "redis", "mongo", "postgres"]
  | .progress => anyKey doc ["progress", "verbose", "verbosity", "interval"]
  | .pathAbstraction => !doc.entries.any fun e => isAbsolutePath (Text.trim e.value.toList)

def configurationProfile (format : Format) (doc : Document) (content : List Char) : Profile where
  facts := configurationFacts doc
  signals := Signal.all.filter (configurationShows format doc content)

end Stencil.Inspection
