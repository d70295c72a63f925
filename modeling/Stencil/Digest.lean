import Stencil.Digest.Sha256
import Stencil.Json.Fields
import Stencil.Text.Bytes

/-!
# Digests of texts

The SHA-256 digest of a text, written in base sixteen. A digest that was stored is taken as it is.
-/

namespace Stencil

/-- The written digest of a text. -/
structure Digest where
  text : String
  deriving Repr, DecidableEq, Inhabited

namespace Digest

def of (content : String) : Digest :=
  ⟨String.ofList (Sha256.hex (Sha256.digest content.toUTF8.toList))⟩

def short (d : Digest) : String := String.ofList (Text.takeBytes 12 d.text.toList)

def toJson (d : Digest) : Json := .str d.text

def ofJson? (j : Json) : Option Digest := j.asString?.map Digest.mk

end Digest

end Stencil
