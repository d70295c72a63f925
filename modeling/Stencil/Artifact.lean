import Stencil.Digest
import Stencil.Error
import Stencil.Kind
import Stencil.Priority
import Stencil.Text.Lines

/-!
# Artifacts

One script or configuration file: its path, its content, and what follows from them.
-/

namespace Stencil

structure Artifact where
  path : Path
  content : String
  kind : Kind
  priority : Priority := .normal
  deriving Repr, DecidableEq, Inhabited

namespace Artifact

/-- The artifact of a path and a content, with the kind that the path stands for. -/
def ofPath (path : Path) (content : String) : Except Error Artifact :=
  match Kind.ofPath? path with
  | some kind => .ok { path, content, kind }
  | none => .error (.unsupported path.text .unknownExtension)

def withPriority (a : Artifact) (n : UInt8) : Artifact := { a with priority := .of n }

def digest (a : Artifact) : Digest := .of a.content

def size (a : Artifact) : Nat := a.content.utf8ByteSize

def lineCount (a : Artifact) : Nat := (Text.terminatedLines a.content.toList).length

/-- The file name, or the whole path when it has none. -/
def name (a : Artifact) : String := (a.path.fileName?.map OsText.display).getD a.path.text

def stem (a : Artifact) : String := (a.path.fileStem?.map OsText.display).getD a.name

def toJson? (a : Artifact) : Option Json := do
  return .obj [("source_path", ← a.path.toJson?), ("raw_content", .str a.content),
    ("content_hash", a.digest.toJson), ("kind", a.kind.toJson), ("size", .nat a.size),
    ("line_count", .nat a.lineCount), ("priority", a.priority.toJson)]

end Artifact

end Stencil
