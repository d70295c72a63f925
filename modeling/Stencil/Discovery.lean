import Stencil.Artifact
import Stencil.Discovery.Rules
import Stencil.FileTree

/-!
# Discovery

The artifacts below a directory: the files whose names stand for a kind, that are not too large and
that hold text, in the order of a walk that sorts names. Their paths begin at the directory.
-/

namespace Stencil.Discovery

def pathOf (names : List OsText) : Path := ⟨⟨[Path.slash].intercalate (names.map OsText.bytes)⟩⟩

/-- The artifact of a file, when it is one. -/
def artifact? (r : DiscoveryRules) (names : List OsText) (file : File) : Option Artifact :=
  let path := pathOf names
  match Kind.ofPath? path, file with
  | some kind, .text content =>
    if r.maxSize.toNat < file.size then none
    else some { path, content, kind, priority := .of (r.priorityOf path) }
  | _, _ => none

/-- The artifact of an entry below the directory, unless a directory on the way is left out. -/
def entryArtifact? (r : DiscoveryRules) : List OsText × FileEntry → Option Artifact
  | (names, .file file) => if names.dropLast.any fun n => r.excludes n.display then none else artifact? r names file
  | (_, .directory) => none

def discover (r : DiscoveryRules) (t : FileTree) (root : Path) : Except Error (List Artifact) :=
  if t.isDirectory root then .ok ((t.below (t.locate root)).filterMap (entryArtifact? r))
  else .error (.discoveryFailed root.text "not a directory")

end Stencil.Discovery
