import Stencil.Catalog
import Stencil.Catalog.Document
import Stencil.FileTree

/-!
# Machines

What a command finds and leaves behind: files, and catalogs that are kept in files.
-/

namespace Stencil.Command

/-- Files, and the catalogs in those of them that are databases, by the names that lead to them. -/
structure Machine where
  files : FileTree
  catalogs : SortedMap (List OsText) Catalog.Relational := .empty
  deriving Inhabited

namespace Machine

/-- The number of bytes of a database without rows; no one looks at the bytes. -/
def databaseSize : Nat := 4096

/-- Whether a path stands for a database that is never kept. -/
def isPassing (p : Path) : Bool := p == ⟨""⟩ || p == ⟨":memory:"⟩

/-- Whether the directory at the end of some names is there or can be made. -/
def canHold (m : Machine) (names : List OsText) : Bool :=
  (FileTree.parents names).all fun p =>
    match m.files.find? p with
    | some (.file _) => false
    | _ => true

/-- The catalog at a path, a new one if nothing is there. -/
def openCatalog (m : Machine) (p : Path) : Except Error Catalog.Relational :=
  let names := m.files.locate p
  let failed (what : String) : Except Error Catalog.Relational :=
    Catalog.unavailable ("failed to " ++ what)
  if isPassing p then .ok {}
  else if !m.canHold names then
    failed ("create " ++ ((p.parent?.map Path.text).getD "") ++ ": Not a directory")
  else
    match m.files.find? names with
    | some .directory => failed ("open " ++ p.text ++ ": unable to open database file")
    | some (.file (.text "")) | none => .ok {}
    | some (.file (.text _)) => failed "set pragmas: file is not a database"
    | some (.file (.binary _)) =>
      match m.catalogs.get? names with
      | some r => .ok r
      | none => failed "set pragmas: file is not a database"

def keepCatalog (m : Machine) (p : Path) (r : Catalog.Relational) : Machine :=
  let names := m.files.locate p
  if isPassing p then m
  else
    { files := m.files.put names (.file (.binary databaseSize))
      catalogs := m.catalogs.insert names r }

/-- The machine with a file at a path; the document of a catalog stands for that catalog. -/
def withFile (m : Machine) (p : Path) (f : File) : Machine :=
  let other : Machine := { m with files := m.files.put (m.files.locate p) (.file f) }
  match f with
  | .text content =>
    match Catalog.Relational.ofDocument? content with
    | some r => m.keepCatalog p r
    | none => other
  | .binary _ => other

/-- The files that a machine has and another one had not, and its catalogs, with what is in them. -/
def written (m before : Machine) : List (List OsText × String) :=
  let isNew (e : List OsText × FileEntry) : Option (List OsText × String) :=
    match e.2 with
    | .file (.text content) =>
      if (before.files.find? e.1).isSome then none else some (e.1, content)
    | _ => none
  m.files.entries.entries.filterMap isNew ++
    m.catalogs.entries.map fun e => (e.1, e.2.document)

/-- The machine with an empty file at a path, unless a file is there. -/
def touch (m : Machine) (p : Path) : Machine :=
  let names := m.files.locate p
  if (m.files.find? names).isSome || !m.canHold names then m
  else { m with files := m.files.put names (.file (.text "")) }

end Machine

end Stencil.Command
