import Stencil.Path
import Stencil.SortedMap

/-!
# File trees

The files and directories of a file system, by the names that lead to them from its root, in the
order in which a walk that sorts names meets them. Paths that are not absolute begin at one
directory, the one that the tree is seen from.
-/

namespace Stencil

inductive File where
  | text (content : String)
  /-- Bytes that are no text, by their number. -/
  | binary (size : Nat)
  deriving Repr, DecidableEq, Inhabited

def File.size : File → Nat
  | text content => content.utf8ByteSize
  | binary size => size

inductive FileEntry where
  | directory
  | file (file : File)
  deriving Repr, DecidableEq, Inhabited

/-- The files and directories of a file system, seen from one directory. -/
structure FileTree where
  /-- The directory at which paths begin that are not absolute. -/
  here : Path
  entries : SortedMap (List OsText) FileEntry := .empty
  deriving Inhabited

namespace FileTree

/-- The entry at the end of some names; no names lead to the root. -/
def find? (t : FileTree) (names : List OsText) : Option FileEntry :=
  if names.isEmpty then some .directory else t.entries.get? names

/-- The directories that lead to some names, the outermost first. -/
def parents (names : List OsText) : List (List OsText) :=
  (List.range (names.length - 1)).map fun n => names.take (n + 1)

/-- Puts an entry at the end of some names, and directories on the way where nothing is. -/
def put (t : FileTree) (names : List OsText) (entry : FileEntry) : FileTree :=
  let withParent (m : SortedMap (List OsText) FileEntry) (p : List OsText) :=
    if m.contains p then m else m.insert p .directory
  { t with entries := ((parents names).foldl withParent t.entries).insert names entry }

/-- The names that the steps of a path lead through from given names, the last one first. -/
def follow : List OsText → List Path.Component → List OsText
  | names, [] => names
  | _, .root :: steps => follow [] steps
  | names, .here :: steps => follow names steps
  | names, .parent :: steps => follow names.tail steps
  | names, .name n :: steps => follow (n :: names) steps

def locate (t : FileTree) (p : Path) : List OsText :=
  (follow (follow [] t.here.components) p.components).reverse

def at? (t : FileTree) (p : Path) : Option FileEntry := t.find? (t.locate p)

def isDirectory (t : FileTree) (p : Path) : Bool := t.at? p == some .directory

def file? (t : FileTree) (p : Path) : Option File :=
  match t.at? p with
  | some (.file f) => some f
  | _ => none

/-- The entries below some names, by the names that lead on from there. -/
def below (t : FileTree) (names : List OsText) : List (List OsText × FileEntry) :=
  t.entries.entries.filterMap fun (key, entry) =>
    if names.isPrefixOf key && names.length < key.length then some (key.drop names.length, entry)
    else none

end FileTree

end Stencil
