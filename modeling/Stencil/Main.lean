import Stencil.Command
import Stencil.Identifier.Drawn
import Std.Time.DateTime.Timestamp

/-!
# The program

Looks at the files that a call is about, carries the call out on what it saw, writes down what came of
it, and prints the report. All that is decided here is where to look.
-/

namespace Stencil.Command

open Readers

def readFile (path : String) : IO File := do
  let bytes ← IO.FS.readBinFile path
  return match String.fromUTF8? bytes with
    | some content => .text content
    | none => .binary bytes.size

/-- A machine with what lies at a path: a file, or the artifacts below a directory and its other files
without what is in them. -/
partial def look (m : Machine) (path : String) : IO Machine := do
  let found ← (IO.FS.realPath path).toBaseIO
  let .ok real := found | return m
  if ← real.isDir then
    let mut m := { m with files := m.files.put (m.files.locate ⟨path⟩) .directory }
    for entry in ← real.readDir do
      let inner := path ++ "/" ++ entry.fileName
      let metadata ← entry.path.symlinkMetadata
      match metadata.type with
      | .dir => if !({} : DiscoveryRules).excludes entry.fileName then m ← look m inner
      | .file =>
        let file ← if (Kind.ofPath? ⟨inner⟩).isSome then readFile inner
          else pure (.binary metadata.byteSize.toNat)
        m := { m with files := m.files.put (m.files.locate ⟨inner⟩) (.file file) }
      | _ => pure ()
    return m
  else return m.withFile ⟨path⟩ (← readFile path)

def vars : IO (SortedMap String String) := do
  let content ← IO.FS.readBinFile "/proc/self/environ"
  let entry (cs : List Char) : String × String :=
    (String.ofList (cs.takeWhile (· != '=')), String.ofList ((cs.dropWhile (· != '=')).drop 1))
  let entries := Text.splitBy (· == '\x00') ((String.fromUTF8? content).getD "").toList
  return .ofList ((entries.filter (·.contains '=')).map entry)

/-- The number of processors, one if it is not known. -/
def processors : IO Nat := do
  match ← (IO.FS.readFile "/proc/cpuinfo").toBaseIO with
  | .ok content =>
    let isProcessor (line : List Char) : Bool := "processor".toList.isPrefixOf line
    return max 1 ((Text.lines content.toList).filter isProcessor).length
  | .error _ => return 1

/-- New identifiers from chance, and the clock as it stands. -/
def supply : IO Supply := do
  let seed := toString (← IO.getRandomBytes 32)
  let now := (← Std.Time.Timestamp.now).val
  let start : Instant := ⟨now.second.val, now.nano.val.toNat⟩
  return {
    templateId := fun k => .drawn seed (2 * k)
    recordId := fun k => .drawn seed (2 * k + 1)
    time := fun _ => start
    elapsed := fun _ => ⟨0⟩ }

def save (m before : Machine) : IO Unit := do
  for (names, content) in m.written before do
    let path (names : List OsText) : String := "/" ++ String.intercalate "/" (names.map OsText.display)
    IO.FS.createDirAll (path names.dropLast)
    IO.FS.writeFile (path names) content

def call (arguments : List String) : IO UInt32 := do
  let begun ← IO.monoNanosNow
  let invocation : Invocation := {
    arguments, vars := ← vars, supply := ← supply, processors := ← processors }
  let here := (← IO.currentDir).toString
  let mut before : Machine := { files := { here := ⟨here⟩ } }
  -- What is seen tells where to look next: assignments, then the settings, then the rest.
  for _ in [0:3] do
    for path in sights invocation before.files do
      before ← look before path.text
  let (report, after) := execute invocation before
  save after before
  IO.eprint report.errors
  IO.print (report.output ⟨(← IO.monoNanosNow) - begun⟩)
  return report.code.toUInt32

end Stencil.Command

def main (arguments : List String) : IO UInt32 := Stencil.Command.call arguments
