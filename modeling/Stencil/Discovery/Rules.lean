import Stencil.Priority
import Stencil.Path
import Stencil.Text.Lower
import Stencil.Text.Search

/-!
# Rules of discovery

Which directories are left out, how large a file may be, and which priority an artifact gets by where
it lies.
-/

namespace Stencil

/-- The priority of the artifacts below a path. -/
structure PriorityRule where
  front : Path
  priority : UInt8
  deriving Repr, DecidableEq, Inhabited

namespace PriorityRule

def toJson? (r : PriorityRule) : Option Json := do
  return .obj [("prefix", ← r.front.toJson?), ("priority", .nat r.priority.toNat)]

def ofJson? (j : Json) : Option PriorityRule := do
  let j ← j.asRecord? ["prefix", "priority"]
  return {
    front := ← j.required "prefix" Path.ofJson?,
    priority := ← j.required "priority" Priority.byteOfJson? }

end PriorityRule

/-- How a directory is searched for artifacts. -/
structure DiscoveryRules where
  priorities : List PriorityRule := []
  defaultPriority : UInt8 := 3
  /-- The largest number of bytes of an artifact. -/
  maxSize : UInt64 := 1048576
  /-- Directories that are left out besides those that always are. -/
  excluded : List String := []
  deriving Repr, DecidableEq, Inhabited

namespace DiscoveryRules

def alwaysExcluded : List String := ["target", "node_modules", "__pycache__", "venv"]

/-- The priority of an artifact at a path: that of the first rule whose path leads to it. -/
def priorityOf (r : DiscoveryRules) (p : Path) : UInt8 :=
  ((r.priorities.find? fun rule => rule.front.components.isPrefixOf p.components).map
    (·.priority)).getD r.defaultPriority

def excludes (r : DiscoveryRules) (name : String) : Bool :=
  (name.toList.head?).any (· == '.') || Text.containsString "backup" (Text.asciiLower name.toList) ||
    alwaysExcluded.contains name || r.excluded.contains name

def toJson? (r : DiscoveryRules) : Option Json := do
  return .obj [("priorities", .arr (← r.priorities.mapM PriorityRule.toJson?)),
    ("default_priority", .nat r.defaultPriority.toNat), ("max_file_size", .nat r.maxSize.toNat),
    ("exclude_dirs", .strs r.excluded)]

/-- The rules of a JSON value; a missing field has its usual value. -/
def ofJson? (j : Json) : Option DiscoveryRules := do
  let j ← j.asRecord? ["priorities", "default_priority", "max_file_size", "exclude_dirs"]
  let usual : DiscoveryRules := {}
  return {
    priorities := ← j.defaulted "priorities" [] (Json.asList? PriorityRule.ofJson?),
    defaultPriority := ← j.defaulted "default_priority" usual.defaultPriority Priority.byteOfJson?,
    maxSize := ← j.defaulted "max_file_size" usual.maxSize
      fun v => (v.asNat? 64).map UInt64.ofNat,
    excluded := ← j.defaulted "exclude_dirs" [] (Json.asList? Json.asString?) }

end DiscoveryRules

end Stencil
