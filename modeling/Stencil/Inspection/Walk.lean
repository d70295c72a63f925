import Stencil.Inspection.Profile
import Stencil.Script.Literals

/-!
# Walks over syntax trees

What the tree of a script shows is gathered in one pass, each node before its parts. A node is noted by its
form, by the number of control statements around it, and by whether it stands under a decorator.
-/

namespace Stencil.Script

def Form.isControl : Form → Bool
  | ifStatement | forStatement | whileStatement | withStatement | tryStatement | matchStatement => true
  | _ => false

def Form.isComprehension : Form → Bool
  | listComprehension | dictionaryComprehension | setComprehension | generatorExpression => true
  | _ => false

/-- What a walk has gathered so far. -/
structure Walk where
  profile : Profile := {}
  /-- The number of parameters of functions that say no type. -/
  untyped : Nat := 0
  deriving Repr, DecidableEq, Inhabited

namespace Walk

def tag (t : String) (w : Walk) : Walk := { w with profile.tags := w.profile.tags ++ [t] }

def baseName (dotted : List Char) : List Char := Text.trim (dotted.takeWhile (· != '.'))

/-- Notes the module at the base of a dotted name, unless it is known already. -/
def depend (dotted : List Char) (w : Walk) : Walk :=
  let base := String.ofList (baseName dotted)
  if base.isEmpty || w.profile.dependencies.contains base then w
  else { w with profile.dependencies := w.profile.dependencies ++ [base] }

/-- Whether a parameter other than `self` and `cls` says no type. -/
def isUntyped (source : List Char) (p : Node) : Bool :=
  match p.form with
  | .identifier => !(["self", "cls"].contains (String.ofList (p.text source)))
  | .defaultParameter | .listSplatPattern | .dictionarySplatPattern => true
  | _ => false

def noteFunction (source : List Char) (isAsync decorated : Bool) (n : Node) (w : Walk) : Walk :=
  let w := match n.part? .name with
    | some name =>
      { w with profile.functions := w.profile.functions ++ [String.ofList (name.text source)] }
    | none => w
  let w := if isAsync then w.tag "function:async" else w
  let w := if decorated then w.tag "function:decorated" else w
  match n.part? .parameters with
  | some ps => { w with untyped := w.untyped + ps.parts.countP (isUntyped source) }
  | none => w

def noteClass (source : List Char) (n : Node) (w : Walk) : Walk :=
  let w := match n.part? .name with
    | some name => { w with profile.classes := w.profile.classes ++ [String.ofList (name.text source)] }
    | none => w
  if (n.part? .superclasses).any fun s => !s.parts.isEmpty then w.tag "class:inheritance" else w

/-- The module that an item of an import statement names. -/
def importedModule? (item : Node) : Option Node :=
  match item.form with
  | .aliasedImport => item.part? .name
  | .dottedName => some item
  | _ => none

def noteImport (w : Walk) : Walk := { w with profile.facts.imports := w.profile.facts.imports + 1 }

/-- Notes the modules that a statement names in full. -/
def dependOn (source : List Char) (modules : List Node) (w : Walk) : Walk :=
  modules.foldl (fun w m => w.depend (m.text source)) w

/-- Notes one node that has `depth` control statements around it. -/
def note (source : List Char) (decorated : Bool) (depth : Nat) (n : Node) (w : Walk) : Walk :=
  let w :=
    if n.form.isControl then
      { w with profile.facts.nesting := max w.profile.facts.nesting (depth + 1) }
    else w
  let w := if n.form.isComprehension then w.tag "comprehension" else w
  match n.form with
  | .functionDefinition isAsync => w.noteFunction source isAsync decorated n
  | .classDefinition => w.noteClass source n
  | .tryStatement => { w.tag "error_handling:try_except" with profile.facts.handlesErrors := true }
  | .exceptClause | .exceptGroupClause =>
    { w with profile.facts.handlers := w.profile.facts.handlers + 1 }
  | .withStatement => w.tag "context_manager:with_statement"
  | .importStatement => w.noteImport.dependOn source (n.parts.filterMap importedModule?)
  | .importFromStatement =>
    w.noteImport.dependOn source ((n.part? .moduleName).toList.filter fun m => m.form == .dottedName)
  | .futureImportStatement => w.noteImport
  | _ => w

mutual

def visit (source : List Char) (decorated : Bool) (depth : Nat) : Node → Walk → Walk
  | .mk form role start stop parts, w =>
    visitAll source (form == .decoratedDefinition) (if form.isControl then depth + 1 else depth) parts
      (note source decorated depth (.mk form role start stop parts) w)

def visitAll (source : List Char) (decorated : Bool) (depth : Nat) : List Node → Walk → Walk
  | [], w => w
  | n :: ns, w => visitAll source decorated depth ns (visit source decorated depth n w)

end

/-- All that a walk gathers from a tree. -/
def gather (source : List Char) (tree : Node) : Walk := visit source false 0 tree {}

end Walk

end Stencil.Script
