/-!
# Syntax trees of scripts

A node has a form, perhaps a role in its parent, a range of bytes of the source, and its parts in
the order of the source. Words and marks that carry no meaning of their own are not nodes, but for
those that the parser put in because the source lacks them. A text that is not in the grammar has a
tree as well: what fits nowhere stands in it as an error.
-/

namespace Stencil.Script

inductive Form where
  | module
  | block
  | comment
  -- statements
  | importStatement
  | importFromStatement
  | futureImportStatement
  | dottedName
  | aliasedImport
  | relativeImport
  | wildcardImport
  | expressionStatement
  | printStatement
  | chevron
  | assertStatement
  | returnStatement
  | deleteStatement
  | raiseStatement
  | wordStatement
  | scopeStatement
  | execStatement
  | typeAliasStatement
  | ifStatement
  | elifClause
  | elseClause
  | forStatement
  | whileStatement
  | tryStatement
  | exceptClause
  | exceptGroupClause
  | finallyClause
  | withStatement
  | withItem
  | matchStatement
  | caseClause
  | functionDefinition (isAsync : Bool)
  | classDefinition
  | decoratedDefinition
  | decorator
  -- parameters
  | parameters
  | lambdaParameters
  | typedParameter
  | defaultParameter
  | typedDefaultParameter
  | listSplatPattern
  | dictionarySplatPattern
  | tuplePattern
  | keywordSeparator
  | positionalSeparator
  | typeParameters
  | typeOf
  -- patterns of cases
  | casePattern
  | keywordPattern
  | classPattern
  | unionPattern
  | splatPattern
  | listPattern
  | dictPattern
  -- expressions
  | identifier
  | number
  | constant
  | ellipsis
  | operation
  | namedExpression
  | lambda
  | await
  | yield
  | assignment
  | augmentedAssignment
  | expressionList
  | attribute
  | subscript
  | slice
  | call
  | argumentList
  | keywordArgument
  | listSplat
  | dictionarySplat
  | parenthesized
  | tuple
  | list
  | set
  | dictionary
  | pair
  | listComprehension
  | setComprehension
  | dictionaryComprehension
  | generatorExpression
  | forInClause
  | ifClause
  -- strings
  | string
  | concatenatedString
  | stringStart
  | stringContent
  | stringEnd
  | escape
  | interpolation
  | formatSpecifier
  -- what a text outside of the grammar leaves in its tree
  | error
  | missing (kind : String) (named : Bool)
  deriving Repr, DecidableEq, Inhabited

/-- Whether a node has a name of its own in the grammar; a word or a mark that is missing has none. -/
def Form.isNamed : Form → Bool
  | missing _ named => named
  | _ => true

def Form.isMissing : Form → Bool
  | missing _ _ => true
  | _ => false

/-- The role of a node in its parent. -/
inductive Role where
  | name
  | parameters
  | superclasses
  | body
  | condition
  | moduleName
  | left
  | right
  | key
  | value
  deriving Repr, DecidableEq, Inhabited

inductive Node where
  | mk (form : Form) (role : Option Role) (start stop : Nat) (parts : List Node)
  deriving Repr, Inhabited

namespace Node

def form : Node → Form
  | mk form _ _ _ _ => form

def role : Node → Option Role
  | mk _ role _ _ _ => role

def start : Node → Nat
  | mk _ _ start _ _ => start

def stop : Node → Nat
  | mk _ _ _ stop _ => stop

def parts : Node → List Node
  | mk _ _ _ _ parts => parts

def withRole (role : Role) : Node → Node
  | mk form _ start stop parts => mk form (some role) start stop parts

/-- The parts that have names of their own. -/
def named (n : Node) : List Node := n.parts.filter fun p => p.form.isNamed

def part? (n : Node) (role : Role) : Option Node := n.parts.find? fun p => p.role == some role

mutual

/-- The node and everything below it, in the order of the source. -/
def preorder : Node → List Node
  | mk form role start stop parts => mk form role start stop parts :: preorderAll parts

def preorderAll : List Node → List Node
  | [] => []
  | n :: ns => preorder n ++ preorderAll ns

end

mutual

/-- Whether the node or one below it is an error or missing. -/
def hasError : Node → Bool
  | mk form _ _ _ parts => form == .error || form.isMissing || anyHasError parts

def anyHasError : List Node → Bool
  | [] => false
  | n :: ns => hasError n || anyHasError ns

end

end Node

end Stencil.Script
