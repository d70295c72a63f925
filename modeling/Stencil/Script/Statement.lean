import Stencil.Script.Expression

/-!
# Statements of scripts

A compound statement has bodies: statements on the same line, an indented block, or nothing before
the end of the line. Words that begin statements elsewhere are names where a statement of theirs
cannot be read.
-/

namespace Stencil.Script

/-- Where a statement begins; the block around it may end there. -/
def startOfStatement (nested : Bool) : Expectation := { dedent := nested, string := true }

/-- Where a further clause of a compound statement may begin. -/
def startOfClause (nested : Bool) : Expectation := { dedent := nested }

/-- Words that an expression may go on with at the end of a statement. -/
def wordsBehindName : List String := ["if", "and", "or", "not", "in", "is", "as"]

def augmentedMarks : List String :=
  ["+=", "-=", "*=", "/=", "@=", "//=", "%=", "**=", ">>=", "<<=", "&=", "^=", "|="]

namespace Deeper

open Parse

variable (d : Deeper)

/-! ### Assignments -/

def assigned : Parse Node := do
  let next ← ahead (startOf false)
  let x ← if next.isWord "yield" then d.yieldExpr .statement (startOf false)
    else d.exprList .statement
  assignmentOf x
where
  /-- The assignment to a node that was read, or the node itself. -/
  assignmentOf (x : Node) : Parse Node := do
    let e := Around.statement.expectation
    let next ← ahead e
    if next.isMark "=" then
      if x.isTarget then
        let _ ← mark "=" e
        let value ← d.parse .assigned
        node .assignment x.start [x.withRole .left, value.withRole .right]
      else failure
    else if next.isMark ":" then
      if x.isTarget then
        let _ ← mark ":" e
        let t ← d.parse (.typeOf .statement true)
        if (← mark? "=" e).isSome then
          let value ← d.parse .assigned
          node .assignment x.start [x.withRole .left, t, value.withRole .right]
        else node .assignment x.start [x.withRole .left, t]
      else failure
    else
      match augmentedMarks.find? next.isMark with
      | some m =>
        if x.isTarget then
          let _ ← mark m e
          let value ← d.parse .assigned
          node .augmentedAssignment x.start [x.withRole .left, value.withRole .right]
        else failure
      | none => return x

def expressionStatement : Parse Node := do
  let x ← assigned d
  let parts := match x.form with
    | .expressionList => x.parts
    | _ => [x]
  return .mk .expressionStatement none x.start x.stop parts

/-! ### Imports -/

def dottedName (e : Expectation) (after : Expectation) : Parse Node := do
  let first ← name e
  let rest ← many d.bound do
    match ← mark? "." after with
    | some _ => some <$> name {}
    | none => return none
  node .dottedName first.start (first :: rest)

/-- A module or a name that is imported, perhaps under another name. -/
def importItem (e after : Expectation) : Parse Node := do
  let x ← d.dottedName e after
  if (← word? "as" after).isSome then
    let newName ← name {}
    node .aliasedImport x.start [x.withRole .name, newName]
  else return x

/-- What is imported; brackets are allowed around it when something is imported from a module. -/
def importItems (brackets : Bool) : Parse (List Node) := do
  let isOpen ← if brackets then mark? "(" {} else pure none
  match isOpen with
  | some _ =>
    let first ← d.importItem {} closing
    let (rest, _) ← commaTail closing closing (·.isMark ")") (d.importItem closing closing) d.bound
    let _ ← mark ")" closing
    return first :: rest
  | none =>
    let e : Expectation := { newline := true }
    let first ← d.importItem {} e
    let (rest, _) ← commaTail e e (·.word.isEmpty) (d.importItem e e) d.bound
    return first :: rest

def importStatement (e : Expectation) : Parse Node := do
  let start ← word "import" e
  let items ← d.importItems false
  node .importStatement start items

def importFrom (e : Expectation) : Parse Node := do
  let start ← word "from" e
  if (← word? "__future__" {}).isSome then
    let _ ← word "import" {}
    let items ← d.importItems true
    node .futureImportStatement start items
  else
    let dots ← many d.bound (mark? "." {})
    let source : Node ← match dots with
      | [] => d.dottedName {} {}
      | dot :: _ =>
        if (← ahead {}).isWord "import" then node .relativeImport dot []
        else
          let x ← d.dottedName {} {}
          node .relativeImport dot [x]
    let _ ← word "import" {}
    match ← mark? "*" {} with
    | some star =>
      let all ← node .wildcardImport star []
      node .importFromStatement start [source.withRole .moduleName, all]
    | none =>
      let items ← d.importItems true
      node .importFromStatement start (source.withRole .moduleName :: items)

/-! ### Simple statements -/

/-- Expressions at the end of a statement, if any stand there. -/
def optionalList : Parse (List Node) := do
  if (← ahead Around.statement.optional).startsExpression then
    List.singleton <$> d.exprList .statement
  else return []

def strictList : Parse (List Node) := do
  let item := d.expr .statement
  let first ← item
  let (rest, _) ← commaTail Around.statement.expectation {} (fun _ => false) item d.bound
  return first :: rest

def wordThen (s : String) (form : Form) (e : Expectation) (rest : Parse (List Node)) : Parse Node := do
  let start ← word s e
  let parts ← rest
  node form start parts

def names : Parse (List Node) := do
  let first ← name {}
  let (rest, _) ← commaTail { newline := true } {} (fun _ => false) (name {}) d.bound
  return first :: rest

/-- The statement that raises an exception, behind its word. -/
def raised : Parse (List Node) := do
  let here ← ahead Around.statement.optional
  let values ← if here.isWord "from" then pure [] else d.optionalList
  if (← word? "from" Around.statement.expectation).isSome then
    let cause ← d.expr .statement
    return values ++ [cause]
  else return values

/-- The statement that prints, behind its word; an expression is tried before it. -/
def printed : Parse (List Node) := do
  let args (e : Expectation) := commaTail e Around.statement.optional (fun x => !x.startsExpression)
    (d.expr .statement) d.bound
  let e := Around.statement.expectation
  let first ← d.expr .statement
  let (rest, _) ← args e
  return first :: rest

def printedTo (e : Expectation) : Parse Node := do
  let start ← word "print" e
  let arrow ← mark ">>" { newline := true, string := true }
  let file ← d.expr .statement
  let target ← node .chevron arrow [file]
  let (rest, _) ← commaTail Around.statement.expectation Around.statement.optional
    (fun x => !x.startsExpression) (d.expr .statement) d.bound
  node .printStatement start (target :: rest)

def execStatement (e : Expectation) : Parse Node := do
  let start ← word "exec" e
  let code ← match ← ahead Around.statement.optional with
    | .string cur => d.strings .statement cur
    | _ => name {}
  if (← word? "in" Around.statement.expectation).isSome then
    let scopes ← d.strictList
    node .execStatement start (code :: scopes)
  else node .execStatement start [code]

def typeAlias (e : Expectation) : Parse Node := do
  let start ← word "type" e
  let left ← d.parse (.typeOf .clause true)
  let _ ← mark "=" {}
  let right ← d.parse (.typeOf .statement true)
  node .typeAliasStatement start [left, right]

/-- A statement without bodies. -/
def simpleStatement (e : Expectation) : Parse Node := do
  let next ← ahead e
  let w := String.ofList next.word
  match w with
  | "import" => d.importStatement e
  | "from" => d.importFrom e
  | "assert" => wordThen w .assertStatement e d.strictList
  | "return" => wordThen w .returnStatement e d.optionalList
  | "del" => wordThen w .deleteStatement e (List.singleton <$> d.exprList .statement)
  | "raise" => wordThen w .raiseStatement e d.raised
  | "pass" | "break" | "continue" => wordThen w .wordStatement e (pure [])
  | "global" | "nonlocal" => wordThen w .scopeStatement e d.names
  | "print" => printStatement
  | "exec" => do
    let here ← get
    let _ ← word w e
    let code ← ahead Around.statement.optional
    set here
    let isCode := match code with
      | .string _ => true
      | code => !code.word.isEmpty && !code.isOneOf wordsBehindName
    if isCode then d.execStatement e else d.expressionStatement
  | "type" => ended (d.typeAlias e) <|> d.expressionStatement
  | _ => d.expressionStatement
where
  /-- The statement that prints, unless an expression begins with its word. -/
  printStatement : Parse Node := do
    let here ← get
    let _ ← word "print" e
    let arrow ← ahead { newline := true }
    set here
    if arrow.isMark ">>" then d.printedTo e
    else
      ended d.expressionStatement <|> wordThen "print" .printStatement e d.printed
  /-- A statement after which nothing else stands. -/
  ended (p : Parse Node) : Parse Node := do
    let x ← p
    let next ← ahead { newline := true }
    if next == .newline || next.isMark ";" then return x else failure

def simpleStatements (e : Expectation) : (n : Nat) → Parse (List Node)
  | 0 => failure
  | n + 1 => do
    let x ← d.simpleStatement e
    let lineEnd : Expectation := { newline := true }
    match ← ahead lineEnd with
    | .newline => return [x]
    | next =>
      if next.isMark ";" then
        let _ ← mark ";" lineEnd
        match ← ahead { lineEnd with string := true } with
        | .newline => return [x]
        | _ => return x :: (← simpleStatements { lineEnd with string := true } n)
      else failure

/-! ### Bodies -/

def blockStatements : (n : Nat) → Parse (List (List Node))
  | 0 => failure
  | n + 1 => do
    match ← ahead (startOfStatement true) with
    | .dedent =>
      modify fun cur => { cur with depths := cur.depths.tail }
      return []
    | _ =>
      let x ← d.parse (.statement true)
      return x.parts :: (← blockStatements n)

def suite : Parse Node := do
  let start ← offset
  match ← ahead { newline := true, indent := true, string := true } with
  | .newline => node .block start []
  | .indent depth =>
    modify fun cur => { cur with depths := depth :: cur.depths }
    let xs ← blockStatements d d.bound
    node .block start xs.flatten
  | _ =>
    let xs ← d.simpleStatements { newline := true, indent := true, string := true } d.bound
    node .block start xs

/-- A colon and the body behind it. -/
def body : Parse Node := do
  let _ ← mark ":" {}
  Node.withRole .body <$> d.parse .suite

/-! ### Compound statements -/

/-- A clause of a word, perhaps an expression, and a body. -/
def elseClause? (nested : Bool) : Parse (Option Node) := do
  match ← word? "else" (startOfClause nested) with
  | none => return none
  | some start =>
    let b ← d.body
    some <$> node .elseClause start [b]

/-- The clause that is taken when a former condition fails and its own holds. -/
def elifClause? (nested : Bool) : Parse (Option Node) := do
  match ← word? "elif" (startOfClause nested) with
  | none => return none
  | some start =>
    let condition ← d.expr .clause
    let b ← d.body
    some <$> node .elifClause start [condition.withRole .condition, b]

def ifStatement (nested : Bool) (e : Expectation) : Parse Node := do
  let start ← word "if" e
  let condition ← d.expr .clause
  let b ← d.body
  let elifs ← many d.bound (d.elifClause? nested)
  let last ← d.elseClause? nested
  node .ifStatement start (condition.withRole .condition :: b :: elifs ++ last.toList)

def forStatement (nested : Bool) (start : Nat) (e : Expectation) : Parse Node := do
  let _ ← word "for" e
  let left ← d.targets .clause
  let _ ← word "in" {}
  let source ← d.exprList .clause
  let b ← d.body
  let last ← d.elseClause? nested
  node .forStatement start (left :: source :: b :: last.toList)

def whileStatement (nested : Bool) (e : Expectation) : Parse Node := do
  let start ← word "while" e
  let condition ← d.expr .clause
  let b ← d.body
  let last ← d.elseClause? nested
  node .whileStatement start (condition.withRole .condition :: b :: last.toList)

/-- Where a further clause of a `try` statement may begin. -/
def startOfHandler (nested : Bool) : Expectation := { dedent := nested, except := true }

/-- A clause for exceptions of one kind, with a mark behind the word or without. -/
def exceptClause? (grouped : Bool) (e : Expectation) : Parse (Option Node) := do
  let next ← ahead e
  let hasMark := match next with
    | .token cur => "except*".toList.isPrefixOf cur.rest
    | _ => false
  if !next.isWord "except" then return none
  else if grouped then
    if !hasMark then return none
    else
      let start ← word "except" e
      let _ ← mark "*" {}
      let kind ← d.expr .clause
      let b ← d.body
      some <$> node .exceptGroupClause start [kind, b]
  else
    let start ← word "except" e
    if (← ahead (startOf false)).isMark ":" then
      let b ← d.body
      some <$> node .exceptClause start [b]
    else
      let kind ← d.expr .clause
      let newName ← match ← mark? "," {} with
        | some _ => List.singleton <$> d.expr .clause
        | none => pure []
      let b ← d.body
      some <$> node .exceptClause start (kind :: newName ++ [b])

/-- The clause that is always run. -/
def finallyClause? (e : Expectation) : Parse (Option Node) := do
  match ← word? "finally" e with
  | none => return none
  | some start =>
    let b ← d.body
    some <$> node .finallyClause start [b]

/-- The statement that handles exceptions. -/
def tryStatement (nested : Bool) (e : Expectation) : Parse Node := do
  let start ← word "try" e
  let b ← d.body
  let first : Expectation := { except := true }
  let grouped := match ← ahead first with
    | .token cur => "except*".toList.isPrefixOf cur.rest
    | _ => false
  match ← d.exceptClause? grouped first with
  | none =>
    match ← d.finallyClause? first with
    | none => failure
    | some last => node .tryStatement start [b, last]
  | some handler =>
    let later := startOfHandler nested
    let others ← many d.bound (d.exceptClause? grouped later)
    let orElse ← d.elseClause? nested
    let last ← d.finallyClause? (startOfClause nested)
    node .tryStatement start (b :: handler :: others ++ orElse.toList ++ last.toList)

def withStatement (start : Nat) (e : Expectation) : Parse Node := do
  let _ ← word "with" e
  let item : Parse Node := do
    let x ← d.expr .clause
    return .mk .withItem none x.start x.stop [x]
  let first ← item
  let (rest, _) ← commaTail {} (startOf false) (·.isMark ":") item d.bound
  let b ← d.body
  node .withStatement start (first :: rest ++ [b])

def functionDefinition (isAsync : Bool) (start : Nat) (e : Expectation) : Parse Node := do
  let _ ← word "def" e
  let title ← name {}
  let types ← if (← ahead {}).isMark "[" then List.singleton <$> d.typeParameters {} else pure []
  let opening ← mark "(" {}
  let params ← if (← ahead (startOf true)).isMark ")" then pure []
    else d.parameterList true .bracket ")"
  let _ ← mark ")" closing
  let params ← node .parameters opening params
  let result ← if (← mark? "->" {}).isSome then
      List.singleton <$> d.parse (.typeOf .clause false)
    else pure []
  let b ← d.body
  node (.functionDefinition isAsync) start
    (title.withRole .name :: types ++ params.withRole .parameters :: result ++ [b])

def classDefinition (e : Expectation) : Parse Node := do
  let start ← word "class" e
  let title ← name {}
  let types ← if (← ahead {}).isMark "[" then List.singleton <$> d.typeParameters {} else pure []
  let bases ← if (← ahead {}).isMark "(" then
      (fun x => [Node.withRole .superclasses x]) <$> d.arguments false {}
    else pure []
  let b ← d.body
  node .classDefinition start (title.withRole .name :: types ++ bases ++ [b])

def decorated : Parse Node := do
  let start ← offset
  let decorators ← many d.bound do
    match ← mark? "@" {} with
    | none => return none
    | some start =>
      let x ← d.expr .statement
      match ← ahead { newline := true } with
      | .newline => some <$> node .decorator start [x]
      | _ => failure
  let next ← settle {}
  let definition ← if next.isWord "class" then d.classDefinition {}
    else
      match ← word? "async" {} with
      | some start => d.functionDefinition true start {}
      | none => d.functionDefinition false (← offset) {}
  node .decoratedDefinition start (decorators ++ [definition])

/-! ### Cases -/

/-- A number with its sign and perhaps an imaginary part. -/
def caseNumber (e : Expectation) : Parse Node := do
  let sign ← mark? "-" e
  let number : Parse Node := do
    match ← ahead {} with
    | .token cur =>
      let n := Number.length cur.rest
      if n = 0 then failure
      else
        take cur n
        node .number cur.offset []
    | _ => failure
  let x ← number
  let next ← ahead closing
  let imaginary ← if next.isMark "+" || next.isMark "-" then
      let _ ← mark? "+" closing
      let _ ← mark? "-" closing
      List.singleton <$> number
    else pure []
  node .operation (sign.getD x.start) (x :: imaginary)

def casePatterns (item : Parse Node) (last : String) : Parse (List Node) := do
  if (← mark? last (startOf true)).isSome then return []
  else
    let first ← item
    let (rest, _) ← commaTail closing (startOf true) (·.isMark last) item d.bound
    let _ ← mark last closing
    return first :: rest

def caseSplat (e : Expectation) : Parse Node := do
  let start ← match ← mark? "**" e with
    | some start => pure start
    | none => mark "*" e
  let x ← name {}
  node .splatPattern start [x]

/-- A pattern without alternatives. -/
def simplePattern (close : Bool) : Parse Node := do
  let e := startOf close
  let next ← ahead e
  match next with
  | .string cur => d.strings .bracket cur
  | .token cur =>
    if next.isMark "(" then
      let start ← mark "(" e
      let xs ← casePatterns d (d.parse (.casePattern true)) ")"
      node .tuplePattern start xs
    else if next.isMark "[" then
      let start ← mark "[" e
      let xs ← casePatterns d (d.parse (.casePattern true)) "]"
      node .listPattern start xs
    else if next.isMark "\x7b" then
      let start ← mark "\x7b" e
      let xs ← casePatterns d (d.parse .entryPattern) "\x7d"
      node .dictPattern start xs
    else if next.isMark "*" || next.isMark "**" then caseSplat e
    else if next.isOneOf ["None", "True", "False"] then
      take cur next.word.length
      node .constant cur.offset []
    else if next.word.isEmpty then caseNumber e
    else
      let x ← d.dottedName e closing
      if (← ahead closing).isMark "(" then
        let _ ← mark "(" closing
        let xs ← casePatterns d (d.parse (.casePattern true)) ")"
        node .classPattern x.start (x :: xs)
      else return x
  | _ => failure

def unionPattern (close : Bool) : Parse Node := do
  let first ← d.simplePattern close
  let rest ← many d.bound do
    match ← mark? "|" closing with
    | none => return none
    | some _ => some <$> d.simplePattern false
  if rest.isEmpty then return first else node .unionPattern first.start (first :: rest)

def entryPattern : Parse Node := do
  let next ← ahead (startOf true)
  if next.isMark "*" || next.isMark "**" then caseSplat (startOf true)
  else
    let key ← d.unionPattern true
    let _ ← mark ":" closing
    let value ← d.parse (.casePattern false)
    return .mk .keywordPattern none key.start value.stop [key, value]

def casePattern (close : Bool) : Parse Node := do
  let here ← get
  let next ← ahead (startOf close)
  let isKeyword : Bool ← do
    if next.word.isEmpty then pure false
    else
      let _ ← name (startOf close)
      let isKeyword := (← ahead closing).isMark "="
      set here
      pure isKeyword
  let x ← if isKeyword then do
      let key ← name (startOf close)
      let _ ← mark "=" closing
      let value ← d.unionPattern false
      node .keywordPattern key.start [key, value]
    else d.unionPattern close
  let aliases ← many d.bound do
    match ← word? "as" closing with
    | none => return none
    | some _ => some <$> name {}
  node .casePattern x.start (x :: aliases)

/-- One case of a `match` statement. -/
def caseClause : Parse Node := do
  let start ← word "case" (startOfClause true)
  let item := d.parse (.casePattern false)
  let first ← item
  let (rest, _) ← commaTail {} (startOf false) (fun x => x.isMark ":" || x.isWord "if") item d.bound
  let guard ← match ← word? "if" {} with
    | none => pure []
    | some at_ => do
      let x ← d.expr .clause
      List.singleton <$> node .ifClause at_ [x]
  let b ← d.body
  node .caseClause start (first :: rest ++ guard ++ [b])

def cases : (n : Nat) → Parse (List Node)
  | 0 => failure
  | n + 1 => do
    match ← ahead (startOfClause true) with
    | .dedent =>
      modify fun cur => { cur with depths := cur.depths.tail }
      return []
    | _ =>
      let x ← d.caseClause
      return x :: (← cases n)

/-- The front of a `match` statement, up to the end of its line: its offset, its subjects, and the
depth of its cases, if it has any. -/
def matchFront (e : Expectation) : Parse (Nat × List Node × Option Nat) := do
  let start ← word "match" e
  let item := d.expr .clause
  let first ← item
  let (rest, _) ← commaTail {} (startOf false) (·.isMark ":") item d.bound
  let _ ← mark ":" {}
  match ← ahead { newline := true, indent := true } with
  | .newline => return (start, first :: rest, none)
  | .indent depth => return (start, first :: rest, some depth)
  | _ => failure

def matchRest (front : Nat × List Node × Option Nat) : Parse Node := do
  let (start, subjects, depth?) := front
  let at_ ← offset
  let xs ← match depth? with
    | none => pure []
    | some depth => do
      modify fun cur => { cur with depths := depth :: cur.depths }
      cases d d.bound
  let b ← node .block at_ xs
  node .matchStatement start (subjects ++ [b.withRole .body])

/-! ### Statements -/

/-- Simple statements as one node that holds them. -/
def simpleLine (e : Expectation) : Parse Node := do
  let start ← offset
  let xs ← d.simpleStatements e d.bound
  node .block start xs

/-- A statement as the only part of a node, or the statements of a line as its parts. -/
def statement (nested : Bool) : Parse Node := do
  let next ← settle (startOfStatement nested)
  let e := startOf false
  let only (p : Parse Node) : Parse Node := do
    let x ← p
    return .mk .block none x.start x.stop [x]
  match String.ofList next.word with
  | "if" => only (d.ifStatement nested e)
  | "for" => only (d.forStatement nested (← offset) e)
  | "while" => only (d.whileStatement nested e)
  | "try" => only (d.tryStatement nested e)
  | "with" => only (d.withStatement (← offset) e)
  | "def" => only (d.functionDefinition false (← offset) e)
  | "class" => only (d.classDefinition e)
  | "async" => do
    let here ← get
    let start ← word "async" e
    let next ← ahead Around.statement.expectation
    match String.ofList next.word with
    | "def" => only (d.functionDefinition true start {})
    | "for" => only (d.forStatement nested start {})
    | "with" => only (d.withStatement start {})
    | _ =>
      set here
      d.simpleLine e
  | "match" => do
    let here ← get
    let front ← some <$> d.matchFront e <|> pure none
    match front with
    | some front => only (d.matchRest front)
    | none =>
      set here
      d.simpleLine e
  | _ => if next.isMark "@" then only (d.decorated) else d.simpleLine e

end Deeper

end Stencil.Script
