import Stencil.Script.Quoted

/-!
# Expressions of scripts

Operators are read without precedence: a chain of operands makes one node, as nothing here asks how
they group. Words are names wherever the grammar has no other use for them.
-/

namespace Stencil.Script

def operatorMarks : List String :=
  ["+", "-", "*", "@", "/", "%", "//", "**", "|", "&", "^", "<<", ">>", "<", "<=", "==", "!=", ">=", ">",
    "<>"]

/-- Words that go on with an expression, so no operand of `await` begins with them. -/
def wordsBehindOperand : List String :=
  ["if", "else", "and", "or", "not", "in", "is", "as", "for", "async", "from"]

mutual

/-- Whether values can be assigned to a node: a place, or a sequence of places. -/
def Node.isTarget : Node → Bool
  | .mk .identifier _ _ _ _ | .mk .attribute _ _ _ _ | .mk .subscript _ _ _ _ => true
  | .mk .listSplat _ _ _ (x :: _) => [Form.identifier, .attribute, .subscript].contains x.form
  | .mk .parenthesized _ _ _ parts | .mk .tuple _ _ _ parts | .mk .list _ _ _ parts
  | .mk .expressionList _ _ _ parts => Node.areTargets parts
  | _ => false

def Node.areTargets : List Node → Bool
  | [] => true
  | x :: xs => Node.isTarget x && Node.areTargets xs

end

/-- Whether a node may take a splat: a name, or a trailer of one, or a part of a value. -/
def Node.takesSplat : Node → Bool
  | mk .identifier _ _ _ _ | mk .attribute _ _ _ _ | mk .subscript _ _ _ _ => true
  | mk .call _ _ _ (f :: _) => f.takesSplat
  | _ => false

/-- Where an expression may begin. -/
def startOf (close : Bool) : Expectation := { string := true, close }

/-- Where an expression may begin or be left out. -/
def Around.optional (a : Around) : Expectation := { a.expectation with string := true }

def closing : Expectation := { close := true }

namespace Deeper

open Parse

variable (d : Deeper)

def expr (a : Around) (close : Bool := false) : Parse Node := d.parse (.expression a close)

/-- Expressions with commas between them and perhaps at the end; a single one without comma stands
for itself. -/
def exprList (a : Around) (close : Bool := false) : Parse Node := do
  let first ← d.expr a close
  let (rest, hasComma) ← commaTail a.expectation a.optional (fun x => !x.startsExpression) (d.expr a)
    d.bound
  if hasComma then node .expressionList first.start (first :: rest) else return first

/-- A `yield` with its word still to come. -/
def yieldExpr (a : Around) (e : Expectation) : Parse Node := do
  let start ← word "yield" e
  if (← word? "from" a.optional).isSome then
    let x ← d.expr a
    node .yield start [x]
  else if (← ahead a.optional).startsExpression then
    let x ← d.exprList a
    node .yield start [x]
  else node .yield start []

/-! ### Brackets -/

/-- An expression, a `yield` or a splat in brackets. -/
def element : Parse Node := do
  let next ← ahead (startOf true)
  if next.isWord "yield" then d.yieldExpr .bracket (startOf true)
  else if next.isMark "*" then
    let start ← mark "*" (startOf true)
    let x ← d.expr .bracket
    node .listSplat start [x]
  else d.expr .bracket true

/-- Places where values are assigned, with commas between them, up to the word `in`. -/
def targets (a : Around) : Parse Node := do
  let first ← d.parse (.primary a false)
  let (rest, hasComma) ← commaTail {} (startOf false) (·.isWord "in") (d.parse (.primary a false)) d.bound
  if !(first :: rest).all Node.isTarget then failure
  else if hasComma then node .expressionList first.start (first :: rest)
  else return first

/-- One clause of a comprehension, when there is one. -/
def clause? : Parse (Option Node) := do
  let next ← ahead closing
  if next.isWord "if" then
    let start ← word "if" closing
    let x ← d.expr { close := true, conditional := false }
    some <$> node .ifClause start [x]
  else if next.isOneOf ["for", "async"] then
    let isAsync ← word? "async" closing
    let loop ← word "for" closing
    let left ← d.targets .clause
    let _ ← word "in" {}
    let source : Parse Node := d.expr { close := true, conditional := false }
    let first ← source
    let (rest, _) ← commaTail closing (startOf true)
      (fun x => !x.startsExpression || x.isOneOf ["for", "async", "if"]) source d.bound
    some <$> node .forInClause (isAsync.getD loop) (left :: first :: rest)
  else return none

def clausesAhead : Parse Bool := return (← ahead closing).isOneOf ["for", "async"]

def clauses : Parse (List Node) := many d.bound d.clause?

/-- The elements behind the first one in brackets. -/
def otherElements (close : String) : Parse (List Node × Bool) :=
  commaTail closing (startOf true) (·.isMark close) d.element d.bound

def parenthesized : Parse Node := do
  let start ← mark "(" (startOf true)
  if (← mark? ")" (startOf true)).isSome then node .tuple start []
  else
    let first ← d.element
    if first.form != .listSplat && first.form != .yield && (← clausesAhead) then
      let cs ← d.clauses
      let _ ← mark ")" closing
      node .generatorExpression start (first :: cs)
    else
      let (rest, hasComma) ← d.otherElements ")"
      let _ ← mark ")" closing
      if hasComma || first.form == .listSplat then node .tuple start (first :: rest)
      else node .parenthesized start [first]

def bracketed : Parse Node := do
  let start ← mark "[" (startOf true)
  if (← mark? "]" (startOf true)).isSome then node .list start []
  else
    let first ← d.element
    if first.form != .listSplat && first.form != .yield && (← clausesAhead) then
      let cs ← d.clauses
      let _ ← mark "]" closing
      node .listComprehension start (first :: cs)
    else
      let (rest, _) ← d.otherElements "]"
      let _ ← mark "]" closing
      node .list start (first :: rest)

/-- The value behind a key. -/
def pairOf (key : Node) : Parse Node := do
  let _ ← mark ":" closing
  let value ← d.expr .bracket
  node .pair key.start [key.withRole .key, value.withRole .value]

def entry : Parse Node := do
  if (← ahead (startOf true)).isMark "**" then
    let start ← mark "**" (startOf true)
    let x ← d.expr .bracket
    node .dictionarySplat start [x]
  else
    let key ← d.expr .bracket true
    d.pairOf key

/-- The rest of a dictionary behind its first entry. -/
def dictionaryRest (start : Nat) (first : Node) : Parse Node := do
  let (rest, _) ← commaTail closing (startOf true) (·.isMark "\x7d") d.entry d.bound
  let _ ← mark "\x7d" closing
  node .dictionary start (first :: rest)

def braced : Parse Node := do
  let start ← mark "\x7b" (startOf true)
  let next ← ahead (startOf true)
  if next.isMark "\x7d" || next.isMark "," then
    let _ ← mark? "," closing
    let _ ← mark "\x7d" closing
    node .dictionary start []
  else if next.isMark "**" then
    let first ← d.entry
    d.dictionaryRest start first
  else
    let first ← d.element
    if first.form != .listSplat && first.form != .yield && (← ahead closing).isMark ":" then
      let pair ← d.pairOf first
      if ← clausesAhead then
        let cs ← d.clauses
        let _ ← mark "\x7d" closing
        node .dictionaryComprehension start (pair :: cs)
      else d.dictionaryRest start pair
    else if first.form != .listSplat && first.form != .yield && (← clausesAhead) then
      let cs ← d.clauses
      let _ ← mark "\x7d" closing
      node .setComprehension start (first :: cs)
    else
      let (rest, _) ← d.otherElements "\x7d"
      let _ ← mark "\x7d" closing
      node .set start (first :: rest)

/-! ### Trailers -/

def argument : Parse Node := do
  let next ← ahead (startOf true)
  if next.isMark "*" then
    let start ← mark "*" (startOf true)
    let x ← d.expr .bracket
    node .listSplat start [x]
  else if next.isMark "**" then
    let start ← mark "**" (startOf true)
    let x ← d.expr .bracket
    node .dictionarySplat start [x]
  else
    let here ← get
    let isName := !next.word.isEmpty && !next.isOneOf ["not", "lambda", "None", "True", "False"]
    if isName then
      let key ← name (startOf true)
      if (← mark? "=" closing).isSome then
        let value ← d.expr .bracket
        node .keywordArgument key.start [key.withRole .name, value.withRole .value]
      else
        set here
        d.expr .bracket true
    else d.expr .bracket true

/-- The arguments of a call or of a class; a comment counts where there is nothing else. A single
comprehension needs no brackets of its own where `comprehension` allows it. -/
def arguments (comprehension : Bool) (e : Expectation) : Parse Node := do
  let start ← mark "(" e
  let inside ← get
  let next ← ahead (startOf true)
  if next.isMark ")" || next.isMark "," then
    let _ ← mark? "," closing
    let stop ← mark ")" closing
    let gap := inside.rest.takeWhile fun c => c != ')'
    let comment := Node.mk .comment none inside.offset stop []
    node .argumentList start (if gap.contains '#' then [comment] else [])
  else
    let first ← d.argument
    let isPlain := !([Form.listSplat, .dictionarySplat, .keywordArgument].contains first.form)
    if comprehension && isPlain && (← clausesAhead) then
      let cs ← d.clauses
      let _ ← mark ")" closing
      node .generatorExpression start (first :: cs)
    else
      let (rest, _) ← commaTail closing (startOf true) (·.isMark ")") d.argument d.bound
      let _ ← mark ")" closing
      node .argumentList start (first :: rest)

/-- A bound of a slice, if one comes next. -/
def sliceBound? (close : Bool) : Parse (Option Node) := do
  if (← ahead (startOf close)).startsExpression then some <$> d.expr .bracket close else return none

def index (close : Bool) : Parse Node := do
  let lower ← d.sliceBound? close
  match ← mark? ":" { close := close || lower.isSome }, lower with
  | none, some x => return x
  | none, none => failure
  | some colon, _ =>
    let upper ← d.sliceBound? true
    let step ← match ← mark? ":" closing with
      | none => pure none
      | some _ => d.sliceBound? true
    node .slice ((lower.map Node.start).getD colon) (lower.toList ++ upper.toList ++ step.toList)

/-- The trailers of an operand: attributes, indices and calls. -/
def trailers (a : Around) : (n : Nat) → Node → Parse Node
  | 0, _ => failure
  | n + 1, x => do
    let next ← ahead a.expectation
    if next.isMark "(" then
      let args ← d.arguments true a.expectation
      trailers a n (← node .call x.start [x, args])
    else if next.isMark "[" then
      let _ ← mark "[" a.expectation
      let first ← d.index false
      let (rest, _) ← commaTail closing (startOf true) (·.isMark "]") (d.index true) d.bound
      let _ ← mark "]" closing
      trailers a n (← node .subscript x.start (x :: first :: rest))
    else if next.isMark "." then
      let _ ← mark "." a.expectation
      let field ← name {}
      trailers a n (← node .attribute x.start [x, field])
    else return x

/-! ### Operands -/

def atom (a : Around) (close : Bool) : Parse Node := do
  let next ← ahead (startOf close)
  match next with
  | .string cur => d.strings a cur
  | .token cur =>
    let token (form : Form) (n : Nat) : Parse Node := do
      take cur n
      node form cur.offset []
    if !next.word.isEmpty then
      if next.isOneOf ["None", "True", "False"] then token .constant next.word.length
      else token .identifier next.word.length
    else if Number.length cur.rest != 0 then token .number (Number.length cur.rest)
    else if "...".toList.isPrefixOf cur.rest then token .ellipsis 3
    else if next.isMark "(" then d.parenthesized
    else if next.isMark "[" then d.bracketed
    else if next.isMark "\x7b" then d.braced
    else failure
  | _ => failure

def primary (a : Around) (close : Bool) : Parse Node := do
  match ← mark? "*" (startOf close) with
  | some start =>
    let x ← d.parse (.primary a false)
    if x.takesSplat then node .listSplat start [x] else failure
  | none =>
    let x ← d.atom a close
    d.trailers a d.bound x

def sign? (a : Around) (close : Bool) : Parse (Option Nat) := do
  let e := startOf close
  let next ← ahead e
  if next.isMark "+" then some <$> mark "+" e
  else if next.isMark "-" then some <$> mark "-" e
  else if next.isMark "~" then some <$> mark "~" e
  else if next.isWord "await" then
    let here ← get
    let start ← word "await" e
    let operand ← ahead a.optional
    if operand.startsExpression && !operand.isOneOf wordsBehindOperand then return some start
    else
      set here
      return none
  else return none

def signed (a : Around) (close : Bool) : Parse Node := do
  match ← sign? a close with
  | none => d.primary a close
  | some start =>
    let _ ← many d.bound (sign? a false)
    let x ← d.primary a false
    node .operation start [x]

/-- Reads an operator of arithmetic or comparison, if one comes next. -/
def operator? (a : Around) : Parse Bool := do
  let e := a.expectation
  let next ← ahead e
  match operatorMarks.find? next.isMark with
  | some m =>
    let _ ← mark m e
    return true
  | none =>
    if next.isWord "in" then
      let _ ← word "in" e
      return true
    else if next.isWord "is" then
      let _ ← word "is" e
      let _ ← word? "not" {}
      return true
    else if next.isWord "not" then
      let _ ← word "not" e
      let _ ← word "in" {}
      return true
    else return false

def arithmetic (a : Around) (close : Bool) : Parse Node := do
  let first ← d.signed a close
  let rest ← many d.bound do
    if ← operator? a then some <$> d.signed a false else return none
  if rest.isEmpty then return first else node .operation first.start (first :: rest)

/-! ### Parameters -/

/-- A splat of a parameter behind its mark, with the form that its mark gives. -/
def splatParameter (a : Around) (form : Form) (start : Nat) : Parse Node := do
  let x ← d.parse (.primary a false)
  if x.takesSplat then node form start [x] else failure

/-- A pattern of names in round brackets. -/
def namesPattern (close : Bool) : Parse Node := do
  let x ← d.parse (.primary .bracket close)
  match x.form with
  | .tuple | .parenthesized => return .mk .tuplePattern none x.start x.stop x.parts
  | _ => failure

/-- The type behind a parameter, when types may be given. -/
def parameterType? (typed : Bool) (e : Expectation) : Parse (Option Node) := do
  if typed && (← ahead e).isMark ":" then
    let _ ← mark ":" e
    some <$> d.parse (.typeOf .bracket true)
  else return none

/-- One parameter. Types are given in the parameters of a function alone. -/
def parameter (typed : Bool) (a : Around) : Parse Node := do
  let e := startOf a.close
  let follow := a.expectation
  let next ← ahead e
  let typedAs (x : Node) : Parse Node := do
    match ← d.parameterType? typed follow with
    | some t => node .typedParameter x.start [x, t]
    | none => return x
  if next.isMark "*" then
    let start ← mark "*" e
    let operand ← ahead { a.optional with string := false }
    if operand.startsExpression then typedAs (← d.splatParameter a .listSplatPattern start)
    else node .keywordSeparator start []
  else if next.isMark "**" then
    let start ← mark "**" e
    typedAs (← d.splatParameter a .dictionarySplatPattern start)
  else if next.isMark "/" then
    let start ← mark "/" e
    node .positionalSeparator start []
  else
    let isPattern := next.isMark "("
    let x ← if isPattern then d.namesPattern a.close else name e
    let t ← if isPattern then pure none else d.parameterType? typed follow
    if (← mark? "=" follow).isSome then
      let value ← d.expr a
      let form := if t.isSome then .typedDefaultParameter else .defaultParameter
      node form x.start (x.withRole .name :: t.toList ++ [value.withRole .value])
    else
      match t with
      | some t => node .typedParameter x.start [x, t]
      | none => return x

/-- Parameters with commas between them, up to a mark. -/
def parameterList (typed : Bool) (a : Around) (last : String) : Parse (List Node) := do
  let first ← d.parameter typed a
  let (rest, _) ← commaTail a.expectation (startOf a.close) (·.isMark last) (d.parameter typed a) d.bound
  return first :: rest

/-! ### Operands of words -/

def lambda (a : Around) (close : Bool) : Parse Node := do
  let start ← word "lambda" (startOf close)
  let params ← if (← ahead {}).isMark ":" then pure []
    else
      let xs ← d.parameterList false .clause ":"
      match xs with
      | [] => pure []
      | x :: _ => List.singleton <$> node .lambdaParameters x.start xs
  let _ ← mark ":" {}
  let body ← d.expr a
  node .lambda start (params ++ [body])

/-- A name with a value, if one comes next. -/
def named? (a : Around) (close : Bool) : Parse (Option Node) := do
  let here ← get
  let next ← ahead (startOf close)
  if next.word.isEmpty || next.isOneOf ["None", "True", "False"] then return none
  else
    let x ← name (startOf close)
    match ← ahead a.expectation with
    | .token cur =>
      if ":=".toList.isPrefixOf cur.rest then
        take cur 2
        let value ← d.expr a
        some <$> node .namedExpression x.start [x, value]
      else
        set here
        return none
    | _ =>
      set here
      return none

def operand (a : Around) (close : Bool) : Parse Node := do
  let next ← settle (startOf close)
  if next.isWord "not" then
    let start ← word "not" (startOf close)
    let x ← d.parse (.operand a false)
    node .operation start [x]
  else if next.isWord "lambda" then d.lambda a close
  else
    match ← d.named? a close with
    | some x => return x
    | none => d.arithmetic a close

/-- The further operands behind one of the operators that are words, if one comes next. -/
def further? (a : Around) : Parse (Option (List Node)) := do
  let e := a.expectation
  let next ← ahead e
  match ["and", "or", "as"].find? next.isWord with
  | some w =>
    let _ ← word w e
    let x ← d.operand a false
    return some [x]
  | none =>
    if next.isWord "if" && a.conditional then
      let _ ← word "if" e
      let condition ← d.expr .clause
      let _ ← word "else" {}
      let x ← d.operand a false
      return some [condition, x]
    else return none

def expression (a : Around) (close : Bool) : Parse Node := do
  let first ← d.operand a close
  let rest ← many d.bound (d.further? a)
  if rest.isEmpty then return first else node .operation first.start (first :: rest.flatten)

/-! ### Types -/

def typeParameters (e : Expectation) : Parse Node := do
  let start ← mark "[" e
  let item : Parse Node := d.parse (.typeOf .bracket true)
  let first ← item
  let (rest, _) ← commaTail closing (startOf true) (·.isMark "]") item d.bound
  let _ ← mark "]" closing
  node .typeParameters start (first :: rest)

/-- A type without alternatives: an expression, or a name with types in brackets, which is told by
the second part. -/
def typeAtom (a : Around) : Parse (Node × Bool) := do
  let e := startOf a.close
  let next ← ahead e
  if next.isMark "**" then
    let start ← mark "**" e
    let x ← name {}
    return (← node .dictionarySplat start [x], true)
  else
    let here ← get
    let isName := !next.word.isEmpty &&
      !next.isOneOf ["not", "lambda", "None", "True", "False", "await", "print", "exec"]
    if isName then
      let x ← name e
      if (← ahead a.expectation).isMark "[" then
        let params ← d.typeParameters a.expectation
        return (← node .typeOf x.start [x, params], true)
      else
        set here
        return (← d.expr a a.close, false)
    else return (← d.expr a a.close, false)

/-- The further parts of a type: alternatives, members, and constraints where `colon` allows them. -/
def typeRest (a : Around) (colon : Bool) : (n : Nat) → Bool → Parse (List Node)
  | 0, _ => failure
  | n + 1, generic => do
    let e := a.expectation
    let next ← ahead e
    if next.isMark "|" then
      let _ ← mark "|" e
      let (x, generic) ← d.typeAtom a
      return x :: (← typeRest a colon n generic)
    else if generic && next.isMark "." then
      let _ ← mark "." e
      let x ← name {}
      return x :: (← typeRest a colon n true)
    else if colon && next.isMark ":" then
      let _ ← mark ":" e
      let (x, generic) ← d.typeAtom a
      return x :: (← typeRest a colon n generic)
    else return []

def typeOf (a : Around) (colon : Bool) : Parse Node := do
  let (first, generic) ← d.typeAtom a
  let rest ← d.typeRest a colon d.bound generic
  node .typeOf first.start (first :: rest)

/-! ### Interpolations -/

def interpolation : Parse Node := do
  let start ← offset
  take (← get) 1
  let x ← if (← ahead (startOf false)).isWord "yield" then d.yieldExpr .bracket (startOf false)
    else d.exprList .bracket
  let _ ← mark? "=" closing
  match ← ahead closing with
  | .token cur =>
    match cur.rest with
    | '!' :: c :: _ => if 'a' ≤ c ∧ c ≤ 'z' then take cur 2 else failure
    | _ => pure ()
  | _ => pure ()
  let format ← match ← mark? ":" closing with
    | none => pure []
    | some colon =>
      let xs ← d.specification d.bound
      List.singleton <$> node .formatSpecifier colon xs
  let _ ← mark "\x7d" closing
  node .interpolation start (x :: format)

end Deeper

end Stencil.Script
