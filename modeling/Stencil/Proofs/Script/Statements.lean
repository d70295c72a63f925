import Stencil.Proofs.Script.Expressions
import Stencil.Script.Statement

/-!
# Statements are well quoted

As expressions are, as soon as the readers one level down keep to the source.
-/

namespace Stencil.Script.Deeper

open Std.Do

set_option mvcgen.warning false

variable {source : Source} {d : Deeper} [sound : d.Sound source]

/-! ### Assignments -/

@[spec]
theorem assignmentOf_spec {x : Node} (well : x.WellQuoted source) :
    KeepsNode source (assigned.assignmentOf d x) := by
  mvcgen [assigned.assignmentOf] <;> simp_all

@[spec]
theorem assigned_spec : KeepsNode source d.assigned := by
  mvcgen [assigned] <;> simp_all

@[spec]
theorem expressionStatement_spec : KeepsNode source d.expressionStatement := by
  mvcgen [expressionStatement]
  all_goals simp_all +zetaDelta
  all_goals grind [Node.WellQuoted.part]

/-! ### Imports -/

omit sound in
@[spec]
theorem dottedName_spec (e after : Expectation) : KeepsNode source (d.dottedName e after) := by
  mvcgen [dottedName] <;> simp_all

omit sound in
@[spec]
theorem importItem_spec (e after : Expectation) : KeepsNode source (d.importItem e after) := by
  mvcgen [importItem] <;> simp_all

omit sound in
@[spec]
theorem importItems_spec (brackets : Bool) : KeepsNodes source (d.importItems brackets) := by
  mvcgen [importItems] <;> simp_all

omit sound in
@[spec]
theorem importStatement_spec (e : Expectation) : KeepsNode source (d.importStatement e) := by
  mvcgen [importStatement] <;> simp_all

omit sound in
@[spec]
theorem importFrom_spec (e : Expectation) : KeepsNode source (d.importFrom e) := by
  mvcgen [importFrom] <;> simp_all

/-! ### Simple statements -/

@[spec]
theorem optionalList_spec : KeepsNodes source d.optionalList := by
  mvcgen [optionalList] <;> simp_all [List.singleton]

@[spec]
theorem strictList_spec : KeepsNodes source d.strictList := by
  mvcgen [strictList] <;> simp_all

omit sound in
@[spec]
theorem wordThen_spec (s : String) {form : Form} (e : Expectation) {rest : Parse (List Node)}
    (other : form ≠ .string) (keeps : KeepsNodes source rest) :
    KeepsNode source (wordThen s form e rest) := by
  mvcgen [wordThen, keeps] <;> simp_all

omit sound in
@[spec]
theorem names_spec : KeepsNodes source d.names := by
  mvcgen [names] <;> simp_all

@[spec]
theorem raised_spec : KeepsNodes source d.raised := by
  mvcgen [raised] <;> simp_all [or_imp]

@[spec]
theorem printed_spec : KeepsNodes source d.printed := by
  mvcgen [printed] <;> simp_all

@[spec]
theorem printedTo_spec (e : Expectation) : KeepsNode source (d.printedTo e) := by
  mvcgen [printedTo] <;> simp_all

@[spec]
theorem execStatement_spec (e : Expectation) : KeepsNode source (d.execStatement e) := by
  mvcgen [execStatement] <;> simp_all

@[spec]
theorem typeAlias_spec (e : Expectation) : KeepsNode source (d.typeAlias e) := by
  mvcgen [typeAlias] <;> simp_all

omit sound in
@[spec]
theorem ended_spec {p : Parse Node} (keeps : KeepsNode source p) :
    KeepsNode source (simpleStatement.ended p) := by
  mvcgen [simpleStatement.ended, keeps] <;> simp_all

@[spec]
theorem printStatement_spec (e : Expectation) : KeepsNode source (simpleStatement.printStatement d e) := by
  mvcgen [simpleStatement.printStatement] <;> simp_all

@[spec]
theorem simpleStatement_spec (e : Expectation) : KeepsNode source (d.simpleStatement e) := by
  mvcgen [simpleStatement]
  case vc38 => split <;> mvcgen <;> simp_all
  all_goals simp_all [List.singleton]

@[spec]
theorem simpleStatements_spec (e : Expectation) (n : Nat) : KeepsNodes source (d.simpleStatements e n) := by
  induction n generalizing e with
  | zero => mvcgen [simpleStatements]
  | succ n ih => mvcgen [simpleStatements, ih] <;> simp_all

/-! ### Bodies -/

@[spec]
theorem blockStatements_spec (n : Nat) :
    Keeps source (d.blockStatements n) fun xs => ∀ ys ∈ xs, ∀ y ∈ ys, y.WellQuoted source := by
  induction n with
  | zero => mvcgen [blockStatements]
  | succ n ih =>
    mvcgen [blockStatements, ih]
    all_goals simp_all +zetaDelta
    all_goals grind [Node.WellQuoted.part]

@[spec]
theorem suite_spec : KeepsNode source d.suite := by
  mvcgen [suite]
  case vc11 => simpa using fun _ _ well x xs among here => well xs among x here
  all_goals simp_all +zetaDelta

@[spec]
theorem body_spec : KeepsNode source d.body := by
  mvcgen [body] <;> simp_all

/-! ### Compound statements -/

@[spec]
theorem elseClause?_spec (nested : Bool) :
    Keeps source (d.elseClause? nested) fun x => ∀ y ∈ x, y.WellQuoted source := by
  mvcgen [elseClause?] <;> simp_all

@[spec]
theorem elifClause?_spec (nested : Bool) :
    Keeps source (d.elifClause? nested) fun x => ∀ y ∈ x, y.WellQuoted source := by
  mvcgen [elifClause?] <;> simp_all

@[spec]
theorem ifStatement_spec (nested : Bool) (e : Expectation) :
    KeepsNode source (d.ifStatement nested e) := by
  mvcgen [ifStatement] <;> simp_all [or_imp]

@[spec]
theorem forStatement_spec (nested : Bool) (start : Nat) (e : Expectation) :
    KeepsNode source (d.forStatement nested start e) := by
  mvcgen [forStatement] <;> simp_all

@[spec]
theorem whileStatement_spec (nested : Bool) (e : Expectation) :
    KeepsNode source (d.whileStatement nested e) := by
  mvcgen [whileStatement] <;> simp_all

@[spec]
theorem exceptClause?_spec (grouped : Bool) (e : Expectation) :
    Keeps source (d.exceptClause? grouped e) fun x => ∀ y ∈ x, y.WellQuoted source := by
  mvcgen [exceptClause?] <;> simp_all [List.singleton, or_imp]

@[spec]
theorem finallyClause?_spec (e : Expectation) :
    Keeps source (d.finallyClause? e) fun x => ∀ y ∈ x, y.WellQuoted source := by
  mvcgen [finallyClause?] <;> simp_all

@[spec]
theorem tryStatement_spec (nested : Bool) (e : Expectation) :
    KeepsNode source (d.tryStatement nested e) := by
  mvcgen [tryStatement] <;> simp_all [or_imp]

@[spec]
theorem withStatement_spec (start : Nat) (e : Expectation) :
    KeepsNode source (d.withStatement start e) := by
  mvcgen [withStatement] <;> simp_all [or_imp]

@[spec]
theorem functionDefinition_spec (isAsync : Bool) (start : Nat) (e : Expectation) :
    KeepsNode source (d.functionDefinition isAsync start e) := by
  mvcgen [functionDefinition] <;> simp_all [List.singleton, or_imp]

@[spec]
theorem classDefinition_spec (e : Expectation) : KeepsNode source (d.classDefinition e) := by
  mvcgen [classDefinition] <;> simp_all [List.singleton, or_imp]

@[spec]
theorem decorated_spec : KeepsNode source d.decorated := by
  mvcgen [decorated] <;> simp_all [or_imp]

/-! ### Cases -/

omit sound in
@[spec]
theorem caseNumber_spec (e : Expectation) : KeepsNode source (caseNumber e) := by
  have mark? := @Parse.mark?_spec source
  have ahead := @Parse.ahead_spec source
  have node := @Parse.node_spec source
  mvcgen [caseNumber, mark?, ahead, node, -Parse.mark?_spec, -Parse.ahead_spec, -Parse.node_spec]
  all_goals simp_all +zetaDelta [List.singleton]

omit sound in
@[spec]
theorem casePatterns_spec {item : Parse Node} (last : String) (keeps : KeepsNode source item) :
    KeepsNodes source (d.casePatterns item last) := by
  mvcgen [casePatterns, keeps] <;> simp_all

omit sound in
@[spec]
theorem caseSplat_spec (e : Expectation) : KeepsNode source (caseSplat e) := by
  mvcgen [caseSplat] <;> simp_all

@[spec]
theorem simplePattern_spec (close : Bool) : KeepsNode source (d.simplePattern close) := by
  mvcgen [simplePattern] <;> simp_all

@[spec]
theorem unionPattern_spec (close : Bool) : KeepsNode source (d.unionPattern close) := by
  mvcgen [unionPattern] <;> simp_all

@[spec]
theorem entryPattern_spec : KeepsNode source d.entryPattern := by
  mvcgen [entryPattern] <;> simp_all

@[spec]
theorem casePattern_spec (close : Bool) : KeepsNode source (d.casePattern close) := by
  mvcgen [casePattern] <;> simp_all

@[spec]
theorem caseClause_spec : KeepsNode source d.caseClause := by
  mvcgen [caseClause] <;> simp_all [List.singleton, or_imp]

@[spec]
theorem cases_spec (n : Nat) : KeepsNodes source (d.cases n) := by
  induction n with
  | zero => mvcgen [Deeper.cases]
  | succ n ih => mvcgen [Deeper.cases, ih] <;> simp_all +zetaDelta

@[spec]
theorem matchFront_spec (e : Expectation) :
    Keeps source (d.matchFront e) fun front => ∀ x ∈ front.2.1, x.WellQuoted source := by
  mvcgen [matchFront] <;> simp_all

@[spec]
theorem matchRest_spec {front : Nat × List Node × Option Nat}
    (well : ∀ x ∈ front.2.1, x.WellQuoted source) : KeepsNode source (d.matchRest front) := by
  mvcgen [matchRest] <;> simp_all +zetaDelta [or_imp]

/-! ### Statements -/

@[spec]
theorem simpleLine_spec (e : Expectation) : KeepsNode source (d.simpleLine e) := by
  mvcgen [simpleLine] <;> simp_all

@[spec]
theorem statement_spec (nested : Bool) : KeepsNode source (d.statement nested) := by
  have front (e : Expectation) : Keeps source (some <$> d.matchFront e <|> pure none) fun front =>
      ∀ x ∈ front, ∀ y ∈ x.2.1, y.WellQuoted source := by
    apply Parse.orElse_spec <;> mvcgen <;> simp_all
  mvcgen [statement, front, -Parse.orElse_spec] <;> simp_all

end Stencil.Script.Deeper
