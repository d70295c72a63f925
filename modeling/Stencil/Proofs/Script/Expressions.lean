import Stencil.Proofs.Script.Strings
import Stencil.Script.Expression

/-!
# Expressions are well quoted

Every reader of expressions keeps to the source as soon as the readers one level down do.
-/

namespace Stencil.Script.Deeper

open Std.Do

set_option mvcgen.warning false

variable {source : Source} {d : Deeper} [sound : d.Sound source]

@[spec]
theorem expr_spec (a : Around) (close : Bool) : KeepsNode source (d.expr a close) := sound.parse _

@[spec]
theorem exprList_spec (a : Around) (close : Bool) : KeepsNode source (d.exprList a close) := by
  mvcgen [exprList] <;> simp_all

@[spec]
theorem yieldExpr_spec (a : Around) (e : Expectation) : KeepsNode source (d.yieldExpr a e) := by
  mvcgen [yieldExpr] <;> simp_all

/-! ### Brackets -/

@[spec]
theorem element_spec : KeepsNode source d.element := by
  mvcgen [element] <;> simp_all

@[spec]
theorem targets_spec (a : Around) : KeepsNode source (d.targets a) := by
  mvcgen [targets] <;> simp_all

@[spec]
theorem clause?_spec : Keeps source d.clause? fun x => ∀ y ∈ x, y.WellQuoted source := by
  mvcgen [clause?] <;> simp_all

@[spec]
theorem clausesAhead_spec : Keeps source clausesAhead fun _ => True := by
  mvcgen [clausesAhead]
  simp_all

@[spec]
theorem clauses_spec : KeepsNodes source d.clauses := by
  mvcgen [clauses]

@[spec]
theorem otherElements_spec (close : String) :
    Keeps source (d.otherElements close) fun r => ∀ x ∈ r.1, x.WellQuoted source := by
  mvcgen [otherElements]

@[spec]
theorem parenthesized_spec : KeepsNode source d.parenthesized := by
  mvcgen [parenthesized] <;> simp_all

@[spec]
theorem bracketed_spec : KeepsNode source d.bracketed := by
  mvcgen [bracketed] <;> simp_all

@[spec]
theorem pairOf_spec {key : Node} (well : key.WellQuoted source) : KeepsNode source (d.pairOf key) := by
  mvcgen [pairOf] <;> simp_all

@[spec]
theorem entry_spec : KeepsNode source d.entry := by
  mvcgen [entry] <;> simp_all

@[spec]
theorem dictionaryRest_spec (start : Nat) {first : Node} (well : first.WellQuoted source) :
    KeepsNode source (d.dictionaryRest start first) := by
  mvcgen [dictionaryRest] <;> simp_all

@[spec]
theorem braced_spec : KeepsNode source d.braced := by
  mvcgen [braced] <;> simp_all

/-! ### Trailers -/

@[spec]
theorem argument_spec : KeepsNode source d.argument := by
  mvcgen [argument] <;> simp_all

@[spec]
theorem arguments_spec (comprehension : Bool) (e : Expectation) :
    KeepsNode source (d.arguments comprehension e) := by
  mvcgen [arguments] <;> simp_all +zetaDelta

@[spec]
theorem sliceBound?_spec (close : Bool) :
    Keeps source (d.sliceBound? close) fun x => ∀ y ∈ x, y.WellQuoted source := by
  mvcgen [sliceBound?] <;> simp_all

@[spec]
theorem index_spec (close : Bool) : KeepsNode source (d.index close) := by
  have mark? := @Parse.mark?_spec source
  mvcgen [index, mark?, -Parse.mark?_spec]
  all_goals simp_all
  all_goals grind

@[spec]
theorem trailers_spec (a : Around) (n : Nat) {x : Node} (well : x.WellQuoted source) :
    KeepsNode source (d.trailers a n x) := by
  induction n generalizing x with
  | zero => mvcgen [trailers]
  | succ n ih => mvcgen [trailers, ih] <;> simp_all

/-! ### Operands -/

@[spec]
theorem atom_spec (a : Around) (close : Bool) : KeepsNode source (d.atom a close) := by
  mvcgen [atom] <;> simp_all

@[spec]
theorem primary_spec (a : Around) (close : Bool) : KeepsNode source (d.primary a close) := by
  mvcgen [primary] <;> simp_all

@[spec]
theorem sign?_spec (a : Around) (close : Bool) : Keeps source (sign? a close) fun _ => True := by
  mvcgen [sign?] <;> simp_all

@[spec]
theorem signed_spec (a : Around) (close : Bool) : KeepsNode source (d.signed a close) := by
  mvcgen [signed] <;> simp_all

@[spec]
theorem operator?_spec (a : Around) : Keeps source (operator? a) fun _ => True := by
  mvcgen [operator?] <;> simp_all

@[spec]
theorem arithmetic_spec (a : Around) (close : Bool) : KeepsNode source (d.arithmetic a close) := by
  mvcgen [arithmetic] <;> simp_all

/-! ### Parameters -/

@[spec]
theorem splatParameter_spec (a : Around) {form : Form} (other : form ≠ .string) (start : Nat) :
    KeepsNode source (d.splatParameter a form start) := by
  mvcgen [splatParameter] <;> simp_all

@[spec]
theorem namesPattern_spec (close : Bool) : KeepsNode source (d.namesPattern close) := by
  mvcgen [namesPattern]
  case vc2 well => simpa using ⟨well.1, fun _ => well.2.part⟩
  case vc3 well => simpa using ⟨well.1, fun _ => well.2.part⟩

@[spec]
theorem parameterType?_spec (typed : Bool) (e : Expectation) :
    Keeps source (d.parameterType? typed e) fun x => ∀ y ∈ x, y.WellQuoted source := by
  mvcgen [parameterType?] <;> simp_all

@[spec]
theorem parameter_spec (typed : Bool) (a : Around) : KeepsNode source (d.parameter typed a) := by
  have mark? := @Parse.mark?_spec source
  have other : ∀ t : Option Node,
      (if t.isSome then Form.typedDefaultParameter else .defaultParameter) ≠ .string := by
    intro t
    cases t <;> simp
  mvcgen [parameter, mark?, -Parse.mark?_spec]
  all_goals simp_all +zetaDelta
  all_goals grind [Node.wellQuoted_withRole]

@[spec]
theorem parameterList_spec (typed : Bool) (a : Around) (last : String) :
    KeepsNodes source (d.parameterList typed a last) := by
  mvcgen [parameterList] <;> simp_all

/-! ### Operands of words -/

@[spec]
theorem lambda_spec (a : Around) (close : Bool) : KeepsNode source (d.lambda a close) := by
  mvcgen [lambda] <;> simp_all [List.singleton]

@[spec]
theorem named?_spec (a : Around) (close : Bool) :
    Keeps source (d.named? a close) fun x => ∀ y ∈ x, y.WellQuoted source := by
  mvcgen [named?] <;> simp_all

@[spec]
theorem operand_spec (a : Around) (close : Bool) : KeepsNode source (d.operand a close) := by
  mvcgen [operand] <;> simp_all

@[spec]
theorem further?_spec (a : Around) :
    Keeps source (d.further? a) fun x => ∀ ys ∈ x, ∀ y ∈ ys, y.WellQuoted source := by
  mvcgen [further?] <;> simp_all

@[spec]
theorem expression_spec (a : Around) (close : Bool) : KeepsNode source (d.expression a close) := by
  mvcgen [expression]
  all_goals simp_all
  all_goals grind

/-! ### Types -/

@[spec]
theorem typeParameters_spec (e : Expectation) : KeepsNode source (d.typeParameters e) := by
  mvcgen [typeParameters] <;> simp_all

@[spec]
theorem typeAtom_spec (a : Around) :
    Keeps source (d.typeAtom a) fun r => r.1.WellQuoted source := by
  mvcgen [typeAtom] <;> simp_all

@[spec]
theorem typeRest_spec (a : Around) (colon : Bool) (n : Nat) (generic : Bool) :
    KeepsNodes source (d.typeRest a colon n generic) := by
  induction n generalizing generic with
  | zero => mvcgen [typeRest]
  | succ n ih => mvcgen [typeRest, ih] <;> simp_all

@[spec]
theorem typeOf_spec (a : Around) (colon : Bool) : KeepsNode source (d.typeOf a colon) := by
  mvcgen [typeOf] <;> simp_all

/-! ### Interpolations -/

@[spec]
theorem interpolation_spec : Keeps source d.interpolation fun n =>
    n.WellQuoted source ∧ n.form = .interpolation := by
  have mark? := @Parse.mark?_spec source
  have mark := @Parse.mark_spec source
  have ahead := @Parse.ahead_spec source
  have offset := @Parse.offset_spec source
  mvcgen [interpolation, mark?, mark, ahead, offset, Parse.node, -Parse.node_spec, -Parse.mark?_spec, -Parse.mark_spec,
    -Parse.ahead_spec, -Parse.offset_spec]
  all_goals simp_all [List.singleton, Node.form]

end Stencil.Script.Deeper
