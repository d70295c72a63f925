import Stencil.Script.Statement

/-!
# Reading scripts

The grammar tied together: a parser for every goal, with a bound on how deep goals nest, and the
reader of whole scripts.
-/

namespace Stencil.Script

/-- The parser of a goal that nests at most `n` further goals. -/
def parserOf : (n : Nat) → Goal → Parse Node
  | 0, _ => failure
  | n + 1, goal =>
    let d : Deeper := ⟨parserOf n, n⟩
    match goal with
    | .expression a close => d.expression a close
    | .operand a close => d.operand a close
    | .primary a close => d.primary a close
    | .assigned => d.assigned
    | .typeOf a colon => d.typeOf a colon
    | .casePattern close => d.casePattern close
    | .entryPattern => d.entryPattern
    | .interpolation => d.interpolation
    | .suite => d.suite
    | .statement nested => d.statement nested

def statements (n : Nat) : (m : Nat) → Parse (List (List Node))
  | 0 => failure
  | m + 1 => do
    match ← Parse.ahead { string := true } with
    | .token cur =>
      if cur.rest.isEmpty then return []
      else
        let x ← parserOf n (.statement false)
        return x.parts :: (← statements n m)
    | _ =>
      let x ← parserOf n (.statement false)
      return x.parts :: (← statements n m)

/-- The syntax tree of a script, when it has one. A mark of byte order at the front is skipped. -/
def tree? (cs : List Char) : Option Node := do
  let bound := 4 * (cs.length + 16)
  let start : Cursor := match cs with
    | '\ufeff' :: rest => { rest, offset := 3 }
    | cs => { rest := cs }
  let (xs, cur) ← (statements bound bound).run start
  return .mk .module none 0 cur.offset xs.flatten

end Stencil.Script
