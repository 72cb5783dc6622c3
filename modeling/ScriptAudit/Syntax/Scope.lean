import ScriptAudit.Suspension
import ScriptAudit.Syntax.Node

/-! The points at which the body of a function may suspend. Nested functions have points of their
own, so the walk through a body stops at them. -/

namespace ScriptAudit.Syntax

namespace Node

/-- The named nodes at and below `stack` in document order, without what lies inside functions. -/
def shallow (stack : List Node) : List Node :=
  match stack with
  | [] => []
  | n :: rest => n :: shallow (if n.isFunctionLike then rest else n.namedChildren ++ rest)
termination_by sizes stack
decreasing_by
  have := n.sizes_namedChildren_lt
  have := n.size_eq
  split
  · simp only [sizes]; omega
  · rw [sizes_append]; simp only [sizes]; omega

def isChainMethod (name : String) : Bool := name ∈ ["then", "catch", "finally"]

/-- A call on a promise: one of its methods, or a function of the class itself. -/
def promiseCall? (n : Node) : Except Error (Option Suspension) := do
  let some function := n.child? .callee | return none
  let some method := function.memberName? | return none
  if isChainMethod method then
    return some (← Suspension.make n.line .promiseChain method)
  match function.child? .object with
  | some object =>
    if object.kind = .identifier && object.content = "Promise" then
      return some (← Suspension.make n.line .promiseStatic ("Promise." ++ method))
    else return none
  | none => return none

/-- The point that a node itself introduces. -/
def suspension? (n : Node) : Except Error (Option Suspension) := do
  match n.kind with
  | .awaitExpression => return some (← Suspension.make n.line .await "await")
  | .forInStatement =>
    if n.hasKeyword .await then return some (← Suspension.make n.line .forAwait "for await")
    else return none
  | .callExpression => n.promiseCall?
  | _ => return none

/-- The points of a function's own body, in document order. -/
def suspensions (n : Node) : Except Error (List Suspension) :=
  match n.child? .body with
  | none => .ok []
  | some body => do
    let points ← (shallow [body]).mapM suspension?
    return points.filterMap fun point => point

end Node

end ScriptAudit.Syntax
