import Scriptlet.Operator
import Scriptlet.Walk.Shape

/-!
# Operations and conditions

Operators, and the choice between two parts of a program. Operands are evaluated
from left to right, and a failed one fails the whole; of the two branches of a
condition only one is evaluated. A conjunction whose left operand is false is
false, and a disjunction whose left operand is true is that operand.
-/

namespace Scriptlet.Walk

/-- Evaluates an operator that **stands before** its operand. The operand of an
operator that is not known is left alone. -/
def unary (run : Runner) (children : List Node) (frame : FrameRef) : Step Value := do
  let (operator, operand) ← Step.pair children
  match UnaryOperator.ofText? operator.asText with
  | none => Step.failWith .operator ("Unknown unary operator: " ++ operator.asText)
  | some op =>
    match ← run (.eval operand frame) with
    | .failure => return .failure
    | v => Step.read fun s => s.applyUnary op v

/-- The value that the left operand of a logical operator decides on, if it does. -/
def decided? (spelling : Text) (left : Value) : Step (Option Value) := do
  if spelling == "&&" then
    return if ← Step.ofExcept left.truth then none else some (.bool false)
  else if spelling == "||" then
    return if ← Step.ofExcept left.truth then some left else none
  else return none

/-- Evaluates an operator that **stands between** its operands. -/
def binary (run : Runner) (children : List Node) (frame : FrameRef) : Step Value := do
  let (left, operator, right) ← Step.triple children
  match ← run (.eval left frame) with
  | .failure => return .failure
  | a =>
    match ← decided? operator.asText a with
    | some v => return v
    | none =>
      match ← run (.eval right frame) with
      | .failure => return .failure
      | b => Step.applyBinary operator.asText a b

/-- The value of a part that may be missing, which is undefined then. -/
def optional (run : Runner) (frame : FrameRef) : Option Node → Step Value
  | some n => run (.eval n frame)
  | none => return .undefined

/-- Evaluates a **condition** and then one of the branches; a branch that is missing is
undefined. -/
def conditional (run : Runner) (children : List Node) (frame : FrameRef) : Step Value := do
  match ← run (.eval (← Step.child children 0) frame) with
  | .failure => return .failure
  | test =>
    if ← Step.ofExcept test.truth then run (.eval (← Step.child children 1) frame)
    else optional run frame children[2]?

end Scriptlet.Walk
