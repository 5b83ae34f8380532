import Scriptlet.Number.Arithmetic
import Scriptlet.Scope

/-!
# Operators

What the operators of the language do with the values of their operands. Which
operands are evaluated at all is not decided here.
-/

namespace Scriptlet

/-- The operators that stand before an operand and are evaluated. -/
inductive UnaryOperator where
  | plus | minus | complement | not
  deriving DecidableEq, Repr

/-- The operator that is written so before an operand. -/
def UnaryOperator.ofText? (t : Text) : Option UnaryOperator :=
  if t == "+" then some plus
  else if t == "-" then some minus
  else if t == "~" then some complement
  else if t == "!" then some not
  else none

/-- The result of an operator that **stands before** its operand. The negative of the
integer zero is the negative zero of floats. -/
def Store.applyUnary (s : Store) (op : UnaryOperator) (v : Value) : Except Unmet Value := do
  match op with
  | .plus => return .number (← s.numberOf v)
  | .minus =>
    match ← s.numberOf v with
    | .int 0 => return .float (-0.0)
    | n => return .number n.negate
  | .complement => return .int (-(← s.int32Of v) - 1)
  | .not => return .bool !(← v.truth)

/-- The arithmetic operators that bring both sides to numbers. -/
inductive ArithmeticOperator where
  | sub | mul | div | mod | pow
  deriving DecidableEq, Repr

/-- What an arithmetic operator does with numbers. -/
def ArithmeticOperator.apply : ArithmeticOperator → Number → Number → Except Unmet Number
  | sub => Number.sub
  | mul => Number.mul
  | div => Number.div
  | mod => Number.mod
  | pow => Number.pow

/-- The operators on words of 32 bits. -/
inductive BitOperator where
  | or | and | xor
  deriving DecidableEq, Repr

/-- What an operator does with words of 32 bits, read and written as integers. -/
def BitOperator.apply (op : BitOperator) (a b : Int) : Int :=
  let x := BitVec.ofInt 32 a
  let y := BitVec.ofInt 32 b
  (match op with
    | or => x ||| y
    | and => x &&& y
    | xor => x ^^^ y).toInt

/-- The operators that stand **between** operands. -/
inductive BinaryOperator where
  | looseEquality (negated : Bool)
  | strictEquality (negated : Bool)
  | add
  | arithmetic (op : ArithmeticOperator)
  | order (op : OrderOperator)
  | bits (op : BitOperator)
  /-- The operators that have not been decided by their left operand. -/
  | conjunction | disjunction
  deriving DecidableEq, Repr

namespace BinaryOperator

/-- The operators with their spellings. -/
def spellings : List (BinaryOperator × Text) :=
  List.map (fun (op, spelling) => (op, Text.ofString spelling))
    [(looseEquality false, "=="), (looseEquality true, "!="), (strictEquality false, "==="),
     (strictEquality true, "!=="), (add, "+"), (arithmetic .sub, "-"), (arithmetic .mul, "*"),
     (arithmetic .div, "/"), (arithmetic .mod, "%"), (arithmetic .pow, "**"),
     (order .less, "<"), (order .lessOrEqual, "<="), (order .greater, ">"),
     (order .greaterOrEqual, ">="), (bits .or, "|"), (bits .and, "&"), (bits .xor, "^"),
     (conjunction, "&&"), (disjunction, "||")]

/-- The operator that is written so between operands. -/
def ofText? (t : Text) : Option BinaryOperator :=
  (spellings.find? fun entry => entry.2 == t).map Prod.fst

end BinaryOperator

/-- The **sum** of two values: their texts one after the other if either is a text
once both are primitive, and the sum of their numbers otherwise. -/
def Store.add (s : Store) (a b : Value) : Except Unmet Value := do
  let a ← s.primitive a
  let b ← s.primitive b
  match a, b with
  | .text x, b => return .text (x ++ (← s.textOf b))
  | a, .text y => return .text ((← s.textOf a) ++ y)
  | a, b => return .number (← (← s.numberOf a).add (← s.numberOf b))

/-- The result of an arithmetic operator. -/
def Store.arithmetic (s : Store) (op : ArithmeticOperator) (a b : Value) :
    Except Unmet Value := do
  return .number (← op.apply (← s.numberOf a) (← s.numberOf b))

/-- The result of an operator that **stands between** its operands. -/
def Store.applyBinary (s : Store) (op : BinaryOperator) (a b : Value) :
    Except Unmet Value := do
  match op with
  | .looseEquality negated => return .bool ((← s.looselyEquals a b) != negated)
  | .strictEquality negated => return .bool (a.strictlyEquals b != negated)
  | .add => s.add a b
  | .arithmetic op => s.arithmetic op a b
  | .order op => return .bool (← s.compare op a b)
  | .bits op => return .int (op.apply (← s.int32Of a) (← s.int32Of b))
  | .conjunction | .disjunction => return b

namespace Step

/-- The result of the operator that is **written** so between two values; a failure if
there is none. -/
def applyBinary (spelling : Text) (a b : Value) : Step Value :=
  match BinaryOperator.ofText? spelling with
  | some op => read fun s => s.applyBinary op a b
  | none => failWith .operator ("Unknown binary operator: " ++ spelling)

end Step

end Scriptlet
