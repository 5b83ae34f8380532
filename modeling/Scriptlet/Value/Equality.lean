import Scriptlet.Value.Number

/-!
# Equality and order

Strict equality holds between values of one category: truth values, numbers and
texts are equal by content, and all others only if they are one and the same.
Loose equality brings values of different categories together first. Order is that
of texts where both sides are texts, and that of numbers otherwise.
-/

namespace Scriptlet

/-- Whether two values are **strictly equal**. -/
def Value.strictlyEquals (a b : Value) : Bool :=
  a.category == b.category &&
    match a, b with
    | .bool x, .bool y => x == y
    | .number x, .number y => x.equal y
    | .text x, .text y => x == y
    | _, _ => a.isSame b

/-- A truth value as a number; other values as they are. -/
def Value.boolToNumber : Value → Value
  | .bool b => .int (if b then 1 else 0)
  | v => v

/-- Whether a value is neither undefined nor null nor primitive. -/
def Value.isCompound (v : Value) : Bool :=
  v.category == .object || v.category == .function

/-- Whether two numbers or texts are equal, where a text next to a number counts as
its number. -/
def Store.equalPrimitives (s : Store) (a b : Value) : Except Unmet Bool :=
  if a.category = b.category then .ok (a.strictlyEquals b)
  else do return (← s.numberOf a).equal (← s.numberOf b)

/-- Whether two values are **loosely equal**. Undefined and null equal each other and
nothing else; a truth value counts as a number; and what is compound counts as its
text next to what is not. -/
def Store.looselyEquals (s : Store) (a b : Value) : Except Unmet Bool :=
  if a.category = b.category then .ok (a.strictlyEquals b)
  else if a.isNullish || b.isNullish then .ok (a.isNullish && b.isNullish)
  else
    let a := a.boolToNumber
    let b := b.boolToNumber
    if a.isCompound && b.isCompound then .ok false
    else do s.equalPrimitives (← s.primitive a) (← s.primitive b)

/-- Whether a list of values **contains** a value, where what is not a number is found
by what is not a number. -/
def containsValue (items : List Value) (v : Value) : Except Unmet Bool := do
  let isNaN : Value → Except Unmet Bool
    | .number n => n.isNaN
    | _ => return false
  if ← isNaN v then items.anyM isNaN else return items.any fun item => item.strictlyEquals v

/-! ## Order -/

/-- An operator that compares by order. -/
inductive OrderOperator where
  | less | lessOrEqual | greater | greaterOrEqual
  deriving DecidableEq, Repr

namespace OrderOperator

/-- The operator that is written so. -/
def ofText? (t : Text) : Option OrderOperator :=
  if t == "<" then some less
  else if t == "<=" then some lessOrEqual
  else if t == ">" then some greater
  else if t == ">=" then some greaterOrEqual
  else none

/-- Whether the operator holds of two values that compare so. -/
def holds : OrderOperator → Ordering → Bool
  | less, o => o == .lt
  | lessOrEqual, o => o != .gt
  | greater, o => o == .gt
  | greaterOrEqual, o => o != .lt

end OrderOperator

/-- How two texts compare: by their first difference, code point by code point. -/
def Text.order : Text → Text → Ordering
  | [], [] => .eq
  | [], _ :: _ => .lt
  | _ :: _, [] => .gt
  | a :: s, b :: t => if a < b then .lt else if b < a then .gt else Text.order s t

/-- How two values **compare**; nothing compares with what is not a number. -/
def Store.order? (s : Store) (a b : Value) : Except Unmet (Option Ordering) := do
  match ← s.primitive a, ← s.primitive b with
  | .text x, .text y => return some (x.order y)
  | a, b =>
    let x ← s.numberOf a
    let y ← s.numberOf b
    if ← x.isNaN then return none
    if ← y.isNaN then return none
    return x.compare? y

/-- Whether an operator of order **holds** between two values. -/
def Store.compare (s : Store) (op : OrderOperator) (a b : Value) : Except Unmet Bool := do
  return (← s.order? a b).any op.holds

end Scriptlet
