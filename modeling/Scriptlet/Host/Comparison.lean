import Scriptlet.Interrupt

/-!
# How the host compares

For the host, a truth value is the number 1 or 0, lists and tuples are equal item by
item, and objects are equal entry by entry, in any order. Order exists between
numbers, between texts, and between lists or tuples by their first items that
differ; between others it is a fault to ask. Nothing is before or after undefined.

Lists can contain themselves, so comparing goes down to a certain depth only.
-/

namespace Scriptlet

/-- The number that a value is for the host. -/
def Value.hostNumber? : Value → Option Number
  | .number n => some n
  | .bool b => some (.int (if b then 1 else 0))
  | _ => none

/-- How deep values are compared. -/
def comparisonDepth : Nat := 2000

/-- Whether two rows of items are equal one by one. -/
def equalItems (equal : Value → Value → Except HostFault Bool) :
    List Value → List Value → Except HostFault Bool
  | [], [] => .ok true
  | a :: as, b :: bs => do
    if a.isSame b || (← equal a b) then equalItems equal as bs else return false
  | _, _ => .ok false

/-- Whether all entries of an object are equal to those of another. -/
def equalEntries (equal : Value → Value → Except HostFault Bool) (others : Entries) :
    Entries → Except HostFault Bool
  | [] => .ok true
  | (key, a) :: rest => do
    match others.get? key with
    | none => return false
    | some b => if a.isSame b || (← equal a b) then equalEntries equal others rest else return false

/-- Whether two values are equal for the host, to a given depth. -/
def Store.hostEqualsTo (s : Store) : Nat → Value → Value → Except HostFault Bool
  | 0, _, _ => .error .tooDeep
  | depth + 1, a, b =>
    if a.isSame b then .ok true
    else
      match a, b with
      | .text x, .text y => .ok (x == y)
      | .list x, .list y =>
        if (s.items x).length != (s.items y).length then .ok false
        else equalItems (s.hostEqualsTo depth) (s.items x) (s.items y)
      | .tuple _ xs, .tuple _ ys => equalItems (s.hostEqualsTo depth) xs ys
      | .object x, .object y =>
        if (s.entries x).length != (s.entries y).length then .ok false
        else equalEntries (s.hostEqualsTo depth) (s.entries y) (s.entries x)
      | .method _ name x, .method _ other y =>
        if name == other then s.hostEqualsTo depth x y else .ok false
      | .hostMethod _ x m, .hostMethod _ y n => .ok (x == y && m == n)
      | a, b =>
        match a.hostNumber?, b.hostNumber? with
        | some x, some y => .ok (x.equal y)
        | _, _ => .ok false

/-- Whether two values are **equal for the host**. -/
def Store.hostEquals (s : Store) (a b : Value) : Except HostFault Bool :=
  s.hostEqualsTo comparisonDepth a b

/-- The first items in which two rows differ, or, where one of them ends, their
lengths. -/
def firstDifference (equal : Value → Value → Except HostFault Bool) :
    List Value → List Value → Except HostFault (Value × Value)
  | a :: as, b :: bs => do
    if a.isSame b || (← equal a b) then firstDifference equal as bs else return (a, b)
  | as, bs => .ok (.int as.length, .int bs.length)

/-- Whether an operator of order holds between two values of the host, to a given
depth. -/
def Store.hostComparesTo (s : Store) (op : OrderOperator) :
    Nat → Value → Value → Except HostFault Bool
  | 0, _, _ => .error .tooDeep
  | depth + 1, a, b =>
    match a, b with
    | .undefined, _ | _, .undefined => .ok false
    | .text x, .text y => .ok (op.holds (x.order y))
    | .list x, .list y => do
      let (a, b) ← firstDifference s.hostEquals (s.items x) (s.items y)
      s.hostComparesTo op depth a b
    | .tuple _ xs, .tuple _ ys => do
      let (a, b) ← firstDifference s.hostEquals xs ys
      s.hostComparesTo op depth a b
    | a, b =>
      match a.hostNumber?, b.hostNumber? with
      | some x, some y => .ok ((x.compare? y).any op.holds)
      | _, _ => .error .wrongType

/-- Whether an operator of order **holds between two values of the host**. -/
def Store.hostCompares (s : Store) (op : OrderOperator) (a b : Value) : Except HostFault Bool :=
  s.hostComparesTo op comparisonDepth a b

/-- The greatest of some values, the first of those that are equally great. -/
def Store.greatest (s : Store) (best : Value) : List Value → Except HostFault Value
  | [] => .ok best
  | v :: rest => do
    if ← s.hostCompares .greater v best then s.greatest v rest else s.greatest best rest

end Scriptlet
