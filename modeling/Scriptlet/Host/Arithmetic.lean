import Scriptlet.Demand
import Scriptlet.Host.Comparison
import Scriptlet.Number.Arithmetic

/-!
# How the host calculates

The operators of the host take numbers, with truth values among them, and keep
integers exact. A sum also joins two texts, two lists or two tuples, and a product
repeats one. Everything else is a fault, with one exception: arithmetic with
undefined gives what is not a number, and undefined next to a text is spelled out.
-/

namespace Scriptlet

namespace Number

/-- The quotient, which is a float. A zero divisor is a fault. -/
def trueQuotient : Number → Number → Except HostFault Number
  | int a, int b =>
    if b == 0 then .error .zeroDivision else float <$> liftM ((int a).quotient (int b))
  | a, b => do
    let q ← a.quotient b
    if b.isZero then throw .zeroDivision
    return float q

/-- The remainder of a division toward the floor, with the sign of the divisor. -/
def floorRemainder : Number → Number → Except HostFault Number
  | int a, int b => if b == 0 then .error .zeroDivision else .ok (int (a.fmod b))
  | a, b => do
    let x ← a.toFloat
    let y ← b.toFloat
    if y == 0 then throw .zeroDivision
    if y.isInf && !x.isInf && !x.isNaN then
      return float (if x == 0 then copySign 0 y else if (x < 0) == (y < 0) then x else y)
    let r := remainderOfFloats x y
    if r == 0 then return float (copySign 0 y)
    else return float (if (y < 0) == (r < 0) then r else r + y)

/-- The power of floats. -/
def powerOfFloats (x y : Float) : Except HostFault Number :=
  if x == 0 && y < 0 && !y.isInf then .error .zeroDivision
  else if x < 0 && !x.isInf && !y.isInf && !y.isNaN && !isWholeFloat y then .error .wrongType
  else
    let r := x ^ y
    if r.isInf && !x.isInf && !y.isInf then .error .overflow else .ok (float r)

/-- The power, exact for integers with an exponent that is not negative. -/
def exactPower : Number → Number → Except HostFault Number
  | int a, int b =>
    if 0 ≤ b then .ok (int (Int.pow a b.toNat))
    else if a == 0 then .error .zeroDivision
    else do powerOfFloats (← floatOfInt a) (← floatOfInt b)
  | a, b => do powerOfFloats (← a.toFloat) (← b.toFloat)

end Number

/-- The arithmetic operators of the host. -/
inductive HostOperator where
  | add | sub | mul | div | mod | pow
  deriving DecidableEq, Repr

/-- What an operator of the host does with numbers. -/
def HostOperator.onNumbers : HostOperator → Number → Number → Except HostFault Number
  | add, a, b => liftM (a.plus b)
  | sub, a, b => liftM (a.minus b)
  | mul, a, b => liftM (a.times b)
  | div, a, b => a.trueQuotient b
  | mod, a, b => a.floorRemainder b
  | pow, a, b => a.exactPower b

namespace Step

/-- A value of the host repeated. -/
def hostRepeat (v : Value) (times : Int) : Step Value := do
  match v with
  | .text t => return .text (← ofExcept (repeatText t times))
  | .list ref => newList (← ofExcept (repeatItems ((← get).items ref) times))
  | .tuple _ items => newTuple (← ofExcept (repeatItems items times))
  | _ => fault .wrongType

/-- The integer by which a value of the host repeats another. -/
def times? (v : Value) : Option Int :=
  match v.hostNumber? with
  | some (.int n) => some n
  | _ => none

/-- What a sum joins. -/
def hostJoin (a b : Value) : Step Value := do
  match a, b with
  | .text x, .text y => return .text (x ++ y)
  | .list x, .list y => newList ((← get).items x ++ (← get).items y)
  | .tuple _ xs, .tuple _ ys => newTuple (xs ++ ys)
  | _, _ => fault .wrongType

/-- What a product repeats, on either side. -/
def hostProduct (a b : Value) : Step Value :=
  match times? b, times? a with
  | some n, _ => hostRepeat a n
  | none, some n => hostRepeat b n
  | none, none => fault .wrongType

/-- A text as a form that is filled in: it has nothing to fill in, so there must be
nothing to fill in with, unless that is a list or an object. -/
def fillIn (form : Text) (v : Value) : Step Value :=
  match v with
  | .list _ | .object _ => return .text form
  | .tuple _ [] => return .text form
  | _ => fault .wrongType

/-- An **operator of the host** between two values. -/
def hostOperate (op : HostOperator) (a b : Value) : Step Value :=
  match op, a, b with
  | .mod, .text form, b => fillIn form b
  | .add, .undefined, .text t => return .text ("undefined" ++ t)
  | .add, .text t, .undefined => return .text (t ++ "undefined")
  | _, .undefined, _ | _, _, .undefined => return .float notANumber
  | op, a, b =>
    match a.hostNumber?, b.hostNumber? with
    | some x, some y => .number <$> ofHost (op.onNumbers x y)
    | _, _ =>
      match op with
      | .add => hostJoin a b
      | .mul => hostProduct a b
      | _ => fault .wrongType

/-- A sign of the host before a value. -/
def hostSign (negative : Bool) (v : Value) : Step Value :=
  match v with
  | .undefined => return .float notANumber
  | v =>
    match v.hostNumber? with
    | some n => return .number (if negative then n.negate else n)
    | none => fault .wrongType

/-- Whether a value counts as true for the host: whatever is not zero and not empty. -/
def hostTruth (v : Value) : Step Bool := do
  match v with
  | .undefined | .null => return false
  | .bool b => return b
  | .number n => return !n.isZero
  | .text t => return !t.isEmpty
  | .list ref => return !((← get).items ref).isEmpty
  | .object ref => return !((← get).entries ref).isEmpty
  | .tuple _ items => return !items.isEmpty
  | _ => return true

end Step

end Scriptlet
