import Scriptlet.Number.Numeral

/-!
# Arithmetic

Integers are added, subtracted and multiplied exactly. As soon as a float takes
part, the operation is that of floats, and an integer that is too large for a float
is a fault. A quotient of integers is the float nearest to it.

On top of this common ground stand the operations of the language. They bring
integers beyond 2⁵³ - 1 back to floats, and they know no fault for a zero divisor.
-/

namespace Scriptlet

namespace Number

/-- An operation on integers where both numbers are such, and one on floats
otherwise. -/
def combine (onInts : Int → Int → Int) (onFloats : Float → Float → Float) :
    Number → Number → Except Unmet Number
  | int a, int b => .ok (int (onInts a b))
  | a, b => do return float (onFloats (← a.toFloat) (← b.toFloat))

/-- The sum. -/
def plus : Number → Number → Except Unmet Number := combine (· + ·) (· + ·)

/-- The difference. -/
def minus : Number → Number → Except Unmet Number := combine (· - ·) (· - ·)

/-- The product. -/
def times : Number → Number → Except Unmet Number := combine (· * ·) (· * ·)

/-- The negative. -/
def negate : Number → Number
  | int n => int (-n)
  | float x => float (-x)

/-- The quotient by a divisor that is not zero, which is a float. -/
def quotient : Number → Number → Except Unmet Float
  | int a, int b => do
    (Demand.quotient a b).meet
    return roundQuotient a b
  | a, b => do return (← a.toFloat) / (← b.toFloat)

/-- Whether the number is negative by its sign, which zero has as well. -/
def hasMinus : Number → Bool
  | int n => n < 0
  | float x => Binary64.signBit x

/-- Whether the number is an odd integer. -/
def isOdd : Number → Bool
  | int n => n % 2 == 1
  | float x => (Binary64.ofFloat? x).any fun b => b.isWhole && b.truncate % 2 == 1

/-- The remainder of a division of floats toward zero. -/
def remainderOfFloats (x y : Float) : Float :=
  match Binary64.ofFloat? x, Binary64.ofFloat? y with
  | some a, some b => a.remainder b
  | _, _ => notANumber

/-! ## The operations of the language -/

/-- The **sum**. -/
def add (a b : Number) : Except Unmet Number :=
  normalize <$> a.plus b

/-- The **difference**. -/
def sub (a b : Number) : Except Unmet Number :=
  normalize <$> a.minus b

/-- The **product**. -/
def mul (a b : Number) : Except Unmet Number :=
  normalize <$> a.times b

/-- The quotient by zero: an infinity, by the signs of both sides, or no number for
zero by zero. -/
def divByZero (a b : Number) : Except Unmet Number := do
  if a.isZero then return float notANumber
  if ← a.isNaN then return float notANumber
  return float (if a.hasMinus == b.hasMinus then infinity else -infinity)

/-- The **quotient**. That of two integers is an integer if, as a float, it is
whole. -/
def div (a b : Number) : Except Unmet Number :=
  if b.isZero then a.divByZero b
  else do
    let x ← a.quotient b
    match a, b with
    | int m, int n => return if isWholeFloat x then (int (m.fdiv n)).normalize else float x
    | _, _ => return float x

/-- The **remainder** of a division toward zero, with the sign of the dividend. -/
def mod (a b : Number) : Except Unmet Number := do
  if ← a.isNaN then return float notANumber
  if ← b.isNaN then return float notANumber
  if ← a.isInfinite then return float notANumber
  if b.isZero then return float notANumber
  if ← b.isInfinite then return a
  match a, b with
  | int m, int n => return int (m.tmod n)
  | _, _ => return float (remainderOfFloats (← a.toFloat) (← b.toFloat))

/-- The power of integers with an exponent up to 64, if it is in the safe range. -/
def exactPower? : Number → Number → Option Int
  | int a, int b =>
    if 0 ≤ b ∧ b ≤ 64 ∧ (Int.pow a b.toNat).natAbs ≤ maxSafeInteger then
      some (Int.pow a b.toNat)
    else none
  | _, _ => none

/-- Whether the number is 1 or -1. -/
def isUnit (a : Number) : Bool :=
  a.equal (int 1) || a.equal (int (-1))

/-- The **power**. A base too large for a float counts as an infinity. -/
def pow (a b : Number) : Except Unmet Number := do
  if ← b.isNaN then return float notANumber
  if a.isUnit && (← b.isInfinite) then return float notANumber
  match exactPower? a b with
  | some n => return int n
  | none =>
    if a.isZero && b.isNegative then
      return float (if b.isOdd && a.hasMinus then -infinity else infinity)
    let y ← b.toFloat
    match a.toFloat with
    | .ok x => return float (x ^ y)
    | .error _ => return float (if a.isNegative && b.isOdd then -infinity else infinity)

end Number

end Scriptlet
