import Scriptlet.Call
import Scriptlet.Number.Binary64
import Scriptlet.Text

/-!
# The methods of numbers

A number can be written with a fixed number of decimal places, and an integer in any
base from 2 to 36.

With a fixed number of places the exact value of a float is rounded; a value exactly
half-way goes to the even neighbour. The sign is written whenever the sign bit is set,
so a negative number that rounds to zero keeps its minus.
-/

namespace Scriptlet

/-! ## A fixed number of places -/

/-- The value in units of the last of `places` decimal places, rounded. -/
def Binary64.inPlaces (b : Binary64) (places : Nat) : Nat :=
  if 0 ≤ b.exponent then b.mantissa * twoTo b.exponent.toNat * tenTo places
  else Binary64.roundHalfEven (b.mantissa * tenTo places) (twoTo (-b.exponent).toNat)

/-- The digits of `n` units of the last place, with a point before the last
`places` of them if there are any, and at least one digit before the point. -/
def fixedDigits (n places : Nat) : Text :=
  let digits := Text.ofNat n
  let padded := List.replicate (places + 1 - digits.length) ('0' : CodePoint) ++ digits
  let whole := padded.length - places
  if places == 0 then padded
  else padded.take whole ++ "." ++ padded.drop whole

/-- A finite float with a **fixed number of decimal places**. -/
def Binary64.fixed (b : Binary64) (places : Nat) : Text :=
  (if b.negative then "-" else "") ++ fixedDigits (b.inPlaces places) places

/-! ## Other bases -/

/-- The digits of a number in a base up to 36, in lower case; the first argument bounds
their number. -/
def digitsInBase (base : Nat) : Nat → Nat → Text
  | 0, _ => []
  | steps + 1, n =>
    if n == 0 then []
    else
      let d := n % base
      digitsInBase base steps (n / base)
        ++ [if d < 10 then '0'.toNat + d else 'a'.toNat + (d - 10)]

/-- The **numeral of an integer in a base** from 2 to 36. -/
def numeralInBase (base : Nat) (n : Int) : Text :=
  if n == 0 then "0"
  else (if n < 0 then "-" else "") ++ digitsInBase base (n.natAbs.log2 + 1) n.natAbs

namespace NumberMethod

/-- The numeral of a number with as many decimal places as a value says. -/
def fixed (n : Number) (places : Value) : Step Text := do
  let digits ← Step.read fun s => do (← s.extentOf places).toInt
  if digits < 0 || 100 < digits then
    Step.wrongType "toFixed() digits argument must be between 0 and 100"
  else
    let x ← Step.ofExcept n.toFloat
    match Binary64.ofFloat? x with
    | some b => return b.fixed digits.toNat
    | none => return displayOfFloat x

/-- The base that a value gives, ten if it is undefined. -/
def baseOf (s : Store) (base : Value) : Except Unmet Int := do
  if base.isUndefined then return 10 else (← s.extentOf base).toInt

/-- The numeral of a number in the base that a value gives. Only integers have one in
a base other than ten. -/
def inBase (n : Number) (base : Value) : Step Text := do
  let radix ← Step.read (baseOf · base)
  if radix < 2 || 36 < radix then
    Step.wrongType "toString() radix must be between 2 and 36"
  else if radix == 10 then Step.ofExcept n.display
  else
    match Binary64.ofFloat? (← Step.ofExcept n.toFloat) with
    | none => Step.ofExcept n.display
    | some b =>
      if b.isWhole then
        return numeralInBase radix.toNat (match n with | .int m => m | .float _ => b.truncate)
      else Step.ofExcept n.display

/-- **Calls a method** of a number. -/
def call (n : Number) (args : List Value) : NumberMethod → Step Value
  | toFixed => .text <$> fixed n (argument args 0)
  | toRadix => .text <$> inBase n (argument args 0)

end NumberMethod

end Scriptlet
