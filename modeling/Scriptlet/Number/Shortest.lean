import Scriptlet.Number.Binary64
import Scriptlet.Text

/-!
# The shortest decimal that reads back

A float stands for an interval of reals, those that round to it. Of the decimals
in that interval the *shortest* has the fewest digits, and among those of equal
length it is the nearest to the float's own value. To find it, the two points of
the decimal grid around the value are tested, on grids of one digit, two digits
and so on; seventeen always suffice. If some point of a grid lies in the
interval, then one of the two neighbours of the value does, so the first grid
with a hit has the least number of digits.

All quantities are whole numbers: the value is a fraction `num / den`, and the
interval reaches `below / den` down and `above / den` up.
-/

namespace Scriptlet

/-- The interval of reals that round to one positive float. -/
structure RoundingInterval where
  /-- The numerator of the value. -/
  num : Nat
  /-- The common denominator. -/
  den : Nat
  /-- How far the interval reaches down, over `den`. -/
  below : Nat
  /-- How far the interval reaches up, over `den`. -/
  above : Nat
  /-- Whether the ends belong to the interval. -/
  closed : Bool

namespace RoundingInterval

/-- The interval of a positive finite float. In quarters of the unit of its
mantissa it reaches two up and two down, but only one down from a power of two,
below which floats are twice as dense. Ties go to the even mantissa, so the ends
belong to an even one. -/
def ofBinary64 (b : Binary64) : RoundingInterval :=
  let q := b.exponent - 2
  let down := if b.mantissa == twoTo 52 && -1074 < b.exponent then 1 else 2
  let even := b.mantissa % 2 == 0
  if 0 ≤ q then ⟨4 * b.mantissa * twoTo q.toNat, 1, down * twoTo q.toNat, 2 * twoTo q.toNat, even⟩
  else ⟨4 * b.mantissa, twoTo (-q).toNat, down, 2, even⟩

/-- Whether the fraction `point / den` lies in the interval. -/
def contains (i : RoundingInterval) (point : Nat) : Bool :=
  if i.closed then i.num ≤ point + i.below && point ≤ i.num + i.above
  else i.num < point + i.below && point < i.num + i.above

/-- The same interval in units of `10 ^ k`. -/
def inUnits (i : RoundingInterval) (k : Int) : RoundingInterval :=
  if 0 ≤ k then { i with den := i.den * tenTo k.toNat }
  else
    let scale := tenTo (-k).toNat
    { i with num := i.num * scale, below := i.below * scale, above := i.above * scale }

/-- Of the two whole numbers around the value, the one in the interval; if both
are, the nearer, and the even one of two equally near. -/
def wholeNeighbour? (i : RoundingInterval) : Option Nat :=
  let floor := i.num / i.den
  let lower := i.contains (floor * i.den)
  let upper := i.contains ((floor + 1) * i.den)
  if lower && upper then
    let rest := i.num % i.den
    if 2 * rest < i.den then some floor
    else if i.den < 2 * rest then some (floor + 1)
    else some (floor + floor % 2)
  else if lower then some floor
  else if upper then some (floor + 1)
  else none

end RoundingInterval

/-- Whether `10 ^ k ≤ num / den`. -/
def reachesPower (num den : Nat) (k : Int) : Bool :=
  if 0 ≤ k then den * tenTo k.toNat ≤ num else den ≤ num * tenTo (-k).toNat

/-- The power of ten of the leading digit of `num / den`: an estimate from the
binary lengths, raised while the next power is still reached. -/
def leadingPower (num den : Nat) : Int :=
  let guess := ((num.log2 : Int) - den.log2 - 1) * 30103 / 100000 - 1
  raise guess 4
where
  /-- Raises `k` at most `steps` times. -/
  raise (k : Int) : Nat → Int
    | 0 => k
    | steps + 1 => if reachesPower num den (k + 1) then raise (k + 1) steps else k

/-- A **decimal**: the value `digits · 10 ^ power`. -/
structure Decimal where
  /-- The digits, as a whole number. -/
  digits : Nat
  /-- The power of ten of the last digit. -/
  power : Int
  deriving DecidableEq, Repr

namespace Decimal

/-- The first hit on the grids of `count` digits and more, `steps` grids at most. -/
def search (i : RoundingInterval) (leading : Int) : Nat → Nat → Decimal
  | 0, count => ⟨i.num / i.den, leading - count⟩
  | steps + 1, count =>
    let k := leading - count + 1
    match (i.inUnits k).wholeNeighbour? with
    | some digits => ⟨digits, k⟩
    | none => search i leading steps (count + 1)

/-- The **shortest decimal that reads back** as the float with these parts, whose
mantissa is positive. -/
def shortest (b : Binary64) : Decimal :=
  let i := RoundingInterval.ofBinary64 b
  search i (leadingPower i.num i.den) 17 1

/-- The digits of a decimal without zeros at the end, and the place of the point:
how many digits stand before it. -/
def significant (d : Decimal) : Text × Int :=
  let digits := Text.ofNat d.digits
  let kept := Text.trimRight (· == '0') digits
  (kept, d.power + digits.length)

end Decimal

end Scriptlet
