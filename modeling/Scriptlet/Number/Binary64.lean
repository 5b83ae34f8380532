
/-!
# Floats as exact quantities

A finite float is a sign, a whole number `m` below 2⁵³ and a power of two: it *is*
the number `± m · 2^q`. This module decodes a float into these parts and, the
other way, finds the float nearest to a quotient of whole numbers, with ties to
the even neighbour. Everything that must be exact goes through the two:
conversions between integers and floats, comparisons of the two, remainders,
numerals and the digits of a float.

The units in which numbers are kept and the ones in which they are written are powers
of two and of ten. Both are spelled out as `Nat.pow`, with a law for each step.
-/

namespace Scriptlet

/-! ## Powers of two and of ten -/

/-- A **power of two**. -/
def twoTo (n : Nat) : Nat := Nat.pow 2 n

/-- A **power of ten**. -/
def tenTo (n : Nat) : Nat := Nat.pow 10 n

@[simp] theorem twoTo_zero : twoTo 0 = 1 := rfl

@[simp] theorem tenTo_zero : tenTo 0 = 1 := rfl

theorem twoTo_succ (n : Nat) : twoTo (n + 1) = twoTo n * 2 := rfl

theorem tenTo_succ (n : Nat) : tenTo (n + 1) = tenTo n * 10 := rfl

/-! ## Parts of a float -/

/-- A **finite float** in parts: its value is `± mantissa · 2 ^ exponent`. -/
structure Binary64 where
  /-- Whether the sign bit is set; zero has a sign as well. -/
  negative : Bool
  /-- The whole number, below 2⁵³. -/
  mantissa : Nat
  /-- The power of two, from -1074 to 971. -/
  exponent : Int
  deriving DecidableEq, Repr

namespace Binary64

/-- The sign bit of a float. -/
def signBit (x : Float) : Bool :=
  x.toBits.toNat / twoTo 63 == 1

/-- The parts of a finite float; `none` for an infinity and for what is not a
number. -/
def ofFloat? (x : Float) : Option Binary64 :=
  let bits := x.toBits.toNat
  let field : Nat := bits / twoTo 52 % twoTo 11
  let fraction := bits % twoTo 52
  if field == 2047 then none
  else if field == 0 then some ⟨signBit x, fraction, -1074⟩
  else some ⟨signBit x, twoTo 52 + fraction, (field : Int) - 1075⟩

/-- The whole number nearest to `num / den`; of two equally near ones the even. -/
def roundHalfEven (num den : Nat) : Nat :=
  let floor := num / den
  let rest := num % den
  if 2 * rest < den then floor
  else if den < 2 * rest then floor + 1
  else floor + floor % 2

/-- The fraction `num / den` divided by `2 ^ q`, as a fraction. -/
def scaled (num den : Nat) (q : Int) : Nat × Nat :=
  if 0 ≤ q then (num, den * twoTo q.toNat) else (num * twoTo (-q).toNat, den)

/-- The power of two in whose units `num / den` has 53 binary digits, or -1074
where that would be smaller still. -/
def unitFor (num den : Nat) : Int :=
  let guess : Int := (num.log2 : Int) - den.log2 - 52
  let (n, d) := scaled num den guess
  max (if n / d < twoTo 52 then guess - 1 else guess) (-1074)

/-- The bits of the float nearest to `num / den`; beyond the largest float, those
of infinity. -/
def nearestBits (num den : Nat) : Nat :=
  if num == 0 then 0
  else
    let q := unitFor num den
    let (n, d) := scaled num den q
    let bits := (q + 1074).toNat * twoTo 52 + roundHalfEven n d
    min bits (2047 * twoTo 52)

/-- The **float nearest to a quotient** `± num / den` of whole numbers. A
quotient too large for any float becomes an infinity. -/
def nearest (negative : Bool) (num den : Nat) : Float :=
  Float.ofBits (UInt64.ofNat ((if negative then twoTo 63 else 0) + nearestBits num den))

/-- The float with these parts. -/
def toFloat (b : Binary64) : Float :=
  if 0 ≤ b.exponent then nearest b.negative (b.mantissa * twoTo b.exponent.toNat) 1
  else nearest b.negative b.mantissa (twoTo (-b.exponent).toNat)

/-- Whether the value is a whole number. -/
def isWhole (b : Binary64) : Bool :=
  0 ≤ b.exponent || b.mantissa % twoTo (-b.exponent).toNat == 0

/-- The magnitude without its fraction. -/
def floorMagnitude (b : Binary64) : Nat :=
  if 0 ≤ b.exponent then b.mantissa * twoTo b.exponent.toNat
  else b.mantissa / twoTo (-b.exponent).toNat

/-- The value **without its fraction**, that is rounded toward zero. -/
def truncate (b : Binary64) : Int :=
  if b.negative then -(b.floorMagnitude : Int) else b.floorMagnitude

/-- The mantissa in units of `2 ^ q`, for a power not above the exponent. -/
def inUnits (b : Binary64) (q : Int) : Nat :=
  b.mantissa * twoTo (b.exponent - q).toNat

/-- The **remainder of a division toward zero**: it has the sign of `a` and is
smaller than `b` in magnitude. No rounding takes place. -/
def remainder (a b : Binary64) : Float :=
  let q := min a.exponent b.exponent
  toFloat ⟨a.negative, a.inUnits q % b.inUnits q, q⟩

/-- How an integer compares with the value of a finite float. -/
def compareInt (n : Int) (b : Binary64) : Ordering :=
  let m : Int := if b.negative then -(b.mantissa : Int) else b.mantissa
  if 0 ≤ b.exponent then compare n (m * twoTo b.exponent.toNat)
  else compare (n * twoTo (-b.exponent).toNat) m

end Binary64

/-! ## Conversions -/

/-- The float nearest to an integer, an infinity where it is too large. -/
def roundInt (n : Int) : Float :=
  Binary64.nearest (n < 0) n.natAbs 1

/-- Whether a float is finite and whole. -/
def isWholeFloat (x : Float) : Bool :=
  match Binary64.ofFloat? x with
  | some b => b.isWhole
  | none => false

/-- Infinity. -/
def infinity : Float := Float.ofBits 0x7FF0000000000000

/-- What is **not a number**. -/
def notANumber : Float := Float.ofBits 0x7FF8000000000000

/-- The magnitude of `x` with the sign of `sign`. -/
def copySign (x sign : Float) : Float :=
  if Binary64.signBit x == Binary64.signBit sign then x else -x

/-- How an integer compares with a float; nothing compares with what is not a
number. -/
def compareIntFloat (n : Int) (x : Float) : Option Ordering :=
  match Binary64.ofFloat? x with
  | some b => some (b.compareInt n)
  | none => if x.isNaN then none else some (if x < 0 then .gt else .lt)

end Scriptlet
