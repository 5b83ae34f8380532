import Scriptlet.Demand
import Scriptlet.Number.Shortest
import Scriptlet.Text.Blank

/-!
# Numbers and their numerals

A number of the language is an integer of any size or a float; the two are kept
apart even where they are equal. This module fixes how each is written and how a
numeral is read.

An integer is written with its decimal digits. A float is written with the
shortest decimal that reads back, in one of two styles: the *literal* style shows
that it is a float (`1.0`, `1e+16`, `1e-07`), and the *display* style is the one
of the language, where whole floats below 10²¹ look like integers (`1`, `1e+21`,
`1e-7`).

Numerals longer than `digitLimit` digits are converted in neither direction.
-/

namespace Scriptlet

/-- A **number**: an integer of any size, or a float. -/
inductive Number where
  /-- An integer. -/
  | int (n : Int)
  /-- A float, among them infinities and what is not a number. -/
  | float (x : Float)

/-- The largest integer up to which floats hold every integer: 2⁵³ - 1. -/
def maxSafeInteger : Nat := twoTo 53 - 1

/-! ## Writing -/

/-- The decimal numeral of an integer. -/
def numeralOfInt (n : Int) : Except Unmet Text := do
  (Demand.numeral n).meet
  return Text.ofInt n

/-- The digits of a decimal, positionally: at least one digit on either side of
the point, which stands `point` digits in. -/
def positional (digits : Text) (point : Int) : Text :=
  if point ≤ 0 then "0." ++ List.replicate (-point).toNat ('0' : CodePoint) ++ digits
  else if digits.length ≤ point.toNat then
    digits ++ List.replicate (point.toNat - digits.length) ('0' : CodePoint) ++ ".0"
  else digits.take point.toNat ++ "." ++ digits.drop point.toNat

/-- The digits of a decimal in exponent notation. The exponent has a sign and at
least two digits. -/
def exponential (digits : Text) (point : Int) : Text :=
  let power := point - 1
  let fraction : Text := if digits.length ≤ 1 then [] else "." ++ digits.drop 1
  let exponent := Text.ofNat power.natAbs
  digits.take 1 ++ fraction ++ (if power < 0 then "e-" else "e+")
    ++ (if exponent.length < 2 then "0" else "") ++ exponent

/-- A positive finite float in the literal style: positional while the leading
digit is worth at least 10⁻⁴ and less than 10¹⁶. -/
def literalOfPositive (b : Binary64) : Text :=
  let (digits, point) := (Decimal.shortest b).significant
  if -4 < point && point ≤ 16 then positional digits point else exponential digits point

/-- A **float in the literal style**: `1.0`, `-0.0`, `1e+16`, `1e-07`, `nan`, `inf`. -/
def literalOfFloat (x : Float) : Text :=
  match Binary64.ofFloat? x with
  | none => if x.isNaN then "nan" else if x < 0 then "-inf" else "inf"
  | some b =>
    (if b.negative then "-" else "") ++ if b.mantissa == 0 then ("0.0" : Text) else literalOfPositive b

/-- Drops the zeros that follow the sign of an exponent, but for a last digit. -/
def shortenExponent : Text → Text
  | [] => []
  | c :: rest =>
    if c == 'e' then
      let digits := rest.drop 1
      let kept : Text := digits.dropWhile (· == ('0' : CodePoint))
      c :: rest.take 1 ++ if kept.isEmpty then ("0" : Text) else kept
    else c :: shortenExponent rest

/-- Whether a float is whole and below 10²¹ in magnitude. -/
def displaysAsInt (x : Float) : Bool :=
  isWholeFloat x && x.abs < 1e21

/-- A float in the display style: `1`, `0` for either zero, `1e+21`, `1e-7`,
`NaN`, `Infinity`. -/
def displayOfFloat (x : Float) : Text :=
  match Binary64.ofFloat? x with
  | none => if x.isNaN then "NaN" else if x < 0 then "-Infinity" else "Infinity"
  | some b =>
    if displaysAsInt x then Text.ofInt b.truncate else shortenExponent (literalOfFloat x)

namespace Number

/-- A number **in the literal style**, which keeps integers and floats apart. -/
def literal : Number → Except Unmet Text
  | .int n => numeralOfInt n
  | .float x => .ok (literalOfFloat x)

/-- A number **in the display style** of the language. -/
def display : Number → Except Unmet Text
  | .int n => numeralOfInt n
  | .float x => .ok (displayOfFloat x)

/-- **Integers beyond 2⁵³ - 1 become floats**, infinities where need be. -/
def normalize : Number → Number
  | .int n => if maxSafeInteger < n.natAbs then .float (roundInt n) else .int n
  | .float x => .float x

/-- The number as a float; an integer may be too large for one. -/
def toFloat : Number → Except Unmet Float
  | .int n => floatOfInt n
  | .float x => .ok x

/-- Whether the number is not a number. The question is put to the float of an
integer, which has to exist. -/
def isNaN (n : Number) : Except Unmet Bool :=
  Float.isNaN <$> n.toFloat

/-- Whether the number is an infinity; as for `isNaN`, an integer must fit. -/
def isInfinite (n : Number) : Except Unmet Bool :=
  Float.isInf <$> n.toFloat

/-- Whether the number is zero, of either sign. -/
def isZero : Number → Bool
  | .int n => n == 0
  | .float x => x == 0

/-- How two numbers compare, exactly and across the two kinds; nothing compares
with what is not a number. -/
def compare? : Number → Number → Option Ordering
  | .int a, .int b => some (compare a b)
  | .int a, .float y => compareIntFloat a y
  | .float x, .int b => (compareIntFloat b x).map Ordering.swap
  | .float x, .float y =>
    if x < y then some .lt else if y < x then some .gt else if x == y then some .eq else none

/-- Whether two numbers are equal, across the two kinds. -/
def equal (a b : Number) : Bool :=
  a.compare? b == some .eq

/-- Whether the number is below zero. -/
def isNegative (a : Number) : Bool :=
  a.compare? (.int 0) == some .lt

end Number

/-! ## Reading -/

/-- The value of a row of decimal digits, which other code points do not change. -/
def valueOfDecimals (digits : Text) : Nat :=
  digits.foldl (fun n c => match Text.decimalValue? c with | some d => 10 * n + d | none => n) 0

/-- The integer that a row of digits spells. Digit marks have no value and make
it a fault, and so does excessive length. -/
def intOfDigits (digits : Text) : Except Unmet Int := do
  (Demand.digits digits).meet
  return valueOfDecimals digits

/-- The float nearest to `digits · 10 ^ power`. Powers beyond the reach of any
float are decided at once. -/
def floatOfDecimal (negative : Bool) (digits : Nat) (power : Int) : Float :=
  let leading := ((Text.ofNat digits).length : Int) + power
  if digits == 0 then Binary64.nearest negative 0 1
  else if 400 < leading then Binary64.nearest negative (twoTo 1100) 1
  else if leading < -400 then Binary64.nearest negative 0 1
  else if 0 ≤ power then Binary64.nearest negative (digits * tenTo power.toNat) 1
  else Binary64.nearest negative digits (tenTo (-power).toNat)

/-- A **decimal numeral** in parts. -/
structure DecimalNumeral where
  /-- Whether a minus sign stands in front. -/
  negative : Bool
  /-- The digits before the point. -/
  whole : Text
  /-- Whether there is a point or an exponent. -/
  isFloat : Bool
  /-- The digits after the point. -/
  fraction : Text
  /-- The exponent, 0 where none is written. -/
  exponent : Int

/-- Splits off an optional sign; the flag tells whether it is a minus. -/
def takeSign : Text → Bool × Text
  | [] => (false, [])
  | c :: rest => if c == '-' then (true, rest) else if c == '+' then (false, rest) else (false, c :: rest)

/-- Reads an exponent, the whole of the given text: nothing at all, or `e`, an
optional sign and decimal digits. The flag tells whether one is written. -/
def readExponent? : Text → Option (Bool × Int)
  | [] => some (false, 0)
  | c :: rest =>
    if c == 'e' || c == 'E' then
      let (negative, digits) := takeSign rest
      if digits.isEmpty || !digits.all Text.isDecimal then none
      else
        let n : Int := valueOfDecimals digits
        some (true, if negative then -n else n)
    else none

/-- Takes a decimal numeral apart: an optional sign, digits with an optional point
among or around them, and an optional exponent. -/
def readNumeral? (t : Text) : Option DecimalNumeral :=
  let (negative, body) := takeSign t
  let whole := body.takeWhile Text.isDecimal
  let rest := body.dropWhile Text.isDecimal
  let hasPoint := rest.head? == some ('.' : CodePoint)
  let afterPoint := if hasPoint then rest.drop 1 else rest
  let fraction := if hasPoint then afterPoint.takeWhile Text.isDecimal else []
  let tail := if hasPoint then afterPoint.dropWhile Text.isDecimal else rest
  if whole.isEmpty && fraction.isEmpty then none
  else
    match readExponent? tail with
    | none => none
    | some (hasExponent, exponent) =>
      some ⟨negative, whole, hasPoint || hasExponent, fraction, exponent⟩

/-- The number of a numeral: a float if it has a point or an exponent, and
otherwise an integer within the safe range. -/
def DecimalNumeral.value (d : DecimalNumeral) : Except Unmet Number := do
  if d.isFloat then
    let digits := valueOfDecimals (d.whole ++ d.fraction)
    return .float (floatOfDecimal d.negative digits (d.exponent - d.fraction.length))
  else
    let n ← intOfDigits d.whole
    return Number.normalize (.int (if d.negative then -n else n))

/-- The base that a letter announces after a leading zero. -/
def radixOfLetter? (c : CodePoint) : Option Nat :=
  if c == 'x' || c == 'X' then some 16
  else if c == 'o' || c == 'O' then some 8
  else if c == 'b' || c == 'B' then some 2
  else none

/-- The integer that digits of a base spell: one digit at least, and each below
the base. Decimal digits of every script count. -/
def intOfRadix? (radix : Nat) (digits : Text) : Option Int :=
  if digits.isEmpty then none
  else
    (digits.foldlM (fun n c =>
      match Text.digitValue? c with
      | some d => if d < radix then some (radix * n + d) else none
      | none => none) 0 : Option Nat).map Int.ofNat

/-- Whether a text is written in the 128 code points of ASCII. -/
def isAscii (t : Text) : Bool :=
  t.all (· < 128)

/-- Reads a numeral of another base: a zero, the letter of the base and digits of
ASCII. Its integer is not brought into the safe range. -/
def readRadix? : Text → Option Int
  | z :: letter :: digits =>
    if z == '0' && isAscii digits then (radixOfLetter? letter).bind (intOfRadix? · digits) else none
  | _ => none

/-- The **number that a text denotes**: blanks around it are ignored, nothing at
all is zero, and whatever is no numeral is not a number. -/
def numberOfText (t : Text) : Except Unmet Number :=
  let s := t.trim
  if s.isEmpty then .ok (.int 0)
  else
    match readRadix? s with
    | some n => .ok (.int n)
    | none =>
      if s == "Infinity" || s == "+Infinity" then .ok (.float infinity)
      else if s == "-Infinity" then .ok (.float (-infinity))
      else
        match readNumeral? s with
        | some d => d.value
        | none => .ok (.float notANumber)

end Scriptlet
