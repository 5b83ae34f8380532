import Scriptlet.Value.Text

/-!
# The number of a value

What a program gets when it uses a value as a number, and the narrower readings of
that number: as a 32-bit integer, as an offset into a list or a text, as a truth
value.
-/

namespace Scriptlet

/-- The **number of a value**. A list counts as its text; whatever has no number is
not a number. -/
def Store.numberOf (s : Store) : Value → Except Unmet Number
  | .undefined => .ok (.float notANumber)
  | .null => .ok (.int 0)
  | .bool b => .ok (.int (if b then 1 else 0))
  | .number n => .ok n
  | .text t => numberOfText t
  | .list ref => do numberOfText (← s.textOf (.list ref))
  | _ => .ok (.float notANumber)

/-! ## Words of 32 bits -/

/-- The integer in [-2³¹, 2³¹) that is **congruent** to a given one modulo 2³². -/
def wrapInt32 (n : Int) : Int :=
  Int.bmod n (twoTo 32)

/-- The **32-bit integer** of a value. Fractions are cut off, and what is not finite
counts as zero. -/
def Store.int32Of (s : Store) (v : Value) : Except Unmet Int := do
  match ← s.numberOf v with
  | .int n => return wrapInt32 n
  | .float x =>
    match Binary64.ofFloat? x with
    | some b => return wrapInt32 b.truncate
    | none => return 0

/-! ## Truth -/

/-- Whether a value **counts as true**: nothing is false but undefined, null, false,
zero, what is not a number, and the empty text. -/
def Value.truth : Value → Except Unmet Bool
  | .undefined | .null => .ok false
  | .bool b => .ok b
  | .number n => if n.isZero then .ok false else not <$> n.isNaN
  | .text t => .ok (!t.isEmpty)
  | _ => .ok true

/-! ## Offsets -/

/-- An **integer or an infinity**. -/
inductive Extent where
  | finite (n : Int)
  | infinite (negative : Bool)
  deriving DecidableEq, Repr

namespace Extent

/-- Whether it is below zero. -/
def isNegative : Extent → Bool
  | finite n => n < 0
  | infinite negative => negative

/-- The integer; there is none for an infinity. -/
def toInt : Extent → Except Unmet Int
  | finite n => .ok n
  | infinite negative => .error ⟨.whole negative, rfl⟩

/-- The offset in [0, `length`] that is nearest. -/
def clamp (length : Nat) : Extent → Nat
  | finite n => min n.toNat length
  | infinite negative => if negative then 0 else length

/-- As for `clamp`, where a negative one counts from the end. -/
def fromEnd (length : Nat) : Extent → Nat
  | finite n => if n < 0 then (length + n).toNat else min n.toNat length
  | infinite negative => if negative then 0 else length

/-- Whether it is the offset of one of `length` items, and which. -/
def index? (length : Nat) : Extent → Option Nat
  | finite n => if 0 ≤ n ∧ n < length then some n.toNat else none
  | infinite _ => none

/-- It as a number. -/
def toNumber : Extent → Number
  | finite n => .int n
  | infinite negative => .float (if negative then -infinity else infinity)

theorem clamp_le (length : Nat) (e : Extent) : e.clamp length ≤ length := by
  cases e with
  | finite n => simp only [clamp]; omega
  | infinite negative => simp only [clamp]; split <;> omega

theorem fromEnd_le (length : Nat) (e : Extent) : e.fromEnd length ≤ length := by
  cases e with
  | finite n => simp only [fromEnd]; split <;> omega
  | infinite negative => simp only [fromEnd]; split <;> omega

end Extent

/-- The **integer part** of the number of a value; what is not a number counts as
zero. -/
def Store.extentOf (s : Store) (v : Value) : Except Unmet Extent := do
  match ← s.numberOf v with
  | .int n => return .finite n
  | .float x =>
    match Binary64.ofFloat? x with
    | some b => return .finite b.truncate
    | none => return if x.isNaN then .finite 0 else .infinite (x < 0)

/-- An offset in [0, `length`] that an argument gives. Negative ones count from the
end, and an undefined argument gives the default. -/
def Store.relativeOffset (s : Store) (v : Value) (length default : Nat) :
    Except Unmet Nat :=
  if v.isUndefined then .ok default else (·.fromEnd length) <$> s.extentOf v

/-- An offset in [0, `length`] that an argument gives. Negative ones count as zero,
and an undefined argument gives the default. -/
def Store.clampedOffset (s : Store) (v : Value) (length default : Nat) :
    Except Unmet Nat :=
  if v.isUndefined then .ok default else (·.clamp length) <$> s.extentOf v

/-- The index that a row of digits without a superfluous zero in front spells. Digit
marks are taken for digits at first and then have no value. -/
def indexOfText? (t : Text) : Except Unmet (Option Nat) :=
  if !t.isEmpty && t.all Text.isDigit && (t == "0" || t.head? != some ('0' : CodePoint)) then
    (fun n => some n.toNat) <$> intOfDigits t
  else .ok none

/-- The **index** of an item that a key gives, if it gives one: a whole number that
is not negative, or its digits. -/
def Value.index? : Value → Except Unmet (Option Nat)
  | .number (.int n) => .ok (if 0 ≤ n then some n.toNat else none)
  | .number (.float x) =>
    .ok <| if isWholeFloat x && 0 ≤ x then (Binary64.ofFloat? x).map fun b => b.truncate.toNat
      else none
  | .text t => indexOfText? t
  | _ => .ok none

end Scriptlet
