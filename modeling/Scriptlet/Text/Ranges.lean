import Scriptlet.Text

/-!
# Sets of code points as ranges

A set of code points is given by its *bounds*, in increasing order: the first
bound opens the first range, the second closes it, and so on. A code point is in
the set exactly when an odd number of bounds lie at or below it, and a bisection
finds that number.
-/

namespace Scriptlet.Text

/-- The number of entries at or below `c`, by bisection of the `n` entries from
index `low`; `steps` bounds the number of halvings. -/
def countBelowFrom (bounds : Array CodePoint) (c : CodePoint) : Nat → Nat → Nat → Nat
  | 0, low, _ => low
  | steps + 1, low, n =>
    if n = 0 then low
    else
      let middle := low + n / 2
      match bounds[middle]? with
      | none => low
      | some bound =>
        if bound ≤ c then countBelowFrom bounds c steps (middle + 1) (n - n / 2 - 1)
        else countBelowFrom bounds c steps low (n / 2)

/-- The number of entries of an increasing array at or below `c`. Twenty-one
halvings exhaust any array of code points. -/
def countBelow (bounds : Array CodePoint) (c : CodePoint) : Nat :=
  countBelowFrom bounds c 21 0 bounds.size

/-- A **set of code points**, given by the bounds of its ranges. -/
structure Ranges where
  /-- Where the ranges open and close, in turn and in increasing order. -/
  bounds : Array CodePoint

/-- Whether a code point lies in one of the ranges. -/
def Ranges.contains (ranges : Ranges) (c : CodePoint) : Bool :=
  countBelow ranges.bounds c % 2 == 1

end Scriptlet.Text
