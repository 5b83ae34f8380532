import Scriptlet.Number.Binary64
import Scriptlet.Text.Digit

/-!
# What is asked of the host

Below the language lies the machine that runs it, and that machine has limits of its
own: an integer may be too large for a float, a numeral too long to convert, a text
too long to hold. Whatever may go beyond such a limit is a *demand*, and one function
says which demands are excessive. An *unmet* demand carries the evidence that it is
one, so a computation that can only fail with an unmet demand never fails without
reason.

A function of the host may besides be called with arguments that it has no use for. All
such *host faults* are no errors of the language. They carry no message and no position,
no program can catch them, and they end the run.
-/

namespace Scriptlet

/-! ## The limits -/

/-- The most decimal digits that are converted. -/
def digitLimit : Nat := 4300

/-- The greatest count. -/
def maxCount : Nat := twoTo 63 - 1

/-- A number of items that fits into no memory. -/
def memoryLimit : Nat := twoTo 60

/-- The number of repetitions in a pattern that is too large. -/
def tooManyRepeats : Nat := twoTo 32 - 1

/-! ## Demands -/

/-- What is **asked of the host**. -/
inductive Demand where
  /-- The float nearest to an integer. -/
  | float (n : Int)
  /-- The float nearest to a quotient of integers. -/
  | quotient (a b : Int)
  /-- The integer that an infinity is. -/
  | whole (negative : Bool)
  /-- The decimal numeral of an integer. -/
  | numeral (n : Int)
  /-- The integer that a row of digits spells. -/
  | digits (row : Text)
  /-- A count, which has to fit into a word. -/
  | count (n : Int)
  /-- Memory for a number of items. -/
  | memory (n : Nat)
  /-- A bound of the repetitions in a pattern. -/
  | repetitions (n : Nat)
  /-- A pattern that keeps to ASCII and does not. -/
  | bothAlphabets
  deriving DecidableEq, Repr

/-- The float nearest to a quotient of integers, an infinity where it is too large. -/
def roundQuotient (a b : Int) : Float :=
  Binary64.nearest ((a < 0) != (b < 0)) a.natAbs b.natAbs

/-- Whether a demand is **more than the host can give**. An infinity is no integer,
digit marks have no value, and no pattern keeps to ASCII and does not. -/
def Demand.isExcessive : Demand → Bool
  | float n => (roundInt n).isInf
  | quotient a b => (roundQuotient a b).isInf
  | whole _ => true
  | numeral n => digitLimit < (Text.ofInt n).length - if n < 0 then 1 else 0
  | digits row => row.isEmpty || digitLimit < row.length || !row.all Text.isDecimal
  | count n => maxCount < n.natAbs
  | memory n => memoryLimit ≤ n
  | repetitions n => tooManyRepeats ≤ n
  | bothAlphabets => true

/-- A demand that is **not met**. -/
structure Unmet where
  /-- What is asked for. -/
  demand : Demand
  /-- It is more than the host can give. -/
  excessive : demand.isExcessive = true
  deriving DecidableEq, Repr

/-- Goes on only with a demand that **can be met**. -/
def Demand.meet (d : Demand) : Except Unmet Unit :=
  if h : d.isExcessive = true then .error ⟨d, h⟩ else .ok ()

theorem Demand.meet_of_allowed {d : Demand} (h : d.isExcessive = false) : d.meet = .ok () := by
  rw [meet, dif_neg (by rw [h]; exact Bool.false_ne_true)]

theorem Demand.meet_of_excessive {d : Demand} (h : d.isExcessive = true) :
    d.meet = .error ⟨d, h⟩ :=
  dif_pos h

/-- What a sequence of two computations gives comes from the second. -/
theorem Except.of_bind_eq_ok {x : Except ε α} {f : α → Except ε β} {b : β}
    (h : x >>= f = .ok b) : ∃ a, x = .ok a ∧ f a = .ok b := by
  cases x with
  | ok a => exact ⟨a, rfl, h⟩
  | error e => cases h

/-- An answer is known if it is known as an option, which can be decided. -/
theorem Except.eq_ok_of_toOption {answer : Except ε α} {a : α} (h : answer.toOption = some a) :
    answer = .ok a := by
  cases answer with
  | error e => cases h
  | ok b => rw [Option.some.inj h]

/-- The float nearest to an integer, which must not be beyond the largest float. -/
def floatOfInt (n : Int) : Except Unmet Float := do
  (Demand.float n).meet
  return roundInt n

/-!
## What the host can hold

Lists and texts are counted in words of 64 bits, and nothing can hold more than a
certain number of items.
-/

/-- A **count**: an integer that fits into a word. A negative one counts as zero. -/
def countOf (n : Int) : Except Unmet Nat := do
  (Demand.count n).meet
  return n.toNat

/-- A number of items for which there has to be memory. -/
def reserve (n : Nat) : Except Unmet Nat := do
  (Demand.memory n).meet
  return n

/-- A text **repeated**. The length of the result has to fit into a word. -/
def repeatText (t : Text) (times : Int) : Except Unmet Text := do
  let n ← countOf times
  if t.isEmpty then return []
  let length ← countOf (t.length * n : Nat)
  let _ ← reserve length
  return Text.replicate n t

/-- Items **repeated**. -/
def repeatItems (items : List α) (times : Int) : Except Unmet (List α) := do
  let n ← countOf times
  if items.isEmpty then return []
  let _ ← reserve (items.length * n)
  return (List.replicate n items).flatten

/-! ## Faults of the host -/

/-- A **fault of the host**. But for an unmet demand it is known by its category alone. -/
inductive HostFault where
  /-- A demand on the host is not met. -/
  | unmet (u : Unmet)
  /-- An operation met a value of a type it is not defined for, or a call had
  the wrong number of arguments. -/
  | wrongType
  /-- A value of the right type has no meaning here: a numeral that is too long
  or malformed, a sequence of the wrong length, a negative root. -/
  | badValue
  /-- A number is too large for its target. -/
  | overflow
  /-- A division by zero. -/
  | zeroDivision
  /-- A position beyond the end of a sequence. -/
  | badIndex
  /-- A component that the object does not have. -/
  | missingPart
  /-- A file name that the file system refuses. -/
  | badFileName
  /-- More memory is asked for than any machine has. -/
  | outOfMemory
  /-- Values are nested too deeply to be compared. -/
  | tooDeep
  deriving DecidableEq, Repr

/-- The category of the fault that a demand is if it is not met. -/
def Demand.category : Demand → HostFault
  | float _ | quotient .. | whole _ | count _ | repetitions _ => .overflow
  | numeral _ | digits _ | bothAlphabets => .badValue
  | memory _ => .outOfMemory

instance : MonadLift (Except Unmet) (Except HostFault) where
  monadLift := Except.mapError .unmet

end Scriptlet
