import Scriptlet.Demand
import Scriptlet.Value.Text
import Scriptlet.Value.Equality

/-!
# Interrupts, and steps on the store

A step of a program reads and changes the store and then gives a value, or it is
*interrupted*: by a return on its way to the call it belongs to, by an error of the
program or of its spelling, by an error or a fault of the host, by a node that has not
the shape of its kind, because the depth granted to the run is used up, or because
someone who watches the run halts it. What the step has done to the store up to then
stays done.

An error of the program takes up a position on its way out: that of the innermost
node with a position that was being evaluated.
-/

namespace Scriptlet

/-- What sort of **error** a program runs into. -/
inductive ErrorKind where
  | runtime | wrongType | unknownMethod
  /-- A node stands where a name has to. -/
  | misplacedNode
  deriving DecidableEq, Repr

/-- An **error of a program**. -/
structure ProgramError where
  /-- What sort of error it is. -/
  kind : ErrorKind
  /-- What is wrong. -/
  reason : Text
  /-- Where, once that is known. -/
  position : Option Position
  deriving DecidableEq, Repr

namespace ProgramError

/-- The **message**: what is wrong and, where it is known, the position. -/
def message (e : ProgramError) : Text :=
  match e.position with
  | none => e.reason
  | some position =>
    e.reason ++ " (line " ++ Text.ofInt position.line ++
      (match position.column with
        | none => ([] : Text)
        | some column => ", col " ++ Text.ofInt column) ++ ")"

/-- The error at a position, unless it has one already. -/
def locatedAt (e : ProgramError) (position : Option Position) : ProgramError :=
  { e with position := e.position.or position }

end ProgramError

/-- Why a step is **interrupted**. -/
inductive Interrupt where
  /-- A return is on its way to its call. -/
  | returned (v : Value)
  /-- The program is in error. -/
  | error (e : ProgramError)
  /-- The text that was to be run is no program. -/
  | malformed (e : SyntaxError)
  /-- A function of the host reports an error. -/
  | hostError (message : Text)
  /-- A fault of the host. -/
  | fault (f : HostFault)
  /-- A node that was put together by hand cannot be taken apart. -/
  | misshapen (f : HostFault)
  /-- The depth is used up. -/
  | tooDeep
  /-- The run is halted from outside. -/
  | halted

/-- A **step**: it may read and change the store, and may be interrupted. -/
abbrev Step := EStateM Interrupt Store

namespace Step

/-- Goes on with the result of a computation of the host. -/
def ofHost : Except HostFault α → Step α
  | .ok a => pure a
  | .error f => throw (.fault f)

/-- Goes on with the result of a computation that may make a demand. -/
def ofExcept : Except Unmet α → Step α
  | .ok a => pure a
  | .error u => throw (.fault (.unmet u))

/-- Goes on with what is read from the store. -/
def read (f : Store → Except Unmet α) : Step α := do
  ofExcept (f (← get))

/-- Ends with a fault of the host. -/
def fault (f : HostFault) : Step α :=
  throw (.fault f)

/-- Ends with an error of the program. -/
def error (kind : ErrorKind) (reason : Text) : Step α :=
  throw (.error ⟨kind, reason, none⟩)

/-- Ends with an error because something is of the wrong type. -/
def wrongType (reason : Text) : Step α :=
  error .wrongType reason

/-- Adds a warning to the log. -/
def warn (channel : Channel) (text : Text) : Step Unit :=
  modify fun s => s.note ⟨.warning, channel, text⟩

/-- Adds a warning to the log and gives a failure. -/
def failWith (channel : Channel) (text : Text) : Step Value := do
  warn channel text
  return .failure

/-- Adds a remark to the log that helps to follow a run. -/
def remark (channel : Channel) (text : Text) : Step Unit :=
  modify fun s => s.note ⟨.debug, channel, text⟩

/-- Makes something new in the store. -/
def make (f : Store → α × Store) : Step α :=
  modifyGet f

/-- A new list. -/
def newList (items : List Value) : Step Value :=
  .list <$> make (·.newList items)

/-- A new tuple; all empty ones are the same. -/
def newTuple (items : List Value) : Step Value :=
  if items.isEmpty then return .tuple 0 []
  else (.tuple · items) <$> make Store.newIdentity

/-- A new bound method. -/
def newMethod (name : Text) (subject : Value) : Step Value :=
  (.method · name subject) <$> make Store.newIdentity

/-- A value as it is displayed. -/
def display (v : Value) : Step Text :=
  read (·.display v)

/-- The text of a value. -/
def textOf (v : Value) : Step Text :=
  read (·.textOf v)

/-- The number of a value. -/
def numberOf (v : Value) : Step Number :=
  read (·.numberOf v)

/-- Does a step, and sets errors of the program that come out of it at a position,
unless they have one. -/
def locating (position : Option Position) (step : Step α) : Step α :=
  tryCatch step fun
    | .error e => throw (.error (e.locatedAt position))
    | interrupt => throw interrupt

end Step

end Scriptlet
