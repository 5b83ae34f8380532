import Scriptlet.Operator
import Scriptlet.Walk.Access

/-!
# Assignments

A name or a member can be assigned to. The value is evaluated first and the target
after it, once; a compound assignment then reads the target, applies its operator and
writes the result. A step by one does the same without a value, and gives the new
value wherever its sign stands.
-/

namespace Scriptlet.Walk

/-- What can be **read and written**. -/
inductive Target where
  /-- A name as seen from a frame. -/
  | name (frame : FrameRef) (name : Text)
  /-- A member of an object. -/
  | member (object key : Value)

namespace Target

/-- The value at a target. -/
def read : Target → Step Value
  | name frame n => Step.lookup frame n
  | member object key => Step.getProperty object key

/-- Writes a value to a target. -/
def write (v : Value) : Target → Step Value
  | name frame n => do
    modify fun s => s.assign frame n v
    return v
  | member object key => Step.setProperty object key v

end Target

/-- The **target** that a node stands for; none where there is no such target. -/
def target? (run : Runner) (n : Node) (frame : FrameRef) : Step (Option Target) := do
  match n with
  | .branch .identifier _ children =>
    let name ← Step.identifier "Assignment target" (← Step.child children 0)
    return some (.name frame name)
  | .branch .member _ children =>
    match ← memberParts run children frame with
    | none => return none
    | some (object, key) => return some (.member object key)
  | n =>
    let label : Text := match n.kind? with | some kind => kind.name | none => "None"
    Step.warn .assignment ("Invalid assignment target: " ++ label)
    return none

/-- The compound assignments, each with the operator that it applies. -/
def compoundOperators : List (Text × Text) :=
  List.map (fun (sign, op) => (Text.ofString sign, Text.ofString op))
    [("+=", "+"), ("-=", "-"), ("*=", "*"), ("/=", "/"), ("%=", "%"), ("|=", "|"), ("&=", "&"),
     ("^=", "^")]

/-- How an assignment **assigns**. -/
inductive Assigning where
  /-- The value itself. -/
  | plain
  /-- What an operator makes of the value at the target and the new one. -/
  | compound (operator : Text)

/-- The way of assigning that is written so. -/
def assigning? (sign : Text) : Option Assigning :=
  if sign == "=" then some .plain else (compoundOperators.lookup sign).map .compound

/-- Assigns a value to a target. -/
def assignTo (target : Target) (how : Assigning) (v : Value) : Step Value := do
  match how with
  | .plain => target.write v
  | .compound operator =>
    let current ← target.read
    let current := if current.isFailure then .int 0 else current
    match ← Step.applyBinary operator current v with
    | .failure => return .failure
    | result => target.write result

/-- Evaluates an **assignment**. -/
def assign (run : Runner) (children : List Node) (frame : FrameRef) : Step Value := do
  let (target, sign, value) ← Step.triple children
  match ← run (.eval value frame) with
  | .failure => return .failure
  | v =>
    match assigning? sign.asText with
    | none => Step.failWith .assignment ("Unknown assignment operator: " ++ sign.asText)
    | some how =>
      match ← target? run target frame with
      | none => return .failure
      | some target => assignTo target how v

/-- The value one step from a value; none for a sign that is no step. -/
def stepped? (s : Store) (sign : Text) (v : Value) : Except Unmet (Option Value) := do
  if sign == "++" then return some (.number (← (← s.numberOf v).add (.int 1)))
  else if sign == "--" then return some (.number (← (← s.numberOf v).sub (.int 1)))
  else return none

/-- Evaluates a **step by one**. -/
def update (run : Runner) (children : List Node) (frame : FrameRef) : Step Value := do
  let (sign, target) ← Step.pair children
  match ← target? run target frame with
  | none => return .failure
  | some target =>
    match ← target.read with
    | .failure => return .failure
    | current =>
      match ← Step.read (stepped? · sign.asText current) with
      | some v => target.write v
      | none => Step.failWith .assignment ("Unknown update operator: " ++ sign.asText)

end Scriptlet.Walk
