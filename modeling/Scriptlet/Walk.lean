import Scriptlet.Method
import Scriptlet.Walk.Assignment
import Scriptlet.Walk.Literal
import Scriptlet.Walk.Statement

/-!
# The walk over a tree

How each kind of node is evaluated, how functions are called, and how tasks are run.
Evaluating a node hands its parts to the runner; running a task to a depth hands
what is to be done for it to the same with one level less. A run that has enough
depth does not depend on how much it was granted.
-/

namespace Scriptlet

namespace Walk

/-- Evaluates a **branch**. Kinds that are only part of another, and those that the
language does not have, are failures. -/
def branch (run : Runner) (kind : Kind) (children : List Node) (frame : FrameRef) : Step Value :=
  match kind with
  | .program | .block => statements run children frame
  | .expressionStatement => do run (.eval (← Step.child children 0) frame)
  | .empty => return .undefined
  | .declaration => declaration run frame (children.drop 1)
  | .declarator => declarator run children frame
  | .functionDeclaration => functionDeclaration children frame
  | .function => function children frame
  | .arrow => arrow children frame
  | .conditionalStatement | .conditional => conditional run children frame
  | .returnStatement => returning run children frame
  | .literal => literal children
  | .identifier => do Step.lookup frame (← Step.leafChild children).2
  | .this => Step.lookup frame "this"
  | .unary => unary run children frame
  | .binary | .logical => binary run children frame
  | .array => list run children frame
  | .object => object run children frame
  | .member => member run children frame
  | .assign => assign run children frame
  | .update => update run children frame
  | .call => call run children frame
  | .construct => construct run children frame
  | .template => template run children frame
  | .templateChunk => do return .text (← chunk children)
  | .taggedTemplate => taggedTemplate run children frame
  | kind => Step.failWith .walk ("Failed to walk node, kind is " ++ kind.name)

/-- **Evaluates a node.** Errors that come out of it are set at its position, unless
they have one. -/
def node (run : Runner) (n : Node) (frame : FrameRef) : Step Value :=
  Step.locating n.position? <|
    match n with
    | .branch kind _ children => branch run kind children frame
    | n => Step.failWith .walk ("Failed to walk node, got " ++ n.describe)

/-! ## Calls of functions -/

/-- Binds parameters to arguments by position; those without an argument are null. -/
def bindParameters (frame : FrameRef) : List Text → List Value → Step Unit
  | [], _ => return ()
  | name :: names, args => do
    Step.define frame name (args.headD .null)
    bindParameters frame names args.tail

/-- Runs the statements of a body until one fails; a failure is that of the body. -/
def untilFailure (run : Runner) (frame : FrameRef) (last : Value) : List Node → Step Value
  | [] => return last
  | n :: rest => do
    match ← run (.eval n frame) with
    | .failure => return .failure
    | v => untilFailure run frame v rest

/-- Takes a return that comes out of a step, and gives its value. -/
def catchingReturn (step : Step Value) : Step Value :=
  tryCatch step fun
    | .returned v => return v
    | interrupt => throw interrupt

/-- Runs a **block as the body of a function**. -/
def body (run : Runner) (statements : List Node) (frame : FrameRef) (constructs : Bool) :
    Step Value := do
  hoist frame statements
  catchingReturn do
    match ← untilFailure run frame .undefined statements with
    | .failure => return .failure
    | v => return if constructs then .undefined else v

/-- Binds the receiver of a call, if there is one. Only functions that are no arrows
have a receiver. -/
def bindReceiver (frame : FrameRef) (kind : FunctionKind) : Option Value → Step Unit
  | some v => if kind == .plain then Step.define frame "this" v else return ()
  | none => return ()

/-- **Runs a function** of the program in a frame of its own, inside the frame in which
it was made. -/
def activate (run : Runner) (f : FunctionRef) (args : List Value) (receiver : Option Value)
    (constructs : Bool) : Step Value := do
  match (← get).functions[f]? with
  | none => return .undefined
  | some cell =>
    let frame ← Step.make (·.openInner cell.scope)
    modify fun s => s.markFunction frame
    bindParameters frame cell.params args
    bindReceiver frame cell.kind receiver
    Step.remark .call
      ("call " ++ cell.describe ++ " with " ++ Text.ofNat args.length ++ " args")
    match cell.body with
    | .branch .block _ statements => body run statements frame constructs
    | expression => run (.eval expression frame)

/-- Calls a value **as the host does**. A failure of a function of the program becomes
undefined. -/
def hostCall (host : Host) (run : Runner) (callee : Value) (args : List Value) : Step Value :=
  match callee with
  | .function f => Value.orUndefined <$> run (.activate f args none false)
  | .method _ name subject => Step.callMethod run subject name args
  | .native f => host f run args
  | .hostMethod _ ref m => host m run (.host ref :: args)
  | _ => Step.fault .wrongType

end Walk

/-! ## Running tasks -/

/-- Does a task, with a runner for what there is to do for it. -/
def Task.perform (host : Host) (run : Runner) : Task → Step Value
  | eval n frame => Walk.node run n frame
  | activate f args receiver constructs => Walk.activate run f args receiver constructs
  | call callee args => Walk.hostCall host run callee args

/-- A call of a function of the host is what the host makes of it. -/
theorem Task.perform_of_hostCall? {host : Host} {run : Runner} {t : Task} {f : Native}
    {args : List Value} (h : t.hostCall? = some (f, args)) :
    t.perform host run = host f run args := by
  cases t with
  | eval | activate => cases h
  | call callee =>
    cases callee with
    | native | hostMethod =>
      cases h
      rfl
    | _ => cases h

/-- **Runs a task**, to a given depth. -/
def Task.runTo (host : Host) : Nat → Runner
  | 0, _ => throw .tooDeep
  | depth + 1, task => task.perform host (Task.runTo host depth)

/-- The depth to which tasks are run. -/
def depthLimit : Nat := 100000

/-- Runs tasks where the host has no functions. -/
def Task.runAlone : Runner :=
  Task.runTo .bare depthLimit

end Scriptlet
