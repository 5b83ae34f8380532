import Scriptlet.Property

/-!
# Calls

Evaluating a node and calling a value depend on each other, and both can go on
without end. What is to be done next is therefore a *task*, and whatever needs a
task done is given a *runner* for it as an argument. How tasks are run is settled
in one place; everything else is defined for every runner.

A function of the program may be called in three ways: by the program with a
receiver, as a constructor, or as a callback, where a failure becomes undefined.
-/

namespace Scriptlet

/-- What there is **to do**. -/
inductive Task where
  /-- To evaluate a node in a frame. -/
  | eval (node : Node) (frame : FrameRef)
  /-- To run a function of the program, with the receiver it is called on, if any. A
  call that `constructs` gives only what is returned explicitly. -/
  | activate (f : FunctionRef) (args : List Value) (receiver : Option Value) (constructs : Bool)
  /-- To call a value as the host does. -/
  | call (callee : Value) (args : List Value)

/-- The **call of a function of the host** that a task is, if it is one. A method is given its
object first. -/
def Task.hostCall? : Task → Option (Native × List Value)
  | call (.native f) args => some (f, args)
  | call (.hostMethod _ ref m) args => some (m, .host ref :: args)
  | _ => none

/-- What **does tasks**. -/
abbrev Runner := Task → Step Value

/-- What the **functions of a host** do. They are given a runner, so they can call back, and
like any step they can change the store. A method is given its object first. -/
abbrev Host := Native → Runner → List Value → Step Value

/-- A host without functions. -/
def Host.bare : Host := fun _ _ _ => throw (.fault .wrongType)

/-- The argument at an index; one that is missing is undefined. -/
def argument (args : List Value) (index : Nat) : Value :=
  Value.ofOption args[index]?

namespace Step

/-- Calls a **callback**. Functions of the program may leave arguments aside by
themselves; those of the host are given no more than they take. -/
def invoke (run : Runner) (callee : Value) (args : List Value) : Step Value := do
  match callee with
  | .function f => Value.orUndefined <$> run (.activate f args none false)
  | .method .. => run (.call callee args)
  | .native f | .hostMethod _ _ f => run (.call callee (args.take (f.arity.getD args.length)))
  | v => wrongType ((← display v) ++ " is not a function")

/-- **Calls a value** from the program. Only functions of the program see the
receiver. -/
def callValue (run : Runner) (callee : Value) (args : List Value) (receiver : Option Value) :
    Step Value :=
  match callee with
  | .function f => run (.activate f args receiver false)
  | v => run (.call v args)

/-- Calls a function of the program on a new object, and gives that object unless the
function returns another object or a list. -/
def constructWith (run : Runner) (f : FunctionRef) (args : List Value) : Step Value := do
  let fresh := Value.object (← make (·.newObject []))
  match ← run (.activate f args (some fresh) true) with
  | .object ref => return .object ref
  | .list ref => return .list ref
  | _ => return fresh

/-- **Calls a value as a constructor.** -/
def construct (run : Runner) (callee : Value) (args : List Value) : Step Value := do
  match callee with
  | .function f =>
    match (← get).functions[f]? with
    | none => constructWith run f args
    | some cell =>
      match cell.kind with
      | .plain => constructWith run f args
      | .arrow =>
        let name := cell.name.getD []
        wrongType ((if name.isEmpty then ("anonymous" : Text) else name) ++ " is not a constructor")
  | .native _ | .hostMethod .. => run (.call callee args)
  | v => wrongType ((← display v) ++ " is not a constructor")

/-- The values that a value **spreads** into: those of a list or a tuple, and the
code points of a text. -/
def spread? (v : Value) : Step (Option (List Value)) := do
  match v with
  | .list ref => return some ((← get).items ref)
  | .tuple _ items => return some items
  | .text t => return some (t.map fun c => .text [c])
  | _ => return none

end Step

end Scriptlet
