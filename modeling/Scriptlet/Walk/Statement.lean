import Scriptlet.Scope
import Scriptlet.Walk.Operation
import Scriptlet.Walk.Shape

/-!
# Functions and statements

A function keeps the frame in which it is made. One with a name of its own keeps a
frame around itself in which the name is bound to it.

Declarations of functions are bound before the statements they stand among are run.
When one of them is reached it finds its function bound already, and leaves the
binding alone; it makes a new function only where the name is bound to anything
else.

A list of statements is run in one frame, and its value is that of the last one.
Blocks open no frame: all names of a function live in the frame of its call. A return
inside a function interrupts the run on its way to the call; outside of one its value
is just that of a statement.
-/

namespace Scriptlet.Walk

/-! ## Functions -/

/-- The names of parameters; all of them must be identifiers. -/
def parameterNames : List Node → Step (List Text)
  | [] => return []
  | n :: rest =>
    match n.identifier? with
    | some name => do return name :: (← parameterNames rest)
    | none => Step.error .misplacedNode ("Unsupported parameter node: " ++ n.asText)

/-- A new function of the present run. -/
def newFunction (params : List Text) (body : Node) (frame : FrameRef) (name : Option Text)
    (kind : FunctionKind) : Step FunctionRef := do
  let run := (← get).run
  Step.make (·.newFunction ⟨params, body, frame, name, kind, run⟩)

/-- Evaluates a **function expression**. -/
def function (children : List Node) (frame : FrameRef) : Step Value := do
  let params ← Step.child children 0
  let body ← Step.child children 1
  let name := children[2]?.bind Node.identifier?
  let params ← parameterNames params.children
  match name with
  | none => .function <$> newFunction params body frame none .plain
  | some name =>
    let own ← Step.make (·.openInner frame)
    let f ← newFunction params body own (some name) .plain
    Step.define own name (.function f)
    return .function f

/-- Evaluates an **arrow**. -/
def arrow (children : List Node) (frame : FrameRef) : Step Value := do
  let (params, body) ← Step.pair children
  .function <$> newFunction (← parameterNames params.children) body frame none .arrow

/-- Whether a value is the function that a declaration has bound in a frame during the
present run. -/
def isDeclared (s : Store) (v : Value) (params body : Node) (frame : FrameRef) : Bool :=
  match v with
  | .function f =>
    s.functions[f]?.any fun cell =>
      cell.run == s.run && cell.scope == frame && cell.body == body
        && cell.params.map some == params.children.map Node.identifier?
  | _ => false

/-- Evaluates a **declaration** of a function. -/
def functionDeclaration (children : List Node) (frame : FrameRef) : Step Value := do
  let (name, params, body) ← Step.triple children
  let name ← Step.identifier "Function name" name
  let s ← get
  let bound := Value.ofOption ((s.bindings frame).get? (bindingKey name))
  if isDeclared s bound params body frame then return .undefined
  else
    let f ← newFunction (← parameterNames params.children) body frame (some name) .plain
    Step.define frame name (.function f)
    return .undefined

/-- Binds the functions that are declared among statements **beforehand**. -/
def hoist (frame : FrameRef) : List Node → Step Unit
  | [] => return ()
  | .branch .functionDeclaration _ children :: rest => do
    let _ ← functionDeclaration children frame
    Step.remark .function
      ("hoisted function " ++ ((children.head?.map Node.asText).getD []))
    hoist frame rest
  | _ :: rest => hoist frame rest

/-! ## Statements -/

/-- Runs statements one after another and gives the value of the last. -/
def inTurn (run : Runner) (frame : FrameRef) (last : Value) : List Node → Step Value
  | [] => return last
  | n :: rest => do inTurn run frame (← run (.eval n frame)) rest

/-- Runs a **list of statements**. -/
def statements (run : Runner) (children : List Node) (frame : FrameRef) : Step Value := do
  hoist frame children
  inTurn run frame .undefined children

/-- Runs declarators one after another. -/
def declaration (run : Runner) (frame : FrameRef) : List Node → Step Value
  | [] => return .undefined
  | n :: rest => do
    let _ ← run (.eval n frame)
    declaration run frame rest

/-- Binds a **variable** to its first value; one without a value, or with one that fails,
is undefined. -/
def declarator (run : Runner) (children : List Node) (frame : FrameRef) : Step Value := do
  let name ← Step.identifier "Variable name" (← Step.child children 0)
  let v ← optional run frame children[1]?
  Step.define frame name v.orUndefined
  return v.orUndefined

/-- Evaluates a **return**. One whose value fails is a failure. -/
def returning (run : Runner) (children : List Node) (frame : FrameRef) : Step Value := do
  match ← optional run frame children.head? with
  | .failure => return .failure
  | v =>
    match (← get).functionFrame? frame with
    | none => return v
    | some _ => throw (.returned v)

end Scriptlet.Walk
