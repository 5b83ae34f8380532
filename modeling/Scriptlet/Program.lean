import Scriptlet.Host.Sample
import Scriptlet.Tree.Grammar

/-!
# Running programs

A program is run in a frame, and each of its statements gives a value. The frame
binds names in an object, the *context*, which can be handed in with bindings and
afterwards holds what the program has bound.

In a session one entry after another is run in one frame. Declarations are run
quietly: their values are of no interest.

What the functions of the host do is up to the runner. For trying things out there is
a run of each kind by the sample host.
-/

namespace Scriptlet

namespace Program

/-- Begins a run. -/
def beginRun : Step Unit :=
  modify fun s => { s with run := s.run + 1 }

/-- Runs statements one after another; one that fails is undefined. -/
def runStatements (run : Runner) (frame : FrameRef) : List Node → Step (List Value)
  | [] => return []
  | n :: rest => do
    let v ← run (.eval n frame)
    return v.orUndefined :: (← runStatements run frame rest)

/-- Prepares the run of a program: the functions that it declares are bound beforehand. -/
def prepare (program : Node) (frame : FrameRef) : Step Unit := do
  beginRun
  Walk.hoist frame program.children
  Step.remark .program
    ("running " ++ Text.ofNat program.children.length ++ " top-level statements")

/-- **Runs a program** with a runner and gives the value of each statement. -/
def runWith (run : Runner) (program : Node) (frame : FrameRef) : Step (List Value) := do
  prepare program frame
  runStatements run frame program.children

/-- Runs a program by the sample host and gives the value of each statement. -/
def run (program : Node) (frame : FrameRef) : Step (List Value) :=
  runWith Task.run program frame

/-- The program in a text. -/
def read (source : Text) : Step Node :=
  match parseProgram source with
  | .ok program => return program
  | .error e => throw (.malformed e)

/-- **Runs a text** with a runner in a context and gives the value of each statement. -/
def evaluateAllWith (run : Runner) (source : Text) (context : ObjectRef) :
    Step (List Value) := do
  let program ← read source
  let frame ← Step.make (·.openFrame context none (some source))
  runWith run program frame

/-- Runs a text in a context by the sample host and gives the value of each statement. -/
def evaluateAll (source : Text) (context : ObjectRef) : Step (List Value) :=
  evaluateAllWith Task.run source context

/-- Runs a text in a context by the sample host and gives the value of the last statement. -/
def evaluate (source : Text) (context : ObjectRef) : Step Value := do
  return (← evaluateAll source context).getLastD .undefined

/-- Evaluates a single node in a frame by the sample host. The frame may be given a source text
first. -/
def evaluateNode (n : Node) (frame : FrameRef) (source : Option Text) : Step Value := do
  if source.isSome then modify fun s => s.setSource frame source
  Step.locating n.position? (Task.eval n frame).run

/-! ## Sessions -/

/-- Whether the value of a statement is of no interest. -/
def isQuiet (n : Node) : Bool :=
  match n.kind? with
  | some .declaration | some .functionDeclaration | some .empty => true
  | _ => false

/-- **Runs an entry** of a session with a runner. The result is the value of its last
statement, and whether that is of no interest. -/
def runEntryWith (run : Runner) (source : Text) (frame : FrameRef) : Step (Value × Bool) := do
  modify fun s => s.setSource frame (some source)
  let program ← read source
  let results ← runWith run program frame
  match program.children.getLast? with
  | none => return (.undefined, true)
  | some last => return (results.getLastD .undefined, isQuiet last)

/-- Runs an entry of a session by the sample host. -/
def runEntry (source : Text) (frame : FrameRef) : Step (Value × Bool) :=
  runEntryWith Task.run source frame

end Program

end Scriptlet
