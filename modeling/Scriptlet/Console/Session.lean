import Scriptlet.CommandLine
import Scriptlet.Console.Command
import Scriptlet.Console.Continuation

/-!
# Sessions

In a session entries are run one after another in one frame, so that what one binds
the next can use. Errors of the program are reported and the session goes on; other
interrupts end it. The session is a value: what it does with an entry is a function to
the next session and what is written meanwhile.
-/

namespace Scriptlet.Console

/-- A **session**. -/
structure Session where
  /-- The store. -/
  store : Store
  /-- The frame in which entries are run. -/
  frame : FrameRef
  /-- Whether errors are to be shown with a trace. -/
  isTracing : Bool
  /-- From where on records of the log are shown. -/
  threshold : Threshold

/-- What comes of an entry: what is written, the next session, and what ends it, if
something does. -/
structure Turn where
  /-- What is written. -/
  output : Output
  /-- The next session. -/
  session : Session
  /-- What ends the session. -/
  ending : Option Interrupt

namespace Session

/-- What a session says at its start. -/
def greeting : Output :=
  .line "jswalk repl - Ctrl-D to exit, / for commands, Tab to complete"

/-- What a session says at its end. -/
def farewell : Output :=
  .line []

/-- What a session says when an entry is cut short. -/
def interrupted : Output :=
  .line "KeyboardInterrupt"

/-- A store with a new frame that binds nothing. -/
def freshFrame (s : Store) : FrameRef × Store :=
  let (bindings, s) := s.newObject []
  s.openFrame bindings none (some [])

/-- **The start** of a session. -/
def start (env : Environment) : Except Refusal Session := do
  let threshold ← chooseThreshold env none
  let (frame, store) := freshFrame .empty
  return ⟨store, frame, env.isTracing, threshold⟩

/-- The object that holds the bindings. -/
def context? (s : Session) : Option ObjectRef :=
  s.store.frames[s.frame]?.map FrameCell.bindings

/-- The bound names. -/
def names (s : Session) : List Text :=
  (s.store.bindings s.frame).filterMap fun entry => entry.1.text?

/-- A turn that only writes something. -/
def say (s : Session) (output : Output) : Turn :=
  ⟨output, s, none⟩

/-! ## Commands -/

/-- What clears the screen of a terminal and goes to its upper left corner. -/
def clearScreen : Output :=
  ⟨"\x1b[2J\x1b[0;0H", []⟩

/-- The bindings as they are shown. -/
def showContext (s : Session) : Turn :=
  let bindings := s.store.bindings s.frame
  if bindings.isEmpty then s.say (.line "(empty)")
  else
    let equals : Text := " = "
    let labelled := bindings.map fun entry => ((entry.1.text?).getD [] ++ equals, entry.2)
    let (output, unmet) := s.store.displayLines labelled
    ⟨output, s, unmet.map fun u => .fault (.unmet u)⟩

/-- A new frame takes the place of the old one. -/
def reset (s : Session) : Turn :=
  let (frame, store) := freshFrame s.store
  { s with store := store, frame := frame }.say (.line "Environment reset.")

/-- Traces are turned on or off. -/
def setTracing (s : Session) (argument : Text) : Turn :=
  match SwitchRequest.ofText? argument with
  | none => s.say (.errorLine "Usage: /py-traceback [on|off]")
  | some request =>
    let state := request.apply s.isTracing
    let word : Text := if state then "on" else "off"
    { s with isTracing := state }.say (.line ("Python traceback: " ++ word))

/-- Does a **command**. -/
def obey (s : Session) (line : CommandLine) : Turn :=
  match Command.ofName? line.name with
  | none => s.say (.errorLine ("Unknown command: " ++ line.name))
  | some .clear => s.say clearScreen
  | some .context => s.showContext
  | some .traceback => s.setTracing line.argument
  | some .reset => s.reset

/-! ## Entries -/

/-- Runs a text and displays its value, unless that is of no interest. -/
def runAndDisplay (frame : FrameRef) (source : Text) : Step Output := do
  let (v, quiet) ← Program.runEntryWith Task.runAlone source frame
  if quiet then return .empty
  return .line (← Step.display v)

/-- Runs an entry that is **part of the program**. -/
def run (s : Session) (source : Text) : Turn :=
  let finish (store : Store) (output : Output) (ending : Option Interrupt) : Turn :=
    ⟨⟨[], store.logText s.threshold⟩ ++ output, { s with store := { store with log := [] } }, ending⟩
  match (runAndDisplay s.frame source).run s.store with
  | .ok output store => finish store output none
  | .error i store =>
    match i.report? with
    | some r => finish store (.errorLine (r.render (store.sourceOf s.frame))) none
    | none => finish store .empty (some i)

/-- What comes of **an entry**: blank ones are passed over, commands are obeyed, and all
others are run. -/
def enter (s : Session) (entry : Text) : Turn :=
  let text := clean entry
  if (Text.trim text).isEmpty then s.say .empty
  else
    match commandLine? text with
    | some line => s.obey line
    | none => s.run text

end Session

end Scriptlet.Console
