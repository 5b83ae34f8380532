import Scriptlet.CommandLine
import Scriptlet.Console.Session

/-!
# The program

With arguments, or with something on the standard input, the program runs a command
line; at a terminal without arguments it opens a session. This is the outer layer:
what it reads and prints is handed to `runCommandLine` and to `Console.Session`, which
decide everything else.
-/

namespace Scriptlet.Outer

/-- A text as a string; a surrogate that stands alone has no place in it. -/
def toString (t : Text) : String :=
  String.ofList (t.map Char.ofNat)

/-- Writes what a run has written. -/
def write (output : Output) : IO Unit := do
  let out ← IO.getStdout
  out.putStr (toString output.out)
  out.flush
  (← IO.getStderr).putStr (toString output.err)

/-- The variables of the environment. -/
def environment : IO Environment := do
  let level ← IO.getEnv Environment.logLevelName
  let tracing ← IO.getEnv Environment.tracingName
  return ⟨level.map Text.ofString, tracing.map Text.ofString⟩

/-- Reads a stream up to its end. -/
partial def readAll (stream : IO.FS.Stream) (before : String) : IO String := do
  let line ← stream.getLine
  if line.isEmpty then return before else readAll stream (before ++ line)

/-- The text of a file, if it can be read. -/
def readFile (path : Text) : IO (Option Text) := do
  try
    return some (Text.ofString (← IO.FS.readFile (toString path)))
  catch _ => return none

/-- The standard input and the files of the system. -/
def surroundings : Surroundings IO :=
  ⟨do return Text.ofString (← readAll (← IO.getStdin) ""), readFile⟩

/-- The exit code of an ending; what has not been said yet is said. -/
def close : Ending → IO UInt32
  | .done => return 0
  | .failed => return 1
  | .refused r => do
    IO.eprintln (toString r.message)
    return 1
  | .broken _ => do
    IO.eprintln "The run broke off."
    return 1

/-- Reads an entry line by line while the enter key starts further lines; nothing at the
end of the input. -/
partial def readEntry (prompt before : String) : IO (Option Text) := do
  let out ← IO.getStdout
  out.putStr prompt
  out.flush
  let line ← (← IO.getStdin).getLine
  if line.isEmpty then
    return if before.isEmpty then none else some (Text.ofString before)
  else
    let text := before ++ (line.dropEndWhile (· == '\n')).toString
    match Console.onEnter (Text.ofString text) with
    | .submit => return some (Text.ofString text)
    | .newLine => readEntry "... " (text ++ "\n")

/-- Takes the entries of a session one after another. -/
partial def converse (session : Console.Session) : IO UInt32 := do
  match ← readEntry "> " "" with
  | none => do
    write Console.Session.farewell
    return 0
  | some entry => do
    let turn := session.enter entry
    write turn.output
    match turn.ending with
    | none => converse turn.session
    | some i => close (.broken i)

/-- A session at the terminal. -/
def openSession : IO UInt32 := do
  match Console.Session.start (← environment) with
  | .error r => close (.refused r)
  | .ok session => do
    write Console.Session.greeting
    converse session

/-- A run of the command line. -/
def runArguments (arguments : List String) : IO UInt32 := do
  let (output, ending) ←
    runCommandLine (← environment) surroundings (arguments.map Text.ofString)
  write output
  close ending

end Scriptlet.Outer

/-- Opens a session at a terminal without arguments, and runs a command line otherwise. -/
def main (arguments : List String) : IO UInt32 := do
  if arguments.isEmpty && (← (← IO.getStdin).isTty) then Scriptlet.Outer.openSession
  else Scriptlet.Outer.runArguments arguments
