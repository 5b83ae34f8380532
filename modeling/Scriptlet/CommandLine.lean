import Scriptlet.Json
import Scriptlet.Logging
import Scriptlet.Path
import Scriptlet.Program
import Scriptlet.Report
import Scriptlet.Tree

/-!
# The command line

The command line names a program, or is one, and says how to run it: with which names
bound, and whether to show the value of the last statement, of all of them, or the
tree of the program instead. What is to be run is looked for in this order: with no
argument, an empty one or a dash it is the standard input; with an argument that is
the path of a file it is the file; any other argument is the program itself.

All is decided here but for the standard input and the files, which stand behind
`Surroundings`: a run can be made in any monad that offers them.
-/

namespace Scriptlet

/-! ## What a run writes, and how it ends -/

/-- What is **written** to the standard output and to the standard error. -/
structure Output where
  /-- The text on the standard output. -/
  out : Text
  /-- The text on the standard error. -/
  err : Text
  deriving DecidableEq, Repr

namespace Output

/-- Nothing. -/
def empty : Output := ⟨[], []⟩

/-- A line on the standard output. -/
def line (t : Text) : Output := ⟨t ++ "\n", []⟩

/-- A line on the standard error. -/
def errorLine (t : Text) : Output := ⟨[], t ++ "\n"⟩

instance : Append Output := ⟨fun a b => ⟨a.out ++ b.out, a.err ++ b.err⟩⟩

@[simp] theorem out_append (a b : Output) : (a ++ b).out = a.out ++ b.out := rfl

@[simp] theorem err_append (a b : Output) : (a ++ b).err = a.err ++ b.err := rfl

end Output

/-- Why a command line is **refused**. -/
inductive Refusal where
  /-- The text for the context is no JSON. -/
  | badContext (reason : Text)
  /-- The JSON for the context is no object. -/
  | contextNoObject
  /-- The text for the context is missing. -/
  | missingContext
  /-- The name of the level is missing. -/
  | missingLevel
  /-- There is an argument too many. -/
  | extraArgument (argument : Text)
  /-- The level has an unknown name: the one that was given, or one from the environment. -/
  | unknownLevel (given : Option Text)
  /-- The standard input is empty. -/
  | noInput
  deriving DecidableEq, Repr

/-- The wording of a refusal. -/
def Refusal.message : Refusal → Text
  | badContext reason => "Invalid --context JSON: " ++ reason
  | contextNoObject => "--context must be a JSON object"
  | missingContext => "--context flag requires a JSON object"
  | missingLevel => "--log-level flag requires a level name"
  | extraArgument argument => "Unexpected argument: " ++ argument
  | unknownLevel given => "Unknown log level: " ++ given.getD "None"
  | noInput => "No input provided on stdin"

/-- How a run **ends**. -/
inductive Ending where
  /-- It is done. -/
  | done
  /-- An error of the program has been reported. -/
  | failed
  /-- The run is refused. -/
  | refused (r : Refusal)
  /-- The run breaks off. -/
  | broken (i : Interrupt)

/-! ## Options -/

/-- What the arguments say. -/
structure Options where
  /-- The names to start with. -/
  context : List (Text × Json)
  /-- Whether to show the values of all statements. -/
  showAll : Bool
  /-- Whether to show the tree instead of running the program. -/
  showTree : Bool
  /-- The level of the log. -/
  logLevel : Option Text
  /-- The argument that names the program or is one. -/
  program : Option Text

namespace Options

/-- The options where no argument says otherwise. -/
def standard : Options := ⟨[], false, false, none, none⟩

/-- The members of the JSON object that an argument spells. -/
def readContext (argument : Text) : Except Ending (List (Text × Json)) :=
  match Json.read argument with
  | .ok (.object members) => .ok members
  | .ok _ => .error (.refused .contextNoObject)
  | .error (.malformed reason offset) =>
    .error (.refused (.badContext (malformedMessage argument reason offset)))
  | .error (.unmet u) => .error (.broken (.fault (.unmet u)))

/-- Options with another context, spelled by an argument. -/
def withContext (o : Options) (argument : Text) : Except Ending Options := do
  return { o with context := ← readContext argument }

/-- Options with a program. -/
def withProgram (o : Options) (argument : Text) : Except Ending Options :=
  match o.program with
  | none => .ok { o with program := some argument }
  | some _ => .error (.refused (.extraArgument argument))

/-- Options after one argument; `next?` is the argument after it. The result also tells
whether that one has been used up. -/
def readOne (o : Options) (argument : Text) (next? : Option Text) :
    Except Ending (Options × Bool) :=
  let contextFlag : Text := "--context"
  let levelFlag : Text := "--log-level"
  if argument == "--all" then .ok ({ o with showAll := true }, false)
  else if argument == "--ast" then .ok ({ o with showTree := true }, false)
  else if (contextFlag ++ "=").isPrefixOf argument then
    (·, false) <$> o.withContext (argument.drop (contextFlag.length + 1))
  else if argument == contextFlag then
    match next? with
    | none => .error (.refused .missingContext)
    | some next => (·, true) <$> o.withContext next
  else if (levelFlag ++ "=").isPrefixOf argument then
    .ok ({ o with logLevel := some (argument.drop (levelFlag.length + 1)) }, false)
  else if argument == levelFlag then
    match next? with
    | none => .error (.refused .missingLevel)
    | some next => .ok ({ o with logLevel := some next }, true)
  else (·, false) <$> o.withProgram argument

/-- Options after arguments; the first of them is passed over if it is used up. -/
def readFrom (o : Options) : Bool → List Text → Except Ending Options
  | _, [] => .ok o
  | true, _ :: rest => readFrom o false rest
  | false, argument :: rest =>
    match o.readOne argument rest.head? with
    | .ok (o, used) => readFrom o used rest
    | .error e => .error e

/-- **The options that arguments ask for**, read from left to right. -/
def read (arguments : List Text) : Except Ending Options :=
  standard.readFrom false arguments

end Options

/-- The threshold of the log: that of the level that was given, unless it is empty, else
that of the environment. -/
def chooseThreshold (env : Environment) (given : Option Text) : Except Refusal Threshold :=
  let name := (given.filter (!·.isEmpty)).getD (env.level Environment.defaultLevel)
  match thresholdOf? name with
  | some threshold => .ok threshold
  | none => .error (.unknownLevel given)

/-! ## Finding the program -/

/-- What lies around a run. -/
structure Surroundings (m : Type → Type) where
  /-- All of the standard input. -/
  standardInput : m Text
  /-- The text of the file at a path, if there is one. -/
  file : Text → m (Option Text)

/-- The text of the program. Line ends in a file become line feeds. -/
def findProgram [Monad m] (around : Surroundings m) (argument : Option Text) :
    m (Except Ending Text) :=
  let given := argument.getD []
  if given.isEmpty || given == "-" then do
    let text ← around.standardInput
    return if text.isEmpty then .error (.refused .noInput) else .ok text
  else
    match Path.lookupPath? given with
    | .error f => return .error (.broken (.fault f))
    | .ok none => return .ok given
    | .ok (some path) => do
      match ← around.file path with
      | none => return .ok given
      | some text => return .ok text.normalizeNewlines

/-! ## Running it -/

/-- Values displayed on lines of their own, each after its label, up to the first that
cannot be displayed. -/
def Store.displayLines (s : Store) : List (Text × Value) → Output × Option Unmet
  | [] => (.empty, none)
  | (label, v) :: rest =>
    match s.display v with
    | .error u => (.empty, some u)
    | .ok shown =>
      let (output, unmet) := s.displayLines rest
      (.line (label ++ shown) ++ output, unmet)

/-- The ending after a demand that was not met, if there was one. -/
def Ending.ofUnmet : Option Unmet → Ending
  | none => .done
  | some u => .broken (.fault (.unmet u))

/-- The report of an interrupt, where it is reported, and the ending. -/
def Interrupt.close (i : Interrupt) (source : Option Text) : Output × Ending :=
  match i.report? with
  | some r => (.errorLine (r.render source), .failed)
  | none => (.empty, .broken i)

/-- Shows the tree of a program. -/
def outlineProgram (source : Text) : Output × Ending :=
  match parseProgram source with
  | .ok tree => (⟨tree.outline, []⟩, .done)
  | .error e => Interrupt.close (.malformed e) (some source)

/-- The values that are shown of all values of a run. -/
def Options.shownValues (o : Options) (values : List Value) : List Value :=
  if o.showAll then values else [values.getLastD .undefined]

/-- Runs a program and shows its values. -/
def runProgram (o : Options) (threshold : Threshold) (source : Text) : Output × Ending :=
  let (context, s) := Store.empty.newContext o.context
  match (Program.evaluateAllWith Task.runAlone source context).run s with
  | .ok values s =>
    let (output, unmet) := s.displayLines ((o.shownValues values).map (([] : Text), ·))
    (⟨[], s.logText threshold⟩ ++ output, .ofUnmet unmet)
  | .error i s =>
    let (output, ending) := i.close (some source)
    (⟨[], s.logText threshold⟩ ++ output, ending)

/-- **A run** of the command line with its arguments: what it writes, and how it ends. -/
def runCommandLine [Monad m] (env : Environment) (around : Surroundings m)
    (arguments : List Text) : m (Output × Ending) := do
  match Options.read arguments with
  | .error ending => return (.empty, ending)
  | .ok o =>
    match chooseThreshold env o.logLevel with
    | .error r => return (.empty, .refused r)
    | .ok threshold =>
      match ← findProgram around o.program with
      | .error ending => return (.empty, ending)
      | .ok source =>
        return if o.showTree then outlineProgram source else runProgram o threshold source

end Scriptlet
