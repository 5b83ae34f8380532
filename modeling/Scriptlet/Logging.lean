import Scriptlet.Store
import Scriptlet.Text.Blank
import Scriptlet.Text.Casing

/-!
# Settings and the log

Two settings come from the variables of the environment: from which level on log
records are shown, and whether errors are shown with a trace. Blanks around them and
their case do not matter.

The records of the log are shown from a *threshold* on, each on a line of its own
with its level and the part of the library it comes from. Thresholds go by names;
between the levels that records have and around them there are more names.
-/

namespace Scriptlet

/-! ## Settings -/

/-- The **variables** of the environment that matter here, where they are set. -/
structure Environment where
  /-- The level from which on log records are shown. -/
  logLevel : Option Text
  /-- Whether errors are shown with a trace. -/
  tracing : Option Text
  deriving DecidableEq, Repr

namespace Environment

/-- The name of the variable for the level of the log. -/
def logLevelName : String := "JSWALK_LOG_LEVEL"

/-- The name of the variable for traces. -/
def tracingName : String := "JSWALK_DEBUG_PY_TRACE"

/-- The **level** from the environment in capitals. Where the variable is not set, the
default stands in for it; where nothing is left, the default itself is the level. -/
def level (env : Environment) (default : Text) : Text :=
  let name := Text.upper (Text.trim (env.logLevel.getD default))
  if name.isEmpty then default else name

/-- The level where nothing else is said. -/
def defaultLevel : Text := "WARNING"

/-- The values that mean yes. -/
def yesWords : List Text := List.map Text.ofString ["1", "true", "yes", "on"]

/-- Whether errors are shown **with a trace**. -/
def isTracing (env : Environment) : Bool :=
  yesWords.contains (Text.lower (Text.trim (env.tracing.getD [])))

end Environment

/-! ## Showing the log -/

/-- The level from which on records are shown, as a number. -/
abbrev Threshold := Nat

namespace LogLevel

/-- The name of a level. -/
def name : LogLevel → Text
  | debug => "DEBUG"
  | warning => "WARNING"

/-- How severe a level is. -/
def severity : LogLevel → Nat
  | debug => 10
  | warning => 30

end LogLevel

/-- The names of thresholds. -/
def thresholdNames : List (Text × Threshold) :=
  List.map (fun (name, n) => (Text.ofString name, n))
    [("CRITICAL", 50), ("FATAL", 50), ("ERROR", 40), ("WARNING", 30), ("WARN", 30), ("INFO", 20),
      ("DEBUG", 10), ("NOTSET", 0)]

/-- The threshold of a name, in whatever case. -/
def thresholdOf? (name : Text) : Option Threshold :=
  thresholdNames.lookup (Text.upper name)

/-- The name under which a part of the library is known outside. -/
def Channel.name : Channel → Text
  | walk => "jswalk.evaluator"
  | access => "jswalk.eval.chains"
  | assignment => "jswalk.eval.bind"
  | operator => "jswalk.eval.expr"
  | function => "jswalk.eval.fn"
  | literal => "jswalk.eval.literals"
  | collection => "jswalk.eval.objects"
  | property => "jswalk.eval.mutation"
  | call => "jswalk.runtime"
  | program => "jswalk.runner"

namespace LogRecord

/-- Whether a record is shown. -/
def isShown (threshold : Threshold) (r : LogRecord) : Bool :=
  threshold ≤ r.level.severity

/-- A record **as it is shown**. -/
def line (r : LogRecord) : Text :=
  r.level.name ++ " " ++ r.channel.name ++ ": " ++ r.text ++ "\n"

end LogRecord

/-- The **log as it is shown** from a threshold on. -/
def Store.logText (s : Store) (threshold : Threshold) : Text :=
  ((s.records.filter (·.isShown threshold)).map LogRecord.line).flatten

end Scriptlet
