import Scriptlet.Text.Blank
import Scriptlet.Text.Casing

/-!
# Commands of a session

An entry that starts with a slash is a *command* to the session itself. The first
space ends the name of the command; what follows is its argument. Some commands
take one and the others pay no attention to it.
-/

namespace Scriptlet.Console

/-- A **command**. -/
inductive Command where
  | clear | context | traceback | reset
  deriving DecidableEq, Repr

namespace Command

/-- The commands in the order in which they are offered. -/
def all : List Command := [clear, context, traceback, reset]

/-- The name of a command. -/
def name : Command → Text
  | clear => "/clear"
  | context => "/context"
  | traceback => "/py-traceback"
  | reset => "/reset"

/-- What a command does, in a few words. -/
def summary : Command → Text
  | clear => "Clear the terminal screen"
  | context => "Show the current bindings"
  | traceback => "Toggle Python traceback on errors"
  | reset => "Reset the REPL environment"

/-- The command of a name. -/
def ofName? (name : Text) : Option Command :=
  all.find? fun c => c.name == name

/-- Every command is found by its name. -/
theorem ofName?_name (c : Command) : ofName? c.name = some c := by
  cases c <;> decide +kernel

end Command

/-- A line that starts with a slash: the name of a command, which need not be one that
exists, and its argument. -/
structure CommandLine where
  /-- The name, slash included. -/
  name : Text
  /-- The argument, without blanks around it. -/
  argument : Text
  deriving DecidableEq, Repr

/-- The command that an entry is meant to be, if it starts with a slash. -/
def commandLine? (entry : Text) : Option CommandLine :=
  let line := Text.trim entry
  if line.head? == some ('/' : CodePoint) then
    let space : CodePoint := ' '
    some ⟨line.takeWhile (· != space), Text.trim ((line.dropWhile (· != space)).drop 1)⟩
  else none

/-- What an argument asks of a switch. -/
inductive SwitchRequest where
  | on | off | toggle
  deriving DecidableEq, Repr

/-- The words that turn a switch on. -/
def onWords : List Text := List.map Text.ofString ["on", "1", "true", "yes"]

/-- The words that turn a switch off. -/
def offWords : List Text := List.map Text.ofString ["off", "0", "false", "no"]

/-- What an argument asks of a switch, if it makes sense. Case does not matter, and no
word at all turns it the other way. -/
def SwitchRequest.ofText? (argument : Text) : Option SwitchRequest :=
  let word := Text.lower argument
  if onWords.contains word then some .on
  else if offWords.contains word then some .off
  else if word.isEmpty then some .toggle
  else none

/-- The state of a switch after a request. -/
def SwitchRequest.apply (r : SwitchRequest) (state : Bool) : Bool :=
  match r with
  | .on => true
  | .off => false
  | .toggle => !state

end Scriptlet.Console
