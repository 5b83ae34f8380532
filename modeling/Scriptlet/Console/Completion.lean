import Scriptlet.Console.Command
import Scriptlet.Regexp
import Scriptlet.Token.Lexer

/-!
# Completions

Before the cursor of an entry there may be the beginning of something that can be
completed. After a slash at the start of the entry that is a command. Anywhere else
it is a word of the program: a keyword or a name that is bound. A word starts with
an ASCII letter, an underscore or a dollar sign, and it may have a line feed after
it, if that is the last code point.
-/

namespace Scriptlet.Console

/-- A **completion**. -/
structure Completion where
  /-- What it offers. -/
  text : Text
  /-- Where, counted from the cursor, the part starts that it takes the place of. -/
  start : Int
  /-- What is shown beside it. -/
  note : Text
  deriving DecidableEq, Repr

/-- The part of a text that a word may be at the end of: all but a last line feed. -/
def withoutFinalNewline (text : Text) : Text :=
  if text.getLast? == some ('\n' : CodePoint) then text.dropLast else text

/-- The **word** at the end of a text, empty where there is none. -/
def wordAtEnd (text : Text) : Text :=
  let run := ((withoutFinalNewline text).reverse.takeWhile continuesName).reverse
  run.dropWhile fun c => !Regexp.startsName c

/-- Whether a text comes **before another one or is the same**, code point by code
point. -/
def isAtMost : Text → Text → Bool
  | [], _ => true
  | _ :: _, [] => false
  | a :: s, b :: t => a < b || (a == b && isAtMost s t)

/-- All that can be offered as a word: the bound names and the keywords, in order and
each once. -/
def offeredWords (bound : List Text) : List Text :=
  ((bound ++ keywords.map Prod.fst).eraseDups).mergeSort isAtMost

/-- The words that go on from a word, which is not one of them. -/
def completeWord (bound : List Text) (word : Text) : List Completion :=
  let longer := (offeredWords bound).filter fun name => word.isPrefixOf name && name != word
  longer.map fun name => ⟨name, -word.length, []⟩

/-- The commands that start with a text. -/
def completeCommand (text : Text) : List Completion :=
  let longer := Command.all.filter fun c => text.isPrefixOf c.name
  longer.map fun c => ⟨c.name, -text.length, c.summary⟩

/-- The **completions** of the text before the cursor, where these names are bound. -/
def completions (bound : List Text) (before : Text) : List Completion :=
  if before.head? == some ('/' : CodePoint) then completeCommand before
  else
    let word := wordAtEnd before
    if word.isEmpty then [] else completeWord bound word

end Scriptlet.Console
