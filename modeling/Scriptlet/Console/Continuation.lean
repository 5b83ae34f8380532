import Scriptlet.Token.Lexer

/-!
# Unfinished entries

In a session the enter key either hands the entry in or, while the entry is not
finished, starts another line of it. An entry is *unfinished* while it has more
opening than closing brackets, or while a template or a comment is open at its
end. Only the balance of the brackets counts, not how they are paired: an entry
that pairs them wrongly is handed in, so that the error can be reported.

What is typed or pasted may hold code points that cannot be seen. They are taken
out before an entry is run.
-/

namespace Scriptlet.Console

/-- By how much a token changes the number of open brackets. -/
def bracketChange (kind : TokenKind) : Int :=
  if kind.isOpener then 1 else if kind.isCloser then -1 else 0

/-- The **balance** of the brackets: how many more are opened than closed. -/
def bracketBalance : List Token → Int
  | [] => 0
  | t :: rest => bracketChange t.kind + bracketBalance rest

@[simp] theorem bracketBalance_nil : bracketBalance [] = 0 := rfl

@[simp] theorem bracketBalance_cons (t : Token) (rest : List Token) :
    bracketBalance (t :: rest) = bracketChange t.kind + bracketBalance rest := rfl

/-- Whether more text can mend what could not be cut into tokens. -/
def canBeFinished : LexCause → Bool
  | .openTemplate | .openComment => true
  | .invalidToken | .openRegexp => false

/-- Whether an entry is **unfinished**. -/
def isUnfinished (text : Text) : Bool :=
  match tokenize text 1 with
  | .ok tokens => 0 < bracketBalance tokens
  | .error e => canBeFinished e.cause

/-- What the enter key does. -/
inductive EnterAction where
  /-- It hands the entry in. -/
  | submit
  /-- It starts another line of the entry. -/
  | newLine
  deriving DecidableEq, Repr

/-- What the **enter key** does at the end of a text. Commands, which start with a
slash, have one line. -/
def onEnter (text : Text) : EnterAction :=
  if List.isPrefixOf ("/" : Text) text || !isUnfinished text then .submit else .newLine

/-- The code points that cannot be seen: zero-width ones, the byte order mark, the
space that does not break and the carriage return. -/
def isInvisible (c : CodePoint) : Bool :=
  c == 0x200B || c == 0x200C || c == 0x200D || c == 0xFEFF || c == 0xA0 || c == '\r'

/-- An entry **without the code points that cannot be seen**. -/
def clean (text : Text) : Text :=
  text.filter fun c => !isInvisible c

end Scriptlet.Console
