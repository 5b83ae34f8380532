import Scriptlet.Token

/-!
# Errors of spelling and of grammar

A text may fail to be a program because some of it is no token, or because its
tokens do not follow the grammar. Either way the error says why and where, and
its message starts with the line.
-/

namespace Scriptlet

/-- Why a text cannot be cut into tokens. -/
inductive LexCause where
  | invalidToken | openTemplate | openRegexp | openComment
  deriving DecidableEq, Repr

/-- The wording of a cause. -/
def LexCause.message : LexCause → Text
  | invalidToken => "Invalid or unexpected token"
  | openTemplate => "Unterminated template literal"
  | openRegexp => "Invalid regular expression: missing /"
  | openComment => "Unterminated comment"

/-- A place in a text: a line and a column. -/
structure Place where
  /-- The line. -/
  line : Int
  /-- The column, from one. -/
  column : Nat
  deriving DecidableEq, Repr

/-- A text that **cannot be cut into tokens**. -/
structure LexError where
  /-- Why. -/
  cause : LexCause
  /-- Where the offending token or comment starts; unknown for a template that
  is split by itself. -/
  place : Option Place
  deriving DecidableEq, Repr

/-- Why tokens do not form a program. -/
inductive ParseCause where
  | unexpectedEnd | unexpectedNumber | unexpectedString | unexpectedTemplate | unexpectedIdentifier
  | unexpectedToken (text : Text)
  | badAssignment | badPrefix | badPostfix
  deriving DecidableEq, Repr

/-- The wording of a cause. -/
def ParseCause.message : ParseCause → Text
  | unexpectedEnd => "Unexpected end of input"
  | unexpectedNumber => "Unexpected number"
  | unexpectedString => "Unexpected string"
  | unexpectedTemplate => "Unexpected template string"
  | unexpectedIdentifier => "Unexpected identifier"
  | unexpectedToken text => "Unexpected token " ++ text
  | badAssignment => "Invalid left-hand side in assignment"
  | badPrefix => "Invalid left-hand side expression in prefix operation"
  | badPostfix => "Invalid left-hand side expression in postfix operation"

/-- The cause when a token is none of those that may stand in its place. -/
def ParseCause.ofToken (t : Token) : ParseCause :=
  match t.kind with
  | .endOfText => unexpectedEnd
  | .number => unexpectedNumber
  | .string => unexpectedString
  | .template => unexpectedTemplate
  | .identifier => unexpectedIdentifier
  | _ => unexpectedToken t.text

/-- Tokens that **do not form a program**. -/
structure ParseError where
  /-- Why. -/
  cause : ParseCause
  /-- Where the offending token starts. -/
  place : Place
  deriving DecidableEq, Repr

/-- An error of either sort. -/
inductive SyntaxError where
  | lex (error : LexError)
  | parse (error : ParseError)
  /-- The depth granted to the reader of the grammar is used up. -/
  | tooDeep
  deriving DecidableEq, Repr

namespace SyntaxError

/-- The place of an error, where it is known. -/
def place? : SyntaxError → Option Place
  | lex e => e.place
  | parse e => some e.place
  | tooDeep => none

/-- What is wrong, without the line. -/
def reason : SyntaxError → Text
  | lex e => e.cause.message
  | parse e => e.cause.message
  | tooDeep => "Program nested too deeply"

/-- The full **message**: the line, where it is known, and what is wrong. -/
def message (e : SyntaxError) : Text :=
  match e.place? with
  | some place => "Line " ++ Text.ofInt place.line ++ ": " ++ e.reason
  | none => e.reason

end SyntaxError

end Scriptlet
