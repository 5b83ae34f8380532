import Scriptlet.Text

/-!
# Tokens

The words and signs of a program. A token records its kind, its text, the place
where it starts and whether a line ends somewhere between it and the token
before; that last flag stands in for line ends, which are no tokens themselves.

Lines are counted from the line the text is said to start on, which need not be
the first, and columns from one.
-/

namespace Scriptlet

/-- What sort of word or sign a token is. -/
inductive TokenKind where
  | number | string | template | regexp | identifier
  | varWord | letWord | constWord | functionWord | returnWord | ifWord | elseWord | newWord
  | thisWord | typeofWord | voidWord | deleteWord | inWord | instanceofWord
  /-- A word that is set aside for statements the language does not have. -/
  | reserved
  | trueWord | falseWord | nullWord
  /-- An operator that is no assignment, arrow or step. -/
  | operator
  | assign | increment | decrement | arrow | spread
  | leftParen | rightParen | leftBracket | rightBracket | leftBrace | rightBrace
  | dot | comma | colon | semicolon | question
  /-- The end of the text. -/
  | endOfText
  deriving DecidableEq, Repr

namespace TokenKind

/-- The name under which a kind is known outside. -/
def name : TokenKind → Text
  | number => "NUMBER" | string => "STRING" | template => "TEMPLATE" | regexp => "REGEX"
  | identifier => "IDENT"
  | varWord => "VAR" | letWord => "LET" | constWord => "CONST" | functionWord => "FUNCTION"
  | returnWord => "RETURN" | ifWord => "IF" | elseWord => "ELSE" | newWord => "NEW"
  | thisWord => "THIS" | typeofWord => "TYPEOF" | voidWord => "VOID" | deleteWord => "DELETE"
  | inWord => "IN" | instanceofWord => "INSTANCEOF" | reserved => "RESERVED"
  | trueWord => "TRUE" | falseWord => "FALSE" | nullWord => "NULL"
  | operator => "OP" | assign => "ASSIGN" | increment => "INCR" | decrement => "DECR"
  | arrow => "ARROW" | spread => "SPREAD"
  | leftParen => "LPAR" | rightParen => "RPAR" | leftBracket => "LSQB" | rightBracket => "RSQB"
  | leftBrace => "LBRACE" | rightBrace => "RBRACE"
  | dot => "DOT" | comma => "COMMA" | colon => "COLON" | semicolon => "SEMI" | question => "QMARK"
  | endOfText => "EOF"

/-- Whether tokens of this kind are **spelled like identifiers**. All of these may
follow a dot and name a property. -/
def isWord : TokenKind → Bool
  | identifier | varWord | letWord | constWord | functionWord | returnWord | ifWord | elseWord
  | newWord | thisWord | typeofWord | voidWord | deleteWord | inWord | instanceofWord
  | reserved | trueWord | falseWord | nullWord => true
  | _ => false

/-- Whether a value may end with a token of this kind. A slash after such a token
divides; after any other it opens a regular expression. -/
def endsValue : TokenKind → Bool
  | number | string | template | regexp | identifier | thisWord | trueWord | falseWord | nullWord
  | rightParen | rightBracket | rightBrace | increment | decrement => true
  | _ => false

/-- Whether the token opens a bracket. -/
def isOpener : TokenKind → Bool
  | leftParen | leftBracket | leftBrace => true
  | _ => false

/-- Whether the token closes a bracket. -/
def isCloser : TokenKind → Bool
  | rightParen | rightBracket | rightBrace => true
  | _ => false

end TokenKind

/-- A **token** of a program. -/
structure Token where
  /-- What sort of token it is. -/
  kind : TokenKind
  /-- Its text: as it stands in the program, but for the backticks of a template,
  which are left out, and empty at the end of the text. -/
  text : Text
  /-- The line of its first code point. -/
  line : Int
  /-- The column of its first code point. -/
  column : Nat
  /-- Whether a line ends between this token and the one before. -/
  newlineBefore : Bool
  deriving DecidableEq, Repr

/-- The **source text** of a token, backticks included. -/
def Token.source (t : Token) : Text :=
  if t.kind = .template then backtick :: t.text ++ [backtick] else t.text

/-! ## The vocabulary -/

/-- A vocabulary, its entries spelled as strings. -/
def vocabulary (entries : List (String × TokenKind)) : List (Text × TokenKind) :=
  entries.map fun entry => (Text.ofString entry.1, entry.2)

/-- The words with a meaning of their own. -/
def keywords : List (Text × TokenKind) := vocabulary
  [("var", .varWord), ("let", .letWord), ("const", .constWord), ("function", .functionWord),
   ("return", .returnWord), ("if", .ifWord), ("else", .elseWord), ("new", .newWord),
   ("this", .thisWord), ("typeof", .typeofWord), ("void", .voidWord), ("delete", .deleteWord),
   ("in", .inWord), ("instanceof", .instanceofWord), ("true", .trueWord), ("false", .falseWord),
   ("null", .nullWord)]

/-- The words that are set aside. -/
def reservedWords : List Text := List.map Text.ofString
  ["while", "for", "do", "break", "continue", "switch", "case", "default", "throw", "try",
   "catch", "finally", "class", "extends", "super", "import", "export", "yield", "await",
   "with", "debugger"]

/-- The signs, longer ones before those they begin with. -/
def signs : List (Text × TokenKind) := vocabulary
  [(">>>=", .assign),
   ("...", .spread), ("===", .operator), ("!==", .operator), ("**=", .assign), ("<<=", .assign),
   (">>=", .assign), (">>>", .operator), ("&&=", .assign), ("||=", .assign), ("??=", .assign),
   ("=>", .arrow), ("==", .operator), ("!=", .operator), ("<=", .operator), (">=", .operator),
   ("&&", .operator), ("||", .operator), ("??", .operator), ("++", .increment), ("--", .decrement),
   ("+=", .assign), ("-=", .assign), ("*=", .assign), ("/=", .assign), ("%=", .assign),
   ("&=", .assign), ("|=", .assign), ("^=", .assign), ("**", .operator), ("<<", .operator),
   (">>", .operator),
   ("+", .operator), ("-", .operator), ("*", .operator), ("/", .operator), ("%", .operator),
   ("&", .operator), ("|", .operator), ("^", .operator), ("!", .operator), ("~", .operator),
   ("<", .operator), (">", .operator), ("=", .assign), ("(", .leftParen), (")", .rightParen),
   ("[", .leftBracket), ("]", .rightBracket), ("\x7b", .leftBrace), ("\x7d", .rightBrace), (".", .dot),
   (",", .comma), (":", .colon), (";", .semicolon), ("?", .question)]

/-- The kind of a word: a keyword, a reserved word or an identifier. -/
def kindOfWord (word : Text) : TokenKind :=
  match keywords.lookup word with
  | some kind => kind
  | none => if reservedWords.contains word then .reserved else .identifier

end Scriptlet
