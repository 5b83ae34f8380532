import Scriptlet.Token.Lexer

/-!
# Highlighting

While an entry is typed, its words and signs are shown in colours. A line is cut
into *fragments*, each of one style, that joined together are the line again: a
fragment for every token, and one without a style for whatever lies between two of
them. Lines are highlighted one by one, so what spans several lines is not
recognised, and a line that cannot be cut into tokens is one plain fragment.

Tokens are found again in the line by their columns. Within a line these only
start anew after one of the two Unicode separators, and a token whose columns lie
before what has been shown already gets no fragment of its own.
-/

namespace Scriptlet.Console

/-- The **style** of a fragment. -/
inductive Style where
  | plain | keyword | boolean | constant | number | string | regexp | function | reserved
  deriving DecidableEq, Repr

/-- The colours of a style, as terminals know them. -/
def Style.colours : Style → Text
  | plain => ""
  | keyword => "bold ansicyan"
  | boolean => "ansicyan"
  | constant => "ansicyan"
  | number => "ansimagenta"
  | string => "ansigreen"
  | regexp => "ansiyellow"
  | function => "bold ansiyellow"
  | reserved => "bold ansired"

/-- The style of a token, given the one after it: an identifier before a
parenthesis names a function. -/
def styleOf (kind : TokenKind) (next : Option TokenKind) : Style :=
  match kind with
  | .trueWord | .falseWord => .boolean
  | .nullWord => .constant
  | .number => .number
  | .string | .template => .string
  | .regexp => .regexp
  | .reserved => .reserved
  | .identifier => if next = some .leftParen then .function else .plain
  | kind => if kind.isWord then .keyword else .plain

/-- A **fragment** of a line. -/
structure Fragment where
  /-- Its style. -/
  style : Style
  /-- Its text. -/
  text : Text
  deriving DecidableEq, Repr

/-- The fragment between two offsets that belongs to no token, unless it is empty. -/
def gap (line : Text) (start stop : Nat) : List Fragment :=
  if start < stop then [⟨.plain, line.slice start stop⟩] else []

/-- The fragments of a line from an offset on, where these tokens lie. -/
def fragmentsFrom (line : Text) (offset : Nat) : List Token → List Fragment
  | [] => gap line offset line.length
  | t :: rest =>
    let start := t.column - 1
    let stop := start + t.source.length
    if t.kind = .endOfText then gap line offset line.length
    else if start < offset || stop ≤ start then fragmentsFrom line offset rest
    else
      gap line offset start
        ++ ⟨styleOf t.kind (rest.head?.map Token.kind), line.slice start stop⟩
        :: fragmentsFrom line stop rest

/-- The **fragments of a line**. An empty line has one, which is empty too. -/
def highlight (line : Text) : List Fragment :=
  if line.isEmpty then [⟨.plain, []⟩]
  else
    match tokenize line 1 with
    | .ok tokens => fragmentsFrom line 0 tokens
    | .error _ => [⟨.plain, line⟩]

/-- The fragments of the line with a given number, from zero, of a text. Past the
last line they are those of an empty line. -/
def highlightLine (text : Text) (number : Nat) : List Fragment :=
  highlight ((Text.splitOn text "\n").getD number [])

/-- The number of lines of a text. -/
def lineCount (text : Text) : Nat :=
  (Text.splitOn text "\n").length

end Scriptlet.Console
