import Scriptlet.Number.Numeral
import Scriptlet.Text.Alphabetic
import Scriptlet.Token.Enclosure
import Scriptlet.Token.Error

/-!
# Cutting a text into tokens

At each place of the text a *scanner* looks at what follows and measures it: so
many code points are blank, or so many make a token of this kind. The only thing
a scanner must know of what came before is whether a slash may open a regular
expression. `tokenize` walks the text once, counts lines and columns, and turns
the measures into tokens; nothing is copied or reread but for what the scanners
look ahead at.

A line ends with a line feed, a carriage return or one of the two Unicode
separators. A carriage return counts as a column of its line, all others start
the next.
-/

namespace Scriptlet

/-- The code points between tokens that end no line. -/
def isSpace (c : CodePoint) : Bool :=
  c == ' ' || c == '\t' || c == 0x0B || c == 0x0C || c == 0xA0 || c == 0xFEFF

/-- Whether a code point may start a name. -/
def startsName (c : CodePoint) : Bool :=
  Text.isLetter c || c == '_' || c == '$'

/-- Whether a code point may continue a name. -/
def continuesName (c : CodePoint) : Bool :=
  Text.isAlphanumeric c || c == '_' || c == '$'

/-- The number of leading code points that satisfy `p`. -/
def countWhile (p : CodePoint → Bool) (t : Text) : Nat :=
  (t.takeWhile p).length

/-- Whether the text starts with a code point that satisfies `p`. -/
def headIs (p : CodePoint → Bool) (t : Text) : Bool :=
  t.head?.any p

/-! ## Scanners -/

/-- The length of an exponent: `e`, an optional sign and at least one digit;
otherwise none. -/
def exponentLength (t : Text) : Nat :=
  if headIs (fun c => c == 'e' || c == 'E') t then
    let sign := if headIs (fun c => c == '+' || c == '-') (t.drop 1) then 1 else 0
    let digits := countWhile Text.isDigit (t.drop (1 + sign))
    if digits == 0 then 0 else 1 + sign + digits
  else 0

/-- The length of a decimal numeral: digits, a point and digits, an exponent. -/
def decimalLength (t : Text) : Nat :=
  let whole := countWhile Text.isDigit t
  let rest := t.drop whole
  let fraction := if headIs (· == '.') rest then 1 + countWhile Text.isDigit (rest.drop 1) else 0
  whole + fraction + exponentLength (rest.drop fraction)

/-- The length of a numeral in another base, if the digits fit the base. -/
def radixLength? (radix : Nat) (t : Text) : Option Nat :=
  let digits := (t.drop 2).takeWhile Text.isAlphanumeric
  (intOfRadix? radix digits).map fun _ => 2 + digits.length

/-- The length of a **numeral**; no name may follow it without a gap. -/
def numberLength? (t : Text) : Option Nat :=
  let length? :=
    match t with
    | z :: letter :: _ =>
      match (if z == '0' then radixOfLetter? letter else none) with
      | some radix => radixLength? radix t
      | none => some (decimalLength t)
    | _ => some (decimalLength t)
  length?.bind fun n => if headIs startsName (t.drop n) then none else some n

/-- The length of the body of a regular expression up to and with the closing
slash. A slash in a class does not close, a backslash hides whatever follows it,
and a line end that is not hidden leaves the expression open. -/
def regexpBodyLength? (inClass : Bool) (n : Nat) : Text → Option Nat
  | [] => none
  | c :: rest =>
    if isLineEnd c then none
    else if c == '\\' then
      match rest with
      | [] => none
      | _ :: rest => regexpBodyLength? inClass (n + 2) rest
    else if c == '[' then regexpBodyLength? true (n + 1) rest
    else if c == ']' then regexpBodyLength? false (n + 1) rest
    else if c == '/' && !inClass then some (n + 1)
    else regexpBodyLength? inClass (n + 1) rest

/-- The length of a **regular expression** with its flags. -/
def regexpLength? (t : Text) : Option Nat :=
  (regexpBodyLength? false 1 (t.drop 1)).map fun n => n + countWhile continuesName (t.drop n)

/-- What a scanner finds at the start of a text. -/
inductive Scan where
  /-- So many code points between tokens. -/
  | gap (length : Nat)
  /-- So many code points that make a token. -/
  | token (kind : TokenKind) (length : Nat)
  deriving DecidableEq, Repr

/-- The token of a measure, or the cause if there is none. -/
def tokenOr (cause : LexCause) (kind : TokenKind) (length? : Option Nat) : Except LexCause Scan :=
  match length? with
  | some n => .ok (.token kind n)
  | none => .error cause

/-- The first sign that the text starts with. -/
def scanSign (t : Text) : Except LexCause Scan :=
  match signs.find? fun sign => sign.1.isPrefixOf t with
  | some (sign, kind) => .ok (.token kind sign.length)
  | none => .error .invalidToken

/-- **Scans** the start of a text, which begins with `c`. -/
def scan (regexpAllowed : Bool) (c : CodePoint) (rest : Text) : Except LexCause Scan :=
  let t := c :: rest
  if isLineEnd c || isSpace c then .ok (.gap 1)
  else if c == '/' && headIs (· == '/') rest then
    .ok (.gap (countWhile (fun c => !isLineEnd c) t))
  else if c == '/' && headIs (· == '*') rest then
    match Text.find? (rest.drop 1) "*/" with
    | some n => .ok (.gap (n + 4))
    | none => .error .openComment
  else if c == doubleQuote || c == singleQuote then
    tokenOr .invalidToken .string ((stringLength? c rest).map (· + 1))
  else if c == backtick then
    tokenOr .openTemplate .template ((templateLength? rest).map (· + 1))
  else if Text.isDigit c || (c == '.' && headIs Text.isDigit rest) then
    tokenOr .invalidToken .number (numberLength? t)
  else if startsName c then
    let word := t.takeWhile continuesName
    .ok (.token (kindOfWord word) word.length)
  else if c == '/' && regexpAllowed then tokenOr .openRegexp .regexp (regexpLength? t)
  else scanSign t

/-! ## The walk over the text -/

/-- Where the walk stands. -/
structure LexState where
  /-- The line of the next code point. -/
  line : Int
  /-- The column of the next code point. -/
  column : Nat
  /-- Whether a line has ended since the last token. -/
  newline : Bool
  /-- The tokens so far, last first. -/
  tokens : List Token

namespace LexState

/-- Moves the place past one code point. -/
def advance (s : LexState) (c : CodePoint) : LexState :=
  if c == '\n' || c == 0x2028 || c == 0x2029 then { s with line := s.line + 1, column := 1 }
  else { s with column := s.column + 1 }

/-- The place of the next code point. -/
def place (s : LexState) : Place := ⟨s.line, s.column⟩

/-- Adds a token that starts at the place of the state. -/
def emit (s : LexState) (kind : TokenKind) (text : Text) : LexState :=
  { s with newline := false, tokens := ⟨kind, text, s.line, s.column, s.newline⟩ :: s.tokens }

/-- Notes whether a gap holds the end of a line. -/
def noteGap (s : LexState) (gap : Text) : LexState :=
  { s with newline := s.newline || gap.any isLineEnd }

/-- Whether a slash would open a regular expression here. -/
def regexpAllowed (s : LexState) : Bool :=
  !(s.tokens.head?.any fun t => t.kind.endsValue)

end LexState

/-- The text that a token keeps of its source: all of it, but for the backticks
of a template. -/
def keptText (kind : TokenKind) (source : Text) : Text :=
  if kind = .template then (source.drop 1).dropLast else source

/-- Walks over a text. `inside` counts the code points that belong to what has
been scanned last. -/
def lexFrom (s : LexState) : Nat → Text → Except LexError LexState
  | _, [] => .ok s
  | inside + 1, c :: rest => lexFrom (s.advance c) inside rest
  | 0, c :: rest =>
    match scan s.regexpAllowed c rest with
    | .error cause => .error ⟨cause, some s.place⟩
    | .ok (.gap n) => lexFrom ((s.noteGap ((c :: rest).take n)).advance c) (n - 1) rest
    | .ok (.token kind n) =>
      lexFrom ((s.emit kind (keptText kind ((c :: rest).take n))).advance c) (n - 1) rest

/-- The **tokens of a text** that starts on the given line, closed by the token
for the end of the text. -/
def tokenize (source : Text) (line : Int) : Except LexError (List Token) :=
  (lexFrom ⟨line, 1, false, []⟩ 0 source).map fun s => (s.emit .endOfText []).tokens.reverse

end Scriptlet
