import Scriptlet.Tree

/-!
# Reading tokens

The state of a reader is the tokens that are left, the first of which is the
current one. The last token is the end of the text, and a reader never moves past
it. Every rule of the grammar is a `Reader`; this module holds what the rules
share: looking at the current token, consuming it, lists with separators, and the
making of nodes, which take their position from a token.

Rules refer to each other in circles. A rule therefore receives the rules it
refers to as an argument, a `Rules`, and the circle is closed in one place
(`readRule`), by recursion on a depth.
-/

namespace Scriptlet

/-- A **reader**: it takes tokens from the front, or fails. -/
abbrev Reader (α : Type) := StateT (List Token) (Except SyntaxError) α

/-- The rules of the grammar that other rules refer to. -/
inductive Rule where
  /-- A statement. -/
  | statement
  /-- An expression, of the widest sort. -/
  | expression
  /-- Binary operators of at least the given precedence. -/
  | binary (least : Nat)
  /-- An operand with its prefix operators. -/
  | unary
  /-- A construction, after its first word. -/
  | construct
  /-- An expression that is a whole text of its own, starting on the given line. -/
  | fragment (source : Text) (line : Int)
  deriving DecidableEq, Repr

/-- A reader for every rule. -/
abbrev Rules := Rule → Reader Node

/-- The token for the end of an empty list of tokens. -/
def Token.missing : Token := ⟨.endOfText, [], 1, 1, false⟩

namespace Reader

/-- The current token. -/
def current : Reader Token := do
  return (← get).headD Token.missing

/-- The token `n` places ahead, or the last one. -/
def peek (n : Nat) : Reader Token := do
  let tokens ← get
  return (tokens[n]?).getD (tokens.getLastD Token.missing)

/-- Consumes the current token, unless it is the last. -/
def advance : Reader Token := do
  let tokens ← get
  match tokens with
  | t :: u :: rest => set (u :: rest); return t
  | _ => current

/-- Whether the current token is of the given kind. -/
def check (kind : TokenKind) : Reader Bool := do
  return (← current).kind == kind

/-- Consumes the current token if it is of the given kind. -/
def accept (kind : TokenKind) : Reader Bool := do
  if ← check kind then
    let _ ← advance
    return true
  else return false

/-- Fails with a cause at a token. -/
def fail (cause : ParseCause) (t : Token) : Reader α :=
  throw (.parse ⟨cause, ⟨t.line, t.column⟩⟩)

/-- Fails because the current token may not stand here. -/
def unexpected : Reader α := do
  let t ← current
  fail (.ofToken t) t

/-- Consumes a token of the given kind; any other is unexpected. -/
def expect (kind : TokenKind) : Reader Token := do
  if ← check kind then advance else unexpected

/-- Gives up because the depth is used up. -/
def tooDeep : Reader α :=
  throw .tooDeep

/-- The number of tokens left, which bounds every list. -/
def room : Reader Nat := do
  return (← get).length

/-- Items until `stop` says so, at most `n` of them. -/
def manyUntil (stop : Reader Bool) (item : Reader α) : Nat → Reader (List α)
  | 0 => tooDeep
  | n + 1 => do
    if ← stop then return []
    let x ← item
    return x :: (← manyUntil stop item n)

/-- Items with commas between them, up to a closing token, which is left; a comma
may also stand before the closing token. At most `n` items. -/
def commaList (close : TokenKind) (item : Reader α) : Nat → Reader (List α)
  | 0 => tooDeep
  | n + 1 => do
    if ← check close then return []
    let x ← item
    if ← accept .comma then return x :: (← commaList close item n) else return [x]

/-- Reads the comma after an item, which may be missing before a closing token. -/
def separator (close : TokenKind) : Reader Unit := do
  if ← check close then return ()
  else
    let _ ← expect .comma

/-- At least one item, with commas between them; at most `n` items. -/
def commaSeparated (item : Reader α) : Nat → Reader (List α)
  | 0 => tooDeep
  | n + 1 => do
    let x ← item
    if ← accept .comma then return x :: (← commaSeparated item n) else return [x]

end Reader

/-- The position of a token. -/
def Token.position (t : Token) : Position := ⟨t.line, some t.column⟩

/-- A branch that starts at a token. -/
def Node.make (kind : Kind) (children : List Node) (start : Token) : Node :=
  .branch kind (some start.position) children

/-- A leaf with the text of a token. -/
def Node.ofToken (label : Label) (t : Token) : Node :=
  .leaf label t.text t.position

/-- Whether a node may stand to the left of an assignment: a name or a member. -/
def Node.isTarget (n : Node) : Bool :=
  n.kind? == some .identifier || n.kind? == some .member

end Scriptlet
