import Scriptlet.Tree.Expression

/-!
# The grammar of statements, and whole programs

Statements end with a semicolon, but one is taken as written before a closing
brace, at the end of the text and wherever a line ends. This module reads
statements, closes the circle of the rules and reads whole programs.

Every reference of one rule to another comes after a token has been consumed, and
the text of an expression in a template is shorter than the template. The source
length of the tokens therefore bounds the depth, and `readRule` is given no more
than that.
-/

namespace Scriptlet

open Reader

/-! ## Statements -/

/-- Reads the end of a statement. -/
def readStatementEnd : Reader Unit := do
  if ← accept .semicolon then return ()
  let t ← current
  if t.kind == .rightBrace || t.kind == .endOfText || t.newlineBefore then return ()
  unexpected

/-- Reads a name and, after an equals sign, its first value. -/
def readDeclarator (rules : Rules) : Reader Node := do
  let name ← expect .identifier
  let t ← current
  if t.kind == .assign && t.text == "=" then
    let _ ← advance
    return Node.make .declarator [Node.ofToken .identifier name, ← rules .expression] name
  else return Node.make .declarator [Node.ofToken .identifier name] name

/-- Reads a declaration of variables. -/
def readDeclaration (rules : Rules) : Reader Node := do
  let word ← advance
  let declarators ← commaSeparated (readDeclarator rules) (← room)
  readStatementEnd
  return Node.make .declaration (Node.ofToken .declarationWord word :: declarators) word

/-- Reads a declaration of a function. -/
def readFunctionDeclaration (rules : Rules) : Reader Node := do
  let start ← advance
  let name ← expect .identifier
  let params ← readParams
  let body ← readBlock rules
  return Node.make .functionDeclaration [Node.ofToken .identifier name, params, body] start

/-- Reads a conditional statement; an alternate belongs to the nearest one. -/
def readConditionalStatement (rules : Rules) : Reader Node := do
  let start ← advance
  let _ ← expect .leftParen
  let test ← rules .expression
  let _ ← expect .rightParen
  let consequent ← rules .statement
  if ← accept .elseWord then
    let alternate ← rules .statement
    return Node.make .conditionalStatement [test, consequent, alternate] start
  else return Node.make .conditionalStatement [test, consequent] start

/-- Reads a return statement; its value must start on the same line. -/
def readReturn (rules : Rules) : Reader Node := do
  let start ← advance
  let t ← current
  if t.kind == .semicolon || t.kind == .rightBrace || t.kind == .endOfText || t.newlineBefore then
    readStatementEnd
    return Node.make .returnStatement [] start
  else
    let value ← rules .expression
    readStatementEnd
    return Node.make .returnStatement [value] start

/-- Reads a **statement**. -/
def readStatement (rules : Rules) : Reader Node := do
  let start ← current
  match start.kind with
  | .leftBrace => readBlock rules
  | .semicolon =>
    let _ ← advance
    return Node.make .empty [] start
  | .varWord | .letWord | .constWord => readDeclaration rules
  | .functionWord => readFunctionDeclaration rules
  | .ifWord => readConditionalStatement rules
  | .returnWord => readReturn rules
  | _ =>
    let expression ← readExpression rules
    readStatementEnd
    return Node.make .expressionStatement [expression] start

/-! ## The circle of rules -/

/-- Reads an expression that is a whole list of tokens. -/
def readWhole (expression : Reader Node) : Reader Node := do
  let node ← expression
  if ← check .endOfText then return node else unexpected

/-- Reads a text of its own, leaving the tokens at hand alone. -/
def readFragment (rules : Rules) (source : Text) (line : Int) : Reader Node :=
  match tokenize source line with
  | .error e => throw (.lex e)
  | .ok tokens =>
    match (readWhole (readExpression rules)).run tokens with
    | .error e => throw e
    | .ok (node, _) => return node

/-- Reads by a **rule**, to the given depth. -/
def readRule : Nat → Rules
  | 0, _ => tooDeep
  | depth + 1, .statement => readStatement (readRule depth)
  | depth + 1, .expression => readExpression (readRule depth)
  | depth + 1, .binary least => readBinary (readRule depth) least
  | depth + 1, .unary => readUnary (readRule depth)
  | depth + 1, .construct => readConstruct (readRule depth)
  | depth + 1, .fragment source line => readFragment (readRule depth) source line

/-- Reads a program: statements to the end of the text. -/
def readProgram (rules : Rules) : Reader Node := do
  let start ← current
  let statements ← manyUntil (check .endOfText) (rules .statement) (← room)
  return Node.make .program statements start

/-! ## Whole programs -/

/-- The length of the source of a token, and one for the end of the text. -/
def Token.extent (t : Token) : Nat :=
  max 1 t.source.length

/-- A depth that suffices to read the given tokens: one more than their extents
together. -/
def depthFor : List Token → Nat
  | [] => 1
  | t :: rest => t.extent + depthFor rest

/-- The **program that a list of tokens forms**. -/
def parseTokens (tokens : List Token) : Except SyntaxError Node :=
  ((readProgram (readRule (depthFor tokens))).run tokens).map Prod.fst

/-- The **program in a text**. -/
def parseProgram (source : Text) : Except SyntaxError Node :=
  match tokenize source 1 with
  | .error e => .error (.lex e)
  | .ok tokens => parseTokens tokens

/-- The **expression in a text** that starts on the given line. -/
def parseExpression (source : Text) (line : Int) : Except SyntaxError Node :=
  ((readFragment (readRule (source.length + 1)) source line).run []).map Prod.fst

end Scriptlet
