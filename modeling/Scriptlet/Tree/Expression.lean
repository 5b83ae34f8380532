import Scriptlet.Token.Lexer
import Scriptlet.Tree.Reader

/-!
# The grammar of expressions

From loosest to tightest: assignments and arrows, the conditional, binary
operators by precedence, prefix operators, postfix steps, members and calls, and
primary expressions. Each rule is a reader that takes the rules it refers to as
its first argument.
-/

namespace Scriptlet

open Reader

/-- The precedence of the binary operators; higher binds tighter. -/
def precedences : List (Text × Nat) := List.map (fun (op, n) => (Text.ofString op, n))
  [("??", 1), ("||", 2), ("&&", 3), ("|", 4), ("^", 5), ("&", 6),
   ("==", 7), ("!=", 7), ("===", 7), ("!==", 7),
   ("<", 8), (">", 8), ("<=", 8), (">=", 8), ("in", 8), ("instanceof", 8),
   ("<<", 9), (">>", 9), (">>>", 9), ("+", 10), ("-", 10),
   ("*", 11), ("/", 11), ("%", 11), ("**", 12)]

/-- The operators that look at their right operand only when they need it. -/
def logicalOperators : List Text := ["&&", "||", "??"]

/-- The operators of equal precedence that group from the right. -/
def rightOperators : List Text := ["**"]

/-- The signs that may stand before an operand. -/
def prefixSigns : List Text := ["!", "~", "+", "-"]

/-! ## Templates -/

/-- The number of line feeds in the first `n` code points. -/
def lineFeedsIn (t : Text) (n : Nat) : Nat :=
  (t.take n).count ('\n' : CodePoint)

/-- Reads the expressions of a template and sets them between its chunks. An
expression starts on the line on which it stands. -/
def readTemplateParts (rules : Rules) (t : Token) : List Text → List (Text × Nat) → Reader (List Node)
  | [], _ => return []
  | chunk :: chunks, expressions => do
    let node := Node.make .templateChunk [.leaf .chunk chunk t.position] t
    match expressions with
    | [] => return node :: (← readTemplateParts rules t chunks [])
    | (source, offset) :: expressions =>
      let expression ← rules (.fragment source (t.line + lineFeedsIn t.text offset))
      return node :: expression :: (← readTemplateParts rules t chunks expressions)

/-- Reads the **template** of a template token. -/
def readTemplate (rules : Rules) (t : Token) : Reader Node :=
  match splitTemplate t.text with
  | .error e => throw (.lex e)
  | .ok parts => do
    return Node.make .template (← readTemplateParts rules t parts.chunks parts.expressions) t

/-! ## Functions -/

/-- Reads the parameters of a function, in parentheses. -/
def readParams : Reader Node := do
  let start ← expect .leftParen
  let names ← commaList .rightParen (Node.ofToken .identifier <$> expect .identifier) (← room)
  let _ ← expect .rightParen
  return Node.make .params names start

/-- Reads a block: statements in braces. -/
def readBlock (rules : Rules) : Reader Node := do
  let start ← expect .leftBrace
  let stop : Reader Bool := do
    if ← check .endOfText then unexpected else check .rightBrace
  let statements ← manyUntil stop (rules .statement) (← room)
  let _ ← expect .rightBrace
  return Node.make .block statements start

/-- Reads a name, which may be missing. -/
def readName? : Reader (Option Token) := do
  if ← check .identifier then some <$> advance else return none

/-- Reads a function expression, with or without a name. -/
def readFunction (rules : Rules) : Reader Node := do
  let start ← advance
  let name ← readName?
  let params ← readParams
  let body ← readBlock rules
  return Node.make .function ([params, body] ++ (name.map (Node.ofToken .identifier)).toList) start

/-- Whether, from an opening parenthesis on, the matching bracket comes before an
arrow on the same line. `depth` is the number of brackets open. -/
def arrowAhead (depth : Nat) : List Token → Bool
  | [] => false
  | t :: rest =>
    if t.kind == .endOfText then false
    else if t.kind.isOpener then arrowAhead (depth + 1) rest
    else if t.kind.isCloser then
      if depth ≤ 1 then rest.head?.any fun next => next.kind == .arrow && !next.newlineBefore
      else arrowAhead (depth - 1) rest
    else arrowAhead depth rest

/-- Reads the parameters of an arrow: one bare name or a list in parentheses. -/
def readArrowParams : Reader Node := do
  if ← check .identifier then
    let name ← advance
    return Node.make .params [Node.ofToken .identifier name] name
  else readParams

/-- Reads the body of an arrow: a block or an expression. -/
def readArrowBody (rules : Rules) : Reader Node := do
  if ← check .leftBrace then readBlock rules else rules .expression

/-- Reads an arrow: its parameters, the sign and its body. -/
def readArrow (rules : Rules) : Reader Node := do
  let start ← current
  let params ← readArrowParams
  let _ ← expect .arrow
  let body ← readArrowBody rules
  return Node.make .arrow [params, body] start

/-! ## Arguments, members and primary expressions -/

/-- Reads an expression, or `...` and an expression. -/
def readSpreadOrExpression (rules : Rules) : Reader Node := do
  if ← check .spread then
    let start ← advance
    return Node.make .spread [← rules .expression] start
  else rules .expression

/-- Reads the arguments of a call, in parentheses. -/
def readArguments (rules : Rules) : Reader Node := do
  let start ← expect .leftParen
  let arguments ← commaList .rightParen (readSpreadOrExpression rules) (← room)
  let _ ← expect .rightParen
  return Node.make .arguments arguments start

/-- Reads the name of a member after its dot; every word will do. -/
def readNamedMember (object : Node) (start : Token) : Reader Node := do
  let _ ← expect .dot
  if (← current).kind.isWord then
    let name ← advance
    return Node.make .member [object, Node.ofToken .identifier name] start
  else unexpected

/-- Reads the key of a member in brackets. -/
def readComputedMember (rules : Rules) (object : Node) (start : Token) : Reader Node := do
  let _ ← expect .leftBracket
  let key ← rules .expression
  let _ ← expect .rightBracket
  return Node.make .member [object, key] start

/-- Reads the elements of an array up to the closing bracket, which is left. A
comma without an element before it is a hole. At most `n` elements. -/
def readElements (rules : Rules) : Nat → Reader (List Node)
  | 0 => tooDeep
  | n + 1 => do
    if ← check .rightBracket then return []
    if ← check .comma then
      let start ← advance
      return Node.make .hole [] start :: (← readElements rules n)
    let element ← readSpreadOrExpression rules
    separator .rightBracket
    return element :: (← readElements rules n)

/-- Reads an array. -/
def readArray (rules : Rules) : Reader Node := do
  let start ← expect .leftBracket
  let elements ← readElements rules (← room)
  let _ ← expect .rightBracket
  return Node.make .array elements start

/-- Reads the key of a property: in brackets, a string, a number or a word. -/
def readKey (rules : Rules) : Reader Node := do
  let start ← current
  if ← accept .leftBracket then
    let key := Node.make .computedKey [← rules .expression] start
    let _ ← expect .rightBracket
    return key
  else if start.kind == .string then return Node.ofToken .string (← advance)
  else if start.kind == .number then return Node.ofToken .number (← advance)
  else if start.kind.isWord then return Node.ofToken .identifier (← advance)
  else unexpected

/-- Reads a property: a key with a value, a method, or a name that stands for
itself. -/
def readProperty (rules : Rules) : Reader Node := do
  let start ← current
  let key ← readKey rules
  if ← accept .colon then return Node.make .property [key, ← rules .expression] start
  else if ← check .leftParen then
    let params ← readParams
    let body ← readBlock rules
    return Node.make .property [key, Node.make .function [params, body] start] start
  else if start.kind == .identifier && ((← check .comma) || (← check .rightBrace)) then
    let value := Node.make .identifier [Node.ofToken .identifier start] start
    return Node.make .property [key, value] start
  else unexpected

/-- Reads the properties of an object up to the closing brace, which is left. At
most `n` properties. -/
def readProperties (rules : Rules) : Nat → Reader (List Node)
  | 0 => tooDeep
  | n + 1 => do
    if ← check .rightBrace then return []
    let property ← readProperty rules
    separator .rightBrace
    return property :: (← readProperties rules n)

/-- Reads an object. -/
def readObject (rules : Rules) : Reader Node := do
  let start ← expect .leftBrace
  let properties ← readProperties rules (← room)
  let _ ← expect .rightBrace
  return Node.make .object properties start

/-- The label of a token that is a literal by itself. -/
def literalLabel? : TokenKind → Option Label
  | .number => some .number
  | .string => some .string
  | .regexp => some .regexp
  | .trueWord => some .trueWord
  | .falseWord => some .falseWord
  | .nullWord => some .nullWord
  | _ => none

/-- Reads a **primary expression**. -/
def readPrimary (rules : Rules) : Reader Node := do
  let start ← current
  match literalLabel? start.kind with
  | some label =>
    let t ← advance
    return Node.make .literal [Node.ofToken label t] start
  | none =>
    match start.kind with
    | .template => readTemplate rules (← advance)
    | .identifier =>
      let t ← advance
      return Node.make .identifier [Node.ofToken .identifier t] start
    | .thisWord =>
      let _ ← advance
      return Node.make .this [] start
    | .leftParen =>
      let _ ← advance
      let expression ← rules .expression
      let _ ← expect .rightParen
      return expression
    | .leftBracket => readArray rules
    | .leftBrace => readObject rules
    | .functionWord => readFunction rules
    | _ => unexpected

/-- Reads the members that follow the callee of a construction; at most `n`. -/
def readMembers (rules : Rules) (start : Token) : Nat → Node → Reader Node
  | 0, _ => tooDeep
  | n + 1, object => do
    if ← check .dot then readMembers rules start n (← readNamedMember object start)
    else if ← check .leftBracket then
      readMembers rules start n (← readComputedMember rules object start)
    else return object

/-- Reads a construction, by the given reader, or a primary expression. -/
def readHead (rules : Rules) (construct : Reader Node) : Reader Node := do
  if ← check .newWord then construct else readPrimary rules

/-- Reads the callee of a construction, which has no calls in it. -/
def readConstructed (rules : Rules) : Reader Node := do
  let start ← current
  let first ← readHead rules (rules .construct)
  readMembers rules start (← room) first

/-- Reads the arguments of a construction, which may be missing. -/
def readConstructArguments (rules : Rules) (start : Token) : Reader Node := do
  if ← check .leftParen then readArguments rules else return Node.make .arguments [] start

/-- Reads a **construction**: its first word, the callee and the arguments. -/
def readConstruct (rules : Rules) : Reader Node := do
  let start ← advance
  let callee ← readConstructed rules
  let arguments ← readConstructArguments rules start
  return Node.make .construct [callee, arguments] start

/-- Reads the members, calls and templates that follow an expression; at most `n`. -/
def readCalls (rules : Rules) (start : Token) : Nat → Node → Reader Node
  | 0, _ => tooDeep
  | n + 1, callee => do
    if ← check .dot then readCalls rules start n (← readNamedMember callee start)
    else if ← check .leftBracket then
      readCalls rules start n (← readComputedMember rules callee start)
    else if ← check .leftParen then
      let arguments ← readArguments rules
      readCalls rules start n (Node.make .call [callee, arguments] start)
    else if ← check .template then
      let template ← readTemplate rules (← advance)
      readCalls rules start n (Node.make .taggedTemplate [callee, template] start)
    else return callee

/-- Reads a primary expression or a construction with all that follows it. -/
def readCallMember (rules : Rules) : Reader Node := do
  let start ← current
  let first ← readHead rules (readConstruct rules)
  readCalls rules start (← room) first

/-! ## Operators -/

/-- Whether the current token is a step, `++` or `--`. -/
def checkStep : Reader Bool := do
  let t ← current
  return t.kind == .increment || t.kind == .decrement

/-- Reads an operand and a step after it, which must stand on the same line. -/
def readPostfix (rules : Rules) : Reader Node := do
  let start ← current
  let target ← readCallMember rules
  if (← checkStep) && !(← current).newlineBefore then
    if target.isTarget then
      let op ← advance
      return Node.make .update [Node.ofToken .operator op, target] start
    else fail .badPostfix start
  else return target

/-- Whether a token is an operator that stands before its operand. -/
def isPrefixOperator (t : Token) : Bool :=
  match t.kind with
  | .operator => prefixSigns.contains t.text
  | .typeofWord | .voidWord | .deleteWord => true
  | _ => false

/-- Reads an operand with its **prefix operators**. -/
def readUnary (rules : Rules) : Reader Node := do
  let start ← current
  if isPrefixOperator start then
    let _ ← advance
    let operand ← rules .unary
    return Node.make .unary [Node.ofToken .operator start, operand] start
  else if ← checkStep then
    let _ ← advance
    let target ← rules .unary
    if target.isTarget then
      return Node.make .update [Node.ofToken .operator start, target] start
    else fail .badPrefix start
  else readPostfix rules

/-- The precedence of a token as a binary operator, if it is one. -/
def precedence? (t : Token) : Option Nat :=
  match t.kind with
  | .operator | .inWord | .instanceofWord => precedences.lookup t.text
  | _ => none

/-- Reads operators of at least the given precedence and their right operands;
at most `n`. -/
def readOperators (rules : Rules) (least : Nat) (start : Token) : Nat → Node → Reader Node
  | 0, _ => tooDeep
  | n + 1, left => do
    match precedence? (← current) with
    | none => return left
    | some precedence =>
      if precedence < least then return left
      else
        let op ← advance
        let right ← rules (.binary (if rightOperators.contains op.text then precedence else precedence + 1))
        let kind := if logicalOperators.contains op.text then .logical else .binary
        readOperators rules least start n (Node.make kind [left, Node.ofToken .operator op, right] start)

/-- Reads **binary operators** of at least the given precedence, with their
operands. -/
def readBinary (rules : Rules) (least : Nat) : Reader Node := do
  let start ← current
  let left ← readUnary rules
  readOperators rules least start (← room) left

/-- Reads a test and, after a question mark, its two outcomes. -/
def readConditional (rules : Rules) : Reader Node := do
  let start ← current
  let test ← readBinary rules 1
  if ← accept .question then
    let consequent ← rules .expression
    let _ ← expect .colon
    let alternate ← rules .expression
    return Node.make .conditional [test, consequent, alternate] start
  else return test

/-- Whether an arrow starts here. -/
def checkArrow : Reader Bool := do
  match (← current).kind with
  | .identifier => return (← peek 1).kind == .arrow
  | .leftParen => return arrowAhead 0 (← get)
  | _ => return false

/-- Reads an **expression**: an arrow, an assignment or a conditional. -/
def readExpression (rules : Rules) : Reader Node := do
  if ← checkArrow then readArrow rules
  else
    let start ← current
    let left ← readConditional rules
    if ← check .assign then
      if left.isTarget then
        let op ← advance
        let value ← rules .expression
        return Node.make .assign [left, Node.ofToken .operator op, value] start
      else fail .badAssignment start
    else return left

end Scriptlet
