import Scriptlet.Token.Error
import Scriptlet.Token.Escape

/-!
# Where strings and templates end, and the parts of a template

A template may hold expressions between `${` and `}`, an expression may hold
strings, braces and further templates, and so on down. One pass over the text
finds the end of all of them: it keeps what is open on a stack, innermost first,
and stops when the stack is empty. Inside an expression the pass looks at
quotes, backticks and braces only; it knows neither comments nor regular
expressions.

The functions that measure answer how many code points belong to what is open, the
closing one included, or that the text ends first.

The body of a template is then text interrupted by expressions. Splitting it gives
one more chunk of text than expressions: the chunks with their escapes replaced,
and each expression as it is written, with its offset in the body.
-/

namespace Scriptlet

/-- The code points that **end a line**. -/
def isLineEnd (c : CodePoint) : Bool :=
  c == '\n' || c == '\r' || c == 0x2028 || c == 0x2029

/-- Something that has been opened and not yet closed. -/
inductive Enclosure where
  /-- A string, with its quote. -/
  | string (quote : CodePoint)
  /-- A template. -/
  | template
  /-- The braces of an expression, with as many open pairs inside. -/
  | braces (depth : Nat)
  deriving DecidableEq, Repr

namespace Enclosure

/-- The number of code points until everything open is closed. A backslash hides
the code point after it in strings and templates; a string may not go past a
line feed. -/
def measure : List Enclosure → Nat → Text → Option Nat
  | [], n, _ => some n
  | _ :: _, _, [] => none
  | .string quote :: outer, n, c :: rest =>
    if c == '\\' then
      match rest with
      | [] => none
      | _ :: rest => measure (.string quote :: outer) (n + 2) rest
    else if c == quote then measure outer (n + 1) rest
    else if c == '\n' then none
    else measure (.string quote :: outer) (n + 1) rest
  | .template :: outer, n, c :: rest =>
    if c == '\\' then
      match rest with
      | [] => none
      | _ :: rest => measure (.template :: outer) (n + 2) rest
    else if c == backtick then measure outer (n + 1) rest
    else if c == '$' then
      match rest with
      | [] => none
      | d :: rest =>
        if d == openBrace then measure (.braces 0 :: .template :: outer) (n + 2) rest
        else measure (.template :: outer) (n + 1) (d :: rest)
    else measure (.template :: outer) (n + 1) rest
  | .braces depth :: outer, n, c :: rest =>
    if c == doubleQuote || c == singleQuote then measure (.string c :: .braces depth :: outer) (n + 1) rest
    else if c == backtick then measure (.template :: .braces depth :: outer) (n + 1) rest
    else if c == openBrace then measure (.braces (depth + 1) :: outer) (n + 1) rest
    else if c == closeBrace then
      match depth with
      | 0 => measure outer (n + 1) rest
      | depth + 1 => measure (.braces depth :: outer) (n + 1) rest
    else measure (.braces depth :: outer) (n + 1) rest

end Enclosure

/-- The length of what follows an opening quote, up to and with the closing one. -/
def stringLength? (quote : CodePoint) (t : Text) : Option Nat :=
  Enclosure.measure [.string quote] 0 t

/-- The length of what follows an opening backtick, up to and with the closing one. -/
def templateLength? (t : Text) : Option Nat :=
  Enclosure.measure [.template] 0 t

/-- The length of what follows `${`, up to and with the closing brace. -/
def bracesLength? (t : Text) : Option Nat :=
  Enclosure.measure [.braces 0] 0 t

/-! ## The parts of a template -/

/-- The **parts of a template**. -/
structure TemplateParts where
  /-- The chunks of text, one more than there are expressions. -/
  chunks : List Text
  /-- The source of each expression and its offset in the body. -/
  expressions : List (Text × Nat)
  deriving DecidableEq, Repr

/-- Splits the rest of a body from the given offset on. `chunk` holds the open
chunk backwards, and `hidden` counts the code points of an expression still to be
passed over. -/
def splitTemplateFrom (offset : Nat) (chunk : Text) (hidden : Nat) :
    Text → Except LexError TemplateParts
  | [] => .ok ⟨[unescape chunk.reverse], []⟩
  | c :: rest =>
    match hidden with
    | hidden + 1 => splitTemplateFrom (offset + 1) chunk hidden rest
    | 0 =>
      if c == '\\' then
        match rest with
        | [] => .ok ⟨[unescape (c :: chunk).reverse], []⟩
        | d :: rest => splitTemplateFrom (offset + 2) (d :: c :: chunk) 0 rest
      else if c == '$' && rest.head? == some openBrace then
        match bracesLength? (rest.drop 1) with
        | none => .error ⟨.openTemplate, none⟩
        | some n =>
          match splitTemplateFrom (offset + 1) [] (n + 1) rest with
          | .error e => .error e
          | .ok parts =>
            .ok ⟨unescape chunk.reverse :: parts.chunks,
              ((rest.drop 1).take (n - 1), offset + 2) :: parts.expressions⟩
      else splitTemplateFrom (offset + 1) (c :: chunk) 0 rest

/-- **Splits the body** of a template. -/
def splitTemplate (body : Text) : Except LexError TemplateParts :=
  splitTemplateFrom 0 [] 0 body

end Scriptlet
