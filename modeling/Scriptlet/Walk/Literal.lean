import Scriptlet.Token.Escape
import Scriptlet.Walk.Shape

/-!
# Literals and templates

A literal is a number, a text, a regular expression, a truth value or null, by the
label of its leaf. A template joins its chunks with the texts of its expressions; a
template with a tag hands the chunks and the values to a function instead.

A literal of a list or an object never fails. An element or a value that fails is
undefined, what cannot be spread is left out, and so is a property whose key fails.
A function without a name that is written as the value of a property is named by its
key.
-/

namespace Scriptlet.Walk

/-! ## Literals -/

/-- The text that a string literal stands for: what is between its quotes, with the
escapes replaced. -/
def stringValue (source : Text) : Text :=
  let quoted := 2 ≤ source.length && source.head? == source.getLast?
    && (source.head? == some doubleQuote || source.head? == some singleQuote)
  unescape (if quoted then source.slice 1 (source.length - 1) else source)

/-- The regular expression with a source and flags, as a new value. -/
def newRegexp (source flags : Text) : Step Value := do
  match Regexp.compile (← get).characterNamed? source flags with
  | .ok r => (.regexp · r) <$> Step.make Store.newIdentity
  | .error (.unmet u) => Step.fault (.unmet u)
  | .error e => Step.error .runtime e.message

/-- The regular expression of a literal: the source lies between the first slash and the
last, and the flags follow. -/
def regexpValue (literal : Text) : Step Value :=
  match literal.lastIndexOf? '/' with
  | some last => newRegexp (literal.slice 1 last) (literal.drop (last + 1))
  | none => Step.misshapen .badValue

/-- Evaluates a **literal**. -/
def literal (children : List Node) : Step Value := do
  let (label, text) ← Step.leafChild children
  match label with
  | .number => .number <$> Step.ofExcept (numberOfText text)
  | .string => return .text (stringValue text)
  | .regexp => regexpValue text
  | .trueWord => return .bool true
  | .falseWord => return .bool false
  | .nullWord => return .null
  | label => Step.failWith .literal ("Unknown literal token " ++ label.name)

/-- Evaluates a **chunk** of a template. -/
def chunk (children : List Node) : Step Text := do
  return (← Step.leafChild children).2

/-- Evaluates the parts of a template to texts; a failure is spelled `undefined`. -/
def templateTexts (run : Runner) (frame : FrameRef) : List Node → Step (List Text)
  | [] => return []
  | part :: rest => do
    let v ← run (.eval part frame)
    let t ← Step.textOf v.orUndefined
    return t :: (← templateTexts run frame rest)

/-- Evaluates a **template**. -/
def template (run : Runner) (children : List Node) (frame : FrameRef) : Step Value := do
  return .text (← templateTexts run frame children).flatten

/-- Evaluates the parts of a template to its chunks and the values between them. -/
def templateValues (run : Runner) (frame : FrameRef) :
    List Node → Step (List Value × List Value)
  | [] => return ([], [])
  | .branch .templateChunk _ children :: rest => do
    let t ← chunk children
    let (chunks, values) ← templateValues run frame rest
    return (.text t :: chunks, values)
  | part :: rest => do
    let v ← run (.eval part frame)
    let (chunks, values) ← templateValues run frame rest
    return (chunks, v.orUndefined :: values)

/-- Evaluates a **template with a tag**. -/
def taggedTemplate (run : Runner) (children : List Node) (frame : FrameRef) : Step Value := do
  let (tag, template) ← Step.pair children
  match ← run (.eval tag frame) with
  | .failure => return .failure
  | f =>
    if !f.isCallable then
      Step.failWith .literal ("Template tag " ++ (← Step.display f) ++ " is not a function")
    else
      let (chunks, values) ← templateValues run frame template.children
      Step.callValue run f ((← Step.newList chunks) :: values) none

/-! ## Lists and objects -/

/-- The items that an element of a list literal gives. -/
def elementItems (run : Runner) (frame : FrameRef) (n : Node) : Step (List Value) := do
  match n with
  | .branch .hole _ _ => return [.undefined]
  | .branch .spread _ children =>
    let v ← run (.eval (← Step.child children 0) frame)
    match ← Step.spread? v with
    | some items => return items
    | none =>
      Step.warn .collection ("Cannot spread " ++ (← Step.display v) ++ " into an array")
      return []
  | n => return [(← run (.eval n frame)).orUndefined]

/-- The items that the elements of a list literal give. -/
def listItems (run : Runner) (frame : FrameRef) : List Node → Step (List Value)
  | [] => return []
  | n :: rest => do
    let items ← elementItems run frame n
    return items ++ (← listItems run frame rest)

/-- Evaluates a **list literal**. -/
def list (run : Runner) (children : List Node) (frame : FrameRef) : Step Value := do
  Step.newList (← listItems run frame children)

/-- The key of a property; none if it fails. -/
def propertyKey (run : Runner) (n : Node) (frame : FrameRef) : Step (Option Text) := do
  match n with
  | .leaf .string text _ => return some (stringValue text)
  | .leaf .number text _ =>
    let number ← Step.ofExcept (numberOfText text)
    return some (← Step.read (·.keyOf (.number number)))
  | .leaf _ text _ => return some text
  | n =>
    match ← run (.eval (← Step.child (← Step.branchChildren n) 0) frame) with
    | .failure => return none
    | v => return some (← Step.read (·.keyOf v))

/-- Names a function that has no name. -/
def nameFunction (f : FunctionRef) (name : Text) : Step Unit := do
  match (← get).functions[f]? with
  | some cell =>
    if cell.name.isNone then modify fun s => s.setFunction f { cell with name := some name }
  | none => return ()

/-- The value of a property, with the name that its key gives it. -/
def propertyValue (run : Runner) (key : Text) (n : Node) (frame : FrameRef) : Step Value := do
  let v ← run (.eval n frame)
  match v with
  | .function f =>
    if n.kind? == some .function || n.kind? == some .arrow then nameFunction f key
    return v
  | v => return v.orUndefined

/-- The entries of an object literal, added to those that are there. -/
def objectEntries (run : Runner) (frame : FrameRef) (entries : Entries) :
    List Node → Step Entries
  | [] => return entries
  | property :: rest => do
    let (key, value) ← Step.pair (← Step.branchChildren property)
    match ← propertyKey run key frame with
    | none =>
      Step.warn .collection "Dropping object property with an unresolved computed key"
      objectEntries run frame entries rest
    | some key =>
      let v ← propertyValue run key value frame
      objectEntries run frame (entries.put (.text key) v) rest

/-- Evaluates an **object literal**. -/
def object (run : Runner) (children : List Node) (frame : FrameRef) : Step Value := do
  let entries ← objectEntries run frame [] children
  .object <$> Step.make (·.newObject entries)

end Scriptlet.Walk
