import Scriptlet.Walk.Shape

/-!
# Members and calls

A member is reached by evaluating the object, then the key, and then reading the
property. A call evaluates what is called, then the arguments from left to right;
where what is called is a member, its object is the receiver of the call. Calls of
what cannot be called are failures, and so are members of functions.
-/

namespace Scriptlet.Walk

/-- The key of a member of an object, or a failure where the object has no members: a
leaf names the key, anything else is evaluated. -/
def memberKey (run : Runner) (object : Value) (property : Node) (frame : FrameRef) :
    Step Value := do
  if object.isCallable then
    Step.failWith .access "Member access on a function value is not supported"
  else
    match property with
    | .leaf _ name _ =>
      if object.isNullish then
        Step.failWith .access
          ("Cannot read property '" ++ name ++ "' of " ++ (← Step.display object))
      else return .text name
    | property =>
      match ← run (.eval property frame) with
      | .failure => return .failure
      | key =>
        if ← Step.ofExcept object.truth then return key
        else
          Step.failWith .access
            ("Cannot read computed property of " ++ (← Step.display object))

/-- The object and the key of a member; none where either fails. -/
def memberParts (run : Runner) (children : List Node) (frame : FrameRef) :
    Step (Option (Value × Value)) := do
  let (object, property) ← Step.pair children
  match ← run (.eval object frame) with
  | .failure => return none
  | object =>
    match ← memberKey run object property frame with
    | .failure => return none
    | key => return some (object, key)

/-- Evaluates a **member**. -/
def member (run : Runner) (children : List Node) (frame : FrameRef) : Step Value := do
  match ← memberParts run children frame with
  | none => return .failure
  | some (object, key) => Step.getProperty object key

/-! ## Arguments -/

/-- The values of an argument that is spread; none if they fail. -/
def spreadArgument (run : Runner) (children : List Node) (frame : FrameRef) :
    Step (Option (List Value)) := do
  let v ← run (.eval (← Step.child children 0) frame)
  match ← Step.spread? v with
  | some values => return some values
  | none =>
    Step.warn .access ("Spread argument is not iterable: " ++ (← Step.display v))
    return none

/-- The values of one argument; none if they fail. -/
def argumentValues (run : Runner) (frame : FrameRef) (n : Node) : Step (Option (List Value)) := do
  match n with
  | .branch .spread _ children => spreadArgument run children frame
  | n =>
    match ← run (.eval n frame) with
    | .failure => return none
    | v => return some [v]

/-- The **arguments of a call**; none as soon as one of them fails. -/
def callArguments (run : Runner) (frame : FrameRef) : List Node → Step (Option (List Value))
  | [] => return some []
  | n :: rest => do
    match ← argumentValues run frame n with
    | none => return none
    | some values =>
      match ← callArguments run frame rest with
      | none => return none
      | some others => return some (values ++ others)

/-- The **arguments of a construction**: one that fails is undefined, and what cannot be
spread is left out. -/
def constructArguments (run : Runner) (frame : FrameRef) : List Node → Step (List Value)
  | [] => return []
  | n :: rest => do
    let values ← argumentValues run frame n
    let instead := if n.kind? == some .spread then [] else [Value.undefined]
    return values.getD instead ++ (← constructArguments run frame rest)

/-! ## Calls -/

/-- What is called, and the receiver. -/
def callee (run : Runner) (n : Node) (frame : FrameRef) :
    Step (Option (Value × Option Value)) := do
  match n with
  | .branch .member _ children =>
    match ← memberParts run children frame with
    | none => return none
    | some (object, key) => return some (← Step.getProperty object key, some object)
  | n => return some (← run (.eval n frame), none)

/-- Evaluates a **call**. -/
def call (run : Runner) (children : List Node) (frame : FrameRef) : Step Value := do
  let (calleeNode, arguments) ← Step.pair children
  match ← callee run calleeNode frame with
  | none => return .failure
  | some (.failure, _) => Step.failWith .access "Failed to resolve call callee"
  | some (f, receiver) =>
    if !f.isCallable then
      Step.failWith .access ((← Step.display f) ++ " is not a function")
    else
      match ← callArguments run frame arguments.children with
      | none => return .failure
      | some args => Step.callValue run f args receiver

/-- Evaluates a **construction**. -/
def construct (run : Runner) (children : List Node) (frame : FrameRef) : Step Value := do
  let (constructor, arguments) ← Step.pair children
  match ← run (.eval constructor frame) with
  | .failure => return .failure
  | f => Step.construct run f (← constructArguments run frame arguments.children)

end Scriptlet.Walk
