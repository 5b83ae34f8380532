import Scriptlet.Proofs.Order.Course
import Scriptlet.Walk

/-!
# The agenda of each kind of node

Which parts of a node are evaluated, in which order, and where it ends early. Nothing is said
here of what is made of the values: of a value it only matters whether it is a failure, is true,
can be called, or can be spread.

In a list or an object, in a template, among the arguments of a construction and among statements
a part that fails does not end anything, and everywhere else it does.
-/

namespace Scriptlet

/-! ## What matters of a value -/

/-- Whether a value is true. -/
def Value.isTrue (v : Value) : Bool :=
  match v.truth with
  | .ok b => b
  | .error _ => false

/-- Whether a value can be spread. -/
def Value.spreads : Value → Bool
  | list _ | tuple .. | text _ => true
  | _ => false

theorem Value.isCallable_of_isFailure {v : Value} (h : v.isFailure = true) :
    v.isCallable = false := by
  cases v <;> first | rfl | cases h

/-- The value, unless it is a failure. -/
def Value.success? (v : Value) : Option Value :=
  if v.isFailure then none else some v

theorem Value.success?_of_succeeded {v : Value} (h : v.isFailure = false) : v.success? = some v := by
  rw [success?, if_neg (Bool.eq_false_iff.mp h)]

/-- Whether the left operand of a logical operator decides. -/
def decides (sign : Text) (left : Value) : Bool :=
  if sign == "&&" then !left.isTrue else sign == "||" && left.isTrue

namespace Agenda

/-! ## Parts -/

/-- To evaluate a node. -/
def evaluate (n : Node) : Agenda Value :=
  .item (.evaluate n) .done

/-- To evaluate a node, if there is one. -/
def optional : Option Node → Agenda Value
  | some n => evaluate n
  | none => return .undefined

/-- To look up what is to be called. -/
def resolve (object key : Value) : Agenda Value :=
  .item (.resolve object key) .done

/-- To call something. -/
def called : Agenda Unit :=
  .item .call fun _ => .done ()

/-- One agenda for each of some nodes, one after the other. -/
def each (f : Node → Agenda Unit) : List Node → Agenda Unit
  | [] => return ()
  | n :: rest => do
    f n
    each f rest

/-- To evaluate nodes one after the other, **whatever comes of them**. -/
def inTurn : List Node → Agenda Unit :=
  each fun n => do let _ ← evaluate n

theorem inTurn_append (ns ms : List Node) : inTurn (ns ++ ms) = inTurn ns >>= fun _ => inTurn ms := by
  induction ns with
  | nil => rfl
  | cons n ns ih => exact congrArg (Agenda.item _) (funext fun _ => ih)

/-! ## Operators and conditions -/

/-- The operand of an operator that is known. -/
def unary : List Node → Agenda Unit
  | [operator, operand] =>
    if (UnaryOperator.ofText? operator.asText).isSome then inTurn [operand] else return ()
  | _ => return ()

/-- The left operand, and the right one **unless the left one fails or decides**. -/
def binary : List Node → Agenda Unit
  | [left, operator, right] => do
    let a ← evaluate left
    if a.isFailure || decides operator.asText a then return () else inTurn [right]
  | _ => return ()

/-- The test, and then **one of the branches**, unless it fails. -/
def conditional : List Node → Agenda Unit
  | test :: branches => do
    let v ← evaluate test
    if v.isFailure then return ()
    else inTurn (if v.isTrue then branches[0]? else branches[1]?).toList
  | [] => return ()

/-! ## Lists and objects -/

/-- What there is to evaluate of an element. -/
def element : Node → List Node
  | .branch .hole _ _ => []
  | .branch .spread _ children => children[0]?.toList
  | n => [n]

/-- The key of a property, which is evaluated if it is computed, and whether there is one. -/
def key : Node → Agenda Bool
  | .leaf .. => return true
  | n => do return !(← optional n.children[0]?).isFailure

/-- **The key and then the value**, unless the key fails. -/
def property (n : Node) : Agenda Unit :=
  match n.children with
  | [key, value] => do
    if ← Agenda.key key then inTurn [value] else return ()
  | _ => return ()

/-! ## Members and calls -/

/-- The key of a member of an object; none if the object has no members. A computed key is
evaluated before it turns out that there are none, but for functions. -/
def memberKey (object : Value) (property : Node) : Agenda (Option Value) :=
  if object.isCallable then return none
  else
    match property with
    | .leaf _ name _ => return if object.isNullish then none else some (.text name)
    | property => do
      let key ← evaluate property
      return if key.isFailure || !object.isTrue then none else some key

/-- **The object and then the key**, unless the object fails. -/
def memberParts : List Node → Agenda (Option (Value × Value))
  | [object, property] => do
    let object ← evaluate object
    if object.isFailure then return none
    else return (← memberKey object property).map (object, ·)
  | _ => return none

/-- An argument, and whether it gives values. -/
def argument : Node → Agenda Bool
  | .branch .spread _ children => do return (← optional children[0]?).spreads
  | n => do return !(← evaluate n).isFailure

/-- The arguments of a call, **up to the first one that fails**. -/
def callArguments : List Node → Agenda Bool
  | [] => return true
  | n :: rest => do
    if ← argument n then callArguments rest else return false

/-- What is called. -/
def callee : Node → Agenda (Option Value)
  | .branch .member _ children => do
    match ← memberParts children with
    | none => return none
    | some (object, key) => return some (← resolve object key)
  | n => do return some (← evaluate n)

/-- What is called, then the arguments **if it can be called**, and the call if none failed. -/
def call : List Node → Agenda Unit
  | [f, arguments] => do
    match ← callee f with
    | none => return ()
    | some f =>
      if f.isCallable then
        if ← callArguments arguments.children then called else return ()
      else return ()
  | _ => return ()

/-- The constructor, then all arguments unless it fails, and the call. -/
def construct : List Node → Agenda Unit
  | [f, arguments] => do
    let f ← evaluate f
    if f.isFailure then return ()
    else
      each (fun n => do let _ ← argument n) arguments.children
      called
  | _ => return ()

/-- Whether a part of a template is a chunk of text. -/
def isChunk (n : Node) : Bool :=
  n.kind? == some .templateChunk

/-- The tag, then all expressions if it can be called, and the call. -/
def taggedTemplate : List Node → Agenda Unit
  | [tag, template] => do
    let f ← evaluate tag
    if f.isCallable then
      inTurn (template.children.filter (!isChunk ·))
      called
    else return ()
  | _ => return ()

/-! ## Assignments -/

/-- The parts of what is assigned to. -/
def target : Node → Agenda Unit
  | .branch .member _ children => do let _ ← memberParts children
  | _ => return ()

/-- **The value, and then the target** unless the value fails. -/
def assign : List Node → Agenda Unit
  | [left, sign, value] => do
    let v ← evaluate value
    if v.isFailure || (Walk.assigning? sign.asText).isNone then return () else target left
  | _ => return ()

/-- The target of a step by one. -/
def update : List Node → Agenda Unit
  | [_, operand] => target operand
  | _ => return ()

/-! ## Kinds -/

/-- **The agenda of a kind of node** with some children. -/
def ofKind (kind : Kind) (children : List Node) : Agenda Unit :=
  match kind with
  | .program | .block | .template => inTurn children
  | .expressionStatement | .returnStatement => inTurn children[0]?.toList
  | .declaration => inTurn (children.drop 1)
  | .declarator => inTurn children[1]?.toList
  | .conditionalStatement | .conditional => conditional children
  | .unary => unary children
  | .binary | .logical => binary children
  | .array => inTurn (children.flatMap element)
  | .object => each property children
  | .member => do let _ ← memberParts children
  | .assign => assign children
  | .update => update children
  | .call => call children
  | .construct => construct children
  | .taggedTemplate => taggedTemplate children
  | _ => return ()

end Agenda

end Scriptlet
