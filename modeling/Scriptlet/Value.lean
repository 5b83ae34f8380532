import Scriptlet.Number.Numeral
import Scriptlet.Regexp

/-!
# Values

What a program computes with. Numbers, texts and truth values are what they are;
lists, objects, functions and the objects of the host are places in a store, so
that two names can share one and see each other's changes. Regular expressions,
tuples and bound methods cannot change, but two of them made at different times
are not the same, so each carries an identity of its own.

One value is not the program's: a *failure* says that a part of it could not be
evaluated. It is handed up from part to part, and it is never stored.
-/

namespace Scriptlet

/-- The place of a list. -/
abbrev ListRef := Nat

/-- The place of an object. -/
abbrev ObjectRef := Nat

/-- The place of a function. -/
abbrev FunctionRef := Nat

/-- The place of a frame, which binds names. -/
abbrev FrameRef := Nat

/-- The place of an object of the host. -/
abbrev HostRef := Nat

/-- What tells values of one kind apart that look the same. -/
abbrev Identity := Nat

/-- A **function of the host**, or a method of its objects: what can be seen of it. What it
does is not said here. -/
structure Native where
  /-- Its name. -/
  name : Text
  /-- How the host shows it. A method is shown so next to its object. -/
  description : Text
  /-- What the host calls values of its kind. -/
  kindName : Text
  /-- The number of arguments that it takes by position; none if it takes any number. The
  object that a method belongs to is not one of them. -/
  arity : Option Nat
  /-- What tells it from another that looks the same. -/
  identity : Identity
  deriving DecidableEq, Repr

/-- A **value**. -/
inductive Value where
  | undefined
  | null
  | bool (b : Bool)
  | number (n : Number)
  | text (t : Text)
  /-- What could not be evaluated. -/
  | failure
  | list (ref : ListRef)
  | object (ref : ObjectRef)
  /-- A row of values that cannot change. -/
  | tuple (identity : Identity) (items : List Value)
  | regexp (identity : Identity) (r : Regexp)
  /-- A function of the program. -/
  | function (ref : FunctionRef)
  /-- A builtin method together with the value it belongs to. -/
  | method (identity : Identity) (name : Text) (subject : Value)
  /-- A function of the host. -/
  | native (f : Native)
  /-- An object of the host. -/
  | host (ref : HostRef)
  /-- A method of an object of the host, together with that object. -/
  | hostMethod (identity : Identity) (ref : HostRef) (m : Native)

namespace Value

instance : Inhabited Value := ⟨undefined⟩

/-- An integer. -/
def int (n : Int) : Value := number (.int n)

/-- A float. -/
def float (x : Float) : Value := number (.float x)

/-- Whether the value is undefined or null. -/
def isNullish : Value → Bool
  | undefined | null => true
  | _ => false

/-- Whether the value is a number. -/
def isNumber : Value → Bool
  | number _ => true
  | _ => false

/-- Whether the value is undefined. -/
def isUndefined : Value → Bool
  | undefined => true
  | _ => false

/-- Whether the value is a failure. -/
def isFailure : Value → Bool
  | failure => true
  | _ => false

/-- Whether the value **can be called**. -/
def isCallable : Value → Bool
  | function _ | method .. | native _ | hostMethod .. => true
  | _ => false

/-- The value, or undefined in place of a failure. -/
def orUndefined : Value → Value
  | failure => undefined
  | v => v

/-- The value, or undefined where there is none. -/
def ofOption : Option Value → Value
  | some v => v
  | none => undefined

end Value

/-! ## Categories -/

/-- The **category** of a value, on which equality depends. -/
inductive Category where
  | undefined | null | boolean | number | text | object | function
  deriving DecidableEq, Repr

/-- The name of a category. -/
def Category.name : Category → Text
  | undefined => "undefined"
  | null => "null"
  | boolean => "boolean"
  | number => "number"
  | text => "string"
  | object => "object"
  | function => "function"

/-- The category of a value: whatever has no category of its own is an object. -/
def Value.category : Value → Category
  | undefined => .undefined
  | null => .null
  | bool _ => .boolean
  | number _ => .number
  | text _ => .text
  | function _ | method .. | native _ | hostMethod .. => .function
  | list _ | object _ | tuple .. | regexp .. | host _ | failure => .object

/-- Whether two values that are neither texts nor numbers nor truth values are **one
and the same**. -/
def Value.isSame : Value → Value → Bool
  | undefined, undefined | null, null | failure, failure => true
  | list a, list b | object a, object b | function a, function b | host a, host b => a == b
  | native f, native g => f == g
  | tuple a _, tuple b _ | regexp a _, regexp b _ | method a _ _, method b _ _
  | hostMethod a _ _, hostMethod b _ _ => a == b
  | _, _ => false

/-! ## Keys -/

/-- A **key** of an object. Programs make only texts; what the host hands in may have
others. -/
inductive Key where
  | text (t : Text)
  | number (n : Number)
  | bool (b : Bool)
  | null

namespace Key

/-- The number that a number or a truth value is as a key. -/
def number? : Key → Option Number
  | number n => some n
  | bool b => some (.int (if b then 1 else 0))
  | _ => none

/-- Whether two keys are **the same key**: numbers are so by value, and truth values
count as 1 and 0. What is not a number is never the same key here, not even as itself;
a host may still find an entry under the very float that was put there. -/
def same : Key → Key → Bool
  | text a, text b => a == b
  | null, null => true
  | a, b =>
    match a.number?, b.number? with
    | some x, some y => x.equal y
    | _, _ => false

/-- The text of a key, if it is one. -/
def text? : Key → Option Text
  | text t => some t
  | _ => none

/-- A key as a value. -/
def toValue : Key → Value
  | text t => .text t
  | number n => .number n
  | bool b => .bool b
  | null => .null

end Key

/-- The **entries** of an object, in the order in which their keys were added. -/
abbrev Entries := List (Key × Value)

namespace Entries

/-- The value under a key. -/
def get? (entries : Entries) (key : Key) : Option Value :=
  (entries.find? fun entry => entry.1.same key).map Prod.snd

/-- Whether there is a value under a key. -/
def has (entries : Entries) (key : Key) : Bool :=
  entries.any fun entry => entry.1.same key

/-- The entries with a value under a key. A key that is there keeps its place and its
spelling; a new one comes last. -/
def put (entries : Entries) (key : Key) (value : Value) : Entries :=
  match entries with
  | [] => [(key, value)]
  | entry :: rest =>
    if entry.1.same key then (entry.1, value) :: rest else entry :: put rest key value

@[simp] theorem get?_nil (key : Key) : get? [] key = none := rfl

theorem get?_cons (entry : Key × Value) (rest : Entries) (key : Key) :
    get? (entry :: rest) key = if entry.1.same key then some entry.2 else get? rest key := by
  simp only [get?, List.find?_cons]
  split <;> simp_all

end Entries

end Scriptlet
