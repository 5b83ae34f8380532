import Scriptlet.Method.Number
import Scriptlet.Method.Text

/-!
# Builtin methods

Calling a builtin method of a value by its name. A name that the kind of the value
does not know is an error.
-/

namespace Scriptlet

namespace RegexpMethod

/-- **Calls a method** of a regular expression: whether it matches a text, or what it
and its groups match. -/
def call (r : Regexp) (args : List Value) (m : RegexpMethod) : Step Value := do
  let found := r.pattern.search (← Step.textOf (argument args 0))
  match m with
  | test => return .bool found.isSome
  | exec =>
    match found with
    | none => return .null
    | some m => Step.newList (.text m.text :: captureValues m.captures)

end RegexpMethod

namespace ObjectMethod

/-- **Calls a method** of an object. -/
def call (ref : ObjectRef) (args : List Value) : ObjectMethod → Step Value
  | hasOwnProperty => do
    let name ← Step.read (·.keyOf (argument args 0))
    return .bool (((← get).entries ref).has (.text name))

end ObjectMethod

/-! ## All methods -/

/-- **Calls the builtin method** of a value with a given name. -/
def Step.callMethod (run : Runner) (v : Value) (name : Text) (args : List Value) : Step Value :=
  let unknown := unknownMethod v name
  match v with
  | .list ref => ((ListMethod.ofName? name).map (·.call run ref args)).getD unknown
  | .text t => ((TextMethod.ofName? name).map (·.call run t args)).getD unknown
  | .number n => ((NumberMethod.ofName? name).map (·.call n args)).getD unknown
  | .object ref => ((ObjectMethod.ofName? name).map (·.call ref args)).getD unknown
  | .regexp _ r => ((RegexpMethod.ofName? name).map (·.call r args)).getD unknown
  | _ => unknown

end Scriptlet
