import Scriptlet.Interrupt

/-!
# Builtin methods by name

Lists, texts, numbers, objects and regular expressions have builtin methods. Reading
such a property gives the method bound to the value; which methods a value has
depends on its kind alone.
-/

namespace Scriptlet

/-- The methods of lists. -/
inductive ListMethod where
  | push | pop | shift | unshift | slice | splice | concat | join | indexOf | includes
  | reverse | map | filter | forEach | reduce | find | findIndex | any | all | sort
  deriving DecidableEq, Repr

/-- The methods of lists with their names. -/
def ListMethod.names : List (ListMethod × Text) :=
  List.map (fun (m, name) => (m, Text.ofString name))
    [(push, "push"), (pop, "pop"), (shift, "shift"), (unshift, "unshift"), (slice, "slice"),
     (splice, "splice"), (concat, "concat"), (join, "join"), (indexOf, "indexOf"),
     (includes, "includes"), (reverse, "reverse"), (map, "map"), (filter, "filter"),
     (forEach, "forEach"), (reduce, "reduce"), (find, "find"), (findIndex, "findIndex"),
     (any, "some"), (all, "every"), (sort, "sort")]

/-- The method of lists with a given name. -/
def ListMethod.ofName? (name : Text) : Option ListMethod :=
  (names.find? fun entry => entry.2 == name).map Prod.fst

/-- The methods of texts. -/
inductive TextMethod where
  | split | toUpperCase | toLowerCase | trim | trimStart | trimEnd | includes | indexOf
  | startsWith | endsWith | slice | substring | charAt | charCodeAt | replace | replaceAll
  | repeated | padStart | padEnd | concat
  deriving DecidableEq, Repr

/-- The methods of texts with their names. -/
def TextMethod.names : List (TextMethod × Text) :=
  List.map (fun (m, name) => (m, Text.ofString name))
    [(split, "split"), (toUpperCase, "toUpperCase"), (toLowerCase, "toLowerCase"),
     (trim, "trim"), (trimStart, "trimStart"), (trimEnd, "trimEnd"), (includes, "includes"),
     (indexOf, "indexOf"), (startsWith, "startsWith"), (endsWith, "endsWith"),
     (slice, "slice"), (substring, "substring"), (charAt, "charAt"),
     (charCodeAt, "charCodeAt"), (replace, "replace"), (replaceAll, "replaceAll"),
     (repeated, "repeat"), (padStart, "padStart"), (padEnd, "padEnd"), (concat, "concat")]

/-- The method of texts with a given name. -/
def TextMethod.ofName? (name : Text) : Option TextMethod :=
  (names.find? fun entry => entry.2 == name).map Prod.fst

/-- The methods of numbers. -/
inductive NumberMethod where
  | toFixed | toRadix
  deriving DecidableEq, Repr

/-- The methods of numbers with their names. -/
def NumberMethod.names : List (NumberMethod × Text) :=
  List.map (fun (m, name) => (m, Text.ofString name))
    [(toFixed, "toFixed"), (toRadix, "toString")]

/-- The method of numbers with a given name. -/
def NumberMethod.ofName? (name : Text) : Option NumberMethod :=
  (names.find? fun entry => entry.2 == name).map Prod.fst

/-- The methods of objects. -/
inductive ObjectMethod where
  | hasOwnProperty
  deriving DecidableEq, Repr

/-- The methods of objects with their names. -/
def ObjectMethod.names : List (ObjectMethod × Text) :=
  List.map (fun (m, name) => (m, Text.ofString name))
    [(hasOwnProperty, "hasOwnProperty")]

/-- The method of objects with a given name. -/
def ObjectMethod.ofName? (name : Text) : Option ObjectMethod :=
  (names.find? fun entry => entry.2 == name).map Prod.fst

/-- The methods of regular expressions. -/
inductive RegexpMethod where
  | test | exec
  deriving DecidableEq, Repr

/-- The methods of regular expressions with their names. -/
def RegexpMethod.names : List (RegexpMethod × Text) :=
  List.map (fun (m, name) => (m, Text.ofString name))
    [(test, "test"), (exec, "exec")]

/-- The method of regular expressions with a given name. -/
def RegexpMethod.ofName? (name : Text) : Option RegexpMethod :=
  (names.find? fun entry => entry.2 == name).map Prod.fst

/-- Whether a value **has a builtin method** of a given name. -/
def Value.hasMethod (v : Value) (name : Text) : Bool :=
  match v with
  | .list _ => (ListMethod.ofName? name).isSome
  | .text _ => (TextMethod.ofName? name).isSome
  | .number _ => (NumberMethod.ofName? name).isSome
  | .object _ => (ObjectMethod.ofName? name).isSome
  | .regexp .. => (RegexpMethod.ofName? name).isSome
  | _ => false

/-- What the host calls a value of its kind. -/
def Store.kindName (s : Store) : Value → Text
  | .undefined => "JsUndefined"
  | .null => "NoneType"
  | .bool _ => "bool"
  | .number (.int _) => "int"
  | .number (.float _) => "float"
  | .text _ => "str"
  | .failure => "_Fail"
  | .list _ => "list"
  | .object _ => "dict"
  | .tuple .. => "tuple"
  | .regexp .. => "JsRegExp"
  | .function _ => "JsFunction"
  | .method .. => "BuiltinMethod"
  | .native f => f.kindName
  | .host ref => (s.hostKinds[ref]?.map HostKind.name).getD []
  | .hostMethod .. => "method"

/-- Ends with an error because a value has no method of a given name. -/
def Step.unknownMethod (v : Value) (name : Text) : Step α := do
  let s ← get
  error .unknownMethod (s.kindName v ++ " has no builtin method '" ++ name ++ "'")

end Scriptlet
