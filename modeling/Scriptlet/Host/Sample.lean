import Scriptlet.Host.Arithmetic
import Scriptlet.Walk

/-!
# A sample host

What the functions of a host do, and how its objects are shown, is left to the host. Here is
one of them, by which programs can be tried out: most of its functions are operators of the
host; some gather their arguments, one calls another function, and one always reports an error.
They take a fixed number of arguments, and a call with another number is a fault.

Its objects are shown by a name, which is one of their attributes. They have two methods, but for
pairs, which have none.
-/

namespace Scriptlet

/-! ## Objects -/

/-- The attribute that holds the name of an object. -/
def nameAttribute : Text := "_n"

/-- The name that is among some attributes. -/
def sampleName (attributes : List (Text × Value)) : Text :=
  match attributes.lookup nameAttribute with
  | some (.text t) => t
  | _ => []

/-- An object as it is shown. -/
def sampleText (_ : HostRef) (attributes : List (Text × Value)) : Text :=
  "<host " ++ sampleName attributes ++ ">"

/-- The name of an object. -/
def Store.hostName (s : Store) (ref : HostRef) : Text :=
  sampleName (s.attributes ref)

namespace Native

/-- A function with a name that takes a number of arguments by position. -/
def sample (name : Text) (arity : Option Nat) : Native :=
  ⟨name, "<function " ++ name ++ ">", "function", arity, 0⟩

/-- A method with a name that takes a number of arguments. -/
def sampleMethod (name : Text) (arity : Nat) : Native :=
  ⟨name, "Host." ++ name, "function", some arity, 0⟩

/-- Doubles the attribute `x`. -/
def norm : Native := sampleMethod "norm" 0

/-- Sets the attribute `x`. -/
def setx : Native := sampleMethod "setx" 1

end Native

namespace HostKind

/-- Objects with methods. -/
def sample : HostKind := ⟨"Host", sampleText, sampleText, [.norm, .setx]⟩

/-- Pairs. -/
def pair : HostKind := ⟨"Pair", sampleText, sampleText, []⟩

end HostKind

/-- An **object of the sample host**. -/
structure SampleObject where
  /-- Whether it has methods. -/
  hasMethods : Bool
  /-- The attributes by name, among them its own name. -/
  attributes : List (Text × Value)

/-- A new object of the sample host, and the store that holds it. -/
def Store.newHost (s : Store) (object : SampleObject) : HostRef × Store :=
  s.newHostCell ⟨if object.hasMethods then .sample else .pair, object.attributes⟩

/-- A new pair. -/
def Step.newPair (a b : Value) : Step Value :=
  .host <$> make (·.newHost ⟨false, [(nameAttribute, .text "Pair"), ("a", a), ("b", b)]⟩)

/-! ## Functions -/

namespace Native

/-- Gathers its arguments in a list. -/
def args : Native := sample "args" none
/-- Counts its arguments. -/
def count : Native := sample "count" none
/-- Gives null. -/
def nothing : Native := sample "nothing" (some 0)
/-- Gives its argument. -/
def first : Native := sample "first" (some 1)
/-- Gathers two arguments. -/
def two : Native := sample "two" (some 2)
/-- Gathers two arguments, of which the second is 5 if there is none. -/
def opt : Native := sample "opt" (some 2)
/-- Gathers its argument and 1. -/
def kwonly : Native := sample "kwonly" (some 1)
/-- Calls its first argument with the others. -/
def apply : Native := sample "apply" none
/-- Reports an error. -/
def boom : Native := sample "boom" none
/-- Gathers its arguments in a tuple. -/
def tuple : Native := sample "tuple" none
/-- The sum. -/
def add : Native := sample "add" (some 2)
/-- The difference. -/
def sub : Native := sample "sub" (some 2)
/-- The product. -/
def mul : Native := sample "mul" (some 2)
/-- The quotient. -/
def div : Native := sample "div" (some 2)
/-- The remainder. -/
def mod : Native := sample "mod" (some 2)
/-- The power. -/
def pow : Native := sample "pow" (some 2)
/-- Whether the first is less. -/
def lt : Native := sample "lt" (some 2)
/-- Whether the first is less, or both are equal. -/
def le : Native := sample "le" (some 2)
/-- Whether the first is greater. -/
def gt : Native := sample "gt" (some 2)
/-- Whether the first is greater, or both are equal. -/
def ge : Native := sample "ge" (some 2)
/-- Whether both are equal. -/
def eq : Native := sample "eq" (some 2)
/-- The negative. -/
def neg : Native := sample "neg" (some 1)
/-- The number as it is. -/
def pos : Native := sample "pos" (some 1)
/-- The plain text. -/
def str : Native := sample "str" (some 1)
/-- The notation of the host. -/
def repr : Native := sample "repr" (some 1)
/-- Whether it counts as true for the host. -/
def bool : Native := sample "bool" (some 1)
/-- The greatest of its arguments, or of what its only argument holds. -/
def max : Native := ⟨"max", "<built-in function max>", "builtin_function_or_method", none, 0⟩
/-- Makes a pair, of which the second part is 7 if there is none. -/
def pair : Native := ⟨"Pair", "<class 'Pair'>", "type", some 2, 0⟩

end Native

/-- The values among which the greatest is looked for: those of a single argument, or
the arguments themselves. -/
def Step.candidates (args : List Value) : Step (List Value) := do
  match args with
  | [] => fault .wrongType
  | [.object ref] => return ((← get).entries ref).map fun entry => entry.1.toValue
  | [v] =>
    match ← spread? v with
    | some values => return values
    | none => fault .wrongType
  | args => return args

namespace SampleHost

/-- What a function **does** with a runner and its arguments. -/
abbrev Action := Runner → List Value → Step Value

/-- What a function of any number of arguments does. -/
def gather (act : List Value → Step Value) : Action := fun _ args => act args

/-- What a function of one argument does. -/
def unary (act : Value → Step Value) : Action
  | _, [x] => act x
  | _, _ => Step.fault .wrongType

/-- What a function of two arguments does. -/
def binary (act : Value → Value → Step Value) : Action
  | _, [x, y] => act x y
  | _, _ => Step.fault .wrongType

/-- What a function of two arguments does of which the second may be missing. -/
def defaulting (default : Value) (act : Value → Value → Step Value) : Action
  | _, [x] => act x default
  | _, [x, y] => act x y
  | _, _ => Step.fault .wrongType

/-- A comparison by an operator of order. -/
def comparison (op : OrderOperator) : Action :=
  binary fun a b => do return .bool (← Step.ofHost ((← get).hostCompares op a b))

/-- Calls its first argument with the others. -/
def calling : Action
  | run, callee :: args => run (.call callee args)
  | _, [] => Step.fault .wrongType

/-- The greatest among some values. -/
def greatest (args : List Value) : Step Value := do
  match ← Step.candidates args with
  | [] => Step.fault .badValue
  | v :: rest => do Step.ofHost ((← get).greatest v rest)

/-- The attribute `x` of an object doubled. -/
def doubled : Value → Step Value
  | .host ref => do
    match ((← get).attributes ref).lookup ("x" : Text) with
    | some v => Step.hostOperate .mul v (.int 2)
    | none => Step.fault .missingPart
  | _ => Step.fault .wrongType

/-- Sets the attribute `x` of an object. -/
def settingX : Value → Value → Step Value
  | .host ref, v => do
    Step.setAttribute ref "x" v
    return .undefined
  | _, _ => Step.fault .wrongType

/-- All functions and methods with what they do. -/
def actions : List (Native × Action) :=
  [(.args, gather Step.newList), (.count, gather fun args => return .int args.length),
   (.nothing, fun _ args => if args.isEmpty then return .null else Step.fault .wrongType),
   (.first, unary fun x => return x), (.two, binary fun x y => Step.newList [x, y]),
   (.opt, defaulting (.int 5) fun x y => Step.newList [x, y]),
   (.kwonly, unary fun x => Step.newList [x, .int 1]), (.apply, calling),
   (.boom, fun _ _ => throw (.hostError "host failure")), (.tuple, gather Step.newTuple),
   (.add, binary (Step.hostOperate .add)), (.sub, binary (Step.hostOperate .sub)),
   (.mul, binary (Step.hostOperate .mul)), (.div, binary (Step.hostOperate .div)),
   (.mod, binary (Step.hostOperate .mod)), (.pow, binary (Step.hostOperate .pow)),
   (.lt, comparison .less), (.le, comparison .lessOrEqual), (.gt, comparison .greater),
   (.ge, comparison .greaterOrEqual),
   (.eq, binary fun a b => do return .bool (← Step.ofHost ((← get).hostEquals a b))),
   (.neg, unary (Step.hostSign true)), (.pos, unary (Step.hostSign false)),
   (.str, unary fun x => .text <$> Step.read (·.plain x)),
   (.repr, unary fun x => .text <$> Step.read (·.describe x)),
   (.bool, unary fun x => .bool <$> Step.hostTruth x), (.max, gather greatest),
   (.pair, defaulting (.int 7) Step.newPair), (.norm, unary doubled), (.setx, binary settingX)]

end SampleHost

/-- The **sample host**. -/
def Host.sample : Host := fun f run args =>
  match SampleHost.actions.lookup f with
  | some act => act run args
  | none => Step.fault .wrongType

/-- Runs a task by the sample host. -/
def Task.run (task : Task) : Step Value :=
  Task.runTo .sample depthLimit task

end Scriptlet
