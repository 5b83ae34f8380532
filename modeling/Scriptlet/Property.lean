import Scriptlet.Demand
import Scriptlet.Method.Name

/-!
# Properties

Reading and writing a property of a value. What a key means depends on the value:
an object has entries, a list and a text have items by index and a length, a
regular expression has its source and flags, and an object of the host has
attributes. Where there is no such property, a builtin method of that name is
given, bound to the value, and otherwise undefined.

Writing either changes the value or leaves it as it was; where nothing can be
written, a warning and a failure result. Attributes of the host whose names begin
with two underscores are out of reach.
-/

namespace Scriptlet

/-- The key of the entry that a value names in an object: its text or, where there is
none under the text, the number itself if the host has put an entry there. -/
def Store.entryKey (s : Store) (entries : Entries) (key : Value) : Except Unmet Key := do
  let text ← s.keyOf key
  match key with
  | .number n =>
    return if !entries.has (.text text) && entries.has (.number n) then .number n else .text text
  | _ => return .text text

/-- Whether an attribute of the host is **within reach**. -/
def isOpenAttribute (name : Text) : Bool :=
  !("__" : Text).isPrefixOf name

/-- Attributes with a value under a name; a new one comes last. -/
def putAttribute (attributes : List (Text × Value)) (name : Text) (v : Value) :
    List (Text × Value) :=
  match attributes with
  | [] => [(name, v)]
  | entry :: rest =>
    if entry.1 == name then (name, v) :: rest else entry :: putAttribute rest name v

namespace Step

/-- The builtin method of a value with a name, bound to it, or undefined. -/
def methodOrUndefined (v : Value) (name : Text) : Step Value :=
  if v.hasMethod name then newMethod name v else return .undefined

/-- A key as log records show it. -/
def describeKey (key : Value) : Step Text :=
  read (·.describe key)

/-! ## Reading -/

/-- Reads a property of an object. -/
def getEntry (ref : ObjectRef) (key : Value) : Step Value := do
  let s ← get
  let entries := s.entries ref
  match entries.get? (← read fun s => s.entryKey entries key) with
  | some v => return v
  | none => methodOrUndefined (.object ref) (← read (·.keyOf key))

/-- Reads a property of a list or a text with the given items. -/
def getItem (v : Value) (items : List Value) (key : Value) : Step Value := do
  match ← ofExcept key.index? with
  | some index => return Value.ofOption items[index]?
  | none =>
    let name ← read (·.keyOf key)
    if name == "length" then return .int items.length else methodOrUndefined v name

/-- Reads a property of a regular expression. -/
def getRegexpPart (v : Value) (r : Regexp) (key : Value) : Step Value := do
  let name ← read (·.keyOf key)
  if name == "source" then return .text r.source
  else if name == "flags" then return .text r.flags
  else if name == "global" then return .bool r.isGlobal
  else methodOrUndefined v name

/-- Reads an attribute of an object of the host: what it holds itself, then the
methods of its kind. -/
def getAttribute (ref : HostRef) (name : Text) : Step Value := do
  let s ← get
  match (s.attributes ref).lookup name with
  | some v => return v
  | none =>
    match (s.hostMethods ref).find? fun m => m.name == name with
    | some m => (.hostMethod · ref m) <$> make Store.newIdentity
    | none => return .undefined

/-- Reads a part of a value that has no properties in the language. -/
def getPart (v : Value) (name : Text) : Step Value := do
  if !isOpenAttribute name then return .undefined
  match v with
  | .host ref => getAttribute ref name
  | .function ref =>
    match (← get).functions[ref]? with
    | none => return .undefined
    | some f =>
      if name == "name" then return (f.name.map Value.text).getD .null
      else if name == "kind" then return .text f.kind.name
      else if name == "params" then newList (f.params.map .text)
      else return .undefined
  | .method _ method subject =>
    if name == "name" then return .text method
    else if name == "subject" then return subject
    else return .undefined
  | _ => return .undefined

/-- **Reads a property**. -/
def getProperty (v key : Value) : Step Value := do
  match v with
  | .undefined | .null =>
    failWith .property
      ("Cannot read property " ++ (← describeKey key) ++ " of " ++ (← display v))
  | .object ref => getEntry ref key
  | .list ref => getItem v ((← get).items ref) key
  | .text t => getItem v (t.map fun c => .text [c]) key
  | .regexp _ r => getRegexpPart v r key
  | .bool _ => return .undefined
  | .number _ => methodOrUndefined v (← read (·.keyOf key))
  | _ => getPart v (← read (·.keyOf key))

/-! ## Writing -/

/-- The items with one of them replaced; those that are missing up to it become
undefined. -/
def putItem (items : List Value) (index : Nat) (v : Value) : List Value :=
  (items ++ List.replicate (index + 1 - items.length) Value.undefined).set index v

/-- A number of items to be added, for which there has to be memory. -/
def room (n : Nat) : Step Unit := do
  let _ ← ofExcept (countOf n >>= reserve)

/-- The length that a value gives a list. -/
def lengthOf (v : Value) : Step Nat := do
  let n ← numberOf v
  let x ← ofExcept n.toFloat
  if isWholeFloat x && !n.isNegative then
    match n with
    | .int m => return m.toNat
    | .float y => return ((Binary64.ofFloat? y).map fun b => b.truncate.toNat).getD 0
  else error .runtime "Invalid array length"

/-- Sets the length of a list: items are cut off, or undefined ones are added. -/
def setLength (ref : ListRef) (v : Value) : Step Unit := do
  let length ← lengthOf v
  let items := (← get).items ref
  room (length - items.length)
  modify fun s => s.setItems ref
    (items.take length ++ List.replicate (length - items.length) Value.undefined)

/-- Writes a property of a list. -/
def setItem (ref : ListRef) (key v : Value) : Step Value := do
  match ← ofExcept key.index? with
  | some index =>
    let items := (← get).items ref
    room (index + 1 - items.length)
    modify fun s => s.setItems ref (putItem items index v)
    return v
  | none =>
    if (← read (·.keyOf key)) == "length" then
      setLength ref v
      return v
    else failWith .property ("Cannot set property " ++ (← describeKey key) ++ " on an array")

/-- Writes an attribute of an object of the host. -/
def setAttribute (ref : HostRef) (name : Text) (v : Value) : Step Unit :=
  modify fun s => s.setAttributes ref (putAttribute (s.attributes ref) name v)

/-- Writes a part of a value that has no properties in the language: only objects of
the host have any that can be written. -/
def setPart (target : Value) (name : Text) (v : Value) : Step Value := do
  if !isOpenAttribute name then
    failWith .property ("Cannot set property " ++ name.quoted ++ " on a host object")
  else
    match target with
    | .host ref =>
      setAttribute ref name v
      return v
    | .failure => return v
    | _ => fault .missingPart

/-- **Writes a property** and gives the value that was written, or a failure where
nothing can be written. -/
def setProperty (target key v : Value) : Step Value := do
  match target with
  | .object ref =>
    let slot ← read fun s => s.entryKey (s.entries ref) key
    modify fun s => s.setEntries ref ((s.entries ref).put slot v)
    return v
  | .list ref => setItem ref key v
  | .host _ | .tuple .. | .failure => setPart target (← read (·.keyOf key)) v
  | _ =>
    failWith .property
      ("Cannot set property " ++ (← describeKey key) ++ " on " ++ (← display target))

end Step

end Scriptlet
