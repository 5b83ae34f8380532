import Scriptlet.Text.Name
import Scriptlet.Tree
import Scriptlet.Value

/-!
# The store

Everything that can change while a program runs: lists, objects, functions, the
frames that bind names and the objects of the host, each at a place that is handed
out once and never taken back. A frame binds names in an object, so the outermost
frame can bind them in an object that the host has handed in and keeps.

The store also holds the log of the run, and counts the runs: a function knows
during which run it was made. What a host knows and a program cannot change is part of
it as well: of what kind its objects are, and the names of characters.
-/

namespace Scriptlet

/-- How a function was written, which decides whether it has a receiver. -/
inductive FunctionKind where
  | plain | arrow
  deriving DecidableEq, Repr

/-- The word for a kind of function. -/
def FunctionKind.name : FunctionKind → Text
  | plain => "function"
  | arrow => "arrow"

/-- A **function** of the program. -/
structure FunctionCell where
  /-- The names of its parameters. -/
  params : List Text
  /-- What a call evaluates: a block or an expression. -/
  body : Node
  /-- The frame in which it was made. -/
  scope : FrameRef
  /-- Its name, if it has one. -/
  name : Option Text
  /-- How it was written. -/
  kind : FunctionKind
  /-- The run during which it was made. -/
  run : Nat

/-- A **frame**. -/
structure FrameCell where
  /-- The object that holds the bindings. -/
  bindings : ObjectRef
  /-- The frame around it. -/
  parent : Option FrameRef
  /-- Whether it belongs to the call of a function. -/
  isFunction : Bool
  /-- The source text that is being run, where it is known. -/
  source : Option Text

/-- A **kind of objects of the host**. How an object is spelled and shown is the host's own
affair, and depends on which one it is and on its attributes. -/
structure HostKind where
  /-- What the host calls it. -/
  name : Text
  /-- The text of an object. -/
  text : HostRef → List (Text × Value) → Text
  /-- An object in the notation of the host. -/
  description : HostRef → List (Text × Value) → Text
  /-- The methods that objects have. -/
  methods : List Native

/-- An **object of the host**: attributes in the order in which they were added. -/
structure HostCell where
  /-- What kind of object it is. -/
  kind : HostKind
  /-- The attributes by name. -/
  attributes : List (Text × Value)

/-! ## The log -/

/-- How much a log record matters. -/
inductive LogLevel where
  | debug | warning
  deriving DecidableEq, Repr

/-- The part of the library that a log record comes from. -/
inductive Channel where
  | walk | access | assignment | operator | function | literal | collection | property | call
  | program
  deriving DecidableEq, Repr

/-- A **record** of the log. -/
structure LogRecord where
  /-- How much it matters. -/
  level : LogLevel
  /-- Where it comes from. -/
  channel : Channel
  /-- What it says. -/
  text : Text
  deriving DecidableEq, Repr

/-! ## The store itself -/

/-- The **store**. -/
structure Store where
  /-- The lists. -/
  lists : Array (List Value)
  /-- The objects. -/
  objects : Array Entries
  /-- The functions. -/
  functions : Array FunctionCell
  /-- The frames. -/
  frames : Array FrameCell
  /-- The objects of the host. -/
  hosts : Array HostCell
  /-- The log, the newest record first. -/
  log : List LogRecord
  /-- The number of identities handed out; the first is that of the empty tuple. -/
  identities : Nat
  /-- The number of runs begun. -/
  run : Nat
  /-- The characters that patterns may call by a name. They never change. -/
  characterNamed? : Text → Option CodePoint

namespace Store

/-- A store with nothing in it, for a host that knows the common names of characters. -/
def empty : Store := ⟨#[], #[], #[], #[], #[], [], 1, 0, Text.characterNamed?⟩

instance : Inhabited Store := ⟨empty⟩

/-- The items of a list. -/
def items (s : Store) (ref : ListRef) : List Value :=
  s.lists.getD ref []

/-- The entries of an object. -/
def entries (s : Store) (ref : ObjectRef) : Entries :=
  s.objects.getD ref []

/-- The attributes of an object of the host. -/
def attributes (s : Store) (ref : HostRef) : List (Text × Value) :=
  (s.hosts[ref]?.map HostCell.attributes).getD []

/-- The kinds of the objects of the host, place by place. -/
def hostKinds (s : Store) : Array HostKind :=
  s.hosts.map HostCell.kind

/-- The methods of an object of the host. -/
def hostMethods (s : Store) (ref : HostRef) : List Native :=
  (s.hostKinds[ref]?.map HostKind.methods).getD []

/-- How an object of the host is spelled or shown by its kind. -/
def hostShown (s : Store) (shown : HostKind → HostRef → List (Text × Value) → Text)
    (ref : HostRef) : Text :=
  (s.hosts[ref]?.map fun cell => shown cell.kind ref cell.attributes).getD []

/-- The store with other items in a list. -/
def setItems (s : Store) (ref : ListRef) (items : List Value) : Store :=
  { s with lists := s.lists.setIfInBounds ref items }

/-- The store with other entries in an object. -/
def setEntries (s : Store) (ref : ObjectRef) (entries : Entries) : Store :=
  { s with objects := s.objects.setIfInBounds ref entries }

/-- The store with another function in a place. -/
def setFunction (s : Store) (ref : FunctionRef) (cell : FunctionCell) : Store :=
  { s with functions := s.functions.setIfInBounds ref cell }

/-- The store with another frame in a place. -/
def setFrame (s : Store) (ref : FrameRef) (cell : FrameCell) : Store :=
  { s with frames := s.frames.setIfInBounds ref cell }

/-- The store with other attributes in an object of the host. -/
def setAttributes (s : Store) (ref : HostRef) (attributes : List (Text × Value)) : Store :=
  { s with hosts := s.hosts.modify ref fun cell => { cell with attributes := attributes } }

/-- A new list, and the store that holds it. -/
def newList (s : Store) (items : List Value) : ListRef × Store :=
  (s.lists.size, { s with lists := s.lists.push items })

/-- A new object, and the store that holds it. -/
def newObject (s : Store) (entries : Entries) : ObjectRef × Store :=
  (s.objects.size, { s with objects := s.objects.push entries })

/-- A new function, and the store that holds it. -/
def newFunction (s : Store) (cell : FunctionCell) : FunctionRef × Store :=
  (s.functions.size, { s with functions := s.functions.push cell })

/-- A new frame, and the store that holds it. -/
def newFrame (s : Store) (cell : FrameCell) : FrameRef × Store :=
  (s.frames.size, { s with frames := s.frames.push cell })

/-- A new object of the host, and the store that holds it. -/
def newHostCell (s : Store) (cell : HostCell) : HostRef × Store :=
  (s.hosts.size, { s with hosts := s.hosts.push cell })

/-- A new identity, and the store that has handed it out. -/
def newIdentity (s : Store) : Identity × Store :=
  (s.identities, { s with identities := s.identities + 1 })

/-- The store with one more record in the log. -/
def note (s : Store) (record : LogRecord) : Store :=
  { s with log := record :: s.log }

/-- The records of the log from the oldest to the newest. -/
def records (s : Store) : List LogRecord :=
  s.log.reverse

end Store

end Scriptlet
