import Scriptlet.Call

/-!
# Shapes

A node of a program has children of a certain number and sort, by its kind. The walk
takes them apart here, and a node that was put together by hand and has another shape
ends it, with the fault that the host has then or with an error.
-/

namespace Scriptlet

namespace Step

/-- Ends because a node has not the shape of its kind. -/
def misshapen (f : HostFault) : Step α :=
  throw (.misshapen f)

/-- Two children. -/
def pair : List Node → Step (Node × Node)
  | [a, b] => return (a, b)
  | _ => misshapen .badValue

/-- Three children. -/
def triple : List Node → Step (Node × Node × Node)
  | [a, b, c] => return (a, b, c)
  | _ => misshapen .badValue

/-- The child at an index. -/
def child (children : List Node) (index : Nat) : Step Node :=
  match children[index]? with
  | some n => return n
  | none => misshapen .badIndex

/-- The first child, which must be a leaf: its label and text. -/
def leafChild (children : List Node) : Step (Label × Text) := do
  match ← child children 0 with
  | .leaf label text _ => return (label, text)
  | _ => misshapen .missingPart

/-- The children of a branch; nothing else has any. -/
def branchChildren : Node → Step (List Node)
  | .branch _ _ children => return children
  | _ => misshapen .missingPart

/-- The name in an identifier leaf; `what` says what has to be one. -/
def identifier (what : Text) (n : Node) : Step Text :=
  match n.identifier? with
  | some name => return name
  | none => error .misplacedNode (what ++ " must be an identifier")

end Step

end Scriptlet
