import Scriptlet.Number.Numeral
import Scriptlet.Text.Quoted
import Scriptlet.Token.Error

/-!
# Syntax trees

A program is a tree of *branches* and *leaves*. A branch has a kind, which says
what part of a program it is, and children; a leaf has a label and a text, such
as a name or an operator. The type does not tie the number and the sort of the
children to the kind: the reader of programs builds only trees of the proper
shape, but a tree may also be put together by hand, and the walk over a tree has
an answer for every one of them. For the same reason a tree may hold a *stray*,
a value that is no part of a program at all.
-/

namespace Scriptlet

/-- What part of a program a branch is. -/
inductive Kind where
  | program | block | expressionStatement | empty | declaration | declarator | functionDeclaration
  | conditionalStatement | returnStatement | function | arrow | params | assign | conditional
  | binary | logical | unary | update | call | taggedTemplate | construct | member | arguments
  | spread | literal | identifier | this | array | hole | object | property | computedKey
  | template | templateChunk
  /-- No part of a program that the language has. -/
  | other (name : Text)
  deriving DecidableEq, Repr

namespace Kind

/-- The kinds that have a name of their own, with that name. -/
def named : List (Kind × Text) := List.map (fun (kind, name) => (kind, Text.ofString name))
  [(program, "program"), (block, "block"), (expressionStatement, "expr_stmt"), (empty, "empty"),
   (declaration, "var_decl"), (declarator, "declarator"), (functionDeclaration, "function_decl"),
   (conditionalStatement, "if"), (returnStatement, "return"), (function, "function"),
   (arrow, "arrow"), (params, "params"), (assign, "assign"), (conditional, "conditional"),
   (binary, "binary"), (logical, "logical"), (unary, "unary"), (update, "update"), (call, "call"),
   (taggedTemplate, "tagged_template"), (construct, "new"), (member, "member"),
   (arguments, "arguments"), (spread, "spread"), (literal, "literal"), (identifier, "identifier"),
   (this, "this"), (array, "array"), (hole, "hole"), (object, "object"), (property, "property"),
   (computedKey, "computed_key"), (template, "template"), (templateChunk, "template_chunk")]

/-- The name of a kind. -/
def name : Kind → Text
  | other name => name
  | kind => (named.lookup kind).getD []

/-- The kind of a given name. -/
def ofName (name : Text) : Kind :=
  match named.find? (·.2 == name) with
  | some (kind, _) => kind
  | none => other name

end Kind

/-- What sort of text a leaf holds. -/
inductive Label where
  | declarationWord | identifier | operator | number | string | regexp | trueWord | falseWord
  | nullWord | chunk
  /-- No sort that the language has. -/
  | other (name : Text)
  deriving DecidableEq, Repr

namespace Label

/-- The labels that have a name of their own, with that name. -/
def named : List (Label × Text) := List.map (fun (label, name) => (label, Text.ofString name))
  [(declarationWord, "KIND"), (identifier, "IDENT"), (operator, "OP"), (number, "NUMBER"),
   (string, "STRING"), (regexp, "REGEX"), (trueWord, "TRUE"), (falseWord, "FALSE"),
   (nullWord, "NULL"), (chunk, "CHUNK")]

/-- The name of a label. -/
def name : Label → Text
  | other name => name
  | label => (named.lookup label).getD []

/-- The label of a given name. -/
def ofName (name : Text) : Label :=
  match named.find? (·.2 == name) with
  | some (label, _) => label
  | none => other name

end Label

/-- The **position** of a node: a line and, unless it was put together by hand
without one, a column. -/
structure Position where
  /-- The line. -/
  line : Int
  /-- The column, from one. -/
  column : Option Int
  deriving DecidableEq, Repr

/-- The position at a place of a text. -/
def Position.ofPlace (place : Place) : Position :=
  ⟨place.line, some place.column⟩

/-- A value in a tree that is **no part of a program**. -/
inductive Stray where
  | null
  | bool (b : Bool)
  | int (n : Int)
  | decimal (literal : Text)
  | text (t : Text)
  deriving DecidableEq, Repr

/-- A **node** of a syntax tree. -/
inductive Node where
  /-- A part of a program, with its parts. -/
  | branch (kind : Kind) (position : Option Position) (children : List Node)
  /-- A name, an operator or another text of the program. -/
  | leaf (label : Label) (text : Text) (position : Position)
  /-- Something else. -/
  | stray (value : Stray)
  deriving Repr

/-! ## Sameness of nodes -/

mutual

/-- Whether two nodes are **the same**, positions included. -/
def Node.same : Node → Node → Bool
  | .branch kind position children, .branch kind' position' children' =>
    kind == kind' && position == position' && Node.sameAll children children'
  | .leaf label text position, .leaf label' text' position' =>
    label == label' && text == text' && position == position'
  | .stray value, .stray value' => value == value'
  | _, _ => false

/-- Whether nodes are the same one by one. -/
def Node.sameAll : List Node → List Node → Bool
  | [], [] => true
  | n :: rest, n' :: rest' => n.same n' && Node.sameAll rest rest'
  | _, _ => false

end

mutual

theorem Node.same_iff : ∀ {n m : Node}, n.same m = true ↔ n = m
  | .branch .., .branch .. => by simp [Node.same, Node.sameAll_iff, and_assoc]
  | .leaf .., .leaf .. => by simp [Node.same, and_assoc]
  | .stray _, .stray _ => by simp [Node.same]
  | .branch .., .leaf .. | .branch .., .stray _ | .leaf .., .branch .. | .leaf .., .stray _
  | .stray _, .branch .. | .stray _, .leaf .. => by simp [Node.same]

theorem Node.sameAll_iff : ∀ {nodes others : List Node},
    Node.sameAll nodes others = true ↔ nodes = others
  | [], [] => by simp [Node.sameAll]
  | _ :: _, _ :: _ => by simp [Node.sameAll, Node.same_iff, Node.sameAll_iff]
  | [], _ :: _ | _ :: _, [] => by simp [Node.sameAll]

end

instance : DecidableEq Node := fun _ _ => decidable_of_iff _ Node.same_iff

namespace Node

/-- The kind of a branch. -/
def kind? : Node → Option Kind
  | branch kind _ _ => some kind
  | _ => none

/-- The children of a branch; nothing else has any. -/
def children : Node → List Node
  | branch _ _ children => children
  | _ => []

/-- Whether the node is a leaf. -/
def isLeaf : Node → Bool
  | leaf .. => true
  | _ => false

/-- The position of a branch, where it has one. -/
def position? : Node → Option Position
  | branch _ position _ => position
  | _ => none

/-- The name in an identifier leaf. -/
def identifier? : Node → Option Text
  | leaf .identifier text _ => some text
  | _ => none

@[simp] theorem children_branch (k : Kind) (p : Option Position) (cs : List Node) :
    (branch k p cs).children = cs := rfl

@[simp] theorem kind?_branch (k : Kind) (p : Option Position) (cs : List Node) :
    (branch k p cs).kind? = some k := rfl

end Node

/-! ## Showing a node -/

/-- A stray as it is shown: plainly, or with quotes around a text. -/
def Stray.asText (quote : Bool) : Stray → Text
  | null => "None"
  | bool b => if b then "True" else "False"
  | int n => Text.ofInt n
  | decimal literal => literal
  | text t => if quote then t.quoted else t

mutual

/-- A node with its label or kind, in the notation of log records. -/
def Node.describe : Node → Text
  | .branch kind _ children =>
    "Tree(" ++ kind.name.quoted ++ ", [" ++ Node.describeAll children ++ "])"
  | .leaf label text _ => "Token(" ++ label.name.quoted ++ ", " ++ text.quoted ++ ")"
  | .stray value => value.asText true

/-- Nodes described one after another, with commas between them. -/
def Node.describeAll : List Node → Text
  | [] => []
  | [n] => n.describe
  | n :: m :: rest => n.describe ++ ", " ++ Node.describeAll (m :: rest)

end

/-- A node as text: a leaf is its own text. -/
def Node.asText : Node → Text
  | .leaf _ text _ => text
  | .stray value => value.asText false
  | node => node.describe

/-!
## Outlines

The outline of a tree has a line for each of its nodes, two spaces further in than
that of the node around it. Only a leaf that has no neighbours stands on the line of
the branch it belongs to, after a tab.
-/

/-- The blanks in front of a line. -/
def indent (depth : Nat) : Text :=
  List.replicate (2 * depth) ' '

mutual

/-- The **outline** of a node at a depth. -/
def Node.outlineAt (depth : Nat) : Node → Text
  | .branch kind _ children => indent depth ++ kind.name ++ Node.outlineChildren depth children
  | .leaf _ text _ => indent depth ++ text ++ "\n"
  | .stray value => indent depth ++ value.asText false ++ "\n"

/-- The rest of the line of a branch, and the outlines of its children. -/
def Node.outlineChildren (depth : Nat) : List Node → Text
  | [] => "\n"
  | [.leaf _ text _] => "\t" ++ text ++ "\n"
  | [.stray value] => "\t" ++ value.asText false ++ "\n"
  | [.branch kind position children] =>
    "\n" ++ Node.outlineAt (depth + 1) (.branch kind position children)
  | n :: m :: rest => "\n" ++ Node.outlineAt (depth + 1) n ++ Node.outlineAll (depth + 1) (m :: rest)

/-- The outlines of nodes one after another. -/
def Node.outlineAll (depth : Nat) : List Node → Text
  | [] => []
  | n :: rest => Node.outlineAt depth n ++ Node.outlineAll depth rest

end

/-- The **outline** of a tree. -/
def Node.outline (n : Node) : Text :=
  n.outlineAt 0

end Scriptlet
