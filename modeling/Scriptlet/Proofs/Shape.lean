import Scriptlet.Tree.Expression

/-!
# The shapes of nodes

The type of trees lets a node have any children. Which ones it ought to have is said
here, kind by kind, as one table: `Kind.admits`. A tree *conforms* if each of its
branches has children that its kind admits. The table also fixes the spellings of
operators, because the walk knows an operator by its spelling alone.

That a table is one function on kinds and children is what both sides lean on. The
reader of programs has to meet it at each node that it makes, and the walk over a
tree may rely on it wherever it takes a node apart.
-/

namespace Scriptlet

/-! ## Sorts of nodes -/

/-- The kinds that are **expressions**. -/
def Kind.isExpression : Kind → Bool
  | assign | conditional | binary | logical | unary | update | call | taggedTemplate | construct
  | member | literal | identifier | this | array | object | function | arrow | template => true
  | _ => false

/-- The kinds that are **statements**. -/
def Kind.isStatement : Kind → Bool
  | block | expressionStatement | empty | declaration | functionDeclaration
  | conditionalStatement | returnStatement => true
  | _ => false

namespace Node

/-- Whether the node is a branch of a given kind. -/
def isOf (n : Node) (kind : Kind) : Bool :=
  n.kind? == some kind

/-- Whether the node is an expression. -/
def isExpression (n : Node) : Bool :=
  n.kind?.any Kind.isExpression

/-- Whether the node is a statement. -/
def isStatement (n : Node) : Bool :=
  n.kind?.any Kind.isStatement

/-- Whether the node is a leaf with a given label. -/
def isLeafOf (n : Node) (label : Label) : Bool :=
  match n with
  | leaf other _ _ => other == label
  | _ => false

/-- Whether the node is a leaf with a given label and one of some texts. -/
def isLeafAmong (n : Node) (label : Label) (texts : List Text) : Bool :=
  n.isLeafOf label && texts.contains n.asText

/-- Whether the node may be the **body of a function**: a block or an expression. -/
def isBody (n : Node) : Bool :=
  n.isOf .block || n.isExpression

/-- Whether the node is an expression or one that is spread. -/
def isArgument (n : Node) : Bool :=
  n.isExpression || n.isOf .spread

/-- Whether the node may stand in a list literal. -/
def isElement (n : Node) : Bool :=
  n.isArgument || n.isOf .hole

/-- Whether the node is a **literal's leaf**. -/
def isLiteral (n : Node) : Bool :=
  match n with
  | leaf label _ _ =>
    [Label.number, .string, .regexp, .trueWord, .falseWord, .nullWord].contains label
  | _ => false

/-- Whether the node may be the **key of a property**. -/
def isKey (n : Node) : Bool :=
  n.isLeafOf .identifier || n.isLeafOf .string || n.isLeafOf .number || n.isOf .computedKey

end Node

/-! ## Spellings -/

/-- The words that a declaration starts with. -/
def declarationWords : List Text := List.map Text.ofString ["var", "let", "const"]

/-- The operators that stand before an operand, words among them. -/
def prefixOperators : List Text :=
  prefixSigns ++ List.map Text.ofString ["typeof", "void", "delete"]

/-- The operators that stand between operands and always look at both. -/
def strictOperators : List Text :=
  (precedences.map Prod.fst).filter fun op => !logicalOperators.contains op

/-- The signs of assignments. -/
def assignmentSigns : List Text :=
  (signs.filter fun sign => sign.2 == .assign).map Prod.fst

/-- The signs of steps by one. -/
def stepSigns : List Text := List.map Text.ofString ["++", "--"]

/-! ## The table -/

section Rows

variable (p q r : Node → Bool)

/-- Whether nodes are one of a sort, or one of the first of two sorts and perhaps one of
the second, and so on. -/
@[simp] def one : List Node → Bool
  | [a] => p a
  | _ => false

@[simp, inherit_doc one] def two : List Node → Bool
  | [a, b] => p a && q b
  | _ => false

@[simp, inherit_doc one] def three : List Node → Bool
  | [a, b, c] => p a && q b && r c
  | _ => false

@[simp, inherit_doc one] def upToOne : List Node → Bool
  | [] => true
  | [a] => p a
  | _ => false

@[simp, inherit_doc one] def oneOrTwo : List Node → Bool
  | [a] => p a
  | [a, b] => p a && q b
  | _ => false

@[simp, inherit_doc one] def twoOrThree : List Node → Bool
  | [a, b] => p a && q b
  | [a, b, c] => p a && q b && r c
  | _ => false

/-- Whether nodes are one of a sort and then some of another. -/
@[simp] def oneAndSome : List Node → Bool
  | a :: rest => p a && !rest.isEmpty && rest.all q
  | [] => false

end Rows

/-- Whether nodes are chunks of a template with **expressions between them**. -/
def alternates : List Node → Bool
  | [] => false
  | [chunk] => chunk.isOf .templateChunk
  | chunk :: expression :: rest =>
    chunk.isOf .templateChunk && expression.isExpression && alternates rest

/-- Whether a branch of a given kind **may have these children**. -/
def Kind.admits (kind : Kind) (children : List Node) : Bool :=
  match kind with
  | program | block => children.all Node.isStatement
  | expressionStatement | spread | computedKey => one Node.isExpression children
  | empty | this | hole => children.isEmpty
  | returnStatement => upToOne Node.isExpression children
  | declaration =>
    oneAndSome (·.isLeafAmong .declarationWord declarationWords) (·.isOf .declarator) children
  | declarator => oneOrTwo (·.isLeafOf .identifier) Node.isExpression children
  | functionDeclaration =>
    three (·.isLeafOf .identifier) (·.isOf .params) (·.isOf .block) children
  | function => twoOrThree (·.isOf .params) (·.isOf .block) (·.isLeafOf .identifier) children
  | arrow => two (·.isOf .params) Node.isBody children
  | params => children.all (·.isLeafOf .identifier)
  | conditionalStatement =>
    twoOrThree Node.isExpression Node.isStatement Node.isStatement children
  | literal => one Node.isLiteral children
  | identifier => one (·.isLeafOf .identifier) children
  | unary => two (·.isLeafAmong .operator prefixOperators) Node.isExpression children
  | binary =>
    three Node.isExpression (·.isLeafAmong .operator strictOperators) Node.isExpression children
  | logical =>
    three Node.isExpression (·.isLeafAmong .operator logicalOperators) Node.isExpression children
  | conditional => three Node.isExpression Node.isExpression Node.isExpression children
  | array => children.all Node.isElement
  | object => children.all (·.isOf .property)
  | property => two Node.isKey Node.isExpression children
  | member => two Node.isExpression (fun key => key.isLeafOf .identifier || key.isExpression) children
  | assign =>
    three Node.isTarget (·.isLeafAmong .operator assignmentSigns) Node.isExpression children
  | update => two (·.isLeafAmong .operator stepSigns) Node.isTarget children
  | call | construct => two Node.isExpression (·.isOf .arguments) children
  | arguments => children.all Node.isArgument
  | template => alternates children
  | templateChunk => one (·.isLeafOf .chunk) children
  | taggedTemplate => two Node.isExpression (·.isOf .template) children
  | other _ => false

/-- A tree that **conforms to the table**: each branch has children that its kind
admits. -/
inductive Node.Conforms : Node → Prop where
  /-- A leaf has no children. A regular expression has a slash, after which its flags
  stand. -/
  | leaf (label : Label) (text : Text) (position : Position)
      (slash : label = .regexp → text.contains '/' = true) : Conforms (.leaf label text position)
  /-- A branch with admitted children that conform. -/
  | branch (kind : Kind) (position : Option Position) (children : List Node)
      (admitted : kind.admits children = true) (below : ∀ n ∈ children, n.Conforms) :
      Conforms (.branch kind position children)

/-! ## What rows say of each node -/

section Rows

variable {p q r : Node → Bool} {row : List Node} {n : Node}

theorem of_mem_one (h : one p row = true) (hn : n ∈ row) : p n = true := by
  fun_cases one p row <;> simp_all

theorem of_mem_upToOne (h : upToOne p row = true) (hn : n ∈ row) : p n = true := by
  fun_cases upToOne p row <;> simp_all

theorem of_mem_tail_oneAndSome (h : oneAndSome p q row = true) (hn : n ∈ row.tail) :
    q n = true := by
  fun_cases oneAndSome p q row <;> simp_all

theorem of_mem_oneAndSome (h : oneAndSome p q row = true) (hn : n ∈ row) :
    p n = true ∨ q n = true := by
  fun_cases oneAndSome p q row <;> simp_all
  grind

theorem of_mem_tail_three (h : three p q r row = true) (hn : n ∈ row.tail) :
    q n = true ∨ r n = true := by
  fun_cases three p q r row <;> simp_all
  grind

theorem of_mem_tail_twoOrThree (h : twoOrThree p q r row = true) (hn : n ∈ row.tail) :
    q n = true ∨ r n = true := by
  fun_cases twoOrThree p q r row <;> simp_all
  grind

theorem of_mem_twoOrThree (h : twoOrThree p q r row = true) (hn : n ∈ row) :
    p n = true ∨ q n = true ∨ r n = true := by
  fun_cases twoOrThree p q r row <;> simp_all <;> grind

end Rows

namespace Node

/-! ## Reading the table -/

theorem isOf_iff {n : Node} {kind : Kind} :
    n.isOf kind = true ↔ ∃ position children, n = branch kind position children := by
  cases n <;> simp [isOf, kind?]

theorem isLeafOf_iff {n : Node} {label : Label} :
    n.isLeafOf label = true ↔ ∃ text position, n = leaf label text position := by
  cases n <;> simp [isLeafOf]

theorem isLeafAmong_iff {n : Node} {label : Label} {texts : List Text} :
    n.isLeafAmong label texts = true ↔
      ∃ text position, n = leaf label text position ∧ text ∈ texts := by
  rw [isLeafAmong, Bool.and_eq_true, isLeafOf_iff]
  constructor
  · rintro ⟨⟨text, position, rfl⟩, known⟩
    exact ⟨text, position, rfl, List.contains_iff_mem.mp known⟩
  · rintro ⟨text, position, rfl, known⟩
    exact ⟨⟨text, position, rfl⟩, List.contains_iff_mem.mpr known⟩

theorem isTarget_iff {n : Node} :
    n.isTarget = true ↔ n.isOf .identifier = true ∨ n.isOf .member = true := by
  simp [isTarget, isOf]

/-- What may be assigned to is an expression. -/
theorem isExpression_of_isTarget {n : Node} (h : n.isTarget = true) : n.isExpression = true := by
  cases n with
  | branch kind position children =>
    rcases isTarget_iff.mp h with h | h <;> simp_all [isOf, isExpression, Kind.isExpression]
  | leaf => simp [isTarget, kind?] at h
  | stray => simp [isTarget, kind?] at h

namespace Conforms

/-- The children of a branch that conforms are admitted. -/
theorem admits {kind : Kind} {position : Option Position} {children : List Node}
    (h : (Node.branch kind position children).Conforms) : kind.admits children = true := by
  cases h with | branch _ _ _ admitted _ => exact admitted

/-- The children of a branch that conforms conform. -/
theorem child {kind : Kind} {position : Option Position} {children : List Node}
    (h : (Node.branch kind position children).Conforms) {n : Node} (hn : n ∈ children) :
    n.Conforms := by
  cases h with | branch _ _ _ _ below => exact below n hn

/-- A regular expression that conforms has a slash. -/
theorem slash {text : Text} {position : Position}
    (h : (Node.leaf .regexp text position).Conforms) : text.contains '/' = true := by
  cases h with | leaf _ _ _ slash => exact slash rfl

end Conforms

end Node

end Scriptlet
