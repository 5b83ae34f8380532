import Scriptlet.Proofs.Shape
import Scriptlet.Proofs.Spelling

/-!
# Printing trees

A tree is printed as tokens that it can be read from again. Nothing is left to
precedence: each expression stands in parentheses of its own, statements end with their
semicolons, and no line ends anywhere. Only one thing cannot be put right in this way.
An alternate belongs to the nearest conditional statement before it, and there are no
parentheses around statements; so a conditional statement that has an alternate must not
have a consequent at whose end another one still waits for its own.

What is printed has no place in a text. Printed tokens, and nodes that are read from
tokens like them, are therefore compared regardless of their places.
-/

namespace Scriptlet

/-! ## Regardless of places -/

/-- A token **regardless of its place**. -/
def Token.unplaced (t : Token) : Token :=
  { t with line := 1, column := 1 }

mutual

/-- A tree **regardless of its place**. -/
@[simp] def Node.unplaced : Node → Node
  | .branch kind _ children => .branch kind none (Node.unplacedAll children)
  | .leaf label text _ => .leaf label text ⟨1, none⟩
  | .stray value => .stray value

/-- Trees regardless of their places. -/
@[simp] def Node.unplacedAll : List Node → List Node
  | [] => []
  | n :: rest => n.unplaced :: Node.unplacedAll rest

end

/-- A tree is **like** another if they are the same regardless of their places. -/
def Node.Alike (n m : Node) : Prop :=
  n.unplaced = m.unplaced

/-! ## What cannot be printed -/

/-- Whether a statement ends in a conditional statement that **could still take an
alternate**. -/
def Node.leavesElseOpen : Node → Bool
  | .branch .conditionalStatement _ [_, _] => true
  | .branch .conditionalStatement _ [_, _, alternate] => alternate.leavesElseOpen
  | _ => false

/-- Whether an alternate among the children of a branch is not taken by a conditional
statement further inside. -/
@[simp] def Kind.bindsElse : Kind → List Node → Bool
  | conditionalStatement, [_, consequent, _] => !consequent.leavesElseOpen
  | _, _ => true

/-- The kinds that need the **text of a template**. -/
def Kind.isOfTemplate : Kind → Bool
  | template | taggedTemplate => true
  | _ => false

mutual

/-- Whether a tree **can be printed**: it conforms to the table of shapes, it has no
templates, and each alternate is its own. -/
@[simp] def Node.isPrintable : Node → Bool
  | .branch kind _ children =>
    kind.admits children && !kind.isOfTemplate && kind.bindsElse children
      && Node.arePrintable children
  | _ => true

/-- Whether trees can be printed. -/
@[simp] def Node.arePrintable : List Node → Bool
  | [] => true
  | n :: rest => n.isPrintable && Node.arePrintable rest

end

namespace Node

theorem admits_of_isPrintable {kind : Kind} {position : Option Position} {children : List Node}
    (h : (branch kind position children).isPrintable = true) : kind.admits children = true := by
  simp only [isPrintable, Bool.and_eq_true] at h
  exact h.1.1.1

theorem isPrintable_of_arePrintable {ns : List Node} (h : arePrintable ns = true) :
    ∀ n ∈ ns, n.isPrintable = true := by
  induction ns with
  | nil => exact nofun
  | cons m rest ih =>
    obtain ⟨first, others⟩ := Bool.and_eq_true_iff.mp h
    exact List.forall_mem_cons.mpr ⟨first, ih others⟩

end Node

/-! ## Tokens -/

/-- A token with a text, at no place in particular. -/
def Token.plain (kind : TokenKind) (text : Text) : Token :=
  ⟨kind, text, 1, 1, false⟩

/-- The token of a **sign or word**. -/
def TokenKind.mark (kind : TokenKind) : Token :=
  .plain kind (((fixedTokens.find? fun entry => entry.2 == kind).map Prod.fst).getD [])

/-- The equals sign, as distinct from the other signs of assignments. -/
def equalsSign : Token :=
  .plain .assign "="

/-- The words, and the signs that operate on something. -/
def operators : List (Text × TokenKind) :=
  keywords ++ signs.filter fun sign =>
    [TokenKind.operator, .assign, .increment, .decrement].contains sign.2

/-- The kind of an operator. -/
def operatorKind (text : Text) : TokenKind :=
  (operators.lookup text).getD .operator

/-- The kind of the token that a **leaf** is printed as. -/
@[simp] def Label.tokenKind (label : Label) (text : Text) : TokenKind :=
  match label with
  | declarationWord | operator => operatorKind text
  | identifier | other _ => .identifier
  | number => .number
  | string => .string
  | regexp => .regexp
  | trueWord => .trueWord
  | falseWord => .falseWord
  | nullWord => .nullWord
  | chunk => .template

/-! ## Layouts -/

/-- Printed parts between an opening and a closing token. -/
def between (opening closing : TokenKind) (parts : List Token) : List Token :=
  opening.mark :: parts ++ [closing.mark]

@[simp] theorem length_between (opening closing : TokenKind) (parts : List Token) :
    (between opening closing parts).length = parts.length + 2 := by
  simp [between]

theorem between_append (opening closing : TokenKind) (parts rest : List Token) :
    between opening closing parts ++ rest = opening.mark :: (parts ++ closing.mark :: rest) := by
  simp [between]

/-- Printed parts with a token between neighbours. -/
def separated (separator : Token) (parts : List (List Token)) : List Token :=
  [separator].intercalate parts

@[simp] theorem separated_singleton (separator : Token) (part : List Token) :
    separated separator [part] = part :=
  List.intercalate_singleton

@[simp] theorem separated_cons_cons (separator : Token) (part next : List Token)
    (parts : List (List Token)) :
    separated separator (part :: next :: parts) =
      part ++ separator :: separated separator (next :: parts) := by
  simp [separated, List.intercalate_cons_cons]

/-- How the **printed parts of a branch** are put together. The key of a member is a
name, if it is a single token, and stands in brackets otherwise. -/
@[simp] def Kind.layout (kind : Kind) (parts : List (List Token)) : List Token :=
  match kind with
  | program | literal | identifier | unary | binary | logical | assign | update | call =>
    parts.flatten
  | block => between .leftBrace .rightBrace parts.flatten
  | expressionStatement | empty => parts.flatten ++ [TokenKind.semicolon.mark]
  | returnStatement => TokenKind.returnWord.mark :: parts.flatten ++ [TokenKind.semicolon.mark]
  | declaration =>
    parts.headD [] ++ separated TokenKind.comma.mark parts.tail ++ [TokenKind.semicolon.mark]
  | declarator => separated equalsSign parts
  | functionDeclaration => TokenKind.functionWord.mark :: parts.flatten
  | function =>
    TokenKind.functionWord.mark :: (parts.drop 2).flatten ++ (parts.take 2).flatten
  | arrow => separated TokenKind.arrow.mark parts
  | params | arguments =>
    between .leftParen .rightParen (separated TokenKind.comma.mark parts)
  | conditionalStatement =>
    TokenKind.ifWord.mark :: between .leftParen .rightParen (parts.headD [])
      ++ separated TokenKind.elseWord.mark parts.tail
  | conditional =>
    parts.headD [] ++ TokenKind.question.mark :: separated TokenKind.colon.mark parts.tail
  | this => [TokenKind.thisWord.mark]
  | array =>
    between .leftBracket .rightBracket
      (parts.map fun part => part ++ [TokenKind.comma.mark]).flatten
  | object => between .leftBrace .rightBrace (separated TokenKind.comma.mark parts)
  | property => separated TokenKind.colon.mark parts
  | computedKey => between .leftBracket .rightBracket parts.flatten
  | spread => TokenKind.spread.mark :: parts.flatten
  | member =>
    match parts with
    | [owner, [name]] => owner ++ [TokenKind.dot.mark, name]
    | [owner, key] => owner ++ between .leftBracket .rightBracket key
    | _ => []
  | construct => TokenKind.newWord.mark :: parts.flatten
  | hole | template | templateChunk | taggedTemplate | other _ => []

/-- Printed parts as a whole, in parentheses if they are an expression. -/
def Kind.enclose (kind : Kind) (parts : List Token) : List Token :=
  if kind.isExpression then between .leftParen .rightParen parts else parts

mutual

/-- A tree **printed**. -/
@[simp] def Node.print : Node → List Token
  | .branch kind _ children => kind.enclose (kind.layout (Node.printEach children))
  | .leaf label text _ => [.plain (label.tokenKind text) text]
  | .stray _ => []

/-- Trees printed, one by one. -/
@[simp] def Node.printEach : List Node → List (List Token)
  | [] => []
  | n :: rest => n.print :: Node.printEach rest

end

/-- What is no expression is printed without parentheses. -/
theorem Node.print_of_not_isExpression {kind : Kind} {position : Option Position}
    {children : List Node} (h : kind.isExpression = false) :
    (branch kind position children).print = kind.layout (printEach children) := by
  rw [print, Kind.enclose, h]
  rfl

theorem Node.printEach_eq_map (ns : List Node) : Node.printEach ns = ns.map Node.print := by
  induction ns with
  | nil => rfl
  | cons n ns ih => rw [printEach, ih, List.map_cons]

/-- A **program printed**, up to the end of the text. -/
def Program.print (program : Node) : List Token :=
  program.print ++ [TokenKind.endOfText.mark]

/-! ## Lengths -/

section Lengths

variable {ns : List Node} {n : Node}

/-- What is printed of a node is part of what is printed of all. -/
theorem Node.length_print_le (h : n ∈ ns) :
    n.print.length ≤ (Node.printEach ns).flatten.length := by
  rw [printEach_eq_map]
  exact (List.sublist_flatten_of_mem (List.mem_map_of_mem h)).length_le

/-- Separators make a list longer. -/
theorem length_flatten_le_separated (separator : Token) (parts : List (List Token)) :
    parts.flatten.length ≤ (separated separator parts).length := by
  induction parts with
  | nil => exact Nat.le_refl 0
  | cons part parts ih =>
    cases parts with
    | nil => simp
    | cons next parts =>
      rw [separated_cons_cons, List.flatten_cons, List.length_append, List.length_append,
        List.length_cons]
      omega

/-- Of each node something is printed, so there are no more nodes than tokens. -/
theorem Node.length_le_flatten (h : ∀ n ∈ ns, n.print ≠ []) :
    ns.length ≤ (Node.printEach ns).flatten.length := by
  induction ns with
  | nil => exact Nat.le_refl 0
  | cons n ns ih =>
    obtain ⟨first, others⟩ := List.forall_mem_cons.mp h
    have := List.length_pos_iff.mpr first
    have := ih others
    simp only [printEach, List.flatten_cons, List.length_append, List.length_cons]
    omega

end Lengths

end Scriptlet
