import Scriptlet.Proofs.Rereading

/-!
# The levels of expressions

An expression is read level by level: a reader of one level calls the reader of the next
and then looks whether its own operators follow. What is read at one level is therefore
read at all levels above it, if the tokens before and after it are no business of these
levels. Before it, that is an operator that stands in front of an operand, and after it
one that stands between operands.

The widest level looks further. It has to know an arrow from an expression in
parentheses, and to this end it goes through all that is between the parentheses. What
is printed has its brackets in pairs, so the search comes out at the right place.
-/

namespace Scriptlet

open Reader

/-! ## Brackets in pairs -/

/-- Tokens that **the search for an arrow passes over**: each bracket that is opened in
them is closed again. -/
def PassedOver (tokens : List Token) : Prop :=
  ∀ depth rest, arrowAhead (depth + 1) (tokens ++ rest) = arrowAhead (depth + 1) rest

/-- The kinds that do not concern the search for an arrow. -/
def TokenKind.isNeutral (kind : TokenKind) : Bool :=
  kind != .endOfText && !kind.isOpener && !kind.isCloser

namespace PassedOver

variable {xs ys : List Token} {parts : List (List Token)}

theorem nil : PassedOver [] := fun _ _ => rfl

theorem append (hx : PassedOver xs) (hy : PassedOver ys) : PassedOver (xs ++ ys) := by
  intro depth rest
  rw [List.append_assoc, hx, hy]

theorem cons {t : Token} (ht : t.kind.isNeutral = true) (h : PassedOver xs) :
    PassedOver (t :: xs) := by
  intro depth rest
  obtain ⟨⟨ends, opens⟩, closes⟩ : (t.kind ≠ .endOfText ∧ t.kind.isOpener = false) ∧
      t.kind.isCloser = false := by simpa [TokenKind.isNeutral] using ht
  rw [List.cons_append, arrowAhead]
  simp only [beq_eq_false_iff_ne.mpr ends, opens, closes, Bool.false_eq_true, if_false]
  exact h depth rest

theorem between {opening closing : TokenKind} (ho : opening.isOpener = true)
    (hc : closing.isCloser = true) (h : PassedOver xs) :
    PassedOver (Scriptlet.between opening closing xs) := by
  intro depth rest
  have opened : (opening.mark.kind == .endOfText) = false := by cases opening <;> first | rfl | cases ho
  have closed : (closing.mark.kind == .endOfText) = false := by cases closing <;> first | rfl | cases hc
  have unopened : closing.mark.kind.isOpener = false := by cases closing <;> first | rfl | cases hc
  have inner := h (depth + 1) (closing.mark :: rest)
  rw [between_append]
  rw [arrowAhead]
  simp only [opened, show opening.mark.kind.isOpener = true from ho, Bool.false_eq_true,
    if_false, if_true]
  rw [inner, arrowAhead]
  simp [closed, unopened, show closing.mark.kind.isCloser = true from hc]

theorem flatten (h : ∀ part ∈ parts, PassedOver part) : PassedOver parts.flatten := by
  induction parts with
  | nil => exact nil
  | cons part parts ih =>
    obtain ⟨first, others⟩ := List.forall_mem_cons.mp h
    exact first.append (ih others)

theorem separated {separator : Token} (hs : separator.kind.isNeutral = true)
    (h : ∀ part ∈ parts, PassedOver part) :
    PassedOver (Scriptlet.separated separator parts) := by
  induction parts with
  | nil => exact nil
  | cons part parts ih =>
    obtain ⟨first, others⟩ := List.forall_mem_cons.mp h
    cases parts with
    | nil => simpa using first
    | cons next parts =>
      rw [separated_cons_cons]
      exact first.append (.cons hs (ih others))

theorem headD (h : ∀ part ∈ parts, PassedOver part) : PassedOver (parts.headD []) := by
  cases parts with
  | nil => exact nil
  | cons part parts => exact h part List.mem_cons_self

end PassedOver

/-- **A layout keeps brackets in pairs.** -/
theorem Kind.layout_passedOver (kind : Kind) {parts : List (List Token)}
    (h : ∀ part ∈ parts, PassedOver part) : PassedOver (kind.layout parts) := by
  have all : PassedOver parts.flatten := .flatten h
  have tail : ∀ part ∈ parts.tail, PassedOver part := fun part hp => h part (List.mem_of_mem_tail hp)
  have mark {kind : TokenKind} (hk : kind.isNeutral = true) : PassedOver [kind.mark] := .cons hk .nil
  cases kind with
  | program | literal | identifier | unary | binary | logical | assign | update | call => exact all
  | block => exact .between rfl rfl all
  | expressionStatement | empty => exact all.append (mark rfl)
  | returnStatement => exact .cons rfl (all.append (mark rfl))
  | declaration => exact ((PassedOver.headD h).append (.separated rfl tail)).append (mark rfl)
  | declarator => exact .separated rfl h
  | functionDeclaration | spread | construct => exact .cons rfl all
  | function =>
    exact .cons rfl ((PassedOver.flatten fun part hp => h part (List.mem_of_mem_drop hp)).append
      (.flatten fun part hp => h part (List.mem_of_mem_take hp)))
  | arrow | property => exact .separated rfl h
  | params | arguments => exact .between rfl rfl (.separated rfl h)
  | conditionalStatement =>
    exact .cons rfl ((PassedOver.between rfl rfl (.headD h)).append (.separated rfl tail))
  | conditional => exact (PassedOver.headD h).append (.cons rfl (.separated rfl tail))
  | this => exact mark rfl
  | array =>
    refine .between rfl rfl (.flatten fun part hp => ?_)
    obtain ⟨element, he, rfl⟩ := List.mem_map.mp hp
    exact (h element he).append (mark rfl)
  | object => exact .between rfl rfl (.separated rfl h)
  | computedKey => exact .between rfl rfl all
  | member =>
    simp only [layout]
    split
    · rename_i owner name
      exact (h owner (by simp)).append (.cons rfl (h [name] (by simp)))
    · rename_i owner key _
      exact (h owner (by simp)).append (.between rfl rfl (h key (by simp)))
    · exact .nil
  | hole | template | templateChunk | taggedTemplate | other => exact .nil

/-- An operator is no bracket. -/
theorem operatorKind_isNeutral (text : Text) : (operatorKind text).isNeutral = true := by
  have known : ∀ entry ∈ operators, entry.2.isNeutral = true := by decide
  unfold operatorKind
  cases found : operators.lookup text with
  | none => rfl
  | some kind =>
    obtain ⟨before, after, same, -⟩ := List.lookup_eq_some_iff.mp found
    exact known (text, kind) (by rw [same]; simp)

theorem Label.tokenKind_isNeutral (label : Label) (text : Text) :
    (label.tokenKind text).isNeutral = true := by
  cases label with
  | declarationWord | operator => exact operatorKind_isNeutral text
  | _ => rfl

mutual

/-- **What is printed has its brackets in pairs.** -/
theorem Node.print_passedOver : ∀ n : Node, PassedOver n.print
  | .branch kind _ children => by
    have parts := kind.layout_passedOver (Node.printEach_passedOver children)
    simp only [Node.print, Kind.enclose]
    split
    · exact .between rfl rfl parts
    · exact parts
  | .leaf label text _ => .cons (label.tokenKind_isNeutral text) .nil
  | .stray _ => .nil

theorem Node.printEach_passedOver : ∀ (ns : List Node), ∀ part ∈ Node.printEach ns, PassedOver part
  | [], _, hp => nomatch hp
  | n :: rest, part, hp => by
    rcases List.mem_cons.mp hp with rfl | hp
    · exact n.print_passedOver
    · exact Node.printEach_passedOver rest part hp

end

/-! ## Is there an arrow? -/

section Arrow

variable {t u : Token} {parts rest : List Token}

/-- The search for an arrow does not go by places. -/
theorem arrowAhead_unplaced (depth : Nat) (tokens : List Token) :
    arrowAhead depth (tokens.map Token.unplaced) = arrowAhead depth tokens := by
  induction tokens generalizing depth with
  | nil => rfl
  | cons t rest ih =>
    have next : (rest.map Token.unplaced).head?.any (fun next => next.kind == TokenKind.arrow && !next.newlineBefore) =
        rest.head?.any fun next => next.kind == .arrow && !next.newlineBefore := by
      cases rest <;> rfl
    rw [List.map_cons, arrowAhead, arrowAhead, ih, ih, ih, next]
    rfl

/-- No arrow starts with anything but a name or a parenthesis. -/
theorem checkArrow_reads (name : t.kind ≠ .identifier) (paren : t.kind ≠ .leftParen) :
    checkArrow.Reads (t :: rest) (· = false) (t :: rest) := by
  refine .current_bind fun actual same => ?_
  subst same
  split
  · rename_i found
    exact absurd found name
  · rename_i found
    exact absurd found paren
  · exact .pure rfl

/-- After a name **there is an arrow or not**. -/
theorem checkArrow_reads_name (name : t.kind = .identifier) :
    checkArrow.Reads (t :: u :: rest) (· = (u.kind == .arrow)) (t :: u :: rest) := by
  refine .current_bind fun actual same => ?_
  subst same
  split
  · refine .peek_bind fun second hu => .pure ?_
    subst hu
    rfl
  · rename_i found
    exact absurd (name.symm.trans found) nofun
  · rename_i other _
    exact absurd name other

/-- After what is printed in parentheses **there is an arrow or not**. -/
theorem checkArrow_reads_parens (h : PassedOver parts) :
    checkArrow.Reads (between .leftParen .rightParen parts ++ t :: rest)
      (· = (t.kind == .arrow && !t.newlineBefore))
      (between .leftParen .rightParen parts ++ t :: rest) := by
  have ahead : arrowAhead 0 (between .leftParen .rightParen parts ++ t :: rest) =
      (t.kind == .arrow && !t.newlineBefore) := by
    have inner := h 0 (TokenKind.rightParen.mark :: t :: rest)
    rw [between_append]
    exact inner
  refine .current_bind fun actual same => ?_
  have paren : actual.kind = .leftParen := congrArg Token.kind same
  split
  · rename_i found
    exact absurd (paren.symm.trans found) nofun
  · refine .get_bind fun tokens hs => .pure ?_
    rw [← arrowAhead_unplaced, hs]
    exact ahead
  · rename_i other
    exact absurd paren other

end Arrow

/-! ## What ends what -/

/-- The kinds of tokens **before which an expression ends**. -/
def TokenKind.endsExpression : TokenKind → Bool
  | rightParen | rightBracket | rightBrace | comma | colon | semicolon | endOfText => true
  | _ => false

/-- The kinds of tokens **before which an operand ends**: another operator, or the end of
the expression. -/
def TokenKind.endsOperand : TokenKind → Bool
  | operator | inWord | instanceofWord | question | assign => true
  | kind => kind.endsExpression

/-- The kinds of tokens that **an operand starts with**, without operators before it. -/
def TokenKind.opensOperand : TokenKind → Bool
  | number | string | regexp | trueWord | falseWord | nullWord | identifier | thisWord | newWord
  | functionWord | leftParen | leftBracket | leftBrace => true
  | _ => false

namespace TokenKind

variable {kind other : TokenKind}

/-- A kind is not another one if only one of them has a property. -/
theorem ne_of {p : TokenKind → Bool} (h : p kind = true) (ho : p other = false) : kind ≠ other := by
  rintro rfl
  rw [h] at ho
  cases ho

theorem endsOperand_of_endsExpression (h : kind.endsExpression = true) :
    kind.endsOperand = true := by
  cases kind <;> first | rfl | cases h

end TokenKind

/-- What ends an expression is no operator between operands. -/
theorem precedence?_eq_none {t : Token} (h : t.kind.endsExpression = true) :
    precedence? t = none := by
  unfold precedence?
  split
  · rename_i found
    exact absurd found (TokenKind.ne_of h rfl)
  · rename_i found
    exact absurd found (TokenKind.ne_of h rfl)
  · rename_i found
    exact absurd found (TokenKind.ne_of h rfl)
  · rfl

/-- What starts an operand does not stand before one. -/
theorem isPrefixOperator_eq_false {t : Token} (h : t.kind.opensOperand = true) :
    isPrefixOperator t = false := by
  unfold isPrefixOperator
  split
  · rename_i found
    exact absurd found (TokenKind.ne_of h rfl)
  · rename_i found
    exact absurd found (TokenKind.ne_of h rfl)
  · rename_i found
    exact absurd found (TokenKind.ne_of h rfl)
  · rename_i found
    exact absurd found (TokenKind.ne_of h rfl)
  · rfl

/-- Neither what ends an operand nor what starts one is a step. -/
theorem not_step {kind : TokenKind} (h : kind.endsOperand = true ∨ kind.opensOperand = true) :
    (kind == .increment || kind == .decrement) = false := by
  cases kind <;> first | rfl | exact h.elim nofun nofun

/-! ## From level to level -/

section Levels

variable {rules : Rules} {n : Node} {P : Node → Prop} {s t : Token} {tokens rest : List Token}
  {least : Nat}

theorem checkStep_reads (ht : (t.kind == .increment || t.kind == .decrement) = false) :
    checkStep.Reads (t :: rest) (· = false) (t :: rest) := by
  refine .current_bind fun actual same => .pure ?_
  subst same
  exact ht

/-- No call follows before the end of an operand. -/
theorem readCalls_reads {start : Token} {room : Nat} (ht : t.kind.endsOperand = true) :
    (readCalls rules start (room + 1) n).Reads (t :: rest) (n = ·) (t :: rest) :=
  .check_else (TokenKind.ne_of ht rfl) <| .check_else (TokenKind.ne_of ht rfl) <|
    .check_else (TokenKind.ne_of ht rfl) <| .check_else (TokenKind.ne_of ht rfl) <| .pure rfl

theorem readCallMember_reads (ht : t.kind.endsOperand = true)
    (h : (readHead rules (readConstruct rules)).Reads (s :: tokens) P (t :: rest)) :
    (readCallMember rules).Reads (s :: tokens) P (t :: rest) := by
  refine .current_bind fun start _ => h.bind fun given hgiven => .room_bind ?_
  refine Reads.mono (readCalls_reads ht) fun called same => ?_
  exact same ▸ hgiven

theorem readPostfix_reads (ht : t.kind.endsOperand = true)
    (h : (readCallMember rules).Reads (s :: tokens) P (t :: rest)) :
    (readPostfix rules).Reads (s :: tokens) P (t :: rest) := by
  refine .current_bind fun start _ => h.bind fun given hgiven => ?_
  refine (checkStep_reads (not_step (.inl ht))).bind ?_
  rintro _ rfl
  refine .current_bind fun next _ => ?_
  rw [Bool.false_and, if_neg nofun]
  exact .pure hgiven

theorem readUnary_reads (hs : s.kind.opensOperand = true)
    (h : (readPostfix rules).Reads (s :: tokens) P (t :: rest)) :
    (readUnary rules).Reads (s :: tokens) P (t :: rest) := by
  refine .current_bind fun start same => ?_
  subst same
  have operand : isPrefixOperator start = false := isPrefixOperator_eq_false (t := start) hs
  rw [if_neg (by rw [operand]; nofun)]
  refine (checkStep_reads (not_step (.inr hs))).bind ?_
  rintro _ rfl
  exact h

/-- No operator follows before the end of an expression. -/
theorem readOperators_reads {start : Token} {room : Nat} (ht : precedence? t = none) :
    (readOperators rules least start (room + 1) n).Reads (t :: rest) (n = ·) (t :: rest) := by
  rw [readOperators]
  refine .current_bind fun next same => ?_
  subst same
  rw [show precedence? next = none from ht]
  exact .pure rfl

theorem readBinary_reads (ht : precedence? t = none)
    (h : (readUnary rules).Reads (s :: tokens) P (t :: rest)) :
    (readBinary rules least).Reads (s :: tokens) P (t :: rest) := by
  refine .current_bind fun start _ => h.bind fun given hgiven => .room_bind ?_
  refine Reads.mono (readOperators_reads ht) fun operated same => ?_
  exact same ▸ hgiven

theorem readConditional_reads (ht : t.kind ≠ .question)
    (h : (readBinary rules 1).Reads (s :: tokens) P (t :: rest)) :
    (readConditional rules).Reads (s :: tokens) P (t :: rest) :=
  .current_bind fun _ _ => h.bind fun _ hgiven => .accept_else ht (.pure hgiven)

theorem readExpression_reads (ht : t.kind ≠ .assign)
    (arrow : checkArrow.Reads (s :: tokens) (· = false) (s :: tokens))
    (h : (readConditional rules).Reads (s :: tokens) P (t :: rest)) :
    (readExpression rules).Reads (s :: tokens) P (t :: rest) := by
  refine arrow.bind ?_
  rintro _ rfl
  exact .current_bind fun _ _ => h.bind fun _ hgiven => .check_else ht (.pure hgiven)

/-- **From operands with their operators to whole expressions.** -/
theorem readExpression_reads_unary (ht : t.kind.endsExpression = true)
    (arrow : checkArrow.Reads (s :: tokens) (· = false) (s :: tokens))
    (h : (readUnary rules).Reads (s :: tokens) P (t :: rest)) :
    (readExpression rules).Reads (s :: tokens) P (t :: rest) :=
  readExpression_reads (TokenKind.ne_of ht rfl) arrow <|
    readConditional_reads (TokenKind.ne_of ht rfl) <|
      readBinary_reads (precedence?_eq_none ht) h

/-- **From members and calls to operands.** -/
theorem readUnary_reads_callMember (hs : s.kind.opensOperand = true)
    (ht : t.kind.endsOperand = true)
    (h : (readCallMember rules).Reads (s :: tokens) P (t :: rest)) :
    (readUnary rules).Reads (s :: tokens) P (t :: rest) :=
  readUnary_reads hs (readPostfix_reads ht h)

/-- **From primary expressions to members and calls.** -/
theorem readHead_reads {construct : Reader Node} (hs : s.kind ≠ .newWord)
    (h : (readPrimary rules).Reads (s :: tokens) P (t :: rest)) :
    (readHead rules construct).Reads (s :: tokens) P (t :: rest) :=
  .check_else hs h

end Levels

/-! ## Expressions in parentheses -/

/-- An expression is **read as an operand**, whatever follows it. -/
def Node.ReadsOperand (rules : Rules) (e : Node) : Prop :=
  e.isExpression = true ∧
    ∀ t rest, (readPrimary rules).Reads (e.print ++ t :: rest) e.Alike (t :: rest)

/-- An expression is printed in parentheses. -/
theorem Node.print_of_isExpression {e : Node} (h : e.isExpression = true) :
    ∃ parts, e.print = between .leftParen .rightParen parts ∧ PassedOver parts := by
  cases e with
  | branch kind position children =>
    have he : kind.isExpression = true := h
    refine ⟨kind.layout (Node.printEach children), ?_,
      kind.layout_passedOver (Node.printEach_passedOver children)⟩
    rw [Node.print, Kind.enclose, if_pos he]
  | leaf | stray => cases h

namespace Node.ReadsOperand

variable {rules : Rules} {e : Node} {t : Token} {rest : List Token}

theorem head {construct : Reader Node} (h : e.ReadsOperand rules) :
    (readHead rules construct).Reads (e.print ++ t :: rest) e.Alike (t :: rest) := by
  obtain ⟨parts, printed, -⟩ := e.print_of_isExpression h.1
  have reads := h.2 t rest
  rw [printed] at reads ⊢
  exact readHead_reads nofun reads

theorem unary (h : e.ReadsOperand rules) (ht : t.kind.endsOperand = true) :
    (readUnary rules).Reads (e.print ++ t :: rest) e.Alike (t :: rest) := by
  obtain ⟨parts, printed, -⟩ := e.print_of_isExpression h.1
  have reads : (readHead rules (readConstruct rules)).Reads (e.print ++ t :: rest) e.Alike
    (t :: rest) := h.head
  rw [printed] at reads ⊢
  exact readUnary_reads_callMember rfl ht (readCallMember_reads ht reads)

/-- No arrow starts with an expression, unless an arrow follows. -/
theorem checkArrow_reads (h : e.isExpression = true) (ht : t.kind ≠ .arrow) :
    checkArrow.Reads (e.print ++ t :: rest) (· = false) (e.print ++ t :: rest) := by
  obtain ⟨parts, printed, balanced⟩ := e.print_of_isExpression h
  rw [printed]
  have none : (t.kind == .arrow && !t.newlineBefore) = false := by
    rw [beq_eq_false_iff_ne.mpr ht, Bool.false_and]
  exact none ▸ checkArrow_reads_parens balanced

theorem expression (h : e.ReadsOperand rules) (ht : t.kind.endsExpression = true) :
    (readExpression rules).Reads (e.print ++ t :: rest) e.Alike (t :: rest) := by
  have arrow : checkArrow.Reads (e.print ++ t :: rest) (· = false) (e.print ++ t :: rest) :=
    checkArrow_reads h.1 (TokenKind.ne_of ht rfl)
  have reads : (readUnary rules).Reads (e.print ++ t :: rest) e.Alike (t :: rest) :=
    h.unary (TokenKind.endsOperand_of_endsExpression ht)
  obtain ⟨parts, printed, -⟩ := e.print_of_isExpression h.1
  rw [printed] at arrow reads ⊢
  exact readExpression_reads_unary ht arrow reads

end Node.ReadsOperand

end Scriptlet
