import Scriptlet.Proofs.Depth
import Scriptlet.Proofs.Printing

/-!
# How operators group

Operators between operands are read by one loop, which calls itself for what stands to the
right of an operator and is told there from which precedence on to take operators in. What it
comes to is a *grouping* of the operators, and this can be said without the loop: whatever
stands to the left of an operator binds at least as tightly as the operator does, and what
stands to its right binds more tightly, or the other way round if the operator groups from the
right.

That a row of operands and operators has no other such grouping, and that the loop finds it,
both come from one fact about the table of precedences (`leastLeft_le_iff`). Of two operators
in a row, either the second may take what the first has made for its left operand, or the
first has to leave the second to its right one, and never both.
-/

namespace Scriptlet

open Reader

/-! ## Operators and operands -/

/-- The kinds of tokens that are **an operand** by themselves. -/
def TokenKind.isOperand : TokenKind → Bool
  | identifier | number | string | thisWord | trueWord | falseWord | nullWord => true
  | _ => false

namespace Token

/-- The node of a token that is an operand by itself. -/
def operand (t : Token) : Node :=
  match literalLabel? t.kind with
  | some label => Node.make .literal [Node.ofToken label t] t
  | none =>
    if t.kind == .thisWord then Node.make .this [] t
    else Node.make .identifier [Node.ofToken .identifier t] t

/-- The precedence of an operator between operands. -/
def precedence (t : Token) : Nat :=
  (precedence? t).getD 0

/-- Whether an operator **groups from the right** with its equals, as only `**` does. -/
def groupsRight (t : Token) : Bool :=
  t.text == "**"

/-- The least precedence that the left operand of an operator may have at its root. -/
def leastLeft (t : Token) : Nat :=
  if t.groupsRight then t.precedence + 1 else t.precedence

/-- The least precedence that the right operand of an operator may have at its root. -/
def leastRight (t : Token) : Nat :=
  if t.groupsRight then t.precedence else t.precedence + 1

/-- The kind of the node of an operator. The logical ones are `&&`, `||` and `??`. -/
def operationKind (t : Token) : Kind :=
  if t.text == "&&" || t.text == "||" || t.text == "??" then .logical else .binary

/-- A token **is an operator** between operands if it has a precedence. -/
def IsOperator (t : Token) : Prop :=
  (precedence? t).isSome = true

instance (t : Token) : Decidable t.IsOperator :=
  inferInstanceAs (Decidable ((precedence? t).isSome = true))

/-- The table of the grammar **has `**`** and nothing else. -/
theorem contains_rightOperators (t : Token) : rightOperators.contains t.text = t.groupsRight :=
  Bool.or_false _

/-- The table of the grammar **has `&&`, `||` and `??`** and nothing else. -/
theorem contains_logicalOperators (t : Token) :
    (if logicalOperators.contains t.text then Kind.logical else .binary) = t.operationKind := by
  rw [operationKind, Bool.or_assoc, logicalOperators, List.contains_cons, List.contains_cons,
    List.contains_cons, List.contains_nil, Bool.or_false]

variable {t u : Token}

theorem IsOperator.precedence?_eq (h : t.IsOperator) : precedence? t = some t.precedence := by
  obtain ⟨p, same⟩ := Option.isSome_iff_exists.mp h
  rw [precedence, same]
  rfl

/-- An operator has its precedence from the table. -/
theorem IsOperator.mem_precedences (h : t.IsOperator) : (t.text, t.precedence) ∈ precedences := by
  have looked : precedences.lookup t.text = some t.precedence := by
    rw [← h.precedence?_eq]
    unfold IsOperator at h
    unfold precedence? at h ⊢
    split at h
    · rfl
    · rfl
    · rfl
    · cases h
  obtain ⟨before, after, same, -⟩ := List.lookup_eq_some_iff.mp looked
  rw [same]
  exact List.mem_append_right _ List.mem_cons_self

/-- No precedence is zero. -/
theorem IsOperator.precedence_pos (h : t.IsOperator) : 0 < t.precedence := by
  have all : ∀ entry ∈ precedences, 0 < entry.2 := by decide
  exact all _ h.mem_precedences

/-- Operators of equal precedence group from the same side. -/
theorem IsOperator.groupsRight_eq (h : t.IsOperator) (h' : u.IsOperator)
    (same : t.precedence = u.precedence) : t.groupsRight = u.groupsRight := by
  have all : ∀ entry ∈ precedences, ∀ entry' ∈ precedences, entry.2 = entry'.2 →
      (entry.1 == "**") = (entry'.1 == "**") := by decide
  exact all _ h.mem_precedences _ h'.mem_precedences same

/-- **Either the second operator takes the first for its left operand, or the first leaves the
second to its right one.** -/
theorem IsOperator.leastLeft_le_iff (h : t.IsOperator) (h' : u.IsOperator) :
    u.leastLeft ≤ t.precedence ↔ u.precedence < t.leastRight := by
  have equal := h.groupsRight_eq h'
  unfold leastLeft leastRight
  cases ht : t.groupsRight <;> cases hu : u.groupsRight <;>
    rw [ht, hu] at equal <;> simp only [Bool.false_eq_true, if_true, if_false]
  · omega
  · have : t.precedence ≠ u.precedence := fun same => nomatch equal same
    omega
  · have : t.precedence ≠ u.precedence := fun same => nomatch equal same
    omega
  · omega

theorem precedence_le_leastLeft (t : Token) : t.precedence ≤ t.leastLeft := by
  unfold leastLeft
  split <;> omega

theorem precedence_le_leastRight (t : Token) : t.precedence ≤ t.leastRight := by
  unfold leastRight
  split <;> omega

end Token

/-! ## Groupings -/

/-- A **grouping** of operators and operands: an operand, or an operator between two
groupings. -/
inductive Grouping where
  | operand (t : Token)
  | operation (left : Grouping) (operator : Token) (right : Grouping)

/-- A row of operators, each with the operand behind it, as tokens. -/
def row (pairs : List (Token × Token)) : List Token :=
  pairs.flatMap fun pair => [pair.1, pair.2]

theorem length_row (pairs : List (Token × Token)) : (row pairs).length = 2 * pairs.length := by
  induction pairs with
  | nil => rfl
  | cons pair pairs ih =>
    have : (row (pair :: pairs)).length = (row pairs).length + 2 := rfl
    rw [this, ih, List.length_cons]
    omega

namespace Grouping

/-- The tokens of a grouping **in order**. -/
def inOrder : Grouping → List Token
  | operand t => [t]
  | operation left operator right => left.inOrder ++ [operator] ++ right.inOrder

/-- The precedence of the operator at the root. -/
def root? : Grouping → Option Nat
  | operand _ => none
  | operation _ operator _ => some operator.precedence

/-- The first operand. -/
def first : Grouping → Token
  | operand t => t
  | operation left _ _ => left.first

/-- The operators, each with the operand directly behind it. -/
def pairs : Grouping → List (Token × Token)
  | operand _ => []
  | operation left operator right => left.pairs ++ (operator, right.first) :: right.pairs

/-- The tree of a grouping. Each of its nodes stands where its first operand does. -/
def node : Grouping → Node
  | operand t => t.operand
  | operation left operator right =>
    Node.make operator.operationKind [left.node, Node.ofToken .operator operator, right.node]
      left.first

/-- A grouping **binds** at least so tightly, if it has an operator at all. -/
def Binds (least : Nat) (g : Grouping) : Prop :=
  ∀ p ∈ g.root?, least ≤ p

instance (least : Nat) (g : Grouping) : Decidable (g.Binds least) :=
  inferInstanceAs (Decidable (∀ p ∈ g.root?, least ≤ p))

/-- A grouping **is proper** if what is on either side of an operator binds as tightly as the
operator asks of this side. -/
def IsProper : Grouping → Prop
  | operand _ => True
  | operation left operator right =>
    left.IsProper ∧ right.IsProper ∧ left.Binds operator.leastLeft ∧ right.Binds operator.leastRight

instance decidableIsProper : (g : Grouping) → Decidable g.IsProper
  | operand _ => isTrue trivial
  | operation left operator right =>
    have := decidableIsProper left
    have := decidableIsProper right
    inferInstanceAs (Decidable (left.IsProper ∧ right.IsProper ∧ left.Binds operator.leastLeft
      ∧ right.Binds operator.leastRight))

variable {g g' : Grouping} {least : Nat}

theorem root?_operation (left : Grouping) (operator : Token) (right : Grouping) :
    (operation left operator right).root? = some operator.precedence := rfl

theorem binds_operand (t : Token) : (operand t).Binds least := by
  intro p hp
  cases hp

theorem binds_operation {left right : Grouping} {operator : Token} :
    (operation left operator right).Binds least ↔ least ≤ operator.precedence := by
  unfold Binds
  rw [root?_operation]
  exact ⟨fun h => h operator.precedence rfl, fun h p hp => Option.some.inj hp ▸ h⟩

theorem inOrder_eq (g : Grouping) : g.inOrder = g.first :: row g.pairs := by
  induction g with
  | operand t => rfl
  | operation left operator right ihl ihr =>
    rw [inOrder, ihl, ihr, first, pairs]
    simp [row]

/-- A row of pairs is known by its tokens. -/
theorem row_injective {pairs pairs' : List (Token × Token)} (h : row pairs = row pairs') :
    pairs = pairs' := by
  induction pairs generalizing pairs' with
  | nil =>
    cases pairs' with
    | nil => rfl
    | cons => cases h
  | cons pair rest ih =>
    cases pairs' with
    | nil => cases h
    | cons pair' rest' =>
      obtain ⟨operator, behind⟩ := List.cons.inj h
      obtain ⟨operand, rest⟩ := List.cons.inj behind
      rw [Prod.ext operator operand, ih rest]

theorem Binds.mono {more : Nat} (h : g.Binds more) (le : least ≤ more) : g.Binds least :=
  fun p hp => Nat.le_trans le (h p hp)

/-- **All operators of a proper grouping** bind as tightly as the one at its root. -/
theorem IsProper.le_precedence (h : g.IsProper) (binds : g.Binds least) :
    ∀ pair ∈ g.pairs, least ≤ pair.1.precedence := by
  induction g generalizing least with
  | operand t =>
    intro pair member
    cases member
  | operation left operator right ihl ihr =>
    obtain ⟨hl, hr, bl, br⟩ := h
    have here := binds_operation.mp binds
    intro pair member
    rcases List.mem_append.mp member with member | member
    · exact ihl hl (bl.mono (Nat.le_trans here operator.precedence_le_leastLeft)) pair member
    rcases List.mem_cons.mp member with rfl | member
    · exact here
    · exact ihr hr (br.mono (Nat.le_trans here operator.precedence_le_leastRight)) pair member

/-- Two proper groupings of one row do not have the operator of the one **to the left of** that
of the other. -/
theorem IsProper.not_shifted {left right left' right' : Grouping} {operator operator' : Token}
    {between behind : List (Token × Token)}
    (h : (operation left operator right).IsProper) (h' : (operation left' operator' right').IsProper)
    (here : operator.IsOperator) (here' : operator'.IsOperator)
    (longer : left'.pairs = left.pairs ++ (operator, right.first) :: between)
    (shorter : right.pairs = between ++ (operator', right'.first) :: behind) : False := by
  have within : operator'.leastLeft ≤ operator.precedence := by
    refine h'.1.le_precedence h'.2.2.1 (operator, right.first) ?_
    rw [longer]
    exact List.mem_append_right _ List.mem_cons_self
  have within' : operator.leastRight ≤ operator'.precedence := by
    refine h.2.1.le_precedence h.2.2.2 (operator', right'.first) ?_
    rw [shorter]
    exact List.mem_append_right _ List.mem_cons_self
  have := (here.leastLeft_le_iff here').mp within
  omega

/-- **A row has one proper grouping at most.** -/
theorem IsProper.unique (h : g.IsProper) (h' : g'.IsProper) (first : g.first = g'.first)
    (pairs : g.pairs = g'.pairs) (operators : ∀ pair ∈ g.pairs, pair.1.IsOperator) : g = g' := by
  induction g generalizing g' with
  | operand t =>
    cases g' with
    | operand t' => exact congrArg operand first
    | operation left' operator' right' => simp [Grouping.pairs] at pairs
  | operation left operator right ihl ihr =>
    cases g' with
    | operand t' => simp [Grouping.pairs] at pairs
    | operation left' operator' right' =>
      have here : operator.IsOperator :=
        operators (operator, right.first) (List.mem_append_right _ List.mem_cons_self)
      have here' : operator'.IsOperator := by
        rw [pairs] at operators
        exact operators (operator', right'.first) (List.mem_append_right _ List.mem_cons_self)
      rw [Grouping.pairs, Grouping.pairs] at pairs
      have aligned (before : left.pairs = left'.pairs)
          (rest : (operator, right.first) :: right.pairs = (operator', right'.first) :: right'.pairs) :
          operation left operator right = operation left' operator' right' := by
        obtain ⟨same, behind⟩ := List.cons.inj rest
        obtain ⟨rfl, begins⟩ := Prod.mk.inj same
        rw [ihl h.1 h'.1 first before fun pair member => operators pair (List.mem_append_left _ member),
          ihr h.2.1 h'.2.1 begins behind fun pair member =>
            operators pair (List.mem_append_right _ (List.mem_cons_of_mem _ member))]
      -- Of two roots one would stand to the left of the other, which neither grouping allows.
      rcases List.append_eq_append_iff.mp pairs with ⟨between, longer, same⟩ | ⟨between, longer, same⟩
      · cases between with
        | nil => exact aligned (longer.trans (List.append_nil _)).symm same
        | cons pair between =>
          obtain ⟨rfl, shorter⟩ := List.cons.inj same
          exact (h.not_shifted h' here here' longer shorter).elim
      · cases between with
        | nil => exact aligned (longer.trans (List.append_nil _)) same.symm
        | cons pair between =>
          obtain ⟨rfl, shorter⟩ := List.cons.inj same
          exact (h'.not_shifted h here' here longer shorter).elim

end Grouping

/-! ## Reading operands -/

/-- The kinds of tokens **that an operand ends before** in a row: operators, and the end of the
text. -/
def TokenKind.endsOperandInRow : TokenKind → Bool
  | operator | inWord | instanceofWord | endOfText => true
  | _ => false

/-- What has a precedence ends an operand. -/
theorem Token.IsOperator.endsOperandInRow {t : Token} (h : t.IsOperator) :
    t.kind.endsOperandInRow = true := by
  unfold Token.IsOperator precedence? at h
  split at h
  · rename_i kind
    rw [kind]
    rfl
  · rename_i kind
    rw [kind]
    rfl
  · rename_i kind
    rw [kind]
    rfl
  · cases h

section Operands

variable {rules : Rules} {t u : Token} {rest : List Token}

/-- A reader that reads some tokens goes on with what it leaves. -/
theorem Reader.bind_eq_of_ok {reader : Reader α} {next : α → Reader β} {tokens left : List Token}
    {a : α} (h : reader tokens = .ok (a, left)) : (reader >>= next) tokens = next a left := by
  show (reader tokens >>= fun result => next result.1 result.2) = next a left
  rw [h]
  rfl

theorem Reader.current_bind_cons {next : Token → Reader β} :
    (current >>= next) (u :: rest) = next u (u :: rest) := rfl

theorem Reader.check_bind_cons {kind : TokenKind} {next : Bool → Reader β} :
    (check kind >>= next) (u :: rest) = next (u.kind == kind) (u :: rest) := rfl

theorem Reader.checkStep_bind_cons {next : Bool → Reader β} :
    (checkStep >>= next) (u :: rest) =
      next (u.kind == .increment || u.kind == .decrement) (u :: rest) := rfl

theorem Reader.advance_bind_cons {next : Token → Reader β} :
    (advance >>= next) (t :: u :: rest) = next t (u :: rest) := rfl

theorem Reader.accept_bind_cons {kind : TokenKind} {next : Bool → Reader β}
    (other : (u.kind == kind) = false) : (accept kind >>= next) (u :: rest) = next false (u :: rest) := by
  show ((if u.kind == kind then _ else _ : Reader Bool) >>= next) (u :: rest) = _
  rw [other]
  rfl

theorem Reader.room_bind_eq {next : Nat → Reader β} :
    (room >>= next) rest = next rest.length rest := rfl

theorem readPrimary_operand (h : u.kind.isOperand = true) :
    readPrimary rules (u :: t :: rest) = .ok (u.operand, t :: rest) := by
  obtain ⟨kind, text, line, column, newline⟩ := u
  cases kind <;> first | rfl | cases h

theorem readCalls_operand {start : Token} {room : Nat} {callee : Node}
    (h : t.kind.endsOperandInRow = true) :
    readCalls rules start (room + 1) callee (t :: rest) = .ok (callee, t :: rest) := by
  obtain ⟨kind, text, line, column, newline⟩ := t
  cases kind <;> first | rfl | cases h

theorem TokenKind.ne_of_isOperand {kind other : TokenKind} (h : kind.isOperand = true)
    (no : other.isOperand = false) : (kind == other) = false :=
  beq_eq_false_iff_ne.mpr fun same => by rw [same, no] at h; cases h

theorem TokenKind.ne_of_endsOperandInRow {kind other : TokenKind} (h : kind.endsOperandInRow = true)
    (no : other.endsOperandInRow = false) : (kind == other) = false :=
  beq_eq_false_iff_ne.mpr fun same => by rw [same, no] at h; cases h

theorem readCallMember_operand (hu : u.kind.isOperand = true) (ht : t.kind.endsOperandInRow = true) :
    readCallMember rules (u :: t :: rest) = .ok (u.operand, t :: rest) := by
  have head : readHead rules (readConstruct rules) (u :: t :: rest) = .ok (u.operand, t :: rest) := by
    rw [readHead, check_bind_cons, TokenKind.ne_of_isOperand hu rfl, if_neg Bool.false_ne_true]
    exact readPrimary_operand hu
  rw [readCallMember, current_bind_cons, bind_eq_of_ok head]
  exact readCalls_operand ht

/-- No arrow starts with an operand in a row. -/
theorem checkArrow_operand (hu : u.kind.isOperand = true) (ht : t.kind.endsOperandInRow = true) :
    checkArrow (u :: t :: rest) = .ok (false, u :: t :: rest) := by
  obtain ⟨kind, text, line, column, newline⟩ := u
  cases kind
  case identifier =>
    show Except.ok (t.kind == .arrow, _) = _
    rw [TokenKind.ne_of_endsOperandInRow ht rfl]
  all_goals first | rfl | cases hu

/-- **An operand is read as such**, before what ends it. -/
theorem readUnary_operand (hu : u.kind.isOperand = true) (ht : t.kind.endsOperandInRow = true) :
    readUnary rules (u :: t :: rest) = .ok (u.operand, t :: rest) := by
  have noPrefix : isPrefixOperator u = false := by
    unfold isPrefixOperator
    cases kind : u.kind <;> first | rfl | (rw [kind] at hu; cases hu)
  rw [readUnary, current_bind_cons, if_neg (by rw [noPrefix]; nofun), checkStep_bind_cons,
    TokenKind.ne_of_isOperand hu rfl, TokenKind.ne_of_isOperand hu rfl, Bool.or_self,
    if_neg Bool.false_ne_true, readPostfix, current_bind_cons,
    bind_eq_of_ok (readCallMember_operand hu ht), checkStep_bind_cons,
    TokenKind.ne_of_endsOperandInRow ht rfl, TokenKind.ne_of_endsOperandInRow ht rfl, Bool.or_self,
    current_bind_cons, Bool.false_and, if_neg Bool.false_ne_true]
  rfl

end Operands

/-! ## Reading rows -/

/-- A pair of tokens **continues a row**: an operator, and an operand behind it. -/
def Continues (pair : Token × Token) : Prop :=
  pair.1.IsOperator ∧ pair.2.kind.isOperand = true

instance (pair : Token × Token) : Decidable (Continues pair) :=
  inferInstanceAs (Decidable (pair.1.IsOperator ∧ pair.2.kind.isOperand = true))

/-- A grouping **takes** a row up to what is left of it, which binds less tightly. -/
structure Grouping.Takes (g : Grouping) (least : Nat) (first : Token)
    (pairs left : List (Token × Token)) : Prop where
  /-- It starts with the first operand. -/
  first : g.first = first
  /-- The rest of it and what is left are the row. -/
  pairs : pairs = g.pairs ++ left
  /-- It is proper. -/
  proper : g.IsProper
  /-- It binds as tightly as is asked for. -/
  binds : g.Binds least
  /-- The next operator does not. -/
  stops : ∀ pair, left.head? = some pair → pair.1.precedence < least

/-- A row goes on with an operator, or with the token behind the row. -/
theorem exists_cons_of_row {pairs : List (Token × Token)} {last : Token}
    (continues : ∀ pair ∈ pairs, Continues pair) (ended : last.kind = .endOfText) :
    ∃ t rest, row pairs ++ [last] = t :: rest ∧ t.kind.endsOperandInRow = true := by
  cases pairs with
  | nil => exact ⟨last, [], rfl, by rw [ended]; rfl⟩
  | cons pair pairs =>
    exact ⟨pair.1, pair.2 :: (row pairs ++ [last]), rfl,
      (continues pair List.mem_cons_self).1.endsOperandInRow⟩

namespace Grouping.Takes

variable {g right : Grouping} {least : Nat} {first operand operator : Token}
  {pairs left : List (Token × Token)}

theorem length_left (takes : g.Takes least first pairs left) : left.length ≤ pairs.length := by
  rw [takes.pairs, List.length_append]
  exact Nat.le_add_left _ _

/-- What is left of a row continues it. -/
theorem continues_left (takes : g.Takes least first pairs left)
    (continues : ∀ pair ∈ pairs, Continues pair) : ∀ pair ∈ left, Continues pair :=
  fun pair member => continues pair (takes.pairs ▸ List.mem_append_right _ member)

/-- An operator that a right operand has not taken may take, with what is on its left, **all that
was read so far**. -/
theorem next_binds (takes : right.Takes operator.leastRight operand pairs left)
    (isOperator : operator.IsOperator) (continues : ∀ pair ∈ pairs, Continues pair) :
    ∀ pair, left.head? = some pair → (operation g operator right).Binds pair.1.leastLeft := by
  intro pair next
  have isOperator' := (takes.continues_left continues pair (List.mem_of_head? next)).1
  exact binds_operation.mpr ((isOperator.leastLeft_le_iff isOperator').mpr (takes.stops pair next))

/-- Nothing is left of a row from which every operator may be taken. -/
theorem eq_nil (takes : g.Takes 1 first pairs left) (continues : ∀ pair ∈ pairs, Continues pair) :
    left = [] := by
  cases left with
  | nil => rfl
  | cons pair left =>
    have some := (takes.continues_left continues pair List.mem_cons_self).1.precedence_pos
    have none := takes.stops pair rfl
    omega

end Grouping.Takes

section Rows

variable {rules : Rules} {last : Token} (ended : last.kind = .endOfText) {least : Nat}

/-- Some rules **take rows** that are shorter than some length. -/
def TakesRows (rules : Rules) (last : Token) (length : Nat) : Prop :=
  ∀ (least : Nat) (first : Token) (pairs : List (Token × Token)), pairs.length < length →
    first.kind.isOperand = true → (∀ pair ∈ pairs, Continues pair) →
    ∃ (g : Grouping) (left : List (Token × Token)),
      rules (.binary least) (first :: (row pairs ++ [last])) = .ok (g.node, row left ++ [last])
        ∧ g.Takes least first pairs left

theorem TakesRows.mono {length length' : Nat} (h : TakesRows rules last length)
    (le : length' ≤ length) : TakesRows rules last length' :=
  fun least first pairs short => h least first pairs (Nat.lt_of_lt_of_le short le)

include ended

/-- **The loop over operators** takes more and more of a row into the grouping that it has on the
left. This is proper still, since the next operator is one that the last right operand has not
taken. -/
theorem readOperators_takes {n : Nat} {pairs : List (Token × Token)} {g : Grouping}
    (room : pairs.length < n) (continues : ∀ pair ∈ pairs, Continues pair)
    (operands : TakesRows rules last pairs.length) (proper : g.IsProper) (binds : g.Binds least)
    (next : ∀ pair, pairs.head? = some pair → g.Binds pair.1.leastLeft) :
    ∃ (g' : Grouping) (left : List (Token × Token)),
      readOperators rules least g.first n g.node (row pairs ++ [last])
          = .ok (g'.node, row left ++ [last])
        ∧ g'.Takes least g.first (g.pairs ++ pairs) left := by
  induction n generalizing pairs g with
  | zero => cases room
  | succ n ih =>
    cases pairs with
    | nil =>
      have none : precedence? last = none := by
        unfold precedence?
        rw [ended]
      refine ⟨g, [], ?_, rfl, rfl, proper, binds, fun pair h => by cases h⟩
      rw [readOperators, row, List.flatMap_nil, List.nil_append, current_bind_cons, none]
      rfl
    | cons pair pairs =>
      obtain ⟨operator, operand⟩ := pair
      obtain ⟨isOperator, isOperand⟩ := continues (operator, operand) List.mem_cons_self
      have tokens : row ((operator, operand) :: pairs) ++ [last] =
          operator :: operand :: (row pairs ++ [last]) := rfl
      rw [readOperators, tokens, current_bind_cons, isOperator.precedence?_eq]
      dsimp only
      by_cases loose : operator.precedence < least
      · rw [if_pos loose]
        refine ⟨g, (operator, operand) :: pairs, rfl, rfl, rfl, proper, binds, fun pair h => ?_⟩
        obtain rfl := Option.some.inj h
        exact loose
      rw [if_neg loose, advance_bind_cons]
      have continues' : ∀ pair ∈ pairs, Continues pair :=
        fun pair member => continues pair (List.mem_cons_of_mem _ member)
      obtain ⟨right, left, read, takes⟩ := operands operator.leastRight operand pairs
        (Nat.lt_succ_self _) isOperand continues'
      -- What has been read is the left operand of whatever comes next in the row.
      obtain ⟨g', left', more, takes'⟩ := ih (g := .operation g operator right)
        (Nat.lt_of_le_of_lt takes.length_left (Nat.lt_of_succ_lt_succ room))
        (takes.continues_left continues') (operands.mono (Nat.le_succ_of_le takes.length_left))
        ⟨proper, takes.proper, next _ rfl, takes.binds⟩
        (Grouping.binds_operation.mpr (Nat.le_of_not_lt loose))
        (takes.next_binds isOperator continues')
      have same : (Grouping.operation g operator right).pairs ++ left
          = g.pairs ++ (operator, operand) :: pairs := by
        rw [Grouping.pairs, takes.first, takes.pairs, List.append_assoc, List.cons_append]
      rw [same] at takes'
      refine ⟨g', left', ?_, takes'⟩
      rw [operator.contains_rightOperators, operator.contains_logicalOperators]
      show (rules (.binary operator.leastRight) >>= fun given => readOperators rules least g.first n
        (Node.make operator.operationKind [g.node, Node.ofToken .operator operator, given] g.first))
          _ = _
      rw [bind_eq_of_ok read]
      exact more

/-- **A row is read to where it binds less tightly** than is asked for. -/
theorem readBinary_takes {first : Token} {pairs : List (Token × Token)}
    (isOperand : first.kind.isOperand = true) (continues : ∀ pair ∈ pairs, Continues pair)
    (operands : TakesRows rules last pairs.length) :
    ∃ (g : Grouping) (left : List (Token × Token)),
      readBinary rules least (first :: (row pairs ++ [last])) = .ok (g.node, row left ++ [last])
        ∧ g.Takes least first pairs left := by
  obtain ⟨t, rest, behind, ends⟩ := exists_cons_of_row continues ended
  have read : readUnary rules (first :: (row pairs ++ [last]))
      = .ok (first.operand, row pairs ++ [last]) := by
    rw [behind]
    exact readUnary_operand isOperand ends
  have room : pairs.length < (row pairs ++ [last]).length := by
    rw [List.length_append, length_row, List.length_singleton]
    omega
  rw [readBinary, current_bind_cons, bind_eq_of_ok read, room_bind_eq]
  exact readOperators_takes (g := .operand first) ended room continues operands trivial
    (Grouping.binds_operand first) fun pair _ => Grouping.binds_operand first

omit ended in
/-- **Rules that are read deep enough take rows.** -/
theorem readRule_takesRows (ended : last.kind = .endOfText) (depth : Nat) :
    TakesRows (readRule depth) last depth := by
  induction depth with
  | zero => exact fun _ _ _ short => absurd short (Nat.not_lt_zero _)
  | succ depth ih =>
    intro least first pairs short isOperand continues
    exact readBinary_takes ended isOperand continues (ih.mono (Nat.le_of_lt_succ short))

end Rows

/-- A row that is read to its end by its operators **is read as an expression**: it is no arrow,
and neither a question mark nor an assignment follows. -/
theorem readExpression_row {rules : Rules} {first last : Token} {pairs : List (Token × Token)}
    {n : Node} (isOperand : first.kind.isOperand = true) (continues : ∀ pair ∈ pairs, Continues pair)
    (ended : last.kind = .endOfText)
    (read : readBinary rules 1 (first :: (row pairs ++ [last])) = .ok (n, [last])) :
    readExpression rules (first :: (row pairs ++ [last])) = .ok (n, [last]) := by
  have other (kind : TokenKind) (no : TokenKind.endOfText ≠ kind) : (last.kind == kind) = false := by
    rw [ended]
    exact beq_eq_false_iff_ne.mpr no
  have conditional : readConditional rules (first :: (row pairs ++ [last])) = .ok (n, [last]) := by
    rw [readConditional, current_bind_cons, bind_eq_of_ok read,
      accept_bind_cons (other .question nofun)]
    rfl
  have arrow : checkArrow (first :: (row pairs ++ [last]))
      = .ok (false, first :: (row pairs ++ [last])) := by
    obtain ⟨t, rest, behind, ends⟩ := exists_cons_of_row continues ended
    rw [behind]
    exact checkArrow_operand isOperand ends
  rw [readExpression, bind_eq_of_ok arrow, if_neg Bool.false_ne_true, current_bind_cons,
    bind_eq_of_ok conditional, check_bind_cons, other .assign nofun, if_neg Bool.false_ne_true]
  rfl

/-- **Operators group by their precedences.** Let operands, each one token, stand in a row with
operators between them, up to the end of the text. The row is read as an expression to its end,
and what is read is the tree of the one proper grouping of the row. -/
theorem readExpression_groups {first last : Token} {pairs : List (Token × Token)} {depth : Nat}
    (isOperand : first.kind.isOperand = true) (continues : ∀ pair ∈ pairs, Continues pair)
    (ended : last.kind = .endOfText) (enough : depthFor (first :: (row pairs ++ [last])) ≤ depth) :
    ∃ g : Grouping,
      readRule depth .expression (first :: (row pairs ++ [last])) = .ok (g.node, [last])
        ∧ g.inOrder = first :: row pairs ∧ g.IsProper
        ∧ ∀ g' : Grouping, g'.inOrder = first :: row pairs → g'.IsProper → g' = g := by
  have pos := depthFor_pos (first :: (row pairs ++ [last]))
  obtain ⟨depth, rfl⟩ : ∃ d, depth = d + 1 := ⟨depth - 1, by omega⟩
  have short : pairs.length ≤ depth := by
    have := length_lt_depthFor (first :: (row pairs ++ [last]))
    rw [List.length_cons, List.length_append, length_row] at this
    omega
  obtain ⟨g, left, read, takes⟩ : ∃ (g : Grouping) (left : List (Token × Token)),
      readBinary (readRule depth) 1 (first :: (row pairs ++ [last])) = .ok (g.node, row left ++ [last])
        ∧ g.Takes 1 first pairs left :=
    readBinary_takes ended isOperand continues ((readRule_takesRows ended depth).mono short)
  obtain rfl := takes.eq_nil continues
  have whole : pairs = g.pairs := takes.pairs.trans (List.append_nil _)
  refine ⟨g, readExpression_row isOperand continues ended read, ?_, takes.proper,
    fun g' order proper => ?_⟩
  · rw [Grouping.inOrder_eq, takes.first, ← whole]
  · rw [Grouping.inOrder_eq] at order
    obtain ⟨start, behind⟩ := List.cons.inj order
    have same := Grouping.row_injective behind
    refine proper.unique takes.proper (start.trans takes.first.symm) (same.trans whole) ?_
    rw [same]
    exact fun pair member => (continues pair member).1

/-- Four operators in a row, of which the last is the loosest, and two that are equal group from
the right. -/
theorem readExpression_groups_of_powers :
    readRule 99 .expression
        [.plain .identifier "a", .plain .operator "-", .plain .number "1", .plain .operator "**",
          .plain .thisWord "this", .plain .operator "**", .plain .identifier "b",
          .plain .operator "&&", .plain .nullWord "null", .plain .endOfText []]
      = .ok ((Grouping.operation
          (.operation (.operand (.plain .identifier "a")) (.plain .operator "-")
            (.operation (.operand (.plain .number "1")) (.plain .operator "**")
              (.operation (.operand (.plain .thisWord "this")) (.plain .operator "**")
                (.operand (.plain .identifier "b")))))
          (.plain .operator "&&") (.operand (.plain .nullWord "null"))).node,
        [.plain .endOfText []]) := by
  obtain ⟨g, read, -, -, unique⟩ := @readExpression_groups (.plain .identifier "a")
    (.plain .endOfText [])
    [(.plain .operator "-", .plain .number "1"), (.plain .operator "**", .plain .thisWord "this"),
      (.plain .operator "**", .plain .identifier "b"), (.plain .operator "&&", .plain .nullWord "null")]
    99 rfl (by decide +kernel) rfl (by decide +kernel)
  refine read.trans (congrArg
    (fun g : Grouping => Except.ok (g.node, [Token.plain .endOfText []])) ?_)
  exact (unique _ rfl (by decide +kernel)).symm

end Scriptlet
