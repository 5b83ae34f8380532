import Mathlib.Data.List.Nodup
import Scriptlet.Proofs.Caret
import Scriptlet.Proofs.Payload.Account

/-!
# Nothing is dropped and nothing is made up

Names, literals and operators are the payload of a program; brackets, commas and most words
are in the shape of the tree. The grammar is gone through rule by rule, to see that each keeps
the account of any one origin: what carries a meaning becomes a leaf once, and a leaf comes
from a token. Two rules need more than the laws for putting readers together. A construct in
parentheses is its expression and nothing else, which the account does not notice. A property
that stands for itself makes two leaves of its name, and is told from one that is written out
because two tokens never have the same origin.

For the tokens of a text the last is so by their layout, and the account of every token can be
closed.
-/

namespace Scriptlet

open Reader

/-! ## Kinds with and without a meaning -/

/-- Rules that are read from the tokens at hand: all but that for a text of its own, and a
construction only at its first word. -/
def Rule.IsAtHand : Rule → List Token → Prop
  | fragment _ _, _ => False
  | rule, tokens => rule.IsReadable tokens

/-- Rules **keep accounts** of an origin if each, where it is at hand, adds the leaves of what it
reads to those made before. -/
def Rules.KeepAccounts (k : Origin) (rules : Rules) : Prop :=
  ∀ rule tokens held, rule.IsAtHand tokens → (rules rule).Adds k tokens held

section Rules

variable {k : Origin} {rules : Rules} {tokens : List Token} {held : Nat × Nat} {start : Token}

/-! ## The grammar -/

/-! ### Functions -/

theorem readParams_adds : readParams.Adds k tokens held := by
  have readName (inner : List Token) (held : Nat × Nat) :
      (Node.ofToken .identifier <$> Reader.expect .identifier).Adds k inner held := by
    rw [map_eq_pure_bind]
    exact .expect_bind nofun fun t _ => .pure (by rw [Node.tally_ofToken])
  refine .expect_skip_bind rfl nofun fun _ _ => .room_bind fun _ => ?_
  refine (Tallies.commaList readName).bind fun _ _ => .expect_skip_pure rfl nofun fun _ => by simp

variable (h : rules.KeepAccounts k)
include h

theorem Rules.KeepAccounts.expression (tokens : List Token) (held : Nat × Nat) :
    (rules .expression).Adds k tokens held :=
  h .expression tokens held trivial

theorem Rules.KeepAccounts.statement (tokens : List Token) (held : Nat × Nat) :
    (rules .statement).Adds k tokens held :=
  h .statement tokens held trivial

theorem readBlock_adds : (readBlock rules).Adds k tokens held := by
  refine .expect_skip_bind rfl nofun fun _ _ => .room_bind fun _ => ?_
  refine (Tallies.manyUntil (fun _ _ => ?_) h.statement).bind fun _ _ =>
    .expect_skip_pure rfl nofun fun _ => by simp
  exact .check_bind (.ite (fun _ => .unexpected) fun _ => .check)

omit h in
/-- What a name that may be missing makes of an origin. -/
theorem readName?_tallies : readName?.Tallies k tokens held fun name =>
    held + Node.tallyAll k (name.map (Node.ofToken .identifier)).toList := by
  refine .check_bind (.ite (fun found => ?_) fun _ => .pure (add_zero held))
  rw [map_eq_pure_bind]
  refine .advance_bind (more_of_found found nofun) fun _ => .pure ?_
  simp

theorem readFunction_adds (word : (head tokens).kind = .functionWord) :
    (readFunction rules).Adds k tokens held := by
  refine .skip_bind (by rw [word]; rfl) (by rw [word]; nofun) fun _ =>
    readName?_tallies.bind fun name _ => readParams_adds.bind fun params _ =>
      (readBlock_adds h).bind fun body _ => .pure ?_
  simp [add_comm, add_left_comm]

omit h in
theorem readArrowParams_adds : readArrowParams.Adds k tokens held := by
  refine .check_bind (.ite (fun found => ?_) fun _ => readParams_adds)
  refine .advance_bind (more_of_found found nofun) fun _ => .pure ?_
  simp

theorem readArrow_adds : (readArrow rules).Adds k tokens held := by
  refine .current_bind (readArrowParams_adds.bind fun _ _ => .expect_skip_bind rfl nofun fun _ rest => ?_)
  have body (held : Nat × Nat) : (readArrowBody rules).Adds k rest held :=
    .check_bind (.ite (fun _ => readBlock_adds h) fun _ => h.expression _ _)
  refine (body _).bind fun _ _ => .pure ?_
  simp [add_assoc]

/-! ### Arguments, members and lists -/

theorem readSpreadOrExpression_adds : (readSpreadOrExpression rules).Adds k tokens held := by
  refine .check_bind (.ite (fun found => ?_) fun _ => h.expression _ _)
  refine .skip_bind (by rw [beq_iff_eq.mp found]; rfl) (more_of_found found nofun) fun rest => ?_
  refine (h.expression rest _).bind fun _ _ => .pure ?_
  simp

theorem readArguments_adds : (readArguments rules).Adds k tokens held := by
  refine .expect_skip_bind rfl nofun fun _ _ => .room_bind fun _ => ?_
  exact (Tallies.commaList fun _ _ => readSpreadOrExpression_adds h).bind fun _ _ =>
    .expect_skip_pure rfl nofun fun _ => by simp

/-- A reader of a node that goes on from another one **adds to the leaves** of that. -/
abbrev Reader.AddsTo (k : Origin) (tokens : List Token) (held : Nat × Nat) (object : Node)
    (reader : Reader Node) : Prop :=
  reader.Tallies k tokens (held + object.tally k) fun n => held + n.tally k

omit h in
theorem readNamedMember_addsTo {object : Node} :
    (readNamedMember object start).AddsTo k tokens held object := by
  refine .expect_skip_bind rfl nofun fun _ rest => .current_bind (.ite (fun word => ?_) fun _ => .unexpected)
  refine .advance_bind (more_of_isWord word) fun _ => .pure ?_
  simp [add_assoc]

theorem readComputedMember_addsTo {object : Node} :
    (readComputedMember rules object start).AddsTo k tokens held object := by
  refine .expect_skip_bind rfl nofun fun _ rest => (h.expression rest _).bind fun _ _ =>
    .expect_skip_pure rfl nofun fun _ => ?_
  simp [add_assoc]

theorem readElements_addsAll {n : Nat} : (readElements rules n).AddsAll k tokens held := by
  induction n generalizing tokens held with
  | zero => exact .tooDeep
  | succ n ih =>
    rw [readElements]
    refine .check_bind (.ite (fun _ => .none) fun _ => .check_bind (.ite (fun found => ?_) fun _ => ?_))
    · refine .skip_bind (by rw [beq_iff_eq.mp found]; rfl) (more_of_found found (by decide)) fun _ => ?_
      exact ih.bind fun _ _ => .pure (by simp)
    · exact (readSpreadOrExpression_adds h).bind fun _ _ => Tallies.separator.bind fun _ _ => .cons ih

theorem readArray_adds : (readArray rules).Adds k tokens held :=
  .expect_skip_bind rfl nofun fun _ _ => .room_bind fun _ => (readElements_addsAll h).bind fun _ _ =>
    .expect_skip_pure rfl nofun fun _ => by simp

/-! ### Properties -/

theorem readKey_adds : (readKey rules).Adds k tokens held := by
  refine .current_bind (.accept_cases_bind rfl nofun (fun rest => ?_) ?_)
  · exact (h.expression rest _).bind fun _ _ => .expect_skip_pure rfl nofun fun _ => by simp
  · refine .ite nofun fun _ => .ite (fun found => ?_) fun _ => .ite (fun found => ?_) fun _ =>
      .ite (fun word => ?_) fun _ => .unexpected
    · exact .advance_bind (more_of_found found nofun) fun _ => .pure (by simp)
    · exact .advance_bind (more_of_found found nofun) fun _ => .pure (by simp)
    · exact .advance_bind (more_of_isWord word) fun _ => .pure (by simp)

omit h in
/-- The key that a name makes is that name. -/
theorem readKey_name {key : Node} {rest : List Token} (name : (head tokens).kind = .identifier)
    (hrun : readKey rules tokens = .ok (key, rest)) :
    key = Node.ofToken .identifier (head tokens) := by
  rw [readKey, Reader.current_bind_eq] at hrun
  obtain ⟨bracket, _, hbracket, hrun⟩ := Reader.of_bind_eq_ok hrun
  have noBracket : accept .leftBracket tokens = .ok (false, tokens) := by
    show (if (head tokens).kind == .leftBracket then _ else _ : Reader Bool) tokens = _
    rw [name]
    rfl
  cases noBracket.symm.trans hbracket
  simp only [name] at hrun
  obtain ⟨t, _, hadvance, hrun⟩ := Reader.of_bind_eq_ok hrun
  cases hrun
  cases tokens with
  | nil => cases name
  | cons u more => cases more <;> (cases hadvance; rfl)

/-- A property keeps the account, **whether it is written out or stands for itself**. -/
theorem readProperty_adds : (readProperty rules).Adds k tokens held := by
  intro fair n rest hrun
  rw [readProperty, Reader.current_bind_eq] at hrun
  obtain ⟨key, behindKey, hkey, hrun⟩ := Reader.of_bind_eq_ok hrun
  obtain ⟨colon, behindColon, hcolon, hrun⟩ := Reader.of_bind_eq_ok hrun
  have ofKey : Accounts k tokens held behindKey (held + key.tally k) :=
    readKey_adds h fair key behindKey hkey
  have accepts : (accept .colon).Tallies k behindKey (held + key.tally k) fun _ =>
    held + key.tally k := .accept rfl nofun
  have account : Accounts k tokens held behindColon (held + key.tally k) :=
    ofKey.trans (accepts ofKey.after colon behindColon hcolon)
  cases colon with
  | true =>
    obtain ⟨value, behindValue, hvalue, hrun⟩ := Reader.of_bind_eq_ok hrun
    cases hrun
    have all : Accounts k tokens held rest (held + key.tally k + value.tally k) :=
      account.trans (h.expression _ _ account.after value rest hvalue)
    have parts : held + key.tally k + value.tally k = held + Node.tallyAll k [key, value] := by
      simp [add_assoc]
    rw [parts] at all
    exact all.make _
  | false =>
    replace hrun : (if (head behindColon).kind == .leftParen then _ else _ : Reader Node) behindColon
      = .ok (n, rest) := hrun
    split at hrun
    · obtain ⟨params, behindParams, hparams, hrun⟩ := Reader.of_bind_eq_ok hrun
      obtain ⟨body, behindBody, hbody, hrun⟩ := Reader.of_bind_eq_ok hrun
      cases hrun
      have ofParams : Accounts k behindColon (held + key.tally k) behindParams
          (held + key.tally k + params.tally k) :=
        readParams_adds account.after params behindParams hparams
      have all : Accounts k tokens held rest
          (held + key.tally k + params.tally k + body.tally k) :=
        account.trans (ofParams.trans (readBlock_adds h ofParams.after body rest hbody))
      have parts : held + key.tally k + params.tally k + body.tally k
          = held + Node.tallyAll k [key, Node.make .function [params, body] (head tokens)] := by
        simp [add_assoc]
      rw [parts] at all
      exact all.make _
    · replace hrun : (if (head tokens).kind == .identifier && ((head behindColon).kind == .comma
          || (head behindColon).kind == .rightBrace) then _ else _ : Reader Node) behindColon
        = .ok (n, rest) := hrun
      split at hrun
      · rename_i itself
        have name := beq_iff_eq.mp (Bool.and_eq_true_iff.mp itself).1
        cases hrun
        obtain rfl := readKey_name name hkey
        rw [Node.tally_ofToken] at account
        exact account.shorthand name
      · cases hrun

theorem readProperties_addsAll {n : Nat} : (readProperties rules n).AddsAll k tokens held := by
  induction n generalizing tokens held with
  | zero => exact .tooDeep
  | succ n ih =>
    rw [readProperties]
    exact .check_bind (.ite (fun _ => .none) fun _ => (readProperty_adds h).bind fun _ _ =>
      Tallies.separator.bind fun _ _ => .cons ih)

theorem readObject_adds : (readObject rules).Adds k tokens held :=
  .expect_skip_bind rfl nofun fun _ _ => .room_bind fun _ =>
    (readProperties_addsAll h).bind fun _ _ => .expect_skip_pure rfl nofun fun _ => by simp

/-! ### Primary expressions, members and calls -/

omit h in
theorem more_of_literal {kind : TokenKind} {label : Label} (literal : literalLabel? kind = some label) :
    kind ≠ .endOfText := by
  rintro rfl
  cases literal

theorem readPrimary_adds : (readPrimary rules).Adds k tokens held := by
  refine .current_bind ?_
  cases literal : literalLabel? (head tokens).kind with
  | some label => exact .advance_bind (more_of_literal literal) fun _ => .pure (by simp)
  | none =>
    dsimp only
    cases kind : (head tokens).kind with
    | template => exact .no_template kind
    | identifier => exact .advance_bind (by rw [kind]; nofun) fun _ => .pure (by simp)
    | thisWord => exact .skip_bind (by rw [kind]; rfl) (by rw [kind]; nofun) fun _ => .pure (by simp)
    | leftParen =>
      exact .skip_bind (by rw [kind]; rfl) (by rw [kind]; nofun) fun rest =>
        (h.expression rest _).bind fun _ _ => .expect_skip_pure rfl nofun fun _ => rfl
    | leftBracket => exact readArray_adds h
    | leftBrace => exact readObject_adds h
    | functionWord => exact readFunction_adds h kind
    | _ => exact .unexpected

theorem readMembers_addsTo {n : Nat} {object : Node} :
    (readMembers rules start n object).AddsTo k tokens held object := by
  induction n generalizing tokens object with
  | zero => exact .tooDeep
  | succ n ih =>
    rw [readMembers]
    refine .check_bind (.ite (fun _ => ?_) fun _ => .check_bind (.ite (fun _ => ?_) fun _ => .pure rfl))
    · exact readNamedMember_addsTo.bind fun _ _ => ih
    · exact (readComputedMember_addsTo h).bind fun _ _ => ih

theorem readHead_adds {construct : Reader Node}
    (constructs : (head tokens).kind = .newWord → construct.Adds k tokens held) :
    (readHead rules construct).Adds k tokens held :=
  .check_bind (.ite (fun found => constructs (beq_iff_eq.mp found)) fun _ => readPrimary_adds h)

theorem readConstruct_adds (word : (head tokens).kind = .newWord) :
    (readConstruct rules).Adds k tokens held := by
  refine .skip_bind (by rw [word]; rfl) (by rw [word]; nofun) fun rest => ?_
  have callee : (readConstructed rules).Adds k rest held :=
    .current_bind ((readHead_adds h (h .construct rest held)).bind fun _ _ =>
      .room_bind fun _ => readMembers_addsTo h)
  have arguments (rest : List Token) (held : Nat × Nat) :
      (readConstructArguments rules (head tokens)).Adds k rest held :=
    .check_bind (.ite (fun _ => readArguments_adds h) fun _ => .pure (by simp))
  exact callee.bind fun _ rest => (arguments rest _).bind fun _ _ => .pure (by simp [add_assoc])

theorem readCalls_addsTo {n : Nat} {callee : Node} :
    (readCalls rules start n callee).AddsTo k tokens held callee := by
  induction n generalizing tokens callee with
  | zero => exact .tooDeep
  | succ n ih =>
    rw [readCalls]
    refine .check_bind (.ite (fun _ => ?_) fun _ => .check_bind (.ite (fun _ => ?_) fun _ =>
      .check_bind (.ite (fun _ => ?_) fun _ => .check_bind (.ite (fun found => ?_) fun _ => .pure rfl))))
    · exact readNamedMember_addsTo.bind fun _ _ => ih
    · exact (readComputedMember_addsTo h).bind fun _ _ => ih
    · refine (readArguments_adds h).bind fun arguments rest => ?_
      have call : held + callee.tally k + arguments.tally k
          = held + (Node.make .call [callee, arguments] start).tally k := by simp [add_assoc]
      rw [call]
      exact ih
    · exact .no_template (beq_iff_eq.mp found)

theorem readCallMember_adds : (readCallMember rules).Adds k tokens held :=
  .current_bind ((readHead_adds h (readConstruct_adds h)).bind fun _ _ =>
    .room_bind fun _ => readCalls_addsTo h)

/-! ### Operators -/

/-- The step behind an operand becomes a leaf in front of it. -/
theorem readPostfix_adds : (readPostfix rules).Adds k tokens held := by
  refine .current_bind ((readCallMember_adds h).bind fun _ rest => .checkStep_bind
    (.current_bind (.ite (fun step => .ite (fun _ => ?_) fun _ => .fail) fun _ => .pure rfl)))
  exact .advance_bind (more_of_step (Bool.and_eq_true_iff.mp step).1) fun _ =>
    .pure (by simp [add_assoc, add_comm])

theorem readUnary_adds : (readUnary rules).Adds k tokens held := by
  refine .current_bind (.ite (fun isPrefix => ?_) fun _ => .checkStep_bind (.ite (fun step => ?_)
    fun _ => readPostfix_adds h))
  · exact .advance_bind (more_of_isPrefixOperator isPrefix) fun rest =>
      (h .unary rest _ trivial).bind fun _ _ => .pure (by simp [add_assoc])
  · exact .advance_bind (more_of_step step) fun rest =>
      (h .unary rest _ trivial).bind fun _ _ => .ite (fun _ => .pure (by simp [add_assoc])) fun _ => .fail

theorem readOperators_addsTo {least n : Nat} {left : Node} :
    (readOperators rules least start n left).AddsTo k tokens held left := by
  induction n generalizing tokens left with
  | zero => exact .tooDeep
  | succ n ih =>
    rw [readOperators]
    refine .current_bind ?_
    cases operator : precedence? (head tokens) with
    | none => exact .pure rfl
    | some precedence =>
      refine .ite (fun _ => .pure rfl) fun _ => .advance_bind (more_of_precedence? operator) fun rest => ?_
      refine (h (.binary _) rest _ trivial).bind fun right _ => ?_
      generalize hkind : (if logicalOperators.contains (head tokens).text then Kind.logical else .binary) = kind
      have notProperty : kind ≠ .property := by rw [← hkind]; split <;> decide
      have operation : held + left.tally k + (head tokens).tally k + right.tally k
          = held + (Node.make kind [left, .ofToken .operator (head tokens), right] start).tally k := by
        simp [notProperty, add_assoc]
      rw [operation]
      exact ih

theorem readBinary_adds {least : Nat} : (readBinary rules least).Adds k tokens held :=
  .current_bind ((readUnary_adds h).bind fun _ _ => .room_bind fun _ => readOperators_addsTo h)

theorem readConditional_adds : (readConditional rules).Adds k tokens held := by
  refine .current_bind ((readBinary_adds h).bind fun _ _ => ?_)
  refine .accept_bind rfl nofun fun _ rest => .ite (fun _ => ?_) fun _ => .pure rfl
  exact (h.expression rest _).bind fun _ _ => .expect_skip_bind rfl nofun fun _ rest =>
    (h.expression rest _).bind fun _ _ => .pure (by simp [add_assoc])

omit h in
/-- Looking for an arrow consumes nothing. -/
theorem checkArrow_tallies : checkArrow.Tallies k tokens held fun _ => held := by
  unfold checkArrow
  refine .current_bind ?_
  cases (head tokens).kind with
  | identifier =>
    exact Tallies.pure (a := (tokens[1]?.getD (tokens.getLastD Token.missing)).kind == .arrow) rfl
  | leftParen => exact Tallies.pure (a := arrowAhead 0 tokens) rfl
  | _ => exact .pure rfl

/-- **Expressions keep the account.** -/
theorem readExpression_adds : (readExpression rules).Adds k tokens held := by
  refine checkArrow_tallies.bind fun _ _ => .ite (fun _ => readArrow_adds h) fun _ => ?_
  refine .current_bind ((readConditional_adds h).bind fun _ rest => ?_)
  refine .check_bind (.ite (fun assigns => .ite (fun _ => ?_) fun _ => .fail) fun _ => .pure rfl)
  exact .advance_bind (more_of_found assigns nofun) fun rest =>
    (h.expression rest _).bind fun _ _ => .pure (by simp [add_assoc])

/-! ### Statements -/

omit h in
theorem readStatementEnd_tallies : readStatementEnd.Tallies k tokens held fun _ => held :=
  .accept_bind rfl nofun fun _ _ => .ite (fun _ => .pure rfl) fun _ =>
    .current_bind (.ite (fun _ => .pure rfl) fun _ => .unexpected)

theorem readDeclarator_adds : (readDeclarator rules).Adds k tokens held := by
  refine .expect_bind nofun fun _ rest => .current_bind (.ite (fun assigns => ?_) fun _ => ?_)
  · have assigns := beq_iff_eq.mp (Bool.and_eq_true_iff.mp assigns).1
    exact .skip_bind (by rw [assigns]; rfl) (by rw [assigns]; nofun) fun rest =>
      (h.expression rest _).bind fun _ _ => .pure (by simp [add_assoc])
  · exact .pure (by simp)

theorem readDeclaration_adds (word : (head tokens).kind ≠ .endOfText) :
    (readDeclaration rules).Adds k tokens held :=
  .advance_bind word fun _ => .room_bind fun _ =>
    (Tallies.commaSeparated fun _ _ => readDeclarator_adds h).bind fun _ _ =>
      readStatementEnd_tallies.bind fun _ _ => .pure (by simp [add_assoc])

theorem readFunctionDeclaration_adds (word : (head tokens).kind = .functionWord) :
    (readFunctionDeclaration rules).Adds k tokens held :=
  .skip_bind (by rw [word]; rfl) (by rw [word]; nofun) fun _ => .expect_bind nofun fun _ _ =>
    readParams_adds.bind fun _ _ => (readBlock_adds h).bind fun _ _ => .pure (by simp [add_assoc])

theorem readConditionalStatement_adds (word : (head tokens).kind = .ifWord) :
    (readConditionalStatement rules).Adds k tokens held := by
  refine .skip_bind (by rw [word]; rfl) (by rw [word]; nofun) fun _ =>
    .expect_skip_bind rfl nofun fun _ rest => ?_
  refine (h.expression rest _).bind fun _ _ => .expect_skip_bind rfl nofun fun _ rest => ?_
  refine (h.statement rest _).bind fun _ _ => .accept_bind rfl nofun fun _ rest => ?_
  refine .ite (fun _ => (h.statement rest _).bind fun _ _ => .pure ?_) fun _ => .pure ?_
  · simp [add_assoc]
  · simp [add_assoc]

theorem readReturn_adds (word : (head tokens).kind = .returnWord) :
    (readReturn rules).Adds k tokens held := by
  refine .skip_bind (by rw [word]; rfl) (by rw [word]; nofun) fun rest =>
    .current_bind (.ite (fun _ => ?_) fun _ => ?_)
  · exact readStatementEnd_tallies.bind fun _ _ => .pure (by simp)
  · exact (h.expression rest _).bind fun _ _ => readStatementEnd_tallies.bind fun _ _ => .pure (by simp)

/-- **Statements keep the account.** -/
theorem readStatement_adds : (readStatement rules).Adds k tokens held := by
  refine .current_bind ?_
  cases kind : (head tokens).kind with
  | leftBrace => exact readBlock_adds h
  | semicolon => exact .skip_bind (by rw [kind]; rfl) (by rw [kind]; nofun) fun _ => .pure (by simp)
  | varWord => exact readDeclaration_adds h (by rw [kind]; nofun)
  | letWord => exact readDeclaration_adds h (by rw [kind]; nofun)
  | constWord => exact readDeclaration_adds h (by rw [kind]; nofun)
  | functionWord => exact readFunctionDeclaration_adds h kind
  | ifWord => exact readConditionalStatement_adds h kind
  | returnWord => exact readReturn_adds h kind
  | _ =>
    exact (readExpression_adds h).bind fun _ _ => readStatementEnd_tallies.bind fun _ _ =>
      .pure (by simp)

end Rules

/-- **All rules keep the account**, to whatever depth they are read. -/
theorem readRule_keepAccounts (k : Origin) (depth : Nat) : (readRule depth).KeepAccounts k := by
  intro rule tokens held atHand
  induction depth generalizing rule tokens held with
  | zero => exact .tooDeep
  | succ depth ih =>
    cases rule with
    | statement => exact readStatement_adds ih
    | expression => exact readExpression_adds ih
    | binary least => exact readBinary_adds ih
    | unary => exact readUnary_adds ih
    | construct => exact readConstruct_adds ih atHand
    | fragment source line => exact atHand.elim

/-! ## Whole programs -/

/-- Each of some tokens that are laid out starts at the place of an offset, and stops before the
next one. -/
theorem Laid.exists_offset {source : Text} {line : Int} {tokens : List Token} {stop : Nat}
    (h : Laid source line tokens stop) {t : Token} (ht : t ∈ tokens) :
    ∃ offset, offset + t.source.length ≤ stop
      ∧ (⟨t.line, t.column⟩ : Place) = placeAt source line offset := by
  induction h with
  | nil => cases ht
  | @snoc tokens token stop offset before le gap stands place newline ih =>
    rcases List.mem_append.mp ht with earlier | last
    · obtain ⟨offset', within, same⟩ := ih earlier
      exact ⟨offset', by omega, same⟩
    · obtain rfl := List.mem_singleton.mp last
      exact ⟨offset, Nat.le_refl _, place⟩

/-- Tokens that are laid out, none but the last of them empty, **differ in their origins**. -/
theorem Laid.nodup_origins {source : Text} {line : Int} {tokens : List Token} {stop : Nat}
    (h : Laid source line tokens stop) (inside : stop ≤ source.length)
    (notEmpty : ∀ t ∈ tokens.dropLast, t.source ≠ []) : (tokens.map Token.origin).Nodup := by
  induction h with
  | nil => exact List.nodup_nil
  | @snoc tokens token stop offset before le gap stands place newline ih =>
    rw [List.dropLast_concat] at notEmpty
    have earlier := ih (by omega) fun t ht => notEmpty t ((List.dropLast_sublist tokens).subset ht)
    rw [List.map_append, List.map_singleton]
    refine List.nodup_append.mpr ⟨earlier, List.nodup_singleton _, fun k hk k' hk' same => ?_⟩
    obtain ⟨t, ht, rfl⟩ := List.mem_map.mp hk
    obtain rfl := List.mem_singleton.mp hk'
    -- The earlier token stops before the later one starts, and is not empty.
    obtain ⟨offset', within, place'⟩ := before.exists_offset ht
    have length := List.length_pos_iff.mpr (notEmpty t ht)
    obtain ⟨-, position⟩ := Prod.mk.inj same
    obtain ⟨lines, columns⟩ := Position.mk.inj position
    have columns : t.column = token.column := Int.natCast_inj.mp (Option.some.inj columns)
    rw [lines, columns, place] at place'
    have := placeAt_inj (by omega) (by omega) place'
    omega

/-- The tokens of a text are fair to every origin, if none of them is a template, and what they
end with, if it starts with the end of the text, is no more than that. -/
theorem fair_of_tokenize {source : Text} {tokens : List Token} (cut : tokenize source 1 = .ok tokens)
    (noTemplate : ¬ source.HasTemplate) (k : Origin) :
    Fair k tokens
      ∧ ∀ rest, rest <:+ tokens → rest ≠ [] → (head rest).kind = .endOfText →
        payloadStanding k rest = 0 := by
  have laid := tokenize_lays_out source 1
  rw [cut] at laid
  obtain ⟨laid, proper, last, rfl, ended, -, more⟩ := laid
  have nodup := laid.nodup_origins (Nat.le_refl _) (by
    rw [List.dropLast_concat]
    exact fun t ht => (more t ht).2)
  refine ⟨⟨⟨last, by simp, ended⟩, fun t ht template => noTemplate ⟨_, cut, t, ht, template⟩, ?_⟩, ?_⟩
  · have once := List.nodup_iff_count_le_one.mp nodup k
    rwa [List.count, List.countP_map] at once
  · intro rest within some first
    rcases List.suffix_concat_iff.mp within with rfl | ⟨front, rfl, inner⟩
    · exact absurd rfl some
    · cases front with
      | nil =>
        rw [List.nil_append, payloadStanding, List.countP_singleton, ended]
        rfl
      | cons t front => exact absurd first (more t (inner.subset List.mem_cons_self)).1

/-- **The account of an origin closes**: from all tokens and no leaves to the end and all leaves. -/
theorem counts_of_parseTokens {source : Text} {tokens : List Token} {program : Node}
    (cut : tokenize source 1 = .ok tokens) (parsed : parseTokens tokens = .ok program)
    (noTemplate : ¬ source.HasTemplate) (k : Origin) :
    payloadStanding k tokens + program.shorthands.count k ≤ program.leaves.count k
      ∧ program.leaves.count k ≤ program.shorthands.count k + standing k tokens
      ∧ program.shorthands.count k ≤ namesStanding k tokens := by
  obtain ⟨statements, rest, read, rfl⟩ := statements_of_readProgram parsed
  obtain ⟨fair, none⟩ := fair_of_tokenize cut noTemplate k
  have account : Accounts k tokens 0 rest (0 + Node.tallyAll k statements) :=
    Tallies.manyUntil (fun _ _ => .check)
      (fun rest held => readRule_keepAccounts k _ .statement rest held trivial) fair
      statements rest read
  obtain ⟨t, mem, -⟩ := account.after.ends
  have nothing := none rest account.within (List.ne_nil_of_mem mem) (head_of_manyUntil_check read)
  have made : Node.tallyAll k statements = (Node.make .program statements (head tokens)).tally k :=
    (Node.tally_make_of_ne (by decide) _ _).symm
  rw [zero_add, made, Node.tally] at account
  obtain ⟨-, -, -, least, most, names⟩ := account
  rw [nothing] at least
  simp only [Prod.fst_zero, Prod.snd_zero] at least most names
  exact ⟨by omega, by omega, by omega⟩

/-- **Every token with a meaning of its own is a leaf, and every leaf is a token.** In the program
that a text without templates forms, each name, number, string, regular expression, operator and
step of the text is the origin of exactly one leaf, or of two if it is a name that a property
uses for itself; nothing else is used so; and all leaves originate in tokens. -/
theorem parseProgram_accounts_for_leaves {source : Text} {program : Node}
    (parsed : parseProgram source = .ok program) (noTemplate : ¬ source.HasTemplate) :
    ∃ tokens, tokenize source 1 = .ok tokens
      ∧ (∀ t ∈ tokens, t.kind.isPayload →
        program.leaves.count t.origin = if t.origin ∈ program.shorthands then 2 else 1)
      ∧ (∀ k ∈ program.shorthands, ∃ t ∈ tokens, t.kind = .identifier ∧ t.origin = k)
      ∧ ∀ k ∈ program.leaves, ∃ t ∈ tokens, t.origin = k := by
  unfold parseProgram at parsed
  cases cut : tokenize source 1 with
  | error e =>
    rw [cut] at parsed
    cases parsed
  | ok tokens =>
    rw [cut] at parsed
    have counts := counts_of_parseTokens cut parsed noTemplate
    have name {k : Origin} (mem : k ∈ program.shorthands) :
        ∃ t ∈ tokens, t.kind = .identifier ∧ t.origin = k := by
      have used := List.count_pos_iff.mpr mem
      have named : 0 < namesStanding k tokens := Nat.lt_of_lt_of_le used (counts k).2.2
      obtain ⟨t, ht, found⟩ := List.countP_pos_iff.mp named
      exact ⟨t, ht, by simpa using found⟩
    refine ⟨tokens, rfl, fun t ht payload => ?_, fun k mem => name mem, fun k mem => ?_⟩
    · obtain ⟨least, most, names⟩ := counts t.origin
      have once := (fair_of_tokenize cut noTemplate t.origin).1.once
      have stands : 0 < payloadStanding t.origin tokens :=
        List.countP_pos_iff.mpr ⟨t, ht, by simp [payload]⟩
      have within : namesStanding t.origin tokens ≤ standing t.origin tokens :=
        List.countP_mono_left fun u _ hu => (Bool.and_eq_true_iff.mp hu).2
      split
      · rename_i used
        have := List.count_pos_iff.mpr used
        omega
      · rename_i unused
        rw [List.count_eq_zero.mpr unused] at least most
        omega
    · by_cases used : k ∈ program.shorthands
      · obtain ⟨t, ht, -, same⟩ := name used
        exact ⟨t, ht, same⟩
      · obtain ⟨-, most, -⟩ := counts k
        rw [List.count_eq_zero.mpr used] at most
        have := List.count_pos_iff.mpr mem
        have stands : 0 < standing k tokens := by omega
        obtain ⟨t, ht, found⟩ := List.countP_pos_iff.mp stands
        exact ⟨t, ht, by simpa using found⟩

/-- A program with a step behind its operand and a property that stands for itself. -/
theorem parseProgram_accounts_for_leaves_of_object :
    ∃ program tokens, parseProgram "(\x7ba, b: c++\x7d)" = .ok program
      ∧ ¬ Text.HasTemplate "(\x7ba, b: c++\x7d)"
      ∧ program.shorthands = [(Text.ofString "a", Position.mk 1 (some 3))]
      ∧ tokenize "(\x7ba, b: c++\x7d)" 1 = .ok tokens
      ∧ ∀ t ∈ tokens, t.kind.isPayload →
        program.leaves.count t.origin
          = if t.origin = (Text.ofString "a", Position.mk 1 (some 3)) then 2 else 1 := by
  have noTemplate : ¬ Text.HasTemplate "(\x7ba, b: c++\x7d)" := by decide +kernel
  have itself : (parseProgram "(\x7ba, b: c++\x7d)").toOption.map Node.shorthands
      = some [(Text.ofString "a", Position.mk 1 (some 3))] := by decide +kernel
  cases parsed : parseProgram "(\x7ba, b: c++\x7d)" with
  | error e =>
    rw [parsed] at itself
    cases itself
  | ok program =>
    rw [parsed] at itself
    have used : program.shorthands = [(Text.ofString "a", Position.mk 1 (some 3))] :=
      Option.some.inj itself
    obtain ⟨tokens, cut, accounts, -⟩ := parseProgram_accounts_for_leaves parsed noTemplate
    simp only [used, List.mem_singleton] at accounts
    exact ⟨program, tokens, rfl, noTemplate, used, cut, accounts⟩

end Scriptlet
