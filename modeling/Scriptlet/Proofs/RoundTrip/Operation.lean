import Scriptlet.Proofs.RoundTrip.Expression

/-!
# Operations that are read again

The operands of an operation stand in parentheses, so precedence never decides anything:
after an operand comes the one operator that there is, and after the last operand the
parenthesis around all. What remains to be seen is that the operator is taken by the
reader of its own level, and not by one before it.
-/

namespace Scriptlet

open Reader

namespace Node

variable {n e m : Node} {position : Option Position} {children : List Node} {depth : Nat}
  {s t u : Token} {tokens more rest : List Token} {rules : Rules}

/-! ## Members and calls -/

/-- **An operand and what follows it** at the level of members and calls. -/
theorem readExpression_reads_calls (he : e.ReadsOperand rules) (hu : u.kind ≠ .arrow)
    (ht : t.kind.endsExpression = true)
    (calls : ∀ start given, e.Alike given →
      (readCalls rules start (u :: more).length given).Reads (u :: more) m.Alike (t :: rest)) :
    (readExpression rules).Reads (e.print ++ u :: more) m.Alike (t :: rest) := by
  have arrow : checkArrow.Reads (e.print ++ u :: more) (· = false) (e.print ++ u :: more) :=
    ReadsOperand.checkArrow_reads he.1 hu
  have head : (readHead rules (readConstruct rules)).Reads (e.print ++ u :: more) e.Alike
    (u :: more) := he.head
  obtain ⟨parts, printed, -⟩ := e.print_of_isExpression he.1
  rw [printed] at arrow head ⊢
  refine readExpression_reads_unary ht arrow <|
    readUnary_reads_callMember rfl (TokenKind.endsOperand_of_endsExpression ht) ?_
  exact .current_bind fun start _ => head.bind fun given hgiven => .room_bind (calls start given hgiven)

theorem readNamedMember_reads {start : Token} {given : Node} {text : Text} {place : Position}
    (like : e.Alike given) :
    (readNamedMember given start).Reads
      (TokenKind.dot.mark :: .plain .identifier text :: t :: rest)
      (branch .member position [e, leaf .identifier text place]).Alike (t :: rest) := by
  refine .expect_bind rfl (by simp) fun _ _ => .current_bind fun next hnext => ?_
  have word : next.kind.isWord = true := by
    rw [show next.kind = .identifier from congrArg Token.kind hnext]
    rfl
  rw [if_pos word]
  exact .advance_bind (by simp) fun actual ht => .pure (alike_make (.cons like (.cons (alike_ofToken ht) rfl)))

theorem readComputedMember_reads {start : Token} {given key : Node} (like : e.Alike given)
    (h : (rules .expression).Reads (key.print ++ TokenKind.rightBracket.mark :: t :: rest) key.Alike
      (TokenKind.rightBracket.mark :: t :: rest)) :
    (readComputedMember rules given start).Reads
      (TokenKind.leftBracket.mark :: (key.print ++ TokenKind.rightBracket.mark :: t :: rest))
      (branch .member position [e, key]).Alike (t :: rest) :=
  .expect_bind rfl (by simp) fun _ _ => h.bind fun _ hk => .expect_bind rfl (by simp) fun _ _ =>
    .pure (alike_make (.cons like (.cons hk rfl)))

/-- After a member or call **the end of the operand** is found. -/
theorem readCalls_reads_like {start given : _} {room : Nat} (ht : t.kind.endsOperand = true)
    (like : m.Alike given) :
    (readCalls rules start (room + 1) given).Reads (t :: rest) m.Alike (t :: rest) :=
  (readCalls_reads ht).mono fun _ same => same ▸ like

theorem member_rereads (admitted : Kind.member.admits children = true)
    (ih : ∀ c ∈ children, c.Rereads) : (branch .member position children).Rereads := by
  refine rereads_of_body rfl fun depth rest hd => ?_
  match children, admitted with
  | [owner, key], admitted =>
    obtain ⟨howner, hkey⟩ := Bool.and_eq_true_iff.mp admitted
    rcases Bool.or_eq_true_iff.mp hkey with hkey | hkey
    · obtain ⟨text, place, rfl⟩ := isLeafOf_iff.mp hkey
      have layout : Kind.member.layout (printEach [owner, leaf .identifier text place]) =
        owner.print ++ [TokenKind.dot.mark, .plain .identifier text] := rfl
      rw [layout, List.length_append] at hd
      rw [layout, List.append_assoc]
      refine readExpression_reads_calls ((ih owner (by simp)).operand howner (by omega)) nofun rfl
        fun start given like => ?_
      exact .check_then rfl ((readNamedMember_reads like).bind fun made hmade =>
        readCalls_reads_like rfl hmade)
    · obtain ⟨parts, printed, -⟩ := key.print_of_isExpression hkey
      have layout : Kind.member.layout (printEach [owner, key]) =
          owner.print ++ between .leftBracket .rightBracket key.print := by
        rw [printEach, printEach, printed]
        cases parts <;> rfl
      rw [layout, List.length_append, length_between] at hd
      rw [layout, List.append_assoc, between_append]
      refine readExpression_reads_calls ((ih owner (by simp)).operand howner (by omega)) nofun rfl
        fun start given like => ?_
      rw [List.length_cons, List.length_append]
      refine .check_else nofun (.check_then rfl (Reads.bind ?_ fun made hmade =>
        readCalls_reads_like rfl hmade))
      exact readComputedMember_reads like ((ih key (by simp)).expression hkey (by omega) rfl)

/-- Arguments start with a parenthesis. -/
theorem print_of_arguments (he : e.isOf .arguments = true) :
    ∃ parts, e.print = between .leftParen .rightParen parts := by
  obtain ⟨position, children, rfl⟩ := isOf_iff.mp he
  exact ⟨_, rfl⟩

theorem call_rereads (admitted : Kind.call.admits children = true)
    (ih : ∀ c ∈ children, c.Rereads) : (branch .call position children).Rereads := by
  refine rereads_of_body rfl fun depth rest hd => ?_
  match children, admitted with
  | [callee, args], admitted =>
    obtain ⟨hcallee, hargs⟩ := Bool.and_eq_true_iff.mp admitted
    have layout : Kind.call.layout (printEach [callee, args]) = callee.print ++ args.print := by simp
    rw [layout, List.length_append] at hd
    rw [layout, List.append_assoc]
    have reads : (readArguments (readRule depth)).Reads
        (args.print ++ TokenKind.rightParen.mark :: rest) args.Alike
        (TokenKind.rightParen.mark :: rest) :=
      (ih args (by simp)).reads hargs rfl (by omega) (mayPrecede_of_isOf hargs rfl nofun)
    obtain ⟨parts, printed⟩ := print_of_arguments hargs
    rw [printed, between_append] at reads
    rw [printed, between_append]
    refine readExpression_reads_calls ((ih callee (by simp)).operand hcallee (by omega)) nofun rfl
      fun start given like => ?_
    rw [List.length_cons, List.length_append, List.length_cons, List.length_cons]
    refine .check_else nofun (.check_else nofun (.check_then rfl (reads.bind fun made hmade => ?_)))
    exact readCalls_reads_like rfl (alike_make (.cons like (.cons hmade rfl)))

/-- No member follows the callee of a construction before its arguments. -/
theorem readMembers_reads {start : Token} {room : Nat} (dot : t.kind ≠ .dot)
    (bracket : t.kind ≠ .leftBracket) :
    (readMembers rules start (room + 1) n).Reads (t :: rest) (n = ·) (t :: rest) :=
  .check_else dot (.check_else bracket (.pure rfl))

theorem construct_rereads (admitted : Kind.construct.admits children = true)
    (ih : ∀ c ∈ children, c.Rereads) : (branch .construct position children).Rereads := by
  refine rereads_of_body rfl fun depth rest hd => ?_
  match children, admitted with
  | [callee, args], admitted =>
    obtain ⟨hcallee, hargs⟩ := Bool.and_eq_true_iff.mp admitted
    have layout : Kind.construct.layout (printEach [callee, args]) =
        TokenKind.newWord.mark :: (callee.print ++ args.print) := by simp
    rw [layout, List.length_cons, List.length_append] at hd
    rw [layout, List.cons_append, List.append_assoc]
    have reads : (readArguments (readRule depth)).Reads
        (args.print ++ TokenKind.rightParen.mark :: rest) args.Alike
        (TokenKind.rightParen.mark :: rest) :=
      (ih args (by simp)).reads hargs rfl (by omega) (mayPrecede_of_isOf hargs rfl nofun)
    obtain ⟨parts, printed⟩ := print_of_arguments hargs
    rw [printed, between_append] at reads
    rw [printed, between_append]
    have operand : callee.ReadsOperand (readRule depth) :=
      (ih callee (by simp)).operand hcallee (by omega)
    have constructed : (readConstructed (readRule depth)).Reads
        (callee.print ++ TokenKind.leftParen.mark ::
          (parts ++ TokenKind.rightParen.mark :: TokenKind.rightParen.mark :: rest)) callee.Alike
        (TokenKind.leftParen.mark ::
          (parts ++ TokenKind.rightParen.mark :: TokenKind.rightParen.mark :: rest)) :=
      .start_bind fun start => operand.head.bind fun given like =>
        .room_bind (Reads.mono (readMembers_reads nofun nofun) fun called same => same ▸ like)
    refine readExpression_reads_unary rfl (checkArrow_reads nofun nofun) ?_
    refine readUnary_reads_callMember rfl rfl (readCallMember_reads rfl (.check_then rfl ?_))
    refine .advance_bind (by simp) fun first _ => constructed.bind fun made hmade => ?_
    refine Reads.bind (.check_then rfl reads) fun given hgiven => ?_
    exact .pure (alike_make (.cons hmade (.cons hgiven rfl)))

/-! ## Operators before an operand -/

/-- What stands before an operand is printed as such. -/
theorem isPrefixOperator_of_mem {op : Text} (h : op ∈ prefixOperators) :
    isPrefixOperator (.plain (operatorKind op) op) = true ∧
      operatorKind op ≠ .identifier ∧ operatorKind op ≠ .leftParen := by
  have all : ∀ op ∈ prefixOperators, isPrefixOperator (.plain (operatorKind op) op) = true ∧
      operatorKind op ≠ .identifier ∧ operatorKind op ≠ .leftParen := by decide
  exact all op h

/-- A step is printed as one. -/
theorem isStep_of_mem {op : Text} (h : op ∈ stepSigns) :
    (operatorKind op == .increment || operatorKind op == .decrement) = true ∧
      isPrefixOperator (.plain (operatorKind op) op) = false ∧
      operatorKind op ≠ .identifier ∧ operatorKind op ≠ .leftParen := by
  have all : ∀ op ∈ stepSigns,
      (operatorKind op == .increment || operatorKind op == .decrement) = true ∧
      isPrefixOperator (.plain (operatorKind op) op) = false ∧
      operatorKind op ≠ .identifier ∧ operatorKind op ≠ .leftParen := by decide
  exact all op h

/-- An operand with its operators is read by the rule for these, one level deeper. -/
theorem Rereads.unary (h : e.Rereads) (he : e.isExpression = true) (hd : e.print.length < depth)
    (ht : t.kind.endsOperand = true) :
    (readRule depth .unary).Reads (e.print ++ t :: rest) e.Alike (t :: rest) := by
  cases depth with
  | zero => exact absurd hd (Nat.not_lt_zero _)
  | succ depth => exact (h.operand he (Nat.le_of_lt_succ hd)).unary ht

theorem unary_rereads (admitted : Kind.unary.admits children = true)
    (ih : ∀ c ∈ children, c.Rereads) : (branch .unary position children).Rereads := by
  refine rereads_of_body rfl fun depth rest hd => ?_
  match children, admitted with
  | [sign, operand], admitted =>
    obtain ⟨hsign, hoperand⟩ := Bool.and_eq_true_iff.mp admitted
    obtain ⟨op, place, rfl, hop⟩ := isLeafAmong_iff.mp hsign
    obtain ⟨before, name, paren⟩ := isPrefixOperator_of_mem hop
    have layout : Kind.unary.layout (printEach [leaf .operator op place, operand]) =
        .plain (operatorKind op) op :: operand.print := by simp
    rw [layout, List.length_cons] at hd
    rw [layout]
    refine readExpression_reads_unary rfl (checkArrow_reads name paren) ?_
    refine .current_bind fun start same => ?_
    rw [if_pos (by rw [← before, ← same]; rfl)]
    refine .advance_bind (by simp) fun _ _ => ?_
    refine ((ih operand (by simp)).unary hoperand (by omega) rfl).bind fun made like => ?_
    exact .pure (alike_make (.cons (alike_ofToken same) (.cons like rfl)))

theorem update_rereads (admitted : Kind.update.admits children = true)
    (ih : ∀ c ∈ children, c.Rereads) : (branch .update position children).Rereads := by
  refine rereads_of_body rfl fun depth rest hd => ?_
  match children, admitted with
  | [sign, target], admitted =>
    obtain ⟨hsign, htarget⟩ := Bool.and_eq_true_iff.mp admitted
    obtain ⟨op, place, rfl, hop⟩ := isLeafAmong_iff.mp hsign
    obtain ⟨step, notPrefix, name, paren⟩ := isStep_of_mem hop
    have layout : Kind.update.layout (printEach [leaf .operator op place, target]) =
        .plain (operatorKind op) op :: target.print := by simp
    rw [layout, List.length_cons] at hd
    rw [layout]
    refine readExpression_reads_unary rfl (checkArrow_reads name paren) ?_
    refine .current_bind fun start same => ?_
    rw [if_neg (by rw [show isPrefixOperator start = false by rw [← notPrefix, ← same]; rfl]; nofun)]
    refine Reads.bind (Q := (· = true)) (.current_bind fun next hnext => .pure ?_) ?_
    · rw [← step, show next.kind = operatorKind op from congrArg Token.kind hnext]
    rintro _ rfl
    refine .advance_bind (by simp) fun _ _ => ?_
    refine ((ih target (by simp)).unary (isExpression_of_isTarget htarget) (by omega) rfl).bind
      fun made like => ?_
    rw [if_pos (like.isTarget.symm.trans htarget)]
    exact .pure (alike_make (.cons (alike_ofToken same) (.cons like rfl)))

/-! ## Operators after an operand -/

/-- **The first operand of an operation**: it is no arrow, and it ends before the
operator. -/
theorem ReadsOperand.first (h : e.ReadsOperand rules) (u : Token) (more : List Token)
    (hu : u.kind.endsOperand = true) : ∃ s tokens, e.print ++ u :: more = s :: tokens ∧
      checkArrow.Reads (s :: tokens) (· = false) (s :: tokens) ∧
      (readUnary rules).Reads (s :: tokens) e.Alike (u :: more) := by
  have arrow : checkArrow.Reads (e.print ++ u :: more) (· = false) (e.print ++ u :: more) :=
    checkArrow_reads h.1 (TokenKind.ne_of hu rfl)
  have reads : (readUnary rules).Reads (e.print ++ u :: more) e.Alike (u :: more) := h.unary hu
  obtain ⟨parts, printed, -⟩ := e.print_of_isExpression h.1
  rw [printed] at arrow reads ⊢
  exact ⟨_, _, rfl, arrow, reads⟩

/-- What stands between operands is printed as such. -/
theorem precedence?_of_mem {op : Text} (h : op ∈ precedences.map Prod.fst) :
    (∃ precedence, precedence? (.plain (operatorKind op) op) = some precedence ∧
      1 ≤ precedence) ∧ (operatorKind op).endsOperand = true := by
  have all : ∀ op ∈ precedences.map Prod.fst,
      (precedence? (.plain (operatorKind op) op)).any (1 ≤ ·) = true ∧
      (operatorKind op).endsOperand = true := by decide
  obtain ⟨known, ends⟩ := all op h
  obtain ⟨precedence, found, positive⟩ := (Option.any_eq_true ..).mp known
  exact ⟨⟨precedence, found, of_decide_eq_true positive⟩, ends⟩

/-- A right operand is read by the rule for binary operators, one level deeper. -/
theorem Rereads.binary {least : Nat} (h : e.Rereads) (he : e.isExpression = true)
    (hd : e.print.length < depth) (ht : t.kind.endsExpression = true) :
    (readRule depth (.binary least)).Reads (e.print ++ t :: rest) e.Alike (t :: rest) := by
  cases depth with
  | zero => exact absurd hd (Nat.not_lt_zero _)
  | succ depth =>
    obtain ⟨s, tokens, same, -, reads⟩ := (h.operand he (Nat.le_of_lt_succ hd)).first t rest
      (TokenKind.endsOperand_of_endsExpression ht)
    rw [same]
    exact readBinary_reads (precedence?_eq_none ht) reads

/-- **An operator between two operands.** -/
theorem readExpression_reads_operation {kind : Kind} {left right : Node} {op : Text}
    {place : Position} (known : op ∈ precedences.map Prod.fst)
    (hk : (if logicalOperators.contains op then .logical else .binary) = kind)
    (hleft : left.ReadsOperand (readRule depth)) (hright : right.isExpression = true)
    (ih : right.Rereads) (hd : right.print.length < depth) (ht : t.kind.endsExpression = true) :
    (readExpression (readRule depth)).Reads
      (left.print ++ .plain (operatorKind op) op :: (right.print ++ t :: rest))
      (branch kind position [left, leaf .operator op place, right]).Alike (t :: rest) := by
  obtain ⟨⟨precedence, found, positive⟩, ends⟩ := precedence?_of_mem known
  obtain ⟨s, tokens, same, arrow, first⟩ := hleft.first (.plain (operatorKind op) op)
    (right.print ++ t :: rest) ends
  rw [same]
  refine readExpression_reads (TokenKind.ne_of ht rfl) arrow <|
    readConditional_reads (TokenKind.ne_of ht rfl) ?_
  refine .current_bind fun start _ => first.bind fun made hmade => .room_bind ?_
  rw [List.length_cons, List.length_append, List.length_cons, ← Nat.add_assoc, readOperators]
  refine .current_bind fun next hnext => ?_
  rw [show precedence? next = some precedence by rw [← found, ← hnext]; rfl]
  show Reads (ite _ _ _) _ _ _
  rw [if_neg (Nat.not_lt.mpr positive)]
  refine .advance_bind (by simp) fun actual hactual => ?_
  rw [show actual.text = op from congrArg Token.text hactual, hk]
  refine (ih.binary hright hd ht).bind fun given hgiven => ?_
  refine (readOperators_reads (precedence?_eq_none ht)).mono fun operated same => ?_
  exact same ▸ alike_make (.cons hmade (.cons (alike_ofToken hactual) (.cons hgiven rfl)))

theorem binary_rereads (admitted : Kind.binary.admits children = true)
    (ih : ∀ c ∈ children, c.Rereads) : (branch .binary position children).Rereads := by
  refine rereads_of_body rfl fun depth rest hd => ?_
  match children, admitted with
  | [left, sign, right], admitted =>
    obtain ⟨both, hright⟩ := Bool.and_eq_true_iff.mp admitted
    obtain ⟨hleft, hsign⟩ := Bool.and_eq_true_iff.mp both
    obtain ⟨op, place, rfl, hop⟩ := isLeafAmong_iff.mp hsign
    obtain ⟨known, strict⟩ := List.mem_filter.mp hop
    have layout : Kind.binary.layout (printEach [left, leaf .operator op place, right]) =
        left.print ++ .plain (operatorKind op) op :: right.print := by simp
    rw [layout, List.length_append, List.length_cons] at hd
    rw [layout, List.append_assoc, List.cons_append]
    have operand : left.ReadsOperand (readRule depth) :=
      (ih left (by simp)).operand hleft (by omega)
    exact readExpression_reads_operation known (if_neg (by simpa using strict)) operand hright
      (ih right (by simp)) (by omega) rfl

theorem logical_rereads (admitted : Kind.logical.admits children = true)
    (ih : ∀ c ∈ children, c.Rereads) : (branch .logical position children).Rereads := by
  refine rereads_of_body rfl fun depth rest hd => ?_
  match children, admitted with
  | [left, sign, right], admitted =>
    obtain ⟨both, hright⟩ := Bool.and_eq_true_iff.mp admitted
    obtain ⟨hleft, hsign⟩ := Bool.and_eq_true_iff.mp both
    obtain ⟨op, place, rfl, hop⟩ := isLeafAmong_iff.mp hsign
    have known : ∀ op ∈ logicalOperators, op ∈ precedences.map Prod.fst := by decide
    have layout : Kind.logical.layout (printEach [left, leaf .operator op place, right]) =
        left.print ++ .plain (operatorKind op) op :: right.print := by simp
    rw [layout, List.length_append, List.length_cons] at hd
    rw [layout, List.append_assoc, List.cons_append]
    have operand : left.ReadsOperand (readRule depth) :=
      (ih left (by simp)).operand hleft (by omega)
    exact readExpression_reads_operation (known op hop) (if_pos (List.contains_iff_mem.mpr hop))
      operand hright (ih right (by simp)) (by omega) rfl

theorem conditional_rereads (admitted : Kind.conditional.admits children = true)
    (ih : ∀ c ∈ children, c.Rereads) : (branch .conditional position children).Rereads := by
  refine rereads_of_body rfl fun depth rest hd => ?_
  match children, admitted with
  | [test, consequent, alternate], admitted =>
    obtain ⟨both, halternate⟩ := Bool.and_eq_true_iff.mp admitted
    obtain ⟨htest, hconsequent⟩ := Bool.and_eq_true_iff.mp both
    have layout : Kind.conditional.layout (printEach [test, consequent, alternate]) =
        test.print ++ TokenKind.question.mark ::
          (consequent.print ++ TokenKind.colon.mark :: alternate.print) := by simp
    rw [layout, List.length_append, List.length_cons, List.length_append, List.length_cons] at hd
    rw [layout, List.append_assoc, List.cons_append, List.append_assoc, List.cons_append]
    have operand : test.ReadsOperand (readRule depth) :=
      (ih test (by simp)).operand htest (by omega)
    obtain ⟨s, tokens, same, arrow, first⟩ := operand.first TokenKind.question.mark
      (consequent.print ++ TokenKind.colon.mark :: (alternate.print ++ TokenKind.rightParen.mark :: rest)) rfl
    rw [same]
    refine readExpression_reads nofun arrow ?_
    refine .current_bind fun start _ => (readBinary_reads rfl first).bind fun made hmade => ?_
    refine .accept_then rfl (by simp) ?_
    refine ((ih consequent (by simp)).expression hconsequent (by omega) rfl).bind fun one hone => ?_
    refine .expect_bind rfl (by simp) fun _ _ => ?_
    refine ((ih alternate (by simp)).expression halternate (by omega) rfl).bind fun two htwo => ?_
    exact .pure (alike_make (.cons hmade (.cons hone (.cons htwo rfl))))

theorem assign_rereads (admitted : Kind.assign.admits children = true)
    (ih : ∀ c ∈ children, c.Rereads) : (branch .assign position children).Rereads := by
  refine rereads_of_body rfl fun depth rest hd => ?_
  match children, admitted with
  | [target, sign, value], admitted =>
    obtain ⟨both, hvalue⟩ := Bool.and_eq_true_iff.mp admitted
    obtain ⟨htarget, hsign⟩ := Bool.and_eq_true_iff.mp both
    obtain ⟨op, place, rfl, hop⟩ := isLeafAmong_iff.mp hsign
    have signs : ∀ op ∈ assignmentSigns, operatorKind op = .assign := by decide
    have layout : Kind.assign.layout (printEach [target, leaf .operator op place, value]) =
        target.print ++ .plain .assign op :: value.print := by
      simp [signs op hop]
    rw [layout, List.length_append, List.length_cons] at hd
    rw [layout, List.append_assoc, List.cons_append]
    have operand : target.ReadsOperand (readRule depth) :=
      (ih target (by simp)).operand (isExpression_of_isTarget htarget) (by omega)
    obtain ⟨s, tokens, same, arrow, first⟩ := operand.first (.plain .assign op)
      (value.print ++ TokenKind.rightParen.mark :: rest) rfl
    rw [same]
    have reads : (readConditional (readRule depth)).Reads (s :: tokens) target.Alike
      (.plain .assign op :: (value.print ++ TokenKind.rightParen.mark :: rest)) :=
        readConditional_reads nofun (readBinary_reads rfl first)
    refine arrow.bind ?_
    rintro _ rfl
    refine .current_bind fun start _ => reads.bind fun made hmade => ?_
    refine .check_then rfl ?_
    rw [if_pos (hmade.isTarget.symm.trans htarget)]
    refine .advance_bind (by simp) fun actual hactual => ?_
    refine ((ih value (by simp)).expression hvalue (by omega) rfl).bind fun given hgiven => ?_
    exact .pure (alike_make (.cons hmade (.cons (alike_ofToken hactual) (.cons hgiven rfl))))

end Node

end Scriptlet
