import Scriptlet.Proofs.Newline.Grammar

/-!
# Operators and statements at a seam

The grammar, continued. An expression may stop at the seam, in front of the semicolon; what it
could have gone on with there has to be looked for in both readings with the same answer. That is
so for an operator and for the sign of an assignment because the token behind the seam is apart,
and for a step because a line ends in front of it. The search for an arrow even crosses the seam,
which it can because a semicolon is no bracket.

With the statements the two readings come together again: where one statement has ended at the seam
and the next is read, its first token is seen by both, and that it starts a statement shows that it
is apart.
-/

namespace Scriptlet

open Reader Seam

namespace Seam

variable {e : Seam} {tokens tokens' left left' limit : List Token} {rules rules' : Rules}
  {t start : Token} {kind : TokenKind}

/-! ## What is seen at the seam -/

/-- A step behind the seam stands on a line of its own. -/
theorem Beside.step_eq (beside : e.Beside tokens tokens') :
    (((head tokens').kind == .increment || (head tokens').kind == .decrement)
        && !(head tokens').newlineBefore)
      = (((head tokens).kind == .increment || (head tokens).kind == .decrement)
        && !(head tokens).newlineBefore) := by
  cases beside with
  | inside inside => rw [inside.head_eq]
  | seam =>
    have semicolon : (((head e.written).kind == .increment || (head e.written).kind == .decrement)
        && !(head e.written).newlineBefore) = false := by
      show ((e.semicolon.kind == .increment || e.semicolon.kind == .decrement) && _) = false
      rw [e.isSemicolon]
      rfl
    rw [semicolon]
    show ((e.next'.kind == .increment || e.next'.kind == .decrement) && !e.next'.newlineBefore) = false
    rcases e.ends with brace | ended | newline
    · rw [brace]
      rfl
    · rw [ended]
      rfl
    · rw [newline, Bool.not_true, Bool.and_false]

/-- No operator between operands stands at the seam. -/
theorem Beside.precedence?_eq (beside : e.Beside tokens tokens') (apart : e.IsApart) :
    precedence? (head tokens') = precedence? (head tokens) := by
  have noOperator {t : Token} (other : t.kind ≠ .operator ∧ t.kind ≠ .inWord ∧ t.kind ≠ .instanceofWord) :
      precedence? t = none := by
    unfold precedence?
    split <;> simp_all
  cases beside with
  | inside inside => rw [inside.head_eq]
  | seam =>
    have next : precedence? e.next' = none := by
      refine noOperator ⟨?_, ?_, ?_⟩ <;> exact beq_eq_false_iff_ne.mp (apart.ne (by decide))
    have semicolon : precedence? e.semicolon = none :=
      noOperator (by rw [e.isSemicolon]; exact ⟨nofun, nofun, nofun⟩)
    exact next.trans semicolon.symm

/-- The search for an arrow crosses the seam. -/
theorem arrowAhead_eq (apart : e.IsApart) (depth : Nat) (front : List Token) :
    arrowAhead depth (front ++ e.implied) = arrowAhead depth (front ++ e.written) := by
  induction front generalizing depth with
  | nil =>
    have crosses : arrowAhead depth e.written = arrowAhead depth (e.next :: e.rest) := by
      rw [written, arrowAhead, e.isSemicolon]
      rfl
    rw [List.nil_append, List.nil_append, crosses, implied, arrowAhead, arrowAhead, kind_next']
  | cons t front ih =>
    have first : ((front ++ e.implied).head?.any fun next => next.kind == .arrow && !next.newlineBefore)
        = ((front ++ e.written).head?.any fun next => next.kind == .arrow && !next.newlineBefore) := by
      cases front with
      | cons => rfl
      | nil =>
        show (e.next'.kind == .arrow && _) = (e.semicolon.kind == .arrow && _)
        rw [apart.ne (by decide), semicolon_ne (by decide)]
        rfl
    rw [List.cons_append, List.cons_append, arrowAhead, arrowAhead, ih, ih, ih, first]

/-- The token behind the first of some tokens, or the last one. -/
def second (tokens : List Token) : Token :=
  (tokens[1]?).getD (tokens.getLastD Token.missing)

/-- Whether an arrow starts with the first of some tokens. -/
def startsArrow (tokens : List Token) : Bool :=
  match (head tokens).kind with
  | .identifier => (second tokens).kind == .arrow
  | .leftParen => arrowAhead 0 tokens
  | _ => false

theorem run_checkArrow_bind {next : Bool → Reader β} :
    (checkArrow >>= next) tokens = next (startsArrow tokens) tokens := by
  have looks : checkArrow tokens = .ok (startsArrow tokens, tokens) := by
    unfold checkArrow startsArrow
    rw [Reader.current_bind_eq]
    cases (head tokens).kind <;> rfl
  exact Reader.bind_eq_of_ok looks

/-- **Where an arrow starts** in one reading it does in the other. -/
theorem Inside.startsArrow_eq (inside : e.Inside tokens tokens') (apart : e.IsApart) :
    startsArrow tokens' = startsArrow tokens := by
  cases inside with
  | behind => rfl
  | ahead u front =>
    have bare : ((second (u :: front ++ e.implied)).kind == .arrow)
        = ((second (u :: front ++ e.written)).kind == .arrow) := by
      cases front with
      | cons => rfl
      | nil => exact (apart.ne (by decide)).trans (semicolon_ne (by decide)).symm
    have first : head (u :: front ++ e.implied) = head (u :: front ++ e.written) := rfl
    rw [startsArrow, startsArrow, first, bare, arrowAhead_eq apart]

theorem Follows.checkArrow_bind (inside : e.Inside tokens tokens') {next next' : Bool → Reader β}
    (h : e.Follows tokens tokens' limit (next (startsArrow tokens)) (next' (startsArrow tokens))) :
    e.Follows tokens tokens' limit (checkArrow >>= next) (checkArrow >>= next') := by
  intro a left hrun
  rw [run_checkArrow_bind] at hrun
  obtain ⟨left', beside, within, same⟩ := h a left hrun
  refine ⟨left', beside, within, fun apart => ?_⟩
  rw [run_checkArrow_bind, inside.startsArrow_eq apart]
  exact same apart

theorem Follows.checkStep_bind (inside : e.Inside tokens tokens') {next next' : Bool → Reader β}
    (h : e.Follows tokens tokens' limit
      (next ((head tokens).kind == .increment || (head tokens).kind == .decrement))
      (next' ((head tokens).kind == .increment || (head tokens).kind == .decrement))) :
    e.Follows tokens tokens' limit (checkStep >>= next) (checkStep >>= next') := by
  refine h.congr fun _ => ?_
  rw [← inside.head_eq]
  rfl

/-- Looking for a step on the same line. -/
theorem Follows.lineStep_bind (beside : e.Beside tokens tokens') {yes yes' no no' : Reader β}
    (hyes : e.Inside tokens tokens' →
      ((head tokens).kind == .increment || (head tokens).kind == .decrement) = true →
      e.Follows tokens tokens' limit yes yes')
    (hno : e.Follows tokens tokens' limit no no') :
    e.Follows tokens tokens' limit
      (checkStep >>= fun step => current >>= fun t => if step && !t.newlineBefore then yes else no)
      (checkStep >>= fun step => current >>= fun t => if step && !t.newlineBefore then yes' else no') := by
  let sees (t : Token) : Bool := (t.kind == .increment || t.kind == .decrement) && !t.newlineBefore
  have steps : e.Follows tokens tokens' limit (if sees (head tokens) then yes else no)
      (if sees (head tokens) then yes' else no') := by
    refine .ite (fun step => ?_) fun _ => hno
    have step := (Bool.and_eq_true_iff.mp step).1
    refine hyes ?_ step
    rcases Bool.or_eq_true_iff.mp step with found | found <;>
      exact beside.inside_of_found found (by decide)
  refine steps.congr fun _ => ?_
  rw [show sees (head tokens) = sees (head tokens') from beside.step_eq.symm]
  rfl

/-- Looking for an operator between operands. -/
theorem Follows.operator_bind (beside : e.Beside tokens tokens') {yes yes' : Nat → Reader β}
    {no no' : Reader β}
    (hyes : ∀ n, e.Inside tokens tokens' → precedence? (head tokens) = some n →
      e.Follows tokens tokens' limit (yes n) (yes' n))
    (hno : e.Follows tokens tokens' limit no no') :
    e.Follows tokens tokens' limit
      (current >>= fun t => match precedence? t with
        | none => no
        | some n => yes n)
      (current >>= fun t => match precedence? t with
        | none => no'
        | some n => yes' n) := by
  have operators : e.Follows tokens tokens' limit
      (match precedence? (head tokens) with
        | none => no
        | some n => yes n)
      (match precedence? (head tokens) with
        | none => no'
        | some n => yes' n) := by
    cases operator : precedence? (head tokens) with
    | none => exact hno
    | some n =>
      refine hyes n ?_ operator
      cases beside with
      | inside inside => exact inside
      | seam =>
        unfold precedence? at operator
        rw [show (head e.written).kind = .semicolon from e.isSemicolon] at operator
        cases operator
  refine operators.congr fun apart => ?_
  rw [← beside.precedence?_eq apart]
  rfl

/-- Looking for an equals sign. -/
theorem Follows.equals_bind (beside : e.Beside tokens tokens') {yes yes' no no' : Reader β}
    (hyes : e.Inside tokens tokens' → ((head tokens).kind == .assign) = true →
      e.Follows tokens tokens' limit yes yes')
    (hno : e.Follows tokens tokens' limit no no') :
    e.Follows tokens tokens' limit
      (current >>= fun t => if t.kind == .assign && t.text == "=" then yes else no)
      (current >>= fun t => if t.kind == .assign && t.text == "=" then yes' else no') := by
  have signs : e.Follows tokens tokens' limit
      (if (head tokens).kind == .assign && (head tokens).text == "=" then yes else no)
      (if (head tokens).kind == .assign && (head tokens).text == "=" then yes' else no') := by
    refine .ite (fun equals => ?_) fun _ => hno
    have found := (Bool.and_eq_true_iff.mp equals).1
    exact hyes (beside.inside_of_found found (by decide)) found
  refine signs.congr fun apart => ?_
  have same : ((head tokens').kind == .assign && (head tokens').text == "=")
      = ((head tokens).kind == .assign && (head tokens).text == "=") := by
    cases beside with
    | inside inside => rw [inside.head_eq]
    | seam =>
      show (e.next'.kind == .assign && _) = (e.semicolon.kind == .assign && _)
      rw [apart.ne (by decide), semicolon_ne (by decide), Bool.false_and, Bool.false_and]
  rw [← same]
  rfl

/-! ## Operators -/

section Below

variable (h : e.FollowsBelow tokens' rules rules')
include h

theorem readPostfix_follows (beside : e.Beside tokens tokens') :
    e.Follows tokens tokens' tokens'.tail (readPostfix rules) (readPostfix rules') := by
  refine .of_inside beside (fails_of_semicolon fun _ _ _ _ _ => ⟨_, rfl⟩) fun inside => ?_
  refine .current_bind inside ((readCallMember_follows h beside).bind fun target left left' beside _ => ?_)
  refine .lineStep_bind beside (fun inside step => .ite (fun _ => ?_) fun _ => .fail) (.pure beside)
  exact .loose (.advance_bind inside (more_of_step step) fun _ _ beside _ => .pure beside)

theorem readUnary_follows (beside : e.Beside tokens tokens') :
    e.Follows tokens tokens' tokens'.tail (readUnary rules) (readUnary rules') := by
  refine .of_inside beside (fails_of_semicolon fun _ _ _ _ _ => ⟨_, rfl⟩) fun inside => ?_
  have operand {left left' : List Token} (beside : e.Beside left left') (within : left' <:+ tokens'.tail) :
      e.Follows left left' left'.tail (rules .unary) (rules' .unary) :=
    h.follows .unary left left' nofun beside trivial within
  refine .current_bind inside (.ite (fun isPrefix => ?_) fun _ => ?_)
  · refine .advance_bind inside (more_of_isPrefixOperator isPrefix) fun left left' beside within => ?_
    exact ((operand beside within).bind fun _ _ _ beside _ => .pure beside).loose
  · refine .checkStep_bind inside (.ite (fun step => ?_) fun _ => readPostfix_follows h beside)
    refine .advance_bind inside (more_of_step step) fun left left' beside within => ?_
    exact ((operand beside within).bind fun _ _ _ beside _ => .ite (fun _ => .pure beside)
      fun _ => .fail).loose

theorem readOperators_follows {least n n' : Nat} {first : Node} (beside : e.Beside tokens tokens')
    (bound : tokens'.length ≤ n') :
    e.Follows tokens tokens' tokens' (readOperators rules least start n first)
      (readOperators rules' least start n' first) := by
  induction n generalizing tokens tokens' n' first with
  | zero => exact fun _ _ same => by cases same
  | succ n ih =>
    obtain ⟨m, rfl⟩ := beside.exists_succ bound
    rw [readOperators, readOperators]
    refine .operator_bind beside (fun precedence inside operator => ?_) (.pure beside)
    refine .ite (fun _ => .pure beside) fun _ => .loose ?_
    refine .advance_bind inside (more_of_precedence? operator) fun left left' beside within => ?_
    refine ((h.follows (.binary _) left left' (by simp) beside trivial within).bind
      fun right left₁ left₁' beside within₁ => ?_).loose
    have behind := suffix_of_tail within₁ within
    exact ih (h.behind behind) beside (EndAlike.length_tail_le bound behind)

theorem readBinary_follows {least : Nat} (beside : e.Beside tokens tokens') :
    e.Follows tokens tokens' tokens'.tail (readBinary rules least) (readBinary rules' least) := by
  refine .of_inside beside (fails_of_semicolon fun _ _ _ _ _ => ⟨_, rfl⟩) fun inside => ?_
  refine .current_bind inside ((readUnary_follows h beside).bind
    fun first left left' beside within => .room_bind ?_)
  exact readOperators_follows (h.behind within) beside (Nat.le_refl _)

theorem readConditional_follows (beside : e.Beside tokens tokens') :
    e.Follows tokens tokens' tokens'.tail (readConditional rules) (readConditional rules') := by
  refine .of_inside beside (fails_of_semicolon fun _ _ _ _ _ => ⟨_, rfl⟩) fun inside => ?_
  refine .current_bind inside ((readBinary_follows h beside).bind fun test left left' beside within => ?_)
  refine .accept_bind beside (by decide) (List.tail_suffix left')
    (fun left₁ left₁' beside within₁ => ?_) (.pure beside)
  have below₁ := suffix_of_tail within₁ within
  refine ((h.expression beside below₁).bind fun consequent left₂ left₂' beside within₂ => ?_).loose
  refine ((Follows.expect beside (by decide) (by decide)).bind
    fun _ left₃ left₃' beside within₃ => ?_).loose
  exact h.expression_pure beside (suffix_of_tail within₃ (suffix_of_tail within₂ below₁))

omit h in
theorem fails_readExpression : e.Fails (readExpression rules) :=
  fails_of_semicolon fun _ _ _ _ _ => ⟨_, rfl⟩

/-- **Expressions** are followed up to the seam and behind it. -/
theorem readExpression_follows (beside : e.Beside tokens tokens') :
    e.Follows tokens tokens' tokens'.tail (readExpression rules) (readExpression rules') := by
  refine .of_inside beside fails_readExpression fun inside => ?_
  refine .checkArrow_bind inside (.ite (fun _ => readArrow_follows h inside) fun _ => ?_)
  refine .current_bind inside ((readConditional_follows h beside).bind fun first left left' beside within => ?_)
  refine .check_bind beside (by decide) (.ite (fun assigns => .ite (fun _ => ?_) fun _ => .fail)
    fun _ => .pure beside)
  refine .loose (.advance_bind (beside.inside_of_found assigns (by decide))
    (more_of_found assigns (by decide)) fun left₁ left₁' beside within₁ => ?_)
  exact h.expression_pure beside (suffix_of_tail within₁ within)

/-! ## Statements -/

/-- At the seam no statement starts, as it would have to start with the semicolon. -/
theorem FollowsBelow.statement (beside : e.Beside left left') (within : left' <:+ tokens'.tail) :
    e.Settles left left' left'.tail (rules .statement) (rules' .statement) := by
  cases beside with
  | seam =>
    obtain ⟨cause, refuses⟩ := h.refuses
    intro n behind hrun
    cases refuses.symm.trans hrun
  | inside inside => exact h.settles _ _ (.inside inside) within

theorem readDeclarator_follows (beside : e.Beside tokens tokens') :
    e.Follows tokens tokens' tokens'.tail (readDeclarator rules) (readDeclarator rules') := by
  refine (Follows.expect beside (by decide) (by decide)).bind fun name left left' beside within => ?_
  refine .equals_bind beside (fun inside equals => .loose ?_) (.pure beside)
  refine .advance_bind inside (more_of_found equals (by decide)) fun left₁ left₁' beside within₁ => ?_
  exact h.expression_pure beside (suffix_of_tail within₁ within)

theorem readDeclaration_settles (inside : e.Inside tokens tokens')
    (more : (head tokens).kind ≠ .endOfText) :
    e.Settles tokens tokens' tokens'.tail (readDeclaration rules) (readDeclaration rules') := by
  refine .bind (.advance inside more) fun word left left' beside within => .room_bind ?_
  refine Settles.bind (Follows.commaSeparated beside (Nat.le_refl _) fun _ _ beside hl =>
    readDeclarator_follows (h.behind (hl.trans within)) beside) fun _ _ _ beside _ => ?_
  exact .map (readStatementEnd_settles beside)

theorem readFunctionDeclaration_follows (inside : e.Inside tokens tokens')
    (more : (head tokens).kind ≠ .endOfText) :
    e.Follows tokens tokens' tokens'.tail (readFunctionDeclaration rules)
      (readFunctionDeclaration rules') := by
  refine .advance_bind inside more fun left left' beside within => ?_
  refine ((Follows.expect beside (by decide) (by decide)).bind
    fun name left₁ left₁' beside within₁ => ?_).loose
  refine ((readParams_follows beside).bind fun params left₂ left₂' beside within₂ => ?_).loose
  have below := suffix_of_tail within₂ (suffix_of_tail within₁ within)
  exact ((readBlock_follows (h.behind below) beside).bind fun _ _ _ beside _ => .pure beside).loose

omit h in
theorem accept_else_eq {yes no : Reader β} : (accept .elseWord >>= fun b => if b then yes else no) tokens
    = (if (head tokens).kind == .elseWord then Reader.advance >>= fun _ => yes else no) tokens := by
  rw [Shifts.run_accept_bind]
  rfl

/-- **Where an alternate may follow**, both readings see the same word. -/
theorem alternate_settles {f : Node → Node} {without : Node} (near : e.Near left left')
    (within : left' <:+ tokens'.tail) :
    e.Settles left left' left'
      (accept .elseWord >>= fun b => if b then (rules .statement >>= fun n => pure (f n)) else pure without)
      (accept .elseWord >>= fun b => if b then (rules' .statement >>= fun n => pure (f n))
        else pure without) := by
  intro n behind hrun
  rw [accept_else_eq] at hrun
  by_cases found : ((head left).kind == .elseWord) = true
  · have word := beq_iff_eq.mp found
    obtain ⟨between, first, second, beside⟩ := near.advance (by rw [word]; decide) (by rw [word]; decide)
    rw [if_pos found, Reader.bind_eq_of_ok first] at hrun
    have below := suffix_of_tail List.suffix_rfl within
    refine (Settles.map (h.statement beside below) n behind hrun).imp id ?_
    rintro ⟨left'', near', within', same⟩
    refine ⟨left'', near', suffix_of_tail within' (List.tail_suffix left'), fun apart => ?_⟩
    rw [accept_else_eq, near.kind_eq, if_pos found, Reader.bind_eq_of_ok second]
    exact same apart
  · rw [if_neg found] at hrun
    cases hrun
    refine .inr ⟨left', near, List.suffix_rfl, fun _ => ?_⟩
    rw [accept_else_eq, near.kind_eq, if_neg found]
    rfl

theorem readConditionalStatement_settles (inside : e.Inside tokens tokens')
    (more : (head tokens).kind ≠ .endOfText) :
    e.Settles tokens tokens' tokens'.tail (readConditionalStatement rules)
      (readConditionalStatement rules') := by
  refine .bind (.advance inside more) fun start left left' beside within => ?_
  refine (Settles.bind (Follows.expect beside (by decide) (by decide))
    fun _ left₁ left₁' beside within₁ => ?_).mono (List.tail_suffix left')
  have below₁ := suffix_of_tail within₁ within
  refine (Settles.bind (h.expression beside below₁) fun test left₂ left₂' beside within₂ => ?_).mono
    (List.tail_suffix left₁')
  have below₂ := suffix_of_tail within₂ below₁
  refine (Settles.bind (Follows.expect beside (by decide) (by decide))
    fun _ left₃ left₃' beside within₃ => ?_).mono (List.tail_suffix left₂')
  have below₃ := suffix_of_tail within₃ below₂
  refine ((h.statement beside below₃).bind_near (fun consequent n left hrun => ?_)
    fun consequent left₄ left₄' near within₄ => ?_).mono (List.tail_suffix left₃')
  · -- In front of the semicolon there is no alternate to be seen.
    rw [accept_else_eq, show ((head e.written).kind == .elseWord) = false from semicolon_ne nofun] at hrun
    cases hrun
    rfl
  · exact alternate_settles h near (suffix_of_tail within₄ below₃)

theorem readReturn_settles (inside : e.Inside tokens tokens')
    (more : (head tokens).kind ≠ .endOfText) :
    e.Settles tokens tokens' tokens'.tail (readReturn rules) (readReturn rules') := by
  refine .bind (.advance inside more) fun start left left' beside within => ?_
  let bare (t : Token) : Bool :=
    t.kind == .semicolon || t.kind == .rightBrace || t.kind == .endOfText || t.newlineBefore
  have same : bare (head left') = bare (head left) := by
    cases beside with
    | inside inside => rw [inside.head_eq]
    | seam =>
      have semicolon : bare e.semicolon = true := by
        simp [bare, e.isSemicolon]
      have next : bare e.next' = true := by
        simpa [bare, or_assoc] using Or.inr e.implies_end
      exact next.trans semicolon.symm
  have returns : e.Settles left left' left'
      (if bare (head left) then readStatementEnd >>= fun _ => pure (Node.make .returnStatement [] start)
        else rules .expression >>= fun value => readStatementEnd >>= fun _ =>
          pure (Node.make .returnStatement [value] start))
      (if bare (head left) then readStatementEnd >>= fun _ => pure (Node.make .returnStatement [] start)
        else rules' .expression >>= fun value => readStatementEnd >>= fun _ =>
          pure (Node.make .returnStatement [value] start)) := by
    refine .ite (fun _ => .map (readStatementEnd_settles beside)) fun _ => ?_
    exact (Settles.bind (h.expression beside within) fun value _ _ beside _ =>
      .map (readStatementEnd_settles beside)).mono (List.tail_suffix left')
  refine returns.congr fun _ => ?_
  rw [← same]
  rfl

theorem readStatement_settles_inside (inside : e.Inside tokens tokens') :
    e.Settles tokens tokens' tokens'.tail (readStatement rules) (readStatement rules') := by
  refine .current_bind_inside inside ?_
  cases kind : (head tokens).kind with
  | leftBrace => exact .of_follows (readBlock_follows h (.inside inside))
  | semicolon =>
    exact .of_follows (.advance_bind inside (by rw [kind]; decide) fun _ _ beside _ => .pure beside)
  | varWord => exact readDeclaration_settles h inside (by rw [kind]; decide)
  | letWord => exact readDeclaration_settles h inside (by rw [kind]; decide)
  | constWord => exact readDeclaration_settles h inside (by rw [kind]; decide)
  | functionWord => exact .of_follows (readFunctionDeclaration_follows h inside (by rw [kind]; decide))
  | ifWord => exact readConditionalStatement_settles h inside (by rw [kind]; decide)
  | returnWord => exact readReturn_settles h inside (by rw [kind]; decide)
  | _ =>
    exact .bind (readExpression_follows h (.inside inside)) fun _ _ _ beside _ =>
      .map (readStatementEnd_settles beside)

omit h in
/-- The token behind the seam weighs the same with the semicolon and without. -/
theorem FollowsBelow.of_implied (h : e.FollowsBelow e.implied rules rules') :
    e.FollowsBelow (e.next :: e.rest) rules rules' := by
  have depth : depthFor e.implied = depthFor (e.next :: e.rest) := by
    have extent : e.next'.extent = e.next.extent := by rw [e.alike]; rfl
    rw [implied, depthFor, depthFor, extent]
  have below {rule : Rule} {left : List Token} (h : rule.IsBelow (e.next :: e.rest) left) :
      rule.IsBelow e.implied left := by
    cases rule with
    | fragment => exact Nat.lt_of_lt_of_eq h depth.symm
    | _ => exact h
  exact ⟨fun rule _ _ inner beside readable h' => h.follows rule _ _ inner beside readable (below h'),
    h.settles, h.fails, h.refuses⟩

/-- **Statements settle**, wherever one may start. Past the seam, that the first reading finds a
statement shows that its first token is apart, and to the second it makes no difference that a line
ends in front of it. -/
theorem readStatement_settles (near : e.Near tokens tokens') :
    e.Settles tokens tokens' tokens'.tail (readStatement rules) (readStatement rules') := by
  cases near with
  | inside inside => exact readStatement_settles_inside h inside
  | past =>
    intro n left hrun
    obtain ⟨apart, more⟩ := starts_of_readStatement e.parted hrun
    have inside : e.Inside (e.next :: e.rest) (e.next :: e.rest) := .behind _ e.hasEnd apart
    refine (readStatement_settles_inside h.of_implied inside n left hrun).imp id ?_
    rintro ⟨left', near, within, same⟩
    refine ⟨left', near, within, fun apart => ?_⟩
    obtain ⟨u, rest, some⟩ : ∃ u rest, e.rest = u :: rest := by
      have ends := (hasEnd_cons more).mp e.hasEnd
      exact List.exists_cons_of_ne_nil (Inside.ne_nil (.behind _ ends apart))
    rw [implied, e.alike, some, readStatement_startsRegardless, ← some]
    exact same apart

end Below

end Seam

end Scriptlet
