import Scriptlet.Proofs.Newline.Start

/-!
# The grammar at a seam

The grammar is gone through once more, for two readings side by side, the second of which has one
semicolon less. A rule that begins with a token of its own fails at the seam, where the first
reading has the semicolon before it, so that it is to be followed only inside, where both readings
see the same token. What can stand at the seam is what an expression or a list goes on with, and
there both readings come to the same answer: the semicolon is none of these tokens, and neither is
a token that is apart.
-/

namespace Scriptlet

open Reader Seam

/-- Rules **follow** others below some tokens, of which the second reading takes those that are
behind the first of them. -/
structure Seam.FollowsBelow (e : Seam) (tokens' : List Token) (rules rules' : Rules) : Prop where
  /-- All that is no statement is followed. -/
  follows : ∀ rule left left', rule ≠ .statement → e.Beside left left' → rule.IsReadable left →
    rule.IsBelow tokens' left' → e.Follows left left' (rule.limit left') (rules rule) (rules' rule)
  /-- A statement settles. -/
  settles : ∀ left left', e.Near left left' → left' <:+ tokens'.tail →
    e.Settles left left' left'.tail (rules .statement) (rules' .statement)
  /-- No expression starts with the semicolon. -/
  fails : e.Fails (rules .expression)
  /-- No statement does. -/
  refuses : e.Fails (rules .statement)

namespace Seam

variable {e : Seam} {tokens tokens' left left' limit : List Token} {rules rules' : Rules}
  {t start : Token} {kind : TokenKind}

/-! ## Expressions -/

section Below

variable (h : e.FollowsBelow tokens' rules rules')
include h

namespace FollowsBelow

theorem expression (beside : e.Beside left left') (within : left' <:+ tokens'.tail) :
    e.Follows left left' left'.tail (rules .expression) (rules' .expression) :=
  h.follows .expression left left' nofun beside trivial within

/-- A construct that ends with an expression. -/
theorem expression_pure (beside : e.Beside left left') (within : left' <:+ tokens'.tail)
    {f : Node → β} : e.Follows left left' left' (rules .expression >>= fun n => pure (f n))
      (rules' .expression >>= fun n => pure (f n)) :=
  ((h.expression beside within).bind fun _ _ _ beside _ => .pure beside).loose

/-- Rules that follow below some tokens do so below what is behind the first. -/
theorem behind (within : left' <:+ tokens'.tail) : e.FollowsBelow left' rules rules' where
  follows rule _ _ inner beside readable below := h.follows rule _ _ inner beside readable
    (below.of_suffix (within.trans (List.tail_suffix tokens')))
  settles _ _ near behind := h.settles _ _ near (suffix_of_tail behind within)
  fails := h.fails
  refuses := h.refuses

end FollowsBelow

theorem readTemplateParts_follows (beside : e.Beside left left') {chunks : List Text}
    {expressions : List (Text × Nat)}
    (short : ∀ e ∈ expressions, e.1.length + 2 < depthFor tokens') :
    e.Follows left left' left' (readTemplateParts rules t chunks expressions)
      (readTemplateParts rules' t chunks expressions) := by
  induction chunks generalizing expressions left left' with
  | nil => exact .pure beside
  | cons chunk chunks ih =>
    unfold readTemplateParts
    cases expressions with
    | nil => exact (ih beside fun e he => by cases he).bind fun _ _ _ beside _ => .pure beside
    | cons part expressions =>
      obtain ⟨source, offset⟩ := part
      refine (h.follows (.fragment source _) left left' (by simp) beside trivial
        (short _ List.mem_cons_self)).bind fun _ _ _ beside _ => ?_
      exact (ih beside fun e he => short e (List.mem_cons_of_mem _ he)).bind
        fun _ _ _ beside _ => .pure beside

theorem readTemplate_follows (beside : e.Beside left left')
    (short : t.text.length + 2 < depthFor tokens') :
    e.Follows left left' left' (readTemplate rules t) (readTemplate rules' t) := by
  unfold readTemplate
  cases split : splitTemplate t.text with
  | error cause => exact .throw
  | ok parts =>
    refine (readTemplateParts_follows h beside fun part member => ?_).bind
      fun _ _ _ beside _ => .pure beside
    have := length_of_mem_splitTemplateFrom split part member
    omega

/-! ### Functions -/

omit h in
theorem readParams_follows (beside : e.Beside left left') :
    e.Follows left left' left'.tail readParams readParams := by
  refine (Follows.expect beside (by decide) (by decide)).bind fun start _ _ beside _ => .room_bind ?_
  refine (Follows.commaList beside (Nat.le_refl _) (fails_expect (by decide)).map (by decide)
    fun _ _ beside _ => (Follows.expect beside (by decide) (by decide)).map).bind fun _ _ _ beside _ => ?_
  exact .expect_pure beside (by decide) (by decide)

/-- What a block stops at: its closing brace, but not the end of the text. -/
def blockStop : Reader Bool := do
  if ← check .endOfText then unexpected else check .rightBrace

omit h in
theorem blockStop_eq (tokens : List Token) : blockStop tokens =
    (if (head tokens).kind == .endOfText then unexpected else check .rightBrace : Reader Bool) tokens :=
  rfl

omit h in
theorem looks_blockStop : Looks blockStop := by
  intro tokens b left hrun
  rw [blockStop_eq] at hrun
  by_cases ended : ((head tokens).kind == .endOfText) = true
  · rw [if_pos ended] at hrun
    cases hrun
  · rw [if_neg ended] at hrun
    cases hrun
    refine ⟨rfl, fun tokens' same => ?_⟩
    rw [blockStop_eq, same, if_neg ended]
    show Except.ok ((head tokens').kind == .rightBrace, tokens') = _
    rw [same]
    rfl

omit h in
theorem kind_of_blockStop (stopped : blockStop tokens = .ok (true, left)) :
    (head tokens).kind = .rightBrace := by
  rw [blockStop_eq] at stopped
  split at stopped
  · cases stopped
  · exact beq_iff_eq.mp (congrArg (·.1) (Except.ok.inj stopped))

/-- **A block** is left behind its closing brace, where both readings see the same. -/
theorem readBlock_follows (beside : e.Beside tokens tokens') :
    e.Follows tokens tokens' tokens'.tail (readBlock rules) (readBlock rules') := by
  have goesOn (left : List Token) : blockStop e.written ≠ .ok (true, left) := fun stopped => by
    cases e.isSemicolon.symm.trans (kind_of_blockStop stopped)
  refine (Follows.expect beside (by decide) (by decide)).bind fun start left left' beside within =>
    .room_bind (.of_inside beside (fails_manyUntil looks_blockStop goesOn h.refuses _).bind
      fun inside => ?_)
  intro block behind hrun
  obtain ⟨⟨statements, between⟩, hlist, hclose⟩ := Except.of_bind_eq_ok hrun
  obtain ⟨stopped, between', near, within', same⟩ := manyUntil_settles (.inside inside) (Nat.le_refl _)
    looks_blockStop goesOn h.refuses (fun _ _ near hl => h.settles _ _ near (hl.trans within)) hlist
  have brace := kind_of_blockStop stopped
  obtain ⟨last, first, second, beside⟩ := near.advance (by rw [brace]; decide) (by rw [brace]; decide)
  have closes {tokens : List Token} (brace : (head tokens).kind = .rightBrace) :
      Reader.expect .rightBrace tokens = Reader.advance tokens := by
    show (if (head tokens).kind == .rightBrace then Reader.advance else unexpected) tokens = _
    rw [brace]
    rfl
  cases (Reader.bind_eq_of_ok ((closes brace).trans first)).symm.trans hclose
  refine ⟨between'.tail, beside, (List.tail_suffix _).trans within', fun apart => ?_⟩
  refine (Reader.bind_eq_of_ok (same apart)).trans ?_
  exact Reader.bind_eq_of_ok ((closes (near.kind_eq.trans brace)).trans second)

theorem readFunction_follows (inside : e.Inside tokens tokens')
    (word : (head tokens).kind = .functionWord) :
    e.Follows tokens tokens' tokens'.tail (readFunction rules) (readFunction rules') := by
  refine (Follows.advance inside (by rw [word]; decide)).bind fun start left left' beside within => ?_
  refine .of_inside beside (fails_of_semicolon fun _ _ _ _ _ => ⟨_, rfl⟩) fun inside => ?_
  have name : e.Follows left left' left' readName? readName? := by
    refine .check_bind_inside inside (.ite (fun found => ?_) fun _ => .pure beside)
    exact (Follows.advance inside (more_of_found found (by decide))).loose.map
  refine name.bind fun _ left₁ left₁' beside within₁ =>
    (readParams_follows beside).loose.bind fun _ left₂ left₂' beside within₂ => ?_
  have behind := h.behind (within₂.trans (within₁.trans within))
  exact ((readBlock_follows behind beside).bind fun _ _ _ beside _ => .pure beside).loose

omit h in
theorem readArrowParams_follows (beside : e.Beside tokens tokens') :
    e.Follows tokens tokens' tokens'.tail readArrowParams readArrowParams := by
  refine .of_inside beside (fails_of_semicolon fun _ _ _ _ _ => ⟨_, rfl⟩) fun inside => ?_
  refine .check_bind_inside inside (.ite (fun found => ?_) fun _ => readParams_follows beside)
  exact (Follows.advance inside (more_of_found found (by decide))).bind fun _ _ _ beside _ => .pure beside

theorem readArrowBody_follows (beside : e.Beside left left') (within : left' <:+ tokens'.tail) :
    e.Follows left left' left'.tail (readArrowBody rules) (readArrowBody rules') := by
  have fails : e.Fails (readArrowBody rules) := by
    obtain ⟨cause, fails⟩ := h.fails
    refine ⟨cause, ?_⟩
    show (if (e.semicolon.kind == .leftBrace) = true then _ else _ : Reader Node) e.written = _
    rw [semicolon_ne (by decide)]
    exact fails
  refine .of_inside beside fails fun inside => .check_bind_inside inside (.ite (fun _ => ?_) fun _ => ?_)
  · exact readBlock_follows (h.behind within) beside
  · exact h.expression beside within

theorem readArrow_follows (inside : e.Inside tokens tokens') :
    e.Follows tokens tokens' tokens'.tail (readArrow rules) (readArrow rules') := by
  refine .current_bind inside ((readArrowParams_follows (.inside inside)).bind
    fun _ left left' beside within => ?_)
  refine (Follows.expect beside (by decide) (by decide)).loose.bind fun _ left₁ left₁' beside within₁ => ?_
  exact ((readArrowBody_follows h beside (within₁.trans within)).bind
    fun _ _ _ beside _ => .pure beside).loose

/-! ### Arguments and members -/

theorem fails_readSpreadOrExpression : e.Fails (readSpreadOrExpression rules) := by
  obtain ⟨cause, fails⟩ := h.fails
  refine ⟨cause, ?_⟩
  show (if (e.semicolon.kind == .spread) = true then _ else _ : Reader Node) e.written = _
  rw [semicolon_ne (by decide)]
  exact fails

theorem readSpreadOrExpression_follows (beside : e.Beside left left') (within : left' <:+ tokens'.tail) :
    e.Follows left left' left'.tail (readSpreadOrExpression rules) (readSpreadOrExpression rules') := by
  refine .of_inside beside (fails_readSpreadOrExpression h) fun inside => .check_bind_inside inside
    (.ite (fun found => ?_) fun _ => h.expression beside within)
  refine (Follows.advance inside (more_of_found found (by decide))).bind
    fun start left₁ left₁' beside within₁ => ?_
  exact h.expression_pure beside (suffix_of_tail within₁ within)

theorem readArguments_follows (beside : e.Beside tokens tokens') :
    e.Follows tokens tokens' tokens'.tail (readArguments rules) (readArguments rules') := by
  refine (Follows.expect beside (by decide) (by decide)).bind fun start left left' beside within =>
    .room_bind ?_
  refine (Follows.commaList beside (Nat.le_refl _) (fails_readSpreadOrExpression h) (by decide)
    fun _ _ beside hl => readSpreadOrExpression_follows h beside (hl.trans within)).bind
      fun _ _ _ beside _ => ?_
  exact .expect_pure beside (by decide) (by decide)

omit h in
theorem readNamedMember_follows (beside : e.Beside tokens tokens') {object : Node} :
    e.Follows tokens tokens' tokens'.tail (readNamedMember object start) (readNamedMember object start) := by
  refine (Follows.expect beside (by decide) (by decide)).bind fun _ left left' beside _ => ?_
  refine .of_inside beside (fails_of_semicolon fun _ _ _ _ _ => ⟨_, rfl⟩) fun inside => ?_
  refine .current_bind inside (.ite (fun word => ?_) fun _ => .unexpected)
  exact .loose ((Follows.advance inside (more_of_isWord word)).bind fun _ _ _ beside _ => .pure beside)

theorem readComputedMember_follows (beside : e.Beside tokens tokens') {object : Node} :
    e.Follows tokens tokens' tokens'.tail (readComputedMember rules object start)
      (readComputedMember rules' object start) := by
  refine (Follows.expect beside (by decide) (by decide)).bind fun _ left left' beside within => ?_
  refine ((h.expression beside within).bind fun _ _ _ beside _ => ?_).loose
  exact .expect_pure beside (by decide) (by decide)

/-! ### Lists and objects -/

theorem fails_readElements {n : Nat} : e.Fails (readElements rules n) := by
  cases n with
  | zero => exact ⟨_, rfl⟩
  | succ n =>
    obtain ⟨cause, fails⟩ := (fails_readSpreadOrExpression h).bind
    refine ⟨cause, ?_⟩
    show (if (e.semicolon.kind == .rightBracket) = true then _ else
      (check .comma >>= fun b => if b = true then _ else _) : Reader (List Node)) e.written = _
    rw [semicolon_ne (by decide), if_neg Bool.false_ne_true]
    show (if (e.semicolon.kind == .comma) = true then _ else _ : Reader (List Node)) e.written = _
    rw [semicolon_ne (by decide)]
    exact fails

theorem readElements_follows {n n' : Nat} (beside : e.Beside left left') (bound : left'.length ≤ n')
    (within : left' <:+ tokens'.tail) :
    e.Follows left left' left' (readElements rules n) (readElements rules' n') := by
  induction n generalizing left left' n' with
  | zero => exact nofun
  | succ n ih =>
    obtain ⟨m, rfl⟩ := beside.exists_succ bound
    refine .of_inside beside (fails_readElements h) fun inside => ?_
    rw [readElements, readElements]
    refine .check_bind_inside inside (.ite (fun _ => .pure beside) fun _ =>
      .check_bind_inside inside (.ite (fun found => ?_) fun _ => ?_))
    · refine .loose ((Follows.advance inside (more_of_found found (by decide))).bind
        fun _ left₁ left₁' beside within₁ => ?_)
      have below := suffix_of_tail within₁ within
      exact (ih beside (EndAlike.length_tail_le bound within₁) below).bind
        fun _ _ _ beside _ => .pure beside
    · refine ((readSpreadOrExpression_follows h beside within).bind
        fun _ left₁ left₁' beside within₁ => ?_).loose
      refine (Follows.separator beside (by decide)).bind fun _ left₂ left₂' beside within₂ => ?_
      have behind := within₂.trans within₁
      exact (ih beside (EndAlike.length_tail_le bound behind) (suffix_of_tail behind within)).bind
        fun _ _ _ beside _ => .pure beside

theorem readArray_follows (beside : e.Beside tokens tokens') :
    e.Follows tokens tokens' tokens'.tail (readArray rules) (readArray rules') := by
  refine (Follows.expect beside (by decide) (by decide)).bind fun start left left' beside within =>
    .room_bind ?_
  refine (readElements_follows h beside (Nat.le_refl _) within).bind fun _ _ _ beside _ => ?_
  exact .expect_pure beside (by decide) (by decide)

theorem readKey_follows (beside : e.Beside tokens tokens') :
    e.Follows tokens tokens' tokens'.tail (readKey rules) (readKey rules') := by
  refine .of_inside beside (fails_of_semicolon fun _ _ _ _ _ => ⟨_, rfl⟩) fun inside => ?_
  refine .current_bind inside (.accept_bind beside (by decide) List.suffix_rfl
    (fun left left' beside within => ?_) ?_)
  · refine ((h.expression beside within).bind fun _ _ _ beside _ => ?_).loose
    exact .expect_pure beside (by decide) (by decide)
  · have consumes {f : Token → Node} (more : (head tokens).kind ≠ .endOfText) :
        e.Follows tokens tokens' tokens'.tail (Reader.advance >>= fun t => pure (f t))
          (Reader.advance >>= fun t => pure (f t)) :=
      (Follows.advance inside more).bind fun _ _ _ beside _ => .pure beside
    refine .ite nofun fun _ => .ite (fun found => ?_) fun _ => .ite (fun found => ?_) fun _ =>
      .ite (fun word => ?_) fun _ => .unexpected
    · exact consumes (more_of_found found (by decide))
    · exact consumes (more_of_found found (by decide))
    · exact consumes (more_of_isWord word)

theorem readProperty_follows (beside : e.Beside tokens tokens') :
    e.Follows tokens tokens' tokens'.tail (readProperty rules) (readProperty rules') := by
  refine .of_inside beside (fails_of_semicolon fun _ _ _ _ _ => ⟨_, rfl⟩) fun inside => ?_
  refine .current_bind inside ((readKey_follows h beside).bind fun key left left' beside within => ?_)
  refine .of_inside beside (fails_of_semicolon fun _ _ _ _ _ => ?_) fun inside => ?_
  · cases (head tokens).kind <;> exact ⟨_, rfl⟩
  refine .accept_bind_inside inside (by decide) (List.tail_suffix left')
    (fun left₁ left₁' beside within₁ => ?_) ?_
  · exact h.expression_pure beside (suffix_of_tail within₁ within)
  refine .check_bind_inside inside (.ite (fun _ => ?_) fun _ => ?_)
  · refine ((readParams_follows beside).bind fun _ left₁ left₁' beside within₁ => ?_).loose
    have behind := h.behind (suffix_of_tail within₁ within)
    exact ((readBlock_follows behind beside).bind fun _ _ _ beside _ => .pure beside).loose
  · exact .check_bind_inside inside (.check_bind_inside inside (.ite (fun _ => .pure beside)
      fun _ => .unexpected))

theorem readProperties_follows {n n' : Nat} (beside : e.Beside left left') (bound : left'.length ≤ n')
    (within : left' <:+ tokens'.tail) :
    e.Follows left left' left' (readProperties rules n) (readProperties rules' n') := by
  induction n generalizing left left' n' with
  | zero => exact nofun
  | succ n ih =>
    obtain ⟨m, rfl⟩ := beside.exists_succ bound
    refine .of_inside beside (fails_of_semicolon fun _ _ _ _ _ => ⟨_, rfl⟩) fun inside => ?_
    rw [readProperties, readProperties]
    refine .check_bind_inside inside (.ite (fun _ => .pure beside) fun _ => ?_)
    refine ((readProperty_follows (h.behind within) beside).bind
      fun _ left₁ left₁' beside within₁ => ?_).loose
    refine (Follows.separator beside (by decide)).bind fun _ left₂ left₂' beside within₂ => ?_
    have behind := within₂.trans within₁
    exact (ih beside (EndAlike.length_tail_le bound behind) (suffix_of_tail behind within)).bind
      fun _ _ _ beside _ => .pure beside

theorem readObject_follows (beside : e.Beside tokens tokens') :
    e.Follows tokens tokens' tokens'.tail (readObject rules) (readObject rules') := by
  refine (Follows.expect beside (by decide) (by decide)).bind fun start left left' beside within =>
    .room_bind ?_
  refine (readProperties_follows h beside (Nat.le_refl _) within).bind fun _ _ _ beside _ => ?_
  exact .expect_pure beside (by decide) (by decide)

/-! ### Primary expressions, members and calls -/

omit h in
theorem fails_readPrimary : e.Fails (readPrimary rules) :=
  fails_of_semicolon fun _ _ _ _ _ => ⟨_, rfl⟩

theorem readPrimary_follows (beside : e.Beside tokens tokens') :
    e.Follows tokens tokens' tokens'.tail (readPrimary rules) (readPrimary rules') := by
  refine .of_inside beside fails_readPrimary fun inside => .current_bind inside ?_
  have consumes {f : Token → Node} (more : (head tokens).kind ≠ .endOfText) :
      e.Follows tokens tokens' tokens'.tail (Reader.advance >>= fun t => pure (f t))
        (Reader.advance >>= fun t => pure (f t)) :=
    (Follows.advance inside more).bind fun _ _ _ beside _ => .pure beside
  cases literal : literalLabel? (head tokens).kind with
  | some label => exact consumes (isFlat_of_literal literal).2
  | none =>
    dsimp only
    cases kind : (head tokens).kind with
    | template =>
      refine .advance_bind inside (by rw [kind]; decide) fun left left' beside within => ?_
      refine readTemplate_follows h beside ?_
      rw [inside.eq_cons]
      exact body_lt_depthFor kind _
    | identifier => exact consumes (by rw [kind]; decide)
    | thisWord => exact consumes (by rw [kind]; decide)
    | leftParen =>
      refine (Follows.advance inside (by rw [kind]; decide)).bind fun _ left left' beside within => ?_
      refine ((h.expression beside within).bind fun _ _ _ beside _ => ?_).loose
      exact .expect_pure beside (by decide) (by decide)
    | leftBracket => exact readArray_follows h beside
    | leftBrace => exact readObject_follows h beside
    | functionWord => exact readFunction_follows h inside kind
    | _ => exact .unexpected

theorem readMembers_follows {n n' : Nat} {object : Node} (beside : e.Beside tokens tokens')
    (bound : tokens'.length ≤ n') :
    e.Follows tokens tokens' tokens' (readMembers rules start n object)
      (readMembers rules' start n' object) := by
  induction n generalizing tokens tokens' n' object with
  | zero => exact nofun
  | succ n ih =>
    obtain ⟨m, rfl⟩ := beside.exists_succ bound
    rw [readMembers, readMembers]
    have more {left left' : List Token} {object : Node} (beside : e.Beside left left')
        (within : left' <:+ tokens'.tail) : e.Follows left left' left'
          (readMembers rules start n object) (readMembers rules' start m object) :=
      ih (h.behind within) beside (EndAlike.length_tail_le bound within)
    refine .check_bind beside (by decide) (.ite (fun _ => ?_) fun _ =>
      .check_bind beside (by decide) (.ite (fun _ => ?_) fun _ => .pure beside))
    · exact ((readNamedMember_follows beside).bind fun _ _ _ beside within => more beside within).loose
    · exact ((readComputedMember_follows h beside).bind fun _ _ _ beside within => more beside within).loose

omit h in
theorem fails_readHead {construct : Reader Node} : e.Fails (readHead rules construct) :=
  fails_of_semicolon fun _ _ _ _ _ => ⟨_, rfl⟩

theorem readHead_follows {construct construct' : Reader Node} (beside : e.Beside tokens tokens')
    (constructs : e.Inside tokens tokens' → (head tokens).kind = .newWord →
      e.Follows tokens tokens' tokens'.tail construct construct') :
    e.Follows tokens tokens' tokens'.tail (readHead rules construct) (readHead rules' construct') :=
  .of_inside beside fails_readHead fun inside => .check_bind_inside inside
    (.ite (fun found => constructs inside (beq_iff_eq.mp found)) fun _ => readPrimary_follows h beside)

theorem readConstruct_follows (inside : e.Inside tokens tokens') (word : (head tokens).kind = .newWord) :
    e.Follows tokens tokens' tokens'.tail (readConstruct rules) (readConstruct rules') := by
  refine (Follows.advance inside (by rw [word]; decide)).bind fun start left left' beside within => ?_
  have callee : e.Follows left left' left' (readConstructed rules) (readConstructed rules') := by
    refine .of_inside beside (fails_of_semicolon fun _ _ _ _ _ => ⟨_, rfl⟩) fun inside => ?_
    refine .current_bind inside ((readHead_follows (h.behind within) beside fun inside word => ?_).bind
      fun first left₁ left₁' beside within₁ => .room_bind ?_).loose
    · exact h.follows .construct left left' nofun (.inside inside) word within
    · have below := suffix_of_tail within₁ within
      exact readMembers_follows (h.behind below) beside (Nat.le_refl _)
  refine callee.bind fun _ left₁ left₁' beside within₁ => Follows.bind ?_
    fun _ _ _ beside _ => .pure beside
  refine .check_bind beside (by decide) (.ite (fun _ => ?_) fun _ => .pure beside)
  exact (readArguments_follows (h.behind (within₁.trans within)) beside).loose

theorem readCalls_follows {n n' : Nat} {callee : Node} (beside : e.Beside tokens tokens')
    (bound : tokens'.length ≤ n') :
    e.Follows tokens tokens' tokens' (readCalls rules start n callee) (readCalls rules' start n' callee) := by
  induction n generalizing tokens tokens' n' callee with
  | zero => exact nofun
  | succ n ih =>
    obtain ⟨m, rfl⟩ := beside.exists_succ bound
    rw [readCalls, readCalls]
    have more {left left' : List Token} {callee : Node} (beside : e.Beside left left')
        (within : left' <:+ tokens'.tail) : e.Follows left left' left'
          (readCalls rules start n callee) (readCalls rules' start m callee) :=
      ih (h.behind within) beside (EndAlike.length_tail_le bound within)
    refine .check_bind beside (by decide) (.ite (fun _ => ?_) fun _ =>
      .check_bind beside (by decide) (.ite (fun _ => ?_) fun _ =>
      .check_bind beside (by decide) (.ite (fun _ => ?_) fun _ =>
      .check_bind beside (by decide) (.ite (fun found => ?_) fun _ => .pure beside))))
    · exact ((readNamedMember_follows beside).bind fun _ _ _ beside within => more beside within).loose
    · exact ((readComputedMember_follows h beside).bind fun _ _ _ beside within => more beside within).loose
    · exact ((readArguments_follows h beside).bind fun _ _ _ beside within => more beside within).loose
    · have inside := beside.inside_of_found found (by decide)
      refine .loose (.advance_bind inside (more_of_found found (by decide)) fun left left' beside within => ?_)
      refine (readTemplate_follows h beside ?_).bind fun _ _ _ beside within' =>
        more beside (within'.trans within)
      rw [inside.eq_cons]
      exact body_lt_depthFor (beq_iff_eq.mp found) _

theorem readCallMember_follows (beside : e.Beside tokens tokens') :
    e.Follows tokens tokens' tokens'.tail (readCallMember rules) (readCallMember rules') := by
  refine .of_inside beside (fails_of_semicolon fun _ _ _ _ _ => ⟨_, rfl⟩) fun inside => ?_
  refine .current_bind inside ((readHead_follows h beside (readConstruct_follows h)).bind
    fun first left left' beside within => .room_bind ?_)
  exact readCalls_follows (h.behind within) beside (Nat.le_refl _)

end Below

end Seam

end Scriptlet
