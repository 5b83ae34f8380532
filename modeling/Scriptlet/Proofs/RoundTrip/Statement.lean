import Scriptlet.Proofs.RoundTrip.Operation

/-!
# Statements that are read again

A statement is known by its first token, and it ends with a semicolon, a brace or
another statement. The one token that could be taken for a part of the statement before it
is the word before an alternate, and this is where it matters which conditional
statements can be printed.
-/

namespace Scriptlet

open Reader

/-- The kinds of tokens that **a printed statement starts with**. -/
def TokenKind.opensStatement : TokenKind → Bool
  | leftBrace | semicolon | varWord | letWord | constWord | functionWord | ifWord | returnWord
  | leftParen => true
  | _ => false

namespace Node

variable {n e : Node} {position : Option Position} {children : List Node} {depth : Nat}
  {t u : Token} {tokens more rest : List Token} {rules : Rules}

/-! ## Among statements -/

/-- The word of a declaration is printed as such. -/
theorem operatorKind_of_mem {word : Text} (h : word ∈ declarationWords) :
    operatorKind word = .varWord ∨ operatorKind word = .letWord ∨
      operatorKind word = .constWord := by
  have all : ∀ word ∈ declarationWords, operatorKind word = .varWord ∨
      operatorKind word = .letWord ∨ operatorKind word = .constWord := by decide
  exact all word h

/-- A statement is **known by its first token**. -/
theorem print_of_isStatement (h : e.isPrintable = true) (hs : e.isStatement = true) :
    ∃ u more, e.print = u :: more ∧ u.kind.opensStatement = true := by
  cases e with
  | branch kind position children =>
    have admitted := admits_of_isPrintable h
    cases kind <;> try (cases hs; done)
    case block => exact ⟨_, _, rfl, rfl⟩
    case expressionStatement =>
      match children, admitted with
      | [e], he =>
        obtain ⟨parts, printed, -⟩ := e.print_of_isExpression he
        exact ⟨_, _, by simp only [print, printEach, Kind.layout, printed]; rfl, rfl⟩
    case empty =>
      obtain rfl : children = [] := List.isEmpty_iff.mp admitted
      exact ⟨_, _, rfl, rfl⟩
    case declaration =>
      match children, admitted with
      | word :: declarators, admitted =>
        simp only [Kind.admits, oneAndSome, Bool.and_eq_true] at admitted
        obtain ⟨text, place, rfl, known⟩ := isLeafAmong_iff.mp admitted.1.1
        refine ⟨_, _, rfl, ?_⟩
        show (operatorKind text).opensStatement = true
        rcases operatorKind_of_mem known with same | same | same <;> rw [same] <;> rfl
    case functionDeclaration => exact ⟨_, _, rfl, rfl⟩
    case conditionalStatement => exact ⟨_, _, rfl, rfl⟩
    case returnStatement => exact ⟨_, _, rfl, rfl⟩
  | leaf | stray => cases hs

/-- What may follow a statement depends on nothing but **whether it could still take an
alternate**. -/
theorem mayPrecede_of_isStatement (hs : e.isStatement = true)
    (alternate : e.leavesElseOpen = true → t.kind ≠ .elseWord) : e.MayPrecede t := by
  refine ⟨fun opens => ?_, alternate⟩
  cases e with
  | branch kind position children => cases kind <;> first | (cases hs; done) | cases opens
  | leaf | stray => cases hs

/-- A statement is read by the rule for statements, one level deeper. -/
theorem Rereads.statement (h : e.Rereads) (hs : e.isStatement = true)
    (hd : e.print.length < depth) (follows : e.MayPrecede t) :
    (readRule depth .statement).Reads (e.print ++ t :: rest) e.Alike (t :: rest) := by
  cases depth with
  | zero => exact absurd hd (Nat.not_lt_zero _)
  | succ depth =>
    have hd := Nat.le_of_lt_succ hd
    show (readStatement (readRule depth)).Reads _ _ _
    by_cases hb : e.isOf .block = true
    · have reads : (readBlock (readRule depth)).Reads (e.print ++ t :: rest) e.Alike (t :: rest) :=
        h.reads hb rfl hd follows
      obtain ⟨parts, printed⟩ := print_of_block hb
      rw [printed] at reads ⊢
      refine .current_bind fun start same => ?_
      rw [show start.kind = .leftBrace from congrArg Token.kind same]
      exact reads
    · cases e with
      | branch kind position children =>
        refine h readStatement ?_ depth t rest hd follows
        cases kind <;> first | rfl | (cases hs; done) | exact absurd rfl hb
      | leaf | stray => cases hs

theorem readStatementEnd_reads :
    readStatementEnd.Reads (TokenKind.semicolon.mark :: t :: rest) (fun _ => True) (t :: rest) :=
  .accept_then rfl (by simp) (.pure trivial)

/-- **Statements one after another**, up to a token that no statement starts with. -/
theorem readStatements_reads {stop : Reader Bool} {room : Nat} (hroom : children.length < room)
    (statements : ∀ e ∈ children, e.isStatement = true)
    (printable : ∀ e ∈ children, e.isPrintable = true) (ih : ∀ e ∈ children, e.Rereads)
    (hd : ∀ e ∈ children, e.print.length < depth) (ht : t.kind ≠ .elseWord)
    (ends : stop.Reads (t :: rest) (· = true) (t :: rest))
    (goesOn : ∀ u more, u.kind.opensStatement = true →
      stop.Reads (u :: more) (· = false) (u :: more)) :
    (manyUntil stop (readRule depth .statement) room).Reads
      ((printEach children).flatten ++ t :: rest) (AllAlike children) (t :: rest) := by
  refine .manyUntil hroom ends goesOn (fun e he => print_of_isStatement (printable e he) (statements e he))
    fun e he u more hu => (ih e he).statement (statements e he) (hd e he)
      (mayPrecede_of_isStatement (statements e he) fun _ => ?_)
  rcases hu with hu | rfl
  · exact TokenKind.ne_of hu rfl
  · exact ht

theorem block_rereads (admitted : Kind.block.admits children = true)
    (printable : ∀ c ∈ children, c.isPrintable = true) (ih : ∀ c ∈ children, c.Rereads) :
    (branch .block position children).Rereads := by
  intro read hr depth t rest hd _
  obtain rfl : readBlock = read := Option.some.inj hr
  have statements : ∀ e ∈ children, e.isStatement = true := List.all_eq_true.mp admitted
  have shorter := length_le_flatten fun e he => by
    obtain ⟨u, more, same, -⟩ := print_of_isStatement (printable e he) (statements e he)
    exact same ▸ List.cons_ne_nil _ _
  have layout : (branch .block position children).print =
    between .leftBrace .rightBrace (printEach children).flatten := rfl
  rw [layout, length_between] at hd
  rw [layout, between_append]
  refine .expect_bind rfl (by simp) fun start _ => .room_bind ?_
  refine Reads.bind (readStatements_reads ?_ statements printable ih (fun e he => ?_) nofun
    (.check_else nofun (.check_bind (.pure rfl))) fun u more hu => ?_) fun made like =>
      .expect_bind rfl (by simp) fun _ _ => .pure (alike_make like)
  · simp only [List.length_append, List.length_cons]
    omega
  · have := length_print_le he
    omega
  · refine .check_else (TokenKind.ne_of hu rfl) (.check_bind (.pure ?_))
    exact beq_eq_false_iff_ne.mpr (TokenKind.ne_of hu rfl)

/-! ## Simple statements -/

theorem expressionStatement_rereads (admitted : Kind.expressionStatement.admits children = true)
    (ih : ∀ c ∈ children, c.Rereads) : (branch .expressionStatement position children).Rereads := by
  match children, admitted with
  | [e], he =>
    intro read hr depth t rest hd _
    obtain rfl : readStatement = read := Option.some.inj hr
    have printed : (branch .expressionStatement position [e]).print =
        e.print ++ [TokenKind.semicolon.mark] := by
      rw [print_of_not_isExpression rfl]
      simp
    rw [printed, List.length_append] at hd
    rw [printed, List.append_assoc, List.cons_append, List.nil_append]
    have reads : (readExpression (readRule depth)).Reads
        (e.print ++ TokenKind.semicolon.mark :: t :: rest) e.Alike
        (TokenKind.semicolon.mark :: t :: rest) :=
      ((ih e (by simp)).operand he (by omega)).expression rfl
    obtain ⟨parts, same, -⟩ := e.print_of_isExpression he
    rw [same] at reads ⊢
    refine .current_bind fun start hstart => ?_
    rw [show start.kind = .leftParen from congrArg Token.kind hstart]
    exact reads.bind fun made like => readStatementEnd_reads.bind fun _ _ =>
      .pure (alike_make (.cons like rfl))

theorem empty_rereads (admitted : Kind.empty.admits children = true) :
    (branch .empty position children).Rereads := by
  obtain rfl : children = [] := List.isEmpty_iff.mp admitted
  intro read hr depth t rest _ _
  obtain rfl : readStatement = read := Option.some.inj hr
  refine .current_bind (t := TokenKind.semicolon.mark) fun start same => ?_
  rw [show start.kind = .semicolon from congrArg Token.kind same]
  exact .advance_bind (by simp) fun _ _ => .pure (alike_make rfl)

theorem returnStatement_rereads (admitted : Kind.returnStatement.admits children = true)
    (ih : ∀ c ∈ children, c.Rereads) : (branch .returnStatement position children).Rereads := by
  match children, admitted with
  | [], _ =>
    intro read hr depth t rest _ _
    obtain rfl : readStatement = read := Option.some.inj hr
    refine .current_bind (t := TokenKind.returnWord.mark) fun start same => ?_
    rw [show start.kind = .returnWord from congrArg Token.kind same]
    refine .advance_bind (by simp) fun first _ => .current_bind (t := TokenKind.semicolon.mark) fun next hnext => ?_
    rw [show next.kind = .semicolon from congrArg Token.kind hnext]
    exact readStatementEnd_reads.bind fun _ _ => .pure (alike_make rfl)
  | [e], he =>
    intro read hr depth t rest hd _
    obtain rfl : readStatement = read := Option.some.inj hr
    have printed : (branch .returnStatement position [e]).print =
        TokenKind.returnWord.mark :: (e.print ++ [TokenKind.semicolon.mark]) := by
      rw [print_of_not_isExpression rfl]
      simp
    rw [printed, List.length_cons, List.length_append] at hd
    rw [printed, List.cons_append, List.append_assoc, List.cons_append, List.nil_append]
    have reads : (readRule depth .expression).Reads
        (e.print ++ TokenKind.semicolon.mark :: t :: rest) e.Alike
        (TokenKind.semicolon.mark :: t :: rest) :=
      (ih e (by simp)).expression he (by omega) rfl
    obtain ⟨parts, same, -⟩ := e.print_of_isExpression he
    rw [same] at reads ⊢
    refine .current_bind fun start hstart => ?_
    rw [show start.kind = .returnWord from congrArg Token.kind hstart]
    refine .advance_bind (by simp) fun first _ => .current_bind fun next hnext => ?_
    -- A parenthesis on the same line is neither an end nor a new line.
    have goesOn : (next.kind == .semicolon || next.kind == .rightBrace ||
        next.kind == .endOfText || next.newlineBefore) = false := by
      rw [show next.kind = .leftParen from congrArg Token.kind hnext,
        show next.newlineBefore = false from congrArg Token.newlineBefore hnext]
      rfl
    rw [if_neg (by rw [goesOn]; nofun)]
    exact reads.bind fun made like => readStatementEnd_reads.bind fun _ _ =>
      .pure (alike_make (.cons like rfl))

/-! ## Declarations -/

theorem declarator_rereads (admitted : Kind.declarator.admits children = true)
    (ih : ∀ c ∈ children, c.Rereads) : (branch .declarator position children).Rereads := by
  match children, admitted with
  | [name], hname =>
    obtain ⟨text, place, rfl⟩ := isLeafOf_iff.mp hname
    intro read hr depth t rest hd follows
    obtain rfl : readDeclarator = read := Option.some.inj hr
    show (readDeclarator (readRule depth)).Reads (.plain .identifier text :: t :: rest) _ _
    refine .expect_bind rfl (by simp) fun given hgiven => .current_bind (t := t) fun next hnext => ?_
    have noValue : (next.kind == .assign) = false := by
      rw [show next.kind = t.kind by rw [← hnext]; rfl]
      exact beq_eq_false_iff_ne.mpr (TokenKind.ne_of (follows.ends rfl) rfl)
    rw [if_neg (by rw [noValue]; nofun)]
    exact .pure (alike_make (.cons (alike_ofToken hgiven) rfl))
  | [name, value], admitted =>
    obtain ⟨hname, hvalue⟩ := Bool.and_eq_true_iff.mp admitted
    obtain ⟨text, place, rfl⟩ := isLeafOf_iff.mp hname
    intro read hr depth t rest hd follows
    obtain rfl : readDeclarator = read := Option.some.inj hr
    have printed : (branch .declarator position [leaf .identifier text place, value]).print =
        .plain .identifier text :: equalsSign :: value.print := by
      rw [print_of_not_isExpression rfl]
      simp
    rw [printed, List.length_cons, List.length_cons] at hd
    rw [printed, List.cons_append, List.cons_append]
    refine .expect_bind rfl (by simp) fun given hgiven => .current_bind fun next hnext => ?_
    rw [show next.kind = .assign from congrArg Token.kind hnext,
      show next.text = "=" from congrArg Token.text hnext]
    refine .advance_bind (by simp) fun _ _ => ?_
    exact ((ih value (by simp)).expression hvalue (by omega) (follows.ends rfl)).bind
      fun made like => .pure (alike_make (.cons (alike_ofToken hgiven) (.cons like rfl)))

theorem declaration_rereads (admitted : Kind.declaration.admits children = true)
    (printable : ∀ c ∈ children, c.isPrintable = true) (ih : ∀ c ∈ children, c.Rereads) :
    (branch .declaration position children).Rereads := by
  match children, admitted with
  | word :: declarators, admitted =>
    simp only [Kind.admits, oneAndSome, Bool.and_eq_true, List.all_eq_true] at admitted
    obtain ⟨⟨hword, some⟩, hdeclarators⟩ := admitted
    obtain ⟨text, place, rfl, known⟩ := isLeafAmong_iff.mp hword
    intro read hr depth t rest hd _
    obtain rfl : readStatement = read := Option.some.inj hr
    have printed : (branch .declaration position (leaf .declarationWord text place :: declarators)).print =
        .plain (operatorKind text) text ::
          (separated TokenKind.comma.mark (printEach declarators) ++ [TokenKind.semicolon.mark]) := by
      rw [print_of_not_isExpression rfl]
      simp
    have opens : ∀ e ∈ declarators, e.print ≠ [] := fun e he => by
      have printable := printable e (List.mem_cons_of_mem _ he)
      obtain ⟨place, inner, rfl⟩ := isOf_iff.mp (hdeclarators e he)
      match inner, admits_of_isPrintable printable with
      | [name], hname =>
        obtain ⟨text, place, rfl⟩ := isLeafOf_iff.mp hname
        exact List.cons_ne_nil _ _
      | [name, value], admitted =>
        obtain ⟨text, place, rfl⟩ := isLeafOf_iff.mp (Bool.and_eq_true_iff.mp admitted).1
        exact List.cons_ne_nil _ _
    have shorter := length_le_flatten opens
    have longer := length_flatten_le_separated TokenKind.comma.mark (printEach declarators)
    rw [printed, List.length_cons, List.length_append] at hd
    rw [printed, List.cons_append, List.append_assoc, List.cons_append, List.nil_append]
    have reads : (readDeclaration (readRule depth)).Reads (.plain (operatorKind text) text ::
        (separated TokenKind.comma.mark (printEach declarators) ++
          TokenKind.semicolon.mark :: t :: rest))
        (branch .declaration position (leaf .declarationWord text place :: declarators)).Alike
        (t :: rest) := by
      refine .advance_bind (by simp) fun given hgiven => .room_bind ?_
      refine Reads.bind (Reads.commaSeparated ?_ (by simpa using some) nofun fun e he u more hu => ?_)
        fun made like => readStatementEnd_reads.bind fun _ _ =>
          .pure (alike_make (.cons (alike_ofToken hgiven) like))
      · simp only [List.length_append, List.length_cons]
        omega
      · have := length_print_le he
        have ends : u.kind.endsExpression = true := by
          rcases hu with hu | rfl
          · rw [hu]
            rfl
          · rfl
        refine (ih e (List.mem_cons_of_mem _ he)).reads (hdeclarators e he) rfl (by omega)
          ⟨fun _ => ends, fun opens => ?_⟩
        obtain ⟨place, inner, rfl⟩ := isOf_iff.mp (hdeclarators e he)
        cases opens
    refine .current_bind fun start same => ?_
    rw [show start.kind = operatorKind text from congrArg Token.kind same]
    rcases operatorKind_of_mem known with kind | kind | kind
    · rw [kind] at reads ⊢
      exact reads
    · rw [kind] at reads ⊢
      exact reads
    · rw [kind] at reads ⊢
      exact reads

theorem functionDeclaration_rereads (admitted : Kind.functionDeclaration.admits children = true)
    (ih : ∀ c ∈ children, c.Rereads) : (branch .functionDeclaration position children).Rereads := by
  match children, admitted with
  | [name, names, body], admitted =>
    obtain ⟨both, hbody⟩ := Bool.and_eq_true_iff.mp admitted
    obtain ⟨hname, hnames⟩ := Bool.and_eq_true_iff.mp both
    obtain ⟨text, place, rfl⟩ := isLeafOf_iff.mp hname
    intro read hr depth t rest hd _
    obtain rfl : readStatement = read := Option.some.inj hr
    have printed : (branch .functionDeclaration position
        [leaf .identifier text place, names, body]).print =
        TokenKind.functionWord.mark :: .plain .identifier text :: (names.print ++ body.print) := by
      rw [print_of_not_isExpression rfl]
      simp
    rw [printed, List.length_cons, List.length_cons, List.length_append] at hd
    rw [printed, List.cons_append, List.cons_append, List.append_assoc]
    refine .current_bind fun start same => ?_
    rw [show start.kind = .functionWord from congrArg Token.kind same]
    refine .advance_bind (by simp) fun first _ => .expect_bind rfl (by simp) fun given hgiven => ?_
    exact readParams_readBlock_reads hnames hbody (ih names (by simp)) (ih body (by simp)) (by omega)
      fun m k hm hk => .pure (alike_make (.cons (alike_ofToken hgiven) (.cons hm (.cons hk rfl))))

/-! ## Conditional statements -/

theorem conditionalStatement_rereads (admitted : Kind.conditionalStatement.admits children = true)
    (binds : Kind.conditionalStatement.bindsElse children = true) (ih : ∀ c ∈ children, c.Rereads) :
    (branch .conditionalStatement position children).Rereads := by
  match children, admitted with
  | [test, consequent], admitted =>
    obtain ⟨htest, hconsequent⟩ := Bool.and_eq_true_iff.mp admitted
    intro read hr depth t rest hd follows
    obtain rfl : readStatement = read := Option.some.inj hr
    have noElse : t.kind ≠ .elseWord := follows.alternate rfl
    have printed : (branch .conditionalStatement position [test, consequent]).print =
        TokenKind.ifWord.mark :: TokenKind.leftParen.mark ::
          (test.print ++ TokenKind.rightParen.mark :: consequent.print) := by
      rw [print_of_not_isExpression rfl]
      simp [between_append]
    rw [printed, List.length_cons, List.length_cons, List.length_append, List.length_cons] at hd
    rw [printed, List.cons_append, List.cons_append, List.append_assoc, List.cons_append]
    refine .current_bind fun start same => ?_
    rw [show start.kind = .ifWord from congrArg Token.kind same]
    refine .advance_bind (by simp) fun first _ => .expect_bind rfl (by simp) fun _ _ => ?_
    refine ((ih test (by simp)).expression htest (by omega) rfl).bind fun made hmade => ?_
    refine .expect_bind rfl (by simp) fun _ _ => ?_
    refine ((ih consequent (by simp)).statement hconsequent (by omega)
      (mayPrecede_of_isStatement hconsequent fun _ => noElse)).bind fun one hone => ?_
    exact .accept_else noElse (.pure (alike_make (.cons hmade (.cons hone rfl))))
  | [test, consequent, alternate], admitted =>
    obtain ⟨both, halternate⟩ := Bool.and_eq_true_iff.mp admitted
    obtain ⟨htest, hconsequent⟩ := Bool.and_eq_true_iff.mp both
    have closed : consequent.leavesElseOpen = false := by simpa using binds
    intro read hr depth t rest hd follows
    obtain rfl : readStatement = read := Option.some.inj hr
    have printed : (branch .conditionalStatement position [test, consequent, alternate]).print =
        TokenKind.ifWord.mark :: TokenKind.leftParen.mark ::
          (test.print ++ TokenKind.rightParen.mark ::
            (consequent.print ++ TokenKind.elseWord.mark :: alternate.print)) := by
      rw [print_of_not_isExpression rfl]
      simp [between_append]
    rw [printed, List.length_cons, List.length_cons, List.length_append, List.length_cons,
      List.length_append, List.length_cons] at hd
    rw [printed, List.cons_append, List.cons_append, List.append_assoc, List.cons_append,
      List.append_assoc, List.cons_append]
    refine .current_bind fun start same => ?_
    rw [show start.kind = .ifWord from congrArg Token.kind same]
    refine .advance_bind (by simp) fun first _ => .expect_bind rfl (by simp) fun _ _ => ?_
    refine ((ih test (by simp)).expression htest (by omega) rfl).bind fun made hmade => ?_
    refine .expect_bind rfl (by simp) fun _ _ => ?_
    -- The word before the alternate is not taken for one of the consequent's.
    have ends : consequent.MayPrecede TokenKind.elseWord.mark :=
      mayPrecede_of_isStatement hconsequent fun opens => absurd (closed.symm.trans opens) nofun
    refine ((ih consequent (by simp)).statement hconsequent (by omega) ends).bind fun one hone => ?_
    refine .accept_then rfl (by simp) ?_
    refine ((ih alternate (by simp)).statement halternate (by omega)
      (mayPrecede_of_isStatement halternate follows.alternate)).bind fun two htwo => ?_
    exact .pure (alike_make (.cons hmade (.cons hone (.cons htwo rfl))))

end Node

end Scriptlet
