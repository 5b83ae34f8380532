import Scriptlet.Proofs.Ladder

/-!
# Nodes that are read again

Each kind of node has a reader of its own, which reads what is printed of the node if the
children's readers do this for the children. This is one step of an induction over trees,
kind by kind. Between the parentheses of an expression there is one reader for all kinds,
so the step for an expression is about what stands between them.

The depth to which rules are read has to suffice. A rule is only referred to after a
token, so there are always fewer levels than tokens, and the length of what is printed is
the bound.
-/

namespace Scriptlet

open Reader

/-! ## What it means to be read again -/

/-- The **reader for nodes of a kind**. -/
@[simp] def Kind.reading (kind : Kind) : Option (Rules → Reader Node) :=
  if kind.isExpression then some readPrimary
  else match kind with
    | params => some fun _ => readParams
    | block => some readBlock
    | declarator => some readDeclarator
    | property => some readProperty
    | computedKey => some readKey
    | arguments => some readArguments
    | spread => some readSpreadOrExpression
    | expressionStatement | empty | declaration | functionDeclaration | conditionalStatement
    | returnStatement => some readStatement
    | _ => none

/-- The kinds whose last part is an expression, with nothing after it. -/
def Kind.endsOpen : Kind → Bool
  | declarator | property | spread => true
  | _ => false

/-- Whether a token **may follow** what is printed of a node. -/
structure Node.MayPrecede (n : Node) (t : Token) : Prop where
  /-- An expression at the end of the node ends before the token. -/
  ends : n.kind?.any Kind.endsOpen = true → t.kind.endsExpression = true
  /-- The token is not taken for the start of an alternate. -/
  alternate : n.leavesElseOpen = true → t.kind ≠ .elseWord

/-- A node **is read again** if the reader for its kind reads what is printed of it, to
any depth that suffices and before any token that may follow. -/
def Node.Rereads (n : Node) : Prop :=
  ∀ read, n.kind?.bind Kind.reading = some read → ∀ depth t rest, n.print.length ≤ depth →
    n.MayPrecede t → (read (readRule depth)).Reads (n.print ++ t :: rest) n.Alike (t :: rest)

namespace Node

variable {n e : Node} {kind : Kind} {depth : Nat} {t : Token} {rest : List Token}

/-- Expressions and most parts of other nodes may precede anything. -/
theorem mayPrecede_of_isOf (hk : n.isOf kind = true) (closed : kind.endsOpen = false)
    (plain : kind ≠ .conditionalStatement) : n.MayPrecede t := by
  obtain ⟨position, children, rfl⟩ := isOf_iff.mp hk
  refine ⟨fun h => absurd (closed.symm.trans h) nofun, fun h => ?_⟩
  unfold leavesElseOpen at h
  split at h
  · rename_i same
    exact absurd (by cases same; rfl) plain
  · rename_i same
    exact absurd (by cases same; rfl) plain
  · cases h

namespace Rereads

/-- The reader for a kind reads a node of it. -/
theorem reads {read : Rules → Reader Node} (h : n.Rereads) (hk : n.isOf kind = true)
    (hr : kind.reading = some read) (hd : n.print.length ≤ depth) (follows : n.MayPrecede t) :
    (read (readRule depth)).Reads (n.print ++ t :: rest) n.Alike (t :: rest) := by
  obtain ⟨position, children, rfl⟩ := isOf_iff.mp hk
  exact h read hr depth t rest hd follows

theorem operand (h : e.Rereads) (he : e.isExpression = true) (hd : e.print.length ≤ depth) :
    e.ReadsOperand (readRule depth) := by
  refine ⟨he, fun t rest => ?_⟩
  cases e with
  | branch kind position children =>
    have he : kind.isExpression = true := he
    refine h.reads (isOf_iff.mpr ⟨_, _, rfl⟩) (if_pos he) hd (mayPrecede_of_isOf (isOf_iff.mpr ⟨_, _, rfl⟩) ?_ ?_)
    · cases kind <;> first | rfl | cases he
    · rintro rfl
      cases he
  | leaf | stray => cases he

/-- An expression is read by the rule for expressions, one level deeper. -/
theorem expression (h : e.Rereads) (he : e.isExpression = true) (hd : e.print.length < depth)
    (ht : t.kind.endsExpression = true) :
    (readRule depth .expression).Reads (e.print ++ t :: rest) e.Alike (t :: rest) := by
  cases depth with
  | zero => exact absurd hd (Nat.not_lt_zero _)
  | succ depth => exact (h.operand he (Nat.le_of_lt_succ hd)).expression ht

end Rereads

end Node

/-! ## Between parentheses -/

section Parentheses

variable {kind : Kind} {position : Option Position} {children : List Node} {n : Node}
  {rules : Rules} {s t : Token} {tokens parts rest : List Token}

theorem readPrimary_reads_parens {P : Node → Prop}
    (inner : (rules .expression).Reads (parts ++ TokenKind.rightParen.mark :: t :: rest) P
      (TokenKind.rightParen.mark :: t :: rest)) :
    (readPrimary rules).Reads (between .leftParen .rightParen parts ++ t :: rest) P
      (t :: rest) := by
  rw [between_append]
  refine .current_bind fun start same => ?_
  rw [show start.kind = .leftParen from congrArg Token.kind same]
  exact .advance_bind (by simp) fun _ _ => inner.bind fun _ hgiven => .expect_bind rfl (by simp) fun _ _ => .pure hgiven

/-- **The step for an expression**: what is printed between its parentheses is read as an
expression. -/
theorem Node.rereads_of_body (he : kind.isExpression = true)
    (body : ∀ depth rest, (kind.layout (Node.printEach children)).length ≤ depth →
      (readExpression (readRule depth)).Reads
        (kind.layout (Node.printEach children) ++ TokenKind.rightParen.mark :: rest)
        (Node.branch kind position children).Alike (TokenKind.rightParen.mark :: rest)) :
    (Node.branch kind position children).Rereads := by
  intro read hr depth t rest hd _
  obtain rfl : readPrimary = read := Option.some.inj ((if_pos he).symm.trans hr)
  rw [Node.print, Kind.enclose, if_pos he] at hd ⊢
  refine readPrimary_reads_parens ?_
  cases depth with
  | zero => exact absurd hd (by simp)
  | succ depth => exact body depth _ (by rw [length_between] at hd; omega)

/-- A primary expression is an expression. -/
theorem readExpression_reads_primary {P : Node → Prop} (hs : s.kind.opensOperand = true) (notNew : s.kind ≠ .newWord)
    (arrow : checkArrow.Reads (s :: tokens) (· = false) (s :: tokens))
    (ht : t.kind.endsExpression = true)
    (h : (readPrimary rules).Reads (s :: tokens) P (t :: rest)) :
    (readExpression rules).Reads (s :: tokens) P (t :: rest) := by
  have ends := TokenKind.endsOperand_of_endsExpression ht
  exact readExpression_reads_unary ht arrow <| readUnary_reads_callMember hs ends <|
    readCallMember_reads ends <| readHead_reads notNew h

end Parentheses

end Scriptlet

/-!
## Parts of expressions that are read again

Parameters, arguments and the properties of objects are no expressions themselves, but
what expressions have lists of. Each of their readers is used at a few places only, where
it is known what comes next.
-/

namespace Scriptlet

open Reader

namespace Node

variable {n e : Node} {position : Option Position} {children : List Node} {depth : Nat}
  {t : Token} {rest : List Token}

/-! ### Parameters -/

theorem params_rereads (admitted : Kind.params.admits children = true) :
    (branch .params position children).Rereads := by
  intro read hr depth t rest hd _
  obtain rfl : (fun _ => readParams) = read := Option.some.inj hr
  have names : ∀ n ∈ children, ∃ text place, n = leaf .identifier text place := fun n hn =>
    isLeafOf_iff.mp (List.all_eq_true.mp admitted n hn)
  have printed : ∀ n ∈ children, n.print ≠ [] := fun n hn => by
    obtain ⟨text, place, rfl⟩ := names n hn
    exact List.cons_ne_nil _ _
  have shorter := length_le_flatten printed
  have longer := length_flatten_le_separated TokenKind.comma.mark (printEach children)
  show readParams.Reads (between .leftParen .rightParen
    (separated TokenKind.comma.mark (printEach children)) ++ t :: rest) _ (t :: rest)
  rw [between_append]
  refine .expect_bind rfl (by simp) fun start _ => .room_bind ?_
  refine Reads.bind (Reads.commaList ?_ rfl nofun ?_ ?_) fun made like => ?_
  · simp only [List.length_append, List.length_cons]
    omega
  · intro n hn
    obtain ⟨text, place, rfl⟩ := names n hn
    exact ⟨_, _, rfl, nofun⟩
  · intro n hn u more _
    obtain ⟨text, place, rfl⟩ := names n hn
    have name : (expect .identifier).Reads (.plain .identifier text :: u :: more)
        (·.unplaced = .plain .identifier text) (u :: more) := by
      rw [← bind_pure (expect _)]
      exact .expect_bind rfl (by simp) fun actual same => .pure same
    exact name.map fun actual same => alike_ofToken same
  · exact .expect_bind rfl (by simp) fun _ _ => .pure (alike_make like)

/-! ### Arguments -/

/-- An expression or a spread starts with a parenthesis or dots. -/
theorem print_of_isArgument (he : e.isArgument = true) :
    ∃ u more, e.print = u :: more ∧ (u.kind = .leftParen ∨ u.kind = .spread) := by
  rcases Bool.or_eq_true_iff.mp he with he | he
  · obtain ⟨parts, printed, -⟩ := e.print_of_isExpression he
    exact ⟨_, _, printed, .inl rfl⟩
  · obtain ⟨position, children, rfl⟩ := isOf_iff.mp he
    exact ⟨_, _, rfl, .inr rfl⟩

theorem spread_rereads (admitted : Kind.spread.admits children = true)
    (ih : ∀ c ∈ children, c.Rereads) : (branch .spread position children).Rereads := by
  match children, admitted with
  | [e], he =>
    intro read hr depth t rest hd follows
    obtain rfl : readSpreadOrExpression = read := Option.some.inj hr
    have printed : (branch .spread position [e]).print = TokenKind.spread.mark :: e.print := by
      rw [print_of_not_isExpression rfl]
      simp
    rw [printed] at hd ⊢
    refine .check_then rfl (.advance_bind (by simp) fun _ _ => ?_)
    exact ((ih e List.mem_cons_self).expression he hd (follows.ends rfl)).bind fun _ like =>
      .pure (alike_make (.cons like rfl))

/-- An argument is read by the reader for arguments. -/
theorem Rereads.argument (h : e.Rereads) (he : e.isArgument = true) (hd : e.print.length < depth)
    (ht : t.kind.endsExpression = true) :
    (readSpreadOrExpression (readRule depth)).Reads (e.print ++ t :: rest) e.Alike (t :: rest) := by
  rcases Bool.or_eq_true_iff.mp he with he | he
  · have inner : (readRule depth .expression).Reads (e.print ++ t :: rest) e.Alike (t :: rest) :=
      h.expression he hd ht
    obtain ⟨parts, printed, -⟩ := e.print_of_isExpression he
    rw [printed] at inner ⊢
    exact .check_else nofun inner
  · refine h.reads he rfl (Nat.le_of_lt hd) ⟨fun _ => ht, fun opens => ?_⟩
    obtain ⟨position, children, rfl⟩ := isOf_iff.mp he
    cases opens

theorem arguments_rereads (admitted : Kind.arguments.admits children = true)
    (ih : ∀ c ∈ children, c.Rereads) : (branch .arguments position children).Rereads := by
  intro read hr depth t rest hd _
  obtain rfl : readArguments = read := Option.some.inj hr
  have args : ∀ n ∈ children, n.isArgument = true := List.all_eq_true.mp admitted
  have printed : ∀ n ∈ children, n.print ≠ [] := fun n hn => by
    obtain ⟨u, more, same, -⟩ := print_of_isArgument (args n hn)
    exact same ▸ List.cons_ne_nil _ _
  have shorter := length_le_flatten printed
  have longer := length_flatten_le_separated TokenKind.comma.mark (printEach children)
  have layout : (branch .arguments position children).print =
    between .leftParen .rightParen (separated TokenKind.comma.mark (printEach children)) := rfl
  rw [layout, length_between] at hd
  rw [layout, between_append]
  refine .expect_bind rfl (by simp) fun start _ => .room_bind ?_
  refine Reads.bind (Reads.commaList ?_ rfl nofun ?_ ?_) fun made like => ?_
  · simp only [List.length_append, List.length_cons]
    omega
  · intro n hn
    obtain ⟨u, more, same, opens⟩ := print_of_isArgument (args n hn)
    exact ⟨u, more, same, by rcases opens with opens | opens <;> rw [opens] <;> nofun⟩
  · intro n hn u more hu
    have := length_print_le hn
    refine (ih n hn).argument (args n hn) (by omega) ?_
    rcases hu with hu | hu <;> rw [hu] <;> rfl
  · exact .expect_bind rfl (by simp) fun _ _ => .pure (alike_make like)

/-! ### Elements -/

/-- **The elements of an array**, each with a comma after it. A hole is a comma alone. -/
theorem readElements_reads {room : Nat} (hroom : children.length < room)
    (elements : ∀ e ∈ children, e.isElement = true)
    (holes : ∀ e ∈ children, e.isOf .hole = true → e.children = [])
    (args : ∀ e ∈ children, e.isArgument = true → ∀ u more, u.kind.endsExpression = true →
      (readSpreadOrExpression (readRule depth)).Reads (e.print ++ u :: more) e.Alike (u :: more))
    (ht : t.kind = .rightBracket) :
    (readElements (readRule depth) room).Reads
      (((printEach children).map fun part => part ++ [TokenKind.comma.mark]).flatten ++ t :: rest)
      (AllAlike children) (t :: rest) := by
  induction room generalizing children with
  | zero => exact absurd hroom (Nat.not_lt_zero _)
  | succ room ih =>
    cases children with
    | nil => exact .check_then ht (.pure rfl)
    | cons e children =>
      obtain ⟨he, others⟩ := List.forall_mem_cons.mp elements
      have more := ih (Nat.lt_of_succ_lt_succ hroom) others
        (fun m hm => holes m (List.mem_cons_of_mem _ hm))
        (fun m hm => args m (List.mem_cons_of_mem _ hm))
      simp only [printEach, List.map_cons, List.flatten_cons, List.append_assoc, List.cons_append,
        List.nil_append]
      rcases Bool.or_eq_true_iff.mp he with he | he
      · have first := args e List.mem_cons_self he TokenKind.comma.mark
          (((printEach children).map fun part => part ++ [TokenKind.comma.mark]).flatten ++ t :: rest)
          rfl
        obtain ⟨u, tokens, printed, opens⟩ := print_of_isArgument he
        have notClosed : u.kind ≠ .rightBracket ∧ u.kind ≠ .comma := by
          rcases opens with opens | opens <;> rw [opens] <;> exact ⟨nofun, nofun⟩
        rw [printed] at first ⊢
        refine .check_else notClosed.1 (.check_else notClosed.2 ?_)
        refine first.bind fun made like => Reads.bind (Q := fun _ => True) ?_ fun _ _ =>
          more.bind fun xs likes => .pure (.cons like likes)
        exact .check_else nofun (.expect_bind rfl (by simp) fun _ _ => .pure trivial)
      · have bare := holes e List.mem_cons_self he
        obtain ⟨position, inner, rfl⟩ := isOf_iff.mp he
        obtain rfl : inner = [] := bare
        exact .check_else nofun (.check_then rfl (.advance_bind (by simp) fun _ _ =>
          more.bind fun xs likes => .pure (.cons (alike_make rfl) likes)))

/-! ### Properties -/

theorem computedKey_rereads (admitted : Kind.computedKey.admits children = true)
    (ih : ∀ c ∈ children, c.Rereads) : (branch .computedKey position children).Rereads := by
  match children, admitted with
  | [e], he =>
    intro read hr depth t rest hd _
    obtain rfl : readKey = read := Option.some.inj hr
    have printed : (branch .computedKey position [e]).print =
        between .leftBracket .rightBracket e.print := by
      rw [print_of_not_isExpression rfl]
      simp
    rw [printed, length_between] at hd
    rw [printed]
    rw [between_append]
    refine .current_bind fun start same => .accept_then rfl (by simp) ?_
    refine ((ih e List.mem_cons_self).expression he (by omega) rfl).bind fun _ like => ?_
    exact .expect_bind rfl (by simp) fun _ _ => .pure (alike_make (.cons like rfl))

/-- **The key of a property**, before its colon. -/
theorem readKey_reads (hk : n.isKey = true) (h : n.Rereads) (hd : n.print.length ≤ depth) :
    (readKey (readRule depth)).Reads (n.print ++ t :: rest) n.Alike (t :: rest) := by
  rcases Bool.or_eq_true_iff.mp hk with hk | hk
  · have leaf : ∃ label text place, n = leaf label text place ∧
        (label = .identifier ∨ label = .string ∨ label = .number) := by
      simp only [Bool.or_eq_true, isLeafOf_iff] at hk
      rcases hk with (⟨text, place, rfl⟩ | ⟨text, place, rfl⟩) | ⟨text, place, rfl⟩
      · exact ⟨_, text, place, rfl, .inl rfl⟩
      · exact ⟨_, text, place, rfl, .inr (.inl rfl)⟩
      · exact ⟨_, text, place, rfl, .inr (.inr rfl)⟩
    obtain ⟨label, text, place, rfl, hlabel⟩ := leaf
    refine .current_bind fun start same => ?_
    have kind : start.kind = label.tokenKind text := congrArg Token.kind same
    rcases hlabel with rfl | rfl | rfl
    · refine .accept_else nofun ?_
      rw [kind]
      exact .advance_bind (by simp) fun _ ht => .pure (alike_ofToken ht)
    · refine .accept_else nofun ?_
      rw [kind]
      exact .advance_bind (by simp) fun _ ht => .pure (alike_ofToken ht)
    · refine .accept_else nofun ?_
      rw [kind]
      exact .advance_bind (by simp) fun _ ht => .pure (alike_ofToken ht)
  · exact h.reads hk rfl hd (mayPrecede_of_isOf hk rfl nofun)

theorem property_rereads (admitted : Kind.property.admits children = true)
    (ih : ∀ c ∈ children, c.Rereads) : (branch .property position children).Rereads := by
  match children, admitted with
  | [key, value], admitted =>
    intro read hr depth t rest hd follows
    obtain rfl : readProperty = read := Option.some.inj hr
    obtain ⟨hkey, hvalue⟩ := Bool.and_eq_true_iff.mp admitted
    have printed : (branch .property position [key, value]).print =
        key.print ++ TokenKind.colon.mark :: value.print := by
      rw [print_of_not_isExpression rfl]
      simp
    rw [printed, List.length_append, List.length_cons] at hd
    rw [printed, List.append_assoc, List.cons_append]
    refine .start_bind fun start => ?_
    refine (readKey_reads hkey (ih key (by simp)) (by omega)).bind fun made hmade => ?_
    refine .accept_then rfl (by simp) ?_
    exact ((ih value (by simp)).expression hvalue (by omega) (follows.ends rfl)).bind
      fun given hgiven => .pure (alike_make (.cons hmade (.cons hgiven rfl)))

end Node

end Scriptlet
