import Scriptlet.Proofs.RoundTrip.Basic

/-!
# Expressions that are read again

What stands between the parentheses of an expression starts with an operand in
parentheses, with a word or with a sign. In the first case an arrow has to be ruled out,
and which of the readers of the levels gets at the rest is decided by the one token after
the operand.
-/

namespace Scriptlet

open Reader

namespace Node

variable {n e : Node} {position : Option Position} {children : List Node} {depth : Nat}
  {s t u : Token} {tokens more rest : List Token} {rules : Rules}

/-! ## Single tokens -/

theorem readPrimary_reads_literal {label : Label} {text : Text} {place : Position}
    (found : literalLabel? s.kind = some label) (same : s.text = text) :
    (readPrimary rules).Reads (s :: t :: rest)
      (branch .literal position [leaf label text place]).Alike (t :: rest) := by
  refine .current_bind fun start hstart => ?_
  subst hstart
  rw [show literalLabel? start.kind = some label from found]
  refine .advance_bind (by simp) fun actual ht => .pure (alike_make (.cons ?_ rfl))
  have kept : actual.text = text := (congrArg Token.text ht).trans same
  exact kept ▸ rfl

theorem literal_rereads (admitted : Kind.literal.admits children = true) :
    (branch .literal position children).Rereads := by
  match children, admitted with
  | [n], admitted =>
    cases n with
    | leaf label text place =>
      have found : literalLabel? (label.tokenKind text) = some label := by
        cases label <;> first | rfl | cases admitted
      have is_not {kind : TokenKind} (h : literalLabel? kind = none) : label.tokenKind text ≠ kind := by
        rintro same
        rw [same, h] at found
        cases found
      have opens : (label.tokenKind text).opensOperand = true := by
        cases label <;> first | rfl | cases admitted
      refine rereads_of_body rfl fun depth rest _ => ?_
      exact readExpression_reads_primary opens (is_not rfl) (checkArrow_reads (is_not rfl) (is_not rfl))
        rfl (readPrimary_reads_literal found rfl)
    | branch | stray => cases admitted

theorem identifier_rereads (admitted : Kind.identifier.admits children = true) :
    (branch .identifier position children).Rereads := by
  match children, admitted with
  | [name], hname =>
    obtain ⟨text, place, rfl⟩ := isLeafOf_iff.mp hname
    refine rereads_of_body rfl fun depth rest _ => ?_
    refine readExpression_reads_primary (s := .plain .identifier text) rfl nofun
      (checkArrow_reads_name rfl) rfl ?_
    refine .current_bind fun start same => ?_
    rw [show start.kind = .identifier from congrArg Token.kind same]
    exact .advance_bind (by simp) fun actual ht => .pure (alike_make (.cons (alike_ofToken ht) rfl))

theorem this_rereads (admitted : Kind.this.admits children = true) :
    (branch .this position children).Rereads := by
  obtain rfl : children = [] := List.isEmpty_iff.mp admitted
  refine rereads_of_body rfl fun depth rest _ => ?_
  refine readExpression_reads_primary rfl nofun (checkArrow_reads nofun nofun) rfl ?_
  refine .current_bind fun start same => ?_
  rw [show start.kind = .thisWord from congrArg Token.kind same]
  exact .advance_bind (by simp) fun _ _ => .pure (alike_make rfl)

/-! ## Brackets and braces -/

/-- A hole is empty, if it conforms to the table of shapes. -/
theorem children_of_hole (h : e.isPrintable = true) (he : e.isOf .hole = true) :
    e.children = [] := by
  obtain ⟨position, children, rfl⟩ := isOf_iff.mp he
  exact List.isEmpty_iff.mp (admits_of_isPrintable h)

theorem array_rereads (admitted : Kind.array.admits children = true)
    (printable : ∀ c ∈ children, c.isPrintable = true) (ih : ∀ c ∈ children, c.Rereads) :
    (branch .array position children).Rereads := by
  have commas : (printEach children).flatten.length + children.length =
      ((printEach children).map fun part => part ++ [TokenKind.comma.mark]).flatten.length := by
    clear admitted printable ih
    induction children with
    | nil => rfl
    | cons e children ih =>
      simp only [printEach, List.flatten_cons, List.map_cons, List.length_append,
        List.length_cons, List.length_nil] at ih ⊢
      omega
  refine rereads_of_body rfl fun depth rest hd => ?_
  have layout : Kind.array.layout (printEach children) = between .leftBracket .rightBracket
    ((printEach children).map fun part => part ++ [TokenKind.comma.mark]).flatten := rfl
  rw [layout, length_between] at hd
  rw [layout, between_append]
  refine readExpression_reads_primary rfl nofun (checkArrow_reads nofun nofun) rfl ?_
  refine .current_bind fun start same => ?_
  rw [show start.kind = .leftBracket from congrArg Token.kind same]
  refine .expect_bind rfl (by simp) fun _ _ => .room_bind ?_
  refine Reads.bind (readElements_reads ?_ (List.all_eq_true.mp admitted)
    (fun e he => children_of_hole (printable e he)) (fun e he isArgument u more hu => ?_) rfl)
    fun made like => .expect_bind rfl (by simp) fun _ _ => .pure (alike_make like)
  · simp only [List.length_append, List.length_cons]
    omega
  · have := length_print_le he
    exact (ih e he).argument isArgument (by omega) hu

/-- A property starts with its key. -/
theorem print_of_property (h : e.isPrintable = true) (he : e.isOf .property = true) :
    ∃ u more, e.print = u :: more ∧ u.kind ≠ .rightBrace := by
  obtain ⟨position, children, rfl⟩ := isOf_iff.mp he
  match children, admits_of_isPrintable h with
  | [key, value], admitted =>
    have printed : (branch .property position [key, value]).print =
        key.print ++ TokenKind.colon.mark :: value.print := by
      rw [print_of_not_isExpression rfl]
      simp
    have hkey := (Bool.and_eq_true_iff.mp admitted).1
    simp only [isKey, Bool.or_eq_true, isLeafOf_iff, isOf_iff] at hkey
    rw [printed]
    rcases hkey with ((⟨text, place, rfl⟩ | ⟨text, place, rfl⟩) | ⟨text, place, rfl⟩) |
      ⟨place, inner, rfl⟩
    · exact ⟨_, _, rfl, nofun⟩
    · exact ⟨_, _, rfl, nofun⟩
    · exact ⟨_, _, rfl, nofun⟩
    · exact ⟨_, _, rfl, nofun⟩

/-- **The properties of an object**, with commas between them. -/
theorem readProperties_reads {room : Nat} (hroom : children.length < room)
    (opens : ∀ e ∈ children, ∃ u more, e.print = u :: more ∧ u.kind ≠ .rightBrace)
    (items : ∀ e ∈ children, ∀ u more, u.kind.endsExpression = true →
      (readProperty rules).Reads (e.print ++ u :: more) e.Alike (u :: more))
    (ht : t.kind = .rightBrace) :
    (readProperties rules room).Reads
      (separated TokenKind.comma.mark (printEach children) ++ t :: rest)
      (AllAlike children) (t :: rest) := by
  rw [printEach_eq_map]
  refine Reads.mono (Reads.untilClosed hroom ht nofun (fun n => .check_then ht (.pure rfl))
    (fun n s tokens P left hs h => .check_else hs h) opens fun e he u more hu => ?_)
    fun made like => allAlike_of_forall₂ like
  refine items e he u more ?_
  rcases hu with hu | rfl
  · rw [hu]
    rfl
  · rw [ht]
    rfl

theorem object_rereads (admitted : Kind.object.admits children = true)
    (printable : ∀ c ∈ children, c.isPrintable = true) (ih : ∀ c ∈ children, c.Rereads) :
    (branch .object position children).Rereads := by
  have properties : ∀ e ∈ children, e.isOf .property = true := List.all_eq_true.mp admitted
  have opens := fun e he => print_of_property (printable e he) (properties e he)
  have shorter := length_le_flatten fun e he => by
    obtain ⟨u, more, same, -⟩ := opens e he
    exact same ▸ List.cons_ne_nil _ _
  have longer := length_flatten_le_separated TokenKind.comma.mark (printEach children)
  refine rereads_of_body rfl fun depth rest hd => ?_
  have layout : Kind.object.layout (printEach children) =
    between .leftBrace .rightBrace (separated TokenKind.comma.mark (printEach children)) := rfl
  rw [layout, length_between] at hd
  rw [layout, between_append]
  refine readExpression_reads_primary rfl nofun (checkArrow_reads nofun nofun) rfl ?_
  refine .current_bind fun start same => ?_
  rw [show start.kind = .leftBrace from congrArg Token.kind same]
  refine .expect_bind rfl (by simp) fun _ _ => .room_bind ?_
  refine Reads.bind (readProperties_reads ?_ opens (fun e he u more hu => ?_) rfl)
    fun made like => .expect_bind rfl (by simp) fun _ _ => .pure (alike_make like)
  · simp only [List.length_append, List.length_cons]
    omega
  · have := length_print_le he
    refine (ih e he).reads (properties e he) rfl (by omega) ⟨fun _ => hu, fun opens => ?_⟩
    obtain ⟨position, inner, rfl⟩ := isOf_iff.mp (properties e he)
    cases opens

/-! ## Functions -/

theorem print_of_block (he : e.isOf .block = true) :
    ∃ parts, e.print = between .leftBrace .rightBrace parts := by
  obtain ⟨position, children, rfl⟩ := isOf_iff.mp he
  exact ⟨_, rfl⟩

theorem print_of_params (he : e.isOf .params = true) :
    ∃ parts, e.print = between .leftParen .rightParen parts ∧ PassedOver parts := by
  obtain ⟨position, children, rfl⟩ := isOf_iff.mp he
  exact ⟨_, rfl, .separated rfl (printEach_passedOver children)⟩

/-- **Parameters and a body**, as they are read wherever a function is. -/
theorem readParams_readBlock_reads {names body : Node} {α : Type}
    {next : Node → Node → Reader α} {P : α → Prop} (hnames : names.isOf .params = true)
    (hbody : body.isOf .block = true) (inames : names.Rereads) (ibody : body.Rereads)
    (hd : names.print.length ≤ depth ∧ body.print.length ≤ depth)
    (h : ∀ m k, names.Alike m → body.Alike k → (next m k).Reads (t :: rest) P tokens) :
    (readParams >>= fun m => readBlock (readRule depth) >>= fun k => next m k).Reads
      (names.print ++ (body.print ++ t :: rest)) P tokens := by
  have block : (readBlock (readRule depth)).Reads (body.print ++ t :: rest) body.Alike (t :: rest) :=
    ibody.reads hbody rfl hd.2 (mayPrecede_of_isOf hbody rfl nofun)
  obtain ⟨parts, printed⟩ := print_of_block hbody
  rw [printed] at block ⊢
  refine Reads.bind (inames.reads hnames rfl hd.1 (mayPrecede_of_isOf hnames rfl nofun))
    fun m hm => ?_
  exact block.bind fun k hk => h m k hm hk

theorem function_rereads (admitted : Kind.function.admits children = true)
    (ih : ∀ c ∈ children, c.Rereads) : (branch .function position children).Rereads := by
  refine rereads_of_body rfl fun depth rest hd => ?_
  match children, admitted with
  | [names, body], admitted =>
    obtain ⟨hnames, hbody⟩ := Bool.and_eq_true_iff.mp admitted
    have layout : Kind.function.layout (printEach [names, body]) =
        TokenKind.functionWord.mark :: (names.print ++ body.print) := by simp
    rw [layout, List.length_cons, List.length_append] at hd
    rw [layout, List.cons_append, List.append_assoc]
    refine readExpression_reads_primary rfl nofun (checkArrow_reads nofun nofun) rfl ?_
    refine .current_bind fun start same => ?_
    rw [show start.kind = .functionWord from congrArg Token.kind same]
    refine .advance_bind (by simp) fun first _ => ?_
    obtain ⟨position, inner, rfl⟩ := isOf_iff.mp hnames
    refine Reads.bind (.check_else nofun (.pure rfl)) ?_
    rintro _ rfl
    exact readParams_readBlock_reads hnames hbody (ih _ (by simp)) (ih body (by simp)) (by omega)
      fun m k hm hk => .pure (alike_make (.cons hm (.cons hk rfl)))
  | [names, body, name], admitted =>
    obtain ⟨both, hname⟩ := Bool.and_eq_true_iff.mp admitted
    obtain ⟨hnames, hbody⟩ := Bool.and_eq_true_iff.mp both
    obtain ⟨text, place, rfl⟩ := isLeafOf_iff.mp hname
    have layout : Kind.function.layout (printEach [names, body, leaf .identifier text place]) =
        TokenKind.functionWord.mark :: .plain .identifier text :: (names.print ++ body.print) := by
      simp
    rw [layout, List.length_cons, List.length_cons, List.length_append] at hd
    rw [layout, List.cons_append, List.cons_append, List.append_assoc]
    refine readExpression_reads_primary rfl nofun (checkArrow_reads nofun nofun) rfl ?_
    refine .current_bind fun start same => ?_
    rw [show start.kind = .functionWord from congrArg Token.kind same]
    refine .advance_bind (by simp) fun first _ => ?_
    have named : readName?.Reads (.plain .identifier text :: (names.print ++
        (body.print ++ TokenKind.rightParen.mark :: rest)))
        (fun given => ∃ t, given = some t ∧ t.unplaced = .plain .identifier text)
        (names.print ++ (body.print ++ TokenKind.rightParen.mark :: rest)) := by
      refine .check_then rfl (Reads.map ?_ fun t ht => ⟨t, rfl, ht⟩)
      rw [← bind_pure advance]
      exact .advance_bind (by simp) fun t ht => .pure ht
    refine named.bind ?_
    rintro _ ⟨given, rfl, hgiven⟩
    exact readParams_readBlock_reads hnames hbody (ih _ (by simp)) (ih body (by simp)) (by omega)
      fun m k hm hk => .pure (alike_make (.cons hm (.cons hk (.cons (alike_ofToken hgiven) rfl))))

/-- The body of an arrow is a block or an expression. -/
theorem readArrowBody_reads (hb : n.isBody = true) (h : n.Rereads) (hd : n.print.length < depth)
    (ht : t.kind.endsExpression = true) :
    (readArrowBody (readRule depth)).Reads (n.print ++ t :: rest) n.Alike (t :: rest) := by
  rcases Bool.or_eq_true_iff.mp hb with block | he
  · have reads : (readBlock (readRule depth)).Reads (n.print ++ t :: rest) n.Alike (t :: rest) :=
      h.reads block rfl (Nat.le_of_lt hd) (mayPrecede_of_isOf block rfl nofun)
    obtain ⟨parts, printed⟩ := print_of_block block
    rw [printed] at reads ⊢
    exact .check_then rfl reads
  · have reads : (readRule depth .expression).Reads (n.print ++ t :: rest) n.Alike (t :: rest) :=
      h.expression he hd ht
    obtain ⟨parts, printed, -⟩ := n.print_of_isExpression he
    rw [printed] at reads ⊢
    exact .check_else nofun reads

theorem arrow_rereads (admitted : Kind.arrow.admits children = true)
    (ih : ∀ c ∈ children, c.Rereads) : (branch .arrow position children).Rereads := by
  refine rereads_of_body rfl fun depth rest hd => ?_
  match children, admitted with
  | [names, body], admitted =>
    obtain ⟨hnames, hbody⟩ := Bool.and_eq_true_iff.mp admitted
    have layout : Kind.arrow.layout (printEach [names, body]) =
        names.print ++ TokenKind.arrow.mark :: body.print := by simp
    rw [layout, List.length_append, List.length_cons] at hd
    rw [layout, List.append_assoc, List.cons_append]
    have params : readParams.Reads (names.print ++ TokenKind.arrow.mark ::
        (body.print ++ TokenKind.rightParen.mark :: rest)) names.Alike (TokenKind.arrow.mark ::
        (body.print ++ TokenKind.rightParen.mark :: rest)) :=
      (ih names (by simp)).reads hnames rfl (Nat.le_refl _) (mayPrecede_of_isOf hnames rfl nofun)
    obtain ⟨parts, printed, balanced⟩ := print_of_params hnames
    have arrow : checkArrow.Reads (names.print ++ TokenKind.arrow.mark ::
        (body.print ++ TokenKind.rightParen.mark :: rest)) (· = true)
        (names.print ++ TokenKind.arrow.mark :: (body.print ++ TokenKind.rightParen.mark :: rest)) := by
      rw [printed]
      exact checkArrow_reads_parens balanced
    have named : readArrowParams.Reads (names.print ++ TokenKind.arrow.mark ::
        (body.print ++ TokenKind.rightParen.mark :: rest)) names.Alike (TokenKind.arrow.mark ::
        (body.print ++ TokenKind.rightParen.mark :: rest)) := by
      rw [printed] at params ⊢
      exact .check_else nofun params
    refine Reads.bind arrow ?_
    rintro _ rfl
    refine .start_bind fun start => named.bind fun m hm => .expect_bind rfl (by simp) fun _ _ => ?_
    refine (readArrowBody_reads hbody (ih body (by simp)) (by omega) rfl).bind fun k hk => ?_
    exact .pure (alike_make (.cons hm (.cons hk rfl)))

end Node

end Scriptlet
