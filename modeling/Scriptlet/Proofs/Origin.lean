import Scriptlet.Proofs.Reading

/-!
# What nodes are made of

A node takes its position from a token, and its text, where it is a name or a literal. With a
stock of tokens that has, with a template, the tokens of its expressions too, the grammar makes
nodes of tokens in stock and of nothing else. As before this is shown for all rules at once, by
induction on the depth to which they are read, and for each of them by going along it: what is
made starts at a token in stock, and what it is made from is made of such tokens.
-/

namespace Scriptlet

open Reader

/-- The kinds whose branches hold nothing but the token they were read from. -/
def Kind.isAtom : Kind → Bool
  | identifier | literal => true
  | _ => false

/-- A node is **made of** tokens in stock: its position, and that of whatever is in it, is that
of such a token, and where it is a name or a literal so is its text. -/
inductive Node.MadeOf (stock : Token → Prop) : Node → Prop where
  /-- A leaf has the text of its token, -/
  | leaf (label : Label) {t : Token} (ht : stock t) : MadeOf stock (.ofToken label t)
  /-- unless it is a chunk of a template, which is a part of it. -/
  | chunk (text : Text) {t : Token} (ht : stock t) : MadeOf stock (.leaf .chunk text t.position)
  /-- A name or a literal has one leaf, of the token that it starts at. -/
  | atom (kind : Kind) (label : Label) {t : Token} (ht : stock t) :
      MadeOf stock (.make kind [.ofToken label t] t)
  /-- Any other branch starts at a token and is made of some. -/
  | compound {kind : Kind} {children : List Node} {t : Token} (ht : stock t)
      (noAtom : kind.isAtom = false) (below : ∀ n ∈ children, MadeOf stock n) :
      MadeOf stock (.make kind children t)

/-- A node **is a part of** another: it, or a part of one of its children. -/
inductive Node.IsPartOf (n : Node) : Node → Prop where
  | self : IsPartOf n n
  | child {whole m : Node} (mem : m ∈ whole.children) (part : IsPartOf n m) : IsPartOf n whole

/-- Parts of parts are parts. -/
theorem Node.IsPartOf.trans {n m whole : Node} (inner : n.IsPartOf m) (outer : m.IsPartOf whole) :
    n.IsPartOf whole := by
  induction outer with
  | self => exact inner
  | child mem _ ih => exact .child mem ih

/-- What is made of tokens has parts that are. -/
theorem Node.MadeOf.part {stock : Token → Prop} {n m : Node} (h : m.MadeOf stock)
    (part : n.IsPartOf m) : n.MadeOf stock := by
  induction part with
  | self => exact h
  | child mem _ ih =>
    refine ih ?_
    cases h with
    | leaf | chunk => cases mem
    | atom kind label ht =>
      obtain rfl := List.mem_singleton.mp mem
      exact .leaf label ht
    | compound ht _ below => exact below _ mem

/-- Rules that make nodes **of tokens in stock**. -/
def Rules.MakeOf (stock : Token → Prop) (rules : Rules) : Prop :=
  rules.Give stock fun _ => Node.MadeOf stock

section Rules

variable {stock : Token → Prop} (closed : Token.Closed stock) {rules : Rules}
  (hrules : rules.MakeOf stock) {tokens : List Token} {start : Token} (hstart : stock start)

/-! ## Templates -/

include hrules

theorem readTemplateParts_madeOf {t : Token} (ht : stock t) {chunks : List Text}
    {expressions : List (Text × Nat)}
    (keeps : ∀ entry ∈ expressions, Rule.KeepsTo stock
      (.fragment entry.1 (t.line + lineFeedsIn t.text entry.2))) :
    (readTemplateParts rules t chunks expressions).Gives stock tokens fun parts =>
      ∀ n ∈ parts, n.MadeOf stock := by
  induction chunks generalizing expressions tokens with
  | nil => exact .pure nofun
  | cons chunk chunks ih =>
    have here : (Node.make .templateChunk [.leaf .chunk chunk t.position] t).MadeOf stock :=
      .compound ht rfl (by simpa using .chunk chunk ht)
    unfold readTemplateParts
    cases expressions with
    | nil => exact (ih (List.forall_mem_nil _)).bind fun rest _ hrest => .pure (List.forall_mem_cons.mpr ⟨here, hrest⟩)
    | cons entry expressions =>
      obtain ⟨keepsHere, keepsThere⟩ := List.forall_mem_cons.mp keeps
      refine (hrules (.fragment _ _) keepsHere tokens).bind fun e _ he => ?_
      refine (ih keepsThere).bind fun rest _ hrest => .pure ?_
      exact List.forall_mem_cons.mpr ⟨here, List.forall_mem_cons.mpr ⟨he, hrest⟩⟩

include closed in
theorem readTemplate_madeOf {t : Token} (ht : stock t) (template : t.kind = .template) :
    (readTemplate rules t).Gives stock tokens (Node.MadeOf stock) := by
  unfold readTemplate
  split
  · rename_i e _
    exact fun _ => .template e ht template
  · rename_i parts hparts
    exact (readTemplateParts_madeOf hrules ht fun entry hentry =>
      ⟨⟨t, ht, template⟩, closed t ht template parts hparts entry hentry⟩).bind
        fun nodes _ hnodes => .pure (.compound ht rfl hnodes)

/-! ## Functions -/

omit hrules in
theorem readParams_madeOf : readParams.Gives stock tokens (Node.MadeOf stock) := by
  refine Gives.expect.bind fun start rest hstart => .room_bind fun n => ?_
  refine (Gives.commaList (P := Node.MadeOf stock) (fun tokens => ?_) n).bind
    fun names rest hnames => ?_
  · exact Gives.expect.map fun t ht => .leaf .identifier ht.2
  · exact Gives.expect.bind fun _ _ _ => .pure (.compound hstart.2 rfl hnames)

theorem readBlock_madeOf : (readBlock rules).Gives stock tokens (Node.MadeOf stock) := by
  refine Gives.expect.bind fun start rest hstart => .room_bind fun n => ?_
  refine (Gives.manyUntil (fun tokens => ?_) (hrules .statement trivial) n).bind
    fun statements rest hstatements => ?_
  · refine .check_bind ?_
    split
    · exact .unexpected
    · exact .check
  · exact Gives.expect.bind fun _ _ _ => .pure (.compound hstart.2 rfl hstatements)

omit hrules in
theorem readName?_gives : readName?.Gives stock tokens fun name => ∀ t ∈ name, stock t := by
  refine .check_bind ?_
  split
  · exact Gives.advance.map fun t ht u hu => Option.some.inj hu ▸ ht
  · exact .pure nofun

theorem readFunction_madeOf : (readFunction rules).Gives stock tokens (Node.MadeOf stock) := by
  refine .advance_bind fun hstart rest => readName?_gives.bind fun name rest hname => ?_
  refine readParams_madeOf.bind fun params rest hparams => ?_
  refine (readBlock_madeOf hrules).bind fun body rest hbody => .pure (.compound hstart rfl ?_)
  cases name with
  | none => simpa using ⟨hparams, hbody⟩
  | some t => simpa using ⟨hparams, hbody, .leaf .identifier (hname t rfl)⟩

omit hrules in
theorem readArrowParams_madeOf : readArrowParams.Gives stock tokens (Node.MadeOf stock) := by
  refine .check_bind ?_
  split
  · exact .advance_bind fun ht _ => .pure (.compound ht rfl (by simpa using .leaf .identifier ht))
  · exact readParams_madeOf

theorem readArrow_madeOf : (readArrow rules).Gives stock tokens (Node.MadeOf stock) := by
  refine .current_bind fun hstart => readArrowParams_madeOf.bind fun params rest hparams => ?_
  refine Gives.expect.bind fun _ rest _ => ?_
  refine Gives.bind (Q := Node.MadeOf stock) (.check_bind ?_) fun body rest hbody =>
    .pure (.compound hstart rfl (by simpa using ⟨hparams, hbody⟩))
  split
  · exact readBlock_madeOf hrules
  · exact hrules .expression trivial rest

/-! ## Arguments and members -/

theorem readSpreadOrExpression_madeOf :
    (readSpreadOrExpression rules).Gives stock tokens (Node.MadeOf stock) := by
  refine .check_bind ?_
  split
  · refine .advance_bind fun hstart rest => (hrules .expression trivial rest).bind fun e _ he => ?_
    exact .pure (.compound hstart rfl (by simpa using he))
  · exact hrules .expression trivial tokens

theorem readArguments_madeOf : (readArguments rules).Gives stock tokens (Node.MadeOf stock) := by
  refine Gives.expect.bind fun start rest hstart => .room_bind fun n => ?_
  refine (Gives.commaList (fun _ => readSpreadOrExpression_madeOf hrules) n).bind
    fun args rest hargs => ?_
  exact Gives.expect.bind fun _ _ _ => .pure (.compound hstart.2 rfl hargs)

include hstart

omit hrules in
theorem readNamedMember_madeOf {object : Node} (h : object.MadeOf stock) :
    (readNamedMember object start).Gives stock tokens (Node.MadeOf stock) := by
  refine Gives.expect.bind fun _ rest _ => .current_bind fun _ => ?_
  split
  · exact .advance_bind fun ht _ =>
      .pure (.compound hstart rfl (by simpa using ⟨h, .leaf .identifier ht⟩))
  · exact .unexpected

theorem readComputedMember_madeOf {object : Node} (h : object.MadeOf stock) :
    (readComputedMember rules object start).Gives stock tokens (Node.MadeOf stock) := by
  refine Gives.expect.bind fun _ rest _ => ?_
  refine (hrules .expression trivial rest).bind fun key rest hkey => ?_
  exact Gives.expect.bind fun _ _ _ => .pure (.compound hstart rfl (by simpa using ⟨h, hkey⟩))

omit hstart

/-! ## Lists and objects -/

theorem readElements_madeOf (n : Nat) :
    (readElements rules n).Gives stock tokens fun nodes => ∀ n ∈ nodes, n.MadeOf stock := by
  induction n generalizing tokens with
  | zero => exact .tooDeep
  | succ n ih =>
    rw [readElements]
    refine .check_bind ?_
    split
    · exact .pure nofun
    refine .check_bind ?_
    split
    · exact .advance_bind fun hstart _ => ih.bind fun others _ hothers =>
        .pure (List.forall_mem_cons.mpr ⟨.compound hstart rfl nofun, hothers⟩)
    · refine (readSpreadOrExpression_madeOf hrules).bind fun e _ he => ?_
      exact Gives.separator.bind fun _ _ _ => ih.bind fun others _ hothers =>
        .pure (List.forall_mem_cons.mpr ⟨he, hothers⟩)

theorem readArray_madeOf : (readArray rules).Gives stock tokens (Node.MadeOf stock) := by
  refine Gives.expect.bind fun start rest hstart => .room_bind fun n => ?_
  refine (readElements_madeOf hrules n).bind fun elements rest helements => ?_
  exact Gives.expect.bind fun _ _ _ => .pure (.compound hstart.2 rfl helements)

theorem readKey_madeOf : (readKey rules).Gives stock tokens (Node.MadeOf stock) := by
  refine .current_bind fun hstart => .accept_bind fun b rest => ?_
  split
  · refine (hrules .expression trivial rest).bind fun e _ he => Gives.expect.bind fun _ _ _ => ?_
    exact .pure (.compound hstart rfl (by simpa using he))
  split
  · exact .advance_bind fun ht _ => .pure (.leaf .string ht)
  split
  · exact .advance_bind fun ht _ => .pure (.leaf .number ht)
  split
  · exact .advance_bind fun ht _ => .pure (.leaf .identifier ht)
  · exact .unexpected

theorem readProperty_madeOf : (readProperty rules).Gives stock tokens (Node.MadeOf stock) := by
  refine .current_bind fun hstart => (readKey_madeOf hrules).bind fun key rest hkey => ?_
  have property {value : Node} (hvalue : value.MadeOf stock) :
      (Node.make .property [key, value] (head tokens)).MadeOf stock :=
    .compound hstart rfl (by simpa using ⟨hkey, hvalue⟩)
  refine .accept_bind fun b rest => ?_
  split
  · exact (hrules .expression trivial rest).bind fun value _ hvalue => .pure (property hvalue)
  refine .check_bind ?_
  split
  · refine readParams_madeOf.bind fun params rest hparams => ?_
    refine (readBlock_madeOf hrules).bind fun body _ hbody => .pure (property ?_)
    exact .compound hstart rfl (by simpa using ⟨hparams, hbody⟩)
  refine .check_bind (.check_bind ?_)
  split
  · exact .pure (property (.atom .identifier .identifier hstart))
  · exact .unexpected

theorem readProperties_madeOf (n : Nat) :
    (readProperties rules n).Gives stock tokens fun nodes => ∀ n ∈ nodes, n.MadeOf stock := by
  induction n generalizing tokens with
  | zero => exact .tooDeep
  | succ n ih =>
    rw [readProperties]
    refine .check_bind ?_
    split
    · exact .pure nofun
    · refine (readProperty_madeOf hrules).bind fun property _ hproperty => ?_
      exact Gives.separator.bind fun _ _ _ => ih.bind fun others _ hothers =>
        .pure (List.forall_mem_cons.mpr ⟨hproperty, hothers⟩)

theorem readObject_madeOf : (readObject rules).Gives stock tokens (Node.MadeOf stock) := by
  refine Gives.expect.bind fun start rest hstart => .room_bind fun n => ?_
  refine (readProperties_madeOf hrules n).bind fun properties rest hproperties => ?_
  exact Gives.expect.bind fun _ _ _ => .pure (.compound hstart.2 rfl hproperties)

/-! ## Primary expressions, members and calls -/

include closed

theorem readPrimary_madeOf : (readPrimary rules).Gives stock tokens (Node.MadeOf stock) := by
  refine .current_bind fun hstart => ?_
  split
  · rename_i label _
    exact .advance_bind fun _ _ => .pure (.atom .literal label hstart)
  split
  · rename_i template
    exact .advance_bind fun ht _ => readTemplate_madeOf closed hrules ht template
  · exact .advance_bind fun _ _ => .pure (.atom .identifier .identifier hstart)
  · exact .advance_bind fun _ _ => .pure (.compound hstart rfl nofun)
  · refine .advance_bind fun _ rest => (hrules .expression trivial rest).bind fun e _ he => ?_
    exact Gives.expect.bind fun _ _ _ => .pure he
  · exact readArray_madeOf hrules
  · exact readObject_madeOf hrules
  · exact readFunction_madeOf hrules
  · exact .unexpected

omit closed in
include hstart in
theorem readMembers_madeOf {object : Node} (n : Nat) (h : object.MadeOf stock) :
    (readMembers rules start n object).Gives stock tokens (Node.MadeOf stock) := by
  induction n generalizing tokens object with
  | zero => exact .tooDeep
  | succ n ih =>
    rw [readMembers]
    refine .check_bind ?_
    split
    · exact (readNamedMember_madeOf hstart h).bind fun member _ hmember => ih hmember
    refine .check_bind ?_
    split
    · exact (readComputedMember_madeOf hrules hstart h).bind fun member _ hmember => ih hmember
    · exact .pure h

theorem readHead_madeOf {construct : Reader Node}
    (h : construct.Gives stock tokens (Node.MadeOf stock)) :
    (readHead rules construct).Gives stock tokens (Node.MadeOf stock) := by
  refine .check_bind ?_
  split
  · exact h
  · exact readPrimary_madeOf closed hrules

theorem readConstruct_madeOf : (readConstruct rules).Gives stock tokens (Node.MadeOf stock) := by
  refine .advance_bind fun hstart rest => ?_
  refine Gives.bind (Q := Node.MadeOf stock) ?_ fun callee rest hcallee => ?_
  · refine .current_bind fun hfirst => ?_
    exact (readHead_madeOf closed hrules (hrules .construct trivial rest)).bind fun first _ h =>
      .room_bind fun n => readMembers_madeOf hrules hfirst n h
  refine Gives.bind (Q := Node.MadeOf stock) (.check_bind ?_) fun args _ hargs =>
    .pure (.compound hstart rfl (by simpa using ⟨hcallee, hargs⟩))
  split
  · exact readArguments_madeOf hrules
  · exact .pure (.compound hstart rfl nofun)

include hstart in
theorem readCalls_madeOf {callee : Node} (n : Nat) (h : callee.MadeOf stock) :
    (readCalls rules start n callee).Gives stock tokens (Node.MadeOf stock) := by
  induction n generalizing tokens callee with
  | zero => exact .tooDeep
  | succ n ih =>
    rw [readCalls]
    refine .check_bind ?_
    split
    · exact (readNamedMember_madeOf hstart h).bind fun member _ hmember => ih hmember
    refine .check_bind ?_
    split
    · exact (readComputedMember_madeOf hrules hstart h).bind fun member _ hmember => ih hmember
    refine .check_bind ?_
    split
    · exact (readArguments_madeOf hrules).bind fun args _ hargs =>
        ih (.compound hstart rfl (by simpa using ⟨h, hargs⟩))
    refine .check_bind ?_
    split
    · rename_i template
      refine .advance_bind fun ht _ => ?_
      exact (readTemplate_madeOf closed hrules ht (beq_iff_eq.mp template)).bind
        fun quoted _ hquoted => ih (.compound hstart rfl (by simpa using ⟨h, hquoted⟩))
    · exact .pure h

theorem readCallMember_madeOf : (readCallMember rules).Gives stock tokens (Node.MadeOf stock) :=
  .current_bind fun hstart =>
    (readHead_madeOf closed hrules (readConstruct_madeOf closed hrules)).bind fun _ _ h =>
      .room_bind fun n => readCalls_madeOf closed hrules hstart n h

/-! ## Operators -/

theorem readPostfix_madeOf : (readPostfix rules).Gives stock tokens (Node.MadeOf stock) := by
  refine .current_bind fun hstart => ?_
  refine (readCallMember_madeOf closed hrules).bind fun target rest htarget => ?_
  refine .checkStep_bind (.current_bind fun _ => ?_)
  split
  · split
    · exact .advance_bind fun ht _ =>
        .pure (.compound hstart rfl (by simpa using ⟨.leaf .operator ht, htarget⟩))
    · exact .fail hstart
  · exact .pure htarget

theorem readUnary_madeOf : (readUnary rules).Gives stock tokens (Node.MadeOf stock) := by
  refine .current_bind fun hstart => ?_
  have applied {kind : Kind} {operand : Node} (noAtom : kind.isAtom = false)
      (h : operand.MadeOf stock) :
      (Node.make kind [Node.ofToken .operator (head tokens), operand] (head tokens)).MadeOf stock :=
    .compound hstart noAtom (by simpa using ⟨.leaf .operator hstart, h⟩)
  split
  · exact .advance_bind fun _ rest => (hrules .unary trivial rest).bind fun operand _ hoperand =>
      .pure (applied rfl hoperand)
  refine .checkStep_bind ?_
  split
  · refine .advance_bind fun _ rest => (hrules .unary trivial rest).bind fun target _ htarget => ?_
    split
    · exact .pure (applied rfl htarget)
    · exact .fail hstart
  · exact readPostfix_madeOf closed hrules

omit closed in
include hstart in
theorem readOperators_madeOf {least : Nat} {left : Node} (n : Nat) (h : left.MadeOf stock) :
    (readOperators rules least start n left).Gives stock tokens (Node.MadeOf stock) := by
  induction n generalizing tokens left with
  | zero => exact .tooDeep
  | succ n ih =>
    rw [readOperators]
    refine .current_bind fun _ => ?_
    split
    · exact .pure h
    split
    · exact .pure h
    · refine .advance_bind fun ht rest => ?_
      refine (hrules (.binary _) trivial rest).bind fun right _ hright => ih (.compound hstart ?_ ?_)
      · split <;> rfl
      · simpa using ⟨h, .leaf .operator ht, hright⟩

theorem readBinary_madeOf {least : Nat} :
    (readBinary rules least).Gives stock tokens (Node.MadeOf stock) :=
  .current_bind fun hstart => (readUnary_madeOf closed hrules).bind fun _ _ hleft =>
    .room_bind fun n => readOperators_madeOf hrules hstart n hleft

theorem readConditional_madeOf :
    (readConditional rules).Gives stock tokens (Node.MadeOf stock) := by
  refine .current_bind fun hstart => ?_
  refine (readBinary_madeOf closed hrules).bind fun test rest htest => .accept_bind fun b rest => ?_
  split
  · refine (hrules .expression trivial rest).bind fun consequent rest hconsequent => ?_
    refine Gives.expect.bind fun _ rest _ => ?_
    refine (hrules .expression trivial rest).bind fun alternate rest halternate => ?_
    exact .pure (.compound hstart rfl (by simpa using ⟨htest, hconsequent, halternate⟩))
  · exact .pure htest

theorem readExpression_madeOf : (readExpression rules).Gives stock tokens (Node.MadeOf stock) := by
  refine Gives.checkArrow.bind fun isArrow rest _ => ?_
  split
  · exact readArrow_madeOf hrules
  refine .current_bind fun hstart => ?_
  refine (readConditional_madeOf closed hrules).bind fun left rest hleft => .check_bind ?_
  split
  · split
    · refine .advance_bind fun ht rest => ?_
      refine (hrules .expression trivial rest).bind fun value _ hvalue => .pure ?_
      exact .compound hstart rfl (by simpa using ⟨hleft, .leaf .operator ht, hvalue⟩)
    · exact .fail hstart
  · exact .pure hleft

/-! ## Statements -/

omit hrules closed in
theorem readStatementEnd_keeps : readStatementEnd.Gives stock tokens fun _ => True := by
  refine .accept_bind fun b rest => ?_
  split
  · exact .pure trivial
  refine .current_bind fun _ => ?_
  split
  · exact .pure trivial
  · exact .unexpected

omit closed

theorem readDeclaration_madeOf : (readDeclaration rules).Gives stock tokens (Node.MadeOf stock) := by
  refine .advance_bind fun hword rest => .room_bind fun n => ?_
  refine (Gives.commaSeparated (P := Node.MadeOf stock) (fun tokens => ?_) n).bind
    fun declarators rest hdeclarators => readStatementEnd_keeps.bind fun _ _ _ =>
      .pure (.compound hword rfl
        (List.forall_mem_cons.mpr ⟨.leaf .declarationWord hword, hdeclarators.2⟩))
  refine Gives.expect.bind fun name rest hname => .current_bind fun _ => ?_
  split
  · refine .advance_bind fun _ rest => (hrules .expression trivial rest).bind fun value _ hvalue => ?_
    exact .pure (.compound hname.2 rfl (by simpa using ⟨.leaf .identifier hname.2, hvalue⟩))
  · exact .pure (.compound hname.2 rfl (by simpa using .leaf .identifier hname.2))

theorem readFunctionDeclaration_madeOf :
    (readFunctionDeclaration rules).Gives stock tokens (Node.MadeOf stock) := by
  refine .advance_bind fun hstart rest => Gives.expect.bind fun name rest hname => ?_
  refine readParams_madeOf.bind fun params rest hparams => ?_
  refine (readBlock_madeOf hrules).bind fun body rest hbody => .pure (.compound hstart rfl ?_)
  simpa using ⟨.leaf .identifier hname.2, hparams, hbody⟩

theorem readConditionalStatement_madeOf :
    (readConditionalStatement rules).Gives stock tokens (Node.MadeOf stock) := by
  refine .advance_bind fun hstart rest => Gives.expect.bind fun _ rest _ => ?_
  refine (hrules .expression trivial rest).bind fun test rest htest => ?_
  refine Gives.expect.bind fun _ rest _ => ?_
  refine (hrules .statement trivial rest).bind fun consequent rest hconsequent => ?_
  refine .accept_bind fun b rest => ?_
  split
  · refine (hrules .statement trivial rest).bind fun alternate rest halternate => .pure ?_
    exact .compound hstart rfl (by simpa using ⟨htest, hconsequent, halternate⟩)
  · exact .pure (.compound hstart rfl (by simpa using ⟨htest, hconsequent⟩))

theorem readReturn_madeOf : (readReturn rules).Gives stock tokens (Node.MadeOf stock) := by
  refine .advance_bind fun hstart rest => .current_bind fun _ => ?_
  split
  · exact readStatementEnd_keeps.bind fun _ _ _ => .pure (.compound hstart rfl nofun)
  · refine (hrules .expression trivial rest).bind fun value _ hvalue => ?_
    exact readStatementEnd_keeps.bind fun _ _ _ =>
      .pure (.compound hstart rfl (by simpa using hvalue))

include closed

theorem readStatement_madeOf : (readStatement rules).Gives stock tokens (Node.MadeOf stock) := by
  refine .current_bind fun hstart => ?_
  split
  · exact readBlock_madeOf hrules
  · exact .advance_bind fun _ _ => .pure (.compound hstart rfl nofun)
  · exact readDeclaration_madeOf hrules
  · exact readDeclaration_madeOf hrules
  · exact readDeclaration_madeOf hrules
  · exact readFunctionDeclaration_madeOf hrules
  · exact readConditionalStatement_madeOf hrules
  · exact readReturn_madeOf hrules
  · refine (readExpression_madeOf closed hrules).bind fun e _ he => ?_
    exact readStatementEnd_keeps.bind fun _ _ _ =>
      .pure (.compound hstart rfl (by simpa using he))

omit closed in
theorem readProgram_madeOf : (readProgram rules).Gives stock tokens (Node.MadeOf stock) := by
  refine .current_bind fun hstart => .room_bind fun n => ?_
  exact (Gives.manyUntil (fun _ => .check) (hrules .statement trivial) n).bind
    fun statements _ hstatements => .pure (.compound hstart rfl hstatements)

end Rules

/-- **Rules read to any depth make nodes of tokens in stock.** -/
theorem readRule_madeOf {stock : Token → Prop} (closed : Token.Closed stock) (depth : Nat) :
    (readRule depth).MakeOf stock := by
  induction depth with
  | zero => exact fun _ _ _ => .tooDeep
  | succ depth ih =>
    intro rule keeps tokens
    cases rule with
    | statement => exact readStatement_madeOf closed ih
    | expression => exact readExpression_madeOf closed ih
    | binary least => exact readBinary_madeOf closed ih
    | unary => exact readUnary_madeOf closed ih
    | construct => exact readConstruct_madeOf closed ih
    | fragment source line => exact .fragment (fun _ => readExpression_madeOf closed ih) keeps

/-- **What is read from a text** is made of its tokens and of those of the expressions in its
templates; and if it can be cut into tokens and is yet no program, the error is at one of them. -/
theorem parseProgram_madeOf {stock : Token → Prop} {source : Text} (closed : Token.Closed stock)
    (yields : Token.Yields stock source 1) :
    match parseProgram source with
    | .ok program => program.MadeOf stock
    | .error e => (∃ cause, tokenize source 1 = .error cause ∧ e = .lex cause) ∨ e.IsAt stock :=
  parseProgram_gives (fun depth _ => readProgram_madeOf (readRule_madeOf closed depth)) yields

end Scriptlet
