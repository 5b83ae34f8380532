import Scriptlet.Proofs.Reading

/-!
# Programs conform

The reader of programs makes no tree but such as the table of shapes has. Each rule of
the grammar gives nodes of the sort that it is named for, whose children the table
admits, and since the rules refer to each other in circles this is shown for all of
them at once, by induction on the depth to which rules are read.
-/

namespace Scriptlet

open Reader

/-- The sort of node that a rule is **named for**. -/
def Rule.sort : Rule → Node → Bool
  | statement => Node.isStatement
  | _ => Node.isExpression

/-- Rules are **proper** if each gives proper nodes of the sort that it is named for, from tokens
that are spelled as their kinds ask. -/
def Rules.Proper (rules : Rules) : Prop :=
  rules.Give Token.IsSpelled fun rule => Node.Proper rule.sort

/-- A branch that is made is proper if the table admits its children. -/
theorem Node.proper_make {sort : Node → Bool} {kind : Kind} {children : List Node}
    {start : Token} (admitted : kind.admits children = true)
    (below : ∀ n ∈ children, n.Conforms) (sorted : sort (Node.make kind children start) = true) :
    (Node.make kind children start).Proper sort :=
  ⟨.branch kind _ children admitted below, sorted⟩

/-- A property with a key and a value. -/
theorem Node.proper_property {key value : Node} {start : Token} (hkey : key.Proper Node.isKey)
    (hvalue : value.Proper Node.isExpression) :
    (Node.make .property [key, value] start).Proper (·.isOf .property) :=
  Node.proper_make (by simp [Kind.admits, hkey.sorted, hvalue.sorted])
    (by simpa using ⟨hkey.conforms, hvalue.conforms⟩) rfl

/-- A leaf that is no regular expression conforms, whatever its text. -/
theorem Node.conforms_ofToken (label : Label) (t : Token) (h : label ≠ .regexp) :
    (Node.ofToken label t).Conforms :=
  .leaf label _ _ fun same => absurd same h

@[simp] theorem Node.isLeafOf_ofToken (label : Label) (t : Token) :
    (Node.ofToken label t).isLeafOf label = true := by
  simp [ofToken, isLeafOf]

theorem Node.isLeafAmong_ofToken {label : Label} {t : Token} {texts : List Text}
    (h : texts.contains t.text = true) : (Node.ofToken label t).isLeafAmong label texts = true := by
  simpa [Node.isLeafAmong, Node.isLeafOf, Node.ofToken, Node.asText] using h

/-! ## Spellings -/

/-- A token of some kinds of the vocabulary has one of the texts that go with them. -/
theorem Token.IsSpelled.contains {t : Token} (h : t.IsSpelled) (kinds : List TokenKind)
    {texts : List Text} (hk : t.kind ∈ kinds)
    (known : ∀ kind ∈ kinds, kind ∈ fixedTokens.map Prod.snd)
    (spelled : ∀ e ∈ fixedTokens, e.2 ∈ kinds → texts.contains e.1 = true) :
    texts.contains t.text = true :=
  spelled _ (h.fixed (known _ hk)) hk

theorem Token.IsSpelled.stepSign {t : Token} (h : t.IsSpelled)
    (hk : (t.kind == .increment || t.kind == .decrement) = true) :
    stepSigns.contains t.text = true :=
  h.contains [.increment, .decrement] (by simpa using hk) (by decide) (by decide)

theorem Token.IsSpelled.assignmentSign {t : Token} (h : t.IsSpelled)
    (hk : (t.kind == .assign) = true) : assignmentSigns.contains t.text = true :=
  h.contains [.assign] (by simpa using hk) (by decide) (by decide)

theorem Token.IsSpelled.declarationWord {t : Token} (h : t.IsSpelled)
    (hk : t.kind ∈ [TokenKind.varWord, .letWord, .constWord]) :
    declarationWords.contains t.text = true :=
  h.contains [.varWord, .letWord, .constWord] hk (by decide) (by decide)

/-- An operator that stands before its operand is a sign or a word. -/
theorem Token.IsSpelled.prefixOperator {t : Token} (h : t.IsSpelled)
    (hp : isPrefixOperator t = true) : prefixOperators.contains t.text = true := by
  have word (hk : t.kind ∈ [TokenKind.typeofWord, .voidWord, .deleteWord]) :
      prefixOperators.contains t.text = true :=
    h.contains [.typeofWord, .voidWord, .deleteWord] hk (by decide) (by decide)
  unfold isPrefixOperator at hp
  split at hp
  · exact List.contains_iff_mem.mpr
      (List.mem_append_left _ (List.contains_iff_mem.mp hp))
  · rename_i hk
    exact word (by simp [hk])
  · rename_i hk
    exact word (by simp [hk])
  · rename_i hk
    exact word (by simp [hk])
  · cases hp

/-- What has a precedence is an operator that stands between operands. -/
theorem mem_precedences {t : Token} {n : Nat} (h : precedence? t = some n) :
    t.text ∈ precedences.map Prod.fst := by
  have looked : precedences.lookup t.text = some n := by
    unfold precedence? at h
    split at h <;> first | exact h | cases h
  obtain ⟨before, after, same, -⟩ := List.lookup_eq_some_iff.mp looked
  rw [same]
  simp

/-- A token that is a literal by itself gives a literal's leaf. -/
theorem Token.isLiteral_ofToken {t : Token} {label : Label}
    (hl : literalLabel? t.kind = some label) : (Node.ofToken label t).isLiteral = true := by
  unfold literalLabel? at hl
  split at hl <;> cases hl <;> rfl

/-- And the leaf has a slash if it is a regular expression. -/
theorem Token.IsSpelled.conforms {t : Token} {label : Label} (h : t.IsSpelled)
    (hl : literalLabel? t.kind = some label) : (Node.ofToken label t).Conforms := by
  refine .leaf label _ _ fun same => h.slash ?_
  unfold literalLabel? at hl
  split at hl <;> cases hl <;> first | assumption | cases same

/-! ## Templates -/

/-- A template has one more chunk than expressions. -/
theorem length_chunks {offset hidden : Nat} {chunk body : Text} {parts : TemplateParts}
    (h : splitTemplateFrom offset chunk hidden body = .ok parts) :
    parts.chunks.length = parts.expressions.length + 1 := by
  fun_induction splitTemplateFrom offset chunk hidden body generalizing parts with
  | case1 => cases h; rfl
  | case2 _ _ _ _ _ ih => exact ih h
  | case3 => cases h; rfl
  | case4 _ _ _ _ _ _ ih => exact ih h
  | case5 => cases h
  | case6 => cases h
  | case7 _ _ _ _ _ _ _ _ parts hparts ih =>
    cases h
    simp [ih hparts]
  | case8 _ _ _ _ _ _ ih => exact ih h

/-- What is spelled as its kind asks is so in the expressions of a template, too. -/
theorem isSpelled_closed : Token.Closed Token.IsSpelled :=
  fun _ _ _ _ _ _ _ _ => tokenize_spelled

section Rules

variable {rules : Rules} (hrules : rules.Proper) {tokens : List Token}
include hrules

theorem readTemplateParts_gives {t : Token} {chunks : List Text} {expressions : List (Text × Nat)}
    (h : chunks.length = expressions.length + 1)
    (keeps : ∀ entry ∈ expressions, Rule.KeepsTo Token.IsSpelled
      (.fragment entry.1 (t.line + lineFeedsIn t.text entry.2))) :
    (readTemplateParts rules t chunks expressions).Gives Token.IsSpelled tokens fun parts =>
      alternates parts = true ∧ ∀ n ∈ parts, n.Conforms := by
  induction chunks generalizing expressions tokens with
  | nil => cases h
  | cons chunk chunks ih =>
    have proper : (Node.make .templateChunk [.leaf .chunk chunk t.position] t).Proper
        (·.isOf .templateChunk) :=
      Node.proper_make rfl (by simpa using Node.Conforms.leaf .chunk _ _ nofun) rfl
    unfold readTemplateParts
    cases expressions with
    | nil =>
      obtain rfl : chunks = [] := List.length_eq_zero_iff.mp (by simpa using h)
      exact Gives.bind (Q := fun rest => rest = []) (.pure rfl) fun rest _ hrest => .pure
        ⟨by rw [hrest]; rfl, by simpa [hrest] using proper.conforms⟩
    | cons entry expressions =>
      obtain ⟨source, offset⟩ := entry
      obtain ⟨keepsHere, keepsThere⟩ := List.forall_mem_cons.mp keeps
      refine (hrules (.fragment source _) keepsHere tokens).bind fun e _ he => ?_
      refine (ih (by simpa using h) keepsThere).bind fun rest _ ⟨halternates, hrest⟩ => .pure ⟨?_, ?_⟩
      · simp only [alternates, Bool.and_eq_true]
        exact ⟨⟨proper.sorted, he.sorted⟩, halternates⟩
      · exact List.forall_mem_cons.mpr ⟨proper.conforms,
          List.forall_mem_cons.mpr ⟨he.conforms, hrest⟩⟩

theorem readTemplate_gives {t : Token} (ht : t.IsSpelled) (template : t.kind = .template) :
    (readTemplate rules t).Gives Token.IsSpelled tokens (Node.Proper (·.isOf .template)) := by
  unfold readTemplate
  split
  · rename_i e _
    exact fun _ => .template e ht template
  · rename_i parts hparts
    exact (readTemplateParts_gives hrules (length_chunks hparts) fun entry hentry =>
      ⟨⟨t, ht, template⟩, isSpelled_closed t ht template parts hparts entry hentry⟩).bind
        fun nodes _ hnodes => .pure (Node.proper_make hnodes.1 hnodes.2 rfl)

/-! ## Functions -/

omit hrules in
theorem readParams_gives : readParams.Gives Token.IsSpelled tokens (Node.Proper (·.isOf .params)) := by
  refine Gives.expect.bind fun start rest _ => .room_bind fun n => ?_
  refine (Gives.commaList (P := Node.Proper (·.isLeafOf .identifier)) (fun tokens => ?_) n).bind
    fun names rest hnames => ?_
  · exact Gives.expect.map fun t _ => ⟨Node.conforms_ofToken .identifier t nofun, rfl⟩
  · refine Gives.expect.bind fun _ _ _ => .pure (Node.proper_make ?_ (fun n hn =>
      (hnames n hn).conforms) rfl)
    simpa [Kind.admits] using fun n hn => (hnames n hn).sorted

theorem readBlock_gives : (readBlock rules).Gives Token.IsSpelled tokens (Node.Proper (·.isOf .block)) := by
  refine Gives.expect.bind fun start rest _ => .room_bind fun n => ?_
  refine (Gives.manyUntil (fun tokens => ?_) (hrules .statement trivial) n).bind
    fun statements rest hstatements => ?_
  · refine .check_bind ?_
    split
    · exact .unexpected
    · exact .check
  · refine Gives.expect.bind fun _ _ _ => .pure (Node.proper_make ?_ (fun n hn =>
      (hstatements n hn).conforms) rfl)
    simpa [Kind.admits, Rule.sort] using fun n hn => (hstatements n hn).sorted

theorem readFunction_gives :
    (readFunction rules).Gives Token.IsSpelled tokens (Node.Proper Node.isExpression) := by
  refine .advance_bind fun _ rest => ?_
  refine Gives.bind (Q := fun _ => True) ?_ fun name rest _ => ?_
  · refine .check_bind ?_
    split
    · rw [← bind_pure advance]
      exact Gives.map (Q := fun _ => True) (.advance_bind fun _ _ => .pure trivial)
        fun _ _ => trivial
    · exact .pure trivial
  refine readParams_gives.bind fun params rest hparams => ?_
  refine (readBlock_gives hrules).bind fun body rest hbody => .pure ?_
  have conform : ∀ n ∈ [params, body], n.Conforms := by
    simpa using ⟨hparams.conforms, hbody.conforms⟩
  cases name with
  | none =>
    exact Node.proper_make (by simp [Kind.admits, hparams.sorted, hbody.sorted]) conform rfl
  | some t =>
    refine Node.proper_make (by
      simp [Kind.admits, hparams.sorted, hbody.sorted]) ?_ rfl
    intro n hn
    rcases List.mem_append.mp hn with hn | hn
    · exact conform n hn
    · obtain rfl := List.mem_singleton.mp hn
      exact Node.conforms_ofToken .identifier t nofun

omit hrules in
theorem readArrowParams_gives :
    readArrowParams.Gives Token.IsSpelled tokens (Node.Proper (·.isOf .params)) := by
  refine .check_bind ?_
  split
  · exact .advance_bind fun _ _ => .pure (Node.proper_make rfl
      (by simpa using Node.conforms_ofToken .identifier _ nofun) rfl)
  · exact readParams_gives

theorem readArrowBody_gives : (readArrowBody rules).Gives Token.IsSpelled tokens (Node.Proper Node.isBody) := by
  refine .check_bind ?_
  split
  · exact (readBlock_gives hrules).mono fun n hn => ⟨hn.conforms, by simp [Node.isBody, hn.sorted]⟩
  · exact (hrules .expression trivial tokens).mono fun n hn =>
      ⟨hn.conforms, Bool.or_eq_true_iff.mpr (.inr hn.sorted)⟩

theorem readArrow_gives : (readArrow rules).Gives Token.IsSpelled tokens (Node.Proper Node.isExpression) := by
  refine .current_bind fun _ => readArrowParams_gives.bind fun params rest hparams => ?_
  refine Gives.expect.bind fun _ rest _ => ?_
  refine (readArrowBody_gives hrules).bind fun body rest hbody => .pure ?_
  exact Node.proper_make (by simp [Kind.admits, hparams.sorted, hbody.sorted])
    (by simpa using ⟨hparams.conforms, hbody.conforms⟩) rfl

/-! ## Arguments and members -/

theorem readSpreadOrExpression_gives :
    (readSpreadOrExpression rules).Gives Token.IsSpelled tokens (Node.Proper Node.isArgument) := by
  refine .check_bind ?_
  split
  · refine .advance_bind fun _ rest => (hrules .expression trivial rest).bind fun e _ he => .pure ?_
    exact Node.proper_make he.sorted (by simpa using he.conforms) rfl
  · exact (hrules .expression trivial tokens).mono fun n hn =>
      ⟨hn.conforms, Bool.or_eq_true_iff.mpr (.inl hn.sorted)⟩

theorem readArguments_gives :
    (readArguments rules).Gives Token.IsSpelled tokens (Node.Proper (·.isOf .arguments)) := by
  refine Gives.expect.bind fun start rest _ => .room_bind fun n => ?_
  refine (Gives.commaList (fun _ => readSpreadOrExpression_gives hrules) n).bind
    fun args rest hargs => ?_
  refine Gives.expect.bind fun _ _ _ => .pure (Node.proper_make ?_ (fun n hn =>
    (hargs n hn).conforms) rfl)
  simpa [Kind.admits] using fun n hn => (hargs n hn).sorted

omit hrules in
theorem readNamedMember_gives {object : Node} {start : Token}
    (h : object.Proper Node.isExpression) :
    (readNamedMember object start).Gives Token.IsSpelled tokens (Node.Proper Node.isExpression) := by
  refine Gives.expect.bind fun _ rest _ => .current_bind fun _ => ?_
  split
  · refine .advance_bind fun _ _ => .pure (Node.proper_make ?_ ?_ rfl)
    · simp [Kind.admits, h.sorted]
    · simpa using ⟨h.conforms, Node.conforms_ofToken .identifier _ nofun⟩
  · exact .unexpected

theorem readComputedMember_gives {object : Node} {start : Token}
    (h : object.Proper Node.isExpression) :
    (readComputedMember rules object start).Gives Token.IsSpelled tokens (Node.Proper Node.isExpression) := by
  refine Gives.expect.bind fun _ rest _ => (hrules .expression trivial rest).bind fun key rest hkey => ?_
  refine Gives.expect.bind fun _ _ _ => .pure (Node.proper_make ?_ ?_ rfl)
  · have isKey : key.isExpression = true := hkey.sorted
    simp [Kind.admits, h.sorted, isKey]
  · simpa using ⟨h.conforms, hkey.conforms⟩

/-! ## Lists and objects -/

theorem readElements_gives (n : Nat) :
    (readElements rules n).Gives Token.IsSpelled tokens fun nodes => ∀ n ∈ nodes, n.Proper Node.isElement := by
  induction n generalizing tokens with
  | zero => exact .tooDeep
  | succ n ih =>
    rw [readElements]
    refine .check_bind ?_
    split
    · exact .pure (by simp)
    refine .check_bind ?_
    split
    · exact .advance_bind fun _ _ => ih.bind fun others _ hothers =>
        .pure (List.forall_mem_cons.mpr ⟨Node.proper_make rfl (by simp) rfl, hothers⟩)
    · refine (readSpreadOrExpression_gives hrules).bind fun e _ he => ?_
      refine Gives.separator.bind fun _ _ _ => ih.bind fun others _ hothers => .pure ?_
      exact List.forall_mem_cons.mpr
        ⟨⟨he.conforms, Bool.or_eq_true_iff.mpr (.inl he.sorted)⟩, hothers⟩

theorem readArray_gives : (readArray rules).Gives Token.IsSpelled tokens (Node.Proper Node.isExpression) := by
  refine Gives.expect.bind fun start rest _ => .room_bind fun n => ?_
  refine (readElements_gives hrules n).bind fun elements rest helements => ?_
  refine Gives.expect.bind fun _ _ _ => .pure (Node.proper_make ?_ (fun n hn =>
    (helements n hn).conforms) rfl)
  simpa [Kind.admits] using fun n hn => (helements n hn).sorted

theorem readKey_gives : (readKey rules).Gives Token.IsSpelled tokens (Node.Proper Node.isKey) := by
  refine .current_bind fun _ => .accept_bind fun b rest => ?_
  split
  · refine (hrules .expression trivial rest).bind fun e _ he => Gives.expect.bind fun _ _ _ => .pure ?_
    exact Node.proper_make he.sorted (by simpa using he.conforms) rfl
  split
  · exact .advance_bind fun _ _ => .pure ⟨Node.conforms_ofToken .string _ nofun, rfl⟩
  split
  · exact .advance_bind fun _ _ => .pure ⟨Node.conforms_ofToken .number _ nofun, rfl⟩
  split
  · exact .advance_bind fun _ _ => .pure ⟨Node.conforms_ofToken .identifier _ nofun, rfl⟩
  · exact .unexpected

theorem readProperty_gives :
    (readProperty rules).Gives Token.IsSpelled tokens (Node.Proper (·.isOf .property)) := by
  refine .current_bind fun _ => (readKey_gives hrules).bind fun key rest hkey => ?_
  refine .accept_bind fun b rest => ?_
  split
  · exact (hrules .expression trivial rest).bind fun value _ hvalue =>
      .pure (Node.proper_property hkey hvalue)
  refine .check_bind ?_
  split
  · refine readParams_gives.bind fun params rest hparams => ?_
    refine (readBlock_gives hrules).bind fun body _ hbody => .pure ?_
    refine Node.proper_property hkey (Node.proper_make ?_ ?_ rfl)
    · simp [Kind.admits, hparams.sorted, hbody.sorted]
    · simpa using ⟨hparams.conforms, hbody.conforms⟩
  refine .check_bind (.check_bind ?_)
  split
  · refine .pure (Node.proper_property hkey (Node.proper_make ?_ ?_ rfl))
    · simp [Kind.admits]
    · simpa using Node.conforms_ofToken .identifier _ nofun
  · exact .unexpected

theorem readProperties_gives (n : Nat) :
    (readProperties rules n).Gives Token.IsSpelled tokens fun nodes =>
      ∀ n ∈ nodes, n.Proper (·.isOf .property) := by
  induction n generalizing tokens with
  | zero => exact .tooDeep
  | succ n ih =>
    rw [readProperties]
    refine .check_bind ?_
    split
    · exact .pure (by simp)
    · refine (readProperty_gives hrules).bind fun property _ hproperty => ?_
      exact Gives.separator.bind fun _ _ _ => ih.bind fun others _ hothers =>
        .pure (List.forall_mem_cons.mpr ⟨hproperty, hothers⟩)

theorem readObject_gives : (readObject rules).Gives Token.IsSpelled tokens (Node.Proper Node.isExpression) := by
  refine Gives.expect.bind fun start rest _ => .room_bind fun n => ?_
  refine (readProperties_gives hrules n).bind fun properties rest hproperties => ?_
  refine Gives.expect.bind fun _ _ _ => .pure (Node.proper_make ?_ (fun n hn =>
    (hproperties n hn).conforms) rfl)
  simpa [Kind.admits] using fun n hn => (hproperties n hn).sorted

/-! ## Primary expressions, members and calls -/

theorem readPrimary_gives : (readPrimary rules).Gives Token.IsSpelled tokens (Node.Proper Node.isExpression) := by
  refine .current_bind fun spelled => ?_
  split
  · rename_i label hlabel
    refine .advance_bind fun _ _ => .pure (Node.proper_make ?_ ?_ rfl)
    · exact Token.isLiteral_ofToken hlabel
    · simpa using spelled.conforms hlabel
  split
  · rename_i template
    exact .advance_bind fun ht _ => (readTemplate_gives hrules ht template).mono fun n hn => by
      obtain ⟨position, children, rfl⟩ := Node.isOf_iff.mp hn.sorted
      exact ⟨hn.conforms, rfl⟩
  · refine .advance_bind fun _ _ => .pure (Node.proper_make ?_ ?_ rfl)
    · simp [Kind.admits]
    · simpa using Node.conforms_ofToken .identifier _ nofun
  · exact .advance_bind fun _ _ => .pure (Node.proper_make rfl (by simp) rfl)
  · refine .advance_bind fun _ rest => (hrules .expression trivial rest).bind fun e _ he => ?_
    exact Gives.expect.bind fun _ _ _ => .pure he
  · exact readArray_gives hrules
  · exact readObject_gives hrules
  · exact readFunction_gives hrules
  · exact .unexpected

theorem readMembers_gives {start : Token} {object : Node} (n : Nat)
    (h : object.Proper Node.isExpression) :
    (readMembers rules start n object).Gives Token.IsSpelled tokens (Node.Proper Node.isExpression) := by
  induction n generalizing tokens object with
  | zero => exact .tooDeep
  | succ n ih =>
    rw [readMembers]
    refine .check_bind ?_
    split
    · exact (readNamedMember_gives h).bind fun member _ hmember => ih hmember
    refine .check_bind ?_
    split
    · exact (readComputedMember_gives hrules h).bind fun member _ hmember => ih hmember
    · exact .pure h

theorem readHead_gives {construct : Reader Node}
    (h : construct.Gives Token.IsSpelled tokens (Node.Proper Node.isExpression)) :
    (readHead rules construct).Gives Token.IsSpelled tokens (Node.Proper Node.isExpression) := by
  refine .check_bind ?_
  split
  · exact h
  · exact readPrimary_gives hrules

theorem readConstruct_gives :
    (readConstruct rules).Gives Token.IsSpelled tokens (Node.Proper Node.isExpression) := by
  refine .advance_bind fun _ rest => ?_
  refine Gives.bind (Q := Node.Proper Node.isExpression) ?_ fun callee rest hcallee => ?_
  · refine .current_bind fun _ => ?_
    exact (readHead_gives hrules (hrules .construct trivial rest)).bind fun first _ hfirst =>
      .room_bind fun n => readMembers_gives hrules n hfirst
  refine Gives.bind (Q := Node.Proper (·.isOf .arguments)) ?_ fun args _ hargs => .pure ?_
  · refine .check_bind ?_
    split
    · exact readArguments_gives hrules
    · exact .pure (Node.proper_make rfl (by simp) rfl)
  · exact Node.proper_make (by simp [Kind.admits, hcallee.sorted, hargs.sorted])
      (by simpa using ⟨hcallee.conforms, hargs.conforms⟩) rfl

theorem readCalls_gives {start : Token} {callee : Node} (n : Nat)
    (h : callee.Proper Node.isExpression) :
    (readCalls rules start n callee).Gives Token.IsSpelled tokens (Node.Proper Node.isExpression) := by
  induction n generalizing tokens callee with
  | zero => exact .tooDeep
  | succ n ih =>
    rw [readCalls]
    refine .check_bind ?_
    split
    · exact (readNamedMember_gives h).bind fun member _ hmember => ih hmember
    refine .check_bind ?_
    split
    · exact (readComputedMember_gives hrules h).bind fun member _ hmember => ih hmember
    refine .check_bind ?_
    split
    · refine (readArguments_gives hrules).bind fun args _ hargs => ih (Node.proper_make ?_ ?_ rfl)
      · simp [Kind.admits, h.sorted, hargs.sorted]
      · simpa using ⟨h.conforms, hargs.conforms⟩
    refine .check_bind ?_
    split
    · rename_i template
      refine .advance_bind fun ht _ => ?_
      refine (readTemplate_gives hrules ht (beq_iff_eq.mp template)).bind fun quoted _ hquoted =>
        ih (Node.proper_make ?_ ?_ rfl)
      · simp [Kind.admits, h.sorted, hquoted.sorted]
      · simpa using ⟨h.conforms, hquoted.conforms⟩
    · exact .pure h

theorem readCallMember_gives :
    (readCallMember rules).Gives Token.IsSpelled tokens (Node.Proper Node.isExpression) :=
  .current_bind fun _ =>
    (readHead_gives hrules (readConstruct_gives hrules)).bind fun _ _ hfirst =>
      .room_bind fun n => readCalls_gives hrules n hfirst

/-! ## Operators -/

omit hrules in
/-- A step by one of what may be assigned to. -/
theorem update_proper {t start : Token} {target : Node} (spelled : t.IsSpelled)
    (hk : (t.kind == .increment || t.kind == .decrement) = true) (h : target.Conforms)
    (htarget : target.isTarget = true) :
    (Node.make .update [Node.ofToken .operator t, target] start).Proper Node.isExpression := by
  refine Node.proper_make ?_ (by simpa using ⟨Node.conforms_ofToken .operator _ nofun, h⟩) rfl
  exact Bool.and_eq_true_iff.mpr ⟨Node.isLeafAmong_ofToken (spelled.stepSign hk), htarget⟩

theorem readPostfix_gives : (readPostfix rules).Gives Token.IsSpelled tokens (Node.Proper Node.isExpression) := by
  refine .current_bind fun ht => (readCallMember_gives hrules).bind fun target rest htarget => ?_
  refine .checkStep_bind (.current_bind fun _ => ?_)
  split
  · rename_i step
    split
    · rename_i isTarget
      exact .advance_bind fun spelled _ => .pure
        (update_proper spelled (Bool.and_eq_true_iff.mp step).1 htarget.conforms isTarget)
    · exact .fail ht
  · exact .pure htarget

theorem readUnary_gives : (readUnary rules).Gives Token.IsSpelled tokens (Node.Proper Node.isExpression) := by
  refine .current_bind fun spelled => ?_
  split
  · rename_i isPrefix
    refine .advance_bind fun _ rest => (hrules .unary trivial rest).bind fun operand _ hoperand => ?_
    refine .pure (Node.proper_make ?_ ?_ rfl)
    · exact Bool.and_eq_true_iff.mpr
        ⟨Node.isLeafAmong_ofToken (spelled.prefixOperator isPrefix), hoperand.sorted⟩
    · simpa using ⟨Node.conforms_ofToken .operator _ nofun, hoperand.conforms⟩
  refine .checkStep_bind ?_
  split
  · rename_i step
    refine .advance_bind fun _ rest => (hrules .unary trivial rest).bind fun target _ htarget => ?_
    split
    · rename_i isTarget
      exact .pure (update_proper spelled step htarget.conforms isTarget)
    · exact .fail spelled
  · exact readPostfix_gives hrules

omit hrules in
/-- An operator between two operands, logical or not. -/
theorem operation_proper {left right : Node} {t start : Token} {n : Nat}
    (hleft : left.Proper Node.isExpression) (hright : right.Proper Node.isExpression)
    (ht : precedence? t = some n) :
    (Node.make (if logicalOperators.contains t.text then .logical else .binary)
      [left, Node.ofToken .operator t, right] start).Proper Node.isExpression := by
  have below : ∀ n ∈ [left, Node.ofToken .operator t, right], n.Conforms := by
    simpa using ⟨hleft.conforms, Node.conforms_ofToken .operator _ nofun, hright.conforms⟩
  split
  · rename_i logical
    refine Node.proper_make ?_ below rfl
    simp [Kind.admits, hleft.sorted, hright.sorted, Node.isLeafAmong_ofToken logical]
  · rename_i strict
    have operator : strictOperators.contains t.text = true := by
      simpa [strictOperators, mem_precedences ht] using strict
    refine Node.proper_make ?_ below rfl
    simp [Kind.admits, hleft.sorted, hright.sorted, Node.isLeafAmong_ofToken operator]

theorem readOperators_gives {least : Nat} {start : Token} {left : Node} (n : Nat)
    (h : left.Proper Node.isExpression) :
    (readOperators rules least start n left).Gives Token.IsSpelled tokens (Node.Proper Node.isExpression) := by
  induction n generalizing tokens left with
  | zero => exact .tooDeep
  | succ n ih =>
    rw [readOperators]
    refine .current_bind fun _ => ?_
    split
    · exact .pure h
    · rename_i precedence ht
      split
      · exact .pure h
      · refine .advance_bind fun _ rest => ?_
        exact (hrules (.binary _) trivial rest).bind fun right _ hright =>
          ih (operation_proper h hright ht)

theorem readBinary_gives {least : Nat} :
    (readBinary rules least).Gives Token.IsSpelled tokens (Node.Proper Node.isExpression) :=
  .current_bind fun _ => (readUnary_gives hrules).bind fun _ _ hleft =>
    .room_bind fun n => readOperators_gives hrules n hleft

theorem readConditional_gives :
    (readConditional rules).Gives Token.IsSpelled tokens (Node.Proper Node.isExpression) := by
  refine .current_bind fun _ => (readBinary_gives hrules).bind fun test rest htest => ?_
  refine .accept_bind fun b rest => ?_
  split
  · refine (hrules .expression trivial rest).bind fun consequent rest hconsequent => ?_
    refine Gives.expect.bind fun _ rest _ => ?_
    refine (hrules .expression trivial rest).bind fun alternate rest halternate => .pure ?_
    refine Node.proper_make ?_ ?_ rfl
    · exact Bool.and_eq_true_iff.mpr ⟨Bool.and_eq_true_iff.mpr
        ⟨htest.sorted, hconsequent.sorted⟩, halternate.sorted⟩
    · simpa using ⟨htest.conforms, hconsequent.conforms, halternate.conforms⟩
  · exact .pure htest

/-- **Expressions are proper.** -/
theorem readExpression_gives :
    (readExpression rules).Gives Token.IsSpelled tokens (Node.Proper Node.isExpression) := by
  refine Gives.checkArrow.bind fun isArrow rest _ => ?_
  split
  · exact readArrow_gives hrules
  refine .current_bind fun ht => (readConditional_gives hrules).bind fun left rest hleft => ?_
  refine .check_bind ?_
  split
  · rename_i assigns
    split
    · rename_i isTarget
      refine .advance_bind fun spelled rest => ?_
      refine (hrules .expression trivial rest).bind fun value _ hvalue => .pure (Node.proper_make ?_ ?_ rfl)
      · exact Bool.and_eq_true_iff.mpr ⟨Bool.and_eq_true_iff.mpr
          ⟨isTarget, Node.isLeafAmong_ofToken (spelled.assignmentSign assigns)⟩, hvalue.sorted⟩
      · simpa using ⟨hleft.conforms, Node.conforms_ofToken .operator _ nofun, hvalue.conforms⟩
    · exact .fail ht
  · exact .pure hleft

/-! ## Statements -/

omit hrules in
theorem readStatementEnd_gives : readStatementEnd.Gives Token.IsSpelled tokens fun _ => True := by
  refine .accept_bind fun b rest => ?_
  split
  · exact .pure trivial
  refine .current_bind fun _ => ?_
  split
  · exact .pure trivial
  · exact .unexpected

theorem readDeclarator_gives :
    (readDeclarator rules).Gives Token.IsSpelled tokens (Node.Proper (·.isOf .declarator)) := by
  refine Gives.expect.bind fun name rest _ => .current_bind fun _ => ?_
  split
  · refine .advance_bind fun _ rest => (hrules .expression trivial rest).bind fun value _ hvalue => ?_
    refine .pure (Node.proper_make ?_ ?_ rfl)
    · exact Bool.and_eq_true_iff.mpr ⟨rfl, hvalue.sorted⟩
    · simpa using ⟨Node.conforms_ofToken .identifier _ nofun, hvalue.conforms⟩
  · exact .pure (Node.proper_make rfl (by simpa using Node.conforms_ofToken .identifier _ nofun) rfl)

theorem readDeclaration_gives (hk : (head tokens).kind ∈ [TokenKind.varWord, .letWord, .constWord]) :
    (readDeclaration rules).Gives Token.IsSpelled tokens (Node.Proper Node.isStatement) := by
  refine .advance_bind fun spelled rest => .room_bind fun n => ?_
  refine (Gives.commaSeparated (fun _ => readDeclarator_gives hrules) n).bind
    fun declarators rest hdeclarators => ?_
  refine readStatementEnd_gives.bind fun _ _ _ => .pure (Node.proper_make ?_ ?_ rfl)
  · simp only [Kind.admits, oneAndSome, Bool.and_eq_true, List.all_eq_true, Bool.not_eq_true',
      List.isEmpty_eq_false_iff]
    exact ⟨⟨Node.isLeafAmong_ofToken (spelled.declarationWord hk), hdeclarators.1⟩,
      fun n hn => (hdeclarators.2 n hn).sorted⟩
  · exact List.forall_mem_cons.mpr
      ⟨Node.conforms_ofToken .declarationWord _ nofun, fun n hn => (hdeclarators.2 n hn).conforms⟩

theorem readFunctionDeclaration_gives :
    (readFunctionDeclaration rules).Gives Token.IsSpelled tokens (Node.Proper Node.isStatement) := by
  refine .advance_bind fun _ _ => Gives.expect.bind fun name _ _ => ?_
  refine readParams_gives.bind fun params _ hparams => ?_
  refine (readBlock_gives hrules).bind fun body _ hbody => .pure (Node.proper_make ?_ ?_ rfl)
  · exact Bool.and_eq_true_iff.mpr ⟨Bool.and_eq_true_iff.mpr ⟨rfl, hparams.sorted⟩, hbody.sorted⟩
  · simpa using ⟨Node.conforms_ofToken .identifier _ nofun, hparams.conforms, hbody.conforms⟩

theorem readConditionalStatement_gives :
    (readConditionalStatement rules).Gives Token.IsSpelled tokens (Node.Proper Node.isStatement) := by
  refine .advance_bind fun _ _ => Gives.expect.bind fun _ rest _ => ?_
  refine (hrules .expression trivial rest).bind fun test _ htest => Gives.expect.bind fun _ rest _ => ?_
  refine (hrules .statement trivial rest).bind fun consequent _ hconsequent => ?_
  refine .accept_bind fun b rest => ?_
  split
  · refine (hrules .statement trivial rest).bind fun alternate _ halternate => ?_
    refine .pure (Node.proper_make ?_ ?_ rfl)
    · exact Bool.and_eq_true_iff.mpr ⟨Bool.and_eq_true_iff.mpr
        ⟨htest.sorted, hconsequent.sorted⟩, halternate.sorted⟩
    · simpa using ⟨htest.conforms, hconsequent.conforms, halternate.conforms⟩
  · refine .pure (Node.proper_make ?_ ?_ rfl)
    · exact Bool.and_eq_true_iff.mpr ⟨htest.sorted, hconsequent.sorted⟩
    · simpa using ⟨htest.conforms, hconsequent.conforms⟩

theorem readReturn_gives : (readReturn rules).Gives Token.IsSpelled tokens (Node.Proper Node.isStatement) := by
  refine .advance_bind fun _ rest => .current_bind fun _ => ?_
  split
  · exact readStatementEnd_gives.bind fun _ _ _ => .pure (Node.proper_make rfl (by simp) rfl)
  · refine (hrules .expression trivial rest).bind fun value _ hvalue => ?_
    exact readStatementEnd_gives.bind fun _ _ _ =>
      .pure (Node.proper_make hvalue.sorted (by simpa using hvalue.conforms) rfl)

/-- **Statements are proper.** -/
theorem readStatement_gives :
    (readStatement rules).Gives Token.IsSpelled tokens (Node.Proper Node.isStatement) := by
  refine .current_bind fun _ => ?_
  split
  · exact (readBlock_gives hrules).mono fun n hn => by
      obtain ⟨position, children, rfl⟩ := Node.isOf_iff.mp hn.sorted
      exact ⟨hn.conforms, rfl⟩
  · exact .advance_bind fun _ _ => .pure (Node.proper_make rfl (by simp) rfl)
  · rename_i hk
    exact readDeclaration_gives hrules (by simp [hk])
  · rename_i hk
    exact readDeclaration_gives hrules (by simp [hk])
  · rename_i hk
    exact readDeclaration_gives hrules (by simp [hk])
  · exact readFunctionDeclaration_gives hrules
  · exact readConditionalStatement_gives hrules
  · exact readReturn_gives hrules
  · refine (readExpression_gives hrules).bind fun e _ he => ?_
    exact readStatementEnd_gives.bind fun _ _ _ =>
      .pure (Node.proper_make he.sorted (by simpa using he.conforms) rfl)

/-! ## Whole texts -/

theorem readProgram_gives :
    (readProgram rules).Gives Token.IsSpelled tokens (Node.Proper (·.isOf .program)) := by
  refine .current_bind fun _ => .room_bind fun n => ?_
  refine (Gives.manyUntil (fun tokens => ?_) (hrules .statement trivial) n).bind
    fun statements _ hstatements => .pure (Node.proper_make ?_ (fun n hn =>
      (hstatements n hn).conforms) rfl)
  · exact .check
  · simpa [Kind.admits, Rule.sort] using fun n hn => (hstatements n hn).sorted

end Rules

/-- **Rules read to any depth are proper.** -/
theorem readRule_proper (depth : Nat) : (readRule depth).Proper := by
  induction depth with
  | zero => exact fun _ _ _ => .tooDeep
  | succ depth ih =>
    intro rule keeps tokens
    cases rule with
    | statement => exact readStatement_gives ih
    | expression => exact readExpression_gives ih
    | binary least => exact readBinary_gives ih
    | unary => exact readUnary_gives ih
    | construct => exact readConstruct_gives ih
    | fragment source line => exact .fragment (fun _ => readExpression_gives ih) keeps

/-- A program that is read from a text conforms, down to the expressions in its templates
and the bodies of its functions. -/
theorem parseProgram_proper {source : Text} {program : Node}
    (h : parseProgram source = .ok program) : program.Proper (·.isOf .program) := by
  have spelled : Token.Yields Token.IsSpelled source 1 := fun _ cut => tokenize_spelled cut
  have answer := parseProgram_gives (fun depth tokens => readProgram_gives (readRule_proper depth))
    spelled
  rwa [h] at answer

end Scriptlet
