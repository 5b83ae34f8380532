import Scriptlet.Proofs.Newline.Seam

/-!
# How statements start

Whether a line ends in front of the first token of a statement makes no difference to how the
statement is read: a reader that starts with a token consumes it or fails, and asks for its kind,
its text and where it stands. And there are tokens that no statement starts with, among them those
that could otherwise only carry on what stands in front.
-/

namespace Scriptlet

open Reader

/-- A reader **starts regardless** of whether a line ends in front of the first token. -/
def StartsRegardless (reader : Reader α) : Prop :=
  ∀ (t u : Token) (newline : Bool) (rest : List Token),
    reader ({ t with newlineBefore := newline } :: u :: rest) = reader (t :: u :: rest)

section Rules

variable {rules : Rules} {start start' : Token}

/-! ## Positions -/

theorem Node.make_congr (same : start.position = start'.position) (kind : Kind) (children : List Node) :
    Node.make kind children start = Node.make kind children start' := by
  rw [Node.make, Node.make, same]

theorem readCalls_congr (same : start.position = start'.position) (n : Nat) (callee : Node) :
    readCalls rules start n callee = readCalls rules start' n callee := by
  induction n generalizing callee with
  | zero => rfl
  | succ n ih =>
    simp only [readCalls, readNamedMember, readComputedMember, Node.make_congr same, ih]

theorem readOperators_congr (same : start.position = start'.position) (least n : Nat) (left : Node) :
    readOperators rules least start n left = readOperators rules least start' n left := by
  induction n generalizing left with
  | zero => rfl
  | succ n ih => simp only [readOperators, Node.make_congr same, ih]

/-! ## Expressions -/

theorem StartsRegardless.bind {reader : Reader α} {next : α → Reader β}
    (h : StartsRegardless reader) : StartsRegardless (reader >>= next) := by
  intro t u newline rest
  show (reader _ >>= _) = (reader _ >>= _)
  rw [h t u newline rest]

/-- Looking at the first token makes no difference where what follows does not tell. -/
theorem StartsRegardless.current_bind {next : Token → Reader β} (h : ∀ t, StartsRegardless (next t))
    (same : ∀ t newline, next { t with newlineBefore := newline } = next t) :
    StartsRegardless (current >>= next) := by
  intro t u newline rest
  rw [Reader.current_bind_cons, Reader.current_bind_cons, same, h]

theorem readTemplate_congr (t : Token) (newline : Bool) :
    readTemplate rules { t with newlineBefore := newline } = readTemplate rules t := by
  have parts (chunks : List Text) (expressions : List (Text × Nat)) :
      readTemplateParts rules { t with newlineBefore := newline } chunks expressions
        = readTemplateParts rules t chunks expressions := by
    induction chunks generalizing expressions with
    | nil => rfl
    | cons chunk chunks ih =>
      cases expressions with
      | nil =>
        simp only [readTemplateParts, ih]
        rfl
      | cons e expressions =>
        simp only [readTemplateParts, ih]
        rfl
  simp only [readTemplate, parts]
  rfl

theorem readPrimary_startsRegardless : StartsRegardless (readPrimary rules) := by
  rintro t u newline rest
  have template : readTemplate rules { t with newlineBefore := newline } (u :: rest)
      = readTemplate rules t (u :: rest) := by rw [readTemplate_congr]
  obtain ⟨kind, text, line, column, newlineBefore⟩ := t
  cases kind <;> first | rfl | exact template

theorem readHead_startsRegardless {construct : Reader Node} (h : StartsRegardless construct) :
    StartsRegardless (readHead rules construct) := by
  intro t u newline rest
  rw [readHead, Reader.check_bind_cons, Reader.check_bind_cons]
  dsimp only
  split
  · exact h t u newline rest
  · exact readPrimary_startsRegardless t u newline rest

theorem readConstruct_startsRegardless : StartsRegardless (readConstruct rules) :=
  fun _ _ _ _ => rfl

theorem readCallMember_startsRegardless : StartsRegardless (readCallMember rules) :=
  .current_bind (fun _ => (readHead_startsRegardless readConstruct_startsRegardless).bind)
    fun t newline => by
      have same : Token.position { t with newlineBefore := newline } = t.position := rfl
      simp only [readCalls_congr same]

theorem readPostfix_startsRegardless : StartsRegardless (readPostfix rules) :=
  .current_bind (fun _ => readCallMember_startsRegardless.bind) fun _ _ => rfl

theorem readUnary_startsRegardless : StartsRegardless (readUnary rules) := by
  intro t u newline rest
  rw [readUnary, Reader.current_bind_cons, Reader.current_bind_cons]
  show (if isPrefixOperator t then _ else _ : Reader Node) _ = _
  split
  · rfl
  · rw [Reader.checkStep_bind_cons, Reader.checkStep_bind_cons]
    dsimp only
    split
    · rfl
    · exact readPostfix_startsRegardless t u newline rest

theorem readBinary_startsRegardless {least : Nat} : StartsRegardless (readBinary rules least) :=
  .current_bind (fun _ => readUnary_startsRegardless.bind) fun t newline => by
    have same : Token.position { t with newlineBefore := newline } = t.position := rfl
    simp only [readOperators_congr same]

theorem readConditional_startsRegardless : StartsRegardless (readConditional rules) :=
  .current_bind (fun _ => readBinary_startsRegardless.bind) fun _ _ => rfl

theorem readArrow_startsRegardless : StartsRegardless (readArrow rules) := by
  rintro ⟨kind, text, line, column, newlineBefore⟩ u newline rest
  cases kind <;> rfl

theorem readExpression_startsRegardless : StartsRegardless (readExpression rules) := by
  intro t u newline rest
  have looks : ∃ b, checkArrow (t :: u :: rest) = .ok (b, t :: u :: rest)
      ∧ checkArrow ({ t with newlineBefore := newline } :: u :: rest)
        = .ok (b, { t with newlineBefore := newline } :: u :: rest) := by
    obtain ⟨kind, text, line, column, newlineBefore⟩ := t
    cases kind <;> exact ⟨_, rfl, rfl⟩
  obtain ⟨b, looks, looks'⟩ := looks
  rw [readExpression, Reader.bind_eq_of_ok looks, Reader.bind_eq_of_ok looks']
  cases b with
  | true => exact readArrow_startsRegardless t u newline rest
  | false =>
    rw [if_neg Bool.false_ne_true]
    refine StartsRegardless.current_bind (fun _ => readConditional_startsRegardless.bind) ?_ t u newline rest
    exact fun _ _ => rfl

/-! ## Statements -/

/-- **A statement starts regardless** of whether a line ends in front of it. -/
theorem readStatement_startsRegardless : StartsRegardless (readStatement rules) := by
  intro t u newline rest
  have expression : ((readExpression rules >>= fun expression => readStatementEnd >>= fun _ =>
      pure (Node.make .expressionStatement [expression] t) : Reader Node)
        ({ t with newlineBefore := newline } :: u :: rest))
      = (readExpression rules >>= fun expression => readStatementEnd >>= fun _ =>
      pure (Node.make .expressionStatement [expression] t)) (t :: u :: rest) :=
    readExpression_startsRegardless.bind t u newline rest
  obtain ⟨kind, text, line, column, newlineBefore⟩ := t
  cases kind <;> first | rfl | exact expression

/-- **What no statement starts with**: the end of the text, and of the tokens that carry on
something all but brackets, templates and operators. -/
theorem starts_of_readStatement {t : Token} {rest left : List Token} {n : Node}
    (parted : t.kind ∉ [.semicolon, .leftParen, .leftBracket, .template, .operator])
    (read : readStatement rules (t :: rest) = .ok (n, left)) :
    t.kind ∉ Seam.carriesOn ∧ t.kind ≠ .endOfText := by
  obtain ⟨kind, text, line, column, newlineBefore⟩ := t
  change kind ∉ _ at parted
  change kind ∉ _ ∧ kind ≠ _
  have stuck {kind : TokenKind} {cause : SyntaxError}
      (h : readStatement rules (⟨kind, text, line, column, newlineBefore⟩ :: rest) = .error cause) :
      readStatement rules (⟨kind, text, line, column, newlineBefore⟩ :: rest) ≠ .ok (n, left) := by
    rw [h]
    exact nofun
  cases kind <;> first | exact by decide | exact absurd (by decide) parted | exact absurd read (stuck rfl)

end Rules

end Scriptlet
